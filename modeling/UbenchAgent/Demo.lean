import UbenchAgent.Isolation
import UbenchAgent.MergerComposition
import UbenchAgent.AlignedTable
import UbenchAgent.Support

/-!
# `UbenchDemo`

The program that measures a loop with several event sets at once: it checks the events of its
command line, creates one event set for each group of them, starts and stops all of them in each
turn of the loop, merges their results and prints the table.
-/

namespace UbenchAgent

open Columns RewindLog

/-- An argument, taken apart: `--loops=`, `--events=` with the texts between the commas, or
anything else. -/
inductive DemoArgument
  | loops (loops : Int32)
  | events (ev : List String)
  | other (arg : String)

inductive DemoExit
  | usage
  | unknownEvent (e : String)
  deriving DecidableEq

structure DemoOptions where
  inputFilename : Option String
  loops : Int32
  events : List (List String)

def DemoOptions.argument (supported : String → Bool) (options : DemoOptions) :
    DemoArgument → Except DemoExit DemoOptions
  | .loops loops =>
    if loops ≤ 0 then .error .usage else .ok { options with loops := loops }
  | .events ev =>
    match ev.find? fun e => !supported e with
    | some e => .error (.unknownEvent e)
    | none => .ok { options with events := options.events ++ [ev] }
  | .other arg =>
    if options.inputFilename ≠ none then .error .usage
    else .ok { options with inputFilename := some arg }

def parseArguments (supported : String → Bool) (args : List DemoArgument) :
    Except DemoExit DemoOptions :=
  match args.foldlM (DemoOptions.argument supported) ⟨none, 10, []⟩ with
  | .error e => .error e
  | .ok options =>
    if options.inputFilename = none then .error .usage
    else if options.events = [] then .ok { options with events := [["SYS:wallclock-time"]] }
    else .ok options

/-- What the program gets: the outcome of the creation of each event set, and what the calls of
each turn of the loop read for each event set. -/
structure DemoEnvironment where
  create : ℕ → CreateOutcomes
  readings : ℕ → ℕ → Reading × Reading

inductive DemoException
  | measurement (e : MeasurementException)
  | merger (e : JavaException)

/-- How `main` ends, if the digest is there and the input file can be opened, read and closed. -/
inductive DemoOutcome
  | exited (e : DemoExit)
  | thrown (e : DemoException)
  | printed (table : Printed)

def createEventSets (hasPapi : Bool) (loops : Int32) (create : ℕ → CreateOutcomes) :
    ℕ → List (List String) → Agent → Agent × Except MeasurementException (List ℤ)
  | _, [], a => (a, .ok [])
  | i, ev :: events, a =>
    match createEventSet hasPapi a ⟨loops, ev, []⟩ (create i) with
    | (a, .error e) => (a, .error e)
    | (a, .ok id) =>
      match createEventSets hasPapi loops create (i + 1) events a with
      | (a, .error e) => (a, .error e)
      | (a, .ok ids) => (a, .ok (id :: ids))

/-- `action`: what it measures is left out. -/
def action (a : Agent) (eventSets : List ℤ) (readings : ℕ → Reading × Reading) :
    Except Fault (Agent × Except MeasurementException Unit) := do
  let (a, result) ← start a (eventSets.zipIdx.map fun x => (x.1, (readings x.2).1))
  match result with
  | .error e => .ok (a, .error e)
  | .ok () => stop a (eventSets.zipIdx.map fun x => (x.1, (readings x.2).2))

def demoLoop (eventSets : List ℤ) (readings : ℕ → ℕ → Reading × Reading) :
    List ℕ → Agent → Except Fault (Agent × Except MeasurementException Unit)
  | [], a => .ok (a, .ok ())
  | i :: turns, a => do
    let (a, result) ← action a eventSets (readings i)
    match result with
    | .error e => .ok (a, .error e)
    | .ok () => demoLoop eventSets readings turns a

def mergeResults (a : Agent) : List ℤ → BenchmarkResultsMerger →
    Except Fault (Except DemoException BenchmarkResultsMerger)
  | [], results => .ok (.ok results)
  | ev :: eventSets, results => do
    let result ← getResults a ev
    match result with
    | .error e => .ok (.error (.measurement e))
    | .ok res =>
      match results.addColumns (.columns res) (some "") with
      | (_, .error e) => .ok (.error (.merger e))
      | (results, .ok ()) => mergeResults a eventSets results

/-- `main` behind the command line.  The digest and the input file are taken to work, so there is
no `NoSuchAlgorithmException`, `FileNotFoundException` or `IOException`. -/
def measureAndPrint (hasPapi : Bool) (options : DemoOptions) (env : DemoEnvironment) (a : Agent) :
    Except Fault (Agent × DemoOutcome) :=
  match createEventSets hasPapi options.loops env.create 0 options.events a with
  | (a, .error e) => .ok (a, .thrown (.measurement e))
  | (a, .ok eventSets) => do
    let (a, result) ← demoLoop eventSets env.readings (List.range options.loops.toInt.toNat) a
    match result with
    | .error e => .ok (a, .thrown (.measurement e))
    | .ok () =>
      let results ← mergeResults a eventSets .new
      match results with
      | .error e => .ok (a, .thrown e)
      | .ok results => .ok (a, .printed (tableOptimal ⟨results.getEventNames, results.data⟩))

def demoMain (hasPapi : Bool) (papi : PapiLibrary) (frame : ResolveFrame)
    (args : List DemoArgument) (env : DemoEnvironment) (a : Agent) :
    Except Fault (Agent × DemoOutcome) :=
  match parseArguments (isEventSupported hasPapi papi frame) args with
  | .error e => .ok (a, .exited e)
  | .ok options => measureAndPrint hasPapi options env a

section Each

variable {a : Agent} {calls : List (ℤ × SetCall)}

/-- Calls on distinct event sets that all succeed are all made, each on its own event set. -/
theorem forEachEventset_each (hnodup : (calls.map Prod.fst).Nodup)
    (hserve : ∀ x ∈ calls, ∃ config config', a.validConfig x.1 = some config ∧
      x.2.apply config = .ok config') :
    ∃ a', forEachEventset calls a = .ok (a', .ok ()) ∧
      ∀ x ∈ calls, ∀ config, a.validConfig x.1 = some config →
        ∃ config', x.2.apply config = .ok config' ∧ a'.validConfig x.1 = some config' := by
  induction calls generalizing a with
  | nil => exact ⟨a, rfl, fun x hx => absurd hx List.not_mem_nil⟩
  | cons x rest ih =>
    obtain ⟨id, call⟩ := x
    obtain ⟨hid, hrest⟩ := List.nodup_cons.mp hnodup
    obtain ⟨⟨config, config', hc, happly⟩, hserve⟩ := List.forall_mem_cons.mp hserve
    have hother : ∀ y ∈ rest, (a.setEventset id ⟨config', true⟩).validConfig y.1 =
        a.validConfig y.1 := by
      intro y hy
      rw [validConfig_setValid hc, if_neg]
      intro heq
      exact hid (heq ▸ List.mem_map_of_mem hy)
    obtain ⟨a', hloop, heach⟩ := ih hrest (a := a.setEventset id ⟨config', true⟩) (by
      intro y hy
      rw [hother y hy]
      exact hserve y hy)
    refine ⟨a', ?_, ?_⟩
    · rw [forEachEventset, hc]
      dsimp only
      rw [happly]
      exact hloop
    · rw [List.forall_mem_cons]
      constructor
      · intro config₁ hc₁
        obtain rfl : config = config₁ := Option.some.inj (hc.symm.trans hc₁)
        refine ⟨config', happly, ?_⟩
        rw [forEachEventset_other hloop hid, validConfig_setValid hc, if_pos rfl]
      · intro y hy config₁ hc₁
        exact heach y hy config₁ ((hother y hy).trans hc₁)

theorem withIds_each (hnodup : (calls.map Prod.fst).Nodup)
    (hserve : ∀ x ∈ calls, ∃ config config', a.validConfig x.1 = some config ∧
      x.2.apply config = .ok config') :
    ∃ a', withIds a calls = .ok (a', .ok ()) ∧
      (∀ x ∈ calls, ∀ config, a.validConfig x.1 = some config →
        ∃ config', x.2.apply config = .ok config' ∧ a'.validConfig x.1 = some config') ∧
      ∀ id, id ∉ calls.map Prod.fst → a'.validConfig id = a.validConfig id := by
  obtain ⟨a₁, hloop, heach⟩ := forEachEventset_each (a := { a with
    ledger := (a.ledger.acquire .intArray).2 }) hnodup hserve
  have hother : ∀ id, id ∉ calls.map Prod.fst → a₁.validConfig id = a.validConfig id := by
    intro id hid
    have hsame := forEachEventset_other hloop hid
    exact hsame
  unfold withIds
  split_ifs with hempty
  · obtain rfl := List.length_eq_zero_iff.mp hempty
    exact ⟨a, rfl, fun x hx => absurd hx List.not_mem_nil, fun _ _ => rfl⟩
  · dsimp only
    rw [hloop]
    exact ⟨_, rfl, heach, hother⟩

end Each

def EnoughMemory (create : ℕ → CreateOutcomes) : Prop :=
  ∀ k, (create k).realloc = true ∧ (create k).callocData = true ∧
    (create k).callocEvents = true ∧ ∀ i, (create k).strdup i = true

section Sets

variable (hasPapi : Bool) (loops : Int32) (create : ℕ → CreateOutcomes)

/-- The id names an event set that was created for the events at their position and has gone
through some calls. -/
def WentThrough (a : Agent) (ev : List String) (x : ℤ × ℕ) (calls : List SetCall) : Prop :=
  ∃ config₀ config, Created hasPapi ⟨loops, ev, []⟩ (create x.2).toSetupOutcomes
      (CreateArgs.size ⟨loops, ev, []⟩) config₀ ∧
    calls.foldlM SetCall.apply config₀ = .ok config ∧ a.validConfig x.1 = some config

structure DemoSets (events : List (List String)) (a : Agent) (ids : List ℤ)
    (done : ℕ → List SetCall) : Prop where
  nodup : ids.Nodup
  went : List.Forall₂ (fun ev x => WentThrough hasPapi loops create a ev x (done x.2)) events
    ids.zipIdx

variable {hasPapi loops create}

variable (hasPapi) in
theorem createEventSets_ok {events : List (List String)} (hmeas : 0 < loops * 2)
    (hnames : ∀ ev ∈ events, ev ≠ [] ∧ ∀ name ∈ ev, quantityOf name ≠ none)
    (hmemory : EnoughMemory create) (a : Agent) (i : ℕ) :
    ∃ a' ids, createEventSets hasPapi loops create i events a = (a', .ok ids) ∧ ids.Nodup ∧
      (∀ id ∈ ids, a.validConfig id = none) ∧
      (∀ id, id ∉ ids → a'.validConfig id = a.validConfig id) ∧
      List.Forall₂ (fun ev x => WentThrough hasPapi loops create a' ev x []) events
        (ids.zipIdx i) := by
  induction events generalizing a i with
  | nil =>
    exact ⟨a, [], rfl, List.nodup_nil, fun _ hid => absurd hid List.not_mem_nil, fun _ _ => rfl,
      .nil⟩
  | cons ev events ih =>
    obtain ⟨⟨hne, hsup⟩, hnames⟩ := List.forall_mem_cons.mp hnames
    obtain ⟨hrealloc, hdata, hevents, -⟩ := hmemory i
    have hacc : Accepted hasPapi a ⟨loops, ev, []⟩ (create i) :=
      accepted_supported hasPapi hmeas hne hsup (.inr hrealloc) hdata hevents
    obtain ⟨a₁, config, hcreate, hcreated, htable, -⟩ := createEventSet_accepted hacc
    obtain ⟨a', ids, hrest, hnodup, hfresh, hother, hwent⟩ := ih hnames a₁ (i + 1)
    have hlive : a₁.validConfig a.freeSlot = some config := by rw [htable, if_pos rfl]
    have hid : (a.freeSlot : ℤ) ∉ ids := by
      intro hmem
      rw [hfresh _ hmem] at hlive
      cases hlive
    have hbefore : ∀ id : ℤ, id ≠ a.freeSlot → a₁.validConfig id = a.validConfig id :=
      fun id hne => (htable id).trans (if_neg hne)
    refine ⟨a', a.freeSlot :: ids, ?_, List.nodup_cons.mpr ⟨hid, hnodup⟩, ?_, ?_, ?_⟩
    · rw [createEventSets, hcreate]
      dsimp only
      rw [hrest]
    · rw [List.forall_mem_cons]
      refine ⟨validConfig_freeSlot a, fun id hmem => ?_⟩
      rw [← hbefore id (fun heq => hid (heq ▸ hmem))]
      exact hfresh id hmem
    · intro id hnot
      rw [List.mem_cons, not_or] at hnot
      rw [hother id hnot.2, hbefore id hnot.1]
    · rw [List.zipIdx_cons]
      exact .cons ⟨config, config, hcreated, rfl, (hother _ hid).trans hlive⟩ hwent

theorem exists_of_forall₂_right {α β : Type*} {R : α → β → Prop} {l : List α} {l' : List β}
    (h : List.Forall₂ R l l') : ∀ b ∈ l', ∃ a ∈ l, R a b := by
  induction h with
  | nil => exact List.forall_mem_nil _
  | @cons a b l l' hab _ ih =>
    rw [List.forall_mem_cons]
    refine ⟨⟨a, List.mem_cons_self, hab⟩, fun b' hb' => ?_⟩
    obtain ⟨a', ha', hR⟩ := ih b' hb'
    exact ⟨a', List.mem_cons_of_mem _ ha', hR⟩

theorem map_fst_calls (ids : List ℤ) (call : ℕ → SetCall) :
    (ids.zipIdx.map fun x => (x.1, call x.2)).map Prod.fst = ids := by
  rw [List.map_map]
  exact List.zipIdx_map_fst 0 ids

/-- One call with all ids takes each event set through one more call. -/
theorem DemoSets.serve {events : List (List String)} {a : Agent} {ids : List ℤ}
    {done : ℕ → List SetCall} (h : DemoSets hasPapi loops create events a ids done)
    (call : ℕ → SetCall)
    (hroom : ∀ ev ∈ events, ∀ k config₀, Created hasPapi ⟨loops, ev, []⟩
        (create k).toSetupOutcomes (CreateArgs.size ⟨loops, ev, []⟩) config₀ →
      ∃ config, (done k ++ [call k]).foldlM SetCall.apply config₀ = .ok config) :
    ∃ a', withIds a (ids.zipIdx.map fun x => (x.1, call x.2)) = .ok (a', .ok ()) ∧
      DemoSets hasPapi loops create events a' ids (fun k => done k ++ [call k]) ∧
      ∀ id, id ∉ ids → a'.validConfig id = a.validConfig id := by
  have hone : ∀ ev ∈ events, ∀ x, WentThrough hasPapi loops create a ev x (done x.2) →
      ∃ config₀ config config', Created hasPapi ⟨loops, ev, []⟩ (create x.2).toSetupOutcomes
          (CreateArgs.size ⟨loops, ev, []⟩) config₀ ∧
        (done x.2 ++ [call x.2]).foldlM SetCall.apply config₀ = .ok config' ∧
        a.validConfig x.1 = some config ∧ (call x.2).apply config = .ok config' := by
    rintro ev hev x ⟨config₀, config, hcreated, hfold, hc⟩
    obtain ⟨config', hfold'⟩ := hroom ev hev x.2 config₀ hcreated
    refine ⟨config₀, config, config', hcreated, hfold', hc, ?_⟩
    rw [List.foldlM_append, hfold] at hfold'
    have hlast : [call x.2].foldlM SetCall.apply config = .ok config' := hfold'
    rw [List.foldlM_cons] at hlast
    obtain ⟨config₁, happly, heq⟩ := except_bind_ok.mp hlast
    rw [happly]
    exact heq
  have hnodup : ((ids.zipIdx.map fun x => (x.1, call x.2)).map Prod.fst).Nodup := by
    rw [map_fst_calls]
    exact h.nodup
  have hserve : ∀ y ∈ ids.zipIdx.map fun x => (x.1, call x.2), ∃ config config',
      a.validConfig y.1 = some config ∧ y.2.apply config = .ok config' := by
    rw [List.forall_mem_map]
    intro x hx
    obtain ⟨ev, hev, hwent⟩ := exists_of_forall₂_right h.went x hx
    obtain ⟨-, config, config', -, -, hc, happly⟩ := hone ev hev x hwent
    exact ⟨config, config', hc, happly⟩
  obtain ⟨a', hserved, heach, hother⟩ := withIds_each hnodup hserve
  rw [List.forall_mem_map] at heach
  rw [map_fst_calls] at hother
  refine ⟨a', hserved, ⟨h.nodup, ?_⟩, hother⟩
  have hmem := List.forall₂_iff_zip.mp h.went
  refine List.forall₂_iff_zip.mpr ⟨hmem.1, fun {ev x} hzip => ?_⟩
  obtain ⟨hev, hx⟩ := List.of_mem_zip hzip
  obtain ⟨config₀, config, config', hcreated, hfold', hc, happly⟩ := hone ev hev x (hmem.2 hzip)
  obtain ⟨config₁, happly₁, hc₁⟩ := heach x hx config hc
  obtain rfl : config' = config₁ := Except.ok.inj (happly.symm.trans happly₁)
  exact ⟨config₀, config', hcreated, hfold', hc₁⟩

end Sets

def turnCalls (readings : ℕ → ℕ → Reading × Reading) (n k : ℕ) : List SetCall :=
  loopCalls ((List.range n).map fun i => readings i k)

theorem turnCalls_succ (readings : ℕ → ℕ → Reading × Reading) (n k : ℕ) :
    turnCalls readings (n + 1) k = turnCalls readings n k ++
      [SetCall.start (readings n k).1] ++ [SetCall.stop (readings n k).2] := by
  unfold turnCalls loopCalls
  rw [List.range_succ, List.map_append, List.flatMap_append, List.append_assoc]
  rfl

theorem exists_foldlM_append {calls calls' : List SetCall}
    {config₀ : BenchmarkConfiguration}
    (h : ∃ config, (calls ++ calls').foldlM SetCall.apply config₀ = .ok config) :
    ∃ config, calls.foldlM SetCall.apply config₀ = .ok config := by
  obtain ⟨config', h⟩ := h
  rw [List.foldlM_append] at h
  obtain ⟨config, hfold, -⟩ := except_bind_ok.mp h
  exact ⟨config, hfold⟩

section Loop

variable {hasPapi : Bool} {loops : Int32} {create : ℕ → CreateOutcomes}
  {readings : ℕ → ℕ → Reading × Reading} {ev : List String} {k : ℕ}
  {config₀ : BenchmarkConfiguration}

variable (readings) in
theorem foldlM_turnCalls (hN : 1 ≤ loops) (hfits : 2 * loops.toInt < 2 ^ 31)
    (h : Created hasPapi ⟨loops, ev, []⟩ (create k).toSetupOutcomes
      (CreateArgs.size ⟨loops, ev, []⟩) config₀) (n : ℕ) :
    ∃ config writer rc2, (turnCalls readings n k).foldlM SetCall.apply config₀ = .ok config ∧
      LogInv config ∧ Recorded config writer rc2 ∧
      Shows config writer (loopLog loops.toInt.toNat ((List.range n).map fun i =>
        readings i k)) := by
  have hmeas : 0 < (CreateArgs.mk loops ev []).jmeasurements * 2 := doubled_pos hN hfits
  have hn : 1 ≤ loops.toInt.toNat := by
    have : 1 ≤ loops.toInt := Int32.le_iff_toInt_le.mp hN
    omega
  have hsize : config₀.dataSize = 2 * loops.toInt.toNat :=
    h.dataSize.trans ((size_spec hmeas).2.2 hN)
  exact h.foldlM_loopHistory hmeas hn hsize [] ((List.range n).map fun i => readings i k)

variable {events : List (List String)} {a : Agent} {ids : List ℤ} {n : ℕ}

theorem DemoSets.action (h : DemoSets hasPapi loops create events a ids (turnCalls readings n))
    (hN : 1 ≤ loops) (hfits : 2 * loops.toInt < 2 ^ 31) :
    ∃ a', UbenchAgent.action a ids (readings n) = .ok (a', .ok ()) ∧
      DemoSets hasPapi loops create events a' ids (turnCalls readings (n + 1)) ∧
      ∀ id, id ∉ ids → a'.validConfig id = a.validConfig id := by
  have hturn : ∀ ev ∈ events, ∀ k config₀, Created hasPapi ⟨loops, ev, []⟩
        (create k).toSetupOutcomes (CreateArgs.size ⟨loops, ev, []⟩) config₀ →
      ∃ config, (turnCalls readings n k ++ [SetCall.start (readings n k).1] ++
        [SetCall.stop (readings n k).2]).foldlM SetCall.apply config₀ = .ok config := by
    intro ev hev k config₀ hcreated
    obtain ⟨config, writer, rc2, hfold, -⟩ :=
      foldlM_turnCalls readings hN hfits hcreated (n + 1)
    rw [turnCalls_succ] at hfold
    exact ⟨config, hfold⟩
  obtain ⟨a₁, hstart, hstarted, hother₁⟩ := h.serve (fun k => .start (readings n k).1)
    fun ev hev k config₀ hcreated => exists_foldlM_append (hturn ev hev k config₀ hcreated)
  obtain ⟨a₂, hstop, hstopped, hother₂⟩ := hstarted.serve (fun k => .stop (readings n k).2) hturn
  refine ⟨a₂, ?_, ?_, fun id hid => (hother₂ id hid).trans (hother₁ id hid)⟩
  · unfold UbenchAgent.action start stop
    rw [List.map_map, List.map_map]
    have hstart' : withIds a (ids.zipIdx.map ((fun x : ℤ × Reading => (x.1, SetCall.start x.2)) ∘
        fun x => (x.1, (readings n x.2).1))) = .ok (a₁, .ok ()) := hstart
    rw [hstart']
    exact hstop
  · have hdone : turnCalls readings (n + 1) = fun k =>
        turnCalls readings n k ++ [.start (readings n k).1] ++ [.stop (readings n k).2] := by
      funext k
      exact turnCalls_succ readings n k
    rw [hdone]
    exact hstopped

/-- The loop takes every event set of the program through all turns. -/
theorem DemoSets.loop (h : DemoSets hasPapi loops create events a ids (turnCalls readings n))
    (hN : 1 ≤ loops) (hfits : 2 * loops.toInt < 2 ^ 31) (m : ℕ) :
    ∃ a', demoLoop ids readings (List.range' n m) a = .ok (a', .ok ()) ∧
      DemoSets hasPapi loops create events a' ids (turnCalls readings (n + m)) ∧
      ∀ id, id ∉ ids → a'.validConfig id = a.validConfig id := by
  induction m generalizing n a with
  | zero => exact ⟨a, rfl, h, fun _ _ => rfl⟩
  | succ m ih =>
    obtain ⟨a₁, haction, hnext, hother₁⟩ := h.action hN hfits
    obtain ⟨a₂, hloop, hlast, hother₂⟩ := ih hnext
    refine ⟨a₂, ?_, ?_, fun id hid => (hother₂ id hid).trans (hother₁ id hid)⟩
    · rw [List.range'_succ, demoLoop, haction]
      exact hloop
    · rw [show n + (m + 1) = n + 1 + m by omega]
      exact hlast

end Loop

def turnRow (readings : ℕ → ℕ → Reading × Reading) (x : List String × ℕ) (i : ℕ) : List Int64 :=
  x.1.map (columnOf (readings i x.2))

/-- What the program is to print: all events in order, and a row for each turn. -/
def DemoOptions.table (options : DemoOptions) (readings : ℕ → ℕ → Reading × Reading) :
    BenchmarkResults :=
  ⟨options.events.flatten.map some, (List.range options.loops.toInt.toNat).map fun i =>
    options.events.zipIdx.flatMap fun x => turnRow readings x i⟩

section Results

variable {hasPapi : Bool} {loops : Int32} {create : ℕ → CreateOutcomes}
  {readings : ℕ → ℕ → Reading × Reading} {ev : List String} {a : Agent}

theorem WentThrough.getResults {x : ℤ × ℕ}
    (h : WentThrough hasPapi loops create a ev x (turnCalls readings loops.toInt.toNat x.2))
    (hN : 1 ≤ loops) (hfits : 2 * loops.toInt < 2 ^ 31)
    (hsup : ∀ name ∈ ev, quantityOf name ≠ none) (hstrdup : ∀ i, (create x.2).strdup i = true) :
    UbenchAgent.getResults a x.1 = .ok (.ok ⟨ev.map some,
      (List.range loops.toInt.toNat).map (turnRow readings (ev, x.2))⟩) := by
  obtain ⟨config₀, config, hcreated, hfold, hc⟩ := h
  obtain ⟨config₁, writer, rc2, hfold₁, hinv, hrec, hshows⟩ :=
    foldlM_turnCalls readings hN hfits hcreated loops.toInt.toNat
  obtain rfl : config = config₁ := Except.ok.inj (hfold.symm.trans hfold₁)
  have hkeep : keepLast loops.toInt.toNat ((List.range loops.toInt.toNat).map fun i =>
      readings i x.2) = (List.range loops.toInt.toNat).map fun i => readings i x.2 := by
    rw [keepLast, if_pos]
    rw [List.length_map, List.length_range]
  rw [UbenchAgent.getResults, hc]
  dsimp only
  rw [hcreated.getResultsOf_loop hsup hstrdup hfold hinv hrec hshows, hkeep, List.map_map]
  rfl

theorem javaConcat_empty (name : String) : javaConcat (some "") (some name) = some name :=
  congrArg some String.empty_append

theorem mergeResults_ok {height : ℕ} {rows : List String × ℕ → List (List Int64)}
    {events : List (List String)} {i : ℕ} {ids : List ℤ}
    (hrows : ∀ x ∈ events.zipIdx i, (rows x).length = height ∧
      ∀ row ∈ rows x, row.length = x.1.length)
    (hresults : List.Forall₂ (fun ev x => UbenchAgent.getResults a x.1 =
      .ok (.ok ⟨ev.map some, rows (ev, x.2)⟩)) events (ids.zipIdx i))
    {blocks : List (Block JavaString Int64)} {m : BenchmarkResultsMerger}
    (hbuilt : Built height blocks m) (hheight : ∀ b ∈ blocks, b.rows.length = height)
    (hwidth : ∀ b ∈ blocks, b.Rectangular) :
    ∃ m', mergeResults a ids m = .ok (.ok m') ∧ Built height
      (blocks ++ (events.zipIdx i).map fun x => ⟨x.1.map some, rows x⟩) m' := by
  induction events generalizing i ids blocks m with
  | nil =>
    obtain rfl : ids = [] := List.zipIdx_eq_nil_iff.mp (List.forall₂_nil_left_iff.mp hresults)
    refine ⟨m, rfl, ?_⟩
    rw [List.zipIdx_nil, List.map_nil, List.append_nil]
    exact hbuilt
  | cons ev events ih =>
    cases ids with
    | nil => cases hresults
    | cons id ids =>
      rw [List.zipIdx_cons] at hrows hresults ⊢
      obtain ⟨⟨hlength, hcells⟩, hrows⟩ := List.forall_mem_cons.mp hrows
      cases hresults with
      | cons hresult hresults =>
        have hc : (MergerCall.addColumns (.columns ⟨ev.map some, rows (ev, i)⟩)
            (some "")).Rectangle height := by
          refine ⟨hlength, fun row hrow => ?_⟩
          rw [hcells row hrow, List.length_map]
        have hblock : (MergerCall.addColumns (.columns ⟨ev.map some, rows (ev, i)⟩)
            (some "")).block .new = ⟨ev.map some, rows (ev, i)⟩ := by
          have hnames : (ev.map some).map (javaConcat (some "")) = ev.map some := by
            rw [List.map_map]
            exact List.map_congr_left fun name _ => javaConcat_empty name
          exact congrArg (fun names => Block.mk names (rows (ev, i))) hnames
        obtain ⟨m₁, hadd, hbuilt₁⟩ := hbuilt.apply hheight hwidth hc
        have hheight₁ := List.forall_mem_append.mpr
          ⟨hheight, List.forall_mem_singleton.mpr hc.length_rows⟩
        have hwidth₁ := List.forall_mem_append.mpr
          ⟨hwidth, List.forall_mem_singleton.mpr hc.rectangular⟩
        obtain ⟨m', hmerge, hbuilt'⟩ := ih hrows hresults hbuilt₁ hheight₁ hwidth₁
        refine ⟨m', ?_, ?_⟩
        · rw [mergeResults, hresult]
          have hadd' : m.addColumns (.columns ⟨ev.map some, rows (ev, i)⟩) (some "") =
              (m₁, .ok ()) := hadd
          dsimp only [bind, Except.bind]
          rw [hadd']
          exact hmerge
        · rw [hblock, List.append_assoc] at hbuilt'
          exact hbuilt'

end Results

structure DemoOptions.Checked (supported : String → Bool) (options : DemoOptions) : Prop where
  loops : 0 < options.loops
  events : ∀ ev ∈ options.events, ∀ e ∈ ev, supported e = true

section Arguments

variable {supported : String → Bool} {options options' : DemoOptions}

theorem DemoOptions.Checked.argument (h : options.Checked supported) {arg : DemoArgument}
    (hstep : options.argument supported arg = .ok options') : options'.Checked supported := by
  cases arg with
  | loops loops =>
    rw [DemoOptions.argument] at hstep
    split_ifs at hstep with hpositive
    cases hstep
    exact ⟨Int32.not_le.mp hpositive, h.events⟩
  | events ev =>
    rw [DemoOptions.argument] at hstep
    cases hfind : ev.find? fun e => !supported e with
    | some e =>
      rw [hfind] at hstep
      cases hstep
    | none =>
      rw [hfind] at hstep
      cases hstep
      refine ⟨h.loops, List.forall_mem_append.mpr ⟨h.events, List.forall_mem_singleton.mpr ?_⟩⟩
      intro e he
      have hsupported := List.find?_eq_none.mp hfind e he
      simpa using hsupported
  | other arg =>
    rw [DemoOptions.argument] at hstep
    split_ifs at hstep with hfilename
    cases hstep
    exact ⟨h.loops, h.events⟩

theorem DemoOptions.Checked.arguments (h : options.Checked supported) {args : List DemoArgument}
    (hfold : args.foldlM (DemoOptions.argument supported) options = .ok options') :
    options'.Checked supported := by
  induction args generalizing options with
  | nil =>
    cases hfold
    exact h
  | cons arg args ih =>
    rw [List.foldlM_cons] at hfold
    obtain ⟨options₁, hstep, hrest⟩ := except_bind_ok.mp hfold
    exact ih (h.argument hstep) hrest

/-- The program goes on with a positive number of loops and with some events, all of them
supported. -/
theorem parseArguments_checked {args : List DemoArgument}
    (hdefault : supported "SYS:wallclock-time" = true)
    (h : parseArguments supported args = .ok options) :
    options.Checked supported ∧ options.events ≠ [] := by
  have hinitial : DemoOptions.Checked supported ⟨none, 10, []⟩ :=
    ⟨by decide, List.forall_mem_nil _⟩
  unfold parseArguments at h
  cases hfold : args.foldlM (DemoOptions.argument supported) ⟨none, 10, []⟩ with
  | error e =>
    rw [hfold] at h
    cases h
  | ok options₁ =>
    rw [hfold] at h
    have hchecked := hinitial.arguments hfold
    dsimp only at h
    split_ifs at h with hfilename hempty
    · cases h
      refine ⟨⟨hchecked.loops, ?_⟩, List.cons_ne_nil _ _⟩
      exact List.forall_mem_singleton.mpr (List.forall_mem_singleton.mpr hdefault)
    · cases h
      exact ⟨hchecked, hempty⟩

end Arguments

section Table

variable {options : DemoOptions} {readings : ℕ → ℕ → Reading × Reading}

theorem Built.table {m : BenchmarkResultsMerger}
    (h : Built options.loops.toInt.toNat (options.events.zipIdx.map fun x =>
      ⟨x.1.map some, (List.range options.loops.toInt.toNat).map (turnRow readings x)⟩) m)
    (hevents : options.events ≠ []) (hgroups : ∀ ev ∈ options.events, ev ≠ []) :
    (⟨m.getEventNames, m.data⟩ : BenchmarkResults) = options.table readings := by
  have hnames : m.events = options.events.flatten.map some := by
    rw [h.events, joined_names, List.flatMap_map]
    change (options.events.zipIdx.flatMap fun x => x.1.map some) = _
    rw [← List.map_flatMap, List.flatMap_def, List.zipIdx_map_fst]
  have hne : ¬ m.events.length < 1 := by
    obtain ⟨ev, hev⟩ := List.exists_mem_of_ne_nil _ hevents
    obtain ⟨name, hname⟩ := List.exists_mem_of_ne_nil _ (hgroups ev hev)
    have hmem : some name ∈ m.events := by
      rw [hnames]
      exact List.mem_map_of_mem (List.mem_flatten_of_mem hev hname)
    have := List.length_pos_of_mem hmem
    omega
  have hblocks : (options.events.zipIdx.map fun x => (⟨x.1.map some,
      (List.range options.loops.toInt.toNat).map (turnRow readings x)⟩ :
        Block JavaString Int64)) ≠ [] := by
    rw [Ne, List.map_eq_nil_iff, List.zipIdx_eq_nil_iff]
    exact hevents
  have hrows := joined_rows_map (List.range options.loops.toInt.toNat) options.events.zipIdx
    (fun x => x.1.map some) (turnRow readings)
  rw [List.length_range] at hrows
  rw [BenchmarkResultsMerger.getEventNames, if_neg hne, hnames, h.data, if_neg hblocks, hrows]
  rfl

theorem DemoOptions.length_row (options : DemoOptions) (readings : ℕ → ℕ → Reading × Reading) :
    ∀ row ∈ (List.range options.loops.toInt.toNat).map fun i =>
        options.events.zipIdx.flatMap fun x => turnRow readings x i,
      row.length = options.events.flatten.length := by
  rw [List.forall_mem_map]
  intro i hi
  rw [List.length_flatMap, List.length_flatten]
  have hlengths : (options.events.zipIdx.map fun x => (turnRow readings x i).length) =
      options.events.zipIdx.map (List.length ∘ Prod.fst) :=
    List.map_congr_left fun x hx => List.length_map _
  rw [hlengths, ← List.map_map, List.zipIdx_map_fst]

end Table

/-- With supported events the program prints its table and leaves all other event sets alone. -/
theorem measureAndPrint_prints (hasPapi : Bool) {options : DemoOptions} {env : DemoEnvironment}
    (hN : 1 ≤ options.loops) (hfits : 2 * options.loops.toInt < 2 ^ 31)
    (hevents : options.events ≠ [])
    (hnames : ∀ ev ∈ options.events, ev ≠ [] ∧ ∀ name ∈ ev, quantityOf name ≠ none)
    (hmemory : EnoughMemory env.create) (a : Agent) :
    ∃ a', measureAndPrint hasPapi options env a =
        .ok (a', .printed (tableOptimal (options.table env.readings))) ∧
      ∀ id config, a.validConfig id = some config → a'.validConfig id = some config := by
  have hmeas := doubled_pos hN hfits
  obtain ⟨a₁, ids, hcreate, hnodup, hfresh, hother₁, hwent⟩ :=
    createEventSets_ok hasPapi hmeas hnames hmemory a 0
  have hstart : DemoSets hasPapi options.loops env.create options.events a₁ ids
      (turnCalls env.readings 0) := ⟨hnodup, hwent⟩
  obtain ⟨a₂, hloop, hlast, hother₂⟩ := hstart.loop hN hfits options.loops.toInt.toNat
  rw [Nat.zero_add] at hlast
  rw [← List.range_eq_range'] at hloop
  -- All event sets show one row for each turn, so their results fit together.
  have hresults : List.Forall₂ (fun ev x => UbenchAgent.getResults a₂ x.1 = .ok (.ok
      ⟨ev.map some, (List.range options.loops.toInt.toNat).map
        (turnRow env.readings (ev, x.2))⟩)) options.events ids.zipIdx := by
    have hmem := List.forall₂_iff_zip.mp hlast.went
    refine List.forall₂_iff_zip.mpr ⟨hmem.1, fun {ev x} hzip => ?_⟩
    have hsup := (hnames ev (List.of_mem_zip hzip).1).2
    exact (hmem.2 hzip).getResults hN hfits hsup (hmemory x.2).2.2.2
  have hrows : ∀ x ∈ options.events.zipIdx, ((List.range options.loops.toInt.toNat).map
      (turnRow env.readings x)).length = options.loops.toInt.toNat ∧
      ∀ row ∈ (List.range options.loops.toInt.toNat).map (turnRow env.readings x),
        row.length = x.1.length := by
    intro x hx
    constructor
    · rw [List.length_map, List.length_range]
    · rw [List.forall_mem_map]
      exact fun i hi => List.length_map _
  have hnew : Built options.loops.toInt.toNat [] .new := ⟨rfl, rfl⟩
  obtain ⟨m, hmerge, hbuilt⟩ := mergeResults_ok hrows hresults hnew (List.forall_mem_nil _)
    (List.forall_mem_nil _)
  rw [List.nil_append] at hbuilt
  have hshown : (⟨m.getEventNames, m.data⟩ : BenchmarkResults) = options.table env.readings :=
    hbuilt.table hevents fun ev hev => (hnames ev hev).1
  refine ⟨a₂, ?_, fun id config hc => ?_⟩
  · rw [measureAndPrint, hcreate]
    dsimp only [bind, Except.bind]
    rw [hloop]
    dsimp only
    rw [hmerge]
    dsimp only
    rw [hshown]
  · have hid : id ∉ ids := by
      intro hmem
      rw [hfresh id hmem] at hc
      cases hc
    rw [hother₂ id hid, hother₁ id hid]
    exact hc

/-- The program, after a command line that asks for groups of events none of which is one of
PAPI, and with an input file that can be read: it prints one table with all events in the order of the command line and one row for each
turn of the loop, in which each value is the difference of what its event set read at `stop` and
at `start` of that turn; and it leaves all event sets alone that there were. -/
theorem demoMain_prints {hasPapi : Bool} {papi : PapiLibrary} {frame : ResolveFrame}
    {args : List DemoArgument} {options : DemoOptions} {env : DemoEnvironment}
    (hparse : parseArguments (isEventSupported hasPapi papi frame) args = .ok options)
    (hfits : 2 * options.loops.toInt < 2 ^ 31) (hgroups : ∀ ev ∈ options.events, ev ≠ [])
    (hnative : ∀ ev ∈ options.events, ∀ name ∈ ev, isPapiName hasPapi papi name = false)
    (hmemory : EnoughMemory env.create) (a : Agent) :
    ∃ a', demoMain hasPapi papi frame args env a =
        .ok (a', .printed (tableOptimal (options.table env.readings))) ∧
      (tableOptimal (options.table env.readings)).2 = .ok () ∧
      ∀ id config, a.validConfig id = some config → a'.validConfig id = some config := by
  have hdefault : isEventSupported hasPapi papi frame "SYS:wallclock-time" = true := by
    rw [isEventSupported_eq]
    exact (recognized_supported hasPapi papi (q := .wallclock) (by decide)).1
  obtain ⟨hchecked, hevents⟩ := parseArguments_checked hdefault hparse
  have hnames : ∀ ev ∈ options.events, ev ≠ [] ∧ ∀ name ∈ ev, quantityOf name ≠ none := by
    intro ev hev
    refine ⟨hgroups ev hev, fun name hname => ?_⟩
    have hsupported := hchecked.events ev hev name hname
    rw [isEventSupported_eq] at hsupported
    exact quantityOf_recognized hsupported (hnative ev hev name hname)
  have hN : 1 ≤ options.loops := by
    have hpositive := hchecked.loops
    rw [Int32.lt_iff_toInt_lt] at hpositive
    exact Int32.le_iff_toInt_le.mpr hpositive
  obtain ⟨a', hrun, hothers⟩ :=
    measureAndPrint_prints hasPapi hN hfits hevents hnames hmemory a
  refine ⟨a', ?_, ?_, hothers⟩
  · rw [demoMain, hparse]
    exact hrun
  · rw [DemoOptions.table, tableOptimal_eq (options.length_row env.readings)]

/-- Two groups and one turn, next to an event set of somebody else. -/
theorem demoMain_prints_two : ∃ a', demoMain false CreateOutcomes.success.papi
      ⟨true, EventInfo.calloc⟩ [.events ["SYS:wallclock-time"], .loops 1,
        .events ["JVM:compilations", "SYS:thread-time"], .other "input"]
      ⟨fun _ => .success, fun _ _ => (.zero, .at 1 5)⟩
      (createEventSet false .initial (.wallclock 1) .success).1 =
    .ok (a', .printed (tableOptimal ⟨["SYS:wallclock-time", "JVM:compilations",
      "SYS:thread-time"].map some, [[1000000005, 0, 0]]⟩)) := by
  obtain ⟨options, hparse, heq⟩ : ∃ options,
      parseArguments (isEventSupported false CreateOutcomes.success.papi ⟨true, EventInfo.calloc⟩)
        [.events ["SYS:wallclock-time"], .loops 1,
          .events ["JVM:compilations", "SYS:thread-time"], .other "input"] = .ok options ∧
      options = ⟨some "input", 1, [["SYS:wallclock-time"],
        ["JVM:compilations", "SYS:thread-time"]]⟩ := ⟨_, rfl, rfl⟩
  subst heq
  have hfits : 2 * (1 : Int32).toInt < 2 ^ 31 := by decide
  have hgroups : ∀ ev ∈ [["SYS:wallclock-time"], ["JVM:compilations", "SYS:thread-time"]],
      ev ≠ [] := by decide
  have hnative : ∀ ev ∈ [["SYS:wallclock-time"], ["JVM:compilations", "SYS:thread-time"]],
      ∀ name ∈ ev, isPapiName false CreateOutcomes.success.papi name = false := by decide
  have hmemory : EnoughMemory (DemoEnvironment.create
      ⟨fun _ => .success, fun _ _ => (.zero, .at 1 5)⟩) := fun _ => ⟨rfl, rfl, rfl, fun _ => rfl⟩
  obtain ⟨a', hrun, -⟩ := demoMain_prints hparse hfits hgroups hnative hmemory
    (createEventSet false .initial (.wallclock 1) .success).1
  exact ⟨a', hrun⟩

end UbenchAgent
