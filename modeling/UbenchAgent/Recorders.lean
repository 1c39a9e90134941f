import UbenchAgent.Builds
import UbenchAgent.Readings
import UbenchAgent.Lib.Refinement

/-!
# Event sets as recorders

What a client of `Measurement` is to know.  An event set is a recorder: it has the names of its
events, room for a number of calls, and the calls that it holds, whose readings and types the
results show.  The agent keeps snapshots of what was read in a table of slots that it uses again
and again; its answers are those of a family of recorders.
-/

namespace UbenchAgent

open Pairing RewindLog

/-- An event set as its client knows it. -/
structure Recorder where
  names : List String
  room : ℕ
  held : List SetCall

/-- A call on a recorder; it goes wrong if it is a `stop` that finds no room. -/
def Recorder.record (r : Recorder) (call : SetCall) : Option Recorder :=
  (step r.room r.held (call.act call)).map fun held => { r with held := held }

def Recorder.recordAll (r : Recorder) (calls : List SetCall) : Option Recorder :=
  calls.foldlM Recorder.record r

/-- A row for each pair of calls, with the differences of what they have read. -/
def Recorder.results (r : Recorder) : BenchmarkResults :=
  ⟨r.names.map some, (pairedCalls r.held).map fun p => r.names.map (differenceOf p)⟩

def Recorder.rawResults (r : Recorder) : BenchmarkResults :=
  ⟨r.names.map some ++ [some "TYPE"],
    r.held.map fun call => r.names.map (valueOf call) ++ [call.type.toInt64]⟩

abbrev Recorders := ℤ → Option Recorder

def Recorders.front (t : Recorders) (calls : List (ℤ × SetCall)) : List (ℤ × SetCall) :=
  frontOf (fun id => (t id).isSome) calls

def Recorders.HaveRoom (t : Recorders) (calls : List (ℤ × SetCall)) : Prop :=
  ∀ id r, t id = some r → (r.recordAll (callsOn id (t.front calls))).isSome = true

def Recorders.after (t : Recorders) (calls : List (ℤ × SetCall)) : Recorders :=
  fun id => (t id).bind fun r => r.recordAll (callsOn id (t.front calls))

/-- Why there is to be no new recorder; `full` tells whether the table has to grow for it. -/
def CreateArgs.refusal (args : CreateArgs) (o : CreateOutcomes) (full : Bool) :
    Option MeasurementException :=
  if args.jmeasurements * 2 ≤ 0 then some .measurementsNotPositive
  else if args.jeventNames = [] then some .noEvents
  else if full && !o.realloc then some (.outOfMemory "allocating an event set")
  else if o.callocData = false then some (.outOfMemory "allocating place for measurements")
  else if o.callocEvents = false then some (.outOfMemory "allocating place for event metadata")
  else (args.jeventNames.find? fun name => (quantityOf name).isNone).map .unrecognizedEvent

/-- The calls of `Measurement` on a family of recorders, with their answers. -/
inductive Recorders.Step (t : Recorders) : Call → Response → Recorders → Prop
  | created {call : Call} {args : CreateArgs} {o : CreateOutcomes} {full : Bool} {n : ℕ}
      (creates : call.creates = some (args, o)) (accepted : args.refusal o full = none)
      (free : t n = none) (least : ∀ m < n, (t m).isSome = true) :
      Step t call (.eventSet n) (Function.update t n (some ⟨args.jeventNames, args.size, []⟩))
  | refused {call : Call} {args : CreateArgs} {o : CreateOutcomes} {full : Bool}
      {e : MeasurementException} (creates : call.creates = some (args, o))
      (refused : args.refusal o full = some e) : Step t call (.thrown e) t
  | destroyed {jid : ℤ} (live : (t jid).isSome = true) :
      Step t (.destroyEventSet jid) .done (Function.update t jid none)
  | served {call : Call} {calls : List (ℤ × SetCall)} (set : call.setCalls = some calls)
      (live : ∀ x ∈ calls, (t x.1).isSome = true) (room : t.HaveRoom calls) :
      Step t call .done (t.after calls)
  | cut {call : Call} {calls : List (ℤ × SetCall)} (set : call.setCalls = some calls)
      (dead : ∃ x ∈ calls, t x.1 = none) (room : t.HaveRoom calls) :
      Step t call (.thrown .invalidEventSetId) (t.after calls)
  | results {jid : ℤ} {r : Recorder} (live : t jid = some r) :
      Step t (.getResults jid) (.results r.results) t
  | rawResults {jid : ℤ} {r : Recorder} (live : t jid = some r) :
      Step t (.getRawResults jid) (.results r.rawResults) t
  | unknown {call : Call} {jid : ℤ} (ids : call.ids = [jid]) (single : call.setCalls = none)
      (dead : t jid = none) : Step t call (.thrown .invalidEventSetId) t

def Recorders.Overruns (t : Recorders) (call : Call) : Prop :=
  ∃ calls, call.setCalls = some calls ∧ ¬ t.HaveRoom calls

/-- The configuration keeps, in its slots, the calls that the recorder holds. -/
structure Holds (config : BenchmarkConfiguration) (r : Recorder) : Prop where
  room : config.dataSize = r.room
  labels : config.usedEvents.map (·.name) = r.names.map some
  named : NamedEvents config r.names
  noPapi : config.uses backendPapi = false
  log : ∃ (writer : ℕ → Option (Unit × SetCall)) (rc2 : ℕ → Int32),
    Recorded config writer rc2 ∧ Shows config writer (r.held.map unlabelled)

section Holds

variable {config config' : BenchmarkConfiguration} {r : Recorder}

theorem NamedEvents.served {names : List String} (h : NamedEvents config names) :
    EventsServed config := by
  intro event hmem
  obtain ⟨i, hi, rfl⟩ := List.mem_iff_getElem.mp hmem
  obtain ⟨q, -, hserved⟩ := h.get (by rw [h.length_eq]; exact hi) hi
  exact ⟨q.getter, hserved⟩

theorem Created.holds {args : CreateArgs} {o : SetupOutcomes}
    (h : Created false args o args.size config) (hmeas : 0 < args.jmeasurements * 2)
    (hsup : ∀ name ∈ args.jeventNames, quantityOf name ≠ none)
    (hstrdup : ∀ i, o.strdup i = true) : Holds config ⟨args.jeventNames, args.size, []⟩ where
  room := h.dataSize
  labels := h.eventNames hstrdup
  named := h.namedEvents hsup
  noPapi := h.no_papi hsup
  log := ⟨_, _, h.recorded hmeas, h.shows⟩

theorem Holds.frame (h : Holds config r) {held : List SetCall} {data : List EventsSnapshot} {i : ℕ}
    {papiState : PapiState}
    (hlog : ∃ (writer : ℕ → Option (Unit × SetCall)) (rc2 : ℕ → Int32),
      Recorded (config.withLog data i papiState) writer rc2 ∧
        Shows (config.withLog data i papiState) writer (held.map unlabelled)) :
    Holds (config.withLog data i papiState) { r with held := held } where
  room := h.room
  labels := h.labels
  named := h.named.imp fun _ _ ⟨q, hq, hserved⟩ => ⟨q, hq, hserved.withLog data i papiState⟩
  noPapi := h.noPapi
  log := hlog

theorem Holds.apply (h : Holds config r) (call : SetCall) :
    (∃ config' r', call.apply config = .ok config' ∧ r.record call = some r' ∧
        Holds config' r') ∨
      (∃ e, call.apply config = .error e ∧ r.record call = none) := by
  obtain ⟨writer, rc2, hrec, hshows⟩ := h.log
  have hact : call.act (unlabelled call) = (call.act call).map unlabelled := by
    cases call <;> rfl
  have hmap : step config.dataSize (r.held.map unlabelled) (call.act (unlabelled call)) =
      (step r.room r.held (call.act call)).map (List.map unlabelled) := by
    rw [hact, h.room, step_map]
  rcases hshows.perform hrec.inv (unlabelled call) with
    ⟨config', writer', l', hperform, hstep, -, -, hshows'⟩ | ⟨e, hperform, hstep⟩
  · obtain ⟨config₁, happly, heq⟩ := except_bind_ok.mp hperform
    obtain rfl : config₁ = config' := congrArg Prod.fst (Except.ok.inj heq)
    obtain ⟨held, hheld, rfl⟩ := Option.map_eq_some_iff.mp (hmap.symm.trans hstep)
    refine .inl ⟨config₁, { r with held := held }, happly, ?_, ?_⟩
    · rw [Recorder.record, hheld]
      rfl
    · have hrec' := hrec.perform hperform
      rw [apply_frame happly] at hrec' hshows' ⊢
      exact h.frame ⟨writer', _, hrec', hshows'⟩
  · right
    refine ⟨e, ?_, ?_⟩
    · cases happly : call.apply config with
      | error e' =>
        rw [UbenchAgent.perform, happly, except_error_bind] at hperform
        rw [Except.error.inj hperform]
      | ok config' =>
        rw [UbenchAgent.perform, happly] at hperform
        cases hperform
    · rw [hmap, Option.map_eq_none_iff] at hstep
      rw [Recorder.record, hstep]
      rfl

theorem Holds.applyAll (h : Holds config r) (calls : List SetCall) :
    (∃ config' r', calls.foldlM SetCall.apply config = .ok config' ∧
        r.recordAll calls = some r' ∧ Holds config' r') ∨
      (∃ e, calls.foldlM SetCall.apply config = .error e ∧ r.recordAll calls = none) := by
  have hrun := foldlM_simulation (l := calls) (id : SetCall → SetCall)
    (fun config r call (h : Holds config r) => h.apply call) h
  rw [List.map_id] at hrun
  exact hrun

theorem Holds.reads (h : Holds config r) : ∀ call ∈ r.held, call ≠ .reset := by
  intro call hcall
  obtain ⟨writer, rc2, hrec, hshows⟩ := h.log
  obtain ⟨i, hi, rfl⟩ := List.mem_iff_getElem.mp hcall
  have hwriter := hshows.2 i (by rw [List.length_map]; exact hi)
  rw [List.getElem?_map, List.getElem?_eq_getElem hi] at hwriter
  exact hrec.writes i _ hwriter

/-- The visible snapshots look as if only the calls that are held had ever been made. -/
theorem Holds.agree (h : Holds config r) :
    config.dataIndex ≤ config.data.length ∧
      List.Forall₂ (AgreeOn config) config.log (r.held.map fun call => call.written config 0) := by
  obtain ⟨writer, rc2, hrec, hshows⟩ := h.log
  have hagree := hrec.agree_log hshows h.noPapi
  rw [List.map_map] at hagree
  refine ⟨?_, hagree⟩
  rw [hrec.inv.length_data]
  exact hrec.inv.index_le

theorem Holds.getResultsOf (h : Holds config r) : getResultsOf config = .ok r.results := by
  obtain ⟨hle, hagree⟩ := h.agree
  have hrows : rowsOf config.usedEvents config.log = r.results.data := by
    rw [rowsOf_congr h.named.served hagree, rowsOf_map]
    simp only [hasType_written]
    apply List.map_congr_left
    intro p hp
    obtain ⟨hstart, hstop, -⟩ := mem_matched hp
    exact h.named.columns (h.reads _ (hstart.resolve_left nofun).1) (h.reads _ hstop)
  rw [getResultsOf_eq hle, h.labels, hrows]
  rfl

theorem Holds.getRawResultsOf (h : Holds config r) :
    getRawResultsOf config = .ok r.rawResults := by
  obtain ⟨hle, hagree⟩ := h.agree
  have hrows : config.log.map (rawRowOf config.usedEvents) = r.rawResults.data := by
    rw [rawRows_congr h.named.served hagree, List.map_map]
    apply List.map_congr_left
    intro call hcall
    have hreset := h.reads call hcall
    rw [Function.comp_apply, rawRowOf, h.named.values hreset, written_type config hreset]
  rw [getRawResultsOf_eq hle, h.labels, hrows]
  rfl

end Holds

section Loop

variable {a a' : Agent} {calls : List (ℤ × SetCall)}

theorem forEachEventset_error {f : Fault} (h : forEachEventset calls a = .error f) :
    ∃ id config e, a.validConfig id = some config ∧
      (callsOn id (frontOf (fun id => (a.validConfig id).isSome) calls)).foldlM SetCall.apply
        config = .error e := by
  induction calls generalizing a with
  | nil => cases h
  | cons x rest ih =>
    obtain ⟨id, call⟩ := x
    rw [forEachEventset] at h
    cases hc : a.validConfig id with
    | none =>
      rw [hc] at h
      cases h
    | some config =>
      rw [hc] at h
      dsimp only at h
      have hlive : (a.validConfig id).isSome = true := by
        rw [hc]
        rfl
      have hfront : frontOf (fun id => (a.validConfig id).isSome) ((id, call) :: rest) =
          (id, call) :: frontOf (fun id => (a.validConfig id).isSome) rest :=
        frontOf_cons_of_pos hlive rest
      rw [hfront]
      have hfirst : ∀ front, callsOn id ((id, call) :: front) = call :: callsOn id front := by
        intro front
        rw [callsOn, List.filter_cons_of_pos (by simp)]
        rfl
      cases happly : call.apply config with
      | error e =>
        refine ⟨id, config, e, hc, ?_⟩
        rw [hfirst, List.foldlM_cons, happly]
        rfl
      | ok config₁ =>
        rw [happly, except_ok_bind] at h
        obtain ⟨id', config', e, hc', hrun⟩ := ih h
        rw [frontOf_congr (isSome_setValid config₁ hc)] at hrun
        rw [validConfig_setValid hc] at hc'
        split_ifs at hc' with hid
        · obtain rfl : config₁ = config' := Option.some.inj hc'
          refine ⟨id, config, e, hc, ?_⟩
          rw [hfirst, List.foldlM_cons, happly]
          rw [hid] at hrun
          exact hrun
        · refine ⟨id', config', e, hc', ?_⟩
          rw [callsOn, List.filter_cons_of_neg (by simpa using Ne.symm hid)]
          exact hrun

theorem withIds_error {f : Fault} (h : withIds a calls = .error f) :
    forEachEventset calls { a with ledger := (a.ledger.acquire .intArray).2 } = .error f := by
  unfold withIds at h
  split_ifs at h
  cases hloop : forEachEventset calls { a with ledger := (a.ledger.acquire .intArray).2 } with
  | error f' =>
    dsimp only at h
    rw [hloop, except_error_bind] at h
    rw [Except.error.inj h]
  | ok x =>
    obtain ⟨a₁, result⟩ := x
    dsimp only at h
    rw [hloop] at h
    cases result <;> cases h

end Loop

/-- The event set under each id holds what the recorder under it does. -/
def Represents (a : Agent) (t : Recorders) : Prop :=
  ∀ id, Option.Rel Holds (a.validConfig id) (t id)

section Table

variable {a a' : Agent} {t : Recorders}

theorem Represents.isSome (h : Represents a t) (id : ℤ) :
    (a.validConfig id).isSome = (t id).isSome := by
  have hid := h id
  generalize a.validConfig id = config at hid
  generalize t id = r at hid
  cases hid <;> rfl

theorem Represents.none_iff (h : Represents a t) (id : ℤ) :
    a.validConfig id = none ↔ t id = none := by
  rw [← Option.isNone_iff_eq_none, ← Option.isNone_iff_eq_none, ← Option.not_isSome,
    ← Option.not_isSome, h.isSome]

theorem Represents.config (h : Represents a t) {id : ℤ} {r : Recorder} (hr : t id = some r) :
    ∃ config, a.validConfig id = some config ∧ Holds config r := by
  have hid := h id
  rw [hr] at hid
  cases hc : a.validConfig id with
  | none =>
    rw [hc] at hid
    cases hid
  | some config =>
    rw [hc] at hid
    cases hid with
    | some hholds => exact ⟨config, rfl, hholds⟩

theorem Represents.recorder (h : Represents a t) {id : ℤ} {config : BenchmarkConfiguration}
    (hc : a.validConfig id = some config) : ∃ r, t id = some r ∧ Holds config r := by
  have hid := h id
  rw [hc] at hid
  cases hr : t id with
  | none =>
    rw [hr] at hid
    cases hid
  | some r =>
    rw [hr] at hid
    cases hid with
    | some hholds => exact ⟨r, rfl, hholds⟩

theorem Represents.front (h : Represents a t) (calls : List (ℤ × SetCall)) :
    frontOf (fun id => (a.validConfig id).isSome) calls = t.front calls :=
  frontOf_congr h.isSome calls

theorem Represents.update (h : Represents a t) {id : ℤ} {config : Option BenchmarkConfiguration}
    {r : Option Recorder} (hentry : Option.Rel Holds config r)
    (htable : ∀ id', a'.validConfig id' = if id' = id then config else a.validConfig id') :
    Represents a' (Function.update t id r) := by
  intro id'
  rw [htable]
  by_cases hid : id' = id
  · rw [if_pos hid, hid, Function.update_self]
    exact hentry
  · rw [if_neg hid, Function.update_of_ne hid]
    exact h id'

theorem Represents.congr (h : Represents a t)
    (htable : ∀ id, a'.validConfig id = a.validConfig id) : Represents a' t := by
  intro id
  rw [htable]
  exact h id

theorem Represents.withIds (h : Represents a t) {calls : List (ℤ × SetCall)}
    {result : Except MeasurementException Unit}
    (hwith : UbenchAgent.withIds a calls = .ok (a', result)) :
    t.HaveRoom calls ∧ Represents a' (t.after calls) := by
  obtain ⟨a₁, hloop, htable⟩ := withIds_ok hwith
  have hserved := forEachEventset_front hloop
  rw [validConfig_withLedger, h.front] at hserved
  have hrun : ∀ id r, t id = some r → ∃ config' r', a'.validConfig id = some config' ∧
      r.recordAll (callsOn id (t.front calls)) = some r' ∧ Holds config' r' := by
    intro id r hr
    obtain ⟨config, hc, hholds⟩ := h.config hr
    obtain ⟨config', hrun, hc'⟩ := forEachEventset_served hserved hc
    rw [← htable] at hc'
    rcases hholds.applyAll (callsOn id (t.front calls)) with
      ⟨config₁, r', hrun₁, hrecord, hholds'⟩ | ⟨e, hfail, -⟩
    · obtain rfl : config₁ = config' := Except.ok.inj (hrun₁.symm.trans hrun)
      exact ⟨config₁, r', hc', hrecord, hholds'⟩
    · rw [hrun] at hfail
      cases hfail
  constructor
  · intro id r hr
    obtain ⟨-, r', -, hrecord, -⟩ := hrun id r hr
    rw [hrecord]
    rfl
  · intro id
    cases hr : t id with
    | none =>
      have hkept := (forEachEventset_result hloop).1 id
      have hdead : (a'.validConfig id).isSome = false := by
        rw [htable, hkept, validConfig_withLedger, h.isSome, hr]
        rfl
      rw [Recorders.after, hr, Option.not_isSome_iff_eq_none.mp (Bool.eq_false_iff.mp hdead)]
      exact .none
    | some r =>
      obtain ⟨config', r', hc', hrecord, hholds'⟩ := hrun id r hr
      rw [Recorders.after, hr, hc', Option.bind_some, hrecord]
      exact .some hholds'

theorem Represents.withIds_error (h : Represents a t) {calls : List (ℤ × SetCall)} {f : Fault}
    (hwith : UbenchAgent.withIds a calls = .error f) : ¬ t.HaveRoom calls := by
  obtain ⟨id, config, e, hc, hfail⟩ := forEachEventset_error (UbenchAgent.withIds_error hwith)
  rw [validConfig_withLedger] at hc hfail
  rw [h.front] at hfail
  obtain ⟨r, hr, hholds⟩ := h.recorder hc
  intro hroom
  have hrecorded := hroom id r hr
  rcases hholds.applyAll (callsOn id (t.front calls)) with
    ⟨config', r', hrun, -, -⟩ | ⟨e', -, hnone⟩
  · rw [hrun] at hfail
    cases hfail
  · rw [hnone] at hrecorded
    cases hrecorded

end Table

section Step

variable {a a' : Agent} {t : Recorders} {args : CreateArgs} {o : CreateOutcomes} {call : Call}

theorem recognized_false_eq (papi : PapiLibrary) (name : String) :
    (!recognized false papi name) = (quantityOf name).isNone := by
  rw [Bool.eq_iff_iff, Option.isNone_iff_eq_none, Bool.not_eq_true', ← Bool.not_eq_true,
    recognized_false_iff, not_not]

def Agent.full (a : Agent) : Bool := decide (a.allEventsets.length ≤ a.freeSlot)

theorem hasRoom_iff_full : HasRoom a o ↔ (a.full && !o.realloc) = false := by
  rw [hasRoom_iff, Agent.full, Bool.and_eq_false_iff, decide_eq_false_iff_not, not_le,
    Bool.not_eq_false']

theorem createEventSet_thrown_iff {e : MeasurementException} :
    (createEventSet false a args o).2 = .error e ↔ args.refusal o a.full = some e := by
  have hchecks := createEventSet_checks false a args o
  rw [CreateArgs.refusal]
  by_cases hmeas : args.jmeasurements * 2 ≤ 0
  · rw [hchecks.measurements hmeas, if_pos hmeas]
    simp
  rw [if_neg hmeas]
  rw [Int32.not_le] at hmeas
  by_cases hnames : args.jeventNames = []
  · rw [hchecks.events hmeas hnames, if_pos hnames]
    simp
  rw [if_neg hnames]
  by_cases hroom : HasRoom a o
  · obtain ⟨eventsets, eventset, -, -, -, heq⟩ := createEventSet_slot false hmeas hnames hroom
    rw [heq, fillSlot_thrown, configure_false_thrown, hasRoom_iff_full.mp hroom,
      if_neg Bool.false_ne_true]
    simp only [recognized_false_eq]
  · have hfull : (a.full && !o.realloc) = true := by
      rw [← Bool.not_eq_false]
      exact fun hfalse => hroom (hasRoom_iff_full.mpr hfalse)
    rw [hchecks.room hmeas hnames hroom, if_pos hfull]
    simp

theorem step_of_creates (h : call.creates = some (args, o)) :
    a.step false call = .ok ((createEventSet false a args o).1,
      .ofId (createEventSet false a args o).2) := by
  cases call <;> cases h <;> rfl

theorem Represents.createEventSet (h : Represents a t) (hcreates : call.creates = some (args, o))
    (hstrdup : ∀ i, o.strdup i = true) :
    ∃ t', t.Step call (.ofId (createEventSet false a args o).2) t' ∧
      Represents (UbenchAgent.createEventSet false a args o).1 t' := by
  cases hrefusal : args.refusal o a.full with
  | some e =>
    have hthrown := createEventSet_thrown_iff.mpr hrefusal
    have hacc : ¬ Accepted false a args o := by
      intro hacc
      rw [createEventSet_eq hacc] at hthrown
      cases hthrown
    obtain ⟨a₁, e₁, heq, htable⟩ := createEventSet_rejected hacc
    rw [heq] at hthrown ⊢
    obtain rfl : e₁ = e := Except.error.inj hthrown
    exact ⟨t, .refused hcreates hrefusal, h.congr htable⟩
  | none =>
    rcases hc : UbenchAgent.createEventSet false a args o with ⟨a₁, e | id⟩
    · have hthrown := createEventSet_thrown_iff.mp (congrArg Prod.snd hc)
      rw [hrefusal] at hthrown
      cases hthrown
    · obtain ⟨hacc, rfl, config, -, hcreated, htable⟩ := createEventSet_created hc
      have hsup : ∀ name ∈ args.jeventNames, quantityOf name ≠ none := fun name hname =>
        recognized_false_iff.mp (hacc.configurable.recognized name hname)
      have hleast : ∀ m : ℕ, m < a.freeSlot → (t m).isSome = true := by
        intro m hm
        obtain ⟨config', hm'⟩ := SlotTable.lookup_lt_lowestFree hm
        rw [← h.isSome, validConfig_eq_lookup, hm']
        rfl
      refine ⟨_, .created hcreates hrefusal ((h.none_iff _).mp (validConfig_freeSlot a)) hleast,
        h.update (.some ?_) htable⟩
      exact hcreated.holds hacc.measurements hsup hstrdup

theorem Represents.unknown (h : Represents a t) {jid : ℤ} (hids : call.ids = [jid])
    (hsingle : call.setCalls = none) (hc : a.validConfig jid = none) :
    ∃ a' response t', a.step false call = .ok (a', response) ∧ t.Step call response t' ∧
      Represents a' t' := by
  refine ⟨a, .thrown .invalidEventSetId, t, ?_,
    .unknown hids hsingle ((h.none_iff jid).mp hc), h⟩
  cases call with
  | destroyEventSet id =>
    obtain rfl : id = jid := List.singleton_inj.mp hids
    rw [Agent.step, destroyEventSet_invalid hc]
    rfl
  | getResults id =>
    obtain rfl : id = jid := List.singleton_inj.mp hids
    rw [Agent.step, UbenchAgent.getResults, hc]
    rfl
  | getRawResults id =>
    obtain rfl : id = jid := List.singleton_inj.mp hids
    rw [Agent.step, UbenchAgent.getRawResults, hc]
    rfl
  | createEventSet => cases hids
  | createAttachedEventSetWithJavaThread => cases hids
  | createAttachedEventSetWithNativeThread => cases hids
  | start => cases hsingle
  | stop => cases hsingle
  | sample => cases hsingle
  | reset => cases hsingle

/-- Each call of an agent is one of the recorders, or it fails and a recorder has no room. -/
theorem Represents.step (h : Represents a t)
    (hstrdup : ∀ args o, call.creates = some (args, o) → ∀ i, o.strdup i = true) :
    (∃ a' response t', a.step false call = .ok (a', response) ∧ t.Step call response t' ∧
        Represents a' t') ∨
      (∃ f, a.step false call = .error f ∧ t.Overruns call) := by
  cases hcreates : call.creates with
  | some x =>
    obtain ⟨args, o⟩ := x
    obtain ⟨t', hstep, hrep⟩ := h.createEventSet hcreates (hstrdup args o hcreates)
    exact .inl ⟨_, _, t', step_of_creates hcreates, hstep, hrep⟩
  | none =>
    cases hcalls : call.setCalls with
    | some calls =>
      rw [step_of_setCalls hcalls]
      cases hwith : UbenchAgent.withIds a calls with
      | error f => exact .inr ⟨f, rfl, calls, hcalls, h.withIds_error hwith⟩
      | ok x =>
        obtain ⟨a₁, result⟩ := x
        obtain ⟨hroom, hrep⟩ := h.withIds hwith
        refine .inl ⟨a₁, .ofUnit result, t.after calls, rfl, ?_, hrep⟩
        obtain ⟨a₂, hloop, -⟩ := withIds_ok hwith
        rcases (forEachEventset_result hloop).2 with ⟨rfl, hlive⟩ | ⟨rfl, x, hx, hdead⟩
        · refine .served hcalls (fun x hx => ?_) hroom
          rw [← h.isSome]
          exact hlive x hx
        · exact .cut hcalls ⟨x, hx, (h.none_iff x.1).mp hdead⟩ hroom
    | none =>
      left
      cases call with
      | destroyEventSet jid =>
        cases hc : a.validConfig jid with
        | none => exact h.unknown rfl rfl hc
        | some config =>
          obtain ⟨a₁, heq, htable⟩ := destroyEventSet_valid hc
          refine ⟨a₁, .done, Function.update t jid none, ?_, .destroyed ?_,
            h.update .none htable⟩
          · rw [Agent.step, heq]
            rfl
          · rw [← h.isSome, hc]
            rfl
      | getResults jid =>
        cases hc : a.validConfig jid with
        | none => exact h.unknown rfl rfl hc
        | some config =>
          obtain ⟨r, hr, hholds⟩ := h.recorder hc
          refine ⟨a, .results r.results, t, ?_, .results hr, h⟩
          rw [Agent.step, UbenchAgent.getResults, hc]
          dsimp only
          rw [hholds.getResultsOf]
          rfl
      | getRawResults jid =>
        cases hc : a.validConfig jid with
        | none => exact h.unknown rfl rfl hc
        | some config =>
          obtain ⟨r, hr, hholds⟩ := h.recorder hc
          refine ⟨a, .results r.rawResults, t, ?_, .rawResults hr, h⟩
          rw [Agent.step, UbenchAgent.getRawResults, hc]
          dsimp only
          rw [hholds.getRawResultsOf]
          rfl
      | createEventSet => cases hcreates
      | createAttachedEventSetWithJavaThread => cases hcreates
      | createAttachedEventSetWithNativeThread => cases hcreates
      | start => cases hcalls
      | stop => cases hcalls
      | sample => cases hcalls
      | reset => cases hcalls

end Step

def Call.Copies (call : Call) : Prop :=
  ∀ args o, call.creates = some (args, o) → ∀ i, o.strdup i = true

/-- The agent refines the recorders. -/
theorem agent_refines :
    Refines (Agent.step false) Recorders.Step Recorders.Overruns Call.Copies Represents where
  answers := by
    intro a t call a' response hcopies h hstep
    rcases h.step hcopies with ⟨a₁, response₁, t', hstep₁, hrecorders, hrep⟩ | ⟨f, hfail, -⟩
    · obtain ⟨rfl, rfl⟩ := Prod.mk.inj (Except.ok.inj (hstep₁.symm.trans hstep))
      exact ⟨t', hrecorders, hrep⟩
    · rw [hfail] at hstep
      cases hstep
  fails := by
    intro a t call f hcopies h hstep
    rcases h.step hcopies with ⟨a₁, response₁, t', hstep₁, -⟩ | ⟨f₁, -, hover⟩
    · rw [hstep₁] at hstep
      cases hstep
    · exact hover

theorem represents_initial : Represents .initial fun _ => none := by
  intro id
  rw [validConfig_initial]
  exact .none

/-- In every run the agent answers as a family of recorders, and it fails only where a `stop`
finds no room in one of them.  With PAPI it answers so to clients that ask for no event of
PAPI. -/
theorem agent_records {calls : List Call} (hcopies : ∀ call ∈ calls, call.Copies) :
    (∀ a tr, run (Agent.step false) .initial calls = .ok (a, tr) →
      ∃ t, Reaches Recorders.Step (fun _ => none) tr t ∧ Represents a t) ∧
    (∀ f, run (Agent.step false) .initial calls = .error f →
      ∃ done call rest tr t, calls = done ++ call :: rest ∧ tr.map Prod.fst = done ∧
        Reaches Recorders.Step (fun _ => none) tr t ∧ t.Overruns call) ∧
    ((∀ call ∈ calls, call.Native) → ∀ a tr, run (Agent.step true) .initial calls = .ok (a, tr) →
      ∃ t, Reaches Recorders.Step (fun _ => none) tr t) := by
  refine ⟨fun a tr hrun => agent_refines.reaches hcopies represents_initial hrun,
    fun f hrun => agent_refines.goesWrong hcopies represents_initial hrun,
    fun hnative a tr hrun => ?_⟩
  have hinitial : SameTables .initial .initial := ⟨fun _ => rfl, rfl⟩
  obtain ⟨b, hrun', -⟩ := run_simulation (P := Call.Native) (R := SameTables)
    (fun a b call a' r hcall h hstep => h.step_ok hcall hstep) hnative hinitial hrun
  obtain ⟨t, hreach, -⟩ := agent_refines.reaches hcopies represents_initial hrun'
  exact ⟨t, hreach⟩

/-- A `start` that stops at an id that names nothing is in the results of the event set in front
of it. -/
theorem agent_records_once : ∃ tr t,
    tr.map Prod.snd = [.eventSet 0, .thrown .invalidEventSetId, .done,
      .results ⟨[some "SYS:wallclock-time"], [[1000000005]]⟩] ∧
    Reaches Recorders.Step (fun _ => none) tr t := by
  have hcopies : ∀ call ∈ [Call.createEventSet (.wallclock 1) .success,
      .start [(0, .at 1 0), (7, .zero)], .stop [(0, .at 2 5)], .getResults 0], call.Copies := by
    simp only [List.forall_mem_cons, List.not_mem_nil, false_imp_iff, implies_true, and_true]
    refine ⟨?_, nofun, nofun, nofun⟩
    rintro args o ⟨⟩ i
    rfl
  obtain ⟨a, tr, hrun, hresponses⟩ : ∃ a tr,
      run (Agent.step false) .initial [.createEventSet (.wallclock 1) .success,
        .start [(0, .at 1 0), (7, .zero)], .stop [(0, .at 2 5)], .getResults 0] = .ok (a, tr) ∧
      tr.map Prod.snd = [.eventSet 0, .thrown .invalidEventSetId, .done,
        .results ⟨[some "SYS:wallclock-time"], [[1000000005]]⟩] := ⟨_, _, rfl, by decide⟩
  obtain ⟨t, hreach, -⟩ := (agent_records hcopies).1 a tr hrun
  exact ⟨tr, t, hresponses, hreach⟩

end UbenchAgent
