import UbenchAgent.Measurements

/-!
# The documented loop

What `getResults` returns after the documented loop of `start` and `stop`: the names as
they were given, and for each measurement that is kept the difference of what its two
calls read, in the quantity that each name stands for.
-/

namespace UbenchAgent

open RewindLog

inductive Quantity
  | wallclock
  | threadTime
  | threadTimeRusage
  | compilations
  | forcedContextSwitches
  deriving DecidableEq, Repr

/-- The value of a quantity in a reading; times are in nanoseconds. -/
def Quantity.reading (r : Reading) : Quantity → Int64
  | wallclock => r.wallclock.tvSec * 1000000000 + r.wallclock.tvNsec
  | threadTime => r.threadtime.tvSec * 1000000000 + r.threadtime.tvNsec
  | threadTimeRusage =>
    (r.resourceUsage.ruUtime.tvSec * 1000000 + r.resourceUsage.ruUtime.tvUsec +
      (r.resourceUsage.ruStime.tvSec * 1000000 + r.resourceUsage.ruStime.tvUsec)) * 1000
  | compilations => r.compilationTotal.toInt64
  | forcedContextSwitches => r.resourceUsage.ruNivcsw

def quantities : List (String × Quantity) :=
  [("SYS:wallclock-time", .wallclock), ("SYS_WALLCLOCK", .wallclock),
    ("SYS:thread-time", .threadTime), ("SYS:thread-time-rusage", .threadTimeRusage),
    ("JVM:compilations", .compilations), ("JVM_COMPILATIONS", .compilations),
    ("SYS:forced-context-switches", .forcedContextSwitches),
    ("forced-context-switch", .forcedContextSwitches)]

def quantityOf (name : String) : Option Quantity :=
  (quantities.find? fun x => ubenchStrIsIcaseEqual name x.1).map Prod.snd

def Quantity.getter : Quantity → EventGetterFunc
  | wallclock => .wallClockTime
  | threadTime => .threadTime
  | threadTimeRusage => .threadTimeRusage
  | compilations => .jvmCompilations
  | forcedContextSwitches => .contextSwitchForced

theorem getter_ne_papi (q : Quantity) : q.getter ≠ .papi := by
  cases q <;> decide

/-- The entry of the table decides about the name: it compares it or it asks a resolver. -/
def KnownEvent.selects (it : KnownEvent) (name : String) : Bool :=
  match it.resolver with
  | none => ubenchStrIsIcaseEqual name it.name
  | some _ => ubenchStrStartsWithIcase name it.name

theorem selects_congr {name name' : String}
    (h : name.toList.map Char.toLower = name'.toList.map Char.toLower) (it : KnownEvent) :
    it.selects name = it.selects name' := by
  unfold KnownEvent.selects ubenchStrIsIcaseEqual ubenchStrStartsWithIcase
  cases it.resolver with
  | none => simp only [h]
  | some resolver => simp only [List.map_take, h]

/-- The first entry that decides about a name is the one that resolution uses, if it asks no
resolver. -/
theorem resolveLoop_selects {papi : PapiLibrary} {strdup : Bool} {name : String}
    {info : EventInfo} {table : List KnownEvent} {it : KnownEvent}
    (hfind : table.find? (fun it => it.selects name) = some it) (hnone : it.resolver = none) :
    resolveLoop papi strdup name info table = (true, { info with
      backend := it.backend
      opGetRaw := some it.getterRaw
      opGet := some it.getter
      name := if strdup then some name else none }) := by
  induction table with
  | nil => cases hfind
  | cons first rest ih =>
    rw [resolveLoop]
    rw [List.find?_cons] at hfind
    cases hsel : first.selects name with
    | true =>
      rw [hsel, Option.some.injEq] at hfind
      subst hfind
      have htry : first.tryResolve papi name info = (true, info) := by
        unfold KnownEvent.selects at hsel
        unfold KnownEvent.tryResolve
        rw [hnone] at hsel ⊢
        rw [← hsel]
      rw [htry]
    | false =>
      rw [hsel] at hfind
      have htry : first.tryResolve papi name info = (false, info) := by
        unfold KnownEvent.selects at hsel
        unfold KnownEvent.tryResolve
        cases hres : first.resolver with
        | none =>
          rw [hres] at hsel
          rw [← hsel]
        | some resolver =>
          rw [hres] at hsel
          exact if_neg (by simpa using hsel)
      rw [htry]
      exact ih hfind

/-- Every supported name is decided by an entry with its getters, in both builds. -/
theorem find_supported (hasPapi : Bool) {x : String × Quantity} (hx : x ∈ quantities) :
    ((knownEvents hasPapi).find? fun it => it.selects x.1).map
        (fun it => (it.resolver, it.backend, it.getterRaw, it.getter)) =
      some (none, x.2.getter.backend, x.2.getter.raw, x.2.getter) := by
  simp only [quantities, List.mem_cons, List.not_mem_nil, or_false] at hx
  cases hasPapi <;> rcases hx with rfl | rfl | rfl | rfl | rfl | rfl | rfl | rfl <;> decide

theorem recognized_supported (hasPapi : Bool) (papi : PapiLibrary) {name : String} {q : Quantity}
    (h : quantityOf name = some q) :
    recognized hasPapi papi name = true ∧ (eventOf hasPapi papi name).opGet = some q.getter ∧
      isPapiName hasPapi papi name = false := by
  rw [quantityOf, Option.map_eq_some_iff] at h
  obtain ⟨x, hx, rfl⟩ := h
  have hkey := List.find?_some hx
  rw [ubenchStrIsIcaseEqual, beq_iff_eq] at hkey
  have hfind := find_supported hasPapi (List.mem_of_find?_eq_some hx)
  simp only [← selects_congr hkey] at hfind
  obtain ⟨it, hit, hfields⟩ := Option.map_eq_some_iff.mp hfind
  simp only [Prod.mk.injEq] at hfields
  obtain ⟨hnone, hb, -, hg⟩ := hfields
  have hloop : ubenchEventResolve hasPapi papi true name EventInfo.calloc = _ :=
    resolveLoop_selects hit hnone
  refine ⟨by rw [recognized, hloop], by rw [eventOf, hloop, hg], ?_⟩
  rw [isPapiName, eventOf, hloop, beq_eq_false_iff_ne]
  dsimp only
  rw [hb]
  exact fun he => getter_ne_papi _ (backend_eq_papi.mp he)

/-- A log of START and END snapshots in turn gives one row for each pair. -/
theorem rowsOf_flatPairs (events : List EventInfo) (ps : List (EventsSnapshot × EventsSnapshot))
    (hps : ∀ p ∈ ps, p.1.type = snapshotTypeStart ∧ p.2.type = snapshotTypeEnd) :
    rowsOf events (flatPairs ps) = ps.map fun p => events.map fun e => e.callGet p.1 p.2 := by
  have hall : ∀ done : List EventsSnapshot,
      (Pairing.pairs (hasType snapshotTypeStart) (hasType snapshotTypeEnd) none done.length
          (flatPairs ps)).map (rowOf events (done ++ flatPairs ps)) =
        ps.map fun p => events.map fun e => e.callGet p.1 p.2 := by
    induction ps with
    | nil => exact fun _ => rfl
    | cons p ps ih =>
      intro done
      obtain ⟨hstart, hend⟩ := hps p List.mem_cons_self
      have hflat : flatPairs (p :: ps) = p.1 :: p.2 :: flatPairs ps := rfl
      have hrest := ih (fun q hq => hps q (List.mem_cons_of_mem _ hq)) (done ++ [p.1, p.2])
      rw [List.append_assoc, List.length_append] at hrest
      rw [hflat, Pairing.pairs, if_pos (by simp [hasType, hstart]), Pairing.pairs,
        if_pos (by simp [hasType, hend]), List.map_cons, List.map_cons]
      refine congrArg₂ List.cons ?_ hrest
      simp [rowOf, List.getD_eq_getElem?_getD]
  exact hall []

/-- The column of an event is the difference of the readings of its quantity. -/
theorem callGet_written {config : BenchmarkConfiguration} {event : EventInfo} {q : Quantity}
    (hserved : Served config event q.getter) (r r' : Reading) :
    event.callGet (SetCall.written config (.start r) 0) (SetCall.written config (.stop r') 0) =
      q.reading r' - q.reading r := by
  rw [EventInfo.callGet, hserved.opGet]
  cases q with
  | wallclock =>
    have hu : config.uses backendSysWallclock = true := hserved.uses
    simp only [Quantity.getter, getterWallClockTime, timespecDiffNs, SetCall.written, SetCall.fill,
      ubenchMeasureStart, doSnapshot_timestamp, ubenchMeasureStop_timestamp, Quantity.reading, hu,
      ↓reduceIte]
    grind
  | threadTime =>
    have hu : config.uses backendSysThreadtime = true := hserved.uses
    simp only [Quantity.getter, getterThreadTime, timespecDiffNs, SetCall.written, SetCall.fill,
      ubenchMeasureStart, doSnapshot_threadtime, ubenchMeasureStop_threadtime, Quantity.reading,
      hu, ↓reduceIte]
    grind
  | threadTimeRusage =>
    have hu : config.uses backendResourceUsage = true := hserved.uses
    simp only [Quantity.getter, getterThreadTimeRusage, timevalDiffUs, SetCall.written,
      SetCall.fill, ubenchMeasureStart, doSnapshot_resourceUsage,
      ubenchMeasureStop_resourceUsage, Quantity.reading, hu, ↓reduceIte]
    grind
  | compilations =>
    have hu : config.uses backendJvmCompilations = true := hserved.uses
    simp only [Quantity.getter, getterJvmCompilations, SetCall.written, SetCall.fill,
      ubenchMeasureStart, doSnapshot_compilations, ubenchMeasureStop_compilations,
      Quantity.reading, hu, ↓reduceIte]
  | forcedContextSwitches =>
    have hu : config.uses backendResourceUsage = true := hserved.uses
    simp only [Quantity.getter, getterContextSwitchForced, SetCall.written, SetCall.fill,
      ubenchMeasureStart, doSnapshot_resourceUsage, ubenchMeasureStop_resourceUsage,
      Quantity.reading, hu, ↓reduceIte]

def loopCalls (pairs : List (Reading × Reading)) : List SetCall :=
  pairs.flatMap fun p => [.start p.1, .stop p.2]

/-- Rounds of the loop, each followed by `reset`, and the loop since then. -/
def loopHistory (earlier : List (List (Reading × Reading))) (pairs : List (Reading × Reading)) :
    List SetCall :=
  (earlier.flatMap fun round => loopCalls round ++ [.reset]) ++ loopCalls pairs

def loopLog (n : ℕ) (pairs : List (Reading × Reading)) : List (Unit × SetCall) :=
  flatPairs ((keepLast n pairs).map fun p => (((), .start p.1), ((), .stop p.2)))

theorem keepLast_map {α β : Type*} (f : α → β) (n : ℕ) (l : List α) :
    keepLast n (l.map f) = (keepLast n l).map f := by
  simp only [keepLast, List.length_map, apply_ite (List.map f), List.map_append, List.map_take,
    List.map_drop]

abbrev unlabelled (call : SetCall) : Unit × SetCall := ((), call)

theorem run_loopCalls {n : ℕ} (hn : 1 ≤ n) (pairs : List (Reading × Reading)) :
    RewindLog.run (2 * n) [] (((loopCalls pairs).map unlabelled).map fun x => x.2.act x) =
      some (loopLog n pairs) := by
  have hacts : ((loopCalls pairs).map unlabelled).map (fun x => x.2.act x) =
      (pairs.map fun p => (unlabelled (.start p.1), unlabelled (.stop p.2))).flatMap
        fun p => [.overwrite p.1, .append p.2] := by
    rw [loopCalls, List.map_flatMap, List.map_flatMap, List.flatMap_map]
    rfl
  rw [hacts, run_pairs hn, keepLast_map]
  rfl

/-- Earlier rounds leave no trace. -/
theorem run_loopHistory {n : ℕ} (hn : 1 ≤ n) (earlier : List (List (Reading × Reading)))
    (pairs : List (Reading × Reading)) :
    RewindLog.run (2 * n) [] (((loopHistory earlier pairs).map unlabelled).map
      fun x => x.2.act x) = some (loopLog n pairs) := by
  induction earlier with
  | nil => exact run_loopCalls hn pairs
  | cons round earlier ih =>
    have hcons : loopHistory (round :: earlier) pairs =
        loopCalls round ++ [.reset] ++ loopHistory earlier pairs := by
      simp [loopHistory]
    rw [hcons, List.map_append, List.map_append, List.map_append, List.map_append, run_append,
      run_append, run_loopCalls hn, Option.bind_some]
    exact ih

def columnOf (p : Reading × Reading) (name : String) : Int64 :=
  match quantityOf name with
  | none => 0
  | some q => q.reading p.2 - q.reading p.1

theorem forall₂_map_eq {α β γ : Type*} {R : α → β → Prop} {f : α → γ} {g : β → γ} {l : List α}
    {l' : List β} (h : List.Forall₂ R l l') (heq : ∀ a ∈ l, ∀ b ∈ l', R a b → f a = g b) :
    l.map f = l'.map g := by
  induction h with
  | nil => rfl
  | @cons a b l l' hab _ ih =>
    rw [List.map_cons, List.map_cons, heq a List.mem_cons_self b List.mem_cons_self hab,
      ih fun a ha b hb => heq a (List.mem_cons_of_mem _ ha) b (List.mem_cons_of_mem _ hb)]

section Results

variable {hasPapi : Bool} {args : CreateArgs} {o : SetupOutcomes} {size : ℕ}
  {config : BenchmarkConfiguration}

theorem Created.eventNames (h : Created hasPapi args o size config)
    (hstrdup : ∀ i, o.strdup i = true) :
    config.usedEvents.map (·.name) = args.jeventNames.map some := by
  have hmap := forall₂_map_eq (f := fun x : String × ℕ => some x.1) (g := fun e : EventInfo => e.name)
    h.stored fun x _ event _ ⟨index, hevent⟩ => by
      rw [hevent, storedEvent, hstrdup]
      rfl
  rw [← hmap]
  change args.jeventNames.zipIdx.map (some ∘ Prod.fst) = _
  rw [← List.map_map, List.zipIdx_map_fst]

theorem Created.columns (h : Created hasPapi args o size config)
    (hsup : ∀ name ∈ args.jeventNames, quantityOf name ≠ none) (p : Reading × Reading) :
    (config.usedEvents.map fun event =>
        event.callGet (SetCall.written config (.start p.1) 0)
          (SetCall.written config (.stop p.2) 0)) =
      args.jeventNames.map (columnOf p) := by
  have hmap := forall₂_map_eq (f := fun x : String × ℕ => columnOf p x.1)
    (g := fun event : EventInfo => event.callGet (SetCall.written config (.start p.1) 0)
          (SetCall.written config (.stop p.2) 0))
    h.stored fun x hx event hevent ⟨index, heq⟩ => by
      have hname : x.1 ∈ args.jeventNames := by
        rw [← List.zipIdx_map_fst 0 args.jeventNames]
        exact List.mem_map_of_mem hx
      obtain ⟨q, hq⟩ := Option.ne_none_iff_exists'.mp (hsup x.1 hname)
      obtain ⟨getter, hserved⟩ := h.loop.served event hevent
      have hg : getter = q.getter := by
        have hopGet := hserved.opGet
        rw [heq] at hopGet
        have := (recognized_supported hasPapi o.papi hq).2.1
        exact Option.some.inj (hopGet.symm.trans this)
      rw [columnOf, hq]
      exact (callGet_written (hg ▸ hserved) p.1 p.2).symm
  rw [← hmap]
  change args.jeventNames.zipIdx.map (columnOf p ∘ Prod.fst) = _
  rw [← List.map_map, List.zipIdx_map_fst]

theorem Created.no_papi (h : Created hasPapi args o size config)
    (hsup : ∀ name ∈ args.jeventNames, quantityOf name ≠ none) :
    config.uses backendPapi = false := by
  rw [← Bool.not_eq_true, h.loop.uses]
  rintro ⟨name, hname, hp⟩
  obtain ⟨q, hq⟩ := Option.ne_none_iff_exists'.mp (hsup name hname)
  rw [(recognized_supported hasPapi o.papi hq).2.2] at hp
  cases hp

theorem rowsOf_loopLog {writer : ℕ → Option (Unit × SetCall)} {rc2 : ℕ → Int32} {n : ℕ}
    {pairs : List (Reading × Reading)} (hrec : Recorded config writer rc2)
    (hs : Shows config writer (loopLog n pairs)) (hserved : EventsServed config)
    (hno : config.uses backendPapi = false) :
    rowsOf config.usedEvents config.log =
      (keepLast n pairs).map fun p => config.usedEvents.map fun event =>
        event.callGet (SetCall.written config (.start p.1) 0)
          (SetCall.written config (.stop p.2) 0) := by
  have hlog : ((loopLog n pairs).map fun x => x.2.written config 0) =
      flatPairs ((keepLast n pairs).map fun p =>
        (SetCall.written config (.start p.1) 0, SetCall.written config (.stop p.2) 0)) := by
    simp only [loopLog, flatPairs, List.map_flatMap, List.flatMap_map, List.map_cons,
      List.map_nil]
  rw [rowsOf_congr hserved (hrec.agree_log hs hno), hlog, rowsOf_flatPairs, List.map_map]
  · rfl
  · intro p hp
    obtain ⟨q, -, rfl⟩ := List.mem_map.mp hp
    exact ⟨written_type config (by simp) 0, written_type config (by simp) 0⟩

theorem Created.foldlM_loopHistory (h : Created hasPapi args o args.size config)
    (hmeas : 0 < args.jmeasurements * 2) {n : ℕ} (hn : 1 ≤ n) (hsize : config.dataSize = 2 * n)
    (earlier : List (List (Reading × Reading))) (pairs : List (Reading × Reading)) :
    ∃ config' writer rc2, (loopHistory earlier pairs).foldlM SetCall.apply config = .ok config' ∧
      LogInv config' ∧ Recorded config' writer rc2 ∧ Shows config' writer (loopLog n pairs) := by
  rcases Shows.run (h.logInv hmeas) (h.shows (L := Unit))
    ((loopHistory earlier pairs).map unlabelled) with
    ⟨config', writer, l, hrun, hlog, hinv, hs⟩ | ⟨e, -, hlog⟩
  · rw [hsize, run_loopHistory hn, Option.some.injEq] at hlog
    subst hlog
    have hfold := foldlM_apply_of_perform hrun
    have hsnd : ((loopHistory earlier pairs).map unlabelled).map Prod.snd =
        loopHistory earlier pairs := by
      rw [List.map_map]
      exact List.map_id _
    rw [hsnd] at hfold
    exact ⟨config', writer, _, hfold, hinv, (h.recorded hmeas).run hrun, hs⟩
  · rw [hsize, run_loopHistory hn] at hlog
    cases hlog

/-- The results of supported names after the loop. -/
theorem Created.getResultsOf_loop (h : Created hasPapi args o size config)
    (hsup : ∀ name ∈ args.jeventNames, quantityOf name ≠ none) (hstrdup : ∀ i, o.strdup i = true)
    {calls : List SetCall} {config' : BenchmarkConfiguration}
    {writer : ℕ → Option (Unit × SetCall)} {rc2 : ℕ → Int32} {n : ℕ}
    {pairs : List (Reading × Reading)} (hfold : calls.foldlM SetCall.apply config = .ok config')
    (hinv : LogInv config') (hrec : Recorded config' writer rc2)
    (hs : Shows config' writer (loopLog n pairs)) :
    getResultsOf config' = .ok ⟨args.jeventNames.map some,
      (keepLast n pairs).map fun p => args.jeventNames.map (columnOf p)⟩ := by
  have hframe := foldlM_apply_frame hfold
  have hserved : EventsServed config' := by
    rw [hframe]
    exact h.loop.served.congr rfl rfl rfl
  have hno : config'.uses backendPapi = false := by
    rw [hframe]
    exact h.no_papi hsup
  have hevents' : config'.usedEvents = config.usedEvents := by
    rw [hframe]
    rfl
  have hwritten : ∀ call : SetCall, call.written config' 0 = call.written config 0 := by
    intro call
    rw [hframe]
    exact written_withLog _ _ _ _ _ _
  have hle : config'.dataIndex ≤ config'.data.length := by
    rw [hinv.length_data]
    exact hinv.index_le
  rw [getResultsOf_eq hle, rowsOf_loopLog hrec hs hserved hno, hevents', h.eventNames hstrdup]
  simp only [hwritten, h.columns hsup]

end Results

theorem accepted_supported (hasPapi : Bool) {a : Agent} {args : CreateArgs} {o : CreateOutcomes}
    (hmeas : 0 < args.jmeasurements * 2) (hnames : args.jeventNames ≠ [])
    (hsup : ∀ name ∈ args.jeventNames, quantityOf name ≠ none) (hroom : HasRoom a o)
    (hdata : o.callocData = true) (hevents : o.callocEvents = true) :
    Accepted hasPapi a args o := by
  have hres : ∀ name ∈ args.jeventNames, recognized hasPapi o.papi name = true ∧
      isPapiName hasPapi o.papi name = false := by
    intro name hname
    obtain ⟨q, hq⟩ := Option.ne_none_iff_exists'.mp (hsup name hname)
    obtain ⟨hrec, -, hno⟩ := recognized_supported hasPapi o.papi hq
    exact ⟨hrec, hno⟩
  refine ⟨hmeas, hnames, hroom, hdata, hevents, fun name hname => (hres name hname).1, ?_, ?_⟩
  · intro n hn _ _ hpn
    exact absurd ((hres n hn).2.symm.trans hpn) Bool.false_ne_true
  · rintro ⟨n, hn, hpn⟩
    exact absurd ((hres n hn).2.symm.trans hpn) Bool.false_ne_true

theorem doubled_pos {n : Int32} (hN : 1 ≤ n) (hfits : 2 * n.toInt < 2 ^ 31) : 0 < n * 2 := by
  have h1 : 1 ≤ n.toInt := Int32.le_iff_toInt_le.mp hN
  have hmul : (n * 2).toInt = (n.toInt * 2).bmod (2 ^ 32) := Int32.toInt_mul _ _
  rw [Int32.lt_iff_toInt_lt, hmul, Int.bmod_def]
  change (0 : ℤ) < _
  omega

/-- The documented loop: an event set of `N` measurements of supported names is created, and
after any rounds of `start` and `stop`, each ended by `reset`, and the pairs of readings since
then, `getResults` returns the names in order and the rows of the first `N` measurements, or of
the first `N - 1` and the last if there were more. -/
theorem getResults_loop (hasPapi : Bool) {a : Agent} {args : CreateArgs} {o : CreateOutcomes}
    (hN : 1 ≤ args.jmeasurements) (hfits : 2 * args.jmeasurements.toInt < 2 ^ 31)
    (hnames : args.jeventNames ≠ [])
    (hsup : ∀ name ∈ args.jeventNames, quantityOf name ≠ none) (hroom : HasRoom a o)
    (hdata : o.callocData = true) (hevents : o.callocEvents = true)
    (hstrdup : ∀ i, o.strdup i = true) (earlier : List (List (Reading × Reading)))
    (pairs : List (Reading × Reading)) :
    ∃ a₁ id a₂ trace, createEventSet hasPapi a args o = (a₁, .ok id) ∧
      run (Agent.step hasPapi) a₁ ((loopHistory earlier pairs).map (SetCall.on id)) =
        .ok (a₂, trace) ∧
      getResults a₂ id = .ok (.ok ⟨args.jeventNames.map some,
        (keepLast args.jmeasurements.toInt.toNat pairs).map fun p =>
          args.jeventNames.map (columnOf p)⟩) := by
  have hmeas := doubled_pos hN hfits
  have hcreate := createEventSet_eq (accepted_supported hasPapi hmeas hnames hsup hroom
    hdata hevents)
  obtain ⟨-, -, config, hc, hcreated, -⟩ := createEventSet_created hcreate
  have hn : 1 ≤ args.jmeasurements.toInt.toNat := by
    have : 1 ≤ args.jmeasurements.toInt := Int32.le_iff_toInt_le.mp hN
    omega
  have hsize : config.dataSize = 2 * args.jmeasurements.toInt.toNat :=
    hcreated.dataSize.trans ((size_spec hmeas).2.2 hN)
  obtain ⟨config', writer, rc2, hfold, hinv, hrec, hs⟩ :=
    hcreated.foldlM_loopHistory hmeas hn hsize earlier pairs
  rcases run_on hasPapi hc (loopHistory earlier pairs) with
    ⟨config₁, a₂, trace, hfold₁, hrun, hc₂⟩ | ⟨f, hfail, -⟩
  · obtain rfl : config' = config₁ := Except.ok.inj (hfold.symm.trans hfold₁)
    refine ⟨_, _, a₂, trace, hcreate, hrun, ?_⟩
    rw [getResults, hc₂]
    dsimp only
    rw [hcreated.getResultsOf_loop hsup hstrdup hfold hinv hrec hs]
    rfl
  · rw [hfold] at hfail
    cases hfail

/-- Three pairs after a reset in an event set of two: the first and the third are left. -/
theorem getResults_three_pairs :
    ∃ a₁ id a₂ trace, createEventSet true Agent.initial
        ⟨2, ["sys:WALLCLOCK-time", "JVM_COMPILATIONS"], []⟩ .success = (a₁, .ok id) ∧
      run (Agent.step true) a₁ ((loopHistory [[(.zero, .zero)]]
        [(.at 1 0, .at 1 7), (.at 2 0, .at 2 8), (.at 3 5, .at 4 0)]).map (SetCall.on id)) =
        .ok (a₂, trace) ∧
      getResults a₂ id = .ok (.ok ⟨[some "sys:WALLCLOCK-time", some "JVM_COMPILATIONS"],
        [[7, 0], [999999995, 0]]⟩) := by
  have hrows : ((keepLast 2 [(Reading.at 1 0, Reading.at 1 7), (.at 2 0, .at 2 8),
      (.at 3 5, .at 4 0)]).map fun p =>
        ["sys:WALLCLOCK-time", "JVM_COMPILATIONS"].map (columnOf p)) =
      [[7, 0], [999999995, 0]] := by
    decide
  rw [← hrows]
  exact getResults_loop true (by decide) (by decide) (by decide) (by decide) (.inr rfl) rfl rfl
    (fun _ => rfl) [[(.zero, .zero)]]
    [(.at 1 0, .at 1 7), (.at 2 0, .at 2 8), (.at 3 5, .at 4 0)]

end UbenchAgent
