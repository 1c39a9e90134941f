import UbenchAgent.ResetState
import UbenchAgent.Views

/-!
# Samples between measurements

`sample` stores its id in the field that also marks the snapshots of `start` and of `stop`,
and `getResults` goes by that field.  So a sample shows in the results exactly if it becomes
the START or the END of a row.
-/

namespace UbenchAgent

open Pairing

/-- The snapshot of a call in a slot that nothing was written to before. -/
def SetCall.shot (config : BenchmarkConfiguration) (call : SetCall) : EventsSnapshot :=
  call.written config (call.rc2Over 0)

def CallKind.opens (kind : CallKind) : Bool := kind.type == snapshotTypeStart

def CallKind.closes (kind : CallKind) : Bool := kind.type == snapshotTypeEnd

theorem opens_iff (kind : CallKind) : kind.opens = true ↔ kind.type = snapshotTypeStart :=
  beq_iff_eq

theorem closes_iff (kind : CallKind) : kind.closes = true ↔ kind.type = snapshotTypeEnd :=
  beq_iff_eq

def pairedCalls (calls : List SetCall) : List (SetCall × SetCall) :=
  matched (fun call => call.kind.opens) (fun call => call.kind.closes) none calls

def rowBetween (config : BenchmarkConfiguration) (p : SetCall × SetCall) : List Int64 :=
  config.usedEvents.map fun event => event.callGet (p.1.shot config) (p.2.shot config)

theorem hasType_shot (config : BenchmarkConfiguration) (type : Int32) (call : SetCall) :
    hasType type (call.shot config) = (call.kind.type == type) := by
  by_cases hreset : call = .reset
  · rw [hreset]
    rfl
  · rw [hasType, SetCall.shot, written_type config hreset, type_of_kind]

/-- The rows are those between the calls that the scan pairs. -/
theorem rowsOf_shots (config : BenchmarkConfiguration) (calls : List SetCall) :
    rowsOf config.usedEvents (calls.map (SetCall.shot config)) =
      (pairedCalls calls).map (rowBetween config) := by
  have hscan := map_pairs_getD (hasType snapshotTypeStart) (hasType snapshotTypeEnd)
    EventsSnapshot.calloc [] (calls.map (SetCall.shot config)) none nofun
  have hcalls := matched_map (hasType snapshotTypeStart) (hasType snapshotTypeEnd)
    (SetCall.shot config) none calls
  simp only [hasType_shot] at hcalls
  have hrow : rowOf config.usedEvents (calls.map (SetCall.shot config)) =
      (fun p : EventsSnapshot × EventsSnapshot =>
        config.usedEvents.map fun event => event.callGet p.1 p.2) ∘
      fun p => ((calls.map (SetCall.shot config)).getD p.1 EventsSnapshot.calloc,
        (calls.map (SetCall.shot config)).getD p.2 EventsSnapshot.calloc) := rfl
  rw [rowsOf, pairsOf, hrow, ← List.map_map]
  refine (congrArg _ (hscan.trans hcalls)).trans ?_
  rw [List.map_map]
  rfl

section Runs

variable {hasPapi : Bool} {args : CreateArgs} {o : SetupOutcomes}
  {config : BenchmarkConfiguration} {calls : List SetCall}

theorem Created.results_of_fits (h : Created hasPapi args o args.size config)
    (hmeas : 0 < args.jmeasurements * 2) (hreset : ∀ call ∈ calls, call ≠ .reset)
    (hfit : calls.length ≤ args.size) :
    ∃ config', calls.foldlM SetCall.apply config = .ok config' ∧
      getResultsOf config' = .ok ⟨config.usedEvents.map (·.name),
        (pairedCalls calls).map (rowBetween config)⟩ := by
  obtain ⟨config', hrun, hwrites⟩ := h.writes hmeas (writersOf_fits hreset hfit)
  have hroom : 0 + calls.length ≤ args.size := by omega
  have hshots : (calls.mapIdx fun i call => call.written config
      (rc2Run args.size 0 (fun _ => 0) calls i)) = calls.map (SetCall.shot config) := by
    refine List.ext_getElem? fun i => ?_
    rw [List.getElem?_mapIdx, List.getElem?_map]
    cases hcall : calls[i]? with
    | none => rfl
    | some call =>
      have hcode := (rc2Run_fits hroom hreset (fun _ => 0)).2 i call hcall
      rw [Nat.zero_add] at hcode
      rw [Option.map_some, Option.map_some, hcode]
      rfl
  refine ⟨config', hrun, ?_⟩
  rw [hwrites.results.1, hshots, rowsOf_shots]

end Runs

def Reading.snapshot (r : Reading) (rc1 rc2 type : Int32) : EventsSnapshot where
  timestamp := r.wallclock
  threadtime := r.threadtime
  resourceUsage := r.resourceUsage
  compilations := r.compilationTotal.toInt64
  garbageCollections := r.gcTotal
  papiEvents := r.papiValues
  papiRc1 := rc1
  papiRc2 := rc2
  type := type

section Values

variable (config : BenchmarkConfiguration)

theorem agreeOn_doSnapshot (r : Reading) (s : EventsSnapshot) (rc2 : Int32) :
    AgreeOn config { doSnapshot config r s with papiRc2 := rc2 }
      (r.snapshot r.papiRead rc2 s.type) where
  type := doSnapshot_type config r s
  timestamp hu := (doSnapshot_timestamp config r s).trans (if_pos hu)
  threadtime hu := (doSnapshot_threadtime config r s).trans (if_pos hu)
  resourceUsage hu := (doSnapshot_resourceUsage config r s).trans (if_pos hu)
  compilations hu := (doSnapshot_compilations config r s).trans (if_pos hu)
  papiRc1 hu := (doSnapshot_papiRc1 config r s).trans (if_pos hu)
  papiRc2 _ _ := rfl
  papiEvents hu hrc i hi := by
    have hread : r.papiRead = papiOk := by
      have hrc1 := (doSnapshot_papiRc1 config r s).trans (if_pos hu)
      exact hrc1.symm.trans hrc
    have hstored := congrFun ((doSnapshot_papiEvents config r s).trans (if_pos hu)) i
    exact hstored.trans (if_pos ⟨hread, hi⟩)

theorem agreeOn_ubenchMeasureStop (r : Reading) (s : EventsSnapshot) (rc2 : Int32) :
    AgreeOn config { ubenchMeasureStop config r s with papiRc2 := rc2 }
      (r.snapshot r.papiStop rc2 snapshotTypeEnd) where
  type := ubenchMeasureStop_type config r s
  timestamp hu := (ubenchMeasureStop_timestamp config r s).trans (if_pos hu)
  threadtime hu := (ubenchMeasureStop_threadtime config r s).trans (if_pos hu)
  resourceUsage hu := (ubenchMeasureStop_resourceUsage config r s).trans (if_pos hu)
  compilations hu := (ubenchMeasureStop_compilations config r s).trans (if_pos hu)
  papiRc1 hu := (ubenchMeasureStop_papiRc1 config r s).trans (if_pos hu)
  papiRc2 _ _ := rfl
  papiEvents hu hrc i hi := by
    have hstop : r.papiStop = papiOk := by
      have hrc1 := (ubenchMeasureStop_papiRc1 config r s).trans (if_pos hu)
      exact hrc1.symm.trans hrc
    have hstored := congrFun ((ubenchMeasureStop_papiEvents config r s).trans (if_pos hu)) i
    exact hstored.trans (if_pos ⟨hstop, hi⟩)

end Values

/-- What the results can show of the snapshot of a call. -/
def SetCall.visible : SetCall → EventsSnapshot
  | .start r => r.snapshot r.papiRead r.papiStart snapshotTypeStart
  | .stop r => r.snapshot r.papiStop 0 snapshotTypeEnd
  | .sample userId r => r.snapshot r.papiRead 0 userId
  | .reset => EventsSnapshot.calloc

theorem agreeOn_shot (config : BenchmarkConfiguration) (call : SetCall) :
    AgreeOn config (call.shot config) call.visible := by
  cases call with
  | start r => exact agreeOn_doSnapshot config r _ _
  | stop r => exact agreeOn_ubenchMeasureStop config r _ _
  | sample userId r => exact agreeOn_doSnapshot config r _ _
  | reset => exact AgreeOn.refl config _

/-- A reading in which every source answers one and every PAPI call succeeds. -/
def Reading.one : Reading where
  wallclock := ⟨0, 1⟩
  threadtime := ⟨0, 1⟩
  resourceUsage := ⟨⟨0, 1⟩, ⟨0, 0⟩, 1⟩
  compilationTotal := 1
  gcTotal := 1
  papiStart := papiOk
  papiRead := papiOk
  papiStop := papiOk
  papiValues := fun _ => 1

/-- Ones for a `sample` with this id, zeros for every other call. -/
def CallKind.mark (userId : Int32) (kind : CallKind) : Reading :=
  if kind = .sample userId then .one else .zero

def CallKind.marked (userId : Int32) : CallKind → SetCall
  | .sample id => .sample id (CallKind.mark userId (.sample id))
  | kind => kind.call

theorem marked_kind (userId : Int32) (kind : CallKind) : (kind.marked userId).kind = kind := by
  cases kind <;> rfl

theorem visible_marked (userId : Int32) (kind : CallKind) :
    (kind.marked userId).visible = (kind.mark userId).snapshot papiOk papiOk kind.type := by
  cases kind with
  | sample id =>
    change (CallKind.mark userId (.sample id)).snapshot _ 0 id = _
    unfold CallKind.mark
    split_ifs <;> rfl
  | start => rfl
  | stop => rfl
  | reset => rfl

def EventGetterFunc.difference (r r' : Reading) (papiIndex : Fin ubenchMaxPapiEvents) :
    EventGetterFunc → Int64
  | .wallClockTime => timespecDiffNs r.wallclock r'.wallclock
  | .threadTime => timespecDiffNs r.threadtime r'.threadtime
  | .jvmCompilations => r'.compilationTotal.toInt64 - r.compilationTotal.toInt64
  | .contextSwitchForced => r'.resourceUsage.ruNivcsw - r.resourceUsage.ruNivcsw
  | .threadTimeRusage => (timevalDiffUs r.resourceUsage.ruUtime r'.resourceUsage.ruUtime +
      timevalDiffUs r.resourceUsage.ruStime r'.resourceUsage.ruStime) * 1000
  | .papi => r'.papiValues papiIndex - r.papiValues papiIndex

theorem callGet_snapshot {config : BenchmarkConfiguration} {event : EventInfo}
    {getter : EventGetterFunc} (h : Served config event getter) (r r' : Reading)
    (type type' : Int32) :
    event.callGet (r.snapshot papiOk papiOk type) (r'.snapshot papiOk papiOk type') =
      getter.difference r r' event.papiIndex := by
  rw [EventInfo.callGet, h.opGet]
  cases getter <;> rfl

theorem difference_zero (getter : EventGetterFunc) (papiIndex : Fin ubenchMaxPapiEvents) :
    getter.difference .zero .zero papiIndex = 0 := by
  revert papiIndex
  cases getter <;> decide

theorem difference_one (getter : EventGetterFunc) (papiIndex : Fin ubenchMaxPapiEvents) :
    getter.difference .one .zero papiIndex ≠ 0 ∧ getter.difference .zero .one papiIndex ≠ 0 := by
  revert papiIndex
  cases getter <;> decide

def CallKind.measures : CallKind → Bool
  | .sample _ => false
  | _ => true

theorem eq_sample {kind : CallKind} (h : ¬ kind.measures = true) :
    ∃ userId, kind = .sample userId := by
  cases kind with
  | sample userId => exact ⟨userId, rfl⟩
  | start => exact absurd rfl h
  | stop => exact absurd rfl h
  | reset => exact absurd rfl h

/-- No sample ends a measurement, and none begins one that is ended later; the first argument
tells whether a `start` waits for its end. -/
def SamplesHarmless : Bool → List CallKind → Prop
  | _, [] => True
  | _, .start :: kinds => SamplesHarmless true kinds
  | _, .stop :: kinds => SamplesHarmless false kinds
  | true, .sample userId :: kinds => userId ≠ snapshotTypeEnd ∧ SamplesHarmless true kinds
  | false, .sample userId :: kinds =>
    (userId = snapshotTypeStart → ∀ kind ∈ kinds, kind.type ≠ snapshotTypeEnd) ∧
      SamplesHarmless false kinds
  | waits, .reset :: kinds => SamplesHarmless waits kinds

instance SamplesHarmless.decidable :
    ∀ (waits : Bool) (kinds : List CallKind), Decidable (SamplesHarmless waits kinds)
  | _, [] => .isTrue trivial
  | _, .start :: kinds => SamplesHarmless.decidable true kinds
  | _, .stop :: kinds => SamplesHarmless.decidable false kinds
  | true, .sample userId :: kinds =>
    have := SamplesHarmless.decidable true kinds
    inferInstanceAs (Decidable (userId ≠ snapshotTypeEnd ∧ _))
  | false, .sample userId :: kinds =>
    have := SamplesHarmless.decidable false kinds
    inferInstanceAs (Decidable ((userId = snapshotTypeStart → _) ∧ _))
  | true, .reset :: kinds => SamplesHarmless.decidable true kinds
  | false, .reset :: kinds => SamplesHarmless.decidable false kinds

def OnlyMeasured (pairs : List (CallKind × CallKind)) : Prop :=
  ∀ p ∈ pairs, p.1.measures = true ∧ p.2.measures = true

/-- A sample while no `start` waits must not begin a pair. -/
theorem onlyMeasured_sample_idle (userId : Int32) (kinds : List CallKind) :
    OnlyMeasured (matched CallKind.opens CallKind.closes none (.sample userId :: kinds)) ↔
      (userId = snapshotTypeStart → ∀ kind ∈ kinds, kind.type ≠ snapshotTypeEnd) ∧
        OnlyMeasured (matched CallKind.opens CallKind.closes none kinds) := by
  unfold OnlyMeasured
  rw [matched]
  by_cases hid : userId = snapshotTypeStart
  · have hsample : ¬ (CallKind.sample userId).measures = true := Bool.false_ne_true
    have hnoend : (∀ p ∈ matched CallKind.opens CallKind.closes (some (.sample userId)) kinds,
        p.1.measures = true ∧ p.2.measures = true) ↔ ∀ kind ∈ kinds, ¬ kind.closes = true :=
      forall_matched_of_not (P := fun kind : CallKind => kind.measures = true) hsample
    rw [if_pos ((opens_iff (.sample userId)).mpr hid), hnoend]
    simp only [closes_iff, hid, true_imp_iff]
    refine (and_iff_left_of_imp fun htypes => ?_).symm
    rw [matched_eq_nil fun kind hmem hcloses => htypes kind hmem ((closes_iff kind).mp hcloses)]
    exact List.forall_mem_nil _
  · rw [if_neg fun hopens => hid ((opens_iff (.sample userId)).mp hopens)]
    exact (and_iff_right fun h => absurd h hid).symm

/-- A sample while a `start` waits must not end the pair. -/
theorem onlyMeasured_sample_waiting (userId : Int32) (kinds : List CallKind) (first : CallKind) :
    OnlyMeasured (matched CallKind.opens CallKind.closes (some first)
        (.sample userId :: kinds)) ↔
      userId ≠ snapshotTypeEnd ∧
        OnlyMeasured (matched CallKind.opens CallKind.closes (some first) kinds) := by
  rw [matched]
  by_cases hid : userId = snapshotTypeEnd
  · rw [if_pos ((closes_iff (.sample userId)).mpr hid)]
    refine iff_of_false (fun h => ?_) fun h => h.1 hid
    cases (h _ List.mem_cons_self).2
  · rw [if_neg fun hcloses => hid ((closes_iff (.sample userId)).mp hcloses)]
    exact (and_iff_right hid).symm

/-- Samples do no harm exactly if none of them is in a pair. -/
theorem samplesHarmless_iff (kinds : List CallKind) (waiting : Option CallKind)
    (hwaiting : ∀ kind, waiting = some kind → kind.measures = true) :
    SamplesHarmless waiting.isSome kinds ↔
      OnlyMeasured (matched CallKind.opens CallKind.closes waiting kinds) := by
  have hnobody : ∀ kind : CallKind, none = some kind → kind.measures = true := by
    intro kind h
    cases h
  induction kinds generalizing waiting with
  | nil => cases waiting <;> exact iff_of_true trivial (List.forall_mem_nil _)
  | cons kind kinds ih =>
    have hidle : SamplesHarmless false kinds ↔
        OnlyMeasured (matched CallKind.opens CallKind.closes none kinds) := ih none hnobody
    cases waiting with
    | none =>
      cases kind with
      | start => exact ih (some .start) (by simp [CallKind.measures])
      | stop => exact hidle
      | reset => exact hidle
      | sample userId =>
        rw [onlyMeasured_sample_idle, ← hidle]
        rfl
    | some first =>
      have hfirst := hwaiting first rfl
      have hsome : SamplesHarmless true kinds ↔
          OnlyMeasured (matched CallKind.opens CallKind.closes (some first) kinds) :=
        ih (some first) hwaiting
      cases kind with
      | start => exact hsome
      | reset => exact hsome
      | stop =>
        have hcons : OnlyMeasured (matched CallKind.opens CallKind.closes (some first)
            (.stop :: kinds)) ↔ (first.measures = true ∧ true = true) ∧
              OnlyMeasured (matched CallKind.opens CallKind.closes none kinds) :=
          List.forall_mem_cons
        rw [hcons, ← hidle]
        exact (and_iff_right ⟨hfirst, rfl⟩).symm
      | sample userId =>
        rw [onlyMeasured_sample_waiting, ← hsome]
        rfl

/-- Whatever the calls of these kinds read, the event set has the results that it has after
the same calls without the samples. -/
def SamplesInvisible (hasPapi : Bool) (a : Agent) (id : ℤ) (kinds : List CallKind) : Prop :=
  ∀ calls : List SetCall, calls.map SetCall.kind = kinds → ∃ config config',
    RunsTo hasPapi a id calls config ∧
    RunsTo hasPapi a id (calls.filter fun call => call.kind.measures) config' ∧
    getResultsOf config = getResultsOf config'

section Samples

variable {hasPapi : Bool} {args : CreateArgs} {o : SetupOutcomes}
  {config : BenchmarkConfiguration} {a : Agent} {id : ℤ} {kinds : List CallKind}
  {calls : List SetCall}

theorem map_pairedCalls (calls : List SetCall) :
    (pairedCalls calls).map (fun p => (p.1.kind, p.2.kind)) =
      matched CallKind.opens CallKind.closes none (calls.map SetCall.kind) :=
  (matched_map CallKind.opens CallKind.closes SetCall.kind none calls).symm

theorem Created.sampledRuns (h : Created hasPapi args o args.size config)
    (hmeas : 0 < args.jmeasurements * 2) (hc : a.validConfig id = some config)
    (hreset : CallKind.reset ∉ kinds) (hfit : kinds.length ≤ args.size)
    (hkinds : calls.map SetCall.kind = kinds) :
    ∃ config₁ config₂, RunsTo hasPapi a id calls config₁ ∧
      RunsTo hasPapi a id (calls.filter fun call => call.kind.measures) config₂ ∧
      getResultsOf config₁ = .ok ⟨config.usedEvents.map (·.name),
        (pairedCalls calls).map (rowBetween config)⟩ ∧
      getResultsOf config₂ = .ok ⟨config.usedEvents.map (·.name),
        (pairedCalls (calls.filter fun call => call.kind.measures)).map (rowBetween config)⟩ := by
  have hwrites : ∀ call ∈ calls, call ≠ .reset := by
    rintro call hmem rfl
    exact hreset (hkinds ▸ List.mem_map_of_mem hmem)
  have hlength : calls.length ≤ args.size := by
    rw [← List.length_map SetCall.kind, hkinds]
    exact hfit
  obtain ⟨config₁, hrun₁, hres₁⟩ := h.results_of_fits hmeas hwrites hlength
  obtain ⟨config₂, hrun₂, hres₂⟩ := h.results_of_fits hmeas
    (fun call hmem => hwrites call (List.mem_filter.mp hmem).1)
    ((List.length_filter_le (fun call => call.kind.measures) calls).trans hlength)
  exact ⟨config₁, config₂, (runsTo_iff hc _).mpr hrun₁, (runsTo_iff hc _).mpr hrun₂, hres₁, hres₂⟩

theorem Created.samplesInvisible (h : Created hasPapi args o args.size config)
    (hmeas : 0 < args.jmeasurements * 2) (hc : a.validConfig id = some config)
    (hreset : CallKind.reset ∉ kinds) (hfit : kinds.length ≤ args.size)
    (hharmless : SamplesHarmless false kinds) : SamplesInvisible hasPapi a id kinds := by
  intro calls hkinds
  obtain ⟨config₁, config₂, hruns₁, hruns₂, hres₁, hres₂⟩ :=
    h.sampledRuns hmeas hc hreset hfit hkinds
  have hpairs := (samplesHarmless_iff kinds none nofun).mp hharmless
  rw [← hkinds, ← map_pairedCalls, OnlyMeasured, List.forall_mem_map] at hpairs
  have hsame : pairedCalls (calls.filter fun call => call.kind.measures) = pairedCalls calls :=
    matched_filter hpairs
  exact ⟨config₁, config₂, hruns₁, hruns₂, by rw [hres₁, hres₂, hsame]⟩

theorem callGet_marked (config : BenchmarkConfiguration) {event : EventInfo}
    {getter : EventGetterFunc} (hserved : Served config event getter) (userId : Int32)
    (kind kind' : CallKind) :
    event.callGet ((kind.marked userId).shot config) ((kind'.marked userId).shot config) =
      getter.difference (kind.mark userId) (kind'.mark userId) event.papiIndex := by
  rw [callGet_congr hserved (agreeOn_shot config _) (agreeOn_shot config _), visible_marked,
    visible_marked, callGet_snapshot hserved]

theorem pairedCalls_marked (userId : Int32) (kinds : List CallKind) :
    pairedCalls (kinds.map (CallKind.marked userId)) =
      (matched CallKind.opens CallKind.closes none kinds).map
        fun q => (q.1.marked userId, q.2.marked userId) := by
  have hscan := matched_map (fun call : SetCall => call.kind.opens)
    (fun call : SetCall => call.kind.closes) (CallKind.marked userId) none kinds
  simp only [marked_kind] at hscan
  exact hscan

theorem Created.difference_mark (h : Created hasPapi args o args.size config)
    (hmeas : 0 < args.jmeasurements * 2) (hc : a.validConfig id = some config)
    (hreset : CallKind.reset ∉ kinds) (hfit : kinds.length ≤ args.size)
    (hinvisible : SamplesInvisible hasPapi a id kinds) (userId : Int32)
    {q : CallKind × CallKind} (hq : q ∈ matched CallKind.opens CallKind.closes none kinds)
    {event : EventInfo} (hmem : event ∈ config.usedEvents) {getter : EventGetterFunc}
    (hserved : Served config event getter) :
    getter.difference (q.1.mark userId) (q.2.mark userId) event.papiIndex = 0 := by
  have hkinds : (kinds.map (CallKind.marked userId)).map SetCall.kind = kinds := by
    rw [List.map_map]
    exact (List.map_congr_left fun kind _ => marked_kind userId kind).trans (List.map_id kinds)
  obtain ⟨config₁, config₂, hruns₁, hruns₂, hres₁, hres₂⟩ :=
    h.sampledRuns hmeas hc hreset hfit hkinds
  obtain ⟨config₃, config₄, hruns₃, hruns₄, hsame⟩ := hinvisible _ hkinds
  obtain rfl := hruns₁.unique hc hruns₃
  obtain rfl := hruns₂.unique hc hruns₄
  have hmeasured : (kinds.map (CallKind.marked userId)).filter (fun call => call.kind.measures) =
      (kinds.filter CallKind.measures).map (CallKind.marked userId) := by
    rw [List.filter_map]
    congr 1
    exact List.filter_congr fun kind _ => by rw [Function.comp_apply, marked_kind]
  rw [hres₁, hres₂, hmeasured, pairedCalls_marked, pairedCalls_marked, Except.ok.injEq,
    BenchmarkResults.mk.injEq] at hsame
  -- The row of `q` is also a row without the samples.
  have hrow := List.mem_map_of_mem (f := rowBetween config)
    (List.mem_map_of_mem (f := fun q => (q.1.marked userId, q.2.marked userId)) hq)
  rw [hsame.2, List.map_map] at hrow
  obtain ⟨q', hq', hrows⟩ := List.mem_map.mp hrow
  have hvalue := List.map_inj_left.mp hrows event hmem
  rw [callGet_marked config hserved, callGet_marked config hserved] at hvalue
  -- There both calls read zeros.
  have hzero : ∀ kind ∈ kinds.filter CallKind.measures, kind.mark userId = .zero := by
    intro kind hkind
    apply if_neg
    rintro rfl
    cases (List.mem_filter.mp hkind).2
  obtain ⟨hfirst, hsecond, -⟩ := mem_matched hq'
  have hfirst' := hfirst.resolve_left nofun
  rw [← hvalue, hzero _ hfirst'.1, hzero _ hsecond, difference_zero]

theorem Created.samplesHarmless (h : Created hasPapi args o args.size config)
    (hmeas : 0 < args.jmeasurements * 2) (hevents : args.jeventNames ≠ [])
    (hc : a.validConfig id = some config) (hreset : CallKind.reset ∉ kinds)
    (hfit : kinds.length ≤ args.size) (hinvisible : SamplesInvisible hasPapi a id kinds) :
    SamplesHarmless false kinds := by
  have hlength : config.usedEvents.length = args.jeventNames.length := by
    rw [← List.Forall₂.length_eq h.stored, List.length_zipIdx]
  obtain ⟨event, hmem⟩ : ∃ event, event ∈ config.usedEvents := by
    apply List.exists_mem_of_length_pos
    rw [hlength]
    exact List.length_pos_of_ne_nil hevents
  obtain ⟨getter, hserved⟩ := h.loop.served event hmem
  refine (samplesHarmless_iff kinds none nofun).mpr fun q hq => ?_
  have hmark := fun userId => h.difference_mark hmeas hc hreset hfit hinvisible userId hq hmem hserved
  obtain ⟨hfirst, -, hsecond⟩ := mem_matched hq
  have hopens := (opens_iff _).mp (hfirst.resolve_left nofun).2
  have hcloses := (closes_iff _).mp hsecond
  have hdistinct : q.1 ≠ q.2 := by
    intro hsame
    rw [hsame] at hopens
    exact absurd (hopens.symm.trans hcloses) (by decide)
  constructor
  · by_contra hsample
    obtain ⟨userId, hkind⟩ := eq_sample hsample
    have hzero : q.2.mark userId = .zero := if_neg fun h => hdistinct (hkind.trans h.symm)
    have hdiff := hmark userId
    rw [hzero, hkind, CallKind.mark, if_pos rfl] at hdiff
    exact (difference_one getter event.papiIndex).1 hdiff
  · by_contra hsample
    obtain ⟨userId, hkind⟩ := eq_sample hsample
    have hzero : q.1.mark userId = .zero := if_neg fun h => hdistinct (h.trans hkind.symm)
    have hdiff := hmark userId
    rw [hzero, hkind, CallKind.mark, if_pos rfl] at hdiff
    exact (difference_one getter event.papiIndex).2 hdiff

end Samples

/-- On every new event set the samples among calls that fit are invisible in the results
exactly if none ends a measurement and none begins one that is ended later. -/
theorem createEventSet_samplesInvisible_iff {hasPapi : Bool} {a a' : Agent} {args : CreateArgs}
    {o : CreateOutcomes} {id : ℤ} (hcreate : createEventSet hasPapi a args o = (a', .ok id))
    {kinds : List CallKind} (hreset : CallKind.reset ∉ kinds) (hfit : kinds.length ≤ args.size) :
    SamplesInvisible hasPapi a' id kinds ↔ SamplesHarmless false kinds := by
  obtain ⟨hacc, -, config, hc, hcreated, -⟩ := createEventSet_created hcreate
  constructor
  · intro h
    exact hcreated.samplesHarmless hacc.measurements hacc.events hc hreset hfit h
  · intro h
    exact hcreated.samplesInvisible hacc.measurements hc hreset hfit h

/-- Samples between and inside two measurements, with ids that are not reserved. -/
theorem samplesInvisible_seven :
    SamplesInvisible false (createEventSet false .initial (.wallclock 4) .success).1 0
      [.sample (-2), .start, .sample 7, .stop, .start, .sample (-1), .stop] :=
  (createEventSet_samplesInvisible_iff
    (createEventSet_eq (accepted_wallclock false .initial 4 (by decide))) (by decide)
    (by decide)).mpr (by decide)

theorem Created.rowBetween_wallclock {n : Int32} {o : SetupOutcomes}
    {config : BenchmarkConfiguration}
    (h : Created false (.wallclock n) o (CreateArgs.wallclock n).size config)
    (call call' : SetCall) : rowBetween config (call, call') =
      [timespecDiffNs call.visible.timestamp call'.visible.timestamp] := by
  have hstored : List.Forall₂ _ [("SYS:wallclock-time", 0)] config.usedEvents := h.stored
  obtain ⟨event, rest, ⟨index, hevent⟩, hrest, hevents⟩ :=
    List.forall₂_cons_left_iff.mp hstored
  rw [List.forall₂_nil_left_iff.mp hrest] at hevents
  have hget : event.opGet = some .wallClockTime := by
    rw [hevent]
    rfl
  have hmem : event ∈ config.usedEvents := by
    rw [hevents]
    exact List.mem_singleton_self event
  obtain ⟨getter, hserved⟩ := h.loop.served event hmem
  rw [rowBetween, hevents, List.map_singleton,
    callGet_congr hserved (agreeOn_shot config call) (agreeOn_shot config call'),
    EventInfo.callGet, hget]
  rfl

/-- A sample with the id -2 one second after a `start` ends the measurement of two seconds. -/
theorem sample_ends_measurement :
    ∃ config config',
      RunsTo false (createEventSet false .initial (.wallclock 2) .success).1 0
        [.start (.at 0 0), .sample (-2) (.at 1 0), .stop (.at 2 0)] config ∧
      RunsTo false (createEventSet false .initial (.wallclock 2) .success).1 0
        [.start (.at 0 0), .stop (.at 2 0)] config' ∧
      (getResultsOf config).map (·.data) = .ok [[1000000000]] ∧
      (getResultsOf config').map (·.data) = .ok [[2000000000]] := by
  have hcreate := createEventSet_eq (accepted_wallclock false .initial 2 (by decide))
  obtain ⟨hacc, -, config, hc, hcreated, -⟩ := createEventSet_created hcreate
  have hkinds : [SetCall.start (.at 0 0), .sample (-2) (.at 1 0),
      .stop (.at 2 0)].map SetCall.kind = [.start, .sample (-2), .stop] := rfl
  obtain ⟨config₁, config₂, hruns₁, hruns₂, hres₁, hres₂⟩ :=
    hcreated.sampledRuns hacc.measurements hc (by decide) (by decide) hkinds
  refine ⟨config₁, config₂, hruns₁, hruns₂, ?_, ?_⟩
  · rw [hres₁]
    change Except.ok [rowBetween config _] = _
    rw [hcreated.rowBetween_wallclock]
    decide
  · rw [hres₂]
    change Except.ok [rowBetween config _] = _
    rw [hcreated.rowBetween_wallclock]
    decide

end UbenchAgent
