import UbenchAgent.Histories
import UbenchAgent.Sampling

/-!
# Rows and readings

Whatever is called on an event set, a row holds the differences of the readings of two of the
calls, and the rows follow one another in the order of the calls.  So on a clock that does not
go back no duration is negative, and together they are no longer than the time that passed.
-/

namespace UbenchAgent

open Pairing RewindLog

def SetCall.read : SetCall → Option Reading
  | .start r => some r
  | .stop r => some r
  | .sample _ r => some r
  | .reset => none

def SetCall.value (q : Quantity) (call : SetCall) : Int64 :=
  match call.read with
  | none => 0
  | some r => q.reading r

/-- The value under a name in the row of a pair of calls. -/
def differenceOf (p : SetCall × SetCall) (name : String) : Int64 :=
  match quantityOf name with
  | none => 0
  | some q => p.2.value q - p.1.value q

section Written

variable {config : BenchmarkConfiguration} {call : SetCall} {r : Reading}

theorem written_timestamp (hread : call.read = some r)
    (hu : config.uses backendSysWallclock = true) (rc2 : Int32) :
    (call.written config rc2).timestamp = r.wallclock := by
  cases call <;> cases hread <;>
    simp only [SetCall.written, SetCall.fill, ubenchMeasureStart, ubenchMeasureSample,
      doSnapshot_timestamp, ubenchMeasureStop_timestamp, hu, ↓reduceIte]

theorem written_threadtime (hread : call.read = some r)
    (hu : config.uses backendSysThreadtime = true) (rc2 : Int32) :
    (call.written config rc2).threadtime = r.threadtime := by
  cases call <;> cases hread <;>
    simp only [SetCall.written, SetCall.fill, ubenchMeasureStart, ubenchMeasureSample,
      doSnapshot_threadtime, ubenchMeasureStop_threadtime, hu, ↓reduceIte]

theorem written_resourceUsage (hread : call.read = some r)
    (hu : config.uses backendResourceUsage = true) (rc2 : Int32) :
    (call.written config rc2).resourceUsage = r.resourceUsage := by
  cases call <;> cases hread <;>
    simp only [SetCall.written, SetCall.fill, ubenchMeasureStart, ubenchMeasureSample,
      doSnapshot_resourceUsage, ubenchMeasureStop_resourceUsage, hu, ↓reduceIte]

theorem written_compilations (hread : call.read = some r)
    (hu : config.uses backendJvmCompilations = true) (rc2 : Int32) :
    (call.written config rc2).compilations = r.compilationTotal.toInt64 := by
  cases call <;> cases hread <;>
    simp only [SetCall.written, SetCall.fill, ubenchMeasureStart, ubenchMeasureSample,
      doSnapshot_compilations, ubenchMeasureStop_compilations, hu, ↓reduceIte]

/-- The raw value of the snapshot of a call is the value that the call has read. -/
theorem callGetRaw_of_read {event : EventInfo} {q : Quantity}
    (hserved : Served config event q.getter) (hread : call.read = some r) (rc2 : Int32) :
    event.callGetRaw (call.written config rc2) = q.reading r := by
  rw [EventInfo.callGetRaw, hserved.opGetRaw]
  cases q with
  | wallclock =>
    change getterRawWallClockTime _ = _
    rw [getterRawWallClockTime, timespecToNanos, written_timestamp hread hserved.uses,
      Quantity.reading]
    grind
  | threadTime =>
    change getterRawThreadTime _ = _
    rw [getterRawThreadTime, written_threadtime hread hserved.uses, Quantity.reading]
    grind
  | threadTimeRusage =>
    change getterRawThreadTimeRusage _ = _
    rw [getterRawThreadTimeRusage, written_resourceUsage hread hserved.uses, Quantity.reading]
    simp only [timevalToMicros]
    grind
  | compilations => exact written_compilations hread hserved.uses rc2
  | forcedContextSwitches =>
    change (call.written config rc2).resourceUsage.ruNivcsw = _
    rw [written_resourceUsage hread hserved.uses, Quantity.reading]

end Written

theorem read_of_ne_reset {call : SetCall} (h : call ≠ .reset) : ∃ r, call.read = some r := by
  cases call with
  | reset => exact absurd rfl h
  | _ => exact ⟨_, rfl⟩

theorem value_of_read {call : SetCall} {r : Reading} (h : call.read = some r) (q : Quantity) :
    call.value q = q.reading r := by
  rw [SetCall.value, h]

def valueOf (call : SetCall) (name : String) : Int64 :=
  match quantityOf name with
  | none => 0
  | some q => call.value q

/-- The events are those of the names, and each is served. -/
def NamedEvents (config : BenchmarkConfiguration) (names : List String) : Prop :=
  List.Forall₂ (fun name event => ∃ q, quantityOf name = some q ∧ Served config event q.getter)
    names config.usedEvents

theorem NamedEvents.values {config : BenchmarkConfiguration} {names : List String}
    (h : NamedEvents config names) {call : SetCall} (hcall : call ≠ .reset) :
    (config.usedEvents.map fun event => event.callGetRaw (call.written config 0)) =
      names.map (valueOf call) := by
  obtain ⟨r, hr⟩ := read_of_ne_reset hcall
  refine (forall₂_map_eq h ?_).symm
  rintro name - event - ⟨q, hq, hserved⟩
  rw [valueOf, hq, callGetRaw_of_read hserved hr]
  exact value_of_read hr q

/-- A column has the difference of what the two calls of a row have read. -/
theorem callGet_of_read {config : BenchmarkConfiguration} {event : EventInfo} {q : Quantity}
    (hserved : Served config event q.getter) {start stop : SetCall} (hstart : start ≠ .reset)
    (hstop : stop ≠ .reset) (rc2 rc2' : Int32) :
    event.callGet (start.written config rc2) (stop.written config rc2') =
      stop.value q - start.value q := by
  obtain ⟨r, hr⟩ := read_of_ne_reset hstart
  obtain ⟨r', hr'⟩ := read_of_ne_reset hstop
  rw [callGet_eq_sub hserved (getter_ne_papi q), callGetRaw_of_read hserved hr,
    callGetRaw_of_read hserved hr', value_of_read hr, value_of_read hr']

theorem NamedEvents.columns {config : BenchmarkConfiguration} {names : List String}
    (h : NamedEvents config names) {start stop : SetCall} (hstart : start ≠ .reset)
    (hstop : stop ≠ .reset) :
    (config.usedEvents.map fun event =>
        event.callGet (start.written config 0) (stop.written config 0)) =
      names.map (differenceOf (start, stop)) := by
  refine (forall₂_map_eq h ?_).symm
  rintro name - event - ⟨q, hq, hserved⟩
  rw [differenceOf, hq]
  exact (callGet_of_read hserved hstart hstop 0 0).symm

theorem rowsOf_map {β : Type*} (events : List EventInfo) (f : β → EventsSnapshot) (l : List β) :
    rowsOf events (l.map f) =
      (matched (fun b => hasType snapshotTypeStart (f b)) (fun b => hasType snapshotTypeEnd (f b))
        none l).map fun p => events.map fun event => event.callGet (f p.1) (f p.2) := by
  have hscan := map_pairs_getD (hasType snapshotTypeStart) (hasType snapshotTypeEnd)
    EventsSnapshot.calloc [] (l.map f) none nofun
  have hmatched := matched_map (hasType snapshotTypeStart) (hasType snapshotTypeEnd) f none l
  have hrow : rowOf events (l.map f) =
      (fun p : EventsSnapshot × EventsSnapshot => events.map fun event => event.callGet p.1 p.2) ∘
      fun p => ((l.map f).getD p.1 EventsSnapshot.calloc,
        (l.map f).getD p.2 EventsSnapshot.calloc) := rfl
  rw [rowsOf, pairsOf, hrow, ← List.map_map]
  refine (congrArg _ (hscan.trans hmatched)).trans ?_
  rw [List.map_map]
  rfl

theorem hasType_written (config : BenchmarkConfiguration) (type : Int32) (call : SetCall)
    (rc2 : Int32) : hasType type (call.written config rc2) = (call.kind.type == type) := by
  by_cases hreset : call = .reset
  · rw [hreset]
    rfl
  · rw [hasType, written_type config hreset, type_of_kind]

def pairedLabels {L : Type} (shown : List (L × SetCall)) : List ((L × SetCall) × (L × SetCall)) :=
  matched (fun x => x.2.kind.opens) (fun x => x.2.kind.closes) none shown

def BenchmarkResults.column (results : BenchmarkResults) (j : ℕ) : List Int64 :=
  results.data.map fun row => row.getD j 0

/-- What is shown of a quantity after some calls on an event set with this room: which of them
the log holds in the end, and the differences between those of them that make a row. -/
structure ColumnOfCalls {L : Type} (q : Quantity) (room : ℕ) (calls held : List (L × SetCall))
    (column : List Int64) : Prop where
  log : RewindLog.run room [] (calls.map fun x => x.2.act x) = some held
  differences : column = (pairedLabels held).map fun p => p.2.2.value q - p.1.2.value q

section Runs

variable {hasPapi : Bool} {args : CreateArgs} {o : SetupOutcomes} {size : ℕ}
  {config : BenchmarkConfiguration}

theorem entries_act {L : Type} (calls : List (L × SetCall)) :
    (calls.map fun x => x.2.act x).filterMap Act.entry =
      calls.filter fun x => x.2 ≠ .reset := by
  induction calls with
  | nil => rfl
  | cons x calls ih =>
    obtain ⟨label, call⟩ := x
    have hkept : ∀ call : SetCall, call ≠ .reset → (call.act (label, call)).entry =
        some (label, call) := by
      intro call hcall
      cases call with
      | reset => exact absurd rfl hcall
      | _ => rfl
    by_cases hreset : call = .reset
    · rw [hreset, List.map_cons, List.filterMap_cons_none rfl, List.filter_cons_of_neg (by simp)]
      exact ih
    · rw [List.map_cons, List.filterMap_cons_some (hkept call hreset),
        List.filter_cons_of_pos (by simpa using hreset), ih]

/-- The log holds calls in the order in which they were made, and no `reset`. -/
theorem held_sublist {L : Type} {room : ℕ} {calls held : List (L × SetCall)}
    (h : RewindLog.run room [] (calls.map fun x => x.2.act x) = some held) :
    held.Sublist (calls.filter fun x => x.2 ≠ .reset) := by
  have hsublist := run_sublist h
  rwa [entries_act, List.nil_append] at hsublist

theorem held_reads {L : Type} {room : ℕ} {calls held : List (L × SetCall)}
    (h : RewindLog.run room [] (calls.map fun x => x.2.act x) = some held) :
    ∀ x ∈ held, x.2 ≠ .reset := by
  intro x hx
  exact of_decide_eq_true (List.mem_filter.mp ((held_sublist h).subset hx)).2

theorem Created.namedEvents (h : Created hasPapi args o size config)
    (hsup : ∀ name ∈ args.jeventNames, quantityOf name ≠ none) :
    NamedEvents config args.jeventNames := by
  have hlen : args.jeventNames.length = config.usedEvents.length := by
    rw [← h.stored.length_eq, List.length_zipIdx]
  refine List.forall₂_iff_get.mpr ⟨hlen, fun i hi hi' => ?_⟩
  obtain ⟨q, hq⟩ := Option.ne_none_iff_exists'.mp (hsup _ (List.get_mem _ ⟨i, hi⟩))
  obtain ⟨event, hevent, hserved⟩ := h.servedAt (List.getElem?_eq_getElem hi) hq
  rw [List.getElem?_eq_getElem hi'] at hevent
  obtain rfl := Option.some.inj hevent
  exact ⟨q, hq, hserved⟩

/-- What a run over a fresh event set that does not fault shows under a supported name,
whatever the other names of the event set are. -/
theorem Fresh.columnOfCalls {L : Type} (h : Fresh args config) {calls : List (L × SetCall)}
    {config' : BenchmarkConfiguration}
    (hrun : (calls.map Prod.snd).foldlM SetCall.apply config = .ok config') {j : ℕ}
    {name : String} (hname : args.jeventNames[j]? = some name) {q : Quantity}
    (hq : quantityOf name = some q) :
    ∃ held results, getResultsOf config' = .ok results ∧
      ColumnOfCalls q args.size calls held (results.column j) := by
  rcases Shows.run h.inv (h.shows (L := L)) calls with
    ⟨config₁, writer, held, hperform, hlog, hinv, hs⟩ | ⟨f, hfail, -⟩
  · have hfold := foldlM_apply_of_perform hperform
    obtain rfl : config₁ = config' := Except.ok.inj (hfold.symm.trans hrun)
    have hframe := foldlM_apply_frame hrun
    have hserved : EventsServed config₁ := by
      rw [hframe]
      exact h.served.congr rfl rfl rfl
    obtain ⟨event, hevent, heserved⟩ := h.named j name q hname hq
    have hevent₁ : config₁.usedEvents[j]? = some event := by
      rw [hframe]
      exact hevent
    have heserved₁ : Served config₁ event q.getter := by
      rw [hframe]
      exact heserved.withLog _ _ _
    have hle : config₁.dataIndex ≤ config₁.data.length := by
      rw [hinv.length_data]
      exact hinv.index_le
    rw [h.size] at hlog
    refine ⟨held, _, getResultsOf_eq hle, hlog, ?_⟩
    have hreads := held_reads hlog
    -- The rows are those of the held calls with their slots, and no slot matters to the column.
    have hrows := rowsOf_congr hserved ((h.recorded.run hperform).agree_each hs)
    rw [rowsOf_map] at hrows
    simp only [hasType_written] at hrows
    have hpairs := matched_map (fun x : L × SetCall => x.2.kind.opens)
      (fun x => x.2.kind.closes) Prod.fst none held.zipIdx
    rw [List.zipIdx_map_fst] at hpairs
    rw [BenchmarkResults.column]
    dsimp only
    rw [hrows, pairedLabels]
    refine Eq.trans ?_ (congrArg (List.map _) hpairs.symm)
    rw [List.map_map, List.map_map]
    refine List.map_congr_left fun p hp => ?_
    obtain ⟨hstart, hstop, -⟩ := mem_matched hp
    have hmem : ∀ x ∈ held.zipIdx, x.1 ∈ held := fun x hx => List.fst_mem_of_mem_zipIdx hx
    rw [Function.comp_apply, Function.comp_apply, List.getD_eq_getElem?_getD, List.getElem?_map,
      hevent₁, Option.map_some, Option.getD_some]
    exact callGet_of_read heserved₁ (hreads _ (hmem _ (hstart.resolve_left nofun).1))
      (hreads _ (hmem _ hstop)) _ _
  · have hfst := foldlM_perform_fst calls config fun _ => none
    rw [hfail, hrun] at hfst
    cases hfst

end Runs

theorem toInt_sub_of_within {x y : Int64} {lo hi : ℤ} (hspan : hi - lo < 2 ^ 63)
    (hlo : lo ≤ x.toInt) (hxy : x.toInt ≤ y.toInt) (hhi : y.toInt ≤ hi) :
    (y - x).toInt = y.toInt - x.toInt := by
  rw [Int64.toInt_sub]
  apply Int.bmod_eq_of_le
  · omega
  · omega

/-- The calls that are held read in the order in which they were made. -/
theorem ColumnOfCalls.pairwise_value {L : Type} {q : Quantity} {room : ℕ}
    {calls held : List (L × SetCall)} {column : List Int64}
    (h : ColumnOfCalls q room calls held column)
    (hmono : ((calls.map Prod.snd).filterMap SetCall.read).Pairwise
      fun r r' => q.reading r ≤ q.reading r') :
    held.Pairwise fun x y => (x.2.value q).toInt ≤ (y.2.value q).toInt := by
  rw [List.pairwise_filterMap, List.pairwise_map] at hmono
  apply (hmono.sublist ((held_sublist h.log).trans List.filter_sublist)).imp_of_mem
  intro x y hx hy hxy
  obtain ⟨r, hr⟩ := read_of_ne_reset (held_reads h.log x hx)
  obtain ⟨r', hr'⟩ := read_of_ne_reset (held_reads h.log y hy)
  rw [value_of_read hr, value_of_read hr']
  exact Int64.le_iff_toInt_le.mp (hxy r hr r' hr')

/-- What a column shows of a quantity that never falls: the differences between the calls of
each row, none negative, and together no more than from `lo` to `hi`. -/
structure Durations {L : Type} (q : Quantity) (held : List (L × SetCall)) (column : List Int64)
    (lo hi : ℤ) : Prop where
  exact : column.map Int64.toInt =
    (pairedLabels held).map fun p => (p.2.2.value q).toInt - (p.1.2.value q).toInt
  nonneg : ∀ v ∈ column, 0 ≤ v
  sum : (column.map Int64.toInt).sum ≤ hi - lo

theorem ColumnOfCalls.durations {L : Type} {q : Quantity} {room : ℕ}
    {calls held : List (L × SetCall)} {column : List Int64}
    (h : ColumnOfCalls q room calls held column) {lo hi : ℤ}
    (hmono : held.Pairwise fun x y => (x.2.value q).toInt ≤ (y.2.value q).toInt)
    (hlo : ∀ x ∈ held, lo ≤ (x.2.value q).toInt) (hhi : ∀ x ∈ held, (x.2.value q).toInt ≤ hi)
    (hle : lo ≤ hi) (hspan : hi - lo < 2 ^ 63) : Durations q held column lo hi := by
  rw [h.differences]
  -- Each row is exact, since its two calls are not too far apart.
  have hexact : ∀ p ∈ pairedLabels held, (p.2.2.value q - p.1.2.value q).toInt =
      (p.2.2.value q).toInt - (p.1.2.value q).toInt ∧
      (p.1.2.value q).toInt ≤ (p.2.2.value q).toInt := by
    intro p hp
    obtain ⟨hstart, hstop, -⟩ := mem_matched hp
    have hmem : p.1 ∈ held := (hstart.resolve_left nofun).1
    have hmeasure := measure_le_of_matched (f := fun x => (x.2.value q).toInt) hmono hp
    exact ⟨toInt_sub_of_within hspan (hlo p.1 hmem) hmeasure (hhi p.2 hstop), hmeasure⟩
  have hmap : ((pairedLabels held).map fun p => p.2.2.value q - p.1.2.value q).map Int64.toInt =
      (pairedLabels held).map fun p => (p.2.2.value q).toInt - (p.1.2.value q).toInt := by
    rw [List.map_map]
    exact List.map_congr_left fun p hp => (hexact p hp).1
  refine ⟨hmap, fun v hv => ?_, ?_⟩
  · obtain ⟨p, hp, rfl⟩ := List.mem_map.mp hv
    obtain ⟨hdiff, hmeasure⟩ := hexact p hp
    rw [Int64.le_iff_toInt_le, hdiff]
    exact Int.sub_nonneg_of_le hmeasure
  · rw [hmap]
    exact sum_measure_le (o := none) hmono hlo hhi hle nofun

theorem getResults_of_valid {a : Agent} {id : ℤ} {config : BenchmarkConfiguration}
    {results : BenchmarkResults} (hc : a.validConfig id = some config)
    (h : getResultsOf config = .ok results) : getResults a id = .ok (.ok results) := by
  rw [getResults, hc]
  dsimp only
  rw [h]
  rfl

/-- In every run: on a clock that does not go back no row of an event set shows a negative
duration, and its rows together show no more than the time between the bounds of its readings. -/
theorem durations_within_elapsed {hasPapi : Bool} {calls : List Call} {a : Agent}
    {tr : List (Call × Response)} (hrun : run (Agent.step hasPapi) .initial calls = .ok (a, tr))
    {id : ℤ} {l : Lifetime} (hlife : histories tr id = some l) {j : ℕ} {name : String}
    (hname : l.args.jeventNames[j]? = some name) {q : Quantity} (hq : quantityOf name = some q)
    {lo hi : Int64}
    (hmono : (l.calls.filterMap SetCall.read).Pairwise fun r r' => q.reading r ≤ q.reading r')
    (hwithin : ∀ r ∈ l.calls.filterMap SetCall.read, lo ≤ q.reading r ∧ q.reading r ≤ hi)
    (hle : lo ≤ hi) (hspan : hi.toInt - lo.toInt < 2 ^ 63) :
    ∃ results, getResults a id = .ok (.ok results) ∧ (∀ v ∈ results.column j, 0 ≤ v) ∧
      ((results.column j).map Int64.toInt).sum ≤ hi.toInt - lo.toInt := by
  obtain ⟨config, hc, config₀, hfresh, hfold⟩ := (tracks_run hrun).made hlife
  have hsnd : (l.calls.map unlabelled).map Prod.snd = l.calls := by
    rw [List.map_map]
    exact List.map_id _
  rw [← hsnd] at hfold hmono hwithin
  obtain ⟨held, results, hresults, hcolumn⟩ := hfresh.columnOfCalls hfold hname hq
  have hbounds : ∀ x ∈ held, lo ≤ x.2.value q ∧ x.2.value q ≤ hi := by
    intro x hx
    obtain ⟨r, hr⟩ := read_of_ne_reset (held_reads hcolumn.log x hx)
    rw [value_of_read hr]
    apply hwithin r
    rw [List.mem_filterMap]
    have hmade := List.mem_of_mem_filter ((held_sublist hcolumn.log).subset hx)
    exact ⟨x.2, List.mem_map_of_mem hmade, hr⟩
  have hdurations := hcolumn.durations (hcolumn.pairwise_value hmono)
    (fun x hx => Int64.le_iff_toInt_le.mp (hbounds x hx).1)
    (fun x hx => Int64.le_iff_toInt_le.mp (hbounds x hx).2) (Int64.le_iff_toInt_le.mp hle) hspan
  exact ⟨results, getResults_of_valid hc hresults, hdurations.nonneg, hdurations.sum⟩

/-- Two measurements in an event set of one, the second over the first, from 1 s to 4 s.  The
last call serves the event set and throws. -/
theorem durations_within_elapsed_twice : ∃ a tr results,
    run (Agent.step true) .initial
      [.createEventSet ⟨1, ["SYS:wallclock-time", "PAPI:A"], []⟩ .success,
        .start [(0, .at 1 0)], .stop [(0, .at 2 500000000)], .start [(0, .at 3 0)],
        .stop [(0, .at 4 0), (7, .zero)]] = .ok (a, tr) ∧
    getResults a 0 = .ok (.ok results) ∧ (∀ v ∈ results.column 0, 0 ≤ v) ∧
    ((results.column 0).map Int64.toInt).sum ≤ 3000000000 := by
  obtain ⟨a, tr, hrun, hlife⟩ : ∃ a tr,
      run (Agent.step true) .initial
        [.createEventSet ⟨1, ["SYS:wallclock-time", "PAPI:A"], []⟩ .success,
          .start [(0, .at 1 0)], .stop [(0, .at 2 500000000)], .start [(0, .at 3 0)],
          .stop [(0, .at 4 0), (7, .zero)]] = .ok (a, tr) ∧
      histories tr 0 = some ⟨⟨1, ["SYS:wallclock-time", "PAPI:A"], []⟩,
        CreateOutcomes.success.toSetupOutcomes,
        [.start (.at 1 0), .stop (.at 2 500000000), .start (.at 3 0), .stop (.at 4 0)]⟩ :=
    ⟨_, _, rfl, rfl⟩
  have hwithin : ∀ r ∈ ([.start (.at 1 0), .stop (.at 2 500000000), .start (.at 3 0),
      .stop (.at 4 0)] : List SetCall).filterMap SetCall.read,
      (1000000000 : Int64) ≤ Quantity.wallclock.reading r ∧
        Quantity.wallclock.reading r ≤ (4000000000 : Int64) := by decide
  have hname : ["SYS:wallclock-time", "PAPI:A"][0]? = some "SYS:wallclock-time" := rfl
  obtain ⟨results, hresults, hcolumn⟩ := durations_within_elapsed hrun hlife hname
    (by decide) (by decide) hwithin (by decide) (by decide)
  exact ⟨a, tr, results, hrun, hresults, hcolumn⟩

end UbenchAgent
