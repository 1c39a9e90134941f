import UbenchAgent.Table

/-!
# The two views of a log

`getResults` pairs the snapshots by their types and reports differences, `getRawResults`
reports every snapshot.  The pairs are those of one pass over the types, and for events
other than PAPI's each difference is that of the two raw values.  Both hold for every log,
whichever calls have left it.
-/

namespace UbenchAgent

open Pairing

/-- The pairs of one pass over the types of the snapshots: it remembers the first START
since the last pair and completes a pair at the first END after it. -/
def onePass (types : List Int32) : List (ℕ × ℕ) :=
  pairs (fun t => t == snapshotTypeStart) (fun t => t == snapshotTypeEnd) none 0 types

/-- The pairs follow one another; each is a START and the first END after it; and an END
with a START before it is skipped only if a pair ends between the two. -/
structure SelectsPairs (types : List Int32) (ps : List (ℕ × ℕ)) : Prop where
  increasing : ps.Pairwise fun p q => p.2 < q.1
  startEnd : ∀ p ∈ ps, p.1 < p.2 ∧ types[p.1]? = some snapshotTypeStart ∧
    types[p.2]? = some snapshotTypeEnd
  between : ∀ p ∈ ps, ∀ k, p.1 < k → k < p.2 → types[k]? ≠ some snapshotTypeEnd
  complete : ∀ s e, s < e → types[s]? = some snapshotTypeStart →
    types[e]? = some snapshotTypeEnd → (∃ p ∈ ps, p.2 = e) ∨ ∃ p ∈ ps, s < p.2 ∧ p.2 < e

theorem onePass_selectsPairs (types : List Int32) : SelectsPairs types (onePass types) := by
  have hdisj : ∀ t : Int32, (t == snapshotTypeStart) = true → (t == snapshotTypeEnd) = false := by
    intro t ht
    rw [eq_of_beq ht]
    decide
  have hscan := scanned hdisj types
  have hend : ∀ {k : ℕ}, types[k]? = some snapshotTypeEnd →
      ∃ b, types[k]? = some b ∧ (b == snapshotTypeEnd) = true := fun hk => ⟨_, hk, by decide⟩
  refine ⟨hscan.increasing, fun p hp => ?_, fun p hp k hs he hk => ?_, fun s e hse hs he => ?_⟩
  · obtain ⟨⟨a, ha, hsa⟩, b, hb, heb⟩ := hscan.ends p hp
    rw [eq_of_beq hsa] at ha
    rw [eq_of_beq heb] at hb
    exact ⟨(hscan.inside p hp).1, ha, hb⟩
  · obtain ⟨b, hb, heb⟩ := hend hk
    rw [hscan.between p hp k b hs he hb] at heb
    cases heb
  · exact hscan.complete s e _ _ hse hs (by decide) he (by decide)

/-- A configuration whose visible snapshots are `log`, in front of stale ones. -/
def BenchmarkConfiguration.withSnapshots (config : BenchmarkConfiguration)
    (log stale : List EventsSnapshot) : BenchmarkConfiguration :=
  { config with data := log ++ stale, dataIndex := log.length }

theorem withSnapshots_log (config : BenchmarkConfiguration) (log stale : List EventsSnapshot) :
    (config.withSnapshots log stale).log = log := by
  simp [BenchmarkConfiguration.withSnapshots, BenchmarkConfiguration.log]

theorem withSnapshots_index_le (config : BenchmarkConfiguration)
    (log stale : List EventsSnapshot) :
    (config.withSnapshots log stale).dataIndex ≤ (config.withSnapshots log stale).data.length := by
  simp [BenchmarkConfiguration.withSnapshots]

theorem pairsOf_eq_onePass (log : List EventsSnapshot) :
    pairsOf log = onePass (log.map (·.type)) :=
  pairsOf_types log

/-- On every log the `while` loop of `getResults` ends after at most as many turns as there
are snapshots, and its pairs, one row each, are those of the one pass over the types. -/
theorem getResults_onePass (config : BenchmarkConfiguration) (log stale : List EventsSnapshot) :
    (∀ fuel, log.length ≤ fuel → pairLoop (log ++ stale) log.length fuel 0 =
      .ok (onePass (log.map (·.type)))) ∧
    resultPairs (config.withSnapshots log stale) = .ok (onePass (log.map (·.type))) ∧
    getResultsOf (config.withSnapshots log stale) = .ok ⟨config.usedEvents.map (·.name),
      (onePass (log.map (·.type))).map (rowOf config.usedEvents log)⟩ ∧
    SelectsPairs (log.map (·.type)) (onePass (log.map (·.type))) := by
  have hle := withSnapshots_index_le config log stale
  rw [← pairsOf_eq_onePass]
  refine ⟨fun fuel hfuel => ?_, ?_, ?_, ?_⟩
  · rw [pairLoop_eq (by simp) fuel 0 (by omega), List.take_left, List.drop_zero]
    rfl
  · rw [resultPairs_eq hle, withSnapshots_log]
  · rw [getResultsOf_eq hle, withSnapshots_log]
    rfl
  · rw [pairsOf_eq_onePass]
    exact onePass_selectsPairs _

/-- A difference is the difference of the raw values, whatever 64-bit numbers are read. -/
theorem callGet_eq_sub {config : BenchmarkConfiguration} {event : EventInfo}
    {getter : EventGetterFunc} (h : Served config event getter) (hpapi : getter ≠ .papi)
    (s e : EventsSnapshot) : event.callGet s e = event.callGetRaw e - event.callGetRaw s := by
  rw [EventInfo.callGet, EventInfo.callGetRaw, EventInfo.callGetRaw, h.opGet, h.opGetRaw]
  cases getter with
  | wallClockTime =>
    simp only [EventGetterFunc.raw, getterWallClockTime, getterRawWallClockTime, timespecDiffNs,
      timespecToNanos]
    grind
  | threadTime =>
    simp only [EventGetterFunc.raw, getterThreadTime, getterRawThreadTime, timespecDiffNs]
    grind
  | jvmCompilations => rfl
  | contextSwitchForced => rfl
  | threadTimeRusage =>
    simp only [EventGetterFunc.raw, getterThreadTimeRusage, getterRawThreadTimeRusage,
      timevalDiffUs, timevalToMicros]
    grind
  | papi => exact absurd rfl hpapi

def typeColumn (row : List Int64) : Int64 := row.getLastD 0

def typePairs (raw : List (List Int64)) : List (ℕ × ℕ) :=
  pairs (fun row => typeColumn row == snapshotTypeStart.toInt64)
    (fun row => typeColumn row == snapshotTypeEnd.toInt64) none 0 raw

theorem typeColumn_rawRowOf (events : List EventInfo) (s : EventsSnapshot) :
    typeColumn (rawRowOf events s) = s.type.toInt64 := by
  simp [typeColumn, rawRowOf]

theorem toInt64_beq (a b : Int32) : (a.toInt64 == b.toInt64) = (a == b) := by
  rw [Bool.eq_iff_iff, beq_iff_eq, beq_iff_eq]
  constructor
  · intro h
    have hcast := congrArg Int64.toInt32 h
    rwa [Int32.toInt32_toInt64, Int32.toInt32_toInt64] at hcast
  · rintro rfl
    rfl

theorem typePairs_rawRows (events : List EventInfo) (log : List EventsSnapshot) :
    typePairs (log.map (rawRowOf events)) = pairsOf log := by
  rw [typePairs, pairs_map]
  simp only [typeColumn_rawRowOf, toInt64_beq]
  rfl

/-- The first `n` columns of one raw row minus those of another. -/
def columnDifferences (n : ℕ) (start stop : List Int64) : List Int64 :=
  List.zipWith (fun x y => y - x) (start.take n) (stop.take n)

theorem take_rawRowOf (events : List EventInfo) (s : EventsSnapshot) :
    (rawRowOf events s).take events.length = events.map fun event => event.callGetRaw s := by
  rw [rawRowOf, List.take_append_of_le_length (by simp), List.take_of_length_le (by simp)]

/-- The pairs that the TYPE column of `getRawResults` shows, and the rows that they ask for. -/
structure ViewsAgree (events : List EventInfo) (results raw : BenchmarkResults) : Prop where
  eventNames : raw.eventNames = results.eventNames ++ [some "TYPE"]
  width : ∀ row ∈ results.data, row.length = events.length
  rows : results.data.length = (typePairs raw.data).length
  differences : ∀ (k : ℕ) (p : ℕ × ℕ), (typePairs raw.data)[k]? = some p →
    ∃ start stop, raw.data[p.1]? = some start ∧ raw.data[p.2]? = some stop ∧
      results.data[k]? = some (columnDifferences events.length start stop)

theorem viewsAgree {config : BenchmarkConfiguration} (hserved : EventsServed config)
    (hpapi : config.uses backendPapi = false) (log : List EventsSnapshot)
    (names : List (Option String)) :
    ViewsAgree config.usedEvents ⟨names, rowsOf config.usedEvents log⟩
      ⟨names ++ [some "TYPE"], log.map (rawRowOf config.usedEvents)⟩ where
  eventNames := rfl
  width row hrow := by
    obtain ⟨p, -, rfl⟩ := List.mem_map.mp hrow
    exact List.length_map _
  rows := by
    rw [typePairs_rawRows, rowsOf, List.length_map]
  differences k p hk := by
    dsimp only at hk ⊢
    rw [typePairs_rawRows] at hk
    obtain ⟨hlt, hlen⟩ := mem_pairsOf (List.mem_of_getElem? hk)
    have hstart : log[p.1]? = some (log.getD p.1 EventsSnapshot.calloc) := by
      rw [List.getD_eq_getElem _ _ (by omega), List.getElem?_eq_getElem (by omega)]
    have hstop : log[p.2]? = some (log.getD p.2 EventsSnapshot.calloc) := by
      rw [List.getD_eq_getElem _ _ hlen, List.getElem?_eq_getElem hlen]
    refine ⟨_, _, by rw [List.getElem?_map, hstart]; rfl, by rw [List.getElem?_map, hstop]; rfl, ?_⟩
    rw [rowsOf, List.getElem?_map, hk, Option.map_some, columnDifferences, take_rawRowOf,
      take_rawRowOf, List.zipWith_map, List.zipWith_self, rowOf]
    -- Each column of the row is a difference of raw values.
    refine congrArg some (List.map_congr_left fun event hmem => ?_)
    obtain ⟨getter, hevent⟩ := hserved event hmem
    refine callGet_eq_sub hevent ?_ _ _
    rintro rfl
    have hu := hevent.uses
    rw [show EventGetterFunc.papi.backend = backendPapi from rfl, hpapi] at hu
    cases hu

/-- For every event set without PAPI events and every log, `getResults` has one row for each
pair in the TYPE column of `getRawResults`, with the differences of the raw values. -/
theorem getResults_eq_rawDifferences {hasPapi : Bool} {a a' : Agent} {args : CreateArgs}
    {o : CreateOutcomes} {id : ℤ} {config : BenchmarkConfiguration}
    (hcreate : createEventSet hasPapi a args o = (a', .ok id))
    (hconfig : a'.validConfig id = some config)
    (hpapi : ∀ name ∈ args.jeventNames, isPapiName hasPapi o.papi name = false)
    (log stale : List EventsSnapshot) :
    ∃ results raw, getResultsOf (config.withSnapshots log stale) = .ok results ∧
      getRawResultsOf (config.withSnapshots log stale) = .ok raw ∧
      ViewsAgree config.usedEvents results raw := by
  obtain ⟨-, -, config₁, hc, hcreated, -⟩ := createEventSet_created hcreate
  obtain rfl : config = config₁ := Option.some.inj (hconfig.symm.trans hc)
  have hno : config.uses backendPapi = false := by
    rw [← Bool.not_eq_true, hcreated.loop.uses]
    rintro ⟨name, hmem, hp⟩
    rw [hpapi name hmem] at hp
    cases hp
  have hle := withSnapshots_index_le config log stale
  refine ⟨_, _, getResultsOf_eq hle, getRawResultsOf_eq hle, ?_⟩
  rw [withSnapshots_log]
  exact viewsAgree hcreated.loop.served hno log _

/-- A START at 1.9 s and an END at 2.1 s of the wall clock, behind an END without a START. -/
theorem getResults_eq_rawDifferences_backwards :
    ∃ config results raw, (createEventSet false .initial (.wallclock 2) .success).1.validConfig 0 =
        some config ∧
      getResultsOf (config.withSnapshots [{ EventsSnapshot.calloc with type := snapshotTypeEnd },
        { EventsSnapshot.calloc with timestamp := ⟨1, 900000000⟩, type := snapshotTypeStart },
        { EventsSnapshot.calloc with timestamp := ⟨2, 100000000⟩, type := snapshotTypeEnd }]
        []) = .ok results ∧
      getRawResultsOf (config.withSnapshots
        [{ EventsSnapshot.calloc with type := snapshotTypeEnd },
        { EventsSnapshot.calloc with timestamp := ⟨1, 900000000⟩, type := snapshotTypeStart },
        { EventsSnapshot.calloc with timestamp := ⟨2, 100000000⟩, type := snapshotTypeEnd }]
        []) = .ok raw ∧
      ViewsAgree config.usedEvents results raw := by
  have hcreate := createEventSet_eq (accepted_wallclock false .initial 2 (by decide))
  obtain ⟨-, -, config, hc, -⟩ := createEventSet_created hcreate
  obtain ⟨results, raw, hresults, hraw, hagree⟩ := getResults_eq_rawDifferences hcreate hc
    (by decide) [{ EventsSnapshot.calloc with type := snapshotTypeEnd },
      { EventsSnapshot.calloc with timestamp := ⟨1, 900000000⟩, type := snapshotTypeStart },
      { EventsSnapshot.calloc with timestamp := ⟨2, 100000000⟩, type := snapshotTypeEnd }] []
  exact ⟨config, results, raw, hc, hresults, hraw, hagree⟩

end UbenchAgent
