import UbenchAgent.Measure
import UbenchAgent.Lib.Pairing
import Mathlib.Data.List.GetD
import UbenchAgent.Lib.Run

/-!
# What the results show of a log

`getResults` and `getRawResults` as functions of the visible snapshots.  The loops of
the source read inside the array whenever the index is, and then they compute one
pass over the visible snapshots.  Two logs whose snapshots agree on the fields that
the event set's getters read give the same results.
-/

namespace UbenchAgent

open Pairing

/-- The visible snapshots: those below `data_index`. -/
def BenchmarkConfiguration.log (config : BenchmarkConfiguration) : List EventsSnapshot :=
  config.data.take config.dataIndex

def hasType (type : Int32) (s : EventsSnapshot) : Bool := s.type == type

/-- The positions of the START and END snapshots that belong together. -/
def pairsOf (log : List EventsSnapshot) : List (ℕ × ℕ) :=
  pairs (hasType snapshotTypeStart) (hasType snapshotTypeEnd) none 0 log

def rowOf (events : List EventInfo) (log : List EventsSnapshot) (p : ℕ × ℕ) : List Int64 :=
  events.map fun event =>
    event.callGet (log.getD p.1 EventsSnapshot.calloc) (log.getD p.2 EventsSnapshot.calloc)

def rowsOf (events : List EventInfo) (log : List EventsSnapshot) : List (List Int64) :=
  (pairsOf log).map (rowOf events log)

def rawRowOf (events : List EventInfo) (s : EventsSnapshot) : List Int64 :=
  events.map (fun event => event.callGetRaw s) ++ [s.type.toInt64]

theorem start_not_end (s : EventsSnapshot) (h : hasType snapshotTypeStart s) :
    ¬ hasType snapshotTypeEnd s := by
  simp only [hasType, beq_iff_eq] at h ⊢
  rw [h]
  decide

theorem findLoop_eq {snapshots : List EventsSnapshot} {maxIndex : ℕ} {type : Int32}
    (hmax : maxIndex ≤ snapshots.length) (fuel i : ℕ) (hfuel : maxIndex - i ≤ fuel) :
    findLoop snapshots maxIndex type fuel i =
      .ok (indexFrom (hasType type) i ((snapshots.take maxIndex).drop i)) := by
  induction fuel generalizing i with
  | zero =>
    rw [List.drop_eq_nil_of_le (by simp; omega)]
    rfl
  | succ fuel ih =>
    rw [findLoop]
    split_ifs with hi
    · have hlt : i < (snapshots.take maxIndex).length := by simp; omega
      rw [List.drop_eq_getElem_cons hlt, indexFrom, List.getElem_take,
        List.getElem?_eq_getElem (by omega)]
      simp only [hasType, beq_iff_eq]
      split_ifs
      · rfl
      · exact ih (i + 1) (by omega)
    · rw [List.drop_eq_nil_of_le (by simp; omega)]
      rfl

theorem findFirstMatchingSnapshotType_eq {snapshots : List EventsSnapshot} {maxIndex : ℕ}
    (hmax : maxIndex ≤ snapshots.length) (type : Int32) (i : ℕ) :
    findFirstMatchingSnapshotType snapshots (some i) maxIndex type =
      .ok (indexFrom (hasType type) i ((snapshots.take maxIndex).drop i)) :=
  findLoop_eq hmax _ i (Nat.le_refl _)

/-- The `while` loop of `getResults` is one pass over the visible snapshots, and its
bound on the iterations is never reached. -/
theorem pairLoop_eq {snapshots : List EventsSnapshot} {iMax : ℕ}
    (hmax : iMax ≤ snapshots.length) (fuel i : ℕ) (hfuel : iMax - i ≤ fuel) :
    pairLoop snapshots iMax fuel i =
      .ok (pairs (hasType snapshotTypeStart) (hasType snapshotTypeEnd) none i
        ((snapshots.take iMax).drop i)) := by
  induction fuel generalizing i with
  | zero =>
    rw [List.drop_eq_nil_of_le (by simp; omega)]
    rfl
  | succ fuel ih =>
    rw [pairLoop]
    split_ifs with hi
    · rw [pairs_eq_search start_not_end, findFirstMatchingSnapshotType_eq hmax, except_ok_bind]
      cases hs : indexFrom (hasType snapshotTypeStart) i ((snapshots.take iMax).drop i) with
      | none => rfl
      | some s =>
        rw [findFirstMatchingSnapshotType_eq hmax, except_ok_bind]
        dsimp only
        cases he : indexFrom (hasType snapshotTypeEnd) s ((snapshots.take iMax).drop s) with
        | none => rfl
        | some e =>
          have := (indexFrom_bounds hs).1
          have := (indexFrom_bounds he).1
          simp only [ih (e + 1) (by omega), except_ok_bind]
    · rw [List.drop_eq_nil_of_le (by simp; omega)]
      rfl

section Pure

variable {config : BenchmarkConfiguration}

theorem resultPairs_eq (h : config.dataIndex ≤ config.data.length) :
    resultPairs config = .ok (pairsOf config.log) := by
  rw [resultPairs, pairLoop_eq h _ 0 (by omega), List.drop_zero]
  rfl

theorem length_log (h : config.dataIndex ≤ config.data.length) :
    config.log.length = config.dataIndex := by
  simp [BenchmarkConfiguration.log, h]

theorem readSnapshot_eq {i : ℕ} (h : i < config.log.length) :
    readSnapshot config i = .ok (config.log.getD i EventsSnapshot.calloc) := by
  have hi : i < config.data.length := by
    rw [BenchmarkConfiguration.log, List.length_take] at h
    omega
  rw [readSnapshot, List.getElem?_eq_getElem hi, List.getD_eq_getElem _ _ h]
  simp [BenchmarkConfiguration.log]

theorem mem_pairsOf {log : List EventsSnapshot} {p : ℕ × ℕ} (h : p ∈ pairsOf log) :
    p.1 < p.2 ∧ p.2 < log.length := by
  obtain ⟨hs, -, b, hb, -⟩ := mem_pairs h
  have := (List.getElem?_eq_some_iff.mp hb).1
  rcases hs with hs | hs
  · cases hs
  · omega

theorem getResultsOf_eq (h : config.dataIndex ≤ config.data.length) :
    getResultsOf config =
      .ok ⟨config.usedEvents.map (·.name), rowsOf config.usedEvents config.log⟩ := by
  rw [getResultsOf, resultPairs_eq h, except_ok_bind,
    mapM_eq_ok (g := rowOf config.usedEvents config.log), except_ok_bind]
  · rfl
  · intro p hp
    obtain ⟨h₁, h₂⟩ := mem_pairsOf hp
    rw [resultRow, readSnapshot_eq (by omega), except_ok_bind, readSnapshot_eq h₂,
      except_ok_bind]
    rfl

theorem getRawResultsOf_eq (h : config.dataIndex ≤ config.data.length) :
    getRawResultsOf config = .ok ⟨config.usedEvents.map (·.name) ++ [some "TYPE"],
      config.log.map (rawRowOf config.usedEvents)⟩ := by
  have hmap : (List.range config.dataIndex).map
      (fun i => rawRowOf config.usedEvents (config.log.getD i EventsSnapshot.calloc)) =
      config.log.map (rawRowOf config.usedEvents) := by
    refine List.ext_getElem (by simp [length_log h]) ?_
    intro i h₁ h₂
    have hi : i < config.log.length := by simpa using h₂
    simp only [List.getElem_map, List.getElem_range]
    rw [List.getD_eq_getElem _ _ hi]
  rw [getRawResultsOf, mapM_eq_ok
    (g := fun i => rawRowOf config.usedEvents (config.log.getD i EventsSnapshot.calloc)),
    except_ok_bind, hmap]
  intro i hi
  rw [rawRow, readSnapshot_eq (by rw [length_log h]; simpa using hi), except_ok_bind]
  rfl

end Pure

/-- The backend that a getter's fields come from. -/
def EventGetterFunc.backend : EventGetterFunc → BitVec 32
  | .wallClockTime => backendSysWallclock
  | .threadTime => backendSysThreadtime
  | .jvmCompilations => backendJvmCompilations
  | .contextSwitchForced => backendResourceUsage
  | .threadTimeRusage => backendResourceUsage
  | .papi => backendPapi

def EventGetterFunc.raw : EventGetterFunc → EventGetterRawFunc
  | .wallClockTime => .wallClockTime
  | .threadTime => .threadTime
  | .jvmCompilations => .jvmCompilations
  | .contextSwitchForced => .contextSwitchForced
  | .threadTimeRusage => .threadTimeRusage
  | .papi => .papi

/-- An event that the event set serves: its two getters belong together, its backend is
in the mask, and a PAPI event has a registered index. -/
structure Served (config : BenchmarkConfiguration) (event : EventInfo)
    (getter : EventGetterFunc) : Prop where
  opGet : event.opGet = some getter
  opGetRaw : event.opGetRaw = some getter.raw
  backend : event.backend = getter.backend
  uses : config.uses getter.backend
  papiIndex : getter = .papi → event.papiIndex.val < config.usedPapiEventsCount

def EventsServed (config : BenchmarkConfiguration) : Prop :=
  ∀ event ∈ config.usedEvents, ∃ getter, Served config event getter

/-- Two snapshots agree on what the getters of the event set read. -/
structure AgreeOn (config : BenchmarkConfiguration) (s s' : EventsSnapshot) : Prop where
  type : s.type = s'.type
  timestamp : config.uses backendSysWallclock → s.timestamp = s'.timestamp
  threadtime : config.uses backendSysThreadtime → s.threadtime = s'.threadtime
  resourceUsage : config.uses backendResourceUsage → s.resourceUsage = s'.resourceUsage
  compilations : config.uses backendJvmCompilations → s.compilations = s'.compilations
  papiRc1 : config.uses backendPapi → s.papiRc1 = s'.papiRc1
  papiRc2 : config.uses backendPapi → s.papiRc1 = papiOk → s.papiRc2 = s'.papiRc2
  papiEvents : config.uses backendPapi → s.papiRc1 = papiOk →
    ∀ i : Fin ubenchMaxPapiEvents, i.val < config.usedPapiEventsCount →
      s.papiEvents i = s'.papiEvents i

theorem AgreeOn.refl (config : BenchmarkConfiguration) (s : EventsSnapshot) :
    AgreeOn config s s := by
  constructor <;> intros <;> rfl

section Agree

variable {config : BenchmarkConfiguration} {event : EventInfo} {getter : EventGetterFunc}

theorem callGetRaw_congr (hserved : Served config event getter) {s s' : EventsSnapshot}
    (h : AgreeOn config s s') : event.callGetRaw s = event.callGetRaw s' := by
  have hu := hserved.uses
  rw [EventInfo.callGetRaw, EventInfo.callGetRaw, hserved.opGetRaw]
  cases getter with
  | wallClockTime => simp only [EventGetterFunc.raw, getterRawWallClockTime, h.timestamp hu]
  | threadTime => simp only [EventGetterFunc.raw, getterRawThreadTime, h.threadtime hu]
  | jvmCompilations =>
    simp only [EventGetterFunc.raw, getterRawJvmCompilations, h.compilations hu]
  | contextSwitchForced =>
    simp only [EventGetterFunc.raw, getterRawContextSwitchForced, h.resourceUsage hu]
  | threadTimeRusage =>
    simp only [EventGetterFunc.raw, getterRawThreadTimeRusage, h.resourceUsage hu]
  | papi =>
    simp only [EventGetterFunc.raw, getterRawPapi, ← h.papiRc1 hu]
    by_cases h₁ : s.papiRc1 = papiOk
    · rw [if_neg (not_not.mpr h₁), if_neg (not_not.mpr h₁), ← h.papiRc2 hu h₁,
        h.papiEvents hu h₁ _ (hserved.papiIndex rfl)]
    · rw [if_pos h₁, if_pos h₁]

theorem callGet_congr (hserved : Served config event getter) {s s' t t' : EventsSnapshot}
    (h : AgreeOn config s s') (ht : AgreeOn config t t') :
    event.callGet s t = event.callGet s' t' := by
  have hu := hserved.uses
  rw [EventInfo.callGet, EventInfo.callGet, hserved.opGet]
  cases getter with
  | wallClockTime => simp only [getterWallClockTime, h.timestamp hu, ht.timestamp hu]
  | threadTime => simp only [getterThreadTime, h.threadtime hu, ht.threadtime hu]
  | jvmCompilations => simp only [getterJvmCompilations, h.compilations hu, ht.compilations hu]
  | contextSwitchForced =>
    simp only [getterContextSwitchForced, h.resourceUsage hu, ht.resourceUsage hu]
  | threadTimeRusage =>
    simp only [getterThreadTimeRusage, h.resourceUsage hu, ht.resourceUsage hu]
  | papi =>
    simp only [getterPapi, ← h.papiRc1 hu, ← ht.papiRc1 hu]
    by_cases h₁ : s.papiRc1 = papiOk
    · rw [if_neg (not_not.mpr h₁), if_neg (not_not.mpr h₁), ← h.papiRc2 hu h₁]
      split_ifs with h₂ h₃
      · rfl
      · rfl
      · have hi := hserved.papiIndex rfl
        rw [h.papiEvents hu h₁ _ hi, ht.papiEvents hu (not_ne_iff.mp h₃) _ hi]
    · rw [if_pos h₁, if_pos h₁]

theorem rawRowOf_congr (hev : EventsServed config) {s s' : EventsSnapshot}
    (h : AgreeOn config s s') :
    rawRowOf config.usedEvents s = rawRowOf config.usedEvents s' := by
  have hvals : config.usedEvents.map (fun event => event.callGetRaw s) =
      config.usedEvents.map fun event => event.callGetRaw s' := by
    refine List.map_congr_left fun event hmem => ?_
    obtain ⟨getter, hserved⟩ := hev event hmem
    exact callGetRaw_congr hserved h
  rw [rawRowOf, rawRowOf, hvals, h.type]

variable {log log' : List EventsSnapshot}

theorem pairsOf_types (log : List EventsSnapshot) :
    pairsOf log = pairs (fun t => t == snapshotTypeStart) (fun t => t == snapshotTypeEnd) none 0
      (log.map (·.type)) := by
  rw [pairs_map]
  rfl

theorem pairsOf_congr (h : log.map (·.type) = log'.map (·.type)) : pairsOf log = pairsOf log' := by
  rw [pairsOf_types, pairsOf_types, h]

theorem rowOf_congr (hev : EventsServed config) {p : ℕ × ℕ}
    (h₁ : AgreeOn config (log.getD p.1 EventsSnapshot.calloc)
      (log'.getD p.1 EventsSnapshot.calloc))
    (h₂ : AgreeOn config (log.getD p.2 EventsSnapshot.calloc)
      (log'.getD p.2 EventsSnapshot.calloc)) :
    rowOf config.usedEvents log p = rowOf config.usedEvents log' p := by
  refine List.map_congr_left fun event hmem => ?_
  obtain ⟨getter, hserved⟩ := hev event hmem
  exact callGet_congr hserved h₁ h₂

theorem agree_getD (h : List.Forall₂ (AgreeOn config) log log') (i : ℕ) :
    AgreeOn config (log.getD i EventsSnapshot.calloc) (log'.getD i EventsSnapshot.calloc) := by
  by_cases hi : i < log.length
  · have hi' : i < log'.length := h.length_eq ▸ hi
    rw [List.getD_eq_getElem _ _ hi, List.getD_eq_getElem _ _ hi']
    exact List.Forall₂.get h hi hi'
  · rw [List.getD_eq_default _ _ (by omega), List.getD_eq_default _ _ (by rw [← h.length_eq]; omega)]
    exact AgreeOn.refl _ _

/-- Agreeing logs give the same rows. -/
theorem rowsOf_congr (hev : EventsServed config) (h : List.Forall₂ (AgreeOn config) log log') :
    rowsOf config.usedEvents log = rowsOf config.usedEvents log' := by
  have htypes : log.map (·.type) = log'.map (·.type) := by
    induction h with
    | nil => rfl
    | cons ha _ ih => simp [ha.type, ih]
  rw [rowsOf, rowsOf, pairsOf_congr htypes]
  exact List.map_congr_left fun p _ => rowOf_congr hev (agree_getD h p.1) (agree_getD h p.2)

theorem rawRows_congr (hev : EventsServed config) (h : List.Forall₂ (AgreeOn config) log log') :
    log.map (rawRowOf config.usedEvents) = log'.map (rawRowOf config.usedEvents) := by
  induction h with
  | nil => rfl
  | cons ha _ ih => rw [List.map_cons, List.map_cons, rawRowOf_congr hev ha, ih]

end Agree

end UbenchAgent
