import UbenchAgent.Events
import UbenchAgent.Lib.Ledger
import Mathlib.Algebra.Group.Nat.Defs

/-!
# One event set

`benchmark_configuration_t`, the three functions of `measure.c` that fill a
snapshot, and what `start`, `stop`, `sample`, `reset`, `getResults` and
`getRawResults` do to the configuration of one event set once its id is known
to be valid.

An access outside the array of snapshots is undefined behaviour in C.  It is a
`Fault` here, and a run that reaches one has no further states.
-/

namespace UbenchAgent

/-- An access that C leaves undefined: of an element of `all_eventsets`, or of a
snapshot, that does not exist. -/
inductive Fault
  | eventsetIndex (i : ℤ)
  | snapshotIndex (i : ℕ)
  deriving DecidableEq, Repr

/-- What PAPI remembers about one of its event sets. -/
structure PapiState where
  running : Bool
  attached : Option Int64
  deriving DecidableEq, Repr

/-- The heap blocks and the PAPI event set that a configuration points to, by their
numbers in the ledger.  `names` are the non-NULL names of `used_events`, and
`papiEventset` is `none` for `PAPI_NULL`. -/
structure Owned where
  data : Option ℕ
  usedEvents : Option ℕ
  names : List ℕ
  papiEventset : Option ℕ
  deriving DecidableEq, Repr

/-- `benchmark_configuration_t`.  The arrays `used_events` (its first
`used_events_count` elements) and `data` are lists. -/
structure BenchmarkConfiguration where
  usedBackends : BitVec 32
  usedEvents : List EventInfo
  usedPapiEvents : Fin ubenchMaxPapiEvents → Int32
  usedPapiEventsCount : ℕ
  papiComponent : Int32
  papiState : PapiState
  data : List EventsSnapshot
  dataSize : ℕ
  dataIndex : ℕ
  owned : Owned
  deriving DecidableEq

/-- The test `(config->used_backends & backend) > 0`. -/
def BenchmarkConfiguration.uses (config : BenchmarkConfiguration) (backend : BitVec 32) : Bool :=
  config.usedBackends &&& backend > 0

def doSnapshot (config : BenchmarkConfiguration) (r : Reading) (snapshot : EventsSnapshot) :
    EventsSnapshot :=
  let snapshot := if config.uses backendResourceUsage then
    { snapshot with resourceUsage := r.resourceUsage } else snapshot
  let snapshot := if config.uses backendJvmCompilations then
    { snapshot with compilations := r.compilationTotal.toInt64 } else snapshot
  let snapshot := { snapshot with garbageCollections := r.gcTotal }
  let snapshot := if config.uses backendSysThreadtime then
    { snapshot with threadtime := r.threadtime } else snapshot
  let snapshot := if config.uses backendPapi then
    { snapshot with
      papiRc1 := r.papiRead
      papiEvents :=
        storePapiValues config.usedPapiEventsCount r.papiRead r.papiValues snapshot.papiEvents }
    else snapshot
  if config.uses backendSysWallclock then
    { snapshot with timestamp := r.wallclock } else snapshot

def ubenchMeasureStart (config : BenchmarkConfiguration) (r : Reading)
    (snapshot : EventsSnapshot) : EventsSnapshot :=
  let snapshot := if config.uses backendPapi then
    { snapshot with papiRc2 := r.papiStart } else snapshot
  let snapshot := { snapshot with type := snapshotTypeStart }
  doSnapshot config r snapshot

def ubenchMeasureSample (config : BenchmarkConfiguration) (userId : Int32) (r : Reading)
    (snapshot : EventsSnapshot) : EventsSnapshot :=
  doSnapshot config r { snapshot with type := userId }

def ubenchMeasureStop (config : BenchmarkConfiguration) (r : Reading)
    (snapshot : EventsSnapshot) : EventsSnapshot :=
  let snapshot := if config.uses backendSysWallclock then
    { snapshot with timestamp := r.wallclock } else snapshot
  let snapshot := if config.uses backendPapi then
    { snapshot with
      papiRc1 := r.papiStop
      papiEvents :=
        storePapiValues config.usedPapiEventsCount r.papiStop r.papiValues snapshot.papiEvents }
    else snapshot
  let snapshot := if config.uses backendSysThreadtime then
    { snapshot with threadtime := r.threadtime } else snapshot
  let snapshot := if config.uses backendJvmCompilations then
    { snapshot with compilations := r.compilationTotal.toInt64 } else snapshot
  let snapshot := { snapshot with garbageCollections := r.gcTotal }
  let snapshot := if config.uses backendResourceUsage then
    { snapshot with resourceUsage := r.resourceUsage } else snapshot
  { snapshot with type := snapshotTypeEnd }

def sizeSub (a b : ℕ) : ℕ := (a + 2 ^ 64 - b) % 2 ^ 64

/-- The step back of `start` and `sample`: when the index has reached the size of the
array, the last two slots are given up. -/
def stepBack (config : BenchmarkConfiguration) : BenchmarkConfiguration :=
  if config.dataIndex ≥ config.dataSize then
    { config with dataIndex := sizeSub config.dataIndex 2 }
  else config

/-- Fills the snapshot at `data_index` and advances the index. -/
def fillSnapshot (config : BenchmarkConfiguration) (fill : EventsSnapshot → EventsSnapshot) :
    Except Fault BenchmarkConfiguration :=
  match config.data[config.dataIndex]? with
  | none => .error (.snapshotIndex config.dataIndex)
  | some snapshot => .ok { config with
      data := config.data.set config.dataIndex (fill snapshot)
      dataIndex := config.dataIndex + 1 }

def papiStarted (config : BenchmarkConfiguration) (r : Reading) : BenchmarkConfiguration :=
  if config.uses backendPapi ∧ r.papiStart = papiOk then
    { config with papiState := { config.papiState with running := true } }
  else config

def papiStopped (config : BenchmarkConfiguration) (r : Reading) : BenchmarkConfiguration :=
  if config.uses backendPapi ∧ r.papiStop = papiOk then
    { config with papiState := { config.papiState with running := false } }
  else config

/-- The loop body of `start`. -/
def startEventset (config : BenchmarkConfiguration) (r : Reading) :
    Except Fault BenchmarkConfiguration :=
  if config.dataSize = 0 then .ok config
  else
    let config := stepBack config
    fillSnapshot (papiStarted config r) (ubenchMeasureStart config r)

def stopEventset (config : BenchmarkConfiguration) (r : Reading) :
    Except Fault BenchmarkConfiguration :=
  fillSnapshot (papiStopped config r) (ubenchMeasureStop config r)

def sampleEventset (config : BenchmarkConfiguration) (userId : Int32) (r : Reading) :
    Except Fault BenchmarkConfiguration :=
  if config.dataSize = 0 then .ok config
  else
    let config := stepBack config
    fillSnapshot config (ubenchMeasureSample config userId r)

def resetEventset (config : BenchmarkConfiguration) : BenchmarkConfiguration :=
  { config with dataIndex := 0 }

/-- A call of `start`, `stop`, `sample` or `reset` as one event set sees it, with what
the call reads. -/
inductive SetCall
  | start (r : Reading)
  | stop (r : Reading)
  | sample (userId : Int32) (r : Reading)
  | reset
  deriving DecidableEq

def SetCall.apply (config : BenchmarkConfiguration) : SetCall → Except Fault BenchmarkConfiguration
  | .start r => startEventset config r
  | .stop r => stopEventset config r
  | .sample userId r => sampleEventset config userId r
  | .reset => .ok (resetEventset config)

/-- The loop of `find_first_matching_snapshot_type`; the first argument bounds the
number of iterations. -/
def findLoop (snapshots : List EventsSnapshot) (maxIndex : ℕ) (type : Int32) :
    ℕ → ℕ → Except Fault (Option ℕ)
  | 0, _ => .ok none
  | fuel + 1, i =>
    if i < maxIndex then
      match snapshots[i]? with
      | none => .error (.snapshotIndex i)
      | some snapshot =>
        if snapshot.type = type then .ok (some i) else findLoop snapshots maxIndex type fuel (i + 1)
    else .ok none

/-- `find_first_matching_snapshot_type`; the index `(size_t) -1` is `none`. -/
def findFirstMatchingSnapshotType (snapshots : List EventsSnapshot) (startIndex : Option ℕ)
    (maxIndex : ℕ) (type : Int32) : Except Fault (Option ℕ) :=
  match startIndex with
  | none => .ok none
  | some i => findLoop snapshots maxIndex type (maxIndex - i) i

/-- The `while` loop of `getResults` from index `i`: the pairs of a START and an END
snapshot, each of which becomes a row.  The first argument bounds the number of
iterations; `resultPairs_eq` shows that it never cuts the loop short. -/
def pairLoop (snapshots : List EventsSnapshot) (iMax : ℕ) :
    ℕ → ℕ → Except Fault (List (ℕ × ℕ))
  | 0, _ => .ok []
  | fuel + 1, i =>
    if i < iMax then do
      let startIndex ← findFirstMatchingSnapshotType snapshots (some i) iMax snapshotTypeStart
      let endIndex ← findFirstMatchingSnapshotType snapshots startIndex iMax snapshotTypeEnd
      match startIndex, endIndex with
      | some s, some e =>
        let rest ← pairLoop snapshots iMax fuel (e + 1)
        .ok ((s, e) :: rest)
      | _, _ => .ok []
    else .ok []

/-- The pairs of snapshots that `getResults` turns into rows. -/
def resultPairs (config : BenchmarkConfiguration) : Except Fault (List (ℕ × ℕ)) :=
  pairLoop config.data config.dataIndex config.dataIndex 0

/-- A `BenchmarkResultsImpl`: event names, of which NULL is `none`, and data rows. -/
structure BenchmarkResults where
  eventNames : List (Option String)
  data : List (List Int64)
  deriving DecidableEq, Repr

def readSnapshot (config : BenchmarkConfiguration) (i : ℕ) : Except Fault EventsSnapshot :=
  match config.data[i]? with
  | none => .error (.snapshotIndex i)
  | some snapshot => .ok snapshot

def resultRow (config : BenchmarkConfiguration) (pair : ℕ × ℕ) : Except Fault (List Int64) := do
  let start ← readSnapshot config pair.1
  let stop ← readSnapshot config pair.2
  .ok (config.usedEvents.map fun event => event.callGet start stop)

def getResultsOf (config : BenchmarkConfiguration) : Except Fault BenchmarkResults := do
  let pairs ← resultPairs config
  let rows ← pairs.mapM (resultRow config)
  .ok ⟨config.usedEvents.map (·.name), rows⟩

/-- One row of `getRawResults`: the raw values and the type. -/
def rawRow (config : BenchmarkConfiguration) (i : ℕ) : Except Fault (List Int64) := do
  let snapshot ← readSnapshot config i
  .ok (config.usedEvents.map (fun event => event.callGetRaw snapshot) ++ [snapshot.type.toInt64])

def getRawResultsOf (config : BenchmarkConfiguration) : Except Fault BenchmarkResults := do
  let rows ← (List.range config.dataIndex).mapM (rawRow config)
  .ok ⟨config.usedEvents.map (·.name) ++ [some "TYPE"], rows⟩

end UbenchAgent
