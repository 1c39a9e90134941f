import Mathlib.Data.Fintype.Basic
import Mathlib.Tactic.TypeStar

/-!
# Snapshots and readings

The data that one event set collects: `ubench_events_snapshot_t` of `ubench.h`
on 64-bit Linux, and everything that a call obtains from the operating system,
from the JVM counters and from PAPI while it fills a snapshot.
-/

namespace UbenchAgent

abbrev ubenchMaxPapiEvents : ℕ := 20

abbrev papiOk : Int32 := 0

abbrev snapshotTypeStart : Int32 := -1

abbrev snapshotTypeEnd : Int32 := -2

/-- `struct timespec`, which is both `timestamp_t` and `threadtime_t` on Linux. -/
structure Timespec where
  tvSec : Int64
  tvNsec : Int64
  deriving DecidableEq, Repr

structure Timeval where
  tvSec : Int64
  tvUsec : Int64
  deriving DecidableEq, Repr

/-- The fields of `struct rusage` that some getter reads. -/
structure Rusage where
  ruUtime : Timeval
  ruStime : Timeval
  ruNivcsw : Int64
  deriving DecidableEq, Repr

abbrev PapiValues := Fin ubenchMaxPapiEvents → Int64

structure EventsSnapshot where
  timestamp : Timespec
  threadtime : Timespec
  resourceUsage : Rusage
  compilations : Int64
  garbageCollections : Int32
  papiEvents : PapiValues
  papiRc1 : Int32
  papiRc2 : Int32
  type : Int32
  deriving DecidableEq

/-- A snapshot as `calloc` leaves it. -/
def EventsSnapshot.calloc : EventsSnapshot where
  timestamp := ⟨0, 0⟩
  threadtime := ⟨0, 0⟩
  resourceUsage := ⟨⟨0, 0⟩, ⟨0, 0⟩, 0⟩
  compilations := 0
  garbageCollections := 0
  papiEvents := fun _ => 0
  papiRc1 := 0
  papiRc2 := 0
  type := 0

/-- What one call finds when it asks its environment: the two clocks, `getrusage`,
the two JVM counters, and what `PAPI_start`, `PAPI_read` and `PAPI_stop` answer if
the call makes them. -/
structure Reading where
  wallclock : Timespec
  threadtime : Timespec
  resourceUsage : Rusage
  compilationTotal : Int32
  gcTotal : Int32
  papiStart : Int32
  papiRead : Int32
  papiStop : Int32
  papiValues : PapiValues
  deriving DecidableEq

/-- A reading in which every source answers zero and every PAPI call succeeds. -/
def Reading.zero : Reading where
  wallclock := ⟨0, 0⟩
  threadtime := ⟨0, 0⟩
  resourceUsage := ⟨⟨0, 0⟩, ⟨0, 0⟩, 0⟩
  compilationTotal := 0
  gcTotal := 0
  papiStart := papiOk
  papiRead := papiOk
  papiStop := papiOk
  papiValues := fun _ => 0

def Reading.at (tvSec tvNsec : Int64) : Reading := { Reading.zero with wallclock := ⟨tvSec, tvNsec⟩ }

/-- `PAPI_read` and `PAPI_stop` store the first `n` counters when they succeed; the
rest of the array, or all of it on an error, keeps its contents. -/
def storePapiValues (n : ℕ) (rc : Int32) (values old : PapiValues) : PapiValues :=
  fun i => if rc = papiOk ∧ i.val < n then values i else old i

end UbenchAgent
