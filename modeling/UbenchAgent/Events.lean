import UbenchAgent.Snapshot
import Mathlib.Data.List.Basic

/-!
# Events and their getters

`events.c` of the Linux builds: the getters, the table `known_events`, and the
resolution of an event name.  The table depends on whether the agent was built
with PAPI; `HAS_TIMESPEC` and `HAS_GETRUSAGE` hold on Linux.

PAPI itself is a parameter: `PapiLibrary` holds the answers of the three calls
that resolution makes.
-/

namespace UbenchAgent

abbrev backendResourceUsage : BitVec 32 := 2

abbrev backendPapi : BitVec 32 := 4

abbrev backendSysWallclock : BitVec 32 := 8

abbrev backendJvmCompilations : BitVec 32 := 16

abbrev backendSysThreadtime : BitVec 32 := 32

/-- The functions that `op_get_raw` can point to. -/
inductive EventGetterRawFunc
  | wallClockTime
  | threadTime
  | jvmCompilations
  | contextSwitchForced
  | threadTimeRusage
  | papi
  deriving DecidableEq, Repr

/-- The functions that `op_get` can point to. -/
inductive EventGetterFunc
  | wallClockTime
  | threadTime
  | jvmCompilations
  | contextSwitchForced
  | threadTimeRusage
  | papi
  deriving DecidableEq, Repr

/-- `ubench_event_info_t`; a NULL pointer is `none`. -/
structure EventInfo where
  backend : BitVec 32
  id : Int32
  papiComponent : Int32
  papiIndex : Fin ubenchMaxPapiEvents
  opGetRaw : Option EventGetterRawFunc
  opGet : Option EventGetterFunc
  name : Option String
  deriving DecidableEq, Repr

/-- An element of `used_events` as `calloc` leaves it. -/
def EventInfo.calloc : EventInfo where
  backend := 0
  id := 0
  papiComponent := 0
  papiIndex := 0
  opGetRaw := none
  opGet := none
  name := none

def timespecToNanos (val : Timespec) : Int64 := val.tvSec * 1000 * 1000 * 1000 + val.tvNsec

def timevalToMicros (val : Timeval) : Int64 := val.tvSec * 1000 * 1000 + val.tvUsec

def timespecDiffNs (a b : Timespec) : Int64 :=
  let secDiff := b.tvSec - a.tvSec
  let nanosecDiff := b.tvNsec - a.tvNsec
  secDiff * 1000 * 1000 * 1000 + nanosecDiff

def timevalDiffUs (a b : Timeval) : Int64 :=
  let secDiff := b.tvSec - a.tvSec
  let usecDiff := b.tvUsec - a.tvUsec
  secDiff * 1000 * 1000 + usecDiff

def getterWallClockTime (start stop : EventsSnapshot) : Int64 :=
  timespecDiffNs start.timestamp stop.timestamp

def getterRawWallClockTime (value : EventsSnapshot) : Int64 :=
  timespecToNanos value.timestamp

def getterThreadTime (start stop : EventsSnapshot) : Int64 :=
  timespecDiffNs start.threadtime stop.threadtime

def getterRawThreadTime (value : EventsSnapshot) : Int64 :=
  value.threadtime.tvSec * 1000 * 1000 * 1000 + value.threadtime.tvNsec

def getterJvmCompilations (start stop : EventsSnapshot) : Int64 :=
  stop.compilations - start.compilations

def getterRawJvmCompilations (value : EventsSnapshot) : Int64 :=
  value.compilations

def getterContextSwitchForced (start stop : EventsSnapshot) : Int64 :=
  stop.resourceUsage.ruNivcsw - start.resourceUsage.ruNivcsw

def getterRawContextSwitchForced (value : EventsSnapshot) : Int64 :=
  value.resourceUsage.ruNivcsw

def getterThreadTimeRusage (start stop : EventsSnapshot) : Int64 :=
  let userUs := timevalDiffUs start.resourceUsage.ruUtime stop.resourceUsage.ruUtime
  let systemUs := timevalDiffUs start.resourceUsage.ruStime stop.resourceUsage.ruStime
  (userUs + systemUs) * 1000

def getterRawThreadTimeRusage (value : EventsSnapshot) : Int64 :=
  let userUs := timevalToMicros value.resourceUsage.ruUtime
  let systemUs := timevalToMicros value.resourceUsage.ruStime
  (userUs + systemUs) * 1000

/-- `getter_papi`.  Both branches on the sign of the difference return it. -/
def getterPapi (start stop : EventsSnapshot) (info : EventInfo) : Int64 :=
  if start.papiRc1 ≠ papiOk then start.papiRc1.toInt64
  else if start.papiRc2 ≠ papiOk then start.papiRc2.toInt64
  else if stop.papiRc1 ≠ papiOk then stop.papiRc1.toInt64
  else stop.papiEvents info.papiIndex - start.papiEvents info.papiIndex

def getterRawPapi (value : EventsSnapshot) (info : EventInfo) : Int64 :=
  if value.papiRc1 ≠ papiOk then value.papiRc1.toInt64
  else if value.papiRc2 ≠ papiOk then value.papiRc2.toInt64
  else value.papiEvents info.papiIndex

/-- The call `event->op_get(start, end, event)`.  A NULL pointer is never called:
`ubenchEventResolve` sets both getters of every event that it accepts. -/
def EventInfo.callGet (event : EventInfo) (start stop : EventsSnapshot) : Int64 :=
  match event.opGet with
  | none => 0
  | some .wallClockTime => getterWallClockTime start stop
  | some .threadTime => getterThreadTime start stop
  | some .jvmCompilations => getterJvmCompilations start stop
  | some .contextSwitchForced => getterContextSwitchForced start stop
  | some .threadTimeRusage => getterThreadTimeRusage start stop
  | some .papi => getterPapi start stop event

def EventInfo.callGetRaw (event : EventInfo) (value : EventsSnapshot) : Int64 :=
  match event.opGetRaw with
  | none => 0
  | some .wallClockTime => getterRawWallClockTime value
  | some .threadTime => getterRawThreadTime value
  | some .jvmCompilations => getterRawJvmCompilations value
  | some .contextSwitchForced => getterRawContextSwitchForced value
  | some .threadTimeRusage => getterRawThreadTimeRusage value
  | some .papi => getterRawPapi value event

/-- `strcasecmp` in the POSIX locale, in which it folds the ASCII letters only. -/
def ubenchStrIsIcaseEqual (a b : String) : Bool :=
  a.toList.map Char.toLower == b.toList.map Char.toLower

/-- `strncasecmp` in the POSIX locale, up to the length of `start`. -/
def ubenchStrStartsWithIcase (str start : String) : Bool :=
  (str.toList.take start.toList.length).map Char.toLower == start.toList.map Char.toLower

/-- The part of `PAPI_event_info_t` that the agent reads. -/
structure PapiEventInfo where
  componentIndex : Int32
  count : BitVec 32
  deriving DecidableEq, Repr

/-- The answers of PAPI to one resolution.  `isPreset` is the macro `IS_PRESET`. -/
structure PapiLibrary where
  eventNameToCode : String → Int32 × Int32
  getEventInfo : Int32 → Int32 × PapiEventInfo
  isPreset : Int32 → Bool

def resolvePapiEvent (papi : PapiLibrary) (name : String) (info : EventInfo) :
    Bool × EventInfo :=
  let (ok, papiEventId) := papi.eventNameToCode name
  if ok ≠ papiOk then (false, info)
  else
    let (ok, eventInfo) := papi.getEventInfo papiEventId
    if ok ≠ papiOk then (false, info)
    else if papi.isPreset papiEventId ∧ eventInfo.count = 0 then (false, info)
    else (true, { info with id := papiEventId, papiComponent := eventInfo.componentIndex })

/-- `resolve_papi_event_with_prefix`: the name after its first five characters. -/
def resolvePapiEventWithPrefix (papi : PapiLibrary) (name : String) (info : EventInfo) :
    Bool × EventInfo :=
  resolvePapiEvent papi (String.ofList (name.toList.drop 5)) info

inductive ResolveEventFunc
  | papiEvent
  | papiEventWithPrefix
  deriving DecidableEq, Repr

def ResolveEventFunc.call (papi : PapiLibrary) :
    ResolveEventFunc → String → EventInfo → Bool × EventInfo
  | .papiEvent => resolvePapiEvent papi
  | .papiEventWithPrefix => resolvePapiEventWithPrefix papi

inductive EventListerFunc
  | papiEvents
  deriving DecidableEq, Repr

structure KnownEvent where
  name : String
  obsolete : Bool
  resolver : Option ResolveEventFunc
  lister : Option EventListerFunc
  backend : BitVec 32
  getterRaw : EventGetterRawFunc
  getter : EventGetterFunc

/-- `known_events` without its terminating entry. -/
def knownEvents (hasPapi : Bool) : List KnownEvent :=
  [ -- Legacy names first.
    { name := "JVM_COMPILATIONS", obsolete := true, resolver := none, lister := none,
      backend := backendJvmCompilations,
      getterRaw := .jvmCompilations, getter := .jvmCompilations },
    { name := "SYS_WALLCLOCK", obsolete := true, resolver := none, lister := none,
      backend := backendSysWallclock,
      getterRaw := .wallClockTime, getter := .wallClockTime },
    { name := "forced-context-switch", obsolete := true, resolver := none, lister := none,
      backend := backendResourceUsage,
      getterRaw := .contextSwitchForced, getter := .contextSwitchForced },
    -- New naming.
    { name := "JVM:compilations", obsolete := false, resolver := none, lister := none,
      backend := backendJvmCompilations,
      getterRaw := .jvmCompilations, getter := .jvmCompilations } ] ++
  (if hasPapi then
    [ { name := "PAPI:", obsolete := false, resolver := some .papiEventWithPrefix,
        lister := some .papiEvents, backend := backendPapi,
        getterRaw := .papi, getter := .papi } ]
   else []) ++
  [ { name := "SYS:forced-context-switches", obsolete := false, resolver := none, lister := none,
      backend := backendResourceUsage,
      getterRaw := .contextSwitchForced, getter := .contextSwitchForced },
    { name := "SYS:thread-time", obsolete := false, resolver := none, lister := none,
      backend := backendSysThreadtime,
      getterRaw := .threadTime, getter := .threadTime },
    { name := "SYS:thread-time-rusage", obsolete := false, resolver := none, lister := none,
      backend := backendResourceUsage,
      getterRaw := .threadTimeRusage, getter := .threadTimeRusage },
    { name := "SYS:wallclock-time", obsolete := false, resolver := none, lister := none,
      backend := backendSysWallclock,
      getterRaw := .wallClockTime, getter := .wallClockTime } ] ++
  (if hasPapi then
    [ { name := "", obsolete := true, resolver := some .papiEvent, lister := none,
        backend := backendPapi, getterRaw := .papi, getter := .papi } ]
   else [])

/-- One entry of the table tried on `event`: a NULL `resolver` compares the whole
name, any other asks the resolver about names with the entry's prefix. -/
def KnownEvent.tryResolve (papi : PapiLibrary) (it : KnownEvent) (event : String)
    (info : EventInfo) : Bool × EventInfo :=
  match it.resolver with
  | none => (ubenchStrIsIcaseEqual event it.name, info)
  | some resolver =>
    if ubenchStrStartsWithIcase event it.name then resolver.call papi event info
    else (false, info)

/-- The loop of `ubench_event_resolve` over the rest of the table.  `strdup` tells
whether `ubench_str_dup` finds memory for the name. -/
def resolveLoop (papi : PapiLibrary) (strdup : Bool) (event : String) (info : EventInfo) :
    List KnownEvent → Bool × EventInfo
  | [] => (false, info)
  | it :: rest =>
    match it.tryResolve papi event info with
    | (false, info) => resolveLoop papi strdup event info rest
    | (true, info) =>
      (true, { info with
        backend := it.backend
        opGetRaw := some it.getterRaw
        opGet := some it.getter
        name := if strdup then some event else none })

def ubenchEventResolve (hasPapi : Bool) (papi : PapiLibrary) (strdup : Bool) (event : String)
    (info : EventInfo) : Bool × EventInfo :=
  resolveLoop papi strdup event info (knownEvents hasPapi)

end UbenchAgent
