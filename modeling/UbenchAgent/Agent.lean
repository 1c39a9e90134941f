import UbenchAgent.Measure
import UbenchAgent.Threads

/-!
# The table of event sets

The table `all_eventsets` of `measurement.c` and the calls of `Measurement` that
work on it: creation (plain and attached to a thread), destruction, and the four
calls that take an array of ids.

What a call gets from the allocator, from PAPI and from the clocks is part of the
call.  The ledger of the agent records the heap blocks, the PAPI event sets and the
JNI strings and arrays that are acquired and released.
-/

namespace UbenchAgent

inductive MeasurementException
  | measurementsNotPositive
  | noEvents
  | outOfMemory (what : String)
  | unrecognizedEvent (name : String)
  | papiComponentsDiffer
  | papiFailed (function : String) (rc : Int32)
  | invalidEventSetId
  | unknownThread
  deriving DecidableEq, Repr

/-- The three bytes of a UTF-16 unit from `0x800` on. -/
def unitBytes (unit : UInt32) : List UInt8 :=
  [(unit >>> 12).toUInt8 ||| 0xE0, ((unit >>> 6) &&& 0x3F).toUInt8 ||| 0x80,
    (unit &&& 0x3F).toUInt8 ||| 0x80]

/-- The bytes of a string in the modified UTF-8 of JNI: zero takes two bytes, and a character
from `0x10000` on those of its two surrogates. -/
def jniBytes (text : String) : List UInt8 :=
  text.toList.flatMap fun c =>
    if c.val = 0 then [0xC0, 0x80]
    else if c.val < 0x10000 then String.utf8EncodeChar c
    else unitBytes ((0xD800 : UInt32) + ((c.val - 0x10000) >>> 10)) ++
      unitBytes ((0xDC00 : UInt32) + ((c.val - 0x10000) &&& 0x3FF))

/-- The bytes that `ThrowNew` is given.  `snprintf` cuts the text of an unrecognized event at 509
of them; `strerror` is `PAPI_strerror`. -/
def MeasurementException.message (strerror : Int32 → String) : MeasurementException → List UInt8
  | .measurementsNotPositive => jniBytes "Number of measurements has to be positive."
  | .noEvents => jniBytes "List of events cannot be empty."
  | .outOfMemory what => jniBytes ("Out of memory (" ++ what ++ ").")
  | .unrecognizedEvent name => (jniBytes ("Unrecognized event " ++ name ++ ".")).take 509
  | .papiComponentsDiffer => jniBytes "PAPI components are not the same in the event set."
  | .papiFailed function rc => jniBytes (function ++ " failed: " ++ strerror rc ++ ".")
  | .invalidEventSetId => jniBytes "Invalid event set id."
  | .unknownThread => jniBytes "Unknown thread (not registered with PAPI)."

/-- `ü` takes two bytes, and `😀` six. -/
example : jniBytes "aü😀" = [0x61, 0xC3, 0xBC, 0xED, 0xA0, 0xBD, 0xED, 0xB8, 0x80] := by decide

inductive Resource
  | data
  | usedEvents
  | name
  | papiEventset
  | stringChars
  | intArray
  deriving DecidableEq, Repr

structure Eventset where
  config : BenchmarkConfiguration
  valid : Bool
  deriving DecidableEq

/-- The state of `measurement.c`: `all_eventsets`, whose length is
`all_eventset_count`, and the ledger.  That count is a `jint` in the source: fewer than `2 ^ 31`
event sets are taken to be there at once. -/
structure Agent where
  allEventsets : List Eventset
  ledger : Ledger Resource

def Agent.initial : Agent := ⟨[], .empty⟩

/-- `all_eventsets[id]`; an index outside the table gives `none`. -/
def Agent.eventsetAt (a : Agent) (id : ℤ) : Option Eventset :=
  if id < 0 then none else a.allEventsets[id.toNat]?

/-- The configuration that `id` names, or `none` if the test
`(id < 0) || (id >= all_eventset_count) || !all_eventsets[id].valid` holds. -/
def Agent.validConfig (a : Agent) (id : ℤ) : Option BenchmarkConfiguration :=
  match a.eventsetAt id with
  | none => none
  | some eventset => if eventset.valid then some eventset.config else none

def Agent.setEventset (a : Agent) (id : ℤ) (eventset : Eventset) : Agent :=
  { a with allEventsets := a.allEventsets.set id.toNat eventset }

structure CreateArgs where
  jmeasurements : Int32
  jeventNames : List String
  joptions : List Int32
  deriving DecidableEq, Repr

abbrev threadInherit : Int32 := 1

/-- What the setup of one event set gets from the allocator and from PAPI: whether each
allocation succeeds (`strdup` by the position of the event), the answers of PAPI about
names, and the return codes of the PAPI calls (by position in the options and in
`used_papi_events`). -/
structure SetupOutcomes where
  callocData : Bool
  callocEvents : Bool
  strdup : ℕ → Bool
  papi : PapiLibrary
  papiCreate : Int32
  papiAssign : Int32
  papiSetOpt : ℕ → Int32
  papiAddEvent : ℕ → Int32

/-- What one `createEventSet` gets: also whether `realloc` succeeds if it is called, and
what it then leaves in the new element of the table. -/
structure CreateOutcomes extends SetupOutcomes where
  realloc : Bool
  fresh : BenchmarkConfiguration

/-- A configuration and the ledger, as one stage of `createEventSet` leaves them, with
the exception that the stage threw, if any. -/
structure Stage where
  config : BenchmarkConfiguration
  ledger : Ledger Resource
  thrown : Option MeasurementException

/-- The index of `id` among the first `used_papi_events_count` registered events. -/
def alreadyRegistered (config : BenchmarkConfiguration) (id : Int32) :
    Option (Fin ubenchMaxPapiEvents) :=
  (List.finRange ubenchMaxPapiEvents).find? fun j =>
    j.val < config.usedPapiEventsCount && config.usedPapiEvents j == id

/-- The registration of a PAPI event: an id that is there already lends its index, a
new one takes the next free index, and a new one beyond `UBENCH_MAX_PAPI_EVENTS` gets
none. -/
def registerPapiEvent (config : BenchmarkConfiguration) (info : EventInfo) :
    BenchmarkConfiguration × EventInfo :=
  match alreadyRegistered config info.id with
  | some j => (config, { info with papiIndex := j })
  | none =>
    if h : config.usedPapiEventsCount < ubenchMaxPapiEvents then
      ({ config with
          usedPapiEvents :=
            Function.update config.usedPapiEvents ⟨config.usedPapiEventsCount, h⟩ info.id
          usedPapiEventsCount := config.usedPapiEventsCount + 1 },
        { info with papiIndex := ⟨config.usedPapiEventsCount, h⟩ })
    else (config, info)

def appendEvent (config : BenchmarkConfiguration) (info : EventInfo) : BenchmarkConfiguration :=
  { config with
    usedEvents := config.usedEvents ++ [info]
    usedBackends := config.usedBackends ||| info.backend }

/-- The duplicated name of a resolved event, entered in the ledger. -/
def acquireName (config : BenchmarkConfiguration) (ledger : Ledger Resource) (strdup : Bool) :
    BenchmarkConfiguration × Ledger Resource :=
  if strdup then
    let (name, ledger) := ledger.acquire .name
    ({ config with owned := { config.owned with names := config.owned.names ++ [name] } }, ledger)
  else (config, ledger)

def freeArrays (config : BenchmarkConfiguration) (ledger : Ledger Resource) : Ledger Resource :=
  (ledger.releaseOpt config.owned.usedEvents).releaseOpt config.owned.data

/-- The event loop of `createEventSet` from position `i` on. -/
def resolveEvents (hasPapi : Bool) (o : SetupOutcomes) :
    ℕ → List String → BenchmarkConfiguration → Ledger Resource → Stage
  | _, [], config, ledger => ⟨config, ledger, none⟩
  | i, eventName :: rest, config, ledger =>
    let (chars, ledger) := ledger.acquire .stringChars
    match ubenchEventResolve hasPapi o.papi (o.strdup i) eventName EventInfo.calloc with
    | (false, _) =>
      ⟨config, freeArrays config (ledger.release chars), some (.unrecognizedEvent eventName)⟩
    | (true, info) =>
      let (config, ledger) := acquireName config ledger (o.strdup i)
      if info.backend = backendPapi then
        let (config, info) := registerPapiEvent config info
        let config := appendEvent config info
        if config.usedPapiEventsCount > 1 ∧ config.papiComponent ≠ info.papiComponent then
          -- This exit releases nothing, as the FIXME of the source says.
          ⟨config, ledger, some .papiComponentsDiffer⟩
        else
          resolveEvents hasPapi o (i + 1) rest { config with papiComponent := info.papiComponent }
            (ledger.release chars)
      else
        resolveEvents hasPapi o (i + 1) rest (appendEvent config info) (ledger.release chars)

def papiInherit (o : SetupOutcomes) : ℕ → List Int32 → Option Int32
  | _, [] => none
  | i, option :: rest =>
    if option = threadInherit ∧ o.papiSetOpt i ≠ papiOk then some (o.papiSetOpt i)
    else papiInherit o (i + 1) rest

def papiAddEvents (o : SetupOutcomes) : ℕ → ℕ → Option Int32
  | 0, _ => none
  | n + 1, i =>
    if o.papiAddEvent i ≠ papiOk then some (o.papiAddEvent i)
    else papiAddEvents o n (i + 1)

def setupPapi (o : SetupOutcomes) (joptions : List Int32) (config : BenchmarkConfiguration)
    (ledger : Ledger Resource) : Stage :=
  let (options, ledger) := ledger.acquire .intArray
  -- Every exit releases the options and frees the two arrays, and nothing else.
  let fail (config : BenchmarkConfiguration) (ledger : Ledger Resource) (function : String)
      (rc : Int32) : Stage :=
    ⟨config, freeArrays config (ledger.release options), some (.papiFailed function rc)⟩
  if config.uses backendPapi then
    if o.papiCreate ≠ papiOk then fail config ledger "PAPI_create_eventset" o.papiCreate
    else
      let (eventset, ledger) := ledger.acquire .papiEventset
      let config := { config with owned := { config.owned with papiEventset := some eventset } }
      if o.papiAssign ≠ papiOk then
        fail config ledger "PAPI_assign_eventset_component" o.papiAssign
      else
        match papiInherit o 0 joptions with
        | some rc => fail config ledger "PAPI_set_opt(PAPI_INHERIT)" rc
        | none =>
          match papiAddEvents o config.usedPapiEventsCount 0 with
          | some rc => fail config ledger "PAPI_add_event" rc
          | none => ⟨config, ledger.release options, none⟩
  else ⟨config, ledger.release options, none⟩

/-- `createEventSet` once a slot is chosen: the slot's configuration is overwritten
field by field.  Without PAPI there are no PAPI fields and nothing reads them. -/
def configure (hasPapi : Bool) (o : SetupOutcomes) (size : ℕ) (args : CreateArgs)
    (config : BenchmarkConfiguration) (ledger : Ledger Resource) : Stage :=
  let config := { config with usedBackends := 0 }
  if !o.callocData then
    ⟨{ config with data := [], owned := { config.owned with data := none } }, ledger,
      some (.outOfMemory "allocating place for measurements")⟩
  else
    let (data, ledger) := ledger.acquire .data
    let config := { config with
      data := List.replicate size EventsSnapshot.calloc
      dataIndex := 0
      dataSize := size
      owned := { config.owned with data := some data } }
    if !o.callocEvents then
      ⟨{ config with owned := { config.owned with usedEvents := none } }, ledger.release data,
        some (.outOfMemory "allocating place for event metadata")⟩
    else
      let (usedEvents, ledger) := ledger.acquire .usedEvents
      let config := { config with
        usedEvents := []
        papiComponent := 0
        usedPapiEventsCount := 0
        papiState := ⟨false, none⟩
        owned := ⟨config.owned.data, some usedEvents, [], none⟩ }
      let stage := resolveEvents hasPapi o 0 args.jeventNames config ledger
      match stage.thrown with
      | some _ => stage
      | none =>
        if hasPapi then setupPapi o args.joptions stage.config stage.ledger else stage

def findFreeSlot : ℕ → List Eventset → Option (ℕ × Eventset)
  | _, [] => none
  | i, eventset :: rest =>
    if !eventset.valid then some (i, eventset) else findFreeSlot (i + 1) rest

def fillSlot (hasPapi : Bool) (a : Agent) (eventsetId : ℕ) (eventset : Eventset) (size : ℕ)
    (args : CreateArgs) (o : CreateOutcomes) : Agent × Except MeasurementException ℤ :=
  let stage := configure hasPapi o.toSetupOutcomes size args eventset.config a.ledger
  match stage.thrown with
  | some e => (⟨a.allEventsets.set eventsetId ⟨stage.config, eventset.valid⟩, stage.ledger⟩,
      .error e)
  | none => (⟨a.allEventsets.set eventsetId ⟨stage.config, true⟩, stage.ledger⟩,
      .ok eventsetId)

/-- `createEventSet`.  The doubling of the count wraps. -/
def createEventSet (hasPapi : Bool) (a : Agent) (args : CreateArgs) (o : CreateOutcomes) :
    Agent × Except MeasurementException ℤ :=
  let jmeasurements := args.jmeasurements * 2
  if jmeasurements ≤ 0 then (a, .error .measurementsNotPositive)
  else if args.jeventNames.length = 0 then (a, .error .noEvents)
  else
    let size := jmeasurements.toInt.toNat
    match findFreeSlot 0 a.allEventsets with
    | some (i, eventset) => fillSlot hasPapi a i eventset size args o
    | none =>
      if !o.realloc then (a, .error (.outOfMemory "allocating an event set"))
      else
        let eventset := ⟨o.fresh, false⟩
        fillSlot hasPapi { a with allEventsets := a.allEventsets ++ [eventset] }
          a.allEventsets.length eventset size args o

def destroyEventSet (a : Agent) (jid : ℤ) : Agent × Except MeasurementException Unit :=
  match a.validConfig jid with
  | none => (a, .error .invalidEventSetId)
  | some config =>
    ({ a.setEventset jid ⟨config, false⟩ with ledger := freeArrays config a.ledger }, .ok ())

def returnedId : Except MeasurementException ℤ → ℤ
  | .ok id => id
  | .error _ => -1

/-- `PAPI_attach` of the event set at `index` to a native thread, and the cleanup if it
fails. -/
def attachEventset (a : Agent) (index : ℤ) (config : BenchmarkConfiguration)
    (nativeId : Int64) (attach : Int32) : Agent × Except MeasurementException ℤ :=
  if attach ≠ papiOk then
    ((destroyEventSet a index).1, .error (.papiFailed "PAPI_attach" attach))
  else
    let config := { config with papiState := { config.papiState with attached := some nativeId } }
    (a.setEventset index ⟨config, true⟩, .ok index)

/-- `createAttachedEventSetWithJavaThread`; `threads` is the thread map at the time of
the call and `attach` the return code of `PAPI_attach`. -/
def createAttachedEventSetWithJavaThread (hasPapi : Bool) (a : Agent) (threads : ThreadMap)
    (javaThreadId : Int64) (args : CreateArgs) (o : CreateOutcomes) (attach : Int32) :
    Except Fault (Agent × Except MeasurementException ℤ) :=
  let (a, result) := createEventSet hasPapi a args o
  let eventsetIndex := returnedId result
  if hasPapi then
    match a.eventsetAt eventsetIndex with
    | none => .error (.eventsetIndex eventsetIndex)
    | some eventset =>
      if eventset.config.uses backendPapi then
        let nativeId := ubenchThreadsGetNativeId threads javaThreadId
        if nativeId = ubenchThreadIdInvalid then
          .ok ((destroyEventSet a eventsetIndex).1, .error .unknownThread)
        else .ok (attachEventset a eventsetIndex eventset.config nativeId attach)
      else .ok (a, result)
  else .ok (a, result)

def createAttachedEventSetWithNativeThread (hasPapi : Bool) (a : Agent) (nativeThreadId : Int64)
    (args : CreateArgs) (o : CreateOutcomes) (attach : Int32) :
    Except Fault (Agent × Except MeasurementException ℤ) :=
  let (a, result) := createEventSet hasPapi a args o
  let eventsetIndex := returnedId result
  if hasPapi then
    match a.eventsetAt eventsetIndex with
    | none => .error (.eventsetIndex eventsetIndex)
    | some eventset =>
      if eventset.config.uses backendPapi then
        .ok (attachEventset a eventsetIndex eventset.config nativeThreadId attach)
      else .ok (a, result)
  else .ok (a, result)

/-- The loop over the ids: each is checked and then served, so an invalid id throws
after the ids before it have been served. -/
def forEachEventset : List (ℤ × SetCall) → Agent →
    Except Fault (Agent × Except MeasurementException Unit)
  | [], a => .ok (a, .ok ())
  | (id, call) :: rest, a =>
    match a.validConfig id with
    | none => .ok (a, .error .invalidEventSetId)
    | some config => do
      let config ← call.apply config
      forEachEventset rest (a.setEventset id ⟨config, true⟩)

/-- The frame of the four calls: the ids are acquired before the loop and released
after it, but not if it throws. -/
def withIds (a : Agent) (calls : List (ℤ × SetCall)) :
    Except Fault (Agent × Except MeasurementException Unit) :=
  if calls.length = 0 then .ok (a, .ok ())
  else do
    let (ids, ledger) := a.ledger.acquire .intArray
    let (a, result) ← forEachEventset calls { a with ledger := ledger }
    match result with
    | .error e => .ok (a, .error e)
    | .ok () => .ok ({ a with ledger := a.ledger.release ids }, .ok ())

def start (a : Agent) (jids : List (ℤ × Reading)) :
    Except Fault (Agent × Except MeasurementException Unit) :=
  withIds a (jids.map fun x => (x.1, .start x.2))

def stop (a : Agent) (jids : List (ℤ × Reading)) :
    Except Fault (Agent × Except MeasurementException Unit) :=
  withIds a (jids.map fun x => (x.1, .stop x.2))

def sample (a : Agent) (juserId : Int32) (jids : List (ℤ × Reading)) :
    Except Fault (Agent × Except MeasurementException Unit) :=
  withIds a (jids.map fun x => (x.1, .sample juserId x.2))

def reset (a : Agent) (jids : List ℤ) :
    Except Fault (Agent × Except MeasurementException Unit) :=
  withIds a (jids.map fun id => (id, .reset))

def getResults (a : Agent) (jid : ℤ) :
    Except Fault (Except MeasurementException BenchmarkResults) :=
  match a.validConfig jid with
  | none => .ok (.error .invalidEventSetId)
  | some config => do
    let results ← getResultsOf config
    .ok (.ok results)

def getRawResults (a : Agent) (jid : ℤ) :
    Except Fault (Except MeasurementException BenchmarkResults) :=
  match a.validConfig jid with
  | none => .ok (.error .invalidEventSetId)
  | some config => do
    let results ← getRawResultsOf config
    .ok (.ok results)

/-- A call of a native method of `Measurement`, with its environment. -/
inductive Call
  | createEventSet (args : CreateArgs) (o : CreateOutcomes)
  | createAttachedEventSetWithJavaThread (threads : ThreadMap) (javaThreadId : Int64)
      (args : CreateArgs) (o : CreateOutcomes) (attach : Int32)
  | createAttachedEventSetWithNativeThread (nativeThreadId : Int64) (args : CreateArgs)
      (o : CreateOutcomes) (attach : Int32)
  | destroyEventSet (jid : ℤ)
  | start (jids : List (ℤ × Reading))
  | stop (jids : List (ℤ × Reading))
  | sample (juserId : Int32) (jids : List (ℤ × Reading))
  | reset (jids : List ℤ)
  | getResults (jid : ℤ)
  | getRawResults (jid : ℤ)

inductive Response
  | eventSet (id : ℤ)
  | done
  | results (data : BenchmarkResults)
  | thrown (e : MeasurementException)
  deriving DecidableEq

def Response.ofId : Except MeasurementException ℤ → Response
  | .ok id => .eventSet id
  | .error e => .thrown e

def Response.ofUnit : Except MeasurementException Unit → Response
  | .ok () => .done
  | .error e => .thrown e

def Response.ofResults : Except MeasurementException BenchmarkResults → Response
  | .ok data => .results data
  | .error e => .thrown e

def Agent.step (hasPapi : Bool) (a : Agent) : Call → Except Fault (Agent × Response)
  | .createEventSet args o =>
    let (a, result) := UbenchAgent.createEventSet hasPapi a args o
    .ok (a, .ofId result)
  | .createAttachedEventSetWithJavaThread threads javaThreadId args o attach => do
    let (a, result) ←
      UbenchAgent.createAttachedEventSetWithJavaThread hasPapi a threads javaThreadId args o attach
    .ok (a, .ofId result)
  | .createAttachedEventSetWithNativeThread nativeThreadId args o attach => do
    let (a, result) ←
      UbenchAgent.createAttachedEventSetWithNativeThread hasPapi a nativeThreadId args o attach
    .ok (a, .ofId result)
  | .destroyEventSet jid =>
    let (a, result) := UbenchAgent.destroyEventSet a jid
    .ok (a, .ofUnit result)
  | .start jids => do
    let (a, result) ← UbenchAgent.start a jids
    .ok (a, .ofUnit result)
  | .stop jids => do
    let (a, result) ← UbenchAgent.stop a jids
    .ok (a, .ofUnit result)
  | .sample juserId jids => do
    let (a, result) ← UbenchAgent.sample a juserId jids
    .ok (a, .ofUnit result)
  | .reset jids => do
    let (a, result) ← UbenchAgent.reset a jids
    .ok (a, .ofUnit result)
  | .getResults jid => do
    let result ← UbenchAgent.getResults a jid
    .ok (a, .ofResults result)
  | .getRawResults jid => do
    let result ← UbenchAgent.getRawResults a jid
    .ok (a, .ofResults result)

end UbenchAgent
