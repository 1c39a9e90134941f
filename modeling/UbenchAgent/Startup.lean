import UbenchAgent.Lib.Program
import Mathlib.Data.List.Count

/-!
# The start of the agent

The library is loaded as an agent or by `System.loadLibrary`, perhaps by both.  The modules
then enable events of the virtual machine, whose callbacks run in other threads from that
moment on.
-/

namespace UbenchAgent

inductive JvmtiEvent
  | vmInit
  | threadStart
  | threadEnd
  | compiledMethodLoad
  | garbageCollectionFinish
  deriving DecidableEq, Repr

inductive JvmtiCapability
  | canGenerateCompiledMethodLoadEvents
  | canGenerateGarbageCollectionEvents
  deriving DecidableEq, Repr

abbrev JvmtiEnv : Type := ℕ

abbrev JMethodID : Type := ℕ

/-- `jvmti_context_t`: the events with a callback, and the rest.  The environment is kept
apart, since it changes. -/
structure JvmtiContext where
  callbacks : List JvmtiEvent
  events : List JvmtiEvent
  hasCapabilities : Bool
  capabilities : List JvmtiCapability
  deriving DecidableEq, Repr

/-- The contexts of the agent: `counters_context`, `threads_context` and `init_context`. -/
inductive ContextName
  | counters
  | threads
  | init
  deriving DecidableEq, Repr

def ContextName.context : ContextName → JvmtiContext
  | .counters =>
    { callbacks := [.compiledMethodLoad, .garbageCollectionFinish]
      events := [.compiledMethodLoad, .garbageCollectionFinish]
      hasCapabilities := true
      capabilities :=
        [.canGenerateCompiledMethodLoadEvents, .canGenerateGarbageCollectionEvents] }
  | .threads =>
    { callbacks := [.threadStart, .threadEnd]
      events := [.threadStart, .threadEnd]
      hasCapabilities := false
      capabilities := [] }
  | .init =>
    { callbacks := [.vmInit]
      events := [.vmInit]
      hasCapabilities := false
      capabilities := [] }

/-- A call or an access to a global variable.  The calls for a context name it. -/
inductive AgentRequest
  /-- `ubench_atomic_int_inc(&startup_guard)` -/
  | incStartupGuard
  /-- `GetEnv` for JNI -/
  | getJniEnv
  | getJavaVM
  /-- `GetEnv` for JVMTI -/
  | getJvmtiEnv (name : ContextName)
  /-- `context->jvmti = jvmti` -/
  | setJvmti (name : ContextName) (jvmti : Option JvmtiEnv)
  | addCapabilities (name : ContextName) (jvmti : JvmtiEnv)
  | setEventNotificationMode (name : ContextName) (jvmti : JvmtiEnv) (event : JvmtiEvent)
  | setEventCallbacks (name : ContextName) (jvmti : JvmtiEnv)
  | disposeEnvironment (name : ContextName) (jvmti : JvmtiEnv)
  | findThreadClass
  | getMethodID
  /-- `thread_get_id_method = method` -/
  | setThreadGetIdMethod (method : Option JMethodID)
  /-- `thread_get_id_method` -/
  | threadGetIdMethod
  | callLongMethod (method : Option JMethodID)
  | getCurrentThreadNativeId
  | registerJavaThread (javaId nativeId : Int64)
  | unregisterNativeThread (nativeId : Int64)
  | incCounterCompilation
  | incCounterCompilationTotal
  | incCounterGcTotal
  | papiLibraryInit
  | papiThreadInit
  | exit (status : Int32)
  deriving DecidableEq, Repr

/-- What a request gives back; `true` stands for the codes of success. -/
abbrev AgentRequest.Answer : AgentRequest → Type
  | .incStartupGuard => Int32
  | .getJniEnv => Bool
  | .getJavaVM => Bool
  | .getJvmtiEnv _ => Option JvmtiEnv
  | .setJvmti _ _ => Unit
  | .addCapabilities _ _ => Bool
  | .setEventNotificationMode _ _ _ => Bool
  | .setEventCallbacks _ _ => Bool
  | .disposeEnvironment _ _ => Bool
  | .findThreadClass => Bool
  | .getMethodID => Option JMethodID
  | .setThreadGetIdMethod _ => Unit
  | .threadGetIdMethod => Option JMethodID
  | .callLongMethod _ => Int64
  | .getCurrentThreadNativeId => Int64
  | .registerJavaThread _ _ => Bool
  | .unregisterNativeThread _ => Bool
  | .incCounterCompilation => Int32
  | .incCounterCompilationTotal => Int32
  | .incCounterGcTotal => Int32
  | .papiLibraryInit => Int32
  | .papiThreadInit => Int32
  | .exit _ => Empty

abbrev AgentProgram (β : Type) : Type := Program AgentRequest.Answer β

abbrev AgentEvent : Type := Σ request, AgentRequest.Answer request

def ask (request : AgentRequest) : AgentProgram request.Answer := Program.ask request

def ubenchJvmtiContextInit (name : ContextName) : AgentProgram (Bool × Option JvmtiEnv) := do
  let created : Option JvmtiEnv ← ask (.getJvmtiEnv name)
  match created with
  | none => return (false, none)
  | some jvmti =>
    ask (.setJvmti name (some jvmti))
    return (true, some jvmti)

def enableEvents (name : ContextName) (jvmti : JvmtiEnv) : List JvmtiEvent → AgentProgram Bool
  | [] => return true
  | event :: events => do
    let enabled : Bool ← ask (.setEventNotificationMode name jvmti event)
    if enabled then enableEvents name jvmti events else return false

/-- The first part of `ubench_jvmti_context_enable`. -/
def addCapabilities (name : ContextName) (jvmti : JvmtiEnv) : AgentProgram Bool :=
  if name.context.hasCapabilities then ask (.addCapabilities name jvmti) else return true

/-- `ubench_jvmti_context_enable`.  What it reads of `context->jvmti` is an argument: only
`ubench_jvmti_context_init` and `..._destroy` write that field, and no two loads or callbacks work
for one context, so it is what the `init` of the same load has stored. -/
def ubenchJvmtiContextEnable (name : ContextName) (jvmti : JvmtiEnv) : AgentProgram Bool := do
  if !(← addCapabilities name jvmti) then return false
  if !(← enableEvents name jvmti name.context.events) then return false
  -- Register callbacks last.
  ask (.setEventCallbacks name jvmti)

/-- `ubench_jvmti_context_destroy`, which reads `context->jvmti` likewise. -/
def ubenchJvmtiContextDestroy (name : ContextName) (jvmti : Option JvmtiEnv) : AgentProgram Bool :=
  match jvmti with
  | none => return false
  | some jvmti => do
    ask (.setJvmti name none)
    ask (.disposeEnvironment name jvmti)

def ubenchJvmtiContextInitAndEnable (name : ContextName) : AgentProgram Bool := do
  match ← ubenchJvmtiContextInit name with
  | (true, some jvmti) =>
    if ← ubenchJvmtiContextEnable name jvmti then return true
    let _ ← ubenchJvmtiContextDestroy name (some jvmti)
    return false
  | _ => return false

def ubenchCountersInit : AgentProgram Bool := ubenchJvmtiContextInitAndEnable .counters

def enableAutomaticThreadsRegistration : AgentProgram Bool := do
  let found : Bool ← ask .findThreadClass
  if !found then return false
  let method : Option JMethodID ← ask .getMethodID
  ask (.setThreadGetIdMethod method)
  if method.isNone then return false
  ubenchJvmtiContextInitAndEnable .threads

def ubenchThreadsInit : AgentProgram Bool := do
  let available : Bool ← ask .getJniEnv
  if available then enableAutomaticThreadsRegistration
  else ubenchJvmtiContextInitAndEnable .init

/-- `exit`, which does not return. -/
def exitProcess {β : Type} (status : Int32) : AgentProgram β :=
  .request (.exit status) fun answer => Empty.elim answer

def checkPapiError (papiError : Int32) : AgentProgram Unit :=
  if papiError < 0 then exitProcess 1 else return ()

/-- `ubench_measurement_init`; without PAPI there is no `PAPI_VER_CURRENT`. -/
def ubenchMeasurementInit (papiVerCurrent : Option Int32) : AgentProgram Bool :=
  match papiVerCurrent with
  | none => return true
  | some current => do
    let libInitRc : Int32 ← ask .papiLibraryInit
    if libInitRc ≠ current ∧ libInitRc > 0 then exitProcess 1
    else
      checkPapiError libInitRc
      let threadInitRc : Int32 ← ask .papiThreadInit
      checkPapiError threadInitRc
      return true

def ubenchEventInit : AgentProgram Bool := return true

def ubenchStartup (papiVerCurrent : Option Int32) : AgentProgram Bool := do
  let old : Int32 ← ask .incStartupGuard
  if old ≠ 0 then return true
  -- The first two modules are allowed to fail.
  let _ ← ubenchCountersInit
  let _ ← ubenchThreadsInit
  if !(← ubenchMeasurementInit papiVerCurrent) then return false
  if !(← ubenchEventInit) then return false
  return true

def jvmtiCallbackOnVmInit : AgentProgram Unit := do
  let obtained : Bool ← ask .getJavaVM
  if obtained then
    let _ ← enableAutomaticThreadsRegistration

def threadStartCallback : AgentProgram Unit := do
  let method ← ask .threadGetIdMethod
  let javaId ← ask (.callLongMethod method)
  let nativeId ← ask .getCurrentThreadNativeId
  let _ ← ask (.registerJavaThread javaId nativeId)

def threadEndCallback : AgentProgram Unit := do
  let nativeId ← ask .getCurrentThreadNativeId
  let _ ← ask (.unregisterNativeThread nativeId)

def jvmtiCallbackOnCompiledMethodLoad : AgentProgram Unit := do
  let _ ← ask .incCounterCompilation
  let _ ← ask .incCounterCompilationTotal

def jvmtiCallbackOnGarbageCollectionFinish : AgentProgram Unit := do
  let _ ← ask .incCounterGcTotal

def JvmtiEvent.callback : JvmtiEvent → AgentProgram Unit
  | .vmInit => jvmtiCallbackOnVmInit
  | .threadStart => threadStartCallback
  | .threadEnd => threadEndCallback
  | .compiledMethodLoad => jvmtiCallbackOnCompiledMethodLoad
  | .garbageCollectionFinish => jvmtiCallbackOnGarbageCollectionFinish

abbrev jniOk : Int32 := 0

abbrev jniErr : Int32 := -1

abbrev jniVersion18 : Int32 := 0x00010008

/-- Why the virtual machine runs code of the agent. -/
inductive Origin
  | agentOnLoad
  | jniOnLoad
  | callback (jvmti : JvmtiEnv) (event : JvmtiEvent)
  deriving DecidableEq, Repr

def Origin.program (papiVerCurrent : Option Int32) : Origin → AgentProgram (Option Int32)
  | .agentOnLoad => do return some (if ← ubenchStartup papiVerCurrent then jniOk else jniErr)
  | .jniOnLoad => do return some (if ← ubenchStartup papiVerCurrent then jniVersion18 else 0)
  | .callback _ event => do
    event.callback
    return none

abbrev AgentEntry : Type := Entry ℕ Origin AgentRequest.Answer

def startups (tr : List AgentEntry) : ℕ :=
  (allActs tr).countP fun event => event.1 = .incStartupGuard

def methodWritten : AgentEvent → Option (Option JMethodID)
  | ⟨.setThreadGetIdMethod method, _⟩ => some method
  | _ => none

def jvmtiWritten (name : ContextName) : AgentEvent → Option (Option JvmtiEnv)
  | ⟨.setJvmti name' jvmti, _⟩ => if name' = name then some jvmti else none
  | _ => none

def lastWritten {β : Type} (written : AgentEvent → Option (Option β)) (es : List AgentEvent) :
    Option β :=
  (es.filterMap written).getLast?.join

/-- A callback runs only in an environment in which it was set, and `VMInit` once only. -/
def CallbackMayRun (tr : List AgentEntry) (jvmti : JvmtiEnv) (event : JvmtiEvent) : Prop :=
  (∃ i name, .act i ⟨.setEventCallbacks name jvmti, true⟩ ∈ tr ∧ event ∈ name.context.callbacks) ∧
    (event = .vmInit → ∀ i, .start i (.callback jvmti .vmInit) ∉ tr)

/-- The agent in a virtual machine.  Loads come at any time; a request for a variable gives
its value; the virtual machine may answer its calls as it likes. -/
def agentSystem (papiVerCurrent : Option Int32) :
    System ℕ Origin (Option Int32) AgentRequest.Answer where
  program origin := origin.program papiVerCurrent
  MayStart tr origin :=
    match origin with
    | .callback jvmti event => CallbackMayRun tr jvmti event
    | _ => True
  MayAnswer tr event :=
    match event with
    | ⟨.incStartupGuard, old⟩ => old = Int32.ofNat (startups tr)
    | ⟨.threadGetIdMethod, method⟩ => method = lastWritten methodWritten (allActs tr)
    | _ => True

end UbenchAgent
