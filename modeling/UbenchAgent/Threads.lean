import UbenchAgent.Snapshot
import Mathlib.Data.List.Basic

/-!
# The thread map

The map of `threads.c` from Java thread identifiers to native ones: an unordered
array with append, growth by `realloc`, and removal that moves the last entry
into the gap.  Both kinds of identifier are 64-bit integers.  The operations run
under a spinlock, so they are atomic.
-/

namespace UbenchAgent

abbrev ubenchThreadIdInvalid : Int64 := -1

structure ThreadMapEntry where
  nativeId : Int64
  javaId : Int64
  deriving DecidableEq, Repr

/-- `thread_map_t`.  The list `entries` is the whole allocated block, so it holds
stale elements from index `length` on.  The two counters are `int` in the source, and natural
numbers here: fewer than `2 ^ 31` threads are taken to be registered at once. -/
structure ThreadMap where
  length : ℕ
  capacity : ℕ
  entries : List ThreadMapEntry
  deriving DecidableEq, Repr

def ThreadMap.empty : ThreadMap := ⟨0, 0, []⟩

/-- `thread_map_index_of`; the result `-1` is `none`. -/
def threadMapIndexOf (map : ThreadMap) (predicate : ThreadMapEntry → Bool) : Option ℕ :=
  (map.entries.take map.length).findIdx? predicate

def threadMapIndexOfJavaThread (map : ThreadMap) (javaThreadId : Int64) : Option ℕ :=
  threadMapIndexOf map fun entry => entry.javaId == javaThreadId

def threadMapIndexOfNativeThread (map : ThreadMap) (nativeThreadId : Int64) : Option ℕ :=
  threadMapIndexOf map fun entry => entry.nativeId == nativeThreadId

inductive ThreadMapResult
  | ok
  | eexist
  | enomem
  | enoent
  deriving DecidableEq, Repr

/-- `thread_map_ensure_capacity`.  `realloc` is `none` if there is no memory, and
otherwise what the new elements happen to hold. -/
def threadMapEnsureCapacity (map : ThreadMap) (requiredCapacity : ℕ)
    (realloc : Option ThreadMapEntry) : Bool × ThreadMap :=
  if map.capacity < requiredCapacity then
    match realloc with
    | none => (false, map)
    | some fresh => (true, { map with
        entries := map.entries ++ List.replicate (requiredCapacity - map.capacity) fresh
        capacity := requiredCapacity })
  else (true, map)

def threadMapPutJavaThread (map : ThreadMap) (javaThreadId nativeThreadId : Int64)
    (realloc : Option ThreadMapEntry) : ThreadMapResult × ThreadMap :=
  match threadMapIndexOfJavaThread map javaThreadId with
  | some _ => (.eexist, map)
  | none =>
    match threadMapEnsureCapacity map (map.length + 1) realloc with
    | (false, map) => (.enomem, map)
    | (true, map) => (.ok, { map with
        entries := map.entries.set map.length ⟨nativeThreadId, javaThreadId⟩
        length := map.length + 1 })

def threadMapRemoveNativeThread (map : ThreadMap) (nativeThreadId : Int64) :
    ThreadMapResult × ThreadMap :=
  match threadMapIndexOfNativeThread map nativeThreadId with
  | none => (.enoent, map)
  | some index =>
    -- The new length is the index of the last element.
    let length := map.length - 1
    (.ok, { map with
      length := length
      entries := map.entries.set index (map.entries.getD length ⟨0, 0⟩) })

def ubenchThreadsGetNativeId (map : ThreadMap) (javaThreadId : Int64) : Int64 :=
  match threadMapIndexOfJavaThread map javaThreadId with
  | some index => (map.entries.getD index ⟨0, 0⟩).nativeId
  | none => ubenchThreadIdInvalid

/-- The end of the process by `exit`. -/
structure ProcessExit where
  status : Int32
  deriving DecidableEq, Repr

/-- `ubench_register_java_thread`.  The response says whether an entry was added. -/
def ubenchRegisterJavaThread (map : ThreadMap) (javaThreadId nativeThreadId : Int64)
    (realloc : Option ThreadMapEntry) : Except ProcessExit (Bool × ThreadMap) :=
  match threadMapPutJavaThread map javaThreadId nativeThreadId realloc with
  | (.enomem, _) => .error ⟨1⟩
  | (result, map) => .ok (result == .ok, map)

def ubenchUnregisterNativeThread (map : ThreadMap) (nativeThreadId : Int64) :
    Bool × ThreadMap :=
  let (result, map) := threadMapRemoveNativeThread map nativeThreadId
  (result == .ok, map)

/-- `jvmti_callback_on_thread_start`, given the results of `Thread.getId` and of
`ubench_get_current_thread_native_id`. -/
def jvmtiCallbackOnThreadStart (map : ThreadMap) (javaId nativeId : Int64)
    (realloc : Option ThreadMapEntry) : Except ProcessExit ThreadMap := do
  -- Whether the thread was registered goes to the debug log only.
  let (_, map) ← ubenchRegisterJavaThread map javaId nativeId realloc
  return map

/-- `jvmti_callback_on_thread_end`, given the result of
`ubench_get_current_thread_native_id`. -/
def jvmtiCallbackOnThreadEnd (map : ThreadMap) (nativeId : Int64) : ThreadMap :=
  (ubenchUnregisterNativeThread map nativeId).2

def registerJavaThread (map : ThreadMap) (javaThreadId jnativeThreadId : Int64)
    (realloc : Option ThreadMapEntry) : Except ProcessExit (Bool × ThreadMap) :=
  ubenchRegisterJavaThread map javaThreadId jnativeThreadId realloc

/-- `NativeThreads.registerCurrentJavaThread`, given the result of
`ubench_get_current_thread_native_id`. -/
def registerCurrentJavaThread (map : ThreadMap) (javaThreadId currentNativeId : Int64)
    (realloc : Option ThreadMapEntry) : Except ProcessExit (Bool × ThreadMap) :=
  ubenchRegisterJavaThread map javaThreadId currentNativeId realloc

end UbenchAgent
