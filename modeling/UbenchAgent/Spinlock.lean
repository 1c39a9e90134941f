import UbenchAgent.ThreadMap
import UbenchAgent.Lib.CriticalSection

/-!
# The thread map under its spinlock

Any number of threads register, unregister and look up at the same time.  Here every read
and every write of a field or an entry of the shared map is a step of its own, and so is every
turn of the spinlock.
-/

namespace UbenchAgent

open CriticalSection

/-- The compilers that `mylock.h` supports. -/
inductive Compiler
  | msvc
  | gnuc
  deriving DecidableEq, Repr

structure UbenchSpinlock where
  value : Int32
  deriving DecidableEq, Repr

def ubenchSpinlockInitializer : UbenchSpinlock := ⟨0⟩

/-- `InterlockedCompareExchange`, with the old value. -/
def interlockedCompareExchange (value exchange comparand : Int32) : Int32 × Int32 :=
  (value, if value = comparand then exchange else value)

def syncBoolCompareAndSwap (value oldval newval : Int32) : Bool × Int32 :=
  if value = oldval then (true, newval) else (false, value)

/-- A turn of the loop of `ubench_spinlock_lock`: whether it is the last one. -/
def ubenchSpinlockLock (compiler : Compiler) (spinlock : UbenchSpinlock) : Bool × UbenchSpinlock :=
  match compiler with
  | .msvc =>
    let (old, value) := interlockedCompareExchange spinlock.value 1 0
    (old != 1, ⟨value⟩)
  | .gnuc =>
    let (swapped, value) := syncBoolCompareAndSwap spinlock.value 0 1
    (swapped, ⟨value⟩)

def ubenchSpinlockUnlock (spinlock : UbenchSpinlock) : UbenchSpinlock := ⟨spinlock.value &&& 0⟩

def threadMapLock (compiler : Compiler) : Lock UbenchSpinlock where
  free := ubenchSpinlockInitializer
  taken := ⟨1⟩
  tryLock := ubenchSpinlockLock compiler
  unlock := ubenchSpinlockUnlock
  tryLock_free := by cases compiler <;> decide
  tryLock_taken := by cases compiler <;> decide
  unlock_taken := by decide

/-- What a thread asks of the map.  A registration comes with what `realloc` gives. -/
inductive ThreadMapRequest
  | register (javaThreadId nativeThreadId : Int64) (realloc : Option ThreadMapEntry)
  | unregister (nativeThreadId : Int64)
  | getNativeId (javaThreadId : Int64)
  deriving DecidableEq, Repr

inductive ThreadMapAnswer
  | code (result : ThreadMapResult)
  | nativeId (nativeThreadId : Int64)
  deriving DecidableEq, Repr

def ThreadMapRequest.serve (request : ThreadMapRequest) (map : ThreadMap) :
    ThreadMap × ThreadMapAnswer :=
  match request with
  | .register j n realloc =>
    let (result, map) := threadMapPutJavaThread map j n realloc
    (map, .code result)
  | .unregister n =>
    let (result, map) := threadMapRemoveNativeThread map n
    (map, .code result)
  | .getNativeId j => (map, .nativeId (ubenchThreadsGetNativeId map j))

/-- Where a thread is in its critical section, with what it has read of the map. -/
inductive ThreadMapPoint
  | lookup (request : ThreadMapRequest) (i : ℕ)
  | compare (request : ThreadMapRequest) (i : ℕ)
  | ensureCapacity (javaThreadId nativeThreadId : Int64) (realloc : Option ThreadMapEntry)
  | checkCapacity (requiredCapacity : ℕ) (javaThreadId nativeThreadId : Int64)
    (realloc : Option ThreadMapEntry)
  | reallocate (added requiredCapacity : ℕ) (javaThreadId nativeThreadId : Int64)
    (fresh : ThreadMapEntry)
  | setCapacity (requiredCapacity : ℕ) (javaThreadId nativeThreadId : Int64)
  | fill (javaThreadId nativeThreadId : Int64)
  | fillAt (length : ℕ) (javaThreadId nativeThreadId : Int64)
  | grow
  | growFrom (length : ℕ)
  | shrink (index : ℕ)
  | shrinkFrom (length index : ℕ)
  | move (index : ℕ)
  | moveFrom (length index : ℕ)
  | moveTo (index : ℕ) (entry : ThreadMapEntry)
  | read (index : ℕ)
  deriving DecidableEq, Repr

def ThreadMapRequest.predicate : ThreadMapRequest → ThreadMapEntry → Bool
  | .register j _ _, entry => entry.javaId == j
  | .unregister n, entry => entry.nativeId == n
  | .getNativeId j, entry => entry.javaId == j

def ThreadMapRequest.afterLookup (request : ThreadMapRequest) (index : Option ℕ) :
    ThreadMapPoint ⊕ ThreadMapAnswer :=
  match request, index with
  | .register _ _ _, some _ => .inr (.code .eexist)
  | .register j n realloc, none => .inl (.ensureCapacity j n realloc)
  | .unregister _, some index => .inl (.shrink index)
  | .unregister _, none => .inr (.code .enoent)
  | .getNativeId _, some index => .inl (.read index)
  | .getNativeId _, none => .inr (.nativeId ubenchThreadIdInvalid)

/-- One access to the shared map. -/
def ThreadMapPoint.micro (map : ThreadMap) :
    ThreadMapPoint → ThreadMap × (ThreadMapPoint ⊕ ThreadMapAnswer)
  | .lookup request i =>
    if i < map.length then (map, .inl (.compare request i))
    else (map, request.afterLookup none)
  | .compare request i =>
    if request.predicate (map.entries.getD i ⟨0, 0⟩) then (map, request.afterLookup (some i))
    else (map, .inl (.lookup request (i + 1)))
  | .ensureCapacity j n realloc => (map, .inl (.checkCapacity (map.length + 1) j n realloc))
  | .checkCapacity required j n realloc =>
    if map.capacity < required then
      match realloc with
      | none => (map, .inr (.code .enomem))
      | some fresh => (map, .inl (.reallocate (required - map.capacity) required j n fresh))
    else (map, .inl (.fill j n))
  | .reallocate added required j n fresh =>
    ({ map with entries := map.entries ++ List.replicate added fresh },
      .inl (.setCapacity required j n))
  | .setCapacity required j n => ({ map with capacity := required }, .inl (.fill j n))
  | .fill j n => (map, .inl (.fillAt map.length j n))
  | .fillAt length j n =>
    ({ map with entries := map.entries.set length ⟨n, j⟩ }, .inl .grow)
  | .grow => (map, .inl (.growFrom map.length))
  | .growFrom length => ({ map with length := length + 1 }, .inr (.code .ok))
  | .shrink index => (map, .inl (.shrinkFrom map.length index))
  | .shrinkFrom length index => ({ map with length := length - 1 }, .inl (.move index))
  | .move index => (map, .inl (.moveFrom map.length index))
  | .moveFrom length index => (map, .inl (.moveTo index (map.entries.getD length ⟨0, 0⟩)))
  | .moveTo index entry =>
    ({ map with entries := map.entries.set index entry }, .inr (.code .ok))
  | .read index => (map, .inr (.nativeId (map.entries.getD index ⟨0, 0⟩).nativeId))

/-- The critical sections of `ubench_register_java_thread`, `ubench_unregister_native_thread`
and `ubench_threads_get_native_id`. -/
def threadMapRoutine : Routine ThreadMap ThreadMapRequest ThreadMapPoint ThreadMapAnswer where
  start request := .lookup request 0
  micro _ point map := point.micro map

section Alone

variable {map : ThreadMap} {op request : ThreadMapRequest} {y : ThreadMap × ThreadMapAnswer}

def EndsFrom (op : ThreadMapRequest) (map : ThreadMap) (y : ThreadMap × ThreadMapAnswer) :
    ThreadMapPoint ⊕ ThreadMapAnswer → Prop
  | .inl point => threadMapRoutine.EndsIn op point map y
  | .inr answer => y = (map, answer)

theorem endsIn_iff {point : ThreadMapPoint} :
    threadMapRoutine.EndsIn op point map y ↔ EndsFrom op (point.micro map).1 y (point.micro map).2 := by
  cases hnext : (point.micro map).2 with
  | inl point' => exact Routine.EndsIn.continues (Prod.ext rfl hnext)
  | inr answer => exact Routine.EndsIn.finishes (Prod.ext rfl hnext)

theorem endsIn_lookup (hblock : map.length ≤ map.entries.length) (i : ℕ) :
    threadMapRoutine.EndsIn op (.lookup request i) map y ↔
      EndsFrom op map y (request.afterLookup
        ((((map.entries.take map.length).drop i).findIdx? request.predicate).map (· + i))) := by
  induction hrest : map.length - i generalizing i with
  | zero =>
    have hi : map.length ≤ i := by omega
    rw [List.drop_of_length_le (by rw [List.length_take]; omega), List.findIdx?_nil, Option.map_none,
      endsIn_iff, ThreadMapPoint.micro, if_neg (by omega)]
  | succ k ih =>
    have hi : i < map.length := by omega
    have hvalid : i < (map.entries.take map.length).length := by
      rw [List.length_take]
      omega
    have hget : (map.entries.take map.length)[i] = map.entries.getD i ⟨0, 0⟩ := by
      rw [List.getElem_take, List.getD_eq_getElem?_getD, List.getElem?_eq_getElem (by omega)]
      rfl
    rw [List.drop_eq_getElem_cons hvalid, List.findIdx?_cons, hget,
      endsIn_iff, ThreadMapPoint.micro, if_pos hi]
    change threadMapRoutine.EndsIn op (.compare request i) map y ↔ _
    rw [endsIn_iff, ThreadMapPoint.micro]
    split_ifs with hfound
    · rw [Option.map_some, Nat.zero_add]
    · rw [Option.map_map]
      change threadMapRoutine.EndsIn op (.lookup request (i + 1)) map y ↔ _
      rw [ih (i + 1) (by omega)]
      have hshift : ((· + i) ∘ fun j : ℕ => j + 1) = (· + (i + 1)) := by
        funext j
        simp only [Function.comp_apply]
        omega
      rw [hshift]

/-- Alone, a critical section does what the operation on the map does. -/
theorem endsIn_serve (hinv : map.Inv) (request : ThreadMapRequest) :
    threadMapRoutine.EndsIn request (threadMapRoutine.start request) map (request.serve map) := by
  have hblock : map.length ≤ map.entries.length := by
    rw [hinv.block]
    exact hinv.length_le
  change threadMapRoutine.EndsIn request (.lookup request 0) map _
  rw [endsIn_lookup hblock, List.drop_zero]
  have hzero : ∀ index : Option ℕ, index.map (· + 0) = index := by
    intro index
    cases index <;> rfl
  rw [hzero]
  cases request with
  | register j n realloc =>
    rw [ThreadMapRequest.serve, threadMapPutJavaThread]
    change EndsFrom _ _ _ (ThreadMapRequest.afterLookup _ (threadMapIndexOfJavaThread map j))
    cases threadMapIndexOfJavaThread map j with
    | some i => rfl
    | none =>
      refine endsIn_iff.mpr ?_
      change threadMapRoutine.EndsIn _ (.checkCapacity (map.length + 1) j n realloc) map _
      unfold threadMapEnsureCapacity
      split_ifs with hcap
      · cases realloc with
        | none => exact (Routine.EndsIn.finishes (if_pos hcap)).mpr rfl
        | some fresh =>
          refine (Routine.EndsIn.continues (if_pos hcap)).mpr ?_
          -- The allocation, the capacity, the entry and the length.
          refine endsIn_iff.mpr (endsIn_iff.mpr ?_)
          exact endsIn_iff.mpr (endsIn_iff.mpr (endsIn_iff.mpr (endsIn_iff.mpr rfl)))
      · refine (Routine.EndsIn.continues (if_neg hcap)).mpr ?_
        exact endsIn_iff.mpr (endsIn_iff.mpr (endsIn_iff.mpr (endsIn_iff.mpr rfl)))
  | unregister n =>
    rw [ThreadMapRequest.serve, threadMapRemoveNativeThread]
    change EndsFrom _ _ _ (ThreadMapRequest.afterLookup _ (threadMapIndexOfNativeThread map n))
    cases threadMapIndexOfNativeThread map n with
    | none => rfl
    | some i =>
      refine endsIn_iff.mpr (endsIn_iff.mpr ?_)
      exact endsIn_iff.mpr (endsIn_iff.mpr (endsIn_iff.mpr rfl))
  | getNativeId j =>
    rw [ThreadMapRequest.serve, ubenchThreadsGetNativeId]
    change EndsFrom _ _ _ (ThreadMapRequest.afterLookup _ (threadMapIndexOfJavaThread map j))
    cases threadMapIndexOfJavaThread map j with
    | none => rfl
    | some i =>
      exact endsIn_iff.mpr rfl

theorem threadMapRoutine_implements :
    threadMapRoutine.Implements ThreadMapRequest.serve ThreadMap.Inv := by
  refine ⟨fun request map hinv => endsIn_serve hinv request, fun request map hinv => ?_⟩
  cases request with
  | register j n realloc => exact hinv.put
  | unregister n => exact hinv.remove
  | getNativeId j => exact hinv

end Alone

abbrev ThreadWorld (θ : Type) : Type :=
  World θ UbenchSpinlock ThreadMap ThreadMapRequest ThreadMapPoint ThreadMapAnswer

/-- The steps of the threads from the start of the process on.  The process may end after any of
them, as it does when a registration finds no memory. -/
def threadSteps (compiler : Compiler) {θ : Type} [DecidableEq θ]
    (as : List (Action θ ThreadMapRequest)) :
    Except Unit (ThreadWorld θ ×
      List (Action θ ThreadMapRequest × Option (Event θ ThreadMapRequest ThreadMapAnswer))) :=
  run (World.step (threadMapLock compiler) threadMapRoutine)
    (World.initial (threadMapLock compiler) ThreadMap.empty) as

section Threads

variable {compiler : Compiler} {θ : Type} [DecidableEq θ] {as : List (Action θ ThreadMapRequest)}
  {w : ThreadWorld θ}
  {tr : List (Action θ ThreadMapRequest × Option (Event θ ThreadMapRequest ThreadMapAnswer))}

/-- However the accesses of the threads interleave, the threads see what they would see if each
request were served at once.  One thread at most is in a critical section, and while none is, the
entries have distinct Java identifiers and lie in the allocated block. -/
theorem threadMap_linearizable (h : threadSteps compiler as = .ok (w, tr)) :
    Linearizable ThreadMapRequest.serve .empty ((events tr).filter Event.visible) ∧
      (∀ t t', (w.phase t).Holds → (w.phase t').Holds → t = t') ∧
      (w.word = ubenchSpinlockInitializer → w.shared.Inv) := by
  refine ⟨linearizable threadMapRoutine_implements .empty h,
    fun t t' => mutual_exclusion threadMapRoutine_implements .empty h, fun hfree => ?_⟩
  obtain ⟨map, hinv, -, hshared⟩ := linearizes threadMapRoutine_implements .empty h
  rw [hshared hfree]
  exact hinv

/-- Two threads register the same Java thread at the same time.  The second of them spins while
the first is in its critical section. -/
theorem threadMap_linearizable_two : ∃ (w : ThreadWorld Bool) (tr : _),
    threadSteps .gnuc ([.call true (.register 1 5 (some ⟨0, 0⟩)), .advance true,
      .call false (.register 1 6 (some ⟨0, 0⟩)), .advance false] ++
      List.replicate 9 (.advance true) ++ [.advance false, .advance true, .advance false,
      .advance true] ++ List.replicate 4 (.advance false)) = .ok (w, tr) ∧
      (events tr).filter Event.visible = [.call true (.register 1 5 (some ⟨0, 0⟩)),
        .call false (.register 1 6 (some ⟨0, 0⟩)), .ret true (.code .ok),
        .ret false (.code .eexist)] ∧
      Linearizable ThreadMapRequest.serve .empty ((events tr).filter Event.visible) := by
  obtain ⟨w, tr, h, hevents⟩ : ∃ (w : ThreadWorld Bool) (tr : _),
      threadSteps .gnuc ([.call true (.register 1 5 (some ⟨0, 0⟩)), .advance true,
        .call false (.register 1 6 (some ⟨0, 0⟩)), .advance false] ++
        List.replicate 9 (.advance true) ++ [.advance false, .advance true, .advance false,
        .advance true] ++ List.replicate 4 (.advance false)) = .ok (w, tr) ∧
        (events tr).filter Event.visible = [.call true (.register 1 5 (some ⟨0, 0⟩)),
          .call false (.register 1 6 (some ⟨0, 0⟩)), .ret true (.code .ok),
          .ret false (.code .eexist)] :=
    ⟨_, _, rfl, rfl⟩
  exact ⟨w, tr, h, hevents, (threadMap_linearizable h).1⟩

/-- No request is stuck: from every state of every run a thread comes to the end of its request,
at most after the one thread in a critical section has gone on alone to the end of its own. -/
theorem threadMap_completes (h : threadSteps compiler as = .ok (w, tr)) (t : θ) :
    w.Completes (threadMapLock compiler) threadMapRoutine t ∨
      ∃ owner n w' tr', (w.phase owner).Holds ∧
        run (World.step (threadMapLock compiler) threadMapRoutine) w
          (List.replicate n (.advance owner)) = .ok (w', tr') ∧
        w'.Completes (threadMapLock compiler) threadMapRoutine t :=
  completes threadMapRoutine_implements .empty h t

/-- One thread is in its critical section and the other one spins. -/
theorem threadMap_completes_spinning : ∃ (w : ThreadWorld Bool) (tr : _),
    threadSteps .msvc [.call true (.unregister 5), .call false (.getNativeId 1), .advance true,
      .advance false] = .ok (w, tr) ∧
      (w.Completes (threadMapLock .msvc) threadMapRoutine false ∨
        ∃ owner n w' tr', (w.phase owner).Holds ∧
          run (World.step (threadMapLock .msvc) threadMapRoutine) w
            (List.replicate n (.advance owner)) = .ok (w', tr') ∧
          w'.Completes (threadMapLock .msvc) threadMapRoutine false) := by
  obtain ⟨w, tr, h⟩ : ∃ (w : ThreadWorld Bool) (tr : _),
      threadSteps .msvc [.call true (.unregister 5), .call false (.getNativeId 1), .advance true,
        .advance false] = .ok (w, tr) :=
    ⟨_, _, rfl⟩
  exact ⟨w, tr, h, threadMap_completes h false⟩

end Threads

end UbenchAgent
