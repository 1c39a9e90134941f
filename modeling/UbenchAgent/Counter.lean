import Mathlib.Data.Int.ModEq
import Mathlib.Data.List.Count
import Mathlib.Data.List.Induction

/-!
# Counting compilations

Threads of the virtual machine count compiled methods in two counters, one after the other,
while other threads read the first counter and set it to zero.
-/

namespace UbenchAgent

/-- `ubench_atomic_int_inc`: the new value, and the old one, which is returned. -/
def ubenchAtomicIntInc (atomic : Int32) : Int32 × Int32 := (atomic + 1, atomic)

def ubenchAtomicIntReset (atomic : Int32) : Int32 × Int32 := (atomic &&& 0, atomic)

inductive CallbackState
  | compilation
  | compilationTotal
  | returned
  deriving DecidableEq, Repr

/-- The counters, the callbacks so far, and what `getCompilationCountAndReset` has returned so
far. -/
structure CounterState where
  counterCompilation : Int32
  counterCompilationTotal : Int32
  counterGcTotal : Int32
  callbacks : List CallbackState
  counts : List Int32
  deriving DecidableEq, Repr

inductive CounterAction
  /-- The virtual machine calls `jvmti_callback_on_compiled_method_load`. -/
  | compiledMethodLoad
  /-- The callback with this number goes on. -/
  | callback (i : ℕ)
  | garbageCollectionFinish
  | getCompilationCountAndReset
  deriving DecidableEq, Repr

namespace CounterState

def initial : CounterState := ⟨0, 0, 0, [], []⟩

/-- The next statement of `jvmti_callback_on_compiled_method_load`.  A callback that has
returned does nothing any more. -/
def callbackStep (s : CounterState) (i : ℕ) : CounterState :=
  match s.callbacks[i]? with
  | some .compilation => { s with
      counterCompilation := (ubenchAtomicIntInc s.counterCompilation).1
      callbacks := s.callbacks.set i .compilationTotal }
  | some .compilationTotal => { s with
      counterCompilationTotal := (ubenchAtomicIntInc s.counterCompilationTotal).1
      callbacks := s.callbacks.set i .returned }
  | some .returned => s
  | none => s

def step (s : CounterState) : CounterAction → CounterState
  | .compiledMethodLoad => { s with callbacks := s.callbacks ++ [.compilation] }
  | .callback i => s.callbackStep i
  | .garbageCollectionFinish =>
    { s with counterGcTotal := (ubenchAtomicIntInc s.counterGcTotal).1 }
  | .getCompilationCountAndReset => { s with
      counterCompilation := (ubenchAtomicIntReset s.counterCompilation).1
      counts := s.counts ++ [(ubenchAtomicIntReset s.counterCompilation).2] }

def run (actions : List CounterAction) : CounterState := actions.foldl step initial

end CounterState

def CounterState.returnedSum (s : CounterState) : ℤ := (s.counts.map Int32.toInt).sum

/-- No compilation is lost or counted twice. -/
structure CounterState.Conserves (s : CounterState) : Prop where
  counts : s.returnedSum + s.counterCompilation.toInt ≡
    s.counterCompilationTotal.toInt + s.callbacks.count .compilationTotal [ZMOD 2 ^ 32]
  idle : (∀ callback ∈ s.callbacks, callback = .returned) →
    s.returnedSum + s.counterCompilation.toInt ≡ s.callbacks.length [ZMOD 2 ^ 32]

structure CounterState.Inv (s : CounterState) : Prop where
  compilation : s.returnedSum + s.counterCompilation.toInt ≡
    s.callbacks.count .compilationTotal + s.callbacks.count .returned [ZMOD 2 ^ 32]
  total : s.counterCompilationTotal.toInt ≡ s.callbacks.count .returned [ZMOD 2 ^ 32]

section Conservation

variable {s : CounterState}

theorem toInt_inc (atomic : Int32) :
    (ubenchAtomicIntInc atomic).1.toInt ≡ atomic.toInt + 1 [ZMOD 2 ^ 32] := by
  rw [ubenchAtomicIntInc, Int32.toInt_add, Int32.toInt_one]
  exact Int.bmod_emod

theorem toInt_reset (atomic : Int32) : (ubenchAtomicIntReset atomic).1.toInt = 0 := by
  rw [ubenchAtomicIntReset, Int32.and_zero, Int32.toInt_zero]

theorem count_set {callbacks : List CallbackState} {i : ℕ} {now next : CallbackState}
    (h : callbacks[i]? = some now) (c : CallbackState) :
    (callbacks.set i next).count c + [now].count c = callbacks.count c + [next].count c := by
  obtain ⟨hi, hnow⟩ := List.getElem?_eq_some_iff.mp h
  have hsplit : callbacks = callbacks.take i ++ now :: callbacks.drop (i + 1) := by
    rw [← hnow, ← List.drop_eq_getElem_cons hi, List.take_append_drop]
  rw [List.set_eq_take_append_cons_drop, if_pos hi]
  conv_rhs => rw [hsplit]
  simp only [List.count_append, List.count_cons, List.count_nil]
  omega

theorem CounterState.Inv.callbackStep (h : s.Inv) (i : ℕ) : (s.callbackStep i).Inv := by
  unfold CounterState.callbackStep
  split
  · next hi =>
    have hbetween : (s.callbacks.set i .compilationTotal).count .compilationTotal =
        s.callbacks.count .compilationTotal + 1 := count_set hi .compilationTotal
    have hreturned : (s.callbacks.set i .compilationTotal).count .returned =
        s.callbacks.count .returned := count_set hi .returned
    constructor
    · dsimp only [CounterState.returnedSum]
      rw [hbetween, hreturned]
      calc s.returnedSum + (ubenchAtomicIntInc s.counterCompilation).1.toInt
          ≡ s.returnedSum + (s.counterCompilation.toInt + 1) [ZMOD 2 ^ 32] :=
            (toInt_inc _).add_left _
        _ = s.returnedSum + s.counterCompilation.toInt + 1 := by omega
        _ ≡ s.callbacks.count .compilationTotal + s.callbacks.count .returned + 1
            [ZMOD 2 ^ 32] := h.compilation.add_right 1
        _ = (s.callbacks.count .compilationTotal + 1 : ℕ) + s.callbacks.count .returned := by
            omega
    · dsimp only
      rw [hreturned]
      exact h.total
  · next hi =>
    have hbetween : (s.callbacks.set i .returned).count .compilationTotal + 1 =
        s.callbacks.count .compilationTotal := count_set hi .compilationTotal
    have hreturned : (s.callbacks.set i .returned).count .returned =
        s.callbacks.count .returned + 1 := count_set hi .returned
    constructor
    · -- The callback is counted as one that has returned.
      have hsum : (((s.callbacks.set i .returned).count .compilationTotal : ℕ) : ℤ) +
          ((s.callbacks.set i .returned).count .returned : ℕ) =
          s.callbacks.count .compilationTotal + s.callbacks.count .returned := by omega
      dsimp only [CounterState.returnedSum]
      rw [hsum]
      exact h.compilation
    · dsimp only
      rw [hreturned]
      calc (ubenchAtomicIntInc s.counterCompilationTotal).1.toInt
          ≡ s.counterCompilationTotal.toInt + 1 [ZMOD 2 ^ 32] := toInt_inc _
        _ ≡ s.callbacks.count .returned + 1 [ZMOD 2 ^ 32] := h.total.add_right 1
  · exact h
  · exact h

theorem CounterState.Inv.step (h : s.Inv) (action : CounterAction) : (s.step action).Inv := by
  cases action with
  | compiledMethodLoad =>
    have hcount : ∀ c ≠ CallbackState.compilation,
        (s.callbacks ++ [CallbackState.compilation]).count c = s.callbacks.count c := by
      intro c hc
      rw [List.count_append, List.count_singleton, beq_false_of_ne hc.symm]
      rfl
    constructor
    · dsimp only [CounterState.step, CounterState.returnedSum]
      rw [hcount .compilationTotal (by decide), hcount .returned (by decide)]
      exact h.compilation
    · dsimp only [CounterState.step]
      rw [hcount .returned (by decide)]
      exact h.total
  | callback i => exact h.callbackStep i
  | garbageCollectionFinish => exact ⟨h.compilation, h.total⟩
  | getCompilationCountAndReset =>
    refine ⟨?_, h.total⟩
    -- What was in the counter is now in the sum.
    have hsum : (s.step .getCompilationCountAndReset).returnedSum =
        s.returnedSum + s.counterCompilation.toInt := by
      dsimp only [CounterState.step, CounterState.returnedSum, ubenchAtomicIntReset]
      rw [List.map_append, List.sum_append, List.map_singleton, List.sum_singleton]
    rw [hsum]
    dsimp only [CounterState.step]
    rw [toInt_reset, add_zero]
    exact h.compilation

theorem CounterState.run_inv (actions : List CounterAction) : (run actions).Inv := by
  induction actions using List.reverseRecOn with
  | nil => exact ⟨rfl, rfl⟩
  | append_singleton actions action ih =>
    rw [run, List.foldl_append]
    exact ih.step action

theorem count_of_idle {callbacks : List CallbackState}
    (h : ∀ callback ∈ callbacks, callback = .returned) :
    callbacks.count .compilationTotal = 0 ∧ callbacks.count .returned = callbacks.length := by
  constructor
  · apply List.count_eq_zero.mpr
    intro hmem
    cases h _ hmem
  · apply List.count_eq_length.mpr
    intro callback hmem
    exact (h callback hmem).symm

/-- If all callbacks have returned, each of them has been counted once. -/
theorem CounterState.Inv.idle (h : s.Inv)
    (hidle : ∀ callback ∈ s.callbacks, callback = .returned) :
    s.returnedSum + s.counterCompilation.toInt ≡ s.callbacks.length [ZMOD 2 ^ 32] := by
  obtain ⟨hbetween, hreturned⟩ := count_of_idle hidle
  have hsum := h.compilation
  rw [hbetween, hreturned, Nat.cast_zero, zero_add] at hsum
  exact hsum

/-- No compilation is lost or counted twice, in any interleaving. -/
theorem counters_conserve (actions : List CounterAction) : (CounterState.run actions).Conserves := by
  have h := CounterState.run_inv actions
  constructor
  · calc _ ≡ _ [ZMOD 2 ^ 32] := h.compilation
      _ = (CounterState.run actions).callbacks.count .returned +
          (CounterState.run actions).callbacks.count .compilationTotal := add_comm _ _
      _ ≡ _ [ZMOD 2 ^ 32] := h.total.symm.add_right _
  · exact h.idle

def CallbackState.next : CallbackState → CallbackState
  | .compilation => .compilationTotal
  | .compilationTotal => .returned
  | .returned => .returned

theorem callbacks_callbackStep (s : CounterState) (i : ℕ) :
    (s.callbackStep i).callbacks = s.callbacks.modify i CallbackState.next := by
  apply List.ext_getElem?
  intro j
  rw [List.getElem?_modify]
  unfold CounterState.callbackStep
  by_cases hij : i = j
  · subst hij
    split
    · next hi => simp [hi, List.getElem?_set_self' , CallbackState.next]
    · next hi => simp [hi, List.getElem?_set_self', CallbackState.next]
    · next hi => simp [hi, CallbackState.next]
    · next hi => simp [hi]
  · split <;> simp [hij]

def finishing (n : ℕ) : List CounterAction :=
  (List.range n).flatMap fun i => [.callback i, .callback i]

theorem callbacks_finishing (s : CounterState) (n j : ℕ) :
    ((finishing n).foldl CounterState.step s).callbacks[j]? =
      s.callbacks[j]?.map fun callback => if j < n then .returned else callback := by
  induction n with
  | zero => simp [finishing]
  | succ n ih =>
    rw [finishing, List.range_succ, List.flatMap_append, List.foldl_append]
    change ((((finishing n).foldl CounterState.step s).callbackStep n).callbackStep n).callbacks[j]? =
      _
    rw [callbacks_callbackStep, callbacks_callbackStep, List.getElem?_modify, List.getElem?_modify,
      ih]
    cases s.callbacks[j]? with
    | none => rfl
    | some callback =>
      by_cases hj : n = j
      · subst hj
        cases callback <;> simp [CallbackState.next]
      · have hlt : j < n + 1 ↔ j < n := by omega
        simp [hj, hlt]

/-- From every state the callbacks can return, and then each of them has been counted once. -/
theorem counters_settle (actions : List CounterAction) : ∃ more,
    (CounterState.run (actions ++ more)).callbacks.length =
        (CounterState.run actions).callbacks.length ∧
      (∀ callback ∈ (CounterState.run (actions ++ more)).callbacks, callback = .returned) ∧
      (CounterState.run (actions ++ more)).returnedSum +
          (CounterState.run (actions ++ more)).counterCompilation.toInt ≡
        (CounterState.run actions).callbacks.length [ZMOD 2 ^ 32] := by
  have hstate : ∀ j : ℕ, (CounterState.run (actions ++
        finishing (CounterState.run actions).callbacks.length)).callbacks[j]? =
      (CounterState.run actions).callbacks[j]?.map fun _ => CallbackState.returned := by
    intro j
    rw [CounterState.run, List.foldl_append]
    refine (callbacks_finishing (CounterState.run actions) _ j).trans ?_
    by_cases hj : j < (CounterState.run actions).callbacks.length
    · simp only [hj, if_true]
    · rw [List.getElem?_eq_none (Nat.not_lt.mp hj)]
      rfl
  have hcallbacks : (CounterState.run (actions ++
        finishing (CounterState.run actions).callbacks.length)).callbacks =
      (CounterState.run actions).callbacks.map fun _ => CallbackState.returned := by
    apply List.ext_getElem?
    intro j
    rw [hstate, List.getElem?_map]
  have hlength := congrArg List.length hcallbacks
  rw [List.length_map] at hlength
  have hidle : ∀ callback ∈ (CounterState.run (actions ++
      finishing (CounterState.run actions).callbacks.length)).callbacks, callback = .returned := by
    rw [hcallbacks, List.forall_mem_map]
    exact fun _ _ => rfl
  have hsum := (CounterState.run_inv
    (actions ++ finishing (CounterState.run actions).callbacks.length)).idle hidle
  rw [hlength] at hsum
  exact ⟨_, hlength, hidle, hsum⟩

/-- Two callbacks, of which one is between its increments while the count is taken. -/
example : (CounterState.run [.compiledMethodLoad, .compiledMethodLoad, .callback 1,
    .getCompilationCountAndReset, .callback 0, .callback 1]) =
    ⟨1, 1, 0, [.compilationTotal, .returned], [1]⟩ := by decide

end Conservation

end UbenchAgent
