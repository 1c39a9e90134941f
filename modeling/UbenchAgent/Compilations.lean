import UbenchAgent.Counter
import UbenchAgent.Readings

/-!
# Compilations in the results

The virtual machine counts compilations in its own threads while measurements read the total.
A row of `JVM:compilations` shows how many were counted between its two calls.
-/

namespace UbenchAgent

open Pairing

/-- An atomic step of the counters, or a call on an event set. -/
inductive VmAction
  | counter (action : CounterAction)
  | call (call : SetCall)

def SetCall.withCompilations (total : Int32) : SetCall → SetCall
  | .start r => .start { r with compilationTotal := total }
  | .stop r => .stop { r with compilationTotal := total }
  | .sample userId r => .sample userId { r with compilationTotal := total }
  | .reset => .reset

def measuredCalls : CounterState → List VmAction → List (CounterState × SetCall)
  | _, [] => []
  | s, .counter action :: actions => measuredCalls (s.step action) actions
  | s, .call call :: actions =>
    (s, call.withCompilations s.counterCompilationTotal) :: measuredCalls s actions

def endState : CounterState → List VmAction → CounterState
  | s, [] => s
  | s, .counter action :: actions => endState (s.step action) actions
  | s, .call _ :: actions => endState s actions

/-- The compilations that have been counted in full. -/
def CounterState.counted (s : CounterState) : ℕ := s.callbacks.count .returned

section Counters

variable {s : CounterState}

theorem counted_le_length (s : CounterState) : s.counted ≤ s.callbacks.length :=
  List.count_le_length

theorem callbacks_length_le_step (s : CounterState) (action : CounterAction) :
    s.callbacks.length ≤ (s.step action).callbacks.length := by
  cases action with
  | compiledMethodLoad => simp [CounterState.step]
  | callback i =>
    apply Nat.le_of_eq
    rw [CounterState.step, CounterState.callbackStep]
    split <;> simp
  | garbageCollectionFinish => exact Nat.le_refl _
  | getCompilationCountAndReset => exact Nat.le_refl _

theorem counted_le_step (s : CounterState) (action : CounterAction) :
    s.counted ≤ (s.step action).counted := by
  cases action with
  | compiledMethodLoad => simp [CounterState.counted, CounterState.step]
  | callback i =>
    rw [CounterState.counted, CounterState.step, CounterState.callbackStep]
    split
    · next hi =>
      have hcount : (s.callbacks.set i .compilationTotal).count .returned =
          s.callbacks.count .returned := count_set hi .returned
      exact Nat.le_of_eq hcount.symm
    · next hi =>
      have hcount : (s.callbacks.set i .returned).count .returned =
          s.callbacks.count .returned + 1 := count_set hi .returned
      dsimp only [CounterState.counted]
      omega
    · exact Nat.le_refl _
    · exact Nat.le_refl _
  | garbageCollectionFinish => exact Nat.le_refl _
  | getCompilationCountAndReset => exact Nat.le_refl _

/-- As long as it does not overflow, the total is the number of counted compilations. -/
theorem CounterState.Inv.total_eq (h : s.Inv) (hfits : s.callbacks.length < 2 ^ 31) :
    s.counterCompilationTotal.toInt = s.counted := by
  have htotal := h.total
  have hle := counted_le_length s
  have hlo := s.counterCompilationTotal.le_toInt
  have hhi := s.counterCompilationTotal.toInt_lt
  rw [Int.ModEq] at htotal
  rw [CounterState.counted] at hle ⊢
  omega

end Counters

/-- What holds of each call among the callbacks: the counters are as they were at some moment
between `s` and `s'`, and the call has read their total. -/
structure MadeBetween (s s' : CounterState) (x : CounterState × SetCall) : Prop where
  inv : x.1.Inv
  after : s.counted ≤ x.1.counted
  before : x.1.counted ≤ s'.counted
  length : x.1.callbacks.length ≤ s'.callbacks.length
  read : ∀ r, x.2.read = some r → r.compilationTotal = x.1.counterCompilationTotal

section Made

variable {s : CounterState}

theorem read_withCompilations {total : Int32} {call : SetCall} {r : Reading}
    (h : (call.withCompilations total).read = some r) : r.compilationTotal = total := by
  cases call <;> cases h <;> rfl

theorem counted_le_endState (s : CounterState) (actions : List VmAction) :
    s.counted ≤ (endState s actions).counted := by
  induction actions generalizing s with
  | nil => exact Nat.le_refl _
  | cons action actions ih =>
    cases action with
    | counter action => exact (counted_le_step s action).trans (ih (s.step action))
    | call call => exact ih s

theorem callbacks_length_le_endState (s : CounterState) (actions : List VmAction) :
    s.callbacks.length ≤ (endState s actions).callbacks.length := by
  induction actions generalizing s with
  | nil => exact Nat.le_refl _
  | cons action actions ih =>
    cases action with
    | counter action => exact (callbacks_length_le_step s action).trans (ih (s.step action))
    | call call => exact ih s

theorem madeBetween {actions : List VmAction} (hinv : s.Inv) {x : CounterState × SetCall}
    (hx : x ∈ measuredCalls s actions) : MadeBetween s (endState s actions) x := by
  induction actions generalizing s with
  | nil => cases hx
  | cons action actions ih =>
    cases action with
    | counter action =>
      have hrest := ih (hinv.step action) hx
      exact ⟨hrest.inv, (counted_le_step s action).trans hrest.after, hrest.before, hrest.length,
        hrest.read⟩
    | call call =>
      rcases List.mem_cons.mp hx with rfl | hx
      · exact ⟨hinv, Nat.le_refl _, counted_le_endState s actions,
          callbacks_length_le_endState s actions, fun r hr => read_withCompilations hr⟩
      · exact ih hinv hx

theorem measuredCalls_pairwise {actions : List VmAction} (hinv : s.Inv) :
    (measuredCalls s actions).Pairwise fun x y => x.1.counted ≤ y.1.counted := by
  induction actions generalizing s with
  | nil => exact .nil
  | cons action actions ih =>
    cases action with
    | counter action => exact ih (hinv.step action)
    | call call =>
      refine List.pairwise_cons.mpr ⟨?_, ih hinv⟩
      intro y hy
      exact (madeBetween hinv hy).after

/-- What a call reads as the number of compilations is what was counted before it. -/
theorem MadeBetween.reading {s' : CounterState} {x : CounterState × SetCall}
    (h : MadeBetween s s' x) (hfits : s'.callbacks.length < 2 ^ 31) {r : Reading}
    (hr : x.2.read = some r) : (Quantity.compilations.reading r).toInt = x.1.counted := by
  have hlength := h.length
  rw [Quantity.reading, h.read r hr, Int32.toInt_toInt64]
  exact h.inv.total_eq (by omega)

end Made

/-- What the column of compilations of an event set with this room shows after the calls: for each
START among the calls that the log holds, and the END that belongs to it, the compilations that
were counted in between; and all of them together no more than were counted at all. -/
structure CountsCompilations (room : ℕ) (s s' : CounterState) (calls : List (CounterState × SetCall))
    (column : List Int64) : Prop where
  rows : ∃ held, RewindLog.run room [] (calls.map fun x => x.2.act x) = some held ∧
    column.map Int64.toInt =
      (pairedLabels held).map fun p => (p.2.1.counted : ℤ) - p.1.1.counted
  nonneg : ∀ v ∈ column, 0 ≤ v
  sum : (column.map Int64.toInt).sum ≤ s'.counted - s.counted

/-- For every run, and however the callbacks of the virtual machine come between the calls on an
event set. -/
theorem compilations_counted {hasPapi : Bool} {calls : List Call} {a : Agent}
    {tr : List (Call × Response)} (hrun : run (Agent.step hasPapi) .initial calls = .ok (a, tr))
    {id : ℤ} {l : Lifetime} (hlife : histories tr id = some l) {j : ℕ} {name : String}
    (hname : l.args.jeventNames[j]? = some name) (hq : quantityOf name = some .compilations)
    {before : List CounterAction} {actions : List VmAction}
    (hmade : l.calls = (measuredCalls (CounterState.run before) actions).map Prod.snd)
    (hfits : (endState (CounterState.run before) actions).callbacks.length < 2 ^ 31) :
    ∃ results, getResults a id = .ok (.ok results) ∧
      CountsCompilations l.args.size (CounterState.run before)
        (endState (CounterState.run before) actions)
        (measuredCalls (CounterState.run before) actions) (results.column j) := by
  have hinv := CounterState.run_inv before
  obtain ⟨config, hc, config₀, hfresh, hfold⟩ := (tracks_run hrun).made hlife
  rw [hmade] at hfold
  obtain ⟨held, results, hresults, hcolumn⟩ := hfresh.columnOfCalls hfold hname hq
  have hsub : held.Sublist (measuredCalls (CounterState.run before) actions) :=
    (held_sublist hcolumn.log).trans List.filter_sublist
  have hbetween : ∀ x ∈ held, MadeBetween (CounterState.run before)
      (endState (CounterState.run before) actions) x := fun x hx =>
    madeBetween hinv (hsub.subset hx)
  have hvalue : ∀ x ∈ held, (x.2.value .compilations).toInt = x.1.counted := by
    intro x hx
    obtain ⟨r, hr⟩ := read_of_ne_reset (held_reads hcolumn.log x hx)
    rw [value_of_read hr]
    exact (hbetween x hx).reading hfits hr
  have hmono : held.Pairwise fun x y =>
      (x.2.value .compilations).toInt ≤ (y.2.value .compilations).toInt := by
    apply ((measuredCalls_pairwise hinv).sublist hsub).imp_of_mem
    intro x y hx hy hxy
    rw [hvalue x hx, hvalue y hy]
    exact Int.ofNat_le.mpr hxy
  have hlo : ∀ x ∈ held, ((CounterState.run before).counted : ℤ) ≤
      (x.2.value .compilations).toInt := by
    intro x hx
    rw [hvalue x hx]
    exact Int.ofNat_le.mpr (hbetween x hx).after
  have hhi : ∀ x ∈ held, (x.2.value .compilations).toInt ≤
      ((endState (CounterState.run before) actions).counted : ℤ) := by
    intro x hx
    rw [hvalue x hx]
    exact Int.ofNat_le.mpr (hbetween x hx).before
  have hspan : ((endState (CounterState.run before) actions).counted : ℤ) -
      (CounterState.run before).counted < 2 ^ 63 := by
    have hle := counted_le_length (endState (CounterState.run before) actions)
    omega
  have hdurations := hcolumn.durations hmono hlo hhi
    (Int.ofNat_le.mpr (counted_le_endState _ actions)) hspan
  refine ⟨results, getResults_of_valid hc hresults, ⟨held, hcolumn.log, ?_⟩, hdurations.nonneg,
    hdurations.sum⟩
  rw [hdurations.exact]
  refine List.map_congr_left fun p hp => ?_
  obtain ⟨hstart, hstop, -⟩ := mem_matched hp
  rw [hvalue p.1 (hstart.resolve_left (Option.some_ne_none _).symm).1, hvalue p.2 hstop]

/-- Two compilations between `start` and `stop`, of which one is counted in full. -/
def compiledBetween : List VmAction :=
  [.call (.start .zero), .counter .compiledMethodLoad, .counter .compiledMethodLoad,
    .counter (.callback 1), .counter (.callback 0), .counter (.callback 1), .call (.stop .zero)]

/-- The column shows that one, beside an event of PAPI and after a call that throws. -/
theorem compilations_counted_one : ∃ a tr results,
    run (Agent.step true) .initial
      [.createEventSet ⟨1, ["PAPI:A", "JVM:compilations"], []⟩ .success, .start [(0, .zero)],
        .stop [(0, { Reading.zero with compilationTotal := 1 }), (7, .zero)]] = .ok (a, tr) ∧
    getResults a 0 = .ok (.ok results) ∧ results.column 1 = [1] := by
  obtain ⟨a, tr, hrun, hlife⟩ : ∃ a tr,
      run (Agent.step true) .initial
        [.createEventSet ⟨1, ["PAPI:A", "JVM:compilations"], []⟩ .success, .start [(0, .zero)],
          .stop [(0, { Reading.zero with compilationTotal := 1 }), (7, .zero)]] = .ok (a, tr) ∧
      histories tr 0 = some ⟨⟨1, ["PAPI:A", "JVM:compilations"], []⟩,
        CreateOutcomes.success.toSetupOutcomes,
        [.start .zero, .stop { Reading.zero with compilationTotal := 1 }]⟩ := ⟨_, _, rfl, rfl⟩
  have hname : ["PAPI:A", "JVM:compilations"][1]? = some "JVM:compilations" := rfl
  have hmade : [.start .zero, .stop { Reading.zero with compilationTotal := 1 }] =
      (measuredCalls (CounterState.run []) compiledBetween).map Prod.snd := rfl
  obtain ⟨results, hresults, hcounts⟩ := compilations_counted hrun hlife hname (by decide) hmade
    (by decide)
  obtain ⟨held, hheld, hrows⟩ := hcounts.rows
  obtain rfl := Option.some.inj (hheld.symm.trans rfl)
  have hone : (results.column 1).map Int64.toInt = [1] := hrows
  obtain ⟨v, hv, hvalue⟩ := List.map_eq_singleton_iff.mp hone
  have hv1 : v.toInt = (1 : Int64).toInt := hvalue
  refine ⟨a, tr, results, hrun, hresults, ?_⟩
  rw [hv, Int64.toInt_inj.mp hv1]

end UbenchAgent
