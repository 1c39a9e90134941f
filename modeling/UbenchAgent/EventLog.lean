import UbenchAgent.Results
import UbenchAgent.Lib.RewindLog

/-!
# The snapshot log of one event set

What a call of `start`, `stop`, `sample` or `reset` can do to a configuration, said
once, and two abstractions of the log that every run of calls refines:

* who wrote which slot: a `RewindLog` of labels, one for each visible snapshot;
* what a visible snapshot holds: a `Trail`, the calls that wrote the visible
  snapshots together with the return codes of `PAPI_start` that older calls left.
-/

namespace UbenchAgent

open RewindLog

def SetCall.slot (config : BenchmarkConfiguration) : SetCall → Option ℕ
  | .start _ => if config.dataSize = 0 then none else some (stepBack config).dataIndex
  | .stop _ => some config.dataIndex
  | .sample _ _ => if config.dataSize = 0 then none else some (stepBack config).dataIndex
  | .reset => none

def SetCall.fill (config : BenchmarkConfiguration) : SetCall → EventsSnapshot → EventsSnapshot
  | .start r => ubenchMeasureStart config r
  | .stop r => ubenchMeasureStop config r
  | .sample userId r => ubenchMeasureSample config userId r
  | .reset => id

def SetCall.papi (config : BenchmarkConfiguration) : SetCall → PapiState
  | .start r => (papiStarted config r).papiState
  | .stop r => (papiStopped config r).papiState
  | .sample _ _ => config.papiState
  | .reset => config.papiState

/-- A configuration as a call leaves it: only the snapshots, the index and the state of
the PAPI event set differ. -/
def BenchmarkConfiguration.withLog (config : BenchmarkConfiguration)
    (data : List EventsSnapshot) (dataIndex : ℕ) (papiState : PapiState) :
    BenchmarkConfiguration :=
  { config with data := data, dataIndex := dataIndex, papiState := papiState }

theorem fillSnapshot_eq (config : BenchmarkConfiguration)
    (fill : EventsSnapshot → EventsSnapshot) :
    fillSnapshot config fill =
      match config.data[config.dataIndex]? with
      | none => .error (.snapshotIndex config.dataIndex)
      | some s => .ok (config.withLog (config.data.set config.dataIndex (fill s))
          (config.dataIndex + 1) config.papiState) :=
  rfl

theorem fillSnapshot_papiStarted (config : BenchmarkConfiguration) (r : Reading)
    (fill : EventsSnapshot → EventsSnapshot) :
    fillSnapshot (papiStarted config r) fill =
      match config.data[config.dataIndex]? with
      | none => .error (.snapshotIndex config.dataIndex)
      | some s => .ok (config.withLog (config.data.set config.dataIndex (fill s))
          (config.dataIndex + 1) (papiStarted config r).papiState) := by
  unfold papiStarted
  split_ifs <;> rfl

theorem fillSnapshot_papiStopped (config : BenchmarkConfiguration) (r : Reading)
    (fill : EventsSnapshot → EventsSnapshot) :
    fillSnapshot (papiStopped config r) fill =
      match config.data[config.dataIndex]? with
      | none => .error (.snapshotIndex config.dataIndex)
      | some s => .ok (config.withLog (config.data.set config.dataIndex (fill s))
          (config.dataIndex + 1) (papiStopped config r).papiState) := by
  unfold papiStopped
  split_ifs <;> rfl

theorem papiState_papiStarted (config : BenchmarkConfiguration) (r : Reading) :
    (papiStarted config r).papiState =
      if config.uses backendPapi ∧ r.papiStart = papiOk then
        { config.papiState with running := true }
      else config.papiState := by
  unfold papiStarted
  split_ifs <;> rfl

theorem papiState_papiStopped (config : BenchmarkConfiguration) (r : Reading) :
    (papiStopped config r).papiState =
      if config.uses backendPapi ∧ r.papiStop = papiOk then
        { config.papiState with running := false }
      else config.papiState := by
  unfold papiStopped
  split_ifs <;> rfl

theorem stepBack_eq (config : BenchmarkConfiguration) :
    ∃ i, stepBack config = { config with dataIndex := i } := by
  unfold stepBack
  split_ifs
  · exact ⟨_, rfl⟩
  · exact ⟨config.dataIndex, rfl⟩

@[simp] theorem stepBack_data (config : BenchmarkConfiguration) :
    (stepBack config).data = config.data := by
  obtain ⟨i, hi⟩ := stepBack_eq config
  rw [hi]

theorem withLog_stepBack (config : BenchmarkConfiguration) (data : List EventsSnapshot) (i : ℕ)
    (papiState : PapiState) :
    (stepBack config).withLog data i papiState = config.withLog data i papiState := by
  obtain ⟨j, hj⟩ := stepBack_eq config
  rw [hj]
  rfl

theorem fill_stepBack (config : BenchmarkConfiguration) (call : SetCall) :
    call.fill (stepBack config) = call.fill config := by
  obtain ⟨j, hj⟩ := stepBack_eq config
  rw [hj]
  cases call <;> rfl

theorem papi_stepBack (config : BenchmarkConfiguration) (call : SetCall) :
    call.papi (stepBack config) = call.papi config := by
  obtain ⟨j, hj⟩ := stepBack_eq config
  rw [hj]
  cases call with
  | start r =>
    simp only [SetCall.papi, papiState_papiStarted]
    rfl
  | stop r =>
    simp only [SetCall.papi, papiState_papiStopped]
    rfl
  | sample _ _ => rfl
  | reset => rfl

/-- A call that writes slot `i` fills the snapshot there and moves the index past it, or
faults if there is no such snapshot. -/
theorem apply_of_slot {config : BenchmarkConfiguration} {call : SetCall} {i : ℕ}
    (h : call.slot config = some i) :
    call.apply config =
      match config.data[i]? with
      | none => .error (.snapshotIndex i)
      | some s => .ok (config.withLog (config.data.set i (call.fill config s)) (i + 1)
          (call.papi config)) := by
  cases call with
  | start r =>
    simp only [SetCall.slot, Option.ite_none_left_eq_some, Option.some.injEq] at h
    obtain ⟨h0, rfl⟩ := h
    rw [SetCall.apply, startEventset, if_neg h0, fillSnapshot_papiStarted]
    simp only [stepBack_data, withLog_stepBack]
    rw [← fill_stepBack config (.start r), ← papi_stepBack config (.start r)]
    rfl
  | stop r =>
    simp only [SetCall.slot, Option.some.injEq] at h
    subst h
    exact fillSnapshot_papiStopped config r _
  | sample userId r =>
    simp only [SetCall.slot, Option.ite_none_left_eq_some, Option.some.injEq] at h
    obtain ⟨h0, rfl⟩ := h
    rw [SetCall.apply, sampleEventset, if_neg h0, fillSnapshot_eq]
    simp only [stepBack_data, withLog_stepBack]
    rw [← fill_stepBack config (.sample userId r), ← papi_stepBack config (.sample userId r)]
    rfl
  | reset => cases h

theorem apply_of_slot_none {config : BenchmarkConfiguration} {call : SetCall}
    (h : call.slot config = none) :
    (call = .reset ∧ call.apply config = .ok (resetEventset config)) ∨
      (config.dataSize = 0 ∧ call.apply config = .ok config) := by
  cases call with
  | start r =>
    have h0 : config.dataSize = 0 := by
      by_contra h0
      simp [SetCall.slot, h0] at h
    exact .inr ⟨h0, if_pos h0⟩
  | stop r => cases h
  | sample userId r =>
    have h0 : config.dataSize = 0 := by
      by_contra h0
      simp [SetCall.slot, h0] at h
    exact .inr ⟨h0, if_pos h0⟩
  | reset => exact .inl ⟨rfl, rfl⟩

/-- The invariant of the log: the array has its size, at least one pair of snapshots fits,
`size_t` arithmetic on the index does not wrap, and the index is inside. -/
structure LogInv (config : BenchmarkConfiguration) : Prop where
  length_data : config.data.length = config.dataSize
  two_le : 2 ≤ config.dataSize
  size_lt : config.dataSize < 2 ^ 63
  index_le : config.dataIndex ≤ config.dataSize

theorem stepBack_index {config : BenchmarkConfiguration} (h : LogInv config) :
    (stepBack config).dataIndex =
      if config.dataIndex = config.dataSize then config.dataSize - 2 else config.dataIndex := by
  have h₁ := h.two_le
  have h₂ := h.size_lt
  have h₃ := h.index_le
  unfold stepBack
  split_ifs with ha hb
  · simp only [sizeSub]
    omega
  · omega
  · omega
  · rfl

/-- The act on a log of labels that a call labelled `x` is. -/
def SetCall.act {L : Type*} (x : L) : SetCall → Act L
  | .start _ => .overwrite x
  | .stop _ => .append x
  | .sample _ _ => .overwrite x
  | .reset => .clear

section Step

variable {L : Type*} {config : BenchmarkConfiguration}

theorem stepBack_index_eq_retract (h : LogInv config) {l : List L}
    (hl : config.dataIndex = l.length) :
    (stepBack config).dataIndex = (retract config.dataSize l).length := by
  have := h.index_le
  rw [stepBack_index h, retract]
  split_ifs with h₁ h₂ h₂
  · simp only [List.length_take]
    omega
  · omega
  · omega
  · exact hl

theorem retract_data_lt (h : LogInv config) {l : List L} (hl : config.dataIndex = l.length) :
    (retract config.dataSize l).length < config.data.length := by
  rw [h.length_data]
  exact length_retract_lt h.two_le (hl ▸ h.index_le)

/-- What one call can do, next to what it does to a log of labels: it writes the slot
that the label goes to and moves the index past it; or it is a reset; or it is a `stop`
on a full log, and then it faults. -/
theorem apply_cases (h : LogInv config) {l : List L} (hl : config.dataIndex = l.length)
    (call : SetCall) (x : L) :
    (∃ (kept : List L) (s : EventsSnapshot), call ≠ .reset ∧
        (∀ i, i < kept.length → kept[i]? = l[i]?) ∧ kept.length < config.dataSize ∧
        call.slot config = some kept.length ∧ config.data[kept.length]? = some s ∧
        step config.dataSize l (call.act x) = some (kept ++ [x]) ∧
        call.apply config = .ok (config.withLog
          (config.data.set kept.length (call.fill config s)) (kept.length + 1)
          (call.papi config))) ∨
    (call = .reset ∧ step config.dataSize l (call.act x) = some [] ∧
      call.apply config = .ok (config.withLog config.data 0 config.papiState)) ∨
    ((∃ r, call = .stop r) ∧ config.dataIndex = config.dataSize ∧
      step config.dataSize l (call.act x) = none ∧
      call.apply config = .error (.snapshotIndex config.dataSize)) := by
  have hne : config.dataSize ≠ 0 := by
    have := h.two_le
    omega
  have hover : ∀ call : SetCall, call ≠ .reset →
      call.slot config = some (stepBack config).dataIndex → call.act x = .overwrite x →
      ∃ (kept : List L) (s : EventsSnapshot), call ≠ .reset ∧
        (∀ i, i < kept.length → kept[i]? = l[i]?) ∧ kept.length < config.dataSize ∧
        call.slot config = some kept.length ∧ config.data[kept.length]? = some s ∧
        step config.dataSize l (call.act x) = some (kept ++ [x]) ∧
        call.apply config = .ok (config.withLog
          (config.data.set kept.length (call.fill config s)) (kept.length + 1)
          (call.papi config)) := by
    intro call hr hslot hact
    have hlt := retract_data_lt h hl
    rw [stepBack_index_eq_retract h hl] at hslot
    refine ⟨retract config.dataSize l, config.data[(retract config.dataSize l).length], hr,
      fun i hi => getElem?_retract hi, h.length_data ▸ hlt, hslot,
      List.getElem?_eq_getElem hlt, by rw [hact]; rfl, ?_⟩
    rw [apply_of_slot hslot, List.getElem?_eq_getElem hlt]
  cases call with
  | start r => exact .inl (hover _ (by simp) (if_neg hne) rfl)
  | sample userId r => exact .inl (hover _ (by simp) (if_neg hne) rfl)
  | reset => exact .inr (.inl ⟨rfl, rfl, rfl⟩)
  | stop r =>
    have hslot : SetCall.slot config (.stop r) = some l.length := by rw [← hl]; rfl
    by_cases hfull : l.length < config.dataSize
    · have hlt : l.length < config.data.length := h.length_data ▸ hfull
      refine .inl ⟨l, config.data[l.length], by simp, fun _ _ => rfl, hfull, hslot,
        List.getElem?_eq_getElem hlt, if_pos hfull, ?_⟩
      rw [apply_of_slot hslot, List.getElem?_eq_getElem hlt]
    · have hfull' : config.dataIndex = config.dataSize := by
        have := h.index_le
        omega
      refine .inr (.inr ⟨⟨r, rfl⟩, hfull', if_neg hfull, ?_⟩)
      rw [apply_of_slot hslot, List.getElem?_eq_none (by rw [h.length_data]; omega), ← hl, hfull']

end Step

/-- Every call that does not fault keeps the invariant. -/
theorem LogInv.apply {config config' : BenchmarkConfiguration} {call : SetCall}
    (h : LogInv config) (happly : call.apply config = .ok config') : LogInv config' := by
  rcases apply_cases h (l := List.replicate config.dataIndex ()) (by simp) call () with
    ⟨kept, s, -, -, hlt, -, -, -, ha⟩ | ⟨-, -, ha⟩ | ⟨-, -, -, ha⟩ <;> rw [happly] at ha
  · cases ha
    exact ⟨by simp [BenchmarkConfiguration.withLog, h.length_data], h.two_le, h.size_lt, hlt⟩
  · cases ha
    exact ⟨h.length_data, h.two_le, h.size_lt, Nat.zero_le _⟩
  · cases ha

end UbenchAgent
