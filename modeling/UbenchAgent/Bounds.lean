import UbenchAgent.Table

/-!
# The bounds of the snapshot log

The index of an event set stays inside its array, and the results read inside it, in
exactly those runs in which no `stop` comes when the array is full: `start` and `sample`
step back first, `stop` does not look at the size.
-/

namespace UbenchAgent

def SetCall.stepsBack (config : BenchmarkConfiguration) : SetCall → Prop
  | .start _ => config.dataIndex ≥ config.dataSize
  | .sample _ _ => config.dataIndex ≥ config.dataSize
  | .stop _ => False
  | .reset => False

def ReadsInside (a : Agent) (id : ℤ) : Prop :=
  (∃ results, getResults a id = .ok (.ok results)) ∧
    ∃ results, getRawResults a id = .ok (.ok results)

/-- Along a list of calls on one event set every snapshot is written inside the array, the
step back does not go below zero, and after every call the index is at most the size and
the results read inside the array. -/
def KeepsBounds (hasPapi : Bool) (a : Agent) (id : ℤ) : List SetCall → Prop
  | [] => True
  | call :: calls =>
    ∃ config, a.validConfig id = some config ∧
      (∀ i, call.slot config = some i → i < config.dataSize) ∧
      (call.stepsBack config → 2 ≤ config.dataIndex) ∧
      ∃ a' config', a.step hasPapi (call.on id) = .ok (a', .done) ∧
        a'.validConfig id = some config' ∧ config'.data.length = config'.dataSize ∧
        config'.dataIndex ≤ config'.dataSize ∧ ReadsInside a' id ∧
        KeepsBounds hasPapi a' id calls

section Bounds

variable {hasPapi : Bool} {a : Agent} {id : ℤ} {config : BenchmarkConfiguration}

theorem LogInv.readsInside (h : LogInv config) (hc : a.validConfig id = some config) :
    ReadsInside a id := by
  have hle : config.dataIndex ≤ config.data.length := by
    rw [h.length_data]
    exact h.index_le
  unfold ReadsInside getResults getRawResults
  rw [hc]
  simp only [getResultsOf_eq hle, getRawResultsOf_eq hle, except_ok_bind, Except.ok.injEq,
    exists_eq', and_self]

/-- The invariant makes every step back start from a full array, which holds a pair. -/
theorem LogInv.stepsBack (h : LogInv config) {call : SetCall} (hback : call.stepsBack config) :
    2 ≤ config.dataIndex := by
  have htwo := h.two_le
  have hge : config.dataIndex ≥ config.dataSize := by
    cases call with
    | start r => exact hback
    | sample userId r => exact hback
    | stop r => exact absurd hback id
    | reset => exact absurd hback id
  omega

/-- From a state where the invariant holds, the bounds are kept exactly if no `stop` comes
when the array is full. -/
theorem LogInv.keepsBounds_iff (h : LogInv config) (hc : a.validConfig id = some config)
    (calls : List SetCall) :
    KeepsBounds hasPapi a id calls ↔
      StopsHaveRoom config.dataSize config.dataIndex (calls.map SetCall.kind) := by
  induction calls generalizing a config with
  | nil => exact Iff.rfl
  | cons call calls ih =>
    rw [List.map_cons, StopsHaveRoom, KeepsBounds]
    constructor
    · rintro ⟨config₁, hc₁, -, -, a', config', hstep, hc', -, -, -, hrest⟩
      obtain rfl : config = config₁ := Option.some.inj (hc.symm.trans hc₁)
      rcases step_on hasPapi hc call with ⟨config₂, a₂, happly, hstep₂, hset⟩ | ⟨f, -, hfail⟩
      · obtain rfl : a₂ = a' := by
          rw [hstep₂] at hstep
          simpa using hstep
        have hc₂ : a₂.validConfig id = some config₂ := by rw [hset, if_pos rfl]
        have hroom : call.kind = .stop → config.dataIndex < config.dataSize := by
          intro hkind
          by_contra hfull
          rw [apply_of_no_room h hkind hfull] at happly
          cases happly
        have hkinds := (ih (h.apply happly) hc₂).mp hrest
        rw [apply_index h happly, apply_frame happly] at hkinds
        exact ⟨hroom, hkinds⟩
      · rw [hfail] at hstep
        cases hstep
    · rintro ⟨hroom, hrest⟩
      obtain ⟨config', happly⟩ : ∃ config', call.apply config = .ok config' := by
        rcases apply_of_room h hroom with ⟨_, _, _, _, _, _, ha⟩ | ⟨_, _, ha⟩ <;> exact ⟨_, ha⟩
      have hslot : ∀ i, call.slot config = some i → i < config.dataSize := by
        intro i hi
        rcases apply_of_room h hroom with ⟨j, s, hj, -, hlt, -, -⟩ | ⟨-, hnone, -⟩
        · obtain rfl : i = j := Option.some.inj (hi.symm.trans hj)
          exact hlt
        · rw [hnone] at hi
          cases hi
      rcases step_on hasPapi hc call with ⟨config₂, a₂, happly₂, hstep, hset⟩ | ⟨f, hfail, -⟩
      · obtain rfl : config' = config₂ := by
          rw [happly] at happly₂
          simpa using happly₂
        have hc₂ : a₂.validConfig id = some config' := by rw [hset, if_pos rfl]
        have hinv := h.apply happly
        refine ⟨config, hc, hslot, h.stepsBack, a₂, config', hstep, hc₂, hinv.length_data,
          hinv.index_le, hinv.readsInside hc₂, (ih hinv hc₂).mpr ?_⟩
        rw [apply_index h happly, apply_frame happly]
        exact hrest
      · rw [hfail] at happly
        cases happly

/-- The calls on a created event set keep the bounds of its log exactly if no `stop` comes
when all its `2 * N` snapshots are taken. -/
theorem createEventSet_keepsBounds_iff {args : CreateArgs} {o : CreateOutcomes} {a' : Agent}
    (hN : 1 ≤ args.jmeasurements) (hcreate : createEventSet hasPapi a args o = (a', .ok id))
    (calls : List SetCall) :
    KeepsBounds hasPapi a' id calls ↔
      StopsHaveRoom (2 * args.jmeasurements.toInt.toNat) 0 (calls.map SetCall.kind) := by
  obtain ⟨hacc, -, config, hc, hcreated, -⟩ := createEventSet_created hcreate
  rw [(hcreated.logInv hacc.measurements).keepsBounds_iff hc, hcreated.dataSize,
    hcreated.dataIndex, (size_spec hacc.measurements).2.2 hN]

end Bounds

/-- In the event set of one measurement the second of two `stop`s writes past the end. -/
theorem not_keepsBounds_start_stop_stop :
    1 ≤ (CreateArgs.wallclock 1).jmeasurements ∧
      ∃ a', createEventSet false Agent.initial (.wallclock 1) .success = (a', .ok 0) ∧
        ¬ KeepsBounds false a' 0 [.start .zero, .stop .zero, .stop .zero] := by
  have hacc := accepted_wallclock false Agent.initial 1 (by decide)
  have hcreate := createEventSet_eq hacc
  refine ⟨by decide, _, hcreate, fun hkeeps => ?_⟩
  obtain ⟨-, -, config, hc, hcreated, -⟩ := createEventSet_created hcreate
  have hsize : config.dataSize = 2 := hcreated.dataSize
  have hroom := ((hcreated.logInv hacc.measurements).keepsBounds_iff hc _).mp hkeeps
  rw [hsize, hcreated.dataIndex] at hroom
  revert hroom
  decide

/-- A measurement with two samples fits in an event set of one. -/
theorem keepsBounds_start_sample_sample_stop :
    KeepsBounds false (createEventSet false Agent.initial (.wallclock 1) .success).1 0
      [.start .zero, .sample 0 .zero, .sample 1 .zero, .stop .zero] :=
  (createEventSet_keepsBounds_iff (by decide)
    (createEventSet_eq (accepted_wallclock false Agent.initial 1 (by decide))) _).mpr (by decide)

end UbenchAgent
