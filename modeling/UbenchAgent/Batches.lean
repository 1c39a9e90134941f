import UbenchAgent.Lifetimes

/-!
# Calls that throw halfway

`start`, `stop`, `sample` and `reset` check each id when its turn comes.  So a call that
throws has served the ids in front of the first one that names nothing, and it has done to
their event sets what the call with those ids only would have done.
-/

namespace UbenchAgent

section Batches

variable {a a' : Agent} {calls : List (ℤ × SetCall)}

/-- A loop that throws has served the calls in front of the first bad id. -/
theorem forEachEventset_thrown {e : MeasurementException}
    (h : forEachEventset calls a = .ok (a', .error e)) :
    e = .invalidEventSetId ∧ ∃ done x rest, calls = done ++ x :: rest ∧
      (∀ y ∈ done, (a.validConfig y.1).isSome = true) ∧ a.validConfig x.1 = none ∧
      forEachEventset done a = .ok (a', .ok ()) := by
  induction calls generalizing a with
  | nil => cases h
  | cons x rest ih =>
    obtain ⟨id, call⟩ := x
    rw [forEachEventset] at h
    cases hc : a.validConfig id with
    | none =>
      rw [hc] at h
      obtain ⟨rfl, rfl⟩ : a = a' ∧ MeasurementException.invalidEventSetId = e := by simpa using h
      exact ⟨rfl, [], (id, call), rest, rfl, List.forall_mem_nil _, hc, rfl⟩
    | some config =>
      rw [hc] at h
      obtain ⟨config', happly, h⟩ := except_bind_ok.mp h
      obtain ⟨rfl, done, x, rest', rfl, hlive, hbad, hdone⟩ := ih h
      have hset := isSome_setValid config' hc
      refine ⟨rfl, (id, call) :: done, x, rest', rfl, ?_, ?_, ?_⟩
      · rw [List.forall_mem_cons]
        refine ⟨by rw [hc]; rfl, fun y hy => ?_⟩
        rw [← hset]
        exact hlive y hy
      · rw [← Option.not_isSome_iff_eq_none, ← hset, hbad]
        exact Bool.noConfusion
      · rw [forEachEventset, hc]
        dsimp only
        rw [happly]
        exact hdone

/-- What a call that throws has done: it has served the ids `done`, in order, which are those
in front of the first id that names nothing. -/
structure ServedBefore (a a' : Agent) (calls done : List (ℤ × SetCall)) : Prop where
  front : ∃ x rest, calls = done ++ x :: rest ∧ a.validConfig x.1 = none
  live : ∀ y ∈ done, (a.validConfig y.1).isSome = true
  served : ∀ id config, a.validConfig id = some config →
    ∃ config', (callsOn id done).foldlM SetCall.apply config = .ok config' ∧
      a'.validConfig id = some config'
  others : ∀ id, id ∉ done.map Prod.fst → a'.validConfig id = a.validConfig id

theorem callsOn_eq_nil {id : ℤ} (h : id ∉ calls.map Prod.fst) : callsOn id calls = [] := by
  rw [callsOn, List.map_eq_nil_iff, List.filter_eq_nil_iff]
  intro x hx heq
  exact h (List.mem_map.mpr ⟨x, hx, eq_of_beq heq⟩)

/-- A call with an array of ids that throws has served the ids in front of the first one that
names nothing, and left every other event set as it was. -/
theorem step_thrown_served {hasPapi : Bool} {call : Call} {e : MeasurementException}
    (hcalls : call.setCalls = some calls) (hstep : a.step hasPapi call = .ok (a', .thrown e)) :
    e = .invalidEventSetId ∧ ∃ done, ServedBefore a a' calls done := by
  rw [step_of_setCalls hcalls] at hstep
  obtain ⟨⟨a₁, result⟩, hwith, heq⟩ := except_bind_ok.mp hstep
  obtain ⟨rfl, hresult⟩ : a₁ = a' ∧ Response.ofUnit result = .thrown e := by simpa using heq
  obtain rfl : result = .error e := by
    cases result with
    | ok u => cases hresult
    | error e' => exact congrArg Except.error (by simpa [Response.ofUnit] using hresult)
  obtain ⟨a₂, hloop, htable⟩ := withIds_ok hwith
  obtain ⟨rfl, done, x, rest, hsplit, hlive, hbad, hdone⟩ := forEachEventset_thrown hloop
  rw [validConfig_withLedger] at hlive hbad
  have hserved : ∀ id config, a.validConfig id = some config →
      ∃ config', (callsOn id done).foldlM SetCall.apply config = .ok config' ∧
        a₁.validConfig id = some config' := by
    intro id config hc
    rw [htable]
    exact forEachEventset_served hdone hc
  refine ⟨rfl, done, ⟨x, rest, hsplit, hbad⟩, hlive, hserved, ?_⟩
  intro id hid
  cases hc : a.validConfig id with
  | none =>
    have hsame : (a₂.validConfig id).isSome = (a.validConfig id).isSome :=
      (forEachEventset_result hdone).1 id
    rw [hc, Option.isSome_none, Option.isSome_eq_false_iff, Option.isNone_iff_eq_none] at hsame
    rw [htable]
    exact hsame
  | some config =>
    obtain ⟨config', hrun, hc'⟩ := hserved id config hc
    rw [callsOn_eq_nil hid] at hrun
    rw [hc', Except.ok.inj hrun]

end Batches

/-- `start` of the event set 0 and of 7, which is no event set, throws after the cursor of 0
has moved. -/
theorem not_atomic_start :
    ∃ a config a' config',
      createEventSet false .initial (.wallclock 1) .success = (a, .ok 0) ∧
      a.validConfig 0 = some config ∧ config.dataIndex = 0 ∧
      a.step false (.start [(0, .zero), (7, .zero)]) = .ok (a', .thrown .invalidEventSetId) ∧
      a'.validConfig 0 = some config' ∧ config'.dataIndex = 1 := by
  refine ⟨_, _, _, _, rfl, rfl, by decide, rfl, rfl, by decide⟩

/-- The call of that example has served the event set 0. -/
theorem step_thrown_served_start :
    ∃ a', ((createEventSet false .initial (.wallclock 1) .success).1.step false
        (.start [(0, .zero), (7, .zero)])) = .ok (a', .thrown .invalidEventSetId) ∧
      ∃ done, ServedBefore (createEventSet false .initial (.wallclock 1) .success).1 a'
        [(0, .start .zero), (7, .start .zero)] done := by
  have hcalls : (Call.start [(0, .zero), (7, .zero)]).setCalls =
      some [(0, .start .zero), (7, .start .zero)] := rfl
  obtain ⟨a', hstep⟩ : ∃ a', ((createEventSet false .initial (.wallclock 1) .success).1.step false
      (.start [(0, .zero), (7, .zero)])) = .ok (a', .thrown .invalidEventSetId) := ⟨_, rfl⟩
  exact ⟨a', hstep, (step_thrown_served hcalls hstep).2⟩

end UbenchAgent
