import UbenchAgent.Table

/-!
# Creation attached to a thread

Once the event set is created, attaching it to a thread either works or takes the event
set away again.  But the two functions index the table with what `createEventSet` returned
without looking at it, so they read the element at -1 whenever it failed.
-/

namespace UbenchAgent

/-- What a creation attached to the native thread `nativeId` is to do: stay inside the
table, and either return the id of a new event set, attached if it uses PAPI, or throw and
leave every event set as it was. -/
def AllOrNothing (a : Agent) (nativeId : Int64)
    (outcome : Except Fault (Agent × Except MeasurementException ℤ)) : Prop :=
  (∃ a' id config, outcome = .ok (a', .ok id) ∧ a.validConfig id = none ∧
      a'.validConfig id = some config ∧
      (config.uses backendPapi = true → config.papiState.attached = some nativeId) ∧
      ∀ id', id' ≠ id → a'.validConfig id' = a.validConfig id') ∨
    ∃ a' e, outcome = .ok (a', .error e) ∧ ∀ id, a'.validConfig id = a.validConfig id

section Attach

variable {a : Agent} {config : BenchmarkConfiguration}

theorem eventsetAt_of_validConfig {id : ℤ} (h : a.validConfig id = some config) :
    a.eventsetAt id = some ⟨config, true⟩ := by
  unfold Agent.validConfig at h
  cases he : a.eventsetAt id with
  | none =>
    rw [he] at h
    cases h
  | some eventset =>
    rw [he] at h
    dsimp only at h
    split_ifs at h with hv
    obtain ⟨c, v⟩ := eventset
    obtain rfl : c = config := by simpa using h
    obtain rfl : v = true := hv
    rfl

theorem destroy_created {a' : Agent} {id : ℤ} (hnew : a.validConfig id = none)
    (hc : a'.validConfig id = some config)
    (hothers : ∀ id', id' ≠ id → a'.validConfig id' = a.validConfig id') (id' : ℤ) :
    (destroyEventSet a' id).1.validConfig id' = a.validConfig id' := by
  obtain ⟨a₁, heq, htable⟩ := destroyEventSet_valid hc
  rw [heq, htable]
  split_ifs with hid
  · rw [hid, hnew]
  · exact hothers id' hid

/-- Attaching the new event set is all or nothing. -/
theorem attachEventset_allOrNothing {a' : Agent} {id : ℤ} (hnew : a.validConfig id = none)
    (hc : a'.validConfig id = some config)
    (hothers : ∀ id', id' ≠ id → a'.validConfig id' = a.validConfig id') (nativeId : Int64)
    (attach : Int32) :
    AllOrNothing a nativeId (.ok (attachEventset a' id config nativeId attach)) := by
  unfold attachEventset
  split_ifs with hattach
  · exact .inr ⟨_, _, rfl, destroy_created hnew hc hothers⟩
  · refine .inl ⟨_, id, { config with
      papiState := { config.papiState with attached := some nativeId } }, rfl, hnew, ?_,
      fun _ => rfl, fun id' hid => ?_⟩
    · rw [validConfig_setValid hc, if_pos rfl]
    · rw [validConfig_setValid hc, if_neg hid]
      exact hothers id' hid

variable {args : CreateArgs} {o : CreateOutcomes}

theorem returnedId_rejected (h : ¬ Accepted true a args o) :
    (createEventSet true a args o).1.eventsetAt
      (returnedId (createEventSet true a args o).2) = none ∧
      returnedId (createEventSet true a args o).2 = -1 := by
  obtain ⟨a', e, heq, -⟩ := createEventSet_rejected h
  rw [heq]
  exact ⟨rfl, rfl⟩

/-- Attached creation fails exactly as `createEventSet` does, by reading at -1. -/
theorem createAttached_rejected (h : ¬ Accepted true a args o) (threads : ThreadMap)
    (threadId : Int64) (attach : Int32) :
    createAttachedEventSetWithJavaThread true a threads threadId args o attach =
        .error (.eventsetIndex (-1)) ∧
      createAttachedEventSetWithNativeThread true a threadId args o attach =
        .error (.eventsetIndex (-1)) := by
  obtain ⟨hnone, hid⟩ := returnedId_rejected h
  unfold createAttachedEventSetWithJavaThread createAttachedEventSetWithNativeThread
  dsimp only
  rw [if_pos rfl, if_pos rfl, hnone, hid]
  exact ⟨rfl, rfl⟩

theorem not_allOrNothing_error (nativeId : Int64) (f : Fault) :
    ¬ AllOrNothing a nativeId (.error f) := by
  rintro (⟨a', id, config, h, -⟩ | ⟨a', e, h, -⟩) <;> cases h

theorem createEventSet_new (h : Accepted true a args o) : ∃ a' config,
    createEventSet true a args o = (a', .ok a.freeSlot) ∧
      Created true args o.toSetupOutcomes args.size config ∧
      a.validConfig a.freeSlot = none ∧ a'.validConfig a.freeSlot = some config ∧
      ∀ id', id' ≠ (a.freeSlot : ℤ) → a'.validConfig id' = a.validConfig id' := by
  obtain ⟨a', config, heq, hcreated, htable, -⟩ := createEventSet_accepted h
  refine ⟨a', config, heq, hcreated, validConfig_freeSlot a, by rw [htable, if_pos rfl], ?_⟩
  intro id' hid
  rw [htable, if_neg hid]

theorem createAttachedEventSetWithJavaThread_accepted (h : Accepted true a args o)
    (threads : ThreadMap) (javaThreadId : Int64) (attach : Int32) :
    AllOrNothing a (ubenchThreadsGetNativeId threads javaThreadId)
      (createAttachedEventSetWithJavaThread true a threads javaThreadId args o attach) := by
  obtain ⟨a', config, heq, -, hnew, hc, hothers⟩ := createEventSet_new h
  unfold createAttachedEventSetWithJavaThread
  rw [heq]
  dsimp only [returnedId]
  rw [if_pos rfl, eventsetAt_of_validConfig hc]
  dsimp only
  split_ifs with hu hunknown
  · exact .inr ⟨_, _, rfl, destroy_created hnew hc hothers⟩
  · exact attachEventset_allOrNothing hnew hc hothers _ _
  · exact .inl ⟨a', _, config, rfl, hnew, hc, fun h => absurd h hu, hothers⟩

theorem createAttachedEventSetWithNativeThread_accepted (h : Accepted true a args o)
    (nativeThreadId : Int64) (attach : Int32) :
    AllOrNothing a nativeThreadId
      (createAttachedEventSetWithNativeThread true a nativeThreadId args o attach) := by
  obtain ⟨a', config, heq, -, hnew, hc, hothers⟩ := createEventSet_new h
  unfold createAttachedEventSetWithNativeThread
  rw [heq]
  dsimp only [returnedId]
  rw [if_pos rfl, eventsetAt_of_validConfig hc]
  dsimp only
  split_ifs with hu
  · exact attachEventset_allOrNothing hnew hc hothers _ _
  · exact .inl ⟨a', _, config, rfl, hnew, hc, fun h => absurd h hu, hothers⟩

/-- What a creation does, if it comes back: a new event set of which `P` holds, or an exception
and the table as it was. -/
inductive Creates (P : BenchmarkConfiguration → Prop) (a a' : Agent) :
    Except MeasurementException ℤ → Prop
  | created (id : ℤ) (config : BenchmarkConfiguration) (holds : P config)
      (table : ∀ id', a'.validConfig id' = if id' = id then some config else a.validConfig id') :
      Creates P a a' (.ok id)
  | thrown (e : MeasurementException) (same : ∀ id, a'.validConfig id = a.validConfig id) :
      Creates P a a' (.error e)

variable {P : BenchmarkConfiguration → Prop} {a' : Agent}
  {result : Except MeasurementException ℤ}

theorem createEventSet_creates {hasPapi : Bool}
    (hP : Accepted hasPapi a args o → ∀ config,
      Created hasPapi args o.toSetupOutcomes args.size config → P config) :
    Creates P a (createEventSet hasPapi a args o).1 (createEventSet hasPapi a args o).2 := by
  by_cases hacc : Accepted hasPapi a args o
  · obtain ⟨a₁, config, heq, hcreated, htable, -⟩ := createEventSet_accepted hacc
    rw [heq]
    exact .created _ config (hP hacc config hcreated) htable
  · obtain ⟨a₁, e, heq, htable⟩ := createEventSet_rejected hacc
    rw [heq]
    exact .thrown e htable

theorem attachEventset_creates {id : ℤ} {nativeId : Int64} (hnew : a.validConfig id = none)
    (hc : a'.validConfig id = some config)
    (hothers : ∀ id', id' ≠ id → a'.validConfig id' = a.validConfig id')
    (hP : P { config with papiState := { config.papiState with attached := some nativeId } })
    (attach : Int32) :
    Creates P a (attachEventset a' id config nativeId attach).1
      (attachEventset a' id config nativeId attach).2 := by
  unfold attachEventset
  split_ifs with hattach
  · exact .thrown _ (destroy_created hnew hc hothers)
  · refine .created id _ hP fun id' => ?_
    rw [validConfig_setValid hc]
    split_ifs with hid
    · rfl
    · exact hothers id' hid

theorem Creates.of_new {id : ℤ} (hc : a'.validConfig id = some config)
    (hothers : ∀ id', id' ≠ id → a'.validConfig id' = a.validConfig id') (hP : P config) :
    Creates P a a' (.ok id) := by
  refine .created id config hP fun id' => ?_
  split_ifs with hid
  · rw [hid, hc]
  · exact hothers id' hid

theorem createAttachedEventSetWithJavaThread_creates {threads : ThreadMap} {j : Int64}
    {attach : Int32}
    (hP : Accepted true a args o → ∀ config,
      Created true args o.toSetupOutcomes args.size config →
        ¬ config.uses backendPapi = true → P config)
    (hattached : Accepted true a args o → ∀ config,
      Created true args o.toSetupOutcomes args.size config → config.uses backendPapi = true →
        ubenchThreadsGetNativeId threads j ≠ ubenchThreadIdInvalid →
          P { config with papiState := { config.papiState with
            attached := some (ubenchThreadsGetNativeId threads j) } })
    (h : createAttachedEventSetWithJavaThread true a threads j args o attach = .ok (a', result)) :
    Creates P a a' result := by
  by_cases hacc : Accepted true a args o
  · obtain ⟨a₁, config, heq, hcreated, hnew, hc, hothers⟩ := createEventSet_new hacc
    unfold createAttachedEventSetWithJavaThread at h
    rw [heq] at h
    dsimp only [returnedId] at h
    rw [if_pos rfl, eventsetAt_of_validConfig hc] at h
    dsimp only at h
    split_ifs at h with huses hunknown
    · obtain ⟨rfl, rfl⟩ := Prod.mk.inj (Except.ok.inj h)
      exact .thrown _ (destroy_created hnew hc hothers)
    · obtain ⟨rfl, rfl⟩ := Prod.mk.inj (Except.ok.inj h)
      exact attachEventset_creates hnew hc hothers
        (hattached hacc config hcreated huses hunknown) attach
    · obtain ⟨rfl, rfl⟩ := Prod.mk.inj (Except.ok.inj h)
      exact .of_new hc hothers (hP hacc config hcreated huses)
  · rw [(createAttached_rejected hacc threads j attach).1] at h
    cases h

theorem createAttachedEventSetWithNativeThread_creates {n : Int64} {attach : Int32}
    (hP : Accepted true a args o → ∀ config,
      Created true args o.toSetupOutcomes args.size config →
        ¬ config.uses backendPapi = true → P config)
    (hattached : Accepted true a args o → ∀ config,
      Created true args o.toSetupOutcomes args.size config → config.uses backendPapi = true →
        P { config with papiState := { config.papiState with attached := some n } })
    (h : createAttachedEventSetWithNativeThread true a n args o attach = .ok (a', result)) :
    Creates P a a' result := by
  by_cases hacc : Accepted true a args o
  · obtain ⟨a₁, config, heq, hcreated, hnew, hc, hothers⟩ := createEventSet_new hacc
    unfold createAttachedEventSetWithNativeThread at h
    rw [heq] at h
    dsimp only [returnedId] at h
    rw [if_pos rfl, eventsetAt_of_validConfig hc] at h
    dsimp only at h
    split_ifs at h with huses
    · obtain ⟨rfl, rfl⟩ := Prod.mk.inj (Except.ok.inj h)
      exact attachEventset_creates hnew hc hothers (hattached hacc config hcreated huses) attach
    · obtain ⟨rfl, rfl⟩ := Prod.mk.inj (Except.ok.inj h)
      exact .of_new hc hothers (hP hacc config hcreated huses)
  · rw [(createAttached_rejected hacc .empty n attach).2] at h
    cases h

end Attach

/-- With PAPI both attached creations are all or nothing exactly where `createEventSet`
accepts its arguments. -/
theorem createAttached_allOrNothing_iff (a : Agent) (threads : ThreadMap)
    (javaThreadId nativeThreadId : Int64) (args : CreateArgs) (o : CreateOutcomes)
    (attach : Int32) :
    (AllOrNothing a (ubenchThreadsGetNativeId threads javaThreadId)
        (createAttachedEventSetWithJavaThread true a threads javaThreadId args o attach) ↔
      Accepted true a args o) ∧
    (AllOrNothing a nativeThreadId
        (createAttachedEventSetWithNativeThread true a nativeThreadId args o attach) ↔
      Accepted true a args o) := by
  by_cases h : Accepted true a args o
  · exact ⟨iff_of_true (createAttachedEventSetWithJavaThread_accepted h _ _ _) h,
      iff_of_true (createAttachedEventSetWithNativeThread_accepted h _ _) h⟩
  · rw [(createAttached_rejected h threads javaThreadId attach).1,
      (createAttached_rejected h threads nativeThreadId attach).2]
    exact ⟨iff_of_false (not_allOrNothing_error _ _) h, iff_of_false (not_allOrNothing_error _ _) h⟩

/-- No measurements: `createEventSet` throws, and then the table is read at -1. -/
theorem not_allOrNothing_no_measurements :
    createAttachedEventSetWithNativeThread true .initial 7 (.wallclock 0) .success papiOk =
        .error (.eventsetIndex (-1)) ∧
      ¬ AllOrNothing .initial 7
        (createAttachedEventSetWithNativeThread true .initial 7 (.wallclock 0) .success papiOk) := by
  have hnot : ¬ Accepted true .initial (.wallclock 0) .success := fun h =>
    absurd h.measurements (by decide)
  obtain ⟨-, hfault⟩ := createAttached_rejected hnot .empty 7 papiOk
  rw [hfault]
  exact ⟨rfl, not_allOrNothing_error _ _⟩

end UbenchAgent
