import UbenchAgent.Benchmark

/-!
# Slots are used again

The table grows only if all its event sets are live.  So it never has more than one slot more
than there were live event sets at some moment, however many have come and gone, and a new id is
no larger than the number of live event sets.
-/

namespace UbenchAgent

open SlotTable

def Agent.liveCount (a : Agent) : ℕ := a.allEventsets.countP (·.valid)

/-- What a call does to the size of the table: nothing, or the table was full and has one slot
more. -/
def GrowsWhenFull (a a' : Agent) : Prop :=
  a'.allEventsets.length = a.allEventsets.length ∨
    a'.allEventsets.length = a.allEventsets.length + 1 ∧ a.liveCount = a.allEventsets.length

section Step

variable {hasPapi : Bool} {a a' : Agent}

theorem freeSlot_le_liveCount (a : Agent) : a.freeSlot ≤ a.liveCount := by
  have hcount : (slotsOf a.allEventsets).countP Option.isSome = a.liveCount := by
    rw [slotsOf, List.countP_map, Agent.liveCount]
    congr 1
    funext eventset
    dsimp only [Function.comp_apply]
    cases eventset.valid <;> rfl
  rw [← hcount]
  exact lowestFree_le_countP _

theorem setEventset_length (a : Agent) (id : ℤ) (eventset : Eventset) :
    (a.setEventset id eventset).allEventsets.length = a.allEventsets.length :=
  List.length_set

theorem fillSlot_length (a : Agent) (i : ℕ) (eventset : Eventset) (size : ℕ) (args : CreateArgs)
    (o : CreateOutcomes) :
    (fillSlot hasPapi a i eventset size args o).1.allEventsets.length = a.allEventsets.length := by
  unfold fillSlot
  dsimp only
  split <;> exact List.length_set

theorem createEventSet_growsWhenFull (a : Agent) (args : CreateArgs) (o : CreateOutcomes) :
    GrowsWhenFull a (createEventSet hasPapi a args o).1 := by
  unfold createEventSet
  dsimp only
  by_cases hmeas : args.jmeasurements * 2 ≤ 0
  · rw [if_pos hmeas]
    exact .inl rfl
  by_cases hevents : args.jeventNames.length = 0
  · rw [if_neg hmeas, if_pos hevents]
    exact .inl rfl
  rw [if_neg hmeas, if_neg hevents]
  cases hfind : findFreeSlot 0 a.allEventsets with
  | some found => exact .inl (fillSlot_length a _ _ _ args o)
  | none =>
    cases hrealloc : o.realloc with
    | false => exact .inl rfl
    | true =>
      refine .inr ⟨?_, List.countP_eq_length.mpr (findFreeSlot_eq_none.mp hfind)⟩
      exact (fillSlot_length _ _ _ _ args o).trans List.length_append

theorem destroyEventSet_length (a : Agent) (jid : ℤ) :
    (destroyEventSet a jid).1.allEventsets.length = a.allEventsets.length := by
  unfold destroyEventSet
  split
  · rfl
  · exact setEventset_length a jid _

theorem attachEventset_length (a : Agent) (index : ℤ) (config : BenchmarkConfiguration)
    (nativeId : Int64) (attach : Int32) :
    (attachEventset a index config nativeId attach).1.allEventsets.length =
      a.allEventsets.length := by
  unfold attachEventset
  split_ifs
  · exact destroyEventSet_length a index
  · exact setEventset_length a index _

theorem forEachEventset_length {calls : List (ℤ × SetCall)}
    {result : Except MeasurementException Unit} (h : forEachEventset calls a = .ok (a', result)) :
    a'.allEventsets.length = a.allEventsets.length := by
  induction calls generalizing a with
  | nil =>
    obtain ⟨rfl, -⟩ : a = a' ∧ .ok () = result := by simpa [forEachEventset] using h
    rfl
  | cons x rest ih =>
    obtain ⟨id, call⟩ := x
    rw [forEachEventset] at h
    cases hc : a.validConfig id with
    | none =>
      rw [hc] at h
      obtain ⟨rfl, -⟩ : a = a' ∧ .error .invalidEventSetId = result := by simpa using h
      rfl
    | some config =>
      rw [hc] at h
      obtain ⟨config', -, hrest⟩ := except_bind_ok.mp h
      rw [ih hrest, setEventset_length]

theorem withIds_length {calls : List (ℤ × SetCall)} {result : Except MeasurementException Unit}
    (h : withIds a calls = .ok (a', result)) :
    a'.allEventsets.length = a.allEventsets.length := by
  unfold withIds at h
  split_ifs at h
  · obtain ⟨rfl, -⟩ : a = a' ∧ .ok () = result := by simpa using h
    rfl
  · obtain ⟨⟨a₁, result₁⟩, hloop, h⟩ := except_bind_ok.mp h
    have hlength := forEachEventset_length hloop
    cases result₁ with
    | error e =>
      obtain ⟨rfl, -⟩ : a₁ = a' ∧ .error e = result := by simpa using h
      exact hlength
    | ok u =>
      obtain ⟨rfl, -⟩ : _ = a' ∧ .ok () = result := by simpa using h
      exact hlength

/-- The id of a creation is the lowest free slot. -/
theorem createEventSet_id {args : CreateArgs} {o : CreateOutcomes} {id : ℤ}
    (h : createEventSet hasPapi a args o = (a', .ok id)) : id = a.freeSlot := by
  obtain ⟨-, hid, -⟩ := createEventSet_created h
  exact hid

/-- An attached creation is a creation and then changes no sizes; its id is that of the
creation. -/
structure FromCreation (hasPapi : Bool) (a : Agent) (args : CreateArgs) (o : CreateOutcomes)
    (a' : Agent) (result : Except MeasurementException ℤ) : Prop where
  length : a'.allEventsets.length = (createEventSet hasPapi a args o).1.allEventsets.length
  id : ∀ id, result = .ok id → (createEventSet hasPapi a args o).2 = .ok id

theorem attachEventset_fromCreation {args : CreateArgs} {o : CreateOutcomes} {a₁ : Agent} {id : ℤ}
    (hcreate : createEventSet true a args o = (a₁, .ok id)) (config : BenchmarkConfiguration)
    (nativeId : Int64) (attach : Int32) :
    FromCreation true a args o (attachEventset a₁ id config nativeId attach).1
      (attachEventset a₁ id config nativeId attach).2 := by
  constructor
  · rw [hcreate, attachEventset_length]
  · intro id' hid
    rw [hcreate]
    unfold attachEventset at hid
    split_ifs at hid
    cases hid
    rfl

theorem createAttachedEventSetWithJavaThread_fromCreation {threads : ThreadMap}
    {javaThreadId : Int64} {args : CreateArgs} {o : CreateOutcomes} {attach : Int32}
    {result : Except MeasurementException ℤ}
    (h : createAttachedEventSetWithJavaThread hasPapi a threads javaThreadId args o attach =
      .ok (a', result)) : FromCreation hasPapi a args o a' result := by
  unfold createAttachedEventSetWithJavaThread at h
  rcases hcreate : createEventSet hasPapi a args o with ⟨a₁, e | id⟩ <;> rw [hcreate] at h
  · cases hasPapi with
    | false =>
      cases h
      exact ⟨by rw [hcreate], fun id hid => by cases hid⟩
    | true => cases h
  · cases hasPapi with
    | false =>
      cases h
      exact ⟨by rw [hcreate], fun id hid => by rw [hcreate, hid]⟩
    | true =>
      dsimp only [returnedId] at h
      rw [if_pos rfl] at h
      cases hset : a₁.eventsetAt id with
      | none =>
        rw [hset] at h
        cases h
      | some eventset =>
        rw [hset] at h
        dsimp only at h
        split_ifs at h
        · cases h
          exact ⟨by rw [destroyEventSet_length, hcreate], fun id hid => by cases hid⟩
        · have hattach := attachEventset_fromCreation hcreate eventset.config
            (ubenchThreadsGetNativeId threads javaThreadId) attach
          rw [Except.ok.inj h] at hattach
          exact hattach
        · cases h
          exact ⟨by rw [hcreate], fun id hid => by rw [hcreate, hid]⟩

theorem createAttachedEventSetWithNativeThread_fromCreation {nativeThreadId : Int64}
    {args : CreateArgs} {o : CreateOutcomes} {attach : Int32}
    {result : Except MeasurementException ℤ}
    (h : createAttachedEventSetWithNativeThread hasPapi a nativeThreadId args o attach =
      .ok (a', result)) : FromCreation hasPapi a args o a' result := by
  unfold createAttachedEventSetWithNativeThread at h
  rcases hcreate : createEventSet hasPapi a args o with ⟨a₁, e | id⟩ <;> rw [hcreate] at h
  · cases hasPapi with
    | false =>
      cases h
      exact ⟨by rw [hcreate], fun id hid => by cases hid⟩
    | true => cases h
  · cases hasPapi with
    | false =>
      cases h
      exact ⟨by rw [hcreate], fun id hid => by rw [hcreate, hid]⟩
    | true =>
      dsimp only [returnedId] at h
      rw [if_pos rfl] at h
      cases hset : a₁.eventsetAt id with
      | none =>
        rw [hset] at h
        cases h
      | some eventset =>
        rw [hset] at h
        dsimp only at h
        split_ifs at h
        · have hattach := attachEventset_fromCreation hcreate eventset.config nativeThreadId attach
          rw [Except.ok.inj h] at hattach
          exact hattach
        · cases h
          exact ⟨by rw [hcreate], fun id hid => by rw [hcreate, hid]⟩

/-- What one call does to the size of the table and which id it may return. -/
structure SlotStep (a a' : Agent) (response : Response) : Prop where
  size : GrowsWhenFull a a'
  id : ∀ id, response = .eventSet id → id = a.freeSlot

theorem FromCreation.slotStep {args : CreateArgs} {o : CreateOutcomes}
    {result : Except MeasurementException ℤ} (h : FromCreation hasPapi a args o a' result) :
    SlotStep a a' (.ofId result) := by
  constructor
  · have hgrows : GrowsWhenFull a (createEventSet hasPapi a args o).1 :=
      createEventSet_growsWhenFull a args o
    unfold GrowsWhenFull at hgrows ⊢
    rw [h.length]
    exact hgrows
  · intro id hid
    cases result with
    | error e => cases hid
    | ok id' =>
      obtain rfl : id' = id := by simpa [Response.ofId] using hid
      exact createEventSet_id (Prod.ext rfl (h.id id' rfl))

theorem ofUnit_ne_eventSet (result : Except MeasurementException Unit) (id : ℤ) :
    Response.ofUnit result ≠ .eventSet id := by
  cases result <;> exact fun h => by cases h

theorem ofResults_ne_eventSet (result : Except MeasurementException BenchmarkResults) (id : ℤ) :
    Response.ofResults result ≠ .eventSet id := by
  cases result <;> exact fun h => by cases h

theorem step_slotStep {call : Call} {response : Response}
    (h : a.step hasPapi call = .ok (a', response)) : SlotStep a a' response := by
  cases hcalls : call.setCalls with
  | some calls =>
    rw [step_of_setCalls hcalls] at h
    obtain ⟨⟨a₁, result⟩, hwith, heq⟩ := except_bind_ok.mp h
    obtain ⟨rfl, rfl⟩ : a₁ = a' ∧ Response.ofUnit result = response := by simpa using heq
    exact ⟨.inl (withIds_length hwith), fun id hid => absurd hid (ofUnit_ne_eventSet _ id)⟩
  | none =>
    cases call with
    | createEventSet args o =>
      cases h
      have hcreation : FromCreation hasPapi a args o (createEventSet hasPapi a args o).1
          (createEventSet hasPapi a args o).2 := ⟨rfl, fun id hid => hid⟩
      exact hcreation.slotStep
    | createAttachedEventSetWithJavaThread threads javaThreadId args o attach =>
      obtain ⟨⟨a₁, result⟩, hattached, heq⟩ := except_bind_ok.mp h
      cases heq
      exact (createAttachedEventSetWithJavaThread_fromCreation hattached).slotStep
    | createAttachedEventSetWithNativeThread nativeThreadId args o attach =>
      obtain ⟨⟨a₁, result⟩, hattached, heq⟩ := except_bind_ok.mp h
      cases heq
      exact (createAttachedEventSetWithNativeThread_fromCreation hattached).slotStep
    | destroyEventSet jid =>
      obtain ⟨rfl, rfl⟩ := Prod.mk.inj (Except.ok.inj h)
      exact ⟨.inl (destroyEventSet_length a jid), fun id hid =>
        absurd hid (ofUnit_ne_eventSet _ id)⟩
    | getResults jid =>
      obtain ⟨result, -, heq⟩ := except_bind_ok.mp h
      obtain ⟨rfl, rfl⟩ := Prod.mk.inj (Except.ok.inj heq)
      exact ⟨.inl rfl, fun id hid => absurd hid (ofResults_ne_eventSet _ id)⟩
    | getRawResults jid =>
      obtain ⟨result, -, heq⟩ := except_bind_ok.mp h
      obtain ⟨rfl, rfl⟩ := Prod.mk.inj (Except.ok.inj heq)
      exact ⟨.inl rfl, fun id hid => absurd hid (ofResults_ne_eventSet _ id)⟩
    | start => cases hcalls
    | stop => cases hcalls
    | sample => cases hcalls
    | reset => cases hcalls

end Step

/-- At some moment of a run with this trace all but at most one slot of a table of `n` slots were
live. -/
def WasLive (hasPapi : Bool) (tr : List (Call × Response)) (n : ℕ) : Prop :=
  ∃ before after a, tr = before ++ after ∧
    run (Agent.step hasPapi) .initial (before.map Prod.fst) = .ok (a, before) ∧ n ≤ a.liveCount + 1

/-- The trace is that of a run to this table, which has not outgrown what was live. -/
structure SlotInv (hasPapi : Bool) (tr : List (Call × Response)) (a : Agent) : Prop where
  run : run (Agent.step hasPapi) .initial (tr.map Prod.fst) = .ok (a, tr)
  wasLive : WasLive hasPapi tr a.allEventsets.length

theorem SlotInv.initial (hasPapi : Bool) : SlotInv hasPapi [] .initial :=
  ⟨rfl, [], [], .initial, rfl, rfl, Nat.zero_le _⟩

theorem SlotInv.step {hasPapi : Bool} {tr : List (Call × Response)} {a a' : Agent} {call : Call}
    {response : Response} (h : SlotInv hasPapi tr a)
    (hstep : a.step hasPapi call = .ok (a', response)) :
    SlotInv hasPapi (tr ++ [(call, response)]) a' := by
  constructor
  · rw [List.map_append]
    exact run_trans h.run (run_cons_ok.mpr ⟨a', response, [], hstep, rfl, rfl⟩)
  · rcases (step_slotStep hstep).size with hsame | ⟨hgrown, hfull⟩
    · obtain ⟨before, after, a₁, rfl, hrun₁, hle⟩ := h.wasLive
      refine ⟨before, after ++ [(call, response)], a₁, List.append_assoc _ _ _, hrun₁, ?_⟩
      rw [hsame]
      exact hle
    · refine ⟨tr, [(call, response)], a, rfl, h.run, ?_⟩
      rw [hgrown, hfull]

/-- However many event sets are created and destroyed, the table has at most one slot more than
there were live event sets at some moment; and a new event set gets an id no larger than the
number of those that are live. -/
theorem table_slots_reused {hasPapi : Bool} {calls : List Call} {a : Agent}
    {tr : List (Call × Response)} (hrun : run (Agent.step hasPapi) .initial calls = .ok (a, tr)) :
    WasLive hasPapi tr a.allEventsets.length ∧
      ∀ call a' id, a.step hasPapi call = .ok (a', .eventSet id) → 0 ≤ id ∧ id ≤ a.liveCount := by
  constructor
  · have hinv : SlotInv hasPapi ([] ++ tr) a :=
      run_induction (fun _ _ _ _ _ h hstep => h.step hstep) [] (.initial hasPapi) hrun
    exact hinv.wasLive
  · intro call a' id hstep
    rw [(step_slotStep hstep).id id rfl]
    exact ⟨Int.natCast_nonneg _, Int.ofNat_le.mpr (freeSlot_le_liveCount a)⟩

/-- Two event sets one after the other use one slot. -/
theorem table_slots_reused_once : ∃ a tr,
    run (Agent.step false) .initial [.createEventSet (.wallclock 1) .success, .destroyEventSet 0,
      .createEventSet (.wallclock 2) .success] = .ok (a, tr) ∧
    WasLive false tr a.allEventsets.length := by
  obtain ⟨a, tr, hrun⟩ : ∃ a tr, run (Agent.step false) .initial
      [.createEventSet (.wallclock 1) .success, .destroyEventSet 0,
        .createEventSet (.wallclock 2) .success] = .ok (a, tr) := ⟨_, _, rfl⟩
  exact ⟨a, tr, hrun, (table_slots_reused hrun).1⟩

end UbenchAgent
