import UbenchAgent.Creation
import UbenchAgent.History

/-!
# The table of event sets

What each call does to the table as seen through `validConfig`: the partial map from
ids to the configurations of valid event sets.
-/

namespace UbenchAgent

open SlotTable

/-- The slots of the table; an invalid event set is a free slot. -/
def slotsOf (eventsets : List Eventset) : List (Option BenchmarkConfiguration) :=
  eventsets.map fun eventset => if eventset.valid then some eventset.config else none

def Agent.freeSlot (a : Agent) : ℕ := lowestFree (slotsOf a.allEventsets)

theorem validConfig_eq_lookup (a : Agent) (id : ℤ) :
    a.validConfig id = lookup (slotsOf a.allEventsets) id := by
  unfold Agent.validConfig Agent.eventsetAt lookup slotsOf
  split_ifs with hneg
  · rfl
  · rw [List.getElem?_map]
    cases a.allEventsets[id.toNat]? with
    | none => rfl
    | some eventset => rfl

theorem validConfig_eq_some {a : Agent} {id : ℤ} {config : BenchmarkConfiguration}
    (h : a.validConfig id = some config) :
    ∃ i : ℕ, id = i ∧ i < a.allEventsets.length := by
  rw [validConfig_eq_lookup] at h
  obtain ⟨i, rfl, hi, -⟩ := lookup_eq_some h
  exact ⟨i, rfl, by simpa [slotsOf] using hi⟩

theorem slotsOf_set {eventsets : List Eventset} {i : ℕ} (hi : i < eventsets.length)
    (eventset : Eventset) :
    slotsOf (eventsets.set i eventset) =
      put (slotsOf eventsets) i (if eventset.valid then some eventset.config else none) := by
  rw [put, if_pos (by simpa [slotsOf] using hi), slotsOf, slotsOf, List.map_set]

theorem validConfig_set {eventsets : List Eventset} {ledger : Ledger Resource} {i : ℕ}
    (hi : i < eventsets.length) (eventset : Eventset) (id : ℤ) :
    Agent.validConfig ⟨eventsets.set i eventset, ledger⟩ id =
      if id = i then (if eventset.valid then some eventset.config else none)
      else Agent.validConfig ⟨eventsets, ledger⟩ id := by
  rw [validConfig_eq_lookup, validConfig_eq_lookup, slotsOf_set hi,
    lookup_put (by simpa [slotsOf] using hi.le)]

theorem validConfig_ledger (eventsets : List Eventset) (ledger ledger' : Ledger Resource)
    (id : ℤ) : Agent.validConfig ⟨eventsets, ledger⟩ id = Agent.validConfig ⟨eventsets, ledger'⟩ id :=
  rfl

theorem validConfig_freeSlot (a : Agent) : a.validConfig a.freeSlot = none := by
  rw [validConfig_eq_lookup]
  exact lookup_lowestFree _

theorem validConfig_initial (id : ℤ) : Agent.initial.validConfig id = none := by
  rw [validConfig_eq_lookup]
  simp [Agent.initial, slotsOf, lookup]

theorem freeSlot_congr {a a' : Agent}
    (h : ∀ id, (a.validConfig id).isNone = (a'.validConfig id).isNone) :
    a.freeSlot = a'.freeSlot :=
  lowestFree_congr fun id => by rw [← validConfig_eq_lookup, ← validConfig_eq_lookup, h id]

/-- The search of `createEventSet` finds the lowest free slot of the table. -/
theorem findFreeSlot_eq_some {eventsets : List Eventset} {i j : ℕ} {eventset : Eventset}
    (h : findFreeSlot i eventsets = some (j, eventset)) :
    j = i + lowestFree (slotsOf eventsets) ∧ lowestFree (slotsOf eventsets) < eventsets.length ∧
      eventset.valid = false := by
  induction eventsets generalizing i with
  | nil => cases h
  | cons first rest ih =>
    rw [findFreeSlot] at h
    cases hv : first.valid with
    | false =>
      rw [hv] at h
      simp only [Bool.not_false, ↓reduceIte, Option.some.injEq, Prod.mk.injEq] at h
      obtain ⟨rfl, rfl⟩ := h
      simp [slotsOf, lowestFree, hv, List.findIdx_cons]
    | true =>
      rw [hv] at h
      simp only [Bool.not_true, Bool.false_eq_true, ↓reduceIte] at h
      obtain ⟨hj, hlt, hfree⟩ := ih h
      have hsucc : lowestFree (slotsOf (first :: rest)) = lowestFree (slotsOf rest) + 1 := by
        simp [slotsOf, lowestFree, hv, List.findIdx_cons]
      rw [hsucc, List.length_cons]
      exact ⟨by omega, by omega, hfree⟩

theorem findFreeSlot_eq_none {eventsets : List Eventset} {i : ℕ} :
    findFreeSlot i eventsets = none ↔ ∀ eventset ∈ eventsets, eventset.valid = true := by
  induction eventsets generalizing i with
  | nil => simp [findFreeSlot]
  | cons first rest ih =>
    rw [findFreeSlot]
    cases hv : first.valid <;> simp [hv, ih]

theorem lowestFree_full {eventsets : List Eventset}
    (h : ∀ eventset ∈ eventsets, eventset.valid = true) :
    lowestFree (slotsOf eventsets) = eventsets.length := by
  have hlen : (slotsOf eventsets).length = eventsets.length := by simp [slotsOf]
  rw [← hlen]
  refine List.findIdx_eq_length.mpr fun x hx => ?_
  obtain ⟨eventset, hmem, rfl⟩ := List.mem_map.mp hx
  simp [h eventset hmem]

def HasRoom (a : Agent) (o : CreateOutcomes) : Prop :=
  (∃ eventset ∈ a.allEventsets, eventset.valid = false) ∨ o.realloc = true

/-- What `createEventSet` asks of its arguments, of the table, of the allocator and of PAPI. -/
structure Accepted (hasPapi : Bool) (a : Agent) (args : CreateArgs) (o : CreateOutcomes) :
    Prop where
  measurements : 0 < args.jmeasurements * 2
  events : args.jeventNames ≠ []
  room : HasRoom a o
  configurable : Configurable hasPapi args o.toSetupOutcomes

def CreateArgs.size (args : CreateArgs) : ℕ := (args.jmeasurements * 2).toInt.toNat

section Create

variable {hasPapi : Bool} {a : Agent} {args : CreateArgs} {o : CreateOutcomes}

variable (hasPapi) in
/-- Beyond the checks of its arguments and the choice of the slot, `createEventSet` is
`fillSlot` in the lowest free slot. -/
theorem createEventSet_slot (hmeas : 0 < args.jmeasurements * 2) (hevents : args.jeventNames ≠ [])
    (hroom : HasRoom a o) :
    ∃ eventsets eventset, eventset.valid = false ∧ a.freeSlot < eventsets.length ∧
      (∀ id, Agent.validConfig ⟨eventsets, a.ledger⟩ id = a.validConfig id) ∧
      createEventSet hasPapi a args o =
        fillSlot hasPapi ⟨eventsets, a.ledger⟩ a.freeSlot eventset args.size args o := by
  have hlen : ¬ args.jeventNames.length = 0 := by simpa using hevents
  unfold createEventSet
  dsimp only
  rw [if_neg (Int32.not_le.mpr hmeas), if_neg hlen]
  cases hfind : findFreeSlot 0 a.allEventsets with
  | some found =>
    obtain ⟨j, eventset⟩ := found
    obtain ⟨hj, hlt, hfree⟩ := findFreeSlot_eq_some hfind
    rw [Nat.zero_add] at hj
    exact ⟨a.allEventsets, eventset, hfree, hlt, fun _ => rfl, by rw [hj]; rfl⟩
  | none =>
    have hfull := findFreeSlot_eq_none.mp hfind
    have hrealloc : o.realloc = true := by
      rcases hroom with ⟨eventset, hmem, hfree⟩ | h
      · rw [hfull eventset hmem] at hfree
        cases hfree
      · exact h
    have hslot : a.freeSlot = a.allEventsets.length := lowestFree_full hfull
    refine ⟨a.allEventsets ++ [⟨o.fresh, false⟩], ⟨o.fresh, false⟩, rfl, by simp [hslot],
      fun id => ?_, by rw [hrealloc, hslot]; rfl⟩
    have happ : slotsOf (a.allEventsets ++ [⟨o.fresh, false⟩]) =
        put (slotsOf a.allEventsets) a.allEventsets.length none := by
      simp [put, slotsOf]
    rw [validConfig_eq_lookup, validConfig_eq_lookup, happ,
      lookup_put (by simp [slotsOf])]
    split_ifs with hid
    · rw [hid, ← hslot, ← validConfig_eq_lookup]
      exact (validConfig_freeSlot a).symm
    · rfl

variable (hasPapi) in
theorem createEventSet_early
    (h : args.jmeasurements * 2 ≤ 0 ∨ args.jeventNames = [] ∨ ¬ HasRoom a o) :
    ∃ e, createEventSet hasPapi a args o = (a, .error e) := by
  unfold createEventSet
  dsimp only
  by_cases hmeas : args.jmeasurements * 2 ≤ 0
  · rw [if_pos hmeas]
    exact ⟨_, rfl⟩
  by_cases hevents : args.jeventNames.length = 0
  · rw [if_neg hmeas, if_pos hevents]
    exact ⟨_, rfl⟩
  have hroom : ¬ HasRoom a o := by
    rcases h with h | h | h
    · exact absurd h hmeas
    · exact absurd (List.length_eq_zero_iff.mpr h) hevents
    · exact h
  have hfind : findFreeSlot 0 a.allEventsets = none := by
    refine findFreeSlot_eq_none.mpr fun eventset hmem => ?_
    by_contra hfree
    exact hroom (.inl ⟨eventset, hmem, Bool.not_eq_true _ ▸ hfree⟩)
  have hrealloc : o.realloc = false := by
    rw [← Bool.not_eq_true]
    exact fun hr => hroom (.inr hr)
  rw [if_neg hmeas, if_neg hevents, hfind, hrealloc]
  exact ⟨_, rfl⟩

/-- A creation that is not accepted throws, and what ids name stays as it was. -/
theorem createEventSet_rejected (h : ¬ Accepted hasPapi a args o) :
    ∃ a' e, createEventSet hasPapi a args o = (a', .error e) ∧
      ∀ id, a'.validConfig id = a.validConfig id := by
  by_cases hearly : args.jmeasurements * 2 ≤ 0 ∨ args.jeventNames = [] ∨ ¬ HasRoom a o
  · obtain ⟨e, heq⟩ := createEventSet_early hasPapi hearly
    exact ⟨a, e, heq, fun _ => rfl⟩
  · simp only [not_or, not_not, Int32.not_le] at hearly
    obtain ⟨hmeas, hevents, hroom⟩ := hearly
    obtain ⟨eventsets, eventset, hfree, hlt, hsame, heq⟩ :=
      createEventSet_slot hasPapi hmeas hevents hroom
    have hc : (configure hasPapi o.toSetupOutcomes args.size args eventset.config
        a.ledger).thrown ≠ none := fun hc =>
      h ⟨hmeas, hevents, hroom, configure_thrown.mp hc⟩
    obtain ⟨e, he⟩ := Option.ne_none_iff_exists'.mp hc
    rw [heq, fillSlot]
    dsimp only
    rw [he]
    refine ⟨_, e, rfl, fun id => ?_⟩
    rw [validConfig_set hlt, hfree]
    split_ifs with hid
    · contradiction
    · rw [hid]
      exact (validConfig_freeSlot a).symm
    · exact hsame id

/-- An accepted creation returns the lowest free slot and makes it name a created
configuration. -/
theorem createEventSet_accepted (h : Accepted hasPapi a args o) :
    ∃ a' config, createEventSet hasPapi a args o = (a', .ok a.freeSlot) ∧
      Created hasPapi args o.toSetupOutcomes args.size config ∧
      (∀ id, a'.validConfig id = if id = a.freeSlot then some config else a.validConfig id) ∧
      ∀ config₁ ledger, config.view =
        (configure hasPapi o.toSetupOutcomes args.size args config₁ ledger).config.view := by
  obtain ⟨eventsets, eventset, hfree, hlt, hsame, heq⟩ :=
    createEventSet_slot hasPapi h.measurements h.events h.room
  have hc : (configure hasPapi o.toSetupOutcomes args.size args eventset.config
      a.ledger).thrown = none := configure_thrown.mpr h.configurable
  rw [heq, fillSlot]
  dsimp only
  rw [hc]
  refine ⟨_, _, rfl, configure_created hc, fun id => ?_, fun _ _ => configure_view hc⟩
  rw [validConfig_set hlt, validConfig_ledger eventsets _ a.ledger, hsame]
  rfl

end Create

section Exceptions

variable {hasPapi : Bool} {o : SetupOutcomes}

theorem resolveEvents_valid (names : List String) (i : ℕ) (config : BenchmarkConfiguration)
    (ledger : Ledger Resource) :
    (resolveEvents hasPapi o i names config ledger).thrown ≠ some .invalidEventSetId := by
  induction names generalizing i config ledger with
  | nil => simp [resolveEvents]
  | cons name rest ih =>
    cases hrec : recognized hasPapi o.papi name with
    | false =>
      rw [resolveEvents_unrecognized hrec]
      simp
    | true =>
      rw [resolveEvents_recognized hrec]
      dsimp only
      split_ifs
      · simp
      · exact ih _ _ _

theorem setupPapi_valid (joptions : List Int32) (config : BenchmarkConfiguration)
    (ledger : Ledger Resource) :
    (setupPapi o joptions config ledger).thrown ≠ some .invalidEventSetId := by
  unfold setupPapi
  dsimp only
  split_ifs
  · simp
  · simp
  · cases papiInherit o 0 joptions with
    | some rc => simp
    | none => cases papiAddEvents o config.usedPapiEventsCount 0 <;> simp
  · simp

theorem configure_valid (size : ℕ) (args : CreateArgs) (config : BenchmarkConfiguration)
    (ledger : Ledger Resource) :
    (configure hasPapi o size args config ledger).thrown ≠ some .invalidEventSetId := by
  by_cases hdata : o.callocData = true
  · by_cases hevents : o.callocEvents = true
    · rw [configure_eq hdata hevents]
      dsimp only
      cases ht : (loopStage hasPapi o size args config ledger).thrown with
      | some e =>
        dsimp only
        exact resolveEvents_valid _ _ _ _
      | none =>
        dsimp only
        split_ifs
        · exact setupPapi_valid _ _ _
        · exact resolveEvents_valid _ _ _ _
    · simp [configure, hdata, hevents]
  · simp [configure, hdata]

variable (hasPapi) in
theorem createEventSet_valid (a : Agent) (args : CreateArgs) (o : CreateOutcomes) :
    (createEventSet hasPapi a args o).2 ≠ .error .invalidEventSetId := by
  have hfill : ∀ (a : Agent) (i : ℕ) (eventset : Eventset) (size : ℕ),
      (fillSlot hasPapi a i eventset size args o).2 ≠ .error .invalidEventSetId := by
    intro a i eventset size
    have hvalid : (configure hasPapi o.toSetupOutcomes size args eventset.config
        a.ledger).thrown ≠ some .invalidEventSetId := configure_valid _ _ _ _
    unfold fillSlot
    dsimp only
    cases ht : (configure hasPapi o.toSetupOutcomes size args eventset.config a.ledger).thrown with
    | none => simp
    | some e =>
      rw [ht] at hvalid
      simpa using hvalid
  unfold createEventSet
  cases findFreeSlot 0 a.allEventsets with
  | some found =>
    dsimp only
    split_ifs
    · simp
    · simp
    · exact hfill _ _ _ _
  | none =>
    dsimp only
    split_ifs
    · simp
    · simp
    · simp
    · exact hfill _ _ _ _

end Exceptions

theorem validConfig_setEventset {a : Agent} {id : ℤ} {config : BenchmarkConfiguration}
    (h : a.validConfig id = some config) (eventset : Eventset) (id' : ℤ) :
    (a.setEventset id eventset).validConfig id' =
      if id' = id then (if eventset.valid then some eventset.config else none)
      else a.validConfig id' := by
  obtain ⟨i, rfl, hi⟩ := validConfig_eq_some h
  exact validConfig_set hi eventset id'

theorem validConfig_setValid {a : Agent} {id : ℤ} {config : BenchmarkConfiguration}
    (h : a.validConfig id = some config) (config' : BenchmarkConfiguration) (id' : ℤ) :
    (a.setEventset id ⟨config', true⟩).validConfig id' =
      if id' = id then some config' else a.validConfig id' :=
  validConfig_setEventset h ⟨config', true⟩ id'

theorem isSome_setValid {a : Agent} {id : ℤ} {config : BenchmarkConfiguration}
    (config' : BenchmarkConfiguration) (h : a.validConfig id = some config) (id' : ℤ) :
    ((a.setEventset id ⟨config', true⟩).validConfig id').isSome = (a.validConfig id').isSome := by
  rw [validConfig_setValid h]
  split_ifs with hid
  · rw [hid, h]
    rfl
  · rfl

theorem destroyEventSet_invalid {a : Agent} {id : ℤ} (h : a.validConfig id = none) :
    destroyEventSet a id = (a, .error .invalidEventSetId) := by
  rw [destroyEventSet, h]

theorem destroyEventSet_valid {a : Agent} {id : ℤ} {config : BenchmarkConfiguration}
    (h : a.validConfig id = some config) :
    ∃ a', destroyEventSet a id = (a', .ok ()) ∧
      ∀ id', a'.validConfig id' = if id' = id then none else a.validConfig id' := by
  rw [destroyEventSet, h]
  exact ⟨_, rfl, validConfig_setEventset h _⟩

theorem stepBack_view (config : BenchmarkConfiguration) :
    stepBack config.view = (stepBack config).view := by
  change (if config.dataIndex ≥ config.dataSize then _ else _) = _
  unfold stepBack
  split_ifs <;> rfl

theorem slot_view (config : BenchmarkConfiguration) (call : SetCall) :
    call.slot config.view = call.slot config := by
  cases call with
  | start r =>
    simp only [SetCall.slot, stepBack_view]
    rfl
  | stop r => rfl
  | sample userId r =>
    simp only [SetCall.slot, stepBack_view]
    rfl
  | reset => rfl

theorem papi_view (config : BenchmarkConfiguration) (call : SetCall) :
    call.papi config.view = call.papi config := by
  cases call with
  | start r =>
    simp only [SetCall.papi, papiState_papiStarted]
    rfl
  | stop r =>
    simp only [SetCall.papi, papiState_papiStopped]
    rfl
  | sample userId r => rfl
  | reset => rfl

theorem apply_view (config : BenchmarkConfiguration) (call : SetCall) :
    call.apply config.view = (call.apply config).map BenchmarkConfiguration.view := by
  cases hslot : call.slot config with
  | some i =>
    have hfill : call.fill config.view = call.fill config := by cases call <;> rfl
    rw [apply_of_slot (slot_view config call ▸ hslot), apply_of_slot hslot, hfill, papi_view]
    have hdata : config.view.data[i]? = config.data[i]? := rfl
    rw [hdata]
    cases config.data[i]? <;> rfl
  | none =>
    have hview := (slot_view config call).trans hslot
    rcases apply_of_slot_none hslot with ⟨rfl, ha⟩ | ⟨h0, ha⟩
    · rw [ha]
      rfl
    · rcases apply_of_slot_none hview with ⟨rfl, -⟩ | ⟨-, ha'⟩
      · rfl
      · rw [ha, ha']
        rfl

/-- Two tables look the same. -/
def Looks (a a' : Agent) : Prop :=
  ∀ id, (a.validConfig id).map BenchmarkConfiguration.view =
    (a'.validConfig id).map BenchmarkConfiguration.view

theorem Looks.isNone {a a' : Agent} (h : Looks a a') (id : ℤ) :
    (a.validConfig id).isNone = (a'.validConfig id).isNone := by
  have := congrArg Option.isNone (h id)
  simpa using this

theorem Looks.cases {a a' : Agent} (h : Looks a a') (id : ℤ) :
    (a.validConfig id = none ∧ a'.validConfig id = none) ∨
      ∃ config config', a.validConfig id = some config ∧ a'.validConfig id = some config' ∧
        config.view = config'.view := by
  have hid := h id
  cases hc : a.validConfig id with
  | none =>
    rw [hc, Option.map_none, eq_comm, Option.map_eq_none_iff] at hid
    exact .inl ⟨rfl, hid⟩
  | some config =>
    rw [hc, Option.map_some, eq_comm, Option.map_eq_some_iff] at hid
    obtain ⟨config', hc', hview⟩ := hid
    exact .inr ⟨config, config', rfl, hc', hview.symm⟩

theorem apply_looks {config config' : BenchmarkConfiguration} (h : config.view = config'.view)
    (call : SetCall) :
    (call.apply config).map BenchmarkConfiguration.view =
      (call.apply config').map BenchmarkConfiguration.view := by
  rw [← apply_view, ← apply_view, h]

theorem foldlM_apply_looks {config config' : BenchmarkConfiguration}
    (h : config.view = config'.view) (calls : List SetCall) :
    (calls.foldlM SetCall.apply config).map BenchmarkConfiguration.view =
      (calls.foldlM SetCall.apply config').map BenchmarkConfiguration.view := by
  induction calls generalizing config config' with
  | nil => exact congrArg Except.ok h
  | cons call calls ih =>
    have hlooks := apply_looks h call
    rw [List.foldlM_cons, List.foldlM_cons]
    cases hc : call.apply config with
    | error f =>
      rw [hc] at hlooks
      cases hc' : call.apply config' with
      | error f' =>
        rw [hc'] at hlooks
        exact hlooks
      | ok config₁' =>
        rw [hc'] at hlooks
        cases hlooks
    | ok config₁ =>
      rw [hc] at hlooks
      cases hc' : call.apply config' with
      | error f' =>
        rw [hc'] at hlooks
        cases hlooks
      | ok config₁' =>
        rw [hc'] at hlooks
        exact ih (by simpa [Except.map] using hlooks)

/-- The calls of a list that name an id, as its event set sees them. -/
def callsOn (id : ℤ) (calls : List (ℤ × SetCall)) : List SetCall :=
  (calls.filter fun x => x.1 == id).map Prod.snd

/-- The loop over the ids either serves every call, or throws at an id that names nothing. -/
theorem forEachEventset_result {calls : List (ℤ × SetCall)} {a a' : Agent}
    {result : Except MeasurementException Unit}
    (h : forEachEventset calls a = .ok (a', result)) :
    (∀ id, (a'.validConfig id).isSome = (a.validConfig id).isSome) ∧
      ((result = .ok () ∧ ∀ x ∈ calls, (a.validConfig x.1).isSome = true) ∨
        (result = .error .invalidEventSetId ∧ ∃ x ∈ calls, a.validConfig x.1 = none)) := by
  induction calls generalizing a with
  | nil =>
    obtain ⟨rfl, rfl⟩ : a = a' ∧ .ok () = result := by simpa [forEachEventset] using h
    exact ⟨fun _ => rfl, .inl ⟨rfl, by simp⟩⟩
  | cons x rest ih =>
    obtain ⟨id, call⟩ := x
    rw [forEachEventset] at h
    cases hc : a.validConfig id with
    | none =>
      rw [hc] at h
      obtain ⟨rfl, rfl⟩ : a = a' ∧ .error .invalidEventSetId = result := by simpa using h
      exact ⟨fun _ => rfl, .inr ⟨rfl, (id, call), by simp, hc⟩⟩
    | some config =>
      rw [hc] at h
      obtain ⟨config', -, h⟩ := except_bind_ok.mp h
      obtain ⟨hsame, hres⟩ := ih h
      have hset := isSome_setValid config' hc
      refine ⟨fun id' => (hsame id').trans (hset id'), ?_⟩
      rcases hres with ⟨hr, hall⟩ | ⟨hr, y, hy, hnone⟩
      · refine .inl ⟨hr, fun y hy => ?_⟩
        rcases List.mem_cons.mp hy with rfl | hy
        · rw [hc]
          rfl
        · rw [← hset]
          exact hall y hy
      · refine .inr ⟨hr, y, List.mem_cons_of_mem _ hy, ?_⟩
        rw [← Option.isNone_iff_eq_none, ← Option.isSome_eq_false_iff, ← hset]
        simp [hnone]

/-- A loop that serves every call does to each event set what the calls that name it do,
in their order. -/
theorem forEachEventset_served {calls : List (ℤ × SetCall)} {a a' : Agent}
    (h : forEachEventset calls a = .ok (a', .ok ())) {id : ℤ} {config : BenchmarkConfiguration}
    (hc : a.validConfig id = some config) :
    ∃ config', (callsOn id calls).foldlM SetCall.apply config = .ok config' ∧
      a'.validConfig id = some config' := by
  induction calls generalizing a config with
  | nil =>
    obtain rfl : a = a' := by simpa [forEachEventset] using h
    exact ⟨config, rfl, hc⟩
  | cons x rest ih =>
    obtain ⟨id₁, call⟩ := x
    rw [forEachEventset] at h
    cases hc₁ : a.validConfig id₁ with
    | none =>
      rw [hc₁] at h
      cases h
    | some config₁ =>
      rw [hc₁] at h
      obtain ⟨config₂, happly, hrest⟩ := except_bind_ok.mp h
      by_cases hid : id₁ = id
      · subst hid
        rw [hc] at hc₁
        obtain rfl : config = config₁ := by simpa using hc₁
        have hset : (a.setEventset id₁ ⟨config₂, true⟩).validConfig id₁ = some config₂ := by
          rw [validConfig_setValid hc, if_pos rfl]
        obtain ⟨config', hrun, hc'⟩ := ih hrest hset
        refine ⟨config', ?_, hc'⟩
        rw [callsOn, List.filter_cons_of_pos (by simp), List.map_cons, List.foldlM_cons, happly]
        exact hrun
      · have hset : (a.setEventset id₁ ⟨config₂, true⟩).validConfig id = some config := by
          rw [validConfig_setValid hc₁, if_neg (Ne.symm hid), hc]
        obtain ⟨config', hrun, hc'⟩ := ih hrest hset
        refine ⟨config', ?_, hc'⟩
        rw [callsOn, List.filter_cons_of_neg (by simpa using hid)]
        exact hrun

/-- Tables that look the same go through a loop over ids alike. -/
theorem forEachEventset_looks (calls : List (ℤ × SetCall)) {a b : Agent} (h : Looks a b) :
    (∃ a' b' result, forEachEventset calls a = .ok (a', result) ∧
        forEachEventset calls b = .ok (b', result) ∧ Looks a' b') ∨
      (∃ f, forEachEventset calls a = .error f ∧ forEachEventset calls b = .error f) := by
  induction calls generalizing a b with
  | nil => exact .inl ⟨a, b, .ok (), rfl, rfl, h⟩
  | cons x rest ih =>
    obtain ⟨id, call⟩ := x
    rw [forEachEventset, forEachEventset]
    rcases h.cases id with ⟨ha, hb⟩ | ⟨config, config', ha, hb, hview⟩
    · rw [ha, hb]
      exact .inl ⟨a, b, _, rfl, rfl, h⟩
    · rw [ha, hb]
      have hlooks := apply_looks hview call
      dsimp only
      cases hc : call.apply config with
      | error f =>
        rw [hc] at hlooks
        cases hc' : call.apply config' with
        | error f' =>
          rw [hc'] at hlooks
          have hf : f = f' := by simpa [Except.map] using hlooks
          exact .inr ⟨f, rfl, by rw [hf]; rfl⟩
        | ok config₁' =>
          rw [hc'] at hlooks
          cases hlooks
      | ok config₁ =>
        rw [hc] at hlooks
        cases hc' : call.apply config' with
        | error f' =>
          rw [hc'] at hlooks
          cases hlooks
        | ok config₁' =>
          rw [hc'] at hlooks
          have hview' : config₁.view = config₁'.view := by simpa [Except.map] using hlooks
          refine ih fun id' => ?_
          rw [validConfig_setValid ha, validConfig_setValid hb]
          split_ifs
          · exact congrArg some hview'
          · exact h id'

theorem validConfig_withLedger (a : Agent) (ledger : Ledger Resource) :
    ({ a with ledger := ledger } : Agent).validConfig = a.validConfig :=
  rfl

theorem withIds_ok {calls : List (ℤ × SetCall)} {a a' : Agent}
    {result : Except MeasurementException Unit} (h : withIds a calls = .ok (a', result)) :
    ∃ a₁, forEachEventset calls { a with ledger := (a.ledger.acquire .intArray).2 } =
        .ok (a₁, result) ∧ a'.validConfig = a₁.validConfig := by
  unfold withIds at h
  split_ifs at h with hempty
  · obtain ⟨rfl, rfl⟩ : a = a' ∧ .ok () = result := by simpa using h
    rw [List.length_eq_zero_iff.mp hempty]
    exact ⟨_, rfl, rfl⟩
  · obtain ⟨⟨a₁, result₁⟩, hloop, h⟩ := except_bind_ok.mp h
    cases result₁ with
    | error e =>
      obtain ⟨rfl, rfl⟩ : a₁ = a' ∧ .error e = result := by simpa using h
      exact ⟨a₁, hloop, rfl⟩
    | ok u =>
      obtain ⟨rfl, rfl⟩ : _ = a' ∧ .ok () = result := by simpa using h
      exact ⟨a₁, hloop, rfl⟩

theorem withIds_looks (calls : List (ℤ × SetCall)) {a b : Agent} (h : Looks a b) :
    (∃ a' b' result, withIds a calls = .ok (a', result) ∧ withIds b calls = .ok (b', result) ∧
        Looks a' b') ∨
      (∃ f, withIds a calls = .error f ∧ withIds b calls = .error f) := by
  unfold withIds
  split_ifs with hempty
  · exact .inl ⟨a, b, .ok (), rfl, rfl, h⟩
  · have h' : Looks { a with ledger := (a.ledger.acquire .intArray).2 }
        { b with ledger := (b.ledger.acquire .intArray).2 } := h
    dsimp only
    rcases forEachEventset_looks calls h' with ⟨a', b', result, ha, hb, hlooks⟩ | ⟨f, ha, hb⟩
    · rw [ha, hb]
      cases result with
      | error e => exact .inl ⟨a', b', _, rfl, rfl, hlooks⟩
      | ok u => exact .inl ⟨_, _, _, rfl, rfl, hlooks⟩
    · rw [ha, hb]
      exact .inr ⟨f, rfl, rfl⟩

def SetCall.on (id : ℤ) : SetCall → Call
  | .start r => .start [(id, r)]
  | .stop r => .stop [(id, r)]
  | .sample userId r => .sample userId [(id, r)]
  | .reset => .reset [id]

section On

variable (hasPapi : Bool) {a : Agent} {id : ℤ} {config : BenchmarkConfiguration}

/-- A call on one event set is its loop body: it fails with it or changes what the id names
to its result. -/
theorem step_on (hc : a.validConfig id = some config) (call : SetCall) :
    (∃ config' a', call.apply config = .ok config' ∧
        a.step hasPapi (call.on id) = .ok (a', .done) ∧
        ∀ id', a'.validConfig id' = if id' = id then some config' else a.validConfig id') ∨
      (∃ f, call.apply config = .error f ∧ a.step hasPapi (call.on id) = .error f) := by
  have hstep : a.step hasPapi (call.on id) =
      (withIds a [(id, call)] >>= fun x => .ok (x.1, Response.ofUnit x.2)) := by
    cases call <;> rfl
  have hvalid : Agent.validConfig { a with ledger := (a.ledger.acquire .intArray).2 } id =
      some config := hc
  rw [hstep, withIds, if_neg (by simp)]
  dsimp only
  rw [forEachEventset, hvalid]
  dsimp only
  cases happly : call.apply config with
  | error f => exact .inr ⟨f, rfl, rfl⟩
  | ok config' => exact .inl ⟨config', _, rfl, rfl, validConfig_setValid hc config'⟩

theorem run_on (hc : a.validConfig id = some config) (calls : List SetCall) :
    (∃ config' a' tr, calls.foldlM SetCall.apply config = .ok config' ∧
        run (Agent.step hasPapi) a (calls.map (SetCall.on id)) = .ok (a', tr) ∧
        a'.validConfig id = some config') ∨
      (∃ f, calls.foldlM SetCall.apply config = .error f ∧
        run (Agent.step hasPapi) a (calls.map (SetCall.on id)) = .error f) := by
  induction calls generalizing a config with
  | nil => exact .inl ⟨config, a, [], rfl, rfl, hc⟩
  | cons call calls ih =>
    rw [List.foldlM_cons, List.map_cons]
    rcases step_on hasPapi hc call with ⟨config₁, a₁, happly, hstep, hset⟩ | ⟨f, happly, hstep⟩
    · rw [happly]
      have hc₁ : a₁.validConfig id = some config₁ := by rw [hset, if_pos rfl]
      rcases ih hc₁ with ⟨config', a', tr, hfold, hrun, hc'⟩ | ⟨f, hfold, hrun⟩
      · exact .inl ⟨config', a', _, hfold, run_cons_ok.mpr ⟨a₁, .done, tr, hstep, hrun, rfl⟩, hc'⟩
      · exact .inr ⟨f, hfold, by
          rw [run, hstep]
          simp only [except_ok_bind, hrun, except_error_bind]⟩
    · rw [happly]
      exact .inr ⟨f, rfl, by rw [run, hstep]; rfl⟩

end On

/-- A positive doubled count is even, and it is twice the count unless the count is
negative. -/
theorem size_spec {args : CreateArgs} (h : 0 < args.jmeasurements * 2) :
    2 ≤ args.size ∧ args.size < 2 ^ 31 ∧
      (1 ≤ args.jmeasurements → args.size = 2 * args.jmeasurements.toInt.toNat) := by
  have hpos : 0 < (args.jmeasurements * 2).toInt := Int32.lt_iff_toInt_lt.mp h
  have hlt := (args.jmeasurements * 2).toInt_lt
  have hmul : (args.jmeasurements * 2).toInt = (args.jmeasurements.toInt * 2).bmod (2 ^ 32) :=
    Int32.toInt_mul _ _
  have hbound := args.jmeasurements.toInt_lt
  unfold CreateArgs.size
  rw [Int.bmod_def] at hmul
  refine ⟨by omega, by omega, fun h1 => ?_⟩
  have h1' : 1 ≤ args.jmeasurements.toInt := Int32.le_iff_toInt_le.mp h1
  omega

theorem Created.logInv {hasPapi : Bool} {args : CreateArgs} {o : SetupOutcomes}
    {config : BenchmarkConfiguration} (h : Created hasPapi args o args.size config)
    (hmeas : 0 < args.jmeasurements * 2) : LogInv config := by
  obtain ⟨h₁, h₂, -⟩ := size_spec hmeas
  exact ⟨by rw [h.data, List.length_replicate, h.dataSize], by rw [h.dataSize]; exact h₁,
    by rw [h.dataSize]; omega, by rw [h.dataIndex]; exact Nat.zero_le _⟩

theorem Created.recorded {L : Type} {hasPapi : Bool} {args : CreateArgs} {o : SetupOutcomes}
    {config : BenchmarkConfiguration} (h : Created hasPapi args o args.size config)
    (hmeas : 0 < args.jmeasurements * 2) :
    Recorded config (fun _ => (none : Option (L × SetCall))) (fun _ => 0) where
  inv := h.logInv hmeas
  visible i hi := by
    rw [h.dataIndex] at hi
    cases hi
  papiRc2 _ i s hs := by
    rw [h.data] at hs
    rw [List.eq_of_mem_replicate (List.mem_of_getElem? hs)]
    rfl
  agree _ _ _ _ hx := by cases hx
  writes _ _ hx := by cases hx

theorem Created.shows {L : Type} {hasPapi : Bool} {args : CreateArgs} {o : SetupOutcomes}
    {size : ℕ} {config : BenchmarkConfiguration} (h : Created hasPapi args o size config) :
    Shows config (fun _ => (none : Option (L × SetCall))) [] :=
  ⟨h.dataIndex, fun _ hi => by cases hi⟩

/-- What a successful `createEventSet` leaves under the id that it returns. -/
theorem createEventSet_created {hasPapi : Bool} {a a' : Agent} {args : CreateArgs}
    {o : CreateOutcomes} {id : ℤ} (h : createEventSet hasPapi a args o = (a', .ok id)) :
    Accepted hasPapi a args o ∧ id = a.freeSlot ∧ ∃ config, a'.validConfig id = some config ∧
      Created hasPapi args o.toSetupOutcomes args.size config ∧
      ∀ id', a'.validConfig id' = if id' = id then some config else a.validConfig id' := by
  by_cases hacc : Accepted hasPapi a args o
  · obtain ⟨a₁, config, heq, hcreated, hset, -⟩ := createEventSet_accepted hacc
    obtain ⟨rfl, rfl⟩ : a₁ = a' ∧ (a.freeSlot : ℤ) = id := by simpa [heq] using h
    exact ⟨hacc, rfl, config, by rw [hset, if_pos rfl], hcreated, hset⟩
  · obtain ⟨a₁, e, heq, -⟩ := createEventSet_rejected hacc
    rw [heq] at h
    cases h

theorem createEventSet_view {hasPapi : Bool} {a a' b b' : Agent} {args : CreateArgs}
    {o o' : CreateOutcomes} {id id' : ℤ} {config config' : BenchmarkConfiguration}
    (h : createEventSet hasPapi a args o = (a', .ok id))
    (h' : createEventSet hasPapi b args o' = (b', .ok id'))
    (hsetup : o.toSetupOutcomes = o'.toSetupOutcomes) (hc : a'.validConfig id = some config)
    (hc' : b'.validConfig id' = some config') : config.view = config'.view := by
  obtain ⟨a₁, config₁, heq₁, -, htable₁, hview₁⟩ :=
    createEventSet_accepted (createEventSet_created h).1
  obtain ⟨b₁, config₂, heq₂, -, htable₂, hview₂⟩ :=
    createEventSet_accepted (createEventSet_created h').1
  obtain ⟨rfl, rfl⟩ : a₁ = a' ∧ (a.freeSlot : ℤ) = id := by simpa [heq₁] using h
  obtain ⟨rfl, rfl⟩ : b₁ = b' ∧ (b.freeSlot : ℤ) = id' := by simpa [heq₂] using h'
  rw [htable₁, if_pos rfl, Option.some.injEq] at hc
  rw [htable₂, if_pos rfl, Option.some.injEq] at hc'
  rw [← hc, ← hc', hview₁ config .empty, hview₂ config .empty, hsetup]

def PapiLibrary.permissive : PapiLibrary where
  eventNameToCode := fun _ => (papiOk, 1)
  getEventInfo := fun _ => (papiOk, ⟨0, 1⟩)
  isPreset := fun _ => false

def CreateOutcomes.success : CreateOutcomes where
  callocData := true
  callocEvents := true
  strdup := fun _ => true
  papi := PapiLibrary.permissive
  papiCreate := papiOk
  papiAssign := papiOk
  papiSetOpt := fun _ => papiOk
  papiAddEvent := fun _ => papiOk
  realloc := true
  fresh := ⟨0, [], fun _ => 0, 0, 0, ⟨false, none⟩, [], 0, 0, ⟨none, none, [], none⟩⟩

/-- There every event set with names that are recognized is accepted, if all PAPI events
belong to one component. -/
theorem accepted_oneComponent {hasPapi : Bool} {a : Agent} {args : CreateArgs}
    {papi : PapiLibrary} {component : Int32}
    (hcomponent : ∀ code, (papi.getEventInfo code).2.componentIndex = component)
    (hmeas : 0 < args.jmeasurements * 2) (hevents : args.jeventNames ≠ [])
    (hrec : ∀ name ∈ args.jeventNames, recognized hasPapi papi name = true) :
    Accepted hasPapi a args { CreateOutcomes.success with papi := papi } := by
  refine ⟨hmeas, hevents, .inr rfl, rfl, rfl, hrec, ?_, ?_⟩
  · intro name hname name' hname' hp hp'
    have hfirst := (eventOf_component (hrec name hname) hp).trans (hcomponent _)
    have hsecond := (eventOf_component (hrec name' hname') hp').trans (hcomponent _)
    exact hfirst.trans hsecond.symm
  · exact fun _ => ⟨rfl, rfl, fun _ _ => rfl, fun _ _ => rfl⟩

theorem accepted_success {hasPapi : Bool} {a : Agent} {args : CreateArgs}
    (hmeas : 0 < args.jmeasurements * 2) (hevents : args.jeventNames ≠ [])
    (hrec : ∀ name ∈ args.jeventNames,
      recognized hasPapi PapiLibrary.permissive name = true) :
    Accepted hasPapi a args CreateOutcomes.success :=
  accepted_oneComponent (fun _ => rfl) hmeas hevents hrec

theorem createEventSet_eq {hasPapi : Bool} {a : Agent} {args : CreateArgs} {o : CreateOutcomes}
    (h : Accepted hasPapi a args o) :
    createEventSet hasPapi a args o = ((createEventSet hasPapi a args o).1, .ok a.freeSlot) := by
  obtain ⟨a', config, heq, -⟩ := createEventSet_accepted h
  rw [heq]

def CreateArgs.wallclock (measurements : Int32) : CreateArgs :=
  ⟨measurements, ["SYS:wallclock-time"], []⟩

theorem accepted_wallclock (hasPapi : Bool) (a : Agent) (measurements : Int32)
    (h : 0 < measurements * 2) :
    Accepted hasPapi a (.wallclock measurements) CreateOutcomes.success := by
  refine accepted_success h (by simp [CreateArgs.wallclock]) fun name hname => ?_
  rw [List.mem_singleton.mp hname]
  cases hasPapi <;> decide

def CreateArgs.instructions : CreateArgs := ⟨1, ["PAPI_TOT_INS"], []⟩

theorem accepted_instructions (a : Agent) : Accepted true a .instructions .success := by
  refine accepted_success (by decide) (by simp [CreateArgs.instructions]) fun name hname => ?_
  rw [List.mem_singleton.mp hname]
  decide

theorem isPapiName_instructions : ∃ name ∈ CreateArgs.instructions.jeventNames,
    isPapiName true CreateOutcomes.success.papi name = true :=
  ⟨"PAPI_TOT_INS", List.mem_singleton_self _, by decide⟩

end UbenchAgent
