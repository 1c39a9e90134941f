import UbenchAgent.Table
import Mathlib.Data.Finset.Card
import Mathlib.Data.List.Dedup

/-!
# The counters of PAPI columns

Each PAPI event of an event set is to read the counter of its own id.  An id gets a place
among the counters when it first comes, but there are `UBENCH_MAX_PAPI_EVENTS` of them, and
an event whose id came too late silently keeps the index 0.
-/

namespace UbenchAgent

section Ids

variable {ids : List Int32}

theorem nodup_registeredIds (ids : List Int32) : (registeredIds ids).Nodup := by
  induction ids using List.reverseRecOn with
  | nil => exact List.nodup_nil
  | append_singleton ids id ih =>
    rw [registeredIds_concat, register]
    split_ifs with hc
    · exact ih
    · rw [List.nodup_append_comm, List.singleton_append, List.nodup_cons]
      exact ⟨fun hmem => hc (.inl hmem), ih⟩

theorem length_registeredIds_le (ids : List Int32) :
    (registeredIds ids).length ≤ ubenchMaxPapiEvents := by
  induction ids using List.reverseRecOn with
  | nil => exact Nat.zero_le _
  | append_singleton ids id ih =>
    rw [registeredIds_concat, register]
    split_ifs with hc
    · exact ih
    · rw [List.length_append, List.length_singleton]
      have hroom : ¬ ubenchMaxPapiEvents ≤ (registeredIds ids).length := fun hfull => hc (.inr hfull)
      omega

theorem registeredIds_subset (ids : List Int32) : registeredIds ids ⊆ ids := by
  induction ids using List.reverseRecOn with
  | nil => exact List.Subset.refl _
  | append_singleton ids id ih =>
    rw [registeredIds_concat, register]
    split_ifs with hc
    · exact List.subset_append_of_subset_left _ ih
    · intro x hx
      rcases List.mem_append.mp hx with hold | hnew
      · exact List.mem_append_left _ (ih hold)
      · exact List.mem_append_right _ hnew

/-- Every id gets a place exactly if there are places for the distinct ones. -/
theorem registeredIds_complete_iff (ids : List Int32) :
    ids ⊆ registeredIds ids ↔ ids.dedup.length ≤ ubenchMaxPapiEvents := by
  constructor
  · intro hall
    have hsub : ids.dedup ⊆ registeredIds ids := fun _ hid => hall (List.dedup_subset ids hid)
    have hle := (List.subperm_of_subset (List.nodup_dedup ids) hsub).length_le
    exact hle.trans (length_registeredIds_le ids)
  · intro hcount id hid
    by_contra hmissing
    -- The places are full, and `id` has none of them.
    have hfull : ubenchMaxPapiEvents ≤ (registeredIds ids).length := by
      by_contra hroom
      exact hmissing (mem_registeredIds (Nat.lt_of_not_le hroom) hid)
    have hnodup : (id :: registeredIds ids).Nodup :=
      List.nodup_cons.mpr ⟨hmissing, nodup_registeredIds ids⟩
    have hsub : id :: registeredIds ids ⊆ ids.dedup := by
      intro x hx
      rw [List.mem_dedup]
      rcases List.mem_cons.mp hx with rfl | hold
      · exact hid
      · exact registeredIds_subset ids hold
    have hle := (List.subperm_of_subset hnodup hsub).length_le
    rw [List.length_cons] at hle
    omega

end Ids

/-- The index of an event is the place of its id, unless the id came when all were taken. -/
def HasPlace (ids : List Int32) (event : EventInfo) : Prop :=
  ids[event.papiIndex.val]? = some event.id ∨
    (event.id ∉ ids ∧ ubenchMaxPapiEvents ≤ ids.length)

def Indexed (config : BenchmarkConfiguration) (ids : List Int32) : Prop :=
  ∀ event ∈ config.usedEvents, event.backend = backendPapi → HasPlace ids event

section Index

variable {config : BenchmarkConfiguration} {ids : List Int32}

theorem HasPlace.register {event : EventInfo} (h : HasPlace ids event) (id : Int32) :
    HasPlace (register ids id) event := by
  unfold UbenchAgent.register
  split_ifs with hc
  · exact h
  · rcases h with hplace | ⟨-, hfull⟩
    · left
      have hlt := (List.getElem?_eq_some_iff.mp hplace).1
      rw [List.getElem?_append_left hlt]
      exact hplace
    · exact absurd (.inr hfull) hc

theorem registerPapiEvent_hasPlace (h : Registered config ids) (info : EventInfo) :
    HasPlace (register ids info.id) (registerPapiEvent config info).2 := by
  unfold registerPapiEvent
  cases hreg : alreadyRegistered config info.id with
  | some j =>
    have hj := List.find?_some hreg
    simp only [Bool.and_eq_true, decide_eq_true_eq, beq_iff_eq] at hj
    have hget : ids[j.val]? = some info.id := by
      rw [← hj.2]
      apply h.get
      rw [← h.count]
      exact hj.1
    left
    rw [register, if_pos (.inl (List.mem_of_getElem? hget))]
    exact hget
  | none =>
    have hmem : info.id ∉ ids := (alreadyRegistered_eq_none h).mp hreg
    by_cases hlt : config.usedPapiEventsCount < ubenchMaxPapiEvents
    · simp only [hlt, ↓reduceDIte]
      left
      have hroom : ¬ (info.id ∈ ids ∨ ubenchMaxPapiEvents ≤ ids.length) := by
        rintro (hold | hfull)
        · exact hmem hold
        · rw [← h.count] at hfull
          omega
      rw [register, if_neg hroom]
      dsimp only
      rw [h.count, List.getElem?_append_right le_rfl, Nat.sub_self]
      rfl
    · simp only [hlt, ↓reduceDIte]
      right
      have hfull : ubenchMaxPapiEvents ≤ ids.length := by
        rw [← h.count]
        omega
      rw [register, if_pos (.inr hfull)]
      exact ⟨hmem, hfull⟩

theorem addEvent_indexed (h : Registered config ids) (hindexed : Indexed config ids)
    {info : EventInfo} (hp : info.backend = backendPapi) :
    Indexed (addEvent config info).1 (register ids info.id) := by
  obtain ⟨used, count, index, hreg, -⟩ := registerPapiEvent_spec h info
  have hplace := registerPapiEvent_hasPlace h info
  rw [hreg] at hplace
  have hevents : (addEvent config info).1.usedEvents =
      config.usedEvents ++ [{ info with papiIndex := index }] := by
    rw [addEvent, if_pos hp, hreg]
    dsimp only
    split_ifs <;> rfl
  intro event hevent hback
  rw [hevents] at hevent
  rcases List.mem_append.mp hevent with hold | hnew
  · exact (hindexed event hold hback).register info.id
  · rw [List.mem_singleton.mp hnew]
    exact hplace

end Index

section Loop

variable {hasPapi : Bool} {o : SetupOutcomes} {config : BenchmarkConfiguration}

theorem turn_indexed {done : List String} (h : LoopInv hasPapi o.papi done config)
    (hindexed : Indexed config (registeredIds (papiIds hasPapi o.papi done))) (i : ℕ)
    (name : String) :
    Indexed (addEvent config (storedEvent hasPapi o i name)).1
      (registeredIds (papiIds hasPapi o.papi (done ++ [name]))) := by
  rw [papiIds_concat]
  by_cases hp : isPapiName hasPapi o.papi name = true
  · rw [if_pos hp, registeredIds_concat]
    exact addEvent_indexed h.registered hindexed (eq_of_beq hp)
  · have hother : (storedEvent hasPapi o i name).backend ≠ backendPapi :=
      fun heq => hp (beq_iff_eq.mpr heq)
    rw [if_neg hp, addEvent_other hother]
    intro event hevent hback
    rcases List.mem_append.mp hevent with hold | hnew
    · exact hindexed event hold hback
    · rw [List.mem_singleton.mp hnew] at hback
      exact absurd hback hother

/-- A loop that ends normally gives every PAPI event the place of its id. -/
theorem resolveEvents_indexed {done : List String} (h : LoopInv hasPapi o.papi done config)
    (hindexed : Indexed config (registeredIds (papiIds hasPapi o.papi done)))
    {names : List String} {i : ℕ} {ledger : Ledger Resource}
    (hok : (resolveEvents hasPapi o i names config ledger).thrown = none) :
    Indexed (resolveEvents hasPapi o i names config ledger).config
      (registeredIds (papiIds hasPapi o.papi (done ++ names))) := by
  induction names generalizing done i config ledger with
  | nil =>
    rw [List.append_nil]
    exact hindexed
  | cons name rest ih =>
    obtain ⟨hrec, hdiff, heq⟩ := resolveEvents_cons hok
    rw [heq] at hok ⊢
    obtain ⟨dups, hdups⟩ :=
      acquireName_config config (ledger.acquire .stringChars).2 (o.strdup i)
    have hnamed := h.acquireName (ledger.acquire .stringChars).2 (o.strdup i)
    have hindexed' : Indexed (acquireName config (ledger.acquire .stringChars).2 (o.strdup i)).1
        (registeredIds (papiIds hasPapi o.papi done)) := by
      rw [hdups]
      exact hindexed
    obtain ⟨-, hkeep⟩ := hnamed.turn hrec (describes_storedEvent o i name)
    have happ : done ++ name :: rest = done ++ [name] ++ rest := by simp
    rw [happ]
    exact ih (hkeep hdiff) (turn_indexed hnamed hindexed' i name) hok

def isPapiEvent (event : EventInfo) : Bool := event.backend == backendPapi

theorem Stored.papiIds {i : ℕ} {names : List String} {events : List EventInfo}
    (h : Stored hasPapi o i names events) :
    (events.filter isPapiEvent).map (·.id) =
      papiIds hasPapi o.papi names := by
  induction names generalizing i events with
  | nil =>
    rw [Stored, List.zipIdx_nil, List.forall₂_nil_left_iff] at h
    rw [h]
    rfl
  | cons name names ih =>
    rw [Stored, List.zipIdx_cons] at h
    obtain _ | @⟨_, event, _, _, ⟨index, heq⟩, htail⟩ := h
    have hrest := ih htail
    have hback : event.backend = (eventOf hasPapi o.papi name).backend := by
      rw [heq]
      rfl
    have hid : event.id = (eventOf hasPapi o.papi name).id := by
      rw [heq]
      rfl
    unfold UbenchAgent.papiIds at hrest ⊢
    by_cases hp : isPapiName hasPapi o.papi name = true
    · have hevent : isPapiEvent event = true := by
        rw [isPapiEvent, hback]
        exact hp
      rw [List.filter_cons_of_pos hp, List.filter_cons_of_pos hevent, List.map_cons,
        List.map_cons, hrest, hid]
    · have hevent : ¬ isPapiEvent event = true := by
        rw [isPapiEvent, hback]
        exact hp
      rw [List.filter_cons_of_neg hp, List.filter_cons_of_neg hevent, hrest]

end Loop

/-- What the indices are for: the registered ids are distinct and within bounds, and every
PAPI event has the index of its own id, so that its getters report the counter of that id
and no other.  `first` and `last` are the counters by their ids at two snapshots. -/
structure OwnCounters (config : BenchmarkConfiguration) : Prop where
  nodup : ∀ i j : Fin ubenchMaxPapiEvents, i.val < config.usedPapiEventsCount →
    j.val < config.usedPapiEventsCount → config.usedPapiEvents i = config.usedPapiEvents j → i = j
  count_le : config.usedPapiEventsCount ≤ ubenchMaxPapiEvents
  index : ∀ event ∈ config.usedEvents, event.backend = backendPapi →
    event.papiIndex.val < config.usedPapiEventsCount ∧
      config.usedPapiEvents event.papiIndex = event.id
  getters : ∀ event ∈ config.usedEvents, event.backend = backendPapi →
    ∀ (first last : Int32 → Int64) (start stop : EventsSnapshot), start.papiRc1 = papiOk →
      start.papiRc2 = papiOk → stop.papiRc1 = papiOk →
      (∀ j : Fin ubenchMaxPapiEvents, j.val < config.usedPapiEventsCount →
        start.papiEvents j = first (config.usedPapiEvents j) ∧
          stop.papiEvents j = last (config.usedPapiEvents j)) →
      getterRawPapi start event = first event.id ∧
        getterPapi start stop event = last event.id - first event.id

section Columns

variable {config : BenchmarkConfiguration} {ids : List Int32}

theorem getters_of_index {event : EventInfo}
    (hindex : event.papiIndex.val < config.usedPapiEventsCount ∧
      config.usedPapiEvents event.papiIndex = event.id)
    {first last : Int32 → Int64} {start stop : EventsSnapshot} (hrc1 : start.papiRc1 = papiOk)
    (hrc2 : start.papiRc2 = papiOk) (hrc : stop.papiRc1 = papiOk)
    (hcounters : ∀ j : Fin ubenchMaxPapiEvents, j.val < config.usedPapiEventsCount →
      start.papiEvents j = first (config.usedPapiEvents j) ∧
        stop.papiEvents j = last (config.usedPapiEvents j)) :
    getterRawPapi start event = first event.id ∧
      getterPapi start stop event = last event.id - first event.id := by
  obtain ⟨hstart, hstop⟩ := hcounters event.papiIndex hindex.1
  rw [hindex.2] at hstart hstop
  constructor
  · rw [getterRawPapi, if_neg (not_not.mpr hrc1), if_neg (not_not.mpr hrc2), hstart]
  · rw [getterPapi, if_neg (not_not.mpr hrc1), if_neg (not_not.mpr hrc2),
      if_neg (not_not.mpr hrc), hstart, hstop]

/-- Where the PAPI events have their places, each reads its own counter exactly if every id
got a place. -/
theorem Registered.ownCounters_iff (h : Registered config ids) (hnodup : ids.Nodup)
    (hindexed : Indexed config ids) :
    OwnCounters config ↔
      ∀ event ∈ config.usedEvents, event.backend = backendPapi → event.id ∈ ids := by
  constructor
  · intro hown event hevent hback
    obtain ⟨hlt, hid⟩ := hown.index event hevent hback
    rw [h.count] at hlt
    rw [← hid]
    exact List.mem_of_getElem? (h.get event.papiIndex hlt)
  · intro hall
    have hindex : ∀ event ∈ config.usedEvents, event.backend = backendPapi →
        event.papiIndex.val < config.usedPapiEventsCount ∧
          config.usedPapiEvents event.papiIndex = event.id := by
      intro event hevent hback
      rcases hindexed event hevent hback with hplace | ⟨hmissing, -⟩
      · have hlt := (List.getElem?_eq_some_iff.mp hplace).1
        have hget := h.get event.papiIndex hlt
        rw [hplace, Option.some_inj] at hget
        exact ⟨h.count ▸ hlt, hget.symm⟩
      · exact absurd (hall event hevent hback) hmissing
    refine ⟨fun i j hi hj heq => ?_, ?_, hindex, ?_⟩
    · rw [h.count] at hi hj
      have hi' := h.get i hi
      have hj' := h.get j hj
      rw [heq, ← hj'] at hi'
      exact Fin.ext ((List.getElem?_inj hi hnodup).mp hi')
    · rw [h.count]
      exact h.length_le
    · intro event hevent hback first last start stop hrc1 hrc2 hrc hcounters
      exact getters_of_index (hindex event hevent hback) hrc1 hrc2 hrc hcounters

end Columns

section Created

variable {hasPapi : Bool} {o : SetupOutcomes} {size : ℕ} {args : CreateArgs}
  {config : BenchmarkConfiguration} {ledger : Ledger Resource}

theorem configure_indexed (h : (configure hasPapi o size args config ledger).thrown = none) :
    Indexed (configure hasPapi o size args config ledger).config
      (registeredIds (papiIds hasPapi o.papi args.jeventNames)) := by
  obtain ⟨hloop, owned, howned⟩ := configure_config h
  have hindexed := resolveEvents_indexed (prepared_inv config size _ _)
    (fun _ hevent => absurd hevent List.not_mem_nil) hloop
  rw [howned]
  exact hindexed

/-- The event set that `configure` leaves reads its own counters exactly if the distinct PAPI
events fit. -/
theorem configure_ownCounters_iff
    (h : (configure hasPapi o size args config ledger).thrown = none) :
    OwnCounters (configure hasPapi o size args config ledger).config ↔
      (papiIds hasPapi o.papi args.jeventNames).dedup.length ≤ ubenchMaxPapiEvents := by
  have hcreated := configure_created h
  rw [hcreated.loop.registered.ownCounters_iff (nodup_registeredIds _) (configure_indexed h),
    ← registeredIds_complete_iff]
  generalize registeredIds (papiIds hasPapi o.papi args.jeventNames) = places
  rw [← hcreated.stored.papiIds]
  constructor
  · intro hall id hid
    obtain ⟨event, hevent, rfl⟩ := List.mem_map.mp hid
    obtain ⟨hmem, hback⟩ := List.mem_filter.mp hevent
    exact hall event hmem (eq_of_beq hback)
  · intro hall event hevent hback
    apply hall
    apply List.mem_map_of_mem
    exact List.mem_filter.mpr ⟨hevent, beq_iff_eq.mpr hback⟩

theorem createEventSet_configured {a a' : Agent} {o : CreateOutcomes} {id : ℤ}
    (hcreate : createEventSet hasPapi a args o = (a', .ok id))
    (hconfig : a'.validConfig id = some config) : ∃ before ledger,
      (configure hasPapi o.toSetupOutcomes args.size args before ledger).thrown = none ∧
        config = (configure hasPapi o.toSetupOutcomes args.size args before ledger).config := by
  obtain ⟨haccepted, rfl, -⟩ := createEventSet_created hcreate
  obtain ⟨eventsets, eventset, -, hlt, -, heq⟩ :=
    createEventSet_slot hasPapi haccepted.measurements haccepted.events haccepted.room
  have hthrown : (configure hasPapi o.toSetupOutcomes args.size args eventset.config
      a.ledger).thrown = none := configure_thrown.mpr haccepted.configurable
  refine ⟨eventset.config, a.ledger, hthrown, ?_⟩
  rw [heq, fillSlot] at hcreate
  dsimp only at hcreate
  rw [hthrown] at hcreate
  obtain rfl := congrArg Prod.fst hcreate
  dsimp only at hconfig
  rw [validConfig_set hlt, if_pos rfl] at hconfig
  exact (Option.some.inj hconfig).symm

end Created

/-- A created event set reads its own PAPI counters exactly if its names stand for at most
`UBENCH_MAX_PAPI_EVENTS` distinct PAPI events. -/
theorem createEventSet_ownCounters_iff {a a' : Agent} {args : CreateArgs} {o : CreateOutcomes}
    {id : ℤ} {config : BenchmarkConfiguration}
    (hcreate : createEventSet true a args o = (a', .ok id))
    (hconfig : a'.validConfig id = some config) :
    OwnCounters config ↔
      (papiIds true o.papi args.jeventNames).dedup.length ≤ ubenchMaxPapiEvents := by
  obtain ⟨before, ledger, hthrown, rfl⟩ := createEventSet_configured hcreate hconfig
  exact configure_ownCounters_iff hthrown

def PapiLibrary.numbered : PapiLibrary :=
  { PapiLibrary.permissive with
    eventNameToCode := fun name => (papiOk, Int32.ofNat name.toList.length) }

def CreateArgs.numbered (n : ℕ) : CreateArgs :=
  ⟨1, (List.range n).map fun k => String.ofList (List.replicate (k + 1) 'E'), []⟩

theorem accepted_numbered {n : ℕ} (hn : 0 < n)
    (hrec : ∀ name ∈ (CreateArgs.numbered n).jeventNames,
      recognized true .numbered name = true) :
    Accepted true .initial (.numbered n) { CreateOutcomes.success with papi := .numbered } := by
  have hnames : (CreateArgs.numbered n).jeventNames ≠ [] := by
    rw [CreateArgs.numbered, Ne, List.map_eq_nil_iff, List.range_eq_nil]
    omega
  have hcount : 0 < (1 : Int32) * 2 := by decide
  exact accepted_oneComponent (fun _ => rfl) hcount hnames hrec

/-- With 21 PAPI events the last keeps the index 0, which is that of the first. -/
theorem not_ownCounters_twentyone :
    ∃ a' id config, createEventSet true .initial (.numbered 21)
        { CreateOutcomes.success with papi := .numbered } = (a', .ok id) ∧
      a'.validConfig id = some config ∧ ¬ OwnCounters config := by
  have haccepted := accepted_numbered (n := 21) (by decide) (by decide +kernel)
  obtain ⟨a', config, hcreate, -, htable, -⟩ := createEventSet_accepted haccepted
  have hconfig : a'.validConfig (Agent.freeSlot .initial) = some config := by
    rw [htable, if_pos rfl]
  refine ⟨a', _, config, hcreate, hconfig, ?_⟩
  obtain ⟨before, ledger, hthrown, rfl⟩ := createEventSet_configured hcreate hconfig
  rw [configure_ownCounters_iff hthrown]
  have hcount : (papiIds true .numbered (CreateArgs.numbered 21).jeventNames).dedup.length = 21 := by
    decide +kernel
  change ¬ (papiIds true .numbered (CreateArgs.numbered 21).jeventNames).dedup.length ≤ 20
  omega

/-- Three PAPI events have counters of their own. -/
theorem ownCounters_three :
    ∃ a' id config, createEventSet true .initial (.numbered 3)
        { CreateOutcomes.success with papi := .numbered } = (a', .ok id) ∧
      a'.validConfig id = some config ∧ OwnCounters config := by
  have haccepted := accepted_numbered (n := 3) (by decide) (by decide)
  obtain ⟨a', config, hcreate, -, htable, -⟩ := createEventSet_accepted haccepted
  have hconfig : a'.validConfig (Agent.freeSlot .initial) = some config := by
    rw [htable, if_pos rfl]
  exact ⟨a', _, config, hcreate, hconfig,
    (createEventSet_ownCounters_iff hcreate hconfig).mpr (by decide)⟩

end UbenchAgent
