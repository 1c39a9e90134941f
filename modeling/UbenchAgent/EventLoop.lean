import UbenchAgent.Agent
import UbenchAgent.Resolution

/-!
# The event loop of creation

`createEventSet` resolves the names one after another, registers the PAPI events and
checks that their components agree.  The loop ends normally exactly if every name is
recognized and all PAPI events are of one component, and then every event is served.
-/

namespace UbenchAgent

/-- What the loop stores for a recognized name, before the PAPI index is known. -/
def storedEvent (hasPapi : Bool) (o : SetupOutcomes) (i : ℕ) (name : String) : EventInfo :=
  { eventOf hasPapi o.papi name with name := if o.strdup i then some name else none }

/-- An event added to the configuration, and whether the component check throws. -/
def addEvent (config : BenchmarkConfiguration) (info : EventInfo) :
    BenchmarkConfiguration × Bool :=
  if info.backend = backendPapi then
    let (config, info) := registerPapiEvent config info
    let config := appendEvent config info
    if config.usedPapiEventsCount > 1 ∧ config.papiComponent ≠ info.papiComponent then
      (config, true)
    else ({ config with papiComponent := info.papiComponent }, false)
  else (appendEvent config info, false)

section Turn

variable {hasPapi : Bool} {o : SetupOutcomes} {i : ℕ} {name : String} {rest : List String}
  {config : BenchmarkConfiguration} {ledger : Ledger Resource}

theorem resolveEvents_recognized (h : recognized hasPapi o.papi name = true) :
    resolveEvents hasPapi o i (name :: rest) config ledger =
      let chars := ledger.acquire .stringChars
      let named := acquireName config chars.2 (o.strdup i)
      let added := addEvent named.1 (storedEvent hasPapi o i name)
      if added.2 then ⟨added.1, named.2, some .papiComponentsDiffer⟩
      else resolveEvents hasPapi o (i + 1) rest added.1 (named.2.release chars.1) := by
  have hres : ubenchEventResolve hasPapi o.papi (o.strdup i) name EventInfo.calloc =
      (true, storedEvent hasPapi o i name) := ubenchEventResolve_recognized h _
  rw [resolveEvents, hres]
  generalize storedEvent hasPapi o i name = info
  dsimp only
  unfold addEvent
  by_cases hp : info.backend = backendPapi
  · rw [if_pos hp, if_pos hp]
    dsimp only
    split_ifs <;> first | rfl | contradiction
  · rw [if_neg hp, if_neg hp]
    rfl

theorem resolveEvents_unrecognized (h : recognized hasPapi o.papi name = false) :
    resolveEvents hasPapi o i (name :: rest) config ledger =
      let chars := ledger.acquire .stringChars
      ⟨config, freeArrays config (chars.2.release chars.1), some (.unrecognizedEvent name)⟩ := by
  have hres := ubenchEventResolve_unrecognized h (o.strdup i)
  rw [resolveEvents]
  cases heq : ubenchEventResolve hasPapi o.papi (o.strdup i) name EventInfo.calloc with
  | mk ok info =>
    rw [heq] at hres
    dsimp only at hres
    rw [hres]

/-- A loop that ends normally recognizes the first name, passes its component check and goes on
to the next name. -/
theorem resolveEvents_cons
    (h : (resolveEvents hasPapi o i (name :: rest) config ledger).thrown = none) :
    let chars := ledger.acquire .stringChars
    let named := acquireName config chars.2 (o.strdup i)
    let added := addEvent named.1 (storedEvent hasPapi o i name)
    recognized hasPapi o.papi name = true ∧ added.2 = false ∧
      resolveEvents hasPapi o i (name :: rest) config ledger =
        resolveEvents hasPapi o (i + 1) rest added.1 (named.2.release chars.1) := by
  cases hrec : recognized hasPapi o.papi name with
  | false =>
    rw [resolveEvents_unrecognized hrec] at h
    cases h
  | true =>
    rw [resolveEvents_recognized hrec] at h ⊢
    dsimp only at h ⊢
    split_ifs at h ⊢ with hdiff
    exact ⟨rfl, Bool.not_eq_true _ ▸ hdiff, rfl⟩

end Turn

def register (ids : List Int32) (id : Int32) : List Int32 :=
  if id ∈ ids ∨ ubenchMaxPapiEvents ≤ ids.length then ids else ids ++ [id]

def registeredIds (ids : List Int32) : List Int32 := ids.foldl register []

theorem registeredIds_concat (ids : List Int32) (id : Int32) :
    registeredIds (ids ++ [id]) = register (registeredIds ids) id := by
  simp [registeredIds]

/-- As long as there is room, every id is registered. -/
theorem mem_registeredIds {ids : List Int32}
    (hroom : (registeredIds ids).length < ubenchMaxPapiEvents) {id : Int32} (h : id ∈ ids) :
    id ∈ registeredIds ids := by
  induction ids using List.reverseRecOn with
  | nil => cases h
  | append_singleton ids last ih =>
    rw [registeredIds_concat] at hroom ⊢
    unfold register at hroom ⊢
    split_ifs at hroom ⊢ with hc
    · rcases List.mem_append.mp h with h | h
      · exact ih hroom h
      · rw [List.mem_singleton.mp h]
        exact hc.resolve_right (by omega)
    · rw [List.length_append, List.length_singleton] at hroom
      rcases List.mem_append.mp h with h | h
      · exact List.mem_append_left _ (ih (by omega) h)
      · exact List.mem_append_right _ h

theorem registeredIds_eq_nil {ids : List Int32} : registeredIds ids = [] ↔ ids = [] := by
  constructor
  · intro h
    by_contra hne
    obtain ⟨id, hid⟩ := List.exists_mem_of_ne_nil ids hne
    have := mem_registeredIds (by rw [h]; decide) hid
    rw [h] at this
    cases this
  · rintro rfl
    rfl

structure Registered (config : BenchmarkConfiguration) (ids : List Int32) : Prop where
  count : config.usedPapiEventsCount = ids.length
  length_le : ids.length ≤ ubenchMaxPapiEvents
  get : ∀ j : Fin ubenchMaxPapiEvents, j.val < ids.length →
    ids[j.val]? = some (config.usedPapiEvents j)

theorem alreadyRegistered_eq_none {config : BenchmarkConfiguration} {ids : List Int32}
    (h : Registered config ids) {id : Int32} : alreadyRegistered config id = none ↔ id ∉ ids := by
  rw [alreadyRegistered, List.find?_eq_none]
  constructor
  · intro hnone hmem
    obtain ⟨j, hj, hget⟩ := List.getElem_of_mem hmem
    have hlt : j < ubenchMaxPapiEvents := hj.trans_le h.length_le
    refine hnone ⟨j, hlt⟩ (List.mem_finRange _) ?_
    have := h.get ⟨j, hlt⟩ hj
    rw [List.getElem?_eq_getElem hj, Option.some.injEq] at this
    simp [h.count, hj, ← this, hget]
  · intro hmem j _ hj
    simp only [h.count, Bool.and_eq_true, decide_eq_true_eq, beq_iff_eq] at hj
    exact hmem (hj.2 ▸ List.mem_of_getElem? (h.get j hj.1))

/-- Registration touches the registered ids and their number, and gives the event an
index below that number. -/
theorem registerPapiEvent_spec {config : BenchmarkConfiguration} {ids : List Int32}
    (h : Registered config ids) (info : EventInfo) :
    ∃ used count index, registerPapiEvent config info =
        ({ config with usedPapiEvents := used, usedPapiEventsCount := count },
          { info with papiIndex := index }) ∧
      Registered { config with usedPapiEvents := used, usedPapiEventsCount := count }
        (register ids info.id) ∧
      config.usedPapiEventsCount ≤ count ∧ (info.papiIndex = 0 → index.val < count) := by
  unfold registerPapiEvent
  cases hreg : alreadyRegistered config info.id with
  | some j =>
    have hmem : info.id ∈ ids := by
      by_contra hmem
      rw [(alreadyRegistered_eq_none h).mpr hmem] at hreg
      cases hreg
    have hj := List.find?_some hreg
    simp only [Bool.and_eq_true, decide_eq_true_eq] at hj
    refine ⟨_, _, j, rfl, ?_, Nat.le_refl _, fun _ => hj.1⟩
    rw [register, if_pos (.inl hmem)]
    exact h
  | none =>
    have hmem : info.id ∉ ids := (alreadyRegistered_eq_none h).mp hreg
    by_cases hlt : config.usedPapiEventsCount < ubenchMaxPapiEvents
    · simp only [hlt, ↓reduceDIte]
      refine ⟨_, _, _, rfl, ?_, Nat.le_succ _, fun _ => Nat.lt_succ_self _⟩
      have hroom : ids.length < ubenchMaxPapiEvents := h.count ▸ hlt
      rw [register, if_neg (by simp [hmem, hroom])]
      refine ⟨by simp [h.count], by simp; omega, fun j hj => ?_⟩
      rw [List.length_append, List.length_singleton] at hj
      by_cases hjl : j.val = ids.length
      · have hj' : j = ⟨config.usedPapiEventsCount, hlt⟩ := Fin.ext (hjl.trans h.count.symm)
        simp [hj', h.count]
      · have hj' : j ≠ ⟨config.usedPapiEventsCount, hlt⟩ := fun he =>
          hjl ((congrArg Fin.val he).trans h.count)
        rw [List.getElem?_append_left (by omega)]
        simp only [Function.update_of_ne hj']
        exact h.get j (by omega)
    · simp only [hlt, ↓reduceDIte]
      have hfull : ubenchMaxPapiEvents ≤ ids.length := by
        rw [← h.count]
        omega
      refine ⟨config.usedPapiEvents, config.usedPapiEventsCount, info.papiIndex, rfl, ?_,
        Nat.le_refl _, fun h0 => ?_⟩
      · rw [register, if_pos (.inr hfull)]
        exact h
      · rw [h0]
        change 0 < _
        omega

def papiIds (hasPapi : Bool) (papi : PapiLibrary) (names : List String) : List Int32 :=
  (names.filter (isPapiName hasPapi papi)).map fun name => (eventOf hasPapi papi name).id

/-- All PAPI events among the names are of one component. -/
def SameComponent (hasPapi : Bool) (papi : PapiLibrary) (names : List String) : Prop :=
  ∀ name ∈ names, ∀ name' ∈ names, isPapiName hasPapi papi name = true →
    isPapiName hasPapi papi name' = true →
    (eventOf hasPapi papi name).papiComponent = (eventOf hasPapi papi name').papiComponent

/-- The configuration after the loop has passed the names `done`. -/
structure LoopInv (hasPapi : Bool) (papi : PapiLibrary) (done : List String)
    (config : BenchmarkConfiguration) : Prop where
  recognized : ∀ name ∈ done, recognized hasPapi papi name = true
  served : EventsServed config
  used : config.uses backendPapi → ∃ event ∈ config.usedEvents, event.opGet = some .papi
  uses : config.uses backendPapi ↔ ∃ name ∈ done, isPapiName hasPapi papi name = true
  registered : Registered config (registeredIds (papiIds hasPapi papi done))
  component : ∀ name ∈ done, isPapiName hasPapi papi name = true →
    (eventOf hasPapi papi name).papiComponent = config.papiComponent

structure Added (config config' : BenchmarkConfiguration) (info event : EventInfo) : Prop where
  event_eq : ∃ index, event = { info with papiIndex := index }
  usedEvents : config'.usedEvents = config.usedEvents ++ [event]
  usedBackends : config'.usedBackends = config.usedBackends ||| info.backend
  count_le : config.usedPapiEventsCount ≤ config'.usedPapiEventsCount
  papiIndex : info.backend = backendPapi → info.papiIndex = 0 →
    event.papiIndex.val < config'.usedPapiEventsCount
  frame : config' = { config with
    usedEvents := config'.usedEvents
    usedBackends := config'.usedBackends
    usedPapiEvents := config'.usedPapiEvents
    usedPapiEventsCount := config'.usedPapiEventsCount
    papiComponent := config'.papiComponent }

section Loop

variable {hasPapi : Bool} {papi : PapiLibrary} {done : List String}
  {config config' : BenchmarkConfiguration} {ids : List Int32}

theorem addEvent_other {info : EventInfo} (hp : info.backend ≠ backendPapi) :
    addEvent config info = (appendEvent config info, false) :=
  if_neg hp

theorem addEvent_papi {info : EventInfo} (hp : info.backend = backendPapi)
    (h : Registered config ids) :
    (∃ event, Added config (addEvent config info).1 info event) ∧
      Registered (addEvent config info).1 (register ids info.id) ∧
      ((addEvent config info).2 = true ↔
        1 < (register ids info.id).length ∧ config.papiComponent ≠ info.papiComponent) ∧
      ((addEvent config info).2 = false →
        (addEvent config info).1.papiComponent = info.papiComponent) := by
  obtain ⟨used, count, index, hreg, hids, hcount, hindex⟩ := registerPapiEvent_spec h info
  have hadd : addEvent config info =
      if count > 1 ∧ config.papiComponent ≠ info.papiComponent then
        (appendEvent { config with usedPapiEvents := used, usedPapiEventsCount := count }
          { info with papiIndex := index }, true)
      else
        ({ appendEvent { config with usedPapiEvents := used, usedPapiEventsCount := count }
          { info with papiIndex := index } with papiComponent := info.papiComponent }, false) := by
    rw [addEvent, if_pos hp, hreg]
    rfl
  rw [← hids.count, hadd]
  split_ifs with hc
  · exact ⟨⟨_, ⟨index, rfl⟩, rfl, rfl, hcount, fun _ => hindex, rfl⟩,
      ⟨hids.count, hids.length_le, hids.get⟩, by simpa using hc, by simp⟩
  · exact ⟨⟨_, ⟨index, rfl⟩, rfl, rfl, hcount, fun _ => hindex, rfl⟩,
      ⟨hids.count, hids.length_le, hids.get⟩, by simpa using hc, by simp⟩

theorem addEvent_added (h : Registered config ids) (info : EventInfo) :
    ∃ event, Added config (addEvent config info).1 info event := by
  by_cases hp : info.backend = backendPapi
  · exact (addEvent_papi hp h).1
  · rw [addEvent_other hp]
    exact ⟨info, ⟨info.papiIndex, rfl⟩, rfl, rfl, Nat.le_refl _, fun h => absurd h hp, rfl⟩

theorem EventsServed.congr (h : EventsServed config)
    (hevents : config'.usedEvents = config.usedEvents)
    (hmask : config'.usedBackends = config.usedBackends)
    (hcount : config'.usedPapiEventsCount = config.usedPapiEventsCount) :
    EventsServed config' := by
  intro event hmem
  rw [hevents] at hmem
  obtain ⟨getter, hserved⟩ := h event hmem
  refine ⟨getter, hserved.opGet, hserved.opGetRaw, hserved.backend, ?_, ?_⟩
  · rw [uses_iff, hmask, ← uses_iff]
    exact hserved.uses
  · rw [hcount]
    exact hserved.papiIndex

theorem EventsServed.added {info event : EventInfo} {getter : EventGetterFunc}
    (hserved : EventsServed config) (h : Added config config' info event)
    (hb : info.backend = getter.backend) (hg : info.opGet = some getter)
    (hr : info.opGetRaw = some getter.raw) (hi : info.papiIndex = 0) : EventsServed config' := by
  obtain ⟨index, hevent⟩ := h.event_eq
  intro e he
  rw [h.usedEvents, List.mem_append, List.mem_singleton] at he
  rcases he with he | rfl
  · obtain ⟨g, hg⟩ := hserved e he
    exact ⟨g, hg.opGet, hg.opGetRaw, hg.backend, uses_mono hg.uses h.usedBackends,
      fun hp => (hg.papiIndex hp).trans_le h.count_le⟩
  · have hu : config'.usedBackends = config.usedBackends ||| getter.backend :=
      h.usedBackends.trans (by rw [hb])
    refine ⟨getter, by rw [hevent]; exact hg, by rw [hevent]; exact hr, by rw [hevent]; exact hb,
      uses_of_or (backend_ne_zero getter) hu, fun hp => h.papiIndex ?_ hi⟩
    rw [hb]
    exact backend_eq_papi.mpr hp

theorem backend_disjoint {getter : EventGetterFunc} (h : getter ≠ .papi) :
    getter.backend &&& backendPapi = 0 := by
  cases getter <;> first | decide | exact absurd rfl h

theorem papiIds_concat (names : List String) (name : String) :
    papiIds hasPapi papi (names ++ [name]) =
      if isPapiName hasPapi papi name then
        papiIds hasPapi papi names ++ [(eventOf hasPapi papi name).id]
      else papiIds hasPapi papi names := by
  unfold papiIds
  rw [List.filter_append, List.map_append]
  cases hp : isPapiName hasPapi papi name <;> simp [hp]

theorem papiIds_eq_nil {names : List String} :
    papiIds hasPapi papi names = [] ↔ ∀ name ∈ names, ¬ isPapiName hasPapi papi name = true := by
  simp [papiIds]

/-- The component check throws exactly if an earlier PAPI event is of another component:
while only one id is registered the check is not made, and then the components agree. -/
theorem LoopInv.differs_iff (h : LoopInv hasPapi papi done config) {name : String}
    (hrec : UbenchAgent.recognized hasPapi papi name = true)
    (hp : isPapiName hasPapi papi name = true) :
    (1 < (register (registeredIds (papiIds hasPapi papi done))
          (eventOf hasPapi papi name).id).length ∧
        config.papiComponent ≠ (eventOf hasPapi papi name).papiComponent) ↔
      ∃ earlier ∈ done, isPapiName hasPapi papi earlier = true ∧
        (eventOf hasPapi papi earlier).papiComponent ≠
          (eventOf hasPapi papi name).papiComponent := by
  constructor
  · rintro ⟨hlen, hne⟩
    have hnil : papiIds hasPapi papi done ≠ [] := by
      intro hnil
      rw [hnil] at hlen
      exact absurd hlen (by simp [registeredIds, register])
    rw [ne_eq, papiIds_eq_nil] at hnil
    push Not at hnil
    obtain ⟨earlier, hmem, hpe⟩ := hnil
    exact ⟨earlier, hmem, hpe, by rw [h.component earlier hmem hpe]; exact hne⟩
  · rintro ⟨earlier, hmem, hpe, hne⟩
    refine ⟨?_, by rw [← h.component earlier hmem hpe]; exact hne⟩
    by_contra hlen
    have hid : (eventOf hasPapi papi earlier).id ∈ papiIds hasPapi papi done :=
      List.mem_map_of_mem (List.mem_filter.mpr ⟨hmem, hpe⟩)
    -- One registered id at most, so both events have it, and an id tells the component.
    have hshort : (registeredIds (papiIds hasPapi papi done)).length < ubenchMaxPapiEvents ∧
        (eventOf hasPapi papi name).id ∈ registeredIds (papiIds hasPapi papi done) ∧
        (registeredIds (papiIds hasPapi papi done)).length ≤ 1 := by
      unfold register at hlen
      split_ifs at hlen with hc
      · have hle : (registeredIds (papiIds hasPapi papi done)).length ≤ 1 := by omega
        have hlt : (registeredIds (papiIds hasPapi papi done)).length < ubenchMaxPapiEvents :=
          hle.trans_lt (by decide)
        exact ⟨hlt, hc.resolve_right (by omega), hle⟩
      · rw [List.length_append, List.length_singleton] at hlen
        have hnil : registeredIds (papiIds hasPapi papi done) = [] :=
          List.eq_nil_of_length_eq_zero (by omega)
        rw [registeredIds_eq_nil.mp hnil] at hid
        cases hid
    obtain ⟨hlt, hname, hle⟩ := hshort
    have hearlier := mem_registeredIds hlt hid
    obtain ⟨id, hid⟩ := List.length_eq_one_iff.mp
      (Nat.le_antisymm hle (List.length_pos_of_mem hname))
    rw [hid, List.mem_singleton] at hname hearlier
    refine hne ?_
    rw [eventOf_component (h.recognized earlier hmem) hpe, eventOf_component hrec hp, hname,
      hearlier]

/-- `info` describes the event of a name, but for the copy of the name. -/
def Describes (hasPapi : Bool) (papi : PapiLibrary) (name : String) (info : EventInfo) : Prop :=
  ∃ dup, info = { eventOf hasPapi papi name with name := dup }

theorem describes_storedEvent (o : SetupOutcomes) (i : ℕ) (name : String) :
    Describes hasPapi o.papi name (storedEvent hasPapi o i name) :=
  ⟨_, rfl⟩

theorem Describes.getter {name : String} {info : EventInfo}
    (h : Describes hasPapi papi name info)
    (hrec : UbenchAgent.recognized hasPapi papi name = true) :
    ∃ getter : EventGetterFunc, info.backend = getter.backend ∧ info.opGet = some getter ∧
      info.opGetRaw = some getter.raw ∧ info.papiIndex = 0 := by
  obtain ⟨dup, rfl⟩ := h
  exact eventOf_spec hrec

theorem Describes.eqs {name : String} {info : EventInfo}
    (h : Describes hasPapi papi name info) :
    info.backend = (eventOf hasPapi papi name).backend ∧
      info.id = (eventOf hasPapi papi name).id ∧
      info.papiComponent = (eventOf hasPapi papi name).papiComponent := by
  obtain ⟨dup, rfl⟩ := h
  exact ⟨rfl, rfl, rfl⟩

theorem recognized_concat (h : LoopInv hasPapi papi done config) {name : String}
    (hrec : UbenchAgent.recognized hasPapi papi name = true) :
    ∀ n ∈ done ++ [name], UbenchAgent.recognized hasPapi papi n = true := by
  intro n hn
  rcases List.mem_append.mp hn with hn | hn
  · exact h.recognized n hn
  · rw [List.mem_singleton.mp hn]
    exact hrec

/-- A turn on an event that is not one of PAPI does not throw. -/
theorem LoopInv.turn_other (h : LoopInv hasPapi papi done config) {name : String}
    {info : EventInfo} (hrec : UbenchAgent.recognized hasPapi papi name = true)
    (hinfo : Describes hasPapi papi name info) (hp : ¬ isPapiName hasPapi papi name = true) :
    LoopInv hasPapi papi (done ++ [name]) (appendEvent config info) := by
  obtain ⟨getter, hb, hg, hr, hi⟩ := hinfo.getter hrec
  have hb' : info.backend ≠ backendPapi := fun he =>
    hp (beq_iff_eq.mpr (hinfo.eqs.1.symm.trans he))
  have hgetter : getter ≠ .papi := fun he => hb' (hb.trans (backend_eq_papi.mpr he))
  have hadded : Added config (appendEvent config info) info info :=
    ⟨⟨info.papiIndex, rfl⟩, rfl, rfl, Nat.le_refl _, fun h => absurd h hb', rfl⟩
  have huses : (appendEvent config info).uses backendPapi = config.uses backendPapi := by
    refine uses_or_of_disjoint ?_ hadded.usedBackends
    rw [hb]
    exact backend_disjoint hgetter
  refine ⟨recognized_concat h hrec, h.served.added hadded hb hg hr hi, fun hu => ?_, ?_,
    ?_, fun n hn hpn => ?_⟩
  · rw [huses] at hu
    obtain ⟨e, he, hpe⟩ := h.used hu
    exact ⟨e, List.mem_append_left _ he, hpe⟩
  · rw [huses, h.uses]
    simp [hp, or_and_right, exists_or]
  · rw [papiIds_concat, if_neg hp]
    exact ⟨h.registered.count, h.registered.length_le, h.registered.get⟩
  · rcases List.mem_append.mp hn with hn | hn
    · exact h.component n hn hpn
    · rw [List.mem_singleton.mp hn] at hpn
      exact absurd hpn hp

/-- A turn on an event of PAPI throws exactly if an earlier one is of another component. -/
theorem LoopInv.turn_papi (h : LoopInv hasPapi papi done config) {name : String}
    {info : EventInfo} (hrec : UbenchAgent.recognized hasPapi papi name = true)
    (hinfo : Describes hasPapi papi name info) (hp : isPapiName hasPapi papi name = true) :
    ((addEvent config info).2 = true ↔
        ∃ earlier ∈ done, isPapiName hasPapi papi earlier = true ∧
          (eventOf hasPapi papi earlier).papiComponent ≠
            (eventOf hasPapi papi name).papiComponent) ∧
      ((addEvent config info).2 = false →
        LoopInv hasPapi papi (done ++ [name]) (addEvent config info).1) := by
  obtain ⟨getter, hb, hg, hr, hi⟩ := hinfo.getter hrec
  obtain ⟨hback, hid, hcomponent⟩ := hinfo.eqs
  have hb' : info.backend = backendPapi := hback.trans (eq_of_beq hp)
  have hgetter : getter = .papi := backend_eq_papi.mp (hb.symm.trans hb')
  obtain ⟨⟨event, hadded⟩, hids, hthrow, hcomp⟩ := addEvent_papi hb' h.registered
  obtain ⟨index, hevent⟩ := hadded.event_eq
  rw [hid] at hids
  rw [hid, hcomponent, h.differs_iff hrec hp] at hthrow
  refine ⟨hthrow, fun hfalse => ⟨recognized_concat h hrec, h.served.added hadded hb hg hr hi,
    fun _ => ⟨event, ?_, ?_⟩, iff_of_true ?_ ⟨name, by simp, hp⟩, ?_, ?_⟩⟩
  · rw [hadded.usedEvents]
    simp
  · rw [hevent, ← hgetter]
    exact hg
  · exact uses_of_or (by decide) (hadded.usedBackends.trans (by rw [hb']))
  · rw [papiIds_concat, if_pos hp, registeredIds_concat]
    exact hids
  · intro n hn hpn
    rw [hcomp hfalse, hcomponent]
    rcases List.mem_append.mp hn with hn | hn
    · by_contra hne
      rw [hthrow.mpr ⟨n, hn, hpn, hne⟩] at hfalse
      cases hfalse
    · rw [List.mem_singleton.mp hn]

/-- A turn on a recognized name throws exactly if the components do not agree any more, and
otherwise it keeps the invariant. -/
theorem LoopInv.turn (h : LoopInv hasPapi papi done config) {name : String} {info : EventInfo}
    (hrec : UbenchAgent.recognized hasPapi papi name = true)
    (hinfo : Describes hasPapi papi name info) :
    ((addEvent config info).2 = false ↔ SameComponent hasPapi papi (done ++ [name])) ∧
      ((addEvent config info).2 = false →
        LoopInv hasPapi papi (done ++ [name]) (addEvent config info).1) := by
  have hsame : ∀ c : Int32, (∀ n ∈ done ++ [name], isPapiName hasPapi papi n = true →
      (eventOf hasPapi papi n).papiComponent = c) → SameComponent hasPapi papi (done ++ [name]) :=
    fun c hc n hn m hm hpn hpm => (hc n hn hpn).trans (hc m hm hpm).symm
  by_cases hp : isPapiName hasPapi papi name = true
  · obtain ⟨hthrow, hkeep⟩ := h.turn_papi hrec hinfo hp
    refine ⟨⟨fun hfalse => hsame _ (hkeep hfalse).component, fun hall => ?_⟩, hkeep⟩
    rw [← Bool.not_eq_true, hthrow]
    rintro ⟨earlier, hmem, hpe, hne⟩
    exact hne (hall earlier (List.mem_append_left _ hmem) name (by simp) hpe hp)
  · have hkeep := h.turn_other hrec hinfo hp
    have hb' : info.backend ≠ backendPapi := fun he =>
      hp (beq_iff_eq.mpr (hinfo.eqs.1.symm.trans he))
    rw [addEvent_other hb']
    exact ⟨⟨fun _ => hsame _ hkeep.component, fun _ => rfl⟩, fun _ => hkeep⟩

theorem LoopInv.owned (h : LoopInv hasPapi papi done config) (owned : Owned) :
    LoopInv hasPapi papi done { config with owned := owned } :=
  ⟨h.recognized, h.served.congr rfl rfl rfl, h.used, h.uses,
    ⟨h.registered.count, h.registered.length_le, h.registered.get⟩, h.component⟩

end Loop

section Whole

variable {hasPapi : Bool} {o : SetupOutcomes} {config : BenchmarkConfiguration}

theorem acquireName_config (config : BenchmarkConfiguration) (ledger : Ledger Resource)
    (strdup : Bool) : ∃ dups, (acquireName config ledger strdup).1 =
      { config with owned := { config.owned with names := dups } } := by
  unfold acquireName
  split_ifs
  · exact ⟨_, rfl⟩
  · exact ⟨config.owned.names, rfl⟩

theorem LoopInv.acquireName {done : List String} (h : LoopInv hasPapi o.papi done config)
    (ledger : Ledger Resource) (strdup : Bool) :
    LoopInv hasPapi o.papi done (UbenchAgent.acquireName config ledger strdup).1 := by
  obtain ⟨dups, hdups⟩ := acquireName_config config ledger strdup
  rw [hdups]
  exact h.owned _

theorem SameComponent.of_append {papi : PapiLibrary} {names rest : List String}
    (h : SameComponent hasPapi papi (names ++ rest)) : SameComponent hasPapi papi names :=
  fun n hn m hm => h n (List.mem_append_left _ hn) m (List.mem_append_left _ hm)

/-- The loop ends normally exactly if every name is recognized and all PAPI events are of
one component, and then it keeps the invariant. -/
theorem resolveEvents_thrown {done : List String} (h : LoopInv hasPapi o.papi done config)
    (hdone : SameComponent hasPapi o.papi done) (names : List String) (i : ℕ)
    (ledger : Ledger Resource) :
    ((resolveEvents hasPapi o i names config ledger).thrown = none ↔
        (∀ name ∈ names, recognized hasPapi o.papi name = true) ∧
          SameComponent hasPapi o.papi (done ++ names)) ∧
      ((resolveEvents hasPapi o i names config ledger).thrown = none →
        LoopInv hasPapi o.papi (done ++ names)
          (resolveEvents hasPapi o i names config ledger).config) := by
  induction names generalizing done i config ledger with
  | nil => simpa [resolveEvents, hdone] using h
  | cons name rest ih =>
    cases hrec : recognized hasPapi o.papi name with
    | false =>
      rw [resolveEvents_unrecognized hrec]
      simp [hrec]
    | true =>
      rw [resolveEvents_recognized hrec]
      dsimp only
      obtain ⟨hthrow, hkeep⟩ := (h.acquireName (ledger.acquire .stringChars).2 (o.strdup i)).turn
        hrec (describes_storedEvent o i name)
      have happ : done ++ name :: rest = done ++ [name] ++ rest := by simp
      rw [happ]
      cases hdiff : (addEvent (acquireName config (ledger.acquire .stringChars).2
          (o.strdup i)).1 (storedEvent hasPapi o i name)).2 with
      | true =>
        simp only [↓reduceIte]
        refine ⟨⟨fun h => (by cases h), fun hall => ?_⟩, fun h => (by cases h)⟩
        rw [hthrow.mpr hall.2.of_append] at hdiff
        cases hdiff
      | false =>
        simp only [Bool.false_eq_true, ↓reduceIte]
        obtain ⟨hiff, hinv⟩ := ih (hkeep hdiff) (hthrow.mp hdiff) (i + 1) _
        exact ⟨hiff.trans (by simp [hrec]), hinv⟩

/-- What the loop stores for the names from position `i` on. -/
def Stored (hasPapi : Bool) (o : SetupOutcomes) (i : ℕ) (names : List String)
    (events : List EventInfo) : Prop :=
  List.Forall₂ (fun (name : String × ℕ) event =>
    ∃ index, event = { storedEvent hasPapi o name.2 name.1 with papiIndex := index })
    (names.zipIdx i) events

/-- A loop that ends normally stores the events in order and leaves every field alone but
the six that it writes. -/
theorem resolveEvents_frame {done : List String} (h : LoopInv hasPapi o.papi done config)
    {names : List String} {i : ℕ} {ledger : Ledger Resource}
    (hok : (resolveEvents hasPapi o i names config ledger).thrown = none) :
    ∃ events backends used count component dups, Stored hasPapi o i names events ∧
      (resolveEvents hasPapi o i names config ledger).config = { config with
        usedEvents := config.usedEvents ++ events
        usedBackends := backends
        usedPapiEvents := used
        usedPapiEventsCount := count
        papiComponent := component
        owned := { config.owned with names := dups } } := by
  induction names generalizing done i config ledger with
  | nil =>
    refine ⟨[], config.usedBackends, config.usedPapiEvents, config.usedPapiEventsCount,
      config.papiComponent, config.owned.names, .nil, ?_⟩
    simp [resolveEvents]
  | cons name rest ih =>
    obtain ⟨hrec, hdiff, heq⟩ := resolveEvents_cons hok
    rw [heq] at hok ⊢
    have hnamed := h.acquireName (ledger.acquire .stringChars).2 (o.strdup i)
    obtain ⟨-, hkeep⟩ := hnamed.turn hrec (describes_storedEvent o i name)
    obtain ⟨event, hadded⟩ := addEvent_added hnamed.registered (storedEvent hasPapi o i name)
    obtain ⟨dups, hdups⟩ :=
      acquireName_config config (ledger.acquire .stringChars).2 (o.strdup i)
    obtain ⟨events, b, used, n, component, dups', hstored, hconfig⟩ := ih (hkeep hdiff) hok
    refine ⟨event :: events, b, used, n, component, dups', ?_, ?_⟩
    · rw [Stored, List.zipIdx_cons]
      exact .cons hadded.event_eq hstored
    · rw [hconfig, hadded.frame, hadded.usedEvents, hdups]
      simp

end Whole

end UbenchAgent
