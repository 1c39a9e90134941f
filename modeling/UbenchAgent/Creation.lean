import UbenchAgent.EventLoop
import UbenchAgent.Lib.SlotTable

/-!
# What creation does

`createEventSet` succeeds exactly if its arguments and what it gets from the allocator
and from PAPI are `Accepted`.  Then it returns the lowest free slot, whose configuration
is `Created` and depends on nothing that the slot held before; otherwise every valid
event set stays as it was.
-/

namespace UbenchAgent

open SlotTable

structure PapiSetup (o : SetupOutcomes) (joptions : List Int32) (n : ℕ) : Prop where
  create : o.papiCreate = papiOk
  assign : o.papiAssign = papiOk
  setOpt : ∀ i, joptions[i]? = some threadInherit → o.papiSetOpt i = papiOk
  addEvent : ∀ i, i < n → o.papiAddEvent i = papiOk

section Setup

variable {o : SetupOutcomes}

theorem papiInherit_eq_none (joptions : List Int32) (i : ℕ) :
    papiInherit o i joptions = none ↔
      ∀ j, joptions[j]? = some threadInherit → o.papiSetOpt (i + j) = papiOk := by
  induction joptions generalizing i with
  | nil => simp [papiInherit]
  | cons option rest ih =>
    rw [papiInherit]
    constructor
    · intro h j hj
      split_ifs at h with hc
      cases j with
      | zero =>
        rw [List.getElem?_cons_zero, Option.some.injEq] at hj
        by_contra hne
        exact hc ⟨hj, hne⟩
      | succ j =>
        rw [List.getElem?_cons_succ] at hj
        have := (ih (i + 1)).mp h j hj
        rwa [show i + 1 + j = i + (j + 1) by omega] at this
    · intro h
      rw [if_neg fun hc => hc.2 (h 0 (by rw [List.getElem?_cons_zero, hc.1])), ih]
      intro j hj
      have := h (j + 1) hj
      rwa [show i + (j + 1) = i + 1 + j by omega] at this

theorem papiAddEvents_eq_none (n i : ℕ) :
    papiAddEvents o n i = none ↔ ∀ j, j < n → o.papiAddEvent (i + j) = papiOk := by
  induction n generalizing i with
  | zero => simp [papiAddEvents]
  | succ n ih =>
    rw [papiAddEvents]
    constructor
    · intro h j hj
      split_ifs at h with hc
      cases j with
      | zero => exact not_not.mp hc
      | succ j =>
        have := (ih (i + 1)).mp h j (by omega)
        rwa [show i + 1 + j = i + (j + 1) by omega] at this
    · intro h
      have h0 : o.papiAddEvent i = papiOk := h 0 (by omega)
      rw [if_neg (not_not.mpr h0), ih]
      intro j hj
      have := h (j + 1) (by omega)
      rwa [show i + (j + 1) = i + 1 + j by omega] at this

/-- Setting up the PAPI event set succeeds exactly if it is not needed or all its calls
succeed. -/
theorem setupPapi_thrown (joptions : List Int32) (config : BenchmarkConfiguration)
    (ledger : Ledger Resource) :
    (setupPapi o joptions config ledger).thrown = none ↔
      (config.uses backendPapi → PapiSetup o joptions config.usedPapiEventsCount) := by
  have hinherit := papiInherit_eq_none (o := o) joptions 0
  have hadd := papiAddEvents_eq_none (o := o) config.usedPapiEventsCount 0
  simp only [Nat.zero_add] at hinherit hadd
  unfold setupPapi
  dsimp only
  by_cases hu : config.uses backendPapi
  · rw [if_pos hu]
    by_cases hcreate : o.papiCreate = papiOk
    · rw [if_neg (not_not.mpr hcreate)]
      by_cases hassign : o.papiAssign = papiOk
      · rw [if_neg (not_not.mpr hassign)]
        cases hi : papiInherit o 0 joptions with
        | some rc =>
          refine ⟨fun h => (by cases h), fun h => ?_⟩
          rw [hinherit.mpr (h hu).setOpt] at hi
          cases hi
        | none =>
          cases ha : papiAddEvents o config.usedPapiEventsCount 0 with
          | some rc =>
            refine ⟨fun h => (by cases h), fun h => ?_⟩
            rw [hadd.mpr (h hu).addEvent] at ha
            cases ha
          | none =>
            exact ⟨fun _ _ => ⟨hcreate, hassign, hinherit.mp hi, hadd.mp ha⟩, fun _ => rfl⟩
      · rw [if_pos hassign]
        exact ⟨fun h => (by cases h), fun h => absurd (h hu).assign hassign⟩
    · rw [if_pos hcreate]
      exact ⟨fun h => (by cases h), fun h => absurd (h hu).create hcreate⟩
  · rw [if_neg hu]
    exact ⟨fun _ h => absurd h hu, fun _ => rfl⟩

theorem setupPapi_config (joptions : List Int32) (config : BenchmarkConfiguration)
    (ledger : Ledger Resource) :
    ∃ p, (setupPapi o joptions config ledger).config =
      { config with owned := { config.owned with papiEventset := p } } := by
  unfold setupPapi
  dsimp only
  by_cases hu : config.uses backendPapi
  · rw [if_pos hu]
    by_cases hcreate : o.papiCreate = papiOk
    · rw [if_neg (not_not.mpr hcreate)]
      by_cases hassign : o.papiAssign = papiOk
      · rw [if_neg (not_not.mpr hassign)]
        cases papiInherit o 0 joptions with
        | some rc => exact ⟨_, rfl⟩
        | none =>
          cases papiAddEvents o config.usedPapiEventsCount 0 with
          | some rc => exact ⟨_, rfl⟩
          | none => exact ⟨_, rfl⟩
      · rw [if_pos hassign]
        exact ⟨_, rfl⟩
    · rw [if_pos hcreate]
      exact ⟨config.owned.papiEventset, rfl⟩
  · rw [if_neg hu]
    exact ⟨config.owned.papiEventset, rfl⟩

end Setup

/-- The configuration before the event loop: the two arrays are allocated, and every
field is set but the ids of PAPI events. -/
def prepared (config : BenchmarkConfiguration) (size data usedEvents : ℕ) :
    BenchmarkConfiguration :=
  { config with
    usedBackends := 0
    usedEvents := []
    usedPapiEventsCount := 0
    papiComponent := 0
    papiState := ⟨false, none⟩
    data := List.replicate size EventsSnapshot.calloc
    dataSize := size
    dataIndex := 0
    owned := ⟨some data, some usedEvents, [], none⟩ }

section Configure

variable {hasPapi : Bool} {o : SetupOutcomes} {size : ℕ} {args : CreateArgs}
  {config : BenchmarkConfiguration} {ledger : Ledger Resource}

theorem prepared_inv (config : BenchmarkConfiguration) (size data usedEvents : ℕ) :
    LoopInv hasPapi o.papi [] (prepared config size data usedEvents) where
  recognized := by simp
  served := fun _ h => absurd h List.not_mem_nil
  used := fun h => absurd h (by simp [BenchmarkConfiguration.uses, prepared])
  uses := by simp [BenchmarkConfiguration.uses, prepared]
  registered := ⟨rfl, by simp [registeredIds, papiIds], fun j hj => absurd hj (Nat.not_lt_zero _)⟩
  component := by simp

/-- The event loop of `configure`, after its two allocations. -/
def loopStage (hasPapi : Bool) (o : SetupOutcomes) (size : ℕ) (args : CreateArgs)
    (config : BenchmarkConfiguration) (ledger : Ledger Resource) : Stage :=
  let data := ledger.acquire .data
  let usedEvents := data.2.acquire .usedEvents
  resolveEvents hasPapi o 0 args.jeventNames (prepared config size data.1 usedEvents.1)
    usedEvents.2

theorem configure_eq (hdata : o.callocData = true) (hevents : o.callocEvents = true) :
    configure hasPapi o size args config ledger =
      let stage := loopStage hasPapi o size args config ledger
      match stage.thrown with
      | some _ => stage
      | none =>
        if hasPapi then setupPapi o args.joptions stage.config stage.ledger else stage := by
  unfold configure
  rw [hdata, hevents]
  rfl

theorem loopStage_thrown :
    (loopStage hasPapi o size args config ledger).thrown = none ↔
      (∀ name ∈ args.jeventNames, recognized hasPapi o.papi name = true) ∧
        SameComponent hasPapi o.papi args.jeventNames :=
  (resolveEvents_thrown (prepared_inv config _ _ _) (fun _ hn => absurd hn List.not_mem_nil)
    args.jeventNames 0 _).1

theorem loopStage_inv (h : (loopStage hasPapi o size args config ledger).thrown = none) :
    LoopInv hasPapi o.papi args.jeventNames
      (loopStage hasPapi o size args config ledger).config :=
  (resolveEvents_thrown (prepared_inv config _ _ _) (fun _ hn => absurd hn List.not_mem_nil)
    args.jeventNames 0 _).2 h

/-- What one event set asks of its arguments, of the allocator and of PAPI. -/
structure Configurable (hasPapi : Bool) (args : CreateArgs) (o : SetupOutcomes) : Prop where
  callocData : o.callocData = true
  callocEvents : o.callocEvents = true
  recognized : ∀ name ∈ args.jeventNames, recognized hasPapi o.papi name = true
  sameComponent : SameComponent hasPapi o.papi args.jeventNames
  papi : (∃ name ∈ args.jeventNames, isPapiName hasPapi o.papi name = true) →
    PapiSetup o args.joptions (registeredIds (papiIds hasPapi o.papi args.jeventNames)).length

structure Created (hasPapi : Bool) (args : CreateArgs) (o : SetupOutcomes) (size : ℕ)
    (config : BenchmarkConfiguration) : Prop where
  data : config.data = List.replicate size EventsSnapshot.calloc
  dataSize : config.dataSize = size
  dataIndex : config.dataIndex = 0
  papiState : config.papiState = ⟨false, none⟩
  loop : LoopInv hasPapi o.papi args.jeventNames config
  stored : Stored hasPapi o 0 args.jeventNames config.usedEvents

theorem setupPapi_loopStage (h : (loopStage hasPapi o size args config ledger).thrown = none) :
    (setupPapi o args.joptions (loopStage hasPapi o size args config ledger).config
        (loopStage hasPapi o size args config ledger).ledger).thrown = none ↔
      ((∃ name ∈ args.jeventNames, isPapiName hasPapi o.papi name = true) →
        PapiSetup o args.joptions
          (registeredIds (papiIds hasPapi o.papi args.jeventNames)).length) := by
  have hinv := loopStage_inv h
  rw [setupPapi_thrown, hinv.uses, hinv.registered.count]

/-- `configure` succeeds exactly if its inputs allow it. -/
theorem configure_thrown :
    (configure hasPapi o size args config ledger).thrown = none ↔
      Configurable hasPapi args o := by
  by_cases hdata : o.callocData = true
  · by_cases hevents : o.callocEvents = true
    · rw [configure_eq hdata hevents]
      dsimp only
      have hloop : (loopStage hasPapi o size args config ledger).thrown = none ↔ _ :=
        loopStage_thrown
      cases ht : (loopStage hasPapi o size args config ledger).thrown with
      | some e =>
        refine ⟨fun h => (by rw [ht] at h; cases h), fun h => ?_⟩
        rw [hloop.mpr ⟨h.recognized, h.sameComponent⟩] at ht
        cases ht
      | none =>
        obtain ⟨hrec, hsame⟩ := hloop.mp ht
        have hpapi := setupPapi_loopStage ht
        cases hasPapi with
        | true =>
          exact hpapi.trans ⟨fun h => ⟨hdata, hevents, hrec, hsame, h⟩, Configurable.papi⟩
        | false =>
          refine ⟨fun _ => ⟨hdata, hevents, hrec, hsame, ?_⟩, fun _ => ht⟩
          rintro ⟨name, hmem, hp⟩
          rw [isPapiName_no_papi (hrec name hmem)] at hp
          cases hp
    · refine ⟨fun h => ?_, fun h => absurd h.callocEvents hevents⟩
      simp [configure, hdata, hevents] at h
  · refine ⟨fun h => ?_, fun h => absurd h.callocData hdata⟩
    simp [configure, hdata] at h

/-- The configuration that a successful `configure` leaves: the one of the loop, but for
what it owns. -/
theorem configure_config (h : (configure hasPapi o size args config ledger).thrown = none) :
    (loopStage hasPapi o size args config ledger).thrown = none ∧
      ∃ owned, (configure hasPapi o size args config ledger).config =
        { (loopStage hasPapi o size args config ledger).config with owned := owned } := by
  have hc := configure_thrown.mp h
  have ht : (loopStage hasPapi o size args config ledger).thrown = none :=
    loopStage_thrown.mpr ⟨hc.recognized, hc.sameComponent⟩
  refine ⟨ht, ?_⟩
  rw [configure_eq hc.callocData hc.callocEvents]
  dsimp only
  rw [ht]
  dsimp only
  cases hasPapi with
  | true =>
    obtain ⟨p, hp⟩ := setupPapi_config args.joptions
      (loopStage true o size args config ledger).config
      (loopStage true o size args config ledger).ledger
    exact ⟨_, hp⟩
  | false => exact ⟨(loopStage false o size args config ledger).config.owned, rfl⟩

theorem configure_created (h : (configure hasPapi o size args config ledger).thrown = none) :
    Created hasPapi args o size (configure hasPapi o size args config ledger).config := by
  obtain ⟨ht, owned, howned⟩ := configure_config h
  have hinv := (loopStage_inv ht).owned owned
  obtain ⟨events, b, used, n, component, dups, hstored, hframe⟩ :=
    resolveEvents_frame (prepared_inv config size _ _) ht
  rw [howned]
  change (loopStage hasPapi o size args config ledger).config = _ at hframe
  refine ⟨?_, ?_, ?_, ?_, hinv, ?_⟩ <;> rw [hframe]
  · rfl
  · rfl
  · rfl
  · rfl
  · exact hstored

end Configure

/-- The configuration without the fields that only creation and destruction read: the ids of
PAPI events and what the configuration owns. -/
def BenchmarkConfiguration.view (config : BenchmarkConfiguration) : BenchmarkConfiguration :=
  { config with usedPapiEvents := fun _ => 0, owned := ⟨none, none, [], none⟩ }

theorem exists_of_view_eq {config config' : BenchmarkConfiguration}
    (h : config.view = config'.view) :
    ∃ used owned, config' = { config with usedPapiEvents := used, owned := owned } := by
  simp only [BenchmarkConfiguration.view, BenchmarkConfiguration.mk.injEq] at h
  obtain ⟨h₁, h₂, -, h₃, h₄, h₅, h₆, h₇, h₈, -⟩ := h
  refine ⟨config'.usedPapiEvents, config'.owned, ?_⟩
  rw [h₁, h₂, h₃, h₄, h₅, h₆, h₇, h₈]

section View

variable {config config' : BenchmarkConfiguration} {ids : List Int32}

theorem alreadyRegistered_congr (h : Registered config ids) (h' : Registered config' ids)
    (id : Int32) : alreadyRegistered config id = alreadyRegistered config' id := by
  unfold alreadyRegistered
  congr 1
  funext j
  rw [h.count, h'.count]
  by_cases hj : j.val < ids.length
  · rw [Option.some.inj ((h.get j hj).symm.trans (h'.get j hj))]
  · simp [hj]

theorem addEvent_view (h : Registered config ids) (h' : Registered config' ids)
    (hview : config.view = config'.view) (info : EventInfo) :
    (addEvent config info).2 = (addEvent config' info).2 ∧
      (addEvent config info).1.view = (addEvent config' info).1.view := by
  have hfind := alreadyRegistered_congr h h' info.id
  obtain ⟨used, owned, rfl⟩ := exists_of_view_eq hview
  unfold addEvent
  by_cases hp : info.backend = backendPapi
  · rw [if_pos hp, if_pos hp]
    unfold registerPapiEvent
    rw [← hfind]
    cases alreadyRegistered config info.id with
    | some j =>
      dsimp only [appendEvent]
      split_ifs <;> exact ⟨rfl, rfl⟩
    | none =>
      dsimp only
      by_cases hlt : config.usedPapiEventsCount < ubenchMaxPapiEvents
      · simp only [hlt, ↓reduceDIte, appendEvent]
        split_ifs <;> exact ⟨rfl, rfl⟩
      · simp only [hlt, ↓reduceDIte, appendEvent]
        split_ifs <;> exact ⟨rfl, rfl⟩
  · rw [if_neg hp, if_neg hp]
    exact ⟨rfl, rfl⟩

variable {hasPapi : Bool} {o : SetupOutcomes}

theorem acquireName_view (config : BenchmarkConfiguration) (ledger : Ledger Resource)
    (strdup : Bool) : (acquireName config ledger strdup).1.view = config.view := by
  obtain ⟨dups, hdups⟩ := acquireName_config config ledger strdup
  rw [hdups]
  rfl

theorem resolveEvents_view {done : List String} (h : LoopInv hasPapi o.papi done config)
    (h' : LoopInv hasPapi o.papi done config') (hview : config.view = config'.view)
    {names : List String} {i : ℕ} {ledger ledger' : Ledger Resource}
    (hok : (resolveEvents hasPapi o i names config ledger).thrown = none)
    (hok' : (resolveEvents hasPapi o i names config' ledger').thrown = none) :
    (resolveEvents hasPapi o i names config ledger).config.view =
      (resolveEvents hasPapi o i names config' ledger').config.view := by
  induction names generalizing done i config config' ledger ledger' with
  | nil => exact hview
  | cons name rest ih =>
    obtain ⟨hrec, hd, heq⟩ := resolveEvents_cons hok
    obtain ⟨-, hd', heq'⟩ := resolveEvents_cons hok'
    rw [heq] at hok ⊢
    rw [heq'] at hok' ⊢
    have hn := h.acquireName (ledger.acquire .stringChars).2 (o.strdup i)
    have hn' := h'.acquireName (ledger'.acquire .stringChars).2 (o.strdup i)
    have hnview : (acquireName config (ledger.acquire .stringChars).2 (o.strdup i)).1.view =
        (acquireName config' (ledger'.acquire .stringChars).2 (o.strdup i)).1.view := by
      rw [acquireName_view, acquireName_view, hview]
    obtain ⟨-, hadd⟩ := addEvent_view hn.registered hn'.registered hnview
      (storedEvent hasPapi o i name)
    exact ih ((hn.turn hrec (describes_storedEvent o i name)).2 hd)
      ((hn'.turn hrec (describes_storedEvent o i name)).2 hd') hadd hok hok'

/-- What creation makes of its arguments does not depend on what the slot held. -/
theorem configure_view {size : ℕ} {args : CreateArgs} {ledger ledger' : Ledger Resource}
    (h : (configure hasPapi o size args config ledger).thrown = none) :
    (configure hasPapi o size args config ledger).config.view =
      (configure hasPapi o size args config' ledger').config.view := by
  have h' : (configure hasPapi o size args config' ledger').thrown = none :=
    configure_thrown.mpr (configure_thrown.mp h)
  obtain ⟨ht, owned, howned⟩ := configure_config h
  obtain ⟨ht', owned', howned'⟩ := configure_config h'
  rw [howned, howned']
  exact resolveEvents_view (prepared_inv config size _ _) (prepared_inv config' size _ _) rfl
    ht ht'

end View

end UbenchAgent
