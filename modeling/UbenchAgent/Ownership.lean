import UbenchAgent.Table
import Mathlib.Data.List.TakeWhile

/-!
# What creation acquires

An event set owns its two arrays, the duplicated names of its events and its PAPI event
set.  A successful `createEventSet` leaves exactly these in the ledger.  A failed one
leaves nothing of the kind only at some of its exits, which are described here by the
inputs.
-/

namespace UbenchAgent

open Ledger

/-- The kinds of resources that event sets own.  The others go back to the JVM. -/
def Resource.owned : Resource → Bool
  | .data => true
  | .usedEvents => true
  | .name => true
  | .papiEventset => true
  | .stringChars => false
  | .intArray => false

def Owned.resources (owned : Owned) : List (ℕ × Resource) :=
  owned.data.toList.map (fun n => (n, .data)) ++
    (owned.usedEvents.toList.map (fun n => (n, .usedEvents)) ++
      (owned.papiEventset.toList.map (fun n => (n, .papiEventset)) ++
        owned.names.map (fun n => (n, .name))))

def NoneOwned (resources : List (ℕ × Resource)) : Prop :=
  ∀ x ∈ resources, x.2.owned = false

/-- All of these resources are of such a kind, so nothing is left that goes back to the JVM. -/
def AllOwned (resources : List (ℕ × Resource)) : Prop :=
  ∀ x ∈ resources, x.2.owned = true

theorem owned_of_mem {owned : Owned} {x : ℕ × Resource} (h : x ∈ owned.resources) :
    x.2.owned = true := by
  simp only [Owned.resources, List.mem_append, List.mem_map] at h
  rcases h with ⟨n, -, rfl⟩ | ⟨n, -, rfl⟩ | ⟨n, -, rfl⟩ | ⟨n, -, rfl⟩ <;> rfl

theorem noneOwned_resources (owned : Owned) :
    NoneOwned owned.resources ↔ owned = ⟨none, none, [], none⟩ := by
  constructor
  · intro h
    have hnil : owned.resources = [] := by
      rw [List.eq_nil_iff_forall_not_mem]
      intro x hx
      have hfalse := h x hx
      rw [owned_of_mem hx] at hfalse
      cases hfalse
    obtain ⟨data, usedEvents, names, papiEventset⟩ := owned
    simp only [Owned.resources, List.append_eq_nil_iff, List.map_eq_nil_iff,
      Option.toList_eq_nil_iff] at hnil
    obtain ⟨rfl, rfl, rfl, rfl⟩ := hnil
    rfl
  · rintro rfl
    simp [NoneOwned, Owned.resources]

theorem allOwned_resources (owned : Owned) : AllOwned owned.resources :=
  fun _ => owned_of_mem

theorem extends_freeArrays {l ledger : Ledger Resource} {config : BenchmarkConfiguration}
    (hwf : l.WF) (h : l.Extends ledger config.owned.resources) :
    l.Extends (freeArrays config ledger)
      { config.owned with data := none, usedEvents := none }.resources := by
  unfold freeArrays
  generalize config.owned = owned at h ⊢
  obtain ⟨data, usedEvents, names, papiEventset⟩ := owned
  have hevents : l.Extends (ledger.releaseOpt usedEvents)
      (⟨data, none, names, papiEventset⟩ : Owned).resources := by
    cases usedEvents with
    | none => exact h
    | some u => exact h.release hwf List.perm_middle
  cases data with
  | none => exact hevents
  | some d => exact hevents.release hwf (.refl _)

/-- No name is duplicated for the `n` events from position `i` on: each `strdup` fails. -/
def NoNames (o : SetupOutcomes) (i n : ℕ) : Prop := ∀ j, j < n → o.strdup (i + j) = false

theorem noNames_zero (o : SetupOutcomes) (i : ℕ) : NoNames o i 0 :=
  fun _ hj => absurd hj (Nat.not_lt_zero _)

theorem noNames_succ {o : SetupOutcomes} {i n : ℕ} :
    NoNames o i (n + 1) ↔ o.strdup i = false ∧ NoNames o (i + 1) n := by
  constructor
  · intro h
    refine ⟨h 0 (by omega), ?_⟩
    intro j hj
    have hnext := h (j + 1) (by omega)
    rwa [show i + (j + 1) = i + 1 + j by omega] at hnext
  · rintro ⟨h₀, h⟩ j hj
    cases j with
    | zero => exact h₀
    | succ j =>
      have hnext := h j (by omega)
      rwa [show i + 1 + j = i + (j + 1) by omega] at hnext

section Loop

variable {hasPapi : Bool} {o : SetupOutcomes} {l ledger : Ledger Resource}
  {config : BenchmarkConfiguration}

theorem addEvent_owned (config : BenchmarkConfiguration) (info : EventInfo) :
    (addEvent config info).1.owned = config.owned := by
  unfold addEvent registerPapiEvent
  by_cases hp : info.backend = backendPapi
  · rw [if_pos hp]
    cases alreadyRegistered config info.id with
    | some j => dsimp only; split_ifs <;> rfl
    | none => dsimp only; split_ifs <;> rfl
  · rw [if_neg hp]
    rfl

theorem extends_acquireName (h : l.Extends ledger config.owned.resources) (strdup : Bool) :
    l.Extends (acquireName config (ledger.acquire .stringChars).2 strdup).2
        (((ledger.acquire .stringChars).1, .stringChars) ::
          (acquireName config (ledger.acquire .stringChars).2 strdup).1.owned.resources) ∧
      ∃ names, (acquireName config (ledger.acquire .stringChars).2 strdup).1.owned =
          { config.owned with names := names } ∧
        (names = [] ↔ config.owned.names = [] ∧ strdup = false) := by
  have hchars := h.acquire .stringChars
  cases strdup with
  | false => exact ⟨hchars, config.owned.names, rfl, by simp⟩
  | true =>
    refine ⟨(hchars.acquire .name).perm ?_, _, rfl, by simp⟩
    -- The new name stands last among the resources, and first in the ledger.
    refine (List.Perm.swap _ _ _).trans (.cons _ ?_)
    simp only [acquireName, ↓reduceIte, Owned.resources, List.map_append, List.map_cons,
      List.map_nil, ← List.append_assoc]
    exact (List.perm_append_singleton _ _).symm

theorem extends_turn (hwf : l.WF) (h : l.Extends ledger config.owned.resources) (strdup : Bool)
    (info : EventInfo) :
    let chars := ledger.acquire .stringChars
    let named := acquireName config chars.2 strdup
    let added := addEvent named.1 info
    l.Extends (named.2.release chars.1) added.1.owned.resources ∧
      ∃ names, added.1.owned = { config.owned with names := names } ∧
        (names = [] ↔ config.owned.names = [] ∧ strdup = false) := by
  obtain ⟨hnamed, hnames⟩ := extends_acquireName h strdup
  dsimp only
  rw [addEvent_owned]
  exact ⟨hnamed.release hwf (.refl _), hnames⟩

/-- A loop that ends normally leaves what its configuration owns. -/
theorem resolveEvents_ledger (hwf : l.WF) {names : List String} {i : ℕ}
    (h : l.Extends ledger config.owned.resources)
    (hok : (resolveEvents hasPapi o i names config ledger).thrown = none) :
    l.Extends (resolveEvents hasPapi o i names config ledger).ledger
        (resolveEvents hasPapi o i names config ledger).config.owned.resources ∧
      ∃ names', (resolveEvents hasPapi o i names config ledger).config.owned =
          { config.owned with names := names' } ∧
        (names' = [] ↔ config.owned.names = [] ∧ NoNames o i names.length) := by
  induction names generalizing i config ledger with
  | nil => exact ⟨h, config.owned.names, rfl, by simp [noNames_zero]⟩
  | cons name rest ih =>
    obtain ⟨-, -, heq⟩ := resolveEvents_cons hok
    rw [heq] at hok ⊢
    obtain ⟨hturn, dups, hdups, hnil⟩ :=
      extends_turn hwf h (o.strdup i) (storedEvent hasPapi o i name)
    obtain ⟨hext, names', howned, hnil'⟩ := ih hturn hok
    refine ⟨hext, names', by rw [howned, hdups], ?_⟩
    rw [hnil', hdups, hnil, List.length_cons, noNames_succ, and_assoc]

/-- A loop that throws leaves nothing that an event set owns exactly if it stops at a name
that is not recognized, and no name was duplicated before it.  It leaves nothing that goes
back to the JVM exactly if it does not stop at the component check. -/
theorem resolveEvents_ledger_thrown (hwf : l.WF) {done names : List String} {i : ℕ}
    (hinv : LoopInv hasPapi o.papi done config) (hdone : SameComponent hasPapi o.papi done)
    (hdata : config.owned.data ≠ none) (hpapi : config.owned.papiEventset = none)
    (h : l.Extends ledger config.owned.resources)
    (hthrown : (resolveEvents hasPapi o i names config ledger).thrown ≠ none) :
    ∃ left, l.Extends (resolveEvents hasPapi o i names config ledger).ledger left ∧
      (NoneOwned left ↔
        SameComponent hasPapi o.papi (done ++ names.takeWhile (recognized hasPapi o.papi)) ∧
          config.owned.names = [] ∧
          NoNames o i (names.takeWhile (recognized hasPapi o.papi)).length) ∧
      (AllOwned left ↔
        SameComponent hasPapi o.papi
          (done ++ names.takeWhile (recognized hasPapi o.papi))) := by
  induction names generalizing done i config ledger with
  | nil => exact absurd rfl hthrown
  | cons name rest ih =>
    cases hrec : recognized hasPapi o.papi name with
    | false =>
      rw [resolveEvents_unrecognized hrec]
      have hfree := extends_freeArrays hwf
        ((h.acquire .stringChars).release hwf (.refl _))
      rw [List.takeWhile_cons_of_neg (by simp [hrec]), List.append_nil]
      refine ⟨_, hfree, ?_, iff_of_true (allOwned_resources _) hdone⟩
      rw [noneOwned_resources]
      simp [hpapi, hdone, noNames_zero]
    | true =>
      have happ : done ++ (name :: rest).takeWhile (recognized hasPapi o.papi) =
          done ++ [name] ++ rest.takeWhile (recognized hasPapi o.papi) := by
        rw [List.takeWhile_cons_of_pos hrec, List.append_assoc]
        rfl
      rw [happ, List.takeWhile_cons_of_pos hrec, List.length_cons, noNames_succ]
      rw [resolveEvents_recognized hrec] at hthrown ⊢
      dsimp only at hthrown ⊢
      have hnamed := hinv.acquireName (ledger.acquire .stringChars).2 (o.strdup i)
      obtain ⟨hthrow, hkeep⟩ := hnamed.turn hrec (describes_storedEvent o i name)
      obtain ⟨hturn, dups, hdups, hnil⟩ :=
        extends_turn hwf h (o.strdup i) (storedEvent hasPapi o i name)
      cases hdiff : (addEvent (acquireName config (ledger.acquire .stringChars).2
          (o.strdup i)).1 (storedEvent hasPapi o i name)).2 with
      | true =>
        -- The component check throws without any cleanup, so at least `data` and the
        -- characters of the name are left.
        simp only [↓reduceIte]
        obtain ⟨hleft, names', hnames', -⟩ := extends_acquireName h (o.strdup i)
        have hnot : ¬ SameComponent hasPapi o.papi
            (done ++ [name] ++ rest.takeWhile (recognized hasPapi o.papi)) := by
          intro hsame
          rw [hthrow.mpr hsame.of_append] at hdiff
          cases hdiff
        refine ⟨_, hleft, iff_of_false ?_ fun hno => hnot hno.1, iff_of_false ?_ hnot⟩
        · intro hnone
          have hempty := (noneOwned_resources _).mp fun x hx =>
            hnone x (List.mem_cons_of_mem _ hx)
          rw [hnames'] at hempty
          exact hdata (congrArg Owned.data hempty)
        · intro hall
          cases hall _ List.mem_cons_self
      | false =>
        rw [hdiff] at hthrown
        simp only [Bool.false_eq_true, ↓reduceIte] at hthrown ⊢
        obtain ⟨left, hleft, hiff, hall⟩ := ih (hkeep hdiff) (hthrow.mp hdiff)
          (by rw [hdups]; exact hdata) (by rw [hdups]; exact hpapi) hturn hthrown
        refine ⟨left, hleft, hiff.trans ?_, hall⟩
        rw [hdups, hnil, and_assoc]

end Loop

section Papi

variable {o : SetupOutcomes} {l ledger : Ledger Resource} {config : BenchmarkConfiguration}

theorem resources_papiEventset {owned : Owned} (h : owned.papiEventset = none) (n : ℕ) :
    ((n, Resource.papiEventset) :: owned.resources).Perm
      { owned with papiEventset := some n }.resources := by
  obtain ⟨data, usedEvents, names, papiEventset⟩ := owned
  obtain rfl : papiEventset = none := h
  simp only [Owned.resources, ← List.append_assoc]
  exact List.perm_middle.symm.trans (by simp)

theorem extends_papiFailed (config : BenchmarkConfiguration) (hwf : l.WF) {options : ℕ}
    (h : l.Extends ledger ((options, .intArray) :: config.owned.resources)) :
    l.Extends (freeArrays config (ledger.release options))
      { config.owned with data := none, usedEvents := none }.resources :=
  extends_freeArrays hwf (h.release hwf (.refl _))

/-- The setup of PAPI on the ledger.  It throws without a trace only if there are no names
and the first call of PAPI fails, but it always releases the options. -/
theorem setupPapi_ledger (hwf : l.WF) (joptions : List Int32)
    (hpapi : config.owned.papiEventset = none) (h : l.Extends ledger config.owned.resources) :
    ((setupPapi o joptions config ledger).thrown = none →
      l.Extends (setupPapi o joptions config ledger).ledger
          (setupPapi o joptions config ledger).config.owned.resources ∧
        ∃ p, (setupPapi o joptions config ledger).config.owned =
            { config.owned with papiEventset := p } ∧
          (p = none ↔ config.uses backendPapi = false)) ∧
    ((setupPapi o joptions config ledger).thrown ≠ none →
      ∃ left, l.Extends (setupPapi o joptions config ledger).ledger left ∧
        (NoneOwned left ↔ config.owned.names = [] ∧ o.papiCreate ≠ papiOk) ∧
        AllOwned left) := by
  have hoptions := h.acquire .intArray
  have hcreated := ((hoptions.acquire .papiEventset).perm (.swap _ _ _)).perm
    ((resources_papiEventset hpapi _).cons _)
  -- Once the PAPI event set exists, no exit destroys it.
  have hleak : ∀ p, ¬ NoneOwned
      ({ config.owned with data := none, usedEvents := none, papiEventset := some p } :
        Owned).resources := by
    intro p hnone
    have hempty := congrArg Owned.papiEventset ((noneOwned_resources _).mp hnone)
    cases hempty
  unfold setupPapi
  dsimp only
  by_cases hu : config.uses backendPapi
  · rw [if_pos hu]
    by_cases hcreate : o.papiCreate = papiOk
    · rw [if_neg (not_not.mpr hcreate)]
      have hexit := extends_papiFailed
        { config with owned := { config.owned with papiEventset := some _ } } hwf hcreated
      have hnot : ∀ p, NoneOwned ({ config.owned with
          data := none, usedEvents := none, papiEventset := some p } : Owned).resources ↔
          config.owned.names = [] ∧ o.papiCreate ≠ papiOk :=
        fun p => iff_of_false (hleak p) fun hno => hno.2 hcreate
      by_cases hassign : o.papiAssign = papiOk
      · rw [if_neg (not_not.mpr hassign)]
        cases papiInherit o 0 joptions with
        | some rc => exact ⟨fun hok => (by cases hok), fun _ => ⟨_, hexit, hnot _, allOwned_resources _⟩⟩
        | none =>
          cases papiAddEvents o config.usedPapiEventsCount 0 with
          | some rc => exact ⟨fun hok => (by cases hok), fun _ => ⟨_, hexit, hnot _, allOwned_resources _⟩⟩
          | none =>
            refine ⟨fun _ => ⟨hcreated.release hwf (.refl _), _, rfl, ?_⟩,
              fun hthrown => absurd rfl hthrown⟩
            rw [hu]
            exact iff_of_false (Option.some_ne_none _) Bool.noConfusion
      · rw [if_pos hassign]
        exact ⟨fun hok => (by cases hok), fun _ => ⟨_, hexit, hnot _, allOwned_resources _⟩⟩
    · rw [if_pos hcreate]
      refine ⟨fun hok => (by cases hok), fun _ =>
        ⟨_, extends_papiFailed config hwf hoptions, ?_, allOwned_resources _⟩⟩
      rw [noneOwned_resources]
      simp [hpapi, hcreate]
  · rw [if_neg hu]
    refine ⟨fun _ => ⟨hoptions.release hwf (.refl _), none, ?_, ?_⟩,
      fun hthrown => absurd rfl hthrown⟩
    · rw [← hpapi]
    · simpa using hu

end Papi

/-- What a valid event set owns: its two arrays, names if some event has one, and a PAPI
event set if it uses PAPI. -/
structure OwnsParts (config : BenchmarkConfiguration) : Prop where
  names : config.owned.names = [] ↔ ∀ event ∈ config.usedEvents, event.name = none
  papiEventset : config.owned.papiEventset = none ↔ config.uses backendPapi = false

def CreateArgs.known (hasPapi : Bool) (papi : PapiLibrary) (args : CreateArgs) : List String :=
  args.jeventNames.takeWhile (recognized hasPapi papi)

/-- The exits of `configure` that leave nothing behind: an array was not allocated; or no
name was duplicated and either a name is not recognized or PAPI creates no event set. -/
def TidyFailure (hasPapi : Bool) (args : CreateArgs) (o : SetupOutcomes) : Prop :=
  o.callocData = false ∨ o.callocEvents = false ∨
    (SameComponent hasPapi o.papi (args.known hasPapi o.papi) ∧
      NoNames o 0 (args.known hasPapi o.papi).length ∧
      (args.known hasPapi o.papi = args.jeventNames → o.papiCreate ≠ papiOk))

section Configure

variable {hasPapi : Bool} {o : SetupOutcomes} {size : ℕ} {args : CreateArgs}
  {config : BenchmarkConfiguration} {ledger : Ledger Resource}

theorem Stored.names {i : ℕ} {names : List String} {events : List EventInfo}
    (h : Stored hasPapi o i names events) :
    (∀ event ∈ events, event.name = none) ↔ NoNames o i names.length := by
  induction names generalizing i events with
  | nil =>
    cases h
    simp [noNames_zero]
  | cons name rest ih =>
    rw [Stored, List.zipIdx_cons] at h
    obtain ⟨event, events', ⟨index, rfl⟩, hrest, rfl⟩ := List.forall₂_cons_left_iff.mp h
    rw [List.forall_mem_cons, ih hrest, List.length_cons, noNames_succ]
    simp [storedEvent]

theorem known_eq (h : ∀ name ∈ args.jeventNames, recognized hasPapi o.papi name = true) :
    args.known hasPapi o.papi = args.jeventNames :=
  List.takeWhile_eq_self_iff.mpr h

theorem extends_prepared (config : BenchmarkConfiguration) (ledger : Ledger Resource) (size : ℕ) :
    let data := ledger.acquire .data
    let usedEvents := data.2.acquire .usedEvents
    ledger.Extends usedEvents.2 (prepared config size data.1 usedEvents.1).owned.resources :=
  ((((Extends.refl ledger).acquire .data).acquire .usedEvents).perm (.swap _ _ _) :)

theorem loopStage_ledger (hwf : ledger.WF)
    (hok : (loopStage hasPapi o size args config ledger).thrown = none) :
    ledger.Extends (loopStage hasPapi o size args config ledger).ledger
        (loopStage hasPapi o size args config ledger).config.owned.resources ∧
      (loopStage hasPapi o size args config ledger).config.owned.papiEventset = none ∧
      ((loopStage hasPapi o size args config ledger).config.owned.names = [] ↔
        NoNames o 0 args.jeventNames.length) := by
  obtain ⟨hext, names, howned, hnil⟩ :=
    resolveEvents_ledger hwf (extends_prepared config ledger size) hok
  refine ⟨hext, congrArg Owned.papiEventset howned, ?_⟩
  exact (iff_of_eq (congrArg (fun owned => owned.names = []) howned)).trans
    (hnil.trans (and_iff_right rfl))

/-- What a loop that throws leaves of the resources of the event set and of those of the JVM. -/
theorem loopStage_ledger_thrown (hwf : ledger.WF)
    (hthrown : (loopStage hasPapi o size args config ledger).thrown ≠ none) :
    ∃ left, ledger.Extends (loopStage hasPapi o size args config ledger).ledger left ∧
      (NoneOwned left ↔ SameComponent hasPapi o.papi (args.known hasPapi o.papi) ∧
        NoNames o 0 (args.known hasPapi o.papi).length ∧
        (args.known hasPapi o.papi = args.jeventNames → o.papiCreate ≠ papiOk)) ∧
      (AllOwned left ↔ SameComponent hasPapi o.papi (args.known hasPapi o.papi)) := by
  obtain ⟨left, hleft, hiff, hall⟩ := resolveEvents_ledger_thrown hwf
    (prepared_inv config size _ _) (fun _ hn => absurd hn List.not_mem_nil)
    (Option.some_ne_none _) rfl (extends_prepared config ledger size) hthrown
  refine ⟨left, hleft, hiff.trans ?_, hall⟩
  rw [List.nil_append]
  unfold CreateArgs.known
  constructor
  · rintro ⟨hsame, -, hnone⟩
    refine ⟨hsame, hnone, ?_⟩
    -- The loop does not throw if it gets through all names.
    intro hknown
    have hrec := List.takeWhile_eq_self_iff.mp hknown
    rw [hknown] at hsame
    exact absurd (loopStage_thrown.mpr ⟨hrec, hsame⟩) hthrown
  · rintro ⟨hsame, hnone, -⟩
    exact ⟨hsame, rfl, hnone⟩

/-- A `configure` that succeeds leaves what its configuration owns. -/
theorem configure_ledger (hwf : ledger.WF)
    (hok : (configure hasPapi o size args config ledger).thrown = none) :
    ledger.Extends (configure hasPapi o size args config ledger).ledger
        (configure hasPapi o size args config ledger).config.owned.resources ∧
      OwnsParts (configure hasPapi o size args config ledger).config := by
  have hcreated := configure_created hok
  have hnames := hcreated.stored.names
  have huses := hcreated.loop.uses
  have hc := configure_thrown.mp hok
  have ht : (loopStage hasPapi o size args config ledger).thrown = none :=
    loopStage_thrown.mpr ⟨hc.recognized, hc.sameComponent⟩
  obtain ⟨hext, hpapi, hnil⟩ := loopStage_ledger hwf ht
  rw [configure_eq hc.callocData hc.callocEvents] at hok hnames huses ⊢
  dsimp only at hok hnames huses ⊢
  rw [ht] at hok hnames huses ⊢
  dsimp only at hok hnames huses ⊢
  cases hasPapi with
  | true =>
    obtain ⟨hext', p, howned, hp⟩ := (setupPapi_ledger hwf args.joptions hpapi hext).1 hok
    obtain ⟨q, hframe⟩ := setupPapi_config (o := o) args.joptions
      (loopStage true o size args config ledger).config
      (loopStage true o size args config ledger).ledger
    refine ⟨hext', ?_, ?_⟩
    · rw [if_pos rfl] at hnames ⊢
      rw [howned, hnames]
      exact hnil
    · rw [if_pos rfl, howned, hframe]
      exact hp
  | false =>
    refine ⟨hext, hnil.trans hnames.symm, iff_of_true hpapi ?_⟩
    rw [← Bool.not_eq_true]
    intro hu
    obtain ⟨name, hmem, hp⟩ := huses.mp hu
    rw [isPapiName_no_papi (hc.recognized name hmem)] at hp
    cases hp

/-- A `configure` that throws leaves nothing that an event set owns exactly at its tidy
exits, and nothing that goes back to the JVM at any exit but the component check. -/
theorem configure_ledger_thrown (hwf : ledger.WF)
    (hthrown : (configure hasPapi o size args config ledger).thrown ≠ none) :
    ∃ left, ledger.Extends (configure hasPapi o size args config ledger).ledger left ∧
      (NoneOwned left ↔ TidyFailure hasPapi args o) ∧
      (AllOwned left ↔ o.callocData = false ∨ o.callocEvents = false ∨
        SameComponent hasPapi o.papi (args.known hasPapi o.papi)) := by
  cases hdata : o.callocData with
  | false =>
    refine ⟨[], ?_, iff_of_true (by simp [NoneOwned]) (.inl hdata),
      iff_of_true (by simp [AllOwned]) (.inl rfl)⟩
    simpa [configure, hdata] using Extends.refl ledger
  | true =>
    cases hevents : o.callocEvents with
    | false =>
      refine ⟨[], ?_, iff_of_true (by simp [NoneOwned]) (.inr (.inl hevents)),
        iff_of_true (by simp [AllOwned]) (.inr (.inl rfl))⟩
      have hdata' := ((Extends.refl ledger).acquire .data).release hwf (.refl _)
      simpa [configure, hdata, hevents] using hdata'
    | true =>
      rw [configure_eq hdata hevents] at hthrown ⊢
      dsimp only at hthrown ⊢
      have htidy : TidyFailure hasPapi args o ↔
          SameComponent hasPapi o.papi (args.known hasPapi o.papi) ∧
            NoNames o 0 (args.known hasPapi o.papi).length ∧
            (args.known hasPapi o.papi = args.jeventNames → o.papiCreate ≠ papiOk) := by
        simp [TidyFailure, hdata, hevents]
      have hjvm : true = false ∨ true = false ∨
          SameComponent hasPapi o.papi (args.known hasPapi o.papi) ↔
            SameComponent hasPapi o.papi (args.known hasPapi o.papi) := by simp
      rw [htidy, hjvm]
      cases ht : (loopStage hasPapi o size args config ledger).thrown with
      | some e =>
        dsimp only
        have hloop : (loopStage hasPapi o size args config ledger).thrown ≠ none := by
          rw [ht]
          exact Option.some_ne_none e
        exact loopStage_ledger_thrown hwf hloop
      | none =>
        rw [ht] at hthrown
        dsimp only at hthrown ⊢
        obtain ⟨hrec, hsame⟩ := loopStage_thrown.mp ht
        obtain ⟨hext, hpapi, hnil⟩ := loopStage_ledger hwf ht
        cases hasPapi with
        | false => exact absurd ht hthrown
        | true =>
          obtain ⟨left, hleft, hiff, hall⟩ :=
            (setupPapi_ledger hwf args.joptions hpapi hext).2 hthrown
          rw [known_eq hrec]
          refine ⟨left, hleft, hiff.trans ?_, iff_of_true hall hsame⟩
          rw [hnil]
          exact ⟨fun h => ⟨hsame, h.1, fun _ => h.2⟩, fun h => ⟨h.2.1, h.2.2 rfl⟩⟩

end Configure

end UbenchAgent
