import UbenchAgent.Attached
import UbenchAgent.Ownership

/-!
# The ledger along a run

After every call the ledger should hold what the valid event sets own and nothing else of
the kind.  No call ever releases what is not held, and nothing that a valid event set owns
is lost; but destruction frees the two arrays only, and most failed creations leave
something behind.
-/

namespace UbenchAgent

open Ledger

/-- The ledger holds what the valid event sets own, and no other resource that an event set
can own; and nothing was released twice. -/
structure Balanced (a : Agent) : Prop where
  exact : ∀ x, x ∈ a.ledger.held ∧ x.2.owned = true ↔
    ∃ id config, a.validConfig id = some config ∧ x ∈ config.owned.resources
  once : a.ledger.misreleased = false

/-- Every resource that an event set can own is owned by a valid one. -/
def NoLeak (a : Agent) : Prop :=
  ∀ x ∈ a.ledger.held, x.2.owned = true →
    ∃ id config, a.validConfig id = some config ∧ x ∈ config.owned.resources

/-- What holds after every creation and destruction, leaks or not: the ledger is well formed
and holds what each valid event set owns, and no two of them own the same. -/
structure Ledgered (a : Agent) : Prop where
  wf : a.ledger.WF
  once : a.ledger.misreleased = false
  parts : ∀ id config, a.validConfig id = some config → OwnsParts config
  held : ∀ id config, a.validConfig id = some config →
    ∀ x ∈ config.owned.resources, x ∈ a.ledger.held
  apart : ∀ id id' config config', a.validConfig id = some config →
    a.validConfig id' = some config' →
      ∀ x ∈ config.owned.resources, x ∈ config'.owned.resources → id = id'

section Ledgered

variable {a a' : Agent} {config : BenchmarkConfiguration}

theorem Ledgered.initial : Ledgered .initial where
  wf := WF.empty
  once := rfl
  parts id config hc := by
    rw [validConfig_initial] at hc
    cases hc
  held id config hc := by
    rw [validConfig_initial] at hc
    cases hc
  apart id id' config config' hc := by
    rw [validConfig_initial] at hc
    cases hc

theorem noLeak_initial : NoLeak .initial :=
  fun _ hx => absurd hx List.not_mem_nil

theorem Ledgered.balanced_iff (h : Ledgered a) : Balanced a ↔ NoLeak a := by
  constructor
  · intro hb x hx hx'
    exact (hb.exact x).mp ⟨hx, hx'⟩
  · intro hb
    refine ⟨fun x => ⟨fun hx => hb x hx.1 hx.2, ?_⟩, h.once⟩
    rintro ⟨id, config, hc, hx⟩
    exact ⟨h.held id config hc x hx, owned_of_mem hx⟩

theorem not_held_of_new (h : Ledgered a) {new : List (ℕ × Resource)}
    (hext : a.ledger.Extends a'.ledger new) {x : ℕ × Resource} (hx : x ∈ new) :
    x ∉ a.ledger.held := by
  intro hheld
  have hlt := h.wf.lt x hheld
  have hge := (hext.fresh x hx).1
  omega

theorem Ledgered.failed (h : Ledgered a) {left : List (ℕ × Resource)}
    (htable : ∀ id, a'.validConfig id = a.validConfig id)
    (hext : a.ledger.Extends a'.ledger left) :
    Ledgered a' ∧ (NoLeak a' ↔ NoLeak a ∧ NoneOwned left) := by
  have hheld : ∀ x, x ∈ a'.ledger.held ↔ x ∈ left ∨ x ∈ a.ledger.held := fun x => by
    rw [hext.held.mem_iff, List.mem_append]
  refine ⟨⟨hext.wf h.wf, hext.misreleased.trans h.once, ?_, ?_, ?_⟩, ?_, ?_⟩
  · intro id config hc
    exact h.parts id config ((htable id).symm.trans hc)
  · intro id config hc x hx
    exact (hheld x).mpr (.inr (h.held id config ((htable id).symm.trans hc) x hx))
  · intro id id' config config' hc hc'
    exact h.apart id id' config config' ((htable id).symm.trans hc) ((htable id').symm.trans hc')
  · intro hno
    refine ⟨?_, ?_⟩
    · intro x hx hx'
      obtain ⟨id, config, hc, hmem⟩ := hno x ((hheld x).mpr (.inr hx)) hx'
      exact ⟨id, config, (htable id).symm.trans hc, hmem⟩
    · -- A new resource belongs to no event set, as those own what was held before.
      intro x hx
      rw [← Bool.not_eq_true]
      intro hx'
      obtain ⟨id, config, hc, hmem⟩ := hno x ((hheld x).mpr (.inl hx)) hx'
      exact not_held_of_new h hext hx (h.held id config ((htable id).symm.trans hc) x hmem)
  · rintro ⟨hno, hnone⟩ x hx hx'
    rcases (hheld x).mp hx with hx | hx
    · rw [hnone x hx] at hx'
      cases hx'
    · obtain ⟨id, config, hc, hmem⟩ := hno x hx hx'
      exact ⟨id, config, (htable id).trans hc, hmem⟩

theorem Ledgered.created (h : Ledgered a) {i : ℤ} (hfree : a.validConfig i = none)
    (htable : ∀ id, a'.validConfig id = if id = i then some config else a.validConfig id)
    (hparts : OwnsParts config) (hext : a.ledger.Extends a'.ledger config.owned.resources) :
    Ledgered a' ∧ (NoLeak a' ↔ NoLeak a) := by
  have hheld : ∀ x, x ∈ a'.ledger.held ↔ x ∈ config.owned.resources ∨ x ∈ a.ledger.held :=
    fun x => by rw [hext.held.mem_iff, List.mem_append]
  have hnew : a'.validConfig i = some config := by rw [htable, if_pos rfl]
  have hcases : ∀ id c, a'.validConfig id = some c →
      id = i ∧ c = config ∨ a.validConfig id = some c := by
    intro id c hc
    rw [htable] at hc
    split_ifs at hc with hid
    · exact .inl ⟨hid, (Option.some.inj hc).symm⟩
    · exact .inr hc
  have hold : ∀ id c, a.validConfig id = some c → a'.validConfig id = some c := by
    intro id c hc
    rw [htable, if_neg ?_]
    · exact hc
    · rintro rfl
      rw [hfree] at hc
      cases hc
  refine ⟨⟨hext.wf h.wf, hext.misreleased.trans h.once, ?_, ?_, ?_⟩, ?_, ?_⟩
  · intro id c hc
    rcases hcases id c hc with ⟨-, rfl⟩ | hc
    · exact hparts
    · exact h.parts id c hc
  · intro id c hc x hx
    rcases hcases id c hc with ⟨-, rfl⟩ | hc
    · exact (hheld x).mpr (.inl hx)
    · exact (hheld x).mpr (.inr (h.held id c hc x hx))
  · intro id id' c c' hc hc' x hx hx'
    rcases hcases id c hc with ⟨rfl, rfl⟩ | hc
    · rcases hcases id' c' hc' with ⟨rfl, -⟩ | hc'
      · rfl
      · exact absurd (h.held id' c' hc' x hx') (not_held_of_new h hext hx)
    · rcases hcases id' c' hc' with ⟨-, rfl⟩ | hc'
      · exact absurd (h.held id c hc x hx) (not_held_of_new h hext hx')
      · exact h.apart id id' c c' hc hc' x hx hx'
  · intro hno x hx hx'
    obtain ⟨id, c, hc, hmem⟩ := hno x ((hheld x).mpr (.inr hx)) hx'
    rcases hcases id c hc with ⟨-, rfl⟩ | hc
    · exact absurd hx (not_held_of_new h hext hmem)
    · exact ⟨id, c, hc, hmem⟩
  · intro hno x hx hx'
    rcases (hheld x).mp hx with hx | hx
    · exact ⟨i, config, hnew, hx⟩
    · obtain ⟨id, c, hc, hmem⟩ := hno x hx hx'
      exact ⟨id, c, hold id c hc, hmem⟩

def Owned.arrays (owned : Owned) : List (ℕ × Resource) :=
  owned.data.toList.map (fun n => (n, .data)) ++
    owned.usedEvents.toList.map (fun n => (n, .usedEvents))

def Owned.rest (owned : Owned) : List (ℕ × Resource) :=
  { owned with data := none, usedEvents := none }.resources

theorem mem_resources {owned : Owned} {x : ℕ × Resource} :
    x ∈ owned.resources ↔ x ∈ owned.arrays ∨ x ∈ owned.rest := by
  simp [Owned.resources, Owned.arrays, Owned.rest, or_assoc]

theorem not_mem_arrays {owned : Owned} {x : ℕ × Resource} (h : x ∈ owned.rest) :
    x ∉ owned.arrays := by
  simp only [Owned.rest, Owned.resources, Option.toList_none, List.map_nil, List.nil_append,
    List.mem_append, List.mem_map] at h
  simp only [Owned.arrays, List.mem_append, List.mem_map]
  rcases h with ⟨n, -, rfl⟩ | ⟨n, -, rfl⟩ <;> simp

theorem freeArrays_held {ledger : Ledger Resource} (hwf : ledger.WF)
    (hheld : ∀ x ∈ config.owned.arrays, x ∈ ledger.held) :
    (freeArrays config ledger).WF ∧ (freeArrays config ledger).misreleased = ledger.misreleased ∧
      ∀ x, x ∈ (freeArrays config ledger).held ↔
        x ∈ ledger.held ∧ x ∉ config.owned.arrays := by
  unfold freeArrays
  rw [Owned.arrays, List.forall_mem_append] at hheld
  obtain ⟨hwf₁, honce₁, hmem₁⟩ := hwf.releaseOpt hheld.2
  -- The release of `used_events` keeps `data`, which is of another kind.
  have hdata : ∀ x ∈ config.owned.data.toList.map (fun n => (n, Resource.data)),
      x ∈ (ledger.releaseOpt config.owned.usedEvents).held := by
    intro x hx
    refine (hmem₁ x).mpr ⟨hheld.1 x hx, ?_⟩
    obtain ⟨n, -, rfl⟩ := List.mem_map.mp hx
    simp
  obtain ⟨hwf₂, honce₂, hmem₂⟩ := hwf₁.releaseOpt hdata
  refine ⟨hwf₂, honce₂.trans honce₁, ?_⟩
  intro x
  rw [hmem₂, hmem₁, Owned.arrays, List.mem_append, not_or, and_assoc]
  exact and_congr_right fun _ => and_comm

/-- Destroying the event set leaves nothing behind: no event has a name, and PAPI is not
used. -/
def LeavesNothing (config : BenchmarkConfiguration) : Prop :=
  (∀ event ∈ config.usedEvents, event.name = none) ∧ config.uses backendPapi = false

theorem OwnsParts.leavesNothing_iff (h : OwnsParts config) :
    LeavesNothing config ↔ NoneOwned config.owned.rest := by
  rw [LeavesNothing, ← h.names, ← h.papiEventset, Owned.rest, noneOwned_resources]
  simp

theorem Ledgered.destroyed (h : Ledgered a) {i : ℤ} (hc : a.validConfig i = some config) :
    Ledgered (destroyEventSet a i).1 ∧
      (NoLeak (destroyEventSet a i).1 ↔ NoLeak a ∧ LeavesNothing config) := by
  obtain ⟨a', heq, htable⟩ := destroyEventSet_valid hc
  have hledger : a'.ledger = freeArrays config a.ledger := by
    have hfst := congrArg (fun x => x.1.ledger) heq
    rw [destroyEventSet, hc] at hfst
    exact hfst.symm
  obtain ⟨hwf, honce, hheld⟩ := freeArrays_held h.wf fun x hx =>
    h.held i config hc x (mem_resources.mpr (.inl hx))
  rw [← hledger] at hwf honce hheld
  rw [heq, (h.parts i config hc).leavesNothing_iff]
  have hcases : ∀ id c, a'.validConfig id = some c → id ≠ i ∧ a.validConfig id = some c := by
    intro id c hc'
    rw [htable] at hc'
    split_ifs at hc' with hid
    exact ⟨hid, hc'⟩
  have hothers : ∀ id c, id ≠ i → a.validConfig id = some c → a'.validConfig id = some c :=
    fun id c hid hc' => by rw [htable, if_neg hid, hc']
  refine ⟨⟨hwf, honce.trans h.once, ?_, ?_, ?_⟩, ?_, ?_⟩
  · intro id c hc'
    exact h.parts id c (hcases id c hc').2
  · intro id c hc' x hx
    obtain ⟨hid, hc'⟩ := hcases id c hc'
    refine (hheld x).mpr ⟨h.held id c hc' x hx, ?_⟩
    intro hmem
    exact hid (h.apart id i c config hc' hc x hx (mem_resources.mpr (.inl hmem)))
  · intro id id' c c' hc₁ hc₂
    exact h.apart id id' c c' (hcases id c hc₁).2 (hcases id' c' hc₂).2
  · intro hno
    refine ⟨?_, ?_⟩
    · intro x hx hx'
      by_cases hmem : x ∈ config.owned.arrays
      · exact ⟨i, config, hc, mem_resources.mpr (.inl hmem)⟩
      · obtain ⟨id, c, hc', hown⟩ := hno x ((hheld x).mpr ⟨hx, hmem⟩) hx'
        exact ⟨id, c, (hcases id c hc').2, hown⟩
    · -- What is not freed is still held, and its owner is gone.
      intro x hx
      rw [← Bool.not_eq_true]
      intro hx'
      have hres : x ∈ config.owned.resources := mem_resources.mpr (.inr hx)
      obtain ⟨id, c, hc', hown⟩ := hno x
        ((hheld x).mpr ⟨h.held i config hc x hres, not_mem_arrays hx⟩) hx'
      obtain ⟨hid, hc'⟩ := hcases id c hc'
      exact hid (h.apart id i c config hc' hc x hown hres)
  · rintro ⟨hno, hnone⟩ x hx hx'
    obtain ⟨hx, hmem⟩ := (hheld x).mp hx
    obtain ⟨id, c, hc', hown⟩ := hno x hx hx'
    refine ⟨id, c, hothers id c ?_ hc', hown⟩
    rintro rfl
    obtain rfl : config = c := Option.some.inj (hc.symm.trans hc')
    rcases mem_resources.mp hown with hown | hown
    · exact hmem hown
    · rw [hnone x hown] at hx'
      cases hx'

theorem Ledgered.rewritten (h : Ledgered a) {i : ℤ} (hc : a.validConfig i = some config)
    (config' : BenchmarkConfiguration) (howned : config'.owned = config.owned)
    (hparts : OwnsParts config') :
    Ledgered (a.setEventset i ⟨config', true⟩) ∧
      (NoLeak (a.setEventset i ⟨config', true⟩) ↔ NoLeak a) := by
  have htable := validConfig_setValid hc config'
  -- Ids name configurations that own the same, before and after.
  have hback : ∀ id c', (a.setEventset i ⟨config', true⟩).validConfig id = some c' →
      ∃ c, a.validConfig id = some c ∧ c'.owned = c.owned ∧ OwnsParts c' := by
    intro id c' hc'
    rw [htable] at hc'
    split_ifs at hc' with hid
    · obtain rfl := Option.some.inj hc'
      exact ⟨config, by rw [hid, hc], howned, hparts⟩
    · exact ⟨c', hc', rfl, h.parts id c' hc'⟩
  have hforth : ∀ id c, a.validConfig id = some c →
      ∃ c', (a.setEventset i ⟨config', true⟩).validConfig id = some c' ∧ c'.owned = c.owned := by
    intro id c hc'
    rw [htable]
    split_ifs with hid
    · rw [hid, hc] at hc'
      obtain rfl := Option.some.inj hc'
      exact ⟨config', rfl, howned⟩
    · exact ⟨c, hc', rfl⟩
  refine ⟨⟨h.wf, h.once, ?_, ?_, ?_⟩, ?_, ?_⟩
  · intro id c' hc'
    obtain ⟨c, -, -, hp⟩ := hback id c' hc'
    exact hp
  · intro id c' hc' x hx
    obtain ⟨c, hc, heq, -⟩ := hback id c' hc'
    rw [heq] at hx
    exact h.held id c hc x hx
  · intro id id' c₁ c₂ hc₁ hc₂ x hx₁ hx₂
    obtain ⟨c₁', hc₁', heq₁, -⟩ := hback id c₁ hc₁
    obtain ⟨c₂', hc₂', heq₂, -⟩ := hback id' c₂ hc₂
    rw [heq₁] at hx₁
    rw [heq₂] at hx₂
    exact h.apart id id' c₁' c₂' hc₁' hc₂' x hx₁ hx₂
  · intro hno x hx hx'
    obtain ⟨id, c', hc', hown⟩ := hno x hx hx'
    obtain ⟨c, hc, heq, -⟩ := hback id c' hc'
    exact ⟨id, c, hc, heq ▸ hown⟩
  · intro hno x hx hx'
    obtain ⟨id, c, hc', hown⟩ := hno x hx hx'
    obtain ⟨c', hc'', heq⟩ := hforth id c hc'
    exact ⟨id, c', hc'', heq ▸ hown⟩

end Ledgered

/-- The exits of `createEventSet` that leave nothing behind: it is given no measurements or
no events, there is no room, or `configure` fails tidily. -/
def TidyExit (hasPapi : Bool) (a : Agent) (args : CreateArgs) (o : CreateOutcomes) : Prop :=
  (args.jmeasurements * 2 ≤ 0 ∨ args.jeventNames = [] ∨ ¬ HasRoom a o) ∨
    TidyFailure hasPapi args o.toSetupOutcomes

def CreateArgs.UsesPapi (hasPapi : Bool) (args : CreateArgs) (o : SetupOutcomes) : Prop :=
  ∃ name ∈ args.jeventNames, isPapiName hasPapi o.papi name = true

section Create

variable {hasPapi : Bool} {a : Agent} {args : CreateArgs} {o : CreateOutcomes}

theorem Ledgered.accepted (h : Ledgered a) (hacc : Accepted hasPapi a args o) :
    ∃ a' config, createEventSet hasPapi a args o = (a', .ok a.freeSlot) ∧
      a'.validConfig a.freeSlot = some config ∧
      (config.uses backendPapi = true ↔ args.UsesPapi hasPapi o.toSetupOutcomes) ∧
      Ledgered a' ∧ (NoLeak a' ↔ NoLeak a) := by
  obtain ⟨eventsets, eventset, hfree, hlt, hsame, heq⟩ :=
    createEventSet_slot hasPapi hacc.measurements hacc.events hacc.room
  have hc : (configure hasPapi o.toSetupOutcomes args.size args eventset.config
      a.ledger).thrown = none := configure_thrown.mpr hacc.configurable
  have hcreated := configure_created hc
  obtain ⟨hext, hparts⟩ := configure_ledger h.wf hc
  rw [heq, fillSlot]
  dsimp only
  rw [hc]
  have htable : ∀ id, Agent.validConfig ⟨eventsets.set a.freeSlot
      ⟨(configure hasPapi o.toSetupOutcomes args.size args eventset.config a.ledger).config,
        true⟩, (configure hasPapi o.toSetupOutcomes args.size args eventset.config
        a.ledger).ledger⟩ id = if id = a.freeSlot then
      some (configure hasPapi o.toSetupOutcomes args.size args eventset.config a.ledger).config
      else a.validConfig id := by
    intro id
    rw [validConfig_set hlt, validConfig_ledger eventsets _ a.ledger, hsame]
    rfl
  refine ⟨_, _, rfl, ?_, hcreated.loop.uses, ?_⟩
  · rw [htable, if_pos rfl]
  · exact h.created (validConfig_freeSlot a) htable hparts hext

/-- A creation that is not accepted leaks unless it fails at a tidy exit. -/
theorem Ledgered.rejected (h : Ledgered a) (hrej : ¬ Accepted hasPapi a args o) :
    ∃ a' e, createEventSet hasPapi a args o = (a', .error e) ∧
      Ledgered a' ∧ (NoLeak a' ↔ NoLeak a ∧ TidyExit hasPapi a args o) := by
  by_cases hearly : args.jmeasurements * 2 ≤ 0 ∨ args.jeventNames = [] ∨ ¬ HasRoom a o
  · obtain ⟨e, heq⟩ := createEventSet_early hasPapi hearly
    exact ⟨a, e, heq, h, (and_iff_left (.inl hearly)).symm⟩
  · have htidy : TidyExit hasPapi a args o ↔ TidyFailure hasPapi args o.toSetupOutcomes :=
      or_iff_right hearly
    simp only [not_or, not_not, Int32.not_le] at hearly
    obtain ⟨hmeas, hevents, hroom⟩ := hearly
    obtain ⟨eventsets, eventset, hfree, hlt, hsame, heq⟩ :=
      createEventSet_slot hasPapi hmeas hevents hroom
    have hc : (configure hasPapi o.toSetupOutcomes args.size args eventset.config
        a.ledger).thrown ≠ none := fun hc =>
      hrej ⟨hmeas, hevents, hroom, configure_thrown.mp hc⟩
    obtain ⟨left, hleft, hiff, -⟩ := configure_ledger_thrown h.wf hc
    obtain ⟨e, he⟩ := Option.ne_none_iff_exists'.mp hc
    rw [heq, fillSlot]
    dsimp only
    rw [he, htidy, ← hiff]
    refine ⟨_, e, rfl, h.failed (fun id => ?_) hleft⟩
    -- The slot was free and is still marked so.
    rw [validConfig_set hlt, hfree]
    split_ifs with hid
    · contradiction
    · rw [hid]
      exact (validConfig_freeSlot a).symm
    · exact hsame id

end Create

/-- The condition on a call and on the state before it under which it leaks nothing. -/
def Tidy (hasPapi : Bool) (a : Agent) : Call → Prop
  | .createEventSet args o => Accepted hasPapi a args o ∨ TidyExit hasPapi a args o
  | .createAttachedEventSetWithJavaThread threads javaThreadId args o attach =>
    if hasPapi then
      Accepted true a args o ∧ (args.UsesPapi true o.toSetupOutcomes →
        ubenchThreadsGetNativeId threads javaThreadId ≠ ubenchThreadIdInvalid ∧
          attach = papiOk)
    else Accepted false a args o ∨ TidyExit false a args o
  | .createAttachedEventSetWithNativeThread _ args o attach =>
    if hasPapi then
      Accepted true a args o ∧ (args.UsesPapi true o.toSetupOutcomes → attach = papiOk)
    else Accepted false a args o ∨ TidyExit false a args o
  | .destroyEventSet jid => ∀ config, a.validConfig jid = some config → LeavesNothing config
  | _ => True

def Call.isLifecycle : Call → Bool
  | .createEventSet _ _ => true
  | .createAttachedEventSetWithJavaThread _ _ _ _ _ => true
  | .createAttachedEventSetWithNativeThread _ _ _ _ => true
  | .destroyEventSet _ => true
  | _ => false

section Step

variable {hasPapi : Bool} {a : Agent} {args : CreateArgs} {o : CreateOutcomes}

/-- A call that answers with the state `a'`, or runs into a fault, leaks nothing exactly
under the condition `tidy`. -/
def LeaksUnless {α : Type} (a : Agent) (tidy : Prop) (outcome : Except Fault (Agent × α)) :
    Prop :=
  (∃ a' r, outcome = .ok (a', r) ∧ Ledgered a' ∧ (NoLeak a' ↔ NoLeak a ∧ tidy)) ∨
    (∃ f, outcome = .error f) ∧ ¬ tidy

theorem Ledgered.createEventSet (h : Ledgered a) (args : CreateArgs) (o : CreateOutcomes) :
    LeaksUnless a (Accepted hasPapi a args o ∨ TidyExit hasPapi a args o)
      (.ok (UbenchAgent.createEventSet hasPapi a args o)) := by
  by_cases hacc : Accepted hasPapi a args o
  · obtain ⟨a', config, heq, -, -, h', hleak⟩ := h.accepted hacc
    rw [heq]
    exact .inl ⟨a', _, rfl, h', hleak.trans (and_iff_left (.inl hacc)).symm⟩
  · obtain ⟨a', e, heq, h', hleak⟩ := h.rejected hacc
    rw [heq, or_iff_right hacc]
    exact .inl ⟨a', _, rfl, h', hleak⟩

theorem Ledgered.destroyEventSet (h : Ledgered a) (jid : ℤ) :
    LeaksUnless a (∀ config, a.validConfig jid = some config → LeavesNothing config)
      (.ok (UbenchAgent.destroyEventSet a jid)) := by
  cases hc : a.validConfig jid with
  | none =>
    rw [destroyEventSet_invalid hc]
    exact .inl ⟨a, _, rfl, h, (and_iff_left nofun).symm⟩
  | some config =>
    obtain ⟨h', hleak⟩ := h.destroyed hc
    refine .inl ⟨_, _, rfl, h', hleak.trans (and_congr_right fun _ => ?_)⟩
    simp

theorem Ledgered.destroyed_papi {config : BenchmarkConfiguration} (h : Ledgered a) {i : ℤ}
    (hc : a.validConfig i = some config) (hu : config.uses backendPapi = true) :
    Ledgered (UbenchAgent.destroyEventSet a i).1 ∧
      ¬ NoLeak (UbenchAgent.destroyEventSet a i).1 := by
  obtain ⟨h', hleak⟩ := h.destroyed hc
  refine ⟨h', ?_⟩
  rw [hleak]
  rintro ⟨-, -, hno⟩
  rw [hu] at hno
  cases hno

theorem Ledgered.attachEventset {config : BenchmarkConfiguration} (h : Ledgered a) {i : ℤ}
    (hc : a.validConfig i = some config) (hu : config.uses backendPapi = true)
    (nativeId : Int64) (attach : Int32) :
    LeaksUnless a (attach = papiOk)
      (.ok (UbenchAgent.attachEventset a i config nativeId attach)) := by
  unfold UbenchAgent.attachEventset
  split_ifs with hattach
  · obtain ⟨h', hleak⟩ := h.destroyed_papi hc hu
    exact .inl ⟨_, _, rfl, h', iff_of_false hleak fun hno => hattach hno.2⟩
  · obtain ⟨h', hleak⟩ := h.rewritten hc
      { config with papiState := { config.papiState with attached := some nativeId } } rfl
      ⟨(h.parts i config hc).names, (h.parts i config hc).papiEventset⟩
    rw [not_not] at hattach
    exact .inl ⟨_, _, rfl, h', hleak.trans (and_iff_left hattach).symm⟩

theorem LeaksUnless.of_noLeak {α : Type} {a₁ : Agent} {tidy : Prop}
    {outcome : Except Fault (Agent × α)} (h : LeaksUnless a₁ tidy outcome)
    (hleak : NoLeak a₁ ↔ NoLeak a) : LeaksUnless a tidy outcome := by
  rcases h with ⟨a', r, heq, h', hiff⟩ | h
  · exact .inl ⟨a', r, heq, h', by rw [hiff, hleak]⟩
  · exact .inr h

theorem Ledgered.createAttachedEventSetWithJavaThread (h : Ledgered a) (threads : ThreadMap)
    (javaThreadId : Int64) (args : CreateArgs) (o : CreateOutcomes) (attach : Int32) :
    LeaksUnless a
      (Tidy hasPapi a (.createAttachedEventSetWithJavaThread threads javaThreadId args o attach))
      (UbenchAgent.createAttachedEventSetWithJavaThread hasPapi a threads javaThreadId args o
        attach) := by
  unfold Tidy
  dsimp only
  cases hasPapi with
  | false => exact h.createEventSet args o
  | true =>
    rw [if_pos rfl]
    by_cases hacc : Accepted true a args o
    · obtain ⟨a₁, config, heq, hc, huses, h₁, hleak⟩ := h.accepted hacc
      unfold UbenchAgent.createAttachedEventSetWithJavaThread
      rw [heq]
      dsimp only [returnedId]
      rw [if_pos rfl, eventsetAt_of_validConfig hc]
      dsimp only
      split_ifs with hu hunknown
      · -- The thread is unknown: the new event set is destroyed.
        obtain ⟨h', hleak'⟩ := h₁.destroyed_papi hc hu
        refine .inl ⟨_, _, rfl, h', iff_of_false hleak' ?_⟩
        rintro ⟨-, -, htidy⟩
        exact (htidy (huses.mp hu)).1 hunknown
      · have hattach := (h₁.attachEventset hc hu (ubenchThreadsGetNativeId threads javaThreadId)
          attach).of_noLeak hleak
        have htidy : attach = papiOk ↔ Accepted true a args o ∧
            (args.UsesPapi true o.toSetupOutcomes →
              ubenchThreadsGetNativeId threads javaThreadId ≠ ubenchThreadIdInvalid ∧
                attach = papiOk) :=
          ⟨fun hok => ⟨hacc, fun _ => ⟨hunknown, hok⟩⟩, fun ht => (ht.2 (huses.mp hu)).2⟩
        rwa [← htidy]
      · refine .inl ⟨a₁, _, rfl, h₁, hleak.trans (and_iff_left ⟨hacc, ?_⟩).symm⟩
        intro hp
        exact absurd (huses.mpr hp) hu
    · rw [(createAttached_rejected hacc threads javaThreadId attach).1]
      exact .inr ⟨⟨_, rfl⟩, fun htidy => hacc htidy.1⟩

theorem Ledgered.createAttachedEventSetWithNativeThread (h : Ledgered a)
    (nativeThreadId : Int64) (args : CreateArgs) (o : CreateOutcomes) (attach : Int32) :
    LeaksUnless a
      (Tidy hasPapi a (.createAttachedEventSetWithNativeThread nativeThreadId args o attach))
      (UbenchAgent.createAttachedEventSetWithNativeThread hasPapi a nativeThreadId args o
        attach) := by
  unfold Tidy
  dsimp only
  cases hasPapi with
  | false => exact h.createEventSet args o
  | true =>
    rw [if_pos rfl]
    by_cases hacc : Accepted true a args o
    · obtain ⟨a₁, config, heq, hc, huses, h₁, hleak⟩ := h.accepted hacc
      unfold UbenchAgent.createAttachedEventSetWithNativeThread
      rw [heq]
      dsimp only [returnedId]
      rw [if_pos rfl, eventsetAt_of_validConfig hc]
      dsimp only
      split_ifs with hu
      · have hattach := (h₁.attachEventset hc hu nativeThreadId attach).of_noLeak hleak
        have htidy : attach = papiOk ↔ Accepted true a args o ∧
            (args.UsesPapi true o.toSetupOutcomes → attach = papiOk) :=
          ⟨fun hok => ⟨hacc, fun _ => hok⟩, fun ht => ht.2 (huses.mp hu)⟩
        rwa [← htidy]
      · refine .inl ⟨a₁, _, rfl, h₁, hleak.trans (and_iff_left ⟨hacc, ?_⟩).symm⟩
        intro hp
        exact absurd (huses.mpr hp) hu
    · rw [(createAttached_rejected hacc .empty nativeThreadId attach).2]
      exact .inr ⟨⟨_, rfl⟩, fun htidy => hacc htidy.1⟩

theorem LeaksUnless.map {α β : Type} {tidy : Prop} {outcome : Except Fault (Agent × α)}
    (h : LeaksUnless a tidy outcome) (f : α → β) :
    LeaksUnless a tidy (outcome >>= fun x => .ok (x.1, f x.2)) := by
  rcases h with ⟨a', r, rfl, h', hiff⟩ | ⟨⟨fault, rfl⟩, hnot⟩
  · exact .inl ⟨a', f r, rfl, h', hiff⟩
  · exact .inr ⟨⟨fault, rfl⟩, hnot⟩

variable (hasPapi) in
theorem Ledgered.step (h : Ledgered a) {call : Call} (hcall : call.isLifecycle = true) :
    LeaksUnless a (Tidy hasPapi a call) (a.step hasPapi call) := by
  cases call with
  | createEventSet args o => exact (h.createEventSet args o).map Response.ofId
  | createAttachedEventSetWithJavaThread threads javaThreadId args o attach =>
    exact (h.createAttachedEventSetWithJavaThread threads javaThreadId args o attach).map
      Response.ofId
  | createAttachedEventSetWithNativeThread nativeThreadId args o attach =>
    exact (h.createAttachedEventSetWithNativeThread nativeThreadId args o attach).map
      Response.ofId
  | destroyEventSet jid => exact (h.destroyEventSet jid).map Response.ofUnit
  | start jids => cases hcall
  | stop jids => cases hcall
  | sample juserId jids => cases hcall
  | reset jids => cases hcall
  | getResults jid => cases hcall
  | getRawResults jid => cases hcall

end Step

/-- Along the calls the ledger is balanced in every state, and no call reads outside the
table. -/
def KeepsLedger (hasPapi : Bool) (a : Agent) : List Call → Prop
  | [] => Balanced a
  | call :: calls => Balanced a ∧
      ∃ a' r, a.step hasPapi call = .ok (a', r) ∧ KeepsLedger hasPapi a' calls

def TidyRun (hasPapi : Bool) (a : Agent) : List Call → Prop
  | [] => True
  | call :: calls => Tidy hasPapi a call ∧
      ∀ a' r, a.step hasPapi call = .ok (a', r) → TidyRun hasPapi a' calls

theorem KeepsLedger.balanced {hasPapi : Bool} {a : Agent} {calls : List Call}
    (h : KeepsLedger hasPapi a calls) : Balanced a := by
  cases calls with
  | nil => exact h
  | cons call calls => exact h.1

/-- From a state without leaks a run keeps the ledger exactly if all its calls are tidy. -/
theorem Ledgered.keeps_iff {hasPapi : Bool} {calls : List Call} {a : Agent}
    (h : Ledgered a) (hno : NoLeak a) (hcalls : ∀ call ∈ calls, call.isLifecycle = true) :
    KeepsLedger hasPapi a calls ↔ TidyRun hasPapi a calls := by
  induction calls generalizing a with
  | nil => exact iff_of_true (h.balanced_iff.mpr hno) trivial
  | cons call calls ih =>
    rw [List.forall_mem_cons] at hcalls
    rw [KeepsLedger, TidyRun, and_iff_right (h.balanced_iff.mpr hno)]
    rcases h.step hasPapi hcalls.1 with ⟨a', r, heq, h', hiff⟩ | ⟨⟨f, heq⟩, hnot⟩
    · rw [heq]
      constructor
      · rintro ⟨a₁, r₁, heq₁, hkeeps⟩
        cases heq₁
        have hno' := h'.balanced_iff.mp hkeeps.balanced
        refine ⟨(hiff.mp hno').2, ?_⟩
        intro a₁ r₁ heq₁
        cases heq₁
        exact (ih h' hno' hcalls.2).mp hkeeps
      · rintro ⟨htidy, hrest⟩
        have hno' := hiff.mpr ⟨hno, htidy⟩
        exact ⟨a', r, rfl, (ih h' hno' hcalls.2).mpr (hrest a' r rfl)⟩
    · rw [heq]
      constructor
      · rintro ⟨a₁, r₁, heq₁, -⟩
        cases heq₁
      · intro htidy
        exact absurd htidy.1 hnot

/-- A run of creations and destructions keeps the ledger balanced after every call exactly if
each of its calls is tidy. -/
theorem keepsLedger_iff {hasPapi : Bool} (calls : List Call)
    (hcalls : ∀ call ∈ calls, call.isLifecycle = true) :
    KeepsLedger hasPapi .initial calls ↔ TidyRun hasPapi .initial calls :=
  Ledgered.initial.keeps_iff noLeak_initial hcalls

/-- Destroying an event set leaves its PAPI event set and the name of its event behind. -/
theorem not_keepsLedger_destroyed :
    (∃ a tr, run (Agent.step true) .initial
        [.createEventSet .instructions .success, .destroyEventSet 0] = .ok (a, tr) ∧
      a.allEventsets.map Eventset.valid = [false] ∧
      a.ledger.held.map Prod.snd = [.papiEventset, .name]) ∧
    ¬ KeepsLedger true .initial [.createEventSet .instructions .success, .destroyEventSet 0] := by
  refine ⟨⟨_, _, rfl, by decide, by decide⟩, ?_⟩
  intro hkeeps
  have htidy := (Ledgered.initial.keeps_iff noLeak_initial (by simp [Call.isLifecycle])).mp
    hkeeps
  obtain ⟨a, config, heq, hc, huses, -⟩ :=
    Ledgered.initial.accepted (accepted_instructions .initial)
  have hdestroy := (htidy.2 a (.eventSet 0) (by rw [Agent.step, heq]; rfl)).1 config hc
  have hu := huses.mpr isPapiName_instructions
  rw [hdestroy.2] at hu
  cases hu

/-- A creation that fails at once and two that are accepted keep the ledger. -/
theorem keepsLedger_creations :
    KeepsLedger false .initial [.createEventSet (.wallclock 0) .success,
      .createEventSet (.wallclock 1) .success, .createEventSet (.wallclock 2) .success] :=
  (keepsLedger_iff _ (by simp [Call.isLifecycle])).mpr
    ⟨.inr (.inl (.inl (by decide))), fun a _ _ => ⟨.inl (accepted_wallclock false a 1 (by decide)),
      fun a _ _ => ⟨.inl (accepted_wallclock false a 2 (by decide)), fun _ _ _ => trivial⟩⟩⟩

end UbenchAgent
