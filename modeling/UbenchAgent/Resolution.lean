import UbenchAgent.Results
import Mathlib.Tactic.Tauto

/-!
# What event resolution stores

Facts about `ubench_event_resolve` and about the event loop of `createEventSet`: every
event that is accepted has matching getters whose backend is in the mask, and a PAPI
event has an index among the registered ones.
-/

namespace UbenchAgent

section Mask

variable {config config' : BenchmarkConfiguration}

theorem uses_iff {backend : BitVec 32} :
    config.uses backend = true ↔ config.usedBackends &&& backend ≠ 0 := by
  rw [BenchmarkConfiguration.uses, decide_eq_true_iff, gt_iff_lt]
  exact BitVec.pos_iff_ne_zero _

theorem uses_of_or {m backend : BitVec 32} (hb : backend ≠ 0)
    (h : config.usedBackends = m ||| backend) : config.uses backend = true := by
  rw [uses_iff, h, BitVec.and_or_distrib_right, BitVec.and_self]
  exact fun h0 => hb (BitVec.or_eq_zero_iff.mp h0).2

theorem uses_mono {backend added : BitVec 32} (hu : config.uses backend = true)
    (h : config'.usedBackends = config.usedBackends ||| added) : config'.uses backend = true := by
  rw [uses_iff] at hu ⊢
  rw [h, BitVec.and_or_distrib_right]
  exact fun h0 => hu (BitVec.or_eq_zero_iff.mp h0).1

theorem uses_or_of_disjoint {backend added : BitVec 32} (hd : added &&& backend = 0)
    (h : config'.usedBackends = config.usedBackends ||| added) :
    config'.uses backend = config.uses backend := by
  rw [Bool.eq_iff_iff, uses_iff, uses_iff, h, BitVec.and_or_distrib_right, hd]
  change (_ ||| 0#32) ≠ 0 ↔ _
  rw [BitVec.or_zero]

end Mask

theorem backend_ne_zero (getter : EventGetterFunc) : getter.backend ≠ 0 := by
  cases getter <;> decide

theorem backend_eq_papi {getter : EventGetterFunc} :
    getter.backend = backendPapi ↔ getter = .papi := by
  cases getter <;> decide

/-- Each entry of the table has a backend and two getters that belong together. -/
theorem knownEvents_coherent {hasPapi : Bool} {it : KnownEvent} (h : it ∈ knownEvents hasPapi) :
    it.backend = it.getter.backend ∧ it.getterRaw = it.getter.raw := by
  have hall : ∀ it ∈ knownEvents true,
      it.backend = it.getter.backend ∧ it.getterRaw = it.getter.raw := by
    intro it h
    simp only [knownEvents, ↓reduceIte, List.cons_append, List.nil_append, List.mem_cons,
      List.not_mem_nil, or_false] at h
    rcases h with rfl | rfl | rfl | rfl | rfl | rfl | rfl | rfl | rfl | rfl <;> decide
  cases hasPapi with
  | true => exact hall it h
  | false =>
    refine hall it ?_
    simp only [knownEvents, Bool.false_eq_true, ↓reduceIte, List.cons_append, List.nil_append,
      List.append_nil, List.mem_cons, List.not_mem_nil, or_false] at h ⊢
    tauto

theorem resolver_eq_none {hasPapi : Bool} {it : KnownEvent} (h : it ∈ knownEvents hasPapi) :
    it.resolver = none ↔ it.getter ≠ .papi := by
  have hall : ∀ it ∈ knownEvents true, it.resolver = none ↔ it.getter ≠ .papi := by
    intro it h
    simp only [knownEvents, ↓reduceIte, List.cons_append, List.nil_append, List.mem_cons,
      List.not_mem_nil, or_false] at h
    rcases h with rfl | rfl | rfl | rfl | rfl | rfl | rfl | rfl | rfl | rfl <;> decide
  cases hasPapi with
  | true => exact hall it h
  | false =>
    refine hall it ?_
    simp only [knownEvents, Bool.false_eq_true, ↓reduceIte, List.cons_append, List.nil_append,
      List.append_nil, List.mem_cons, List.not_mem_nil, or_false] at h ⊢
    tauto

theorem resolvePapiEvent_papiIndex (papi : PapiLibrary) (name : String) (info : EventInfo) :
    (resolvePapiEvent papi name info).2.papiIndex = info.papiIndex := by
  unfold resolvePapiEvent
  dsimp only
  split_ifs <;> rfl

theorem tryResolve_papiIndex (papi : PapiLibrary) (it : KnownEvent) (event : String)
    (info : EventInfo) : (it.tryResolve papi event info).2.papiIndex = info.papiIndex := by
  unfold KnownEvent.tryResolve
  split
  · rfl
  · next resolver _ =>
    split_ifs
    · cases resolver with
      | papiEvent => exact resolvePapiEvent_papiIndex papi event info
      | papiEventWithPrefix => exact resolvePapiEvent_papiIndex papi _ info
    · rfl

/-- PAPI tells the component of an event by its id. -/
def ComponentOfId (papi : PapiLibrary) (info : EventInfo) : Prop :=
  info.papiComponent = (papi.getEventInfo info.id).2.componentIndex

theorem resolvePapiEvent_true {papi : PapiLibrary} {name : String} {info info' : EventInfo}
    (h : resolvePapiEvent papi name info = (true, info')) : ComponentOfId papi info' := by
  unfold resolvePapiEvent at h
  dsimp only at h
  split_ifs at h
  · simp at h
  · simp at h
  · simp at h
  · simp only [Prod.mk.injEq, true_and] at h
    rw [← h]
    rfl

theorem tryResolve_component {papi : PapiLibrary} {it : KnownEvent} {event : String}
    {info info' : EventInfo} (hr : it.resolver ≠ none)
    (h : it.tryResolve papi event info = (true, info')) : ComponentOfId papi info' := by
  unfold KnownEvent.tryResolve at h
  cases hres : it.resolver with
  | none => exact absurd hres hr
  | some resolver =>
    simp only [hres] at h
    split_ifs at h with hpre
    · cases resolver with
      | papiEvent => exact resolvePapiEvent_true h
      | papiEventWithPrefix => exact resolvePapiEvent_true h
    · simp at h

/-- An accepted event is described by one entry of the table. -/
theorem resolveLoop_ok {papi : PapiLibrary} {strdup : Bool} {event : String}
    {info info' : EventInfo} {table : List KnownEvent}
    (h : resolveLoop papi strdup event info table = (true, info')) :
    ∃ it ∈ table, info'.backend = it.backend ∧ info'.opGetRaw = some it.getterRaw ∧
      info'.opGet = some it.getter ∧ info'.name = (if strdup then some event else none) ∧
      info'.papiIndex = info.papiIndex ∧ (it.resolver ≠ none → ComponentOfId papi info') := by
  induction table generalizing info with
  | nil => simp [resolveLoop] at h
  | cons it table ih =>
    rw [resolveLoop] at h
    have hindex := tryResolve_papiIndex papi it event info
    cases htry : it.tryResolve papi event info with
    | mk ok info₁ =>
      rw [htry] at h hindex
      cases ok with
      | true =>
        simp only [Prod.mk.injEq, true_and] at h
        subst h
        exact ⟨it, List.mem_cons_self, rfl, rfl, rfl, rfl, hindex,
          fun hne => (tryResolve_component hne htry : ComponentOfId papi info₁)⟩
      | false =>
        obtain ⟨it', hmem, hb, hr, hg, hn, hi, hc⟩ := ih h
        exact ⟨it', List.mem_cons_of_mem it hmem, hb, hr, hg, hn, hi.trans hindex, hc⟩

theorem ubenchEventResolve_ok {hasPapi : Bool} {papi : PapiLibrary} {strdup : Bool}
    {event : String} {info info' : EventInfo}
    (h : ubenchEventResolve hasPapi papi strdup event info = (true, info')) :
    ∃ getter : EventGetterFunc, info'.backend = getter.backend ∧ info'.opGet = some getter ∧
      info'.opGetRaw = some getter.raw ∧ info'.name = (if strdup then some event else none) ∧
      info'.papiIndex = info.papiIndex := by
  obtain ⟨it, hmem, hb, hr, hg, hn, hi, -⟩ := resolveLoop_ok h
  obtain ⟨hb', hr'⟩ := knownEvents_coherent hmem
  exact ⟨it.getter, hb.trans hb', hg, hr.trans (congrArg some hr'), hn, hi⟩

theorem ubenchEventResolve_no_papi {papi : PapiLibrary} {strdup : Bool} {event : String}
    {info info' : EventInfo}
    (h : ubenchEventResolve false papi strdup event info = (true, info')) :
    info'.backend ≠ backendPapi := by
  obtain ⟨it, hmem, hb, -⟩ := resolveLoop_ok h
  rw [hb]
  simp only [knownEvents, Bool.false_eq_true, ↓reduceIte, List.cons_append, List.nil_append,
    List.append_nil, List.mem_cons, List.not_mem_nil, or_false] at hmem
  rcases hmem with rfl | rfl | rfl | rfl | rfl | rfl | rfl | rfl <;> decide

/-- The memory for the name of an event decides about nothing but that name. -/
theorem resolveLoop_strdup (papi : PapiLibrary) (strdup : Bool) (event : String)
    (info : EventInfo) (table : List KnownEvent) :
    resolveLoop papi strdup event info table =
      match resolveLoop papi true event info table with
      | (false, info) => (false, info)
      | (true, info) => (true, { info with name := if strdup then some event else none }) := by
  induction table generalizing info with
  | nil => rfl
  | cons it table ih =>
    simp only [resolveLoop]
    cases it.tryResolve papi event info with
    | mk ok info₁ =>
      cases ok with
      | false => exact ih info₁
      | true => rfl

section Answers

variable (hasPapi : Bool) (papi : PapiLibrary)

def recognized (name : String) : Bool :=
  (ubenchEventResolve hasPapi papi true name EventInfo.calloc).1

def eventOf (name : String) : EventInfo :=
  (ubenchEventResolve hasPapi papi true name EventInfo.calloc).2

/-- The name stands for an event of PAPI. -/
def isPapiName (name : String) : Bool :=
  (eventOf hasPapi papi name).backend == backendPapi

variable {hasPapi papi}

theorem ubenchEventResolve_recognized {name : String} (h : recognized hasPapi papi name = true)
    (strdup : Bool) :
    ubenchEventResolve hasPapi papi strdup name EventInfo.calloc =
      (true, { eventOf hasPapi papi name with name := if strdup then some name else none }) := by
  rw [ubenchEventResolve, resolveLoop_strdup]
  unfold recognized ubenchEventResolve at h
  unfold eventOf ubenchEventResolve
  cases hloop : resolveLoop papi true name EventInfo.calloc (knownEvents hasPapi) with
  | mk ok info =>
    rw [hloop] at h
    dsimp only at h
    rw [h]

theorem ubenchEventResolve_unrecognized {name : String}
    (h : recognized hasPapi papi name = false) (strdup : Bool) :
    (ubenchEventResolve hasPapi papi strdup name EventInfo.calloc).1 = false := by
  rw [ubenchEventResolve, resolveLoop_strdup]
  unfold recognized ubenchEventResolve at h
  cases hloop : resolveLoop papi true name EventInfo.calloc (knownEvents hasPapi) with
  | mk ok info =>
    rw [hloop] at h
    dsimp only at h
    rw [h]

/-- A recognized event has one of the getters, and its backend. -/
theorem eventOf_spec {name : String} (h : recognized hasPapi papi name = true) :
    ∃ getter : EventGetterFunc, (eventOf hasPapi papi name).backend = getter.backend ∧
      (eventOf hasPapi papi name).opGet = some getter ∧
      (eventOf hasPapi papi name).opGetRaw = some getter.raw ∧
      (eventOf hasPapi papi name).papiIndex = 0 := by
  obtain ⟨getter, hb, hg, hr, -, hi⟩ :=
    ubenchEventResolve_ok (ubenchEventResolve_recognized h true)
  exact ⟨getter, hb, hg, hr, hi⟩

theorem eventOf_component {name : String} (h : recognized hasPapi papi name = true)
    (hp : isPapiName hasPapi papi name = true) :
    ComponentOfId papi (eventOf hasPapi papi name) := by
  obtain ⟨it, hmem, hb, -, -, -, -, hc⟩ := resolveLoop_ok (ubenchEventResolve_recognized h true)
  refine hc fun hnone => (resolver_eq_none hmem).mp hnone ?_
  rw [← backend_eq_papi, ← (knownEvents_coherent hmem).1, ← hb]
  exact eq_of_beq hp

theorem isPapiName_no_papi {name : String} (h : recognized false papi name = true) :
    isPapiName false papi name = false := by
  have hb := ubenchEventResolve_no_papi (ubenchEventResolve_recognized h true)
  rw [isPapiName, beq_eq_false_iff_ne]
  exact hb

end Answers

end UbenchAgent
