import UbenchAgent.Listing

/-!
# The grammar of event names

`ubench_event_resolve` goes through one table in which names, a prefix and the empty prefix
stand next to each other, and goes on when PAPI declines.  What it accepts is a grammar of
three cases: a name of the table in any letter case, a name that PAPI accepts behind the
prefix `PAPI:`, and a name that PAPI accepts.  The first case that applies describes the event.
-/

namespace UbenchAgent

/-- The entry is not one of PAPI, and the name is its name in some letter case. -/
def KnownEvent.Names (it : KnownEvent) (event : String) : Prop :=
  it ∈ knownEvents true ∧ it.backend ≠ backendPapi ∧ ubenchStrIsIcaseEqual event it.name = true

def Named (event : String) : Prop := ∃ it : KnownEvent, it.Names event

def Prefixed (papi : PapiLibrary) (event : String) : Prop :=
  ubenchStrStartsWithIcase event "PAPI:" = true ∧
    papi.Accepts (String.ofList (event.toList.drop 5))

def KnownEvent.stored (it : KnownEvent) (strdup : Bool) (event : String) (info : EventInfo) :
    EventInfo :=
  { info with
    backend := it.backend
    opGetRaw := some it.getterRaw
    opGet := some it.getter
    name := if strdup then some event else none }

def PapiLibrary.described (papi : PapiLibrary) (name : String) (info : EventInfo) : EventInfo :=
  { info with
    id := (papi.eventNameToCode name).2
    papiComponent := (papi.getEventInfo (papi.eventNameToCode name).2).2.componentIndex }

/-- The entry for names with the prefix. -/
def papiEntry : KnownEvent :=
  { name := "PAPI:", obsolete := false, resolver := some .papiEventWithPrefix,
    lister := some .papiEvents, backend := backendPapi, getterRaw := .papi, getter := .papi }

/-- The entry for names without the prefix. -/
def legacyPapiEntry : KnownEvent :=
  { name := "", obsolete := true, resolver := some .papiEvent, lister := none,
    backend := backendPapi, getterRaw := .papi, getter := .papi }

/-- What resolution is to answer: it accepts the names of the grammar, the first case that
applies describes the event, and a name that is not accepted changes nothing.  `strdup` tells
whether there is memory for the copy of the name. -/
structure FollowsGrammar (papi : PapiLibrary) (strdup : Bool) (event : String) (info : EventInfo)
    (result : Bool × EventInfo) : Prop where
  accepts_iff : result.1 = true ↔ Named event ∨ Prefixed papi event ∨ papi.Accepts event
  named : ∀ it : KnownEvent, it.Names event → result = (true, it.stored strdup event info)
  named_unique : ∀ it it' : KnownEvent, it.Names event → it'.Names event → it = it'
  prefixed : ¬ Named event → Prefixed papi event → result = (true,
    papiEntry.stored strdup event (papi.described (String.ofList (event.toList.drop 5)) info))
  bare : ¬ Named event → ¬ Prefixed papi event → papi.Accepts event →
    result = (true, legacyPapiEntry.stored strdup event (papi.described event info))
  name : result.1 = true → result.2.name = if strdup then some event else none
  rejected : result.1 = false → result.2 = info

section Table

variable {event : String} {it : KnownEvent}

theorem resolver_of_backend :
    ∀ it ∈ knownEvents true, it.backend ≠ backendPapi ↔ it.resolver = none := by
  decide

/-- No entry decides about the name of a later one that is not of PAPI. -/
theorem knownEvents_pairwise : (knownEvents true).Pairwise fun earlier later =>
    later.backend ≠ backendPapi → earlier.selects later.name = false := by
  decide

theorem KnownEvent.Names.find (h : it.Names event) :
    (knownEvents true).find? (fun it => it.selects event) = some it := by
  obtain ⟨hit, hbackend, hname⟩ := h
  have hresolver := (resolver_of_backend it hit).mp hbackend
  obtain ⟨before, after, htable⟩ := List.append_of_mem hit
  have hpairwise := knownEvents_pairwise
  rw [htable, List.pairwise_append] at hpairwise
  rw [List.find?_eq_some_iff_append]
  refine ⟨?_, before, after, htable, fun earlier hearlier => ?_⟩
  · rw [KnownEvent.selects, hresolver]
    exact hname
  · rw [selects_congr (beq_iff_eq.mp hname) earlier,
      hpairwise.2.2 earlier hearlier it List.mem_cons_self hbackend]
    rfl

theorem KnownEvent.Names.unique {it' : KnownEvent} (h : it.Names event) (h' : it'.Names event) :
    it = it' :=
  Option.some.inj (h.find.symm.trans h'.find)

theorem KnownEvent.Names.resolve (h : it.Names event) (papi : PapiLibrary) (strdup : Bool)
    (info : EventInfo) :
    ubenchEventResolve true papi strdup event info = (true, it.stored strdup event info) :=
  resolveLoop_selects h.find ((resolver_of_backend it h.1).mp h.2.1)

end Table

section Asked

variable {papi : PapiLibrary} {strdup : Bool} {event : String} {info : EventInfo}

theorem resolvePapiEvent_accepted {name : String} (h : papi.Accepts name) :
    resolvePapiEvent papi name info = (true, papi.described name info) := by
  obtain ⟨hknows, hinfo, hcount⟩ := h
  unfold PapiLibrary.Knows at hknows
  unfold resolvePapiEvent
  dsimp only
  rw [if_neg (not_not.mpr hknows), if_neg (not_not.mpr hinfo), if_neg hcount]
  rfl

theorem resolvePapiEvent_declined {name : String} (h : ¬ papi.Accepts name) :
    resolvePapiEvent papi name info = (false, info) := by
  unfold PapiLibrary.Accepts PapiLibrary.Knows PapiLibrary.Available at h
  unfold resolvePapiEvent
  dsimp only
  split_ifs with hknows hinfo hcount
  · rfl
  · rfl
  · rfl
  · exact absurd ⟨not_not.mp hknows, not_not.mp hinfo, hcount⟩ h

/-- Entries that compare the whole name and find another one can be left out. -/
theorem resolveLoop_asked {table : List KnownEvent}
    (h : ∀ it ∈ table, it.resolver = none → it.selects event = false) :
    resolveLoop papi strdup event info table =
      resolveLoop papi strdup event info (table.filter fun it => it.resolver.isSome) := by
  induction table generalizing info with
  | nil => rfl
  | cons it table ih =>
    obtain ⟨hit, htable⟩ := List.forall_mem_cons.mp h
    cases hresolver : it.resolver with
    | none =>
      have hselects := hit hresolver
      rw [KnownEvent.selects, hresolver] at hselects
      have htry : it.tryResolve papi event info = (false, info) := by
        rw [KnownEvent.tryResolve, hresolver]
        exact Prod.ext hselects rfl
      rw [List.filter_cons_of_neg (by rw [hresolver]; exact Bool.false_ne_true), resolveLoop, htry]
      exact ih htable
    | some resolver =>
      rw [List.filter_cons_of_pos (by rw [hresolver]; rfl), resolveLoop, resolveLoop]
      cases it.tryResolve papi event info with
      | mk ok info' =>
        cases ok with
        | true => rfl
        | false => exact ih htable

theorem resolve_unnamed (h : ¬ Named event) :
    ubenchEventResolve true papi strdup event info =
      resolveLoop papi strdup event info [papiEntry, legacyPapiEntry] := by
  have hunnamed : ∀ it ∈ knownEvents true, it.resolver = none → it.selects event = false := by
    intro it hit hnone
    rw [KnownEvent.selects, hnone, ← Bool.not_eq_true]
    intro hname
    exact h ⟨it, hit, (resolver_of_backend it hit).mpr hnone, hname⟩
  exact resolveLoop_asked hunnamed

theorem tryResolve_papiEntry_accepted (h : Prefixed papi event) :
    papiEntry.tryResolve papi event info =
      (true, papi.described (String.ofList (event.toList.drop 5)) info) :=
  (if_pos h.1).trans (resolvePapiEvent_accepted h.2)

theorem tryResolve_papiEntry_declined (h : ¬ Prefixed papi event) :
    papiEntry.tryResolve papi event info = (false, info) := by
  by_cases hstarts : ubenchStrStartsWithIcase event papiEntry.name = true
  · exact (if_pos hstarts).trans (resolvePapiEvent_declined fun hrest => h ⟨hstarts, hrest⟩)
  · exact if_neg hstarts

theorem tryResolve_legacyPapiEntry :
    legacyPapiEntry.tryResolve papi event info = resolvePapiEvent papi event info := by
  have hstarts : ubenchStrStartsWithIcase event legacyPapiEntry.name = true := rfl
  have htry : legacyPapiEntry.tryResolve papi event info =
      if ubenchStrStartsWithIcase event legacyPapiEntry.name then resolvePapiEvent papi event info
      else (false, info) := rfl
  rw [htry, if_pos hstarts]

theorem resolve_prefixed (h : ¬ Named event) (hprefixed : Prefixed papi event) :
    ubenchEventResolve true papi strdup event info = (true, papiEntry.stored strdup event
      (papi.described (String.ofList (event.toList.drop 5)) info)) := by
  rw [resolve_unnamed h, resolveLoop, tryResolve_papiEntry_accepted hprefixed]
  rfl

theorem resolve_bare (h : ¬ Named event) (hprefixed : ¬ Prefixed papi event)
    (haccepts : papi.Accepts event) :
    ubenchEventResolve true papi strdup event info =
      (true, legacyPapiEntry.stored strdup event (papi.described event info)) := by
  rw [resolve_unnamed h, resolveLoop, tryResolve_papiEntry_declined hprefixed]
  dsimp only
  rw [resolveLoop, tryResolve_legacyPapiEntry, resolvePapiEvent_accepted haccepts]
  rfl

theorem resolve_rejected (h : ¬ Named event) (hprefixed : ¬ Prefixed papi event)
    (haccepts : ¬ papi.Accepts event) :
    ubenchEventResolve true papi strdup event info = (false, info) := by
  rw [resolve_unnamed h, resolveLoop, tryResolve_papiEntry_declined hprefixed]
  dsimp only
  rw [resolveLoop, tryResolve_legacyPapiEntry, resolvePapiEvent_declined haccepts]
  rfl

/-- Exactly one of the four ends of resolution. -/
theorem resolve_cases (papi : PapiLibrary) (strdup : Bool) (event : String) (info : EventInfo) :
    (∃ it : KnownEvent, it.Names event ∧
        ubenchEventResolve true papi strdup event info = (true, it.stored strdup event info)) ∨
      (¬ Named event ∧ Prefixed papi event ∧
        ubenchEventResolve true papi strdup event info = (true, papiEntry.stored strdup event
          (papi.described (String.ofList (event.toList.drop 5)) info))) ∨
      (¬ Named event ∧ ¬ Prefixed papi event ∧ papi.Accepts event ∧
        ubenchEventResolve true papi strdup event info =
          (true, legacyPapiEntry.stored strdup event (papi.described event info))) ∨
      (¬ Named event ∧ ¬ Prefixed papi event ∧ ¬ papi.Accepts event ∧
        ubenchEventResolve true papi strdup event info = (false, info)) := by
  by_cases hnamed : Named event
  · obtain ⟨it, hit⟩ := hnamed
    exact .inl ⟨it, hit, hit.resolve papi strdup info⟩
  · by_cases hprefixed : Prefixed papi event
    · exact .inr (.inl ⟨hnamed, hprefixed, resolve_prefixed hnamed hprefixed⟩)
    · by_cases haccepts : papi.Accepts event
      · exact .inr (.inr (.inl ⟨hnamed, hprefixed, haccepts,
          resolve_bare hnamed hprefixed haccepts⟩))
      · exact .inr (.inr (.inr ⟨hnamed, hprefixed, haccepts,
          resolve_rejected hnamed hprefixed haccepts⟩))

end Asked

/-- Resolution follows the grammar, whatever PAPI answers. -/
theorem ubenchEventResolve_followsGrammar (papi : PapiLibrary) (strdup : Bool) (event : String)
    (info : EventInfo) :
    FollowsGrammar papi strdup event info (ubenchEventResolve true papi strdup event info) := by
  refine ⟨?_, fun it hit => hit.resolve papi strdup info, fun it it' hit hit' => hit.unique hit',
    resolve_prefixed, resolve_bare, ?_, ?_⟩
  · rcases resolve_cases papi strdup event info with ⟨it, hit, heq⟩ | ⟨-, hprefixed, heq⟩ |
      ⟨-, -, haccepts, heq⟩ | ⟨hnamed, hprefixed, haccepts, heq⟩
    · rw [heq]
      exact iff_of_true rfl (.inl ⟨it, hit⟩)
    · rw [heq]
      exact iff_of_true rfl (.inr (.inl hprefixed))
    · rw [heq]
      exact iff_of_true rfl (.inr (.inr haccepts))
    · rw [heq]
      exact iff_of_false Bool.false_ne_true (not_or.mpr ⟨hnamed, not_or.mpr ⟨hprefixed, haccepts⟩⟩)
  · intro hok
    obtain ⟨-, -, -, -, -, hname, -⟩ := resolveLoop_ok (Prod.ext hok rfl)
    exact hname
  · intro hrejected
    rcases resolve_cases papi strdup event info with ⟨it, hit, heq⟩ | ⟨-, hprefixed, heq⟩ |
      ⟨-, -, haccepts, heq⟩ | ⟨-, -, -, heq⟩
    · rw [heq] at hrejected
      cases hrejected
    · rw [heq] at hrejected
      cases hrejected
    · rw [heq] at hrejected
      cases hrejected
    · rw [heq]

end UbenchAgent
