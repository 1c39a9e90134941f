import UbenchAgent.Loop
import UbenchAgent.Lib.Visitor

/-!
# Listed and supported events

`ubench_event_iterate` lists the names of the table and, with the prefix `PAPI:`, the
events that PAPI enumerates; `ubench_event_resolve` looks a name up.  They ask PAPI
different questions, so the two agree exactly if its answers do.
-/

namespace UbenchAgent

open Visitor

/-- The answers of PAPI to a listing.  An enumeration is the list of the codes that its
calls deliver before one fails; there is one of native codes for each component. -/
structure PapiUniverse extends PapiLibrary where
  eventCodeToName : Int32 → Int32 × String
  presetCodes : List Int32
  nativeCodes : List (List Int32)
  name_undone : ∀ code name code', eventCodeToName code = (papiOk, name) →
    eventNameToCode name = (papiOk, code') → code' = code

section Loops

variable {σ : Type*}

/-- The `for` loop over an enumeration, until the callback terminates it.  The body leaves
its own return codes in the control variable `rc`, but the increment, which a `continue`
reaches too, overwrites it before it is tested. -/
def enumLoop (body : Int32 → σ → Int32 × Bool × σ) : List Int32 → σ → Bool × σ
  | [], s => (false, s)
  | code :: codes, s =>
    match body code s with
    | (_, true, s) => (true, s)
    | (_, false, s) => enumLoop body codes s

variable (u : PapiUniverse) (callback : String → σ → Bool × σ)

def presetBody (code : Int32) (arg : σ) : Int32 × Bool × σ :=
  let (rc, name) := u.eventCodeToName code
  if rc ≠ papiOk then (rc, false, arg)
  else
    let (rc, eventInfo) := u.getEventInfo code
    if rc ≠ papiOk then (rc, false, arg)
    else if u.isPreset code ∧ eventInfo.count = 0 then (rc, false, arg)
    else (rc, callback ("PAPI:" ++ name) arg)

def nativeBody (code : Int32) (arg : σ) : Int32 × Bool × σ :=
  let (rc, name) := u.eventCodeToName code
  if rc ≠ papiOk then (rc, false, arg)
  else (rc, callback ("PAPI:" ++ name) arg)

def componentLoop : List (List Int32) → σ → Bool × σ
  | [], arg => (false, arg)
  | codes :: rest, arg =>
    match enumLoop (nativeBody u callback) codes arg with
    | (true, arg) => (true, arg)
    | (false, arg) => componentLoop rest arg

def listPapiEvents (arg : σ) : Bool × σ :=
  match enumLoop (presetBody u callback) u.presetCodes arg with
  | (true, arg) => (true, arg)
  | (false, arg) => componentLoop u callback u.nativeCodes arg

def EventListerFunc.call : EventListerFunc → σ → Bool × σ
  | .papiEvents => listPapiEvents u callback

def iterateLoop : List KnownEvent → σ → σ
  | [], arg => arg
  | it :: rest, arg =>
    if it.obsolete then iterateLoop rest arg
    else
      match it.lister with
      | some lister =>
        match lister.call u callback arg with
        | (true, arg) => arg
        | (false, arg) => iterateLoop rest arg
      | none =>
        if it.resolver = none then
          match callback it.name arg with
          | (true, arg) => arg
          | (false, arg) => iterateLoop rest arg
        else iterateLoop rest arg

end Loops

def ubenchEventIterate {σ : Type*} (hasPapi : Bool) (u : PapiUniverse)
    (iteratorCallback : Option (String → σ → Bool × σ)) (arg : σ) : σ :=
  match iteratorCallback with
  | none => arg
  | some callback => iterateLoop u callback (knownEvents hasPapi) arg

/-- `adding_supported_events_callback`, on the list that it adds to. -/
def addingSupportedEventsCallback (name : String) (arg : List String) : Bool × List String :=
  (false, arg ++ [name])

def getSupportedEvents (hasPapi : Bool) (u : PapiUniverse) : List String :=
  ubenchEventIterate hasPapi u (some addingSupportedEventsCallback) []

def PapiUniverse.nameOf (u : PapiUniverse) (code : Int32) : Option String :=
  if (u.eventCodeToName code).1 = papiOk then some (u.eventCodeToName code).2 else none

def PapiLibrary.Available (papi : PapiLibrary) (code : Int32) : Prop :=
  (papi.getEventInfo code).1 = papiOk ∧
    ¬ (papi.isPreset code = true ∧ (papi.getEventInfo code).2.count = 0)

instance (papi : PapiLibrary) (code : Int32) : Decidable (papi.Available code) :=
  inferInstanceAs (Decidable (_ ∧ ¬ _))

def PapiUniverse.presetName (u : PapiUniverse) (code : Int32) : Option String :=
  if u.Available code then u.nameOf code else none

def PapiUniverse.papiNames (u : PapiUniverse) : List String :=
  u.presetCodes.flatMap (fun code => (u.presetName code).toList) ++
    u.nativeCodes.flatMap fun codes => codes.flatMap fun code => (u.nameOf code).toList

/-- What an entry of the table contributes. -/
def KnownEvent.listed (u : PapiUniverse) (it : KnownEvent) : List String :=
  if it.obsolete then []
  else
    match it.lister with
    | some .papiEvents => u.papiNames.map ("PAPI:" ++ ·)
    | none => if it.resolver = none then [it.name] else []

section Names

variable {σ : Type*} (u : PapiUniverse) (callback : String → σ → Bool × σ)

theorem enumLoop_eq_visit (body : Int32 → σ → Int32 × Bool × σ) (codes : List Int32) (s : σ) :
    enumLoop body codes s = visit (fun code s => (body code s).2) codes s := by
  induction codes generalizing s with
  | nil => rfl
  | cons code codes ih =>
    rw [enumLoop, visit_cons]
    rcases body code s with ⟨rc, stop, s'⟩
    cases stop with
    | true => rfl
    | false => exact ih s'

theorem nativeBody_eq (code : Int32) (s : σ) :
    (nativeBody u callback code s).2 =
      visit callback ((u.nameOf code).toList.map ("PAPI:" ++ ·)) s := by
  unfold nativeBody PapiUniverse.nameOf
  dsimp only
  by_cases hname : (u.eventCodeToName code).1 = papiOk
  · rw [if_neg (not_not.mpr hname), if_pos hname]
    exact (visit_singleton callback _ s).symm
  · rw [if_pos hname, if_neg hname]
    rfl

theorem presetBody_eq (code : Int32) (s : σ) :
    (presetBody u callback code s).2 =
      visit callback ((u.presetName code).toList.map ("PAPI:" ++ ·)) s := by
  unfold presetBody PapiUniverse.presetName PapiUniverse.nameOf
  dsimp only
  by_cases hname : (u.eventCodeToName code).1 = papiOk
  · rw [if_neg (not_not.mpr hname), if_pos hname]
    by_cases hinfo : (u.getEventInfo code).1 = papiOk
    · rw [if_neg (not_not.mpr hinfo)]
      by_cases hcount : u.isPreset code = true ∧ (u.getEventInfo code).2.count = 0
      · rw [if_pos hcount, if_neg fun h => h.2 hcount]
        rfl
      · rw [if_neg hcount, if_pos ⟨hinfo, hcount⟩]
        exact (visit_singleton callback _ s).symm
    · rw [if_pos hinfo, if_neg fun h => hinfo h.1]
      rfl
  · rw [if_pos hname, if_neg hname, ite_self]
    rfl

theorem componentLoop_eq_visit (components : List (List Int32)) (s : σ) :
    componentLoop u callback components s =
      visit (enumLoop (nativeBody u callback)) components s := by
  induction components generalizing s with
  | nil => rfl
  | cons codes components ih =>
    rw [componentLoop, visit_cons]
    rcases enumLoop (nativeBody u callback) codes s with ⟨stop, s'⟩
    cases stop with
    | true => rfl
    | false => exact ih s'

theorem listPapiEvents_eq_visit (s : σ) :
    listPapiEvents u callback s = visit callback (u.papiNames.map ("PAPI:" ++ ·)) s := by
  have hpresets : enumLoop (presetBody u callback) u.presetCodes s =
      visit callback (u.presetCodes.flatMap fun code =>
        (u.presetName code).toList.map ("PAPI:" ++ ·)) s := by
    rw [enumLoop_eq_visit]
    exact visit_flatMap callback (presetBody_eq u callback) _ s
  have hnatives : ∀ s, componentLoop u callback u.nativeCodes s =
      visit callback (u.nativeCodes.flatMap fun codes => codes.flatMap fun code =>
        (u.nameOf code).toList.map ("PAPI:" ++ ·)) s := by
    intro s
    rw [componentLoop_eq_visit]
    refine visit_flatMap callback (fun codes s => ?_) _ s
    rw [enumLoop_eq_visit]
    exact visit_flatMap callback (nativeBody_eq u callback) _ s
  rw [PapiUniverse.papiNames, List.map_append, List.map_flatMap, List.map_flatMap, visit_append]
  simp only [List.map_flatMap]
  rw [← hpresets, ← funext hnatives]
  rfl

/-- The loop over the table is one visit of the names that its entries contribute. -/
theorem iterateLoop_eq_visit (table : List KnownEvent) (s : σ) :
    iterateLoop u callback table s =
      (visit callback (table.flatMap (KnownEvent.listed u)) s).2 := by
  induction table generalizing s with
  | nil => rfl
  | cons it table ih =>
    rw [iterateLoop, List.flatMap_cons, visit_append]
    have hentry : ∀ first : Bool × σ,
        (match first with
          | (true, arg) => arg
          | (false, arg) => iterateLoop u callback table arg) =
        (andThen first (visit callback (table.flatMap (KnownEvent.listed u)))).2 := by
      rintro ⟨stop, s'⟩
      cases stop with
      | true => rfl
      | false => exact ih s'
    unfold KnownEvent.listed
    by_cases hobsolete : it.obsolete = true
    · rw [if_pos hobsolete, if_pos hobsolete]
      exact ih s
    · rw [if_neg hobsolete, if_neg hobsolete]
      cases it.lister with
      | some lister =>
        cases lister
        rw [← listPapiEvents_eq_visit]
        exact hentry _
      | none =>
        dsimp only
        by_cases hresolver : it.resolver = none
        · rw [if_pos hresolver, if_pos hresolver, visit_singleton]
          exact hentry _
        · rw [if_neg hresolver, if_neg hresolver]
          exact ih s

end Names

def listedNames (hasPapi : Bool) (u : PapiUniverse) : List String :=
  (knownEvents hasPapi).flatMap (KnownEvent.listed u)

/-- Whatever the callback does, it is given the listed names until it stops the iteration. -/
theorem ubenchEventIterate_eq {σ : Type*} (hasPapi : Bool) (u : PapiUniverse)
    (callback : String → σ → Bool × σ) (arg : σ) :
    ubenchEventIterate hasPapi u (some callback) arg =
      (visit callback (listedNames hasPapi u) arg).2 :=
  iterateLoop_eq_visit u callback _ arg

def PapiLibrary.Knows (papi : PapiLibrary) (name : String) : Prop :=
  (papi.eventNameToCode name).1 = papiOk

def PapiLibrary.Accepts (papi : PapiLibrary) (name : String) : Prop :=
  papi.Knows name ∧ papi.Available (papi.eventNameToCode name).2

def ResolveEventFunc.asked : ResolveEventFunc → String → String
  | .papiEvent, event => event
  | .papiEventWithPrefix, event => String.ofList (event.toList.drop 5)

section Resolution

variable (papi : PapiLibrary)

theorem resolvePapiEvent_fst (name : String) (info : EventInfo) :
    (resolvePapiEvent papi name info).1 = true ↔ papi.Accepts name := by
  unfold resolvePapiEvent PapiLibrary.Accepts PapiLibrary.Knows PapiLibrary.Available
  dsimp only
  split_ifs with hknows hinfo hcount
  · simp [hknows]
  · simp [hinfo]
  · simp [hcount]
  · exact iff_of_true rfl ⟨not_not.mp hknows, not_not.mp hinfo, hcount⟩

/-- An entry accepts the names that it decides about and that PAPI accepts if it is asked. -/
theorem tryResolve_fst (it : KnownEvent) (event : String) (info : EventInfo) :
    (it.tryResolve papi event info).1 = true ↔ it.selects event = true ∧
      ∀ resolver, it.resolver = some resolver → papi.Accepts (resolver.asked event) := by
  unfold KnownEvent.tryResolve KnownEvent.selects
  cases it.resolver with
  | none => simp
  | some resolver =>
    dsimp only
    split_ifs with hselects
    · simp only [hselects, true_and, Option.some.injEq, forall_eq']
      cases resolver with
      | papiEvent => exact resolvePapiEvent_fst papi event info
      | papiEventWithPrefix => exact resolvePapiEvent_fst papi _ info
    · simp [hselects]

theorem resolveLoop_fst (strdup : Bool) (event : String) (info : EventInfo)
    (table : List KnownEvent) :
    (resolveLoop papi strdup event info table).1 = true ↔
      ∃ it ∈ table, it.selects event = true ∧
        ∀ resolver, it.resolver = some resolver → papi.Accepts (resolver.asked event) := by
  induction table generalizing info with
  | nil => simp [resolveLoop]
  | cons it table ih =>
    have hfirst := tryResolve_fst papi it event info
    rw [resolveLoop, List.exists_mem_cons_iff]
    cases htry : it.tryResolve papi event info with
    | mk ok info' =>
      rw [htry] at hfirst
      cases ok with
      | true => exact iff_of_true rfl (.inl (hfirst.mp rfl))
      | false =>
        have hnot := mt hfirst.mpr Bool.false_ne_true
        exact (ih info').trans (or_iff_right hnot).symm

theorem toList_papi (name : String) :
    ("PAPI:" ++ name).toList = ['P', 'A', 'P', 'I', ':'] ++ name.toList :=
  String.toList_append

theorem asked_papi (name : String) :
    ResolveEventFunc.papiEventWithPrefix.asked ("PAPI:" ++ name) = name := by
  rw [ResolveEventFunc.asked, toList_papi]
  exact String.ofList_toList

theorem selects_papi_compared {it : KnownEvent} (hit : it ∈ knownEvents true)
    (hnone : it.resolver = none) (name : String) : it.selects ("PAPI:" ++ name) = false := by
  have hhead : ∀ it ∈ knownEvents true, it.resolver = none →
      (it.name.toList.map Char.toLower).head? ≠ some 'p' := by decide
  rw [KnownEvent.selects, hnone]
  dsimp only
  rw [ubenchStrIsIcaseEqual, beq_eq_false_iff_ne]
  intro hsame
  apply hhead it hit hnone
  rw [← hsame, toList_papi]
  rfl

theorem selects_papi_asked {it : KnownEvent} {resolver : ResolveEventFunc}
    (hsome : it.resolver = some resolver) (hname : it.name = "" ∨ it.name = "PAPI:")
    (name : String) : it.selects ("PAPI:" ++ name) = true := by
  rw [KnownEvent.selects, hsome]
  dsimp only
  rw [ubenchStrStartsWithIcase, toList_papi]
  rcases hname with hname | hname <;> rw [hname] <;> rfl

theorem recognized_papi (name : String) :
    recognized true papi ("PAPI:" ++ name) = true ↔
      papi.Accepts name ∨ papi.Accepts ("PAPI:" ++ name) := by
  rw [recognized, ubenchEventResolve, resolveLoop_fst]
  constructor
  · rintro ⟨it, hit, hselects, haccepts⟩
    cases hresolver : it.resolver with
    | none =>
      rw [selects_papi_compared hit hresolver] at hselects
      cases hselects
    | some resolver =>
      have haccepted := haccepts resolver hresolver
      cases resolver with
      | papiEvent => exact .inr haccepted
      | papiEventWithPrefix =>
        rw [asked_papi] at haccepted
        exact .inl haccepted
  · have hentry : ∃ it ∈ knownEvents true, it.resolver = some .papiEventWithPrefix ∧
        it.name = "PAPI:" := by decide
    have hlegacy : ∃ it ∈ knownEvents true, it.resolver = some .papiEvent ∧ it.name = "" := by
      decide
    rintro (haccepted | haccepted)
    · obtain ⟨it, hit, hresolver, hname⟩ := hentry
      refine ⟨it, hit, selects_papi_asked hresolver (.inr hname) name, fun resolver hsome => ?_⟩
      obtain rfl : .papiEventWithPrefix = resolver := Option.some.inj (hresolver.symm.trans hsome)
      rw [asked_papi]
      exact haccepted
    · obtain ⟨it, hit, hresolver, hname⟩ := hlegacy
      refine ⟨it, hit, selects_papi_asked hresolver (.inl hname) name, fun resolver hsome => ?_⟩
      obtain rfl : .papiEvent = resolver := Option.some.inj (hresolver.symm.trans hsome)
      exact haccepted

end Resolution

def tableNames : List String :=
  ["JVM:compilations", "SYS:forced-context-switches", "SYS:thread-time", "SYS:thread-time-rusage",
    "SYS:wallclock-time"]

/-- The names that were passed are the supported ones among those of the table and of the
events that PAPI enumerates. -/
structure ListsSupported (u : PapiUniverse) (passed : List String) : Prop where
  supported : ∀ name ∈ passed, recognized true u.toPapiLibrary name = true
  table : ∀ it ∈ knownEvents true, it.obsolete = false → it.backend ≠ backendPapi →
    it.name ∈ passed
  enumerated : ∀ code ∈ u.presetCodes ++ u.nativeCodes.flatten, ∀ name,
    u.nameOf code = some name → recognized true u.toPapiLibrary ("PAPI:" ++ name) = true →
      "PAPI:" ++ name ∈ passed

/-- PAPI finds the presets that have counters by their names, and it finds the native events
by their names and has information on them.  Names that are known with the prefix of the agent
are found anyway, but no event that lacks counters has such a name alone. -/
structure PapiUniverse.FindsListed (u : PapiUniverse) : Prop where
  presets : ∀ code ∈ u.presetCodes, ∀ name, u.nameOf code = some name → u.Available code →
    u.Knows name ∨ u.Accepts ("PAPI:" ++ name)
  natives : ∀ code ∈ u.nativeCodes.flatten, ∀ name, u.nameOf code = some name →
    (u.Knows name ∧ u.Available code) ∨ u.Accepts ("PAPI:" ++ name)
  omitted : ∀ code ∈ u.presetCodes, ∀ name, u.nameOf code = some name → ¬ u.Available code →
    u.Accepts ("PAPI:" ++ name) →
      (∃ code' ∈ u.presetCodes, u.nameOf code' = some name ∧ u.Available code') ∨
        ∃ code' ∈ u.nativeCodes.flatten, u.nameOf code' = some name

section Listed

variable (u : PapiUniverse)

theorem mem_papiNames (name : String) : name ∈ u.papiNames ↔
    (∃ code ∈ u.presetCodes, u.nameOf code = some name ∧ u.Available code) ∨
      ∃ code ∈ u.nativeCodes.flatten, u.nameOf code = some name := by
  have hpreset : ∀ code, u.presetName code = some name ↔
      u.nameOf code = some name ∧ u.Available code := by
    intro code
    rw [PapiUniverse.presetName, Option.ite_none_right_eq_some, and_comm]
  have hnative : (name ∈ u.nativeCodes.flatMap fun codes => codes.flatMap fun code =>
      (u.nameOf code).toList) ↔ ∃ code ∈ u.nativeCodes.flatten, u.nameOf code = some name := by
    rw [List.flatMap_def, List.mem_flatten]
    simp only [List.mem_map, exists_exists_and_eq_and, List.mem_flatMap, List.mem_flatten,
      Option.mem_toList]
    constructor
    · rintro ⟨codes, hcodes, code, hcode, hname⟩
      exact ⟨code, ⟨codes, hcodes, hcode⟩, hname⟩
    · rintro ⟨code, ⟨codes, hcodes, hcode⟩, hname⟩
      exact ⟨codes, hcodes, code, hcode, hname⟩
  rw [PapiUniverse.papiNames, List.mem_append, hnative, List.mem_flatMap]
  simp only [Option.mem_toList, hpreset]

theorem listedNames_eq : listedNames true u = "JVM:compilations" ::
    (u.papiNames.map ("PAPI:" ++ ·) ++ ["SYS:forced-context-switches", "SYS:thread-time",
      "SYS:thread-time-rusage", "SYS:wallclock-time"]) :=
  rfl

theorem mem_listedNames (name : String) : name ∈ listedNames true u ↔
    name ∈ tableNames ∨ ∃ papiName ∈ u.papiNames, "PAPI:" ++ papiName = name := by
  rw [listedNames_eq, tableNames, List.mem_cons, List.mem_cons, List.mem_append, List.mem_map,
    or_assoc, or_congr_right or_comm]

theorem papi_notMem_tableNames (name : String) : "PAPI:" ++ name ∉ tableNames := by
  intro hmem
  have hhead : ∀ name ∈ tableNames, name.toList.head? ≠ some 'P' := by decide
  refine hhead _ hmem ?_
  rw [String.toList_append]
  rfl

theorem papi_mem_listedNames (name : String) :
    "PAPI:" ++ name ∈ listedNames true u ↔ name ∈ u.papiNames := by
  rw [mem_listedNames, or_iff_right (papi_notMem_tableNames name)]
  constructor
  · rintro ⟨papiName, hmem, hsame⟩
    rwa [← (String.append_right_inj "PAPI:").mp hsame]
  · intro hmem
    exact ⟨name, hmem, rfl⟩

theorem accepts_iff {code : Int32} {name : String} (hname : u.nameOf code = some name) :
    u.Accepts name ↔ u.Knows name ∧ u.Available code := by
  rw [PapiUniverse.nameOf, Option.ite_none_right_eq_some, Option.some.injEq] at hname
  unfold PapiLibrary.Accepts
  apply and_congr_right
  intro hknows
  have hsame := u.name_undone code name (u.eventNameToCode name).2 (Prod.ext hname.1 hname.2)
    (Prod.ext hknows rfl)
  rw [hsame]

theorem recognized_tableNames (papi : PapiLibrary) :
    ∀ name ∈ tableNames, recognized true papi name = true := by
  intro name hmem
  have hquantity : ∀ name ∈ tableNames, (quantityOf name).isSome = true := by decide
  obtain ⟨q, hq⟩ := Option.isSome_iff_exists.mp (hquantity name hmem)
  exact (recognized_supported true papi hq).1

theorem listsSupported (h : u.FindsListed) : ListsSupported u (listedNames true u) where
  supported name hname := by
    rcases (mem_listedNames u name).mp hname with htable | ⟨papiName, hmem, rfl⟩
    · exact recognized_tableNames u.toPapiLibrary name htable
    · apply (recognized_papi u.toPapiLibrary papiName).mpr
      rcases (mem_papiNames u papiName).mp hmem with ⟨code, hcode, hname, hav⟩ | ⟨code, hcode, hname⟩
      · refine (h.presets code hcode papiName hname hav).imp_left fun hknows => ?_
        exact (accepts_iff u hname).mpr ⟨hknows, hav⟩
      · exact (h.natives code hcode papiName hname).imp_left (accepts_iff u hname).mpr
  table it hit hobsolete hbackend := by
    have hnames : ∀ it ∈ knownEvents true, it.obsolete = false → it.backend ≠ backendPapi →
        it.name ∈ tableNames := by decide
    exact (mem_listedNames u it.name).mpr (.inl (hnames it hit hobsolete hbackend))
  enumerated code hcode name hname hrecognized := by
    rw [papi_mem_listedNames, mem_papiNames]
    rcases List.mem_append.mp hcode with hpreset | hnative
    · by_cases hav : u.Available code
      · exact .inl ⟨code, hpreset, hname, hav⟩
      · -- Only with the prefix can PAPI know the name.
        have haccepts := (recognized_papi u.toPapiLibrary name).mp hrecognized
        have hprefixed := haccepts.resolve_left fun h => hav ((accepts_iff u hname).mp h).2
        exact h.omitted code hpreset name hname hav hprefixed
    · exact .inr ⟨code, hnative, hname⟩

theorem findsListed (h : ListsSupported u (listedNames true u)) : u.FindsListed := by
  have hfound : ∀ name ∈ u.papiNames, u.Accepts name ∨ u.Accepts ("PAPI:" ++ name) := by
    intro name hmem
    apply (recognized_papi u.toPapiLibrary name).mp
    exact h.supported _ ((papi_mem_listedNames u name).mpr hmem)
  refine ⟨fun code hcode name hname hav => ?_, fun code hcode name hname => ?_,
    fun code hcode name hname hav haccepts => ?_⟩
  · have hmem := (mem_papiNames u name).mpr (.inl ⟨code, hcode, hname, hav⟩)
    exact (hfound name hmem).imp_left And.left
  · have hmem := (mem_papiNames u name).mpr (.inr ⟨code, hcode, hname⟩)
    exact (hfound name hmem).imp_left (accepts_iff u hname).mp
  · rw [← mem_papiNames, ← papi_mem_listedNames]
    apply h.enumerated code (List.mem_append_left _ hcode) name hname
    exact (recognized_papi u.toPapiLibrary name).mpr (.inr haccepts)

end Listed

def passedNames {σ : Type*} (hasPapi : Bool) (u : PapiUniverse)
    (callback : String → σ → Bool × σ) (arg : σ) : List String :=
  (ubenchEventIterate hasPapi u (some (recording callback)) (arg, [])).2

/-- A callback that never terminates the iteration is passed exactly the supported events
exactly if PAPI finds what it lists. -/
theorem passedNames_listsSupported_iff {σ : Type*} (u : PapiUniverse)
    (callback : String → σ → Bool × σ) (hnever : ∀ name arg, (callback name arg).1 = false)
    (arg : σ) : ListsSupported u (passedNames true u callback arg) ↔ u.FindsListed := by
  have hpassed : passedNames true u callback arg = listedNames true u := by
    rw [passedNames, ubenchEventIterate_eq]
    exact visit_recording callback hnever _ arg []
  rw [hpassed]
  exact ⟨findsListed u, listsSupported u⟩

/-- The list of supported events has every name that can be passed. -/
theorem getSupportedEvents_eq (hasPapi : Bool) (u : PapiUniverse) :
    getSupportedEvents hasPapi u = listedNames hasPapi u := by
  have hadded : ∀ (names arg : List String),
      (visit addingSupportedEventsCallback names arg).2 = arg ++ names := by
    intro names
    induction names with
    | nil => exact fun arg => (List.append_nil arg).symm
    | cons name names ih =>
      intro arg
      rw [List.append_cons]
      exact ih (arg ++ [name])
  rw [getSupportedEvents, ubenchEventIterate_eq]
  exact hadded _ []

/-- A callback is passed the events in the order of the list of supported events, up to the first
one at which it terminates the iteration, however the loops are nested; and the iteration leaves
what the callback makes of these. -/
theorem passedNames_untilStop {σ : Type*} (hasPapi : Bool) (u : PapiUniverse)
    (callback : String → σ → Bool × σ) (arg : σ) :
    GivenUntilStop callback arg (getSupportedEvents hasPapi u)
        (passedNames hasPapi u callback arg) ∧
      ubenchEventIterate hasPapi u (some callback) arg =
        stateAfter callback arg (passedNames hasPapi u callback arg) := by
  obtain ⟨given, hvisit, hgiven⟩ :=
    visit_untilStop callback (listedNames hasPapi u) arg []
  have hpassed : passedNames hasPapi u callback arg = given := by
    rw [passedNames, ubenchEventIterate_eq, hvisit, List.nil_append]
  rw [getSupportedEvents_eq, hpassed, ubenchEventIterate_eq, ← visit_recording_state callback _ _ [],
    hvisit]
  exact ⟨hgiven, rfl⟩

/-- A PAPI with the preset `PAPI_TOT_INS` and one native event, about which
`PAPI_get_event_info` answers `rc`. -/
def PapiUniverse.twoEvents (rc : Int32) : PapiUniverse where
  eventNameToCode name :=
    if name = "PAPI_TOT_INS" then (papiOk, -2147483598)
    else if name = "perf::CYCLES" then (papiOk, 1073741824) else (-7, 0)
  getEventInfo code := if code = 1073741824 then (rc, ⟨0, 0⟩) else (papiOk, ⟨0, 1⟩)
  isPreset code := code < 0
  eventCodeToName code :=
    if code = -2147483598 then (papiOk, "PAPI_TOT_INS")
    else if code = 1073741824 then (papiOk, "perf::CYCLES") else (-7, "")
  presetCodes := [-2147483598]
  nativeCodes := [[1073741824]]
  name_undone code name code' := by
    split_ifs <;> simp <;> grind

theorem findsListed_twoEvents : (PapiUniverse.twoEvents papiOk).FindsListed where
  presets code hcode name hname _ := by
    rw [List.mem_singleton.mp hcode] at hname
    obtain rfl : "PAPI_TOT_INS" = name := Option.some.inj hname
    exact .inl rfl
  natives code hcode name hname := by
    rw [List.mem_singleton.mp hcode] at hname ⊢
    obtain rfl : "perf::CYCLES" = name := Option.some.inj hname
    exact .inl ⟨rfl, by decide⟩
  omitted code hcode _ _ hav _ := by
    rw [List.mem_singleton.mp hcode] at hav
    exact absurd (by decide) hav

theorem passedNames_listsSupported_twoEvents :
    ListsSupported (.twoEvents papiOk)
      (passedNames true (.twoEvents papiOk) addingSupportedEventsCallback []) :=
  (passedNames_listsSupported_iff (.twoEvents papiOk) addingSupportedEventsCallback
    (fun _ _ => rfl) []).mpr findsListed_twoEvents

/-- A native event without information is listed, but not supported. -/
theorem unsupported_native_listed :
    "PAPI:perf::CYCLES" ∈ getSupportedEvents true (.twoEvents (-7)) ∧
      recognized true (PapiUniverse.twoEvents (-7)).toPapiLibrary "PAPI:perf::CYCLES" = false := by
  decide

end UbenchAgent
