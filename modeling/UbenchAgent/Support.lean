import UbenchAgent.Grammar

/-!
# Supported events

`isEventSupported` asks the same resolution as the event loop of `createEventSet`, with an event
description on the stack most of whose fields nobody set.  So `filterSupportedEvents` drops
exactly what creation complains about, and creation names the first event that it drops.
-/

namespace UbenchAgent

/-- What one resolution on the stack finds: whether there is memory for the copy of the name, and
what the description holds before the call. -/
structure ResolveFrame where
  strdup : Bool
  info : EventInfo

/-- `isEventSupported`; of the description only the name is set. -/
def isEventSupported (hasPapi : Bool) (papi : PapiLibrary) (frame : ResolveFrame)
    (jevent : String) : Bool :=
  (ubenchEventResolve hasPapi papi frame.strdup jevent { frame.info with name := none }).1

def filterSupportedEvents (hasPapi : Bool) (papi : PapiLibrary) (frames : ℕ → ResolveFrame)
    (events : List String) : List String :=
  (events.zipIdx.filter fun (event, i) => isEventSupported hasPapi papi (frames i) event).map
    Prod.fst

section Answer

variable {hasPapi : Bool} {papi : PapiLibrary}

/-- Neither the memory for the name nor what the description holds decides about the answer. -/
theorem isEventSupported_eq (hasPapi : Bool) (papi : PapiLibrary) (frame : ResolveFrame)
    (jevent : String) :
    isEventSupported hasPapi papi frame jevent = recognized hasPapi papi jevent := by
  rw [Bool.eq_iff_iff, recognized, isEventSupported]
  unfold ubenchEventResolve
  rw [resolveLoop_fst, resolveLoop_fst]

theorem filterSupportedEvents_eq (frames : ℕ → ResolveFrame) (events : List String) :
    filterSupportedEvents hasPapi papi frames events =
      events.filter (recognized hasPapi papi) := by
  unfold filterSupportedEvents
  simp only [isEventSupported_eq]
  change (events.zipIdx.filter (recognized hasPapi papi ∘ Prod.fst)).map Prod.fst = _
  rw [← List.filter_map, List.zipIdx_map_fst]

/-- The entries of a build without PAPI compare whole names, and each of them stands for a
quantity. -/
theorem knownEvents_false : ∀ it ∈ knownEvents false,
    it.resolver = none ∧ it.name ∈ quantities.map Prod.fst := by
  simp only [knownEvents, Bool.false_eq_true, ↓reduceIte, List.append_nil, List.cons_append,
    List.nil_append, List.forall_mem_cons, List.not_mem_nil, false_imp_iff, implies_true]
  decide

theorem recognized_false_iff {name : String} :
    recognized false papi name = true ↔ quantityOf name ≠ none := by
  constructor
  · intro h
    obtain ⟨it, hit, hselects, -⟩ := (resolveLoop_fst papi _ _ _ _).mp h
    obtain ⟨hnone, hname⟩ := knownEvents_false it hit
    obtain ⟨x, hx, hxname⟩ := List.mem_map.mp hname
    rw [KnownEvent.selects, hnone, ← hxname] at hselects
    rw [quantityOf, Ne, Option.map_eq_none_iff, List.find?_eq_none]
    exact fun hall => hall x hx hselects
  · intro h
    obtain ⟨q, hq⟩ := Option.ne_none_iff_exists'.mp h
    exact (recognized_supported false papi hq).1

theorem quantityOf_named {name : String} (h : Named name) : quantityOf name ≠ none := by
  have hnames : ∀ it ∈ knownEvents true, it.backend ≠ backendPapi →
      it.name ∈ quantities.map Prod.fst := by
    simp only [knownEvents, ↓reduceIte, List.cons_append, List.nil_append, List.forall_mem_cons,
      List.not_mem_nil, false_imp_iff, implies_true]
    decide
  obtain ⟨it, hit, hbackend, hname⟩ := h
  obtain ⟨x, hx, hxname⟩ := List.mem_map.mp (hnames it hit hbackend)
  rw [← hxname] at hname
  rw [quantityOf, Ne, Option.map_eq_none_iff, List.find?_eq_none]
  exact fun hall => hall x hx hname

/-- Beyond the names of the table there are events of PAPI only. -/
theorem named_of_recognized {name : String} (h : recognized true papi name = true)
    (hnative : isPapiName true papi name = false) : Named name := by
  by_contra hunnamed
  have hloop := ubenchEventResolve_recognized h true
  rw [resolve_unnamed hunnamed] at hloop
  obtain ⟨it, hit, hbackend, -⟩ := resolveLoop_ok hloop
  have hpapi : ∀ it ∈ [papiEntry, legacyPapiEntry], it.backend = backendPapi := by decide
  rw [hpapi it hit] at hbackend
  have hyes : isPapiName true papi name = true := beq_iff_eq.mpr hbackend
  rw [hnative] at hyes
  cases hyes

theorem quantityOf_recognized {name : String} (h : recognized hasPapi papi name = true)
    (hnative : isPapiName hasPapi papi name = false) : quantityOf name ≠ none := by
  cases hasPapi with
  | false => exact recognized_false_iff.mp h
  | true => exact quantityOf_named (named_of_recognized h hnative)

end Answer

section Unrecognized

variable {hasPapi : Bool}

/-- The event loop complains about the first name that is not recognized, if the component check
lets it get there. -/
theorem resolveEvents_unrecognized_iff {o : SetupOutcomes} {done : List String}
    {config : BenchmarkConfiguration} (h : LoopInv hasPapi o.papi done config)
    (hdone : SameComponent hasPapi o.papi done) (names : List String) (i : ℕ)
    (ledger : Ledger Resource) {event : String} :
    (resolveEvents hasPapi o i names config ledger).thrown = some (.unrecognizedEvent event) ↔
      ∃ before after, names = before ++ event :: after ∧
        (∀ name ∈ before, recognized hasPapi o.papi name = true) ∧
        recognized hasPapi o.papi event = false ∧
        SameComponent hasPapi o.papi (done ++ before) := by
  induction names generalizing done i config ledger with
  | nil =>
    constructor
    · intro hthrown
      cases hthrown
    · rintro ⟨before, after, hsplit, -⟩
      exact absurd hsplit.symm (List.append_ne_nil_of_right_ne_nil _ (List.cons_ne_nil _ _))
  | cons name rest ih =>
    cases hrec : recognized hasPapi o.papi name with
    | false =>
      rw [resolveEvents_unrecognized hrec]
      dsimp only
      rw [Option.some.injEq, MeasurementException.unrecognizedEvent.injEq]
      constructor
      · rintro rfl
        exact ⟨[], rest, rfl, List.forall_mem_nil _, hrec, by rwa [List.append_nil]⟩
      · rintro ⟨before, after, hsplit, hbefore, -, -⟩
        cases before with
        | nil => exact (List.cons.inj hsplit).1
        | cons first before =>
          obtain ⟨rfl, -⟩ := List.cons.inj hsplit
          rw [hbefore name List.mem_cons_self] at hrec
          cases hrec
    | true =>
      rw [resolveEvents_recognized hrec]
      dsimp only
      obtain ⟨hthrow, hkeep⟩ := (h.acquireName (ledger.acquire .stringChars).2 (o.strdup i)).turn
        hrec (describes_storedEvent o i name)
      -- The name itself is recognized, so the one that is not comes behind it.
      have hcons : ∀ before after, name :: rest = before ++ event :: after →
          recognized hasPapi o.papi event = false →
          ∃ before', before = name :: before' ∧ rest = before' ++ event :: after := by
        intro before after hsplit hevent
        cases before with
        | nil =>
          obtain ⟨rfl, -⟩ := List.cons.inj hsplit
          rw [hrec] at hevent
          cases hevent
        | cons first before =>
          obtain ⟨rfl, hrest⟩ := List.cons.inj hsplit
          exact ⟨before, rfl, hrest⟩
      cases hdiff : (addEvent (acquireName config (ledger.acquire .stringChars).2
          (o.strdup i)).1 (storedEvent hasPapi o i name)).2 with
      | true =>
        rw [if_pos rfl]
        constructor
        · intro hthrown
          cases hthrown
        · rintro ⟨before, after, hsplit, -, hevent, hsame⟩
          obtain ⟨before', rfl, -⟩ := hcons before after hsplit hevent
          rw [List.append_cons] at hsame
          rw [hthrow.mpr hsame.of_append] at hdiff
          cases hdiff
      | false =>
        rw [if_neg Bool.false_ne_true, ih (hkeep hdiff) (hthrow.mp hdiff)]
        constructor
        · rintro ⟨before, after, rfl, hbefore, hevent, hsame⟩
          refine ⟨name :: before, after, rfl, ?_, hevent, ?_⟩
          · exact List.forall_mem_cons.mpr ⟨hrec, hbefore⟩
          · rwa [List.append_cons]
        · rintro ⟨before, after, hsplit, hbefore, hevent, hsame⟩
          obtain ⟨before', rfl, hrest⟩ := hcons before after hsplit hevent
          refine ⟨before', after, hrest, (List.forall_mem_cons.mp hbefore).2, hevent, ?_⟩
          rwa [List.append_cons] at hsame

theorem setupPapi_recognized {o : SetupOutcomes} (joptions : List Int32)
    (config : BenchmarkConfiguration) (ledger : Ledger Resource) (event : String) :
    (setupPapi o joptions config ledger).thrown ≠ some (.unrecognizedEvent event) := by
  unfold setupPapi
  dsimp only
  split_ifs
  · simp
  · simp
  · cases papiInherit o 0 joptions with
    | some rc => simp
    | none => cases papiAddEvents o config.usedPapiEventsCount 0 <;> simp
  · simp

/-- Beyond the event loop nothing complains about a name. -/
theorem configure_unrecognized_iff {o : SetupOutcomes} {size : ℕ} {args : CreateArgs}
    {config : BenchmarkConfiguration} {ledger : Ledger Resource} {event : String}
    (hdata : o.callocData = true) (hevents : o.callocEvents = true) :
    (configure hasPapi o size args config ledger).thrown = some (.unrecognizedEvent event) ↔
      (loopStage hasPapi o size args config ledger).thrown = some (.unrecognizedEvent event) := by
  rw [configure_eq hdata hevents]
  dsimp only
  cases hthrown : (loopStage hasPapi o size args config ledger).thrown with
  | some e => rw [hthrown]
  | none =>
    dsimp only
    split_ifs with hpapi
    · exact iff_of_false (setupPapi_recognized _ _ _ _) not_false
    · rw [hthrown]
      exact iff_of_false (Option.some_ne_none _).symm not_false

theorem fillSlot_thrown {a : Agent} {i : ℕ} {eventset : Eventset} {size : ℕ} {args : CreateArgs}
    {o : CreateOutcomes} {e : MeasurementException} :
    (fillSlot hasPapi a i eventset size args o).2 = .error e ↔
      (configure hasPapi o.toSetupOutcomes size args eventset.config a.ledger).thrown =
        some e := by
  unfold fillSlot
  dsimp only
  cases (configure hasPapi o.toSetupOutcomes size args eventset.config a.ledger).thrown with
  | none => simp
  | some e' => simp

/-- Creation complains about the first name that is not recognized, if all its checks before that
succeed. -/
theorem createEventSet_unrecognized_iff {a : Agent} {args : CreateArgs} {o : CreateOutcomes}
    (hmeas : 0 < args.jmeasurements * 2) (hroom : HasRoom a o) (hdata : o.callocData = true)
    (hevents : o.callocEvents = true) {event : String} :
    (createEventSet hasPapi a args o).2 = .error (.unrecognizedEvent event) ↔
      ∃ before after, args.jeventNames = before ++ event :: after ∧
        (∀ name ∈ before, recognized hasPapi o.papi name = true) ∧
        recognized hasPapi o.papi event = false ∧ SameComponent hasPapi o.papi before := by
  by_cases hnames : args.jeventNames = []
  · have hthrown : createEventSet hasPapi a args o = (a, .error .noEvents) := by
      unfold createEventSet
      dsimp only
      rw [if_neg (Int32.not_le.mpr hmeas), if_pos (List.length_eq_zero_iff.mpr hnames)]
    rw [hthrown, hnames]
    apply iff_of_false
    · simp
    · rintro ⟨before, after, hsplit, -⟩
      exact absurd hsplit.symm (List.append_ne_nil_of_right_ne_nil _ (List.cons_ne_nil _ _))
  · obtain ⟨eventsets, eventset, -, -, -, heq⟩ := createEventSet_slot hasPapi hmeas hnames hroom
    rw [heq, fillSlot_thrown, configure_unrecognized_iff hdata hevents]
    exact resolveEvents_unrecognized_iff (prepared_inv eventset.config _ _ _)
      (fun _ hn => absurd hn List.not_mem_nil) args.jeventNames 0 _

theorem createEventSet_recognized {a : Agent} {args : CreateArgs} {o : CreateOutcomes}
    (hmeas : 0 < args.jmeasurements * 2) (hroom : HasRoom a o) (hdata : o.callocData = true)
    (hevents : o.callocEvents = true)
    (hrec : ∀ name ∈ args.jeventNames, recognized hasPapi o.papi name = true) (event : String) :
    (createEventSet hasPapi a args o).2 ≠ .error (.unrecognizedEvent event) := by
  rw [Ne, createEventSet_unrecognized_iff hmeas hroom hdata hevents]
  rintro ⟨before, after, hsplit, -, hevent, -⟩
  have hmem : event ∈ args.jeventNames := by
    rw [hsplit]
    exact List.mem_append_right _ List.mem_cons_self
  rw [hrec event hmem] at hevent
  cases hevent

end Unrecognized

/-- How the filter and creation go together: creation complains about the first event that the
filter drops, if the component check lets it get there, and about no event that the filter
keeps. -/
structure FilterDecides (hasPapi : Bool) (a : Agent) (args : CreateArgs) (o : CreateOutcomes)
    (frames : ℕ → ResolveFrame) : Prop where
  first : ∀ event, (createEventSet hasPapi a args o).2 = .error (.unrecognizedEvent event) ↔
    ∃ before after, args.jeventNames = before ++ event :: after ∧
      filterSupportedEvents hasPapi o.papi frames (before ++ [event]) = before ∧
      SameComponent hasPapi o.papi before
  filtered : ∀ event, (createEventSet hasPapi a { args with
    jeventNames := filterSupportedEvents hasPapi o.papi frames args.jeventNames } o).2 ≠
      .error (.unrecognizedEvent event)

/-- The filter keeps all names but the last exactly if these are recognized and the last is
not. -/
theorem filter_concat_iff {hasPapi : Bool} {papi : PapiLibrary} {before : List String}
    {event : String} :
    (before ++ [event]).filter (recognized hasPapi papi) = before ↔
      (∀ name ∈ before, recognized hasPapi papi name = true) ∧
        recognized hasPapi papi event = false := by
  constructor
  · intro h
    have hbefore : ∀ name ∈ before, recognized hasPapi papi name = true := by
      intro name hname
      rw [← h] at hname
      exact List.of_mem_filter hname
    rw [List.filter_append, List.filter_eq_self.mpr hbefore] at h
    refine ⟨hbefore, Bool.not_eq_true _ ▸ ?_⟩
    have hnil := List.append_right_eq_self.mp h
    exact List.filter_eq_nil_iff.mp hnil event (List.mem_singleton_self _)
  · rintro ⟨hbefore, hevent⟩
    rw [List.filter_append, List.filter_eq_self.mpr hbefore,
      List.filter_eq_nil_iff.mpr (List.forall_mem_singleton.mpr ?_), List.append_nil]
    rw [hevent]
    exact Bool.false_ne_true

/-- Whatever events are asked for, creation names the first one that `filterSupportedEvents`
drops, and after the filter it complains about none. -/
theorem filterSupportedEvents_decides {hasPapi : Bool} {a : Agent} {args : CreateArgs}
    {o : CreateOutcomes} (hmeas : 0 < args.jmeasurements * 2) (hroom : HasRoom a o)
    (hdata : o.callocData = true) (hevents : o.callocEvents = true) (frames : ℕ → ResolveFrame) :
    FilterDecides hasPapi a args o frames := by
  constructor
  · intro event
    rw [createEventSet_unrecognized_iff hmeas hroom hdata hevents]
    simp only [filterSupportedEvents_eq, filter_concat_iff, and_assoc]
  · intro event
    apply createEventSet_recognized
    · exact hmeas
    · exact hroom
    · exact hdata
    · exact hevents
    · intro name hname
      rw [filterSupportedEvents_eq] at hname
      exact List.of_mem_filter hname

/-- A build without PAPI drops a counter of PAPI behind the wall clock. -/
theorem filterSupportedEvents_decides_counter : FilterDecides false .initial
    ⟨1, ["SYS:wallclock-time", "PAPI:PAPI_TOT_INS"], []⟩ .success
    fun _ => ⟨true, EventInfo.calloc⟩ :=
  filterSupportedEvents_decides (by decide) (.inr rfl) rfl rfl _

end UbenchAgent
