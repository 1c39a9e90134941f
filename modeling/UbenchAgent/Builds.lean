import UbenchAgent.SlotReuse
import UbenchAgent.Support
import UbenchAgent.Unobservable

/-!
# The builds with and without PAPI

An agent that was built with PAPI resolves more names, sets up a PAPI event set and looks at the
backend of an attached event set.  To a client that asks for no event of PAPI it answers as an
agent that was built without.
-/

namespace UbenchAgent

def CreateArgs.Native (args : CreateArgs) (papi : PapiLibrary) : Prop :=
  ∀ name ∈ args.jeventNames, isPapiName true papi name = false

def Call.Native : Call → Prop
  | .createEventSet args o => args.Native o.papi
  | .createAttachedEventSetWithJavaThread _ _ args o _ => args.Native o.papi
  | .createAttachedEventSetWithNativeThread _ args o _ => args.Native o.papi
  | _ => True

section Resolution

variable {papi : PapiLibrary} {name : String}

theorem recognized_native (h : isPapiName true papi name = false) :
    recognized true papi name = recognized false papi name := by
  rw [Bool.eq_iff_iff, recognized_false_iff]
  constructor
  · exact fun hrec => quantityOf_recognized hrec h
  · intro hq
    obtain ⟨q, hq⟩ := Option.ne_none_iff_exists'.mp hq
    exact (recognized_supported true papi hq).1

theorem knownEvents_filter :
    (knownEvents true).filter (fun it => it.resolver.isNone) = knownEvents false :=
  rfl

theorem KnownEvent.Names.find_false {it : KnownEvent} (h : it.Names name) :
    (knownEvents false).find? (fun it => it.selects name) = some it := by
  have hresolver := (resolver_of_backend it h.1).mp h.2.1
  obtain ⟨hselects, before, after, htable, hbefore⟩ := List.find?_eq_some_iff_append.mp h.find
  rw [← knownEvents_filter, htable, List.filter_append, List.filter_cons_of_pos (by
    rw [hresolver]
    rfl)]
  refine List.find?_eq_some_iff_append.mpr ⟨hselects, _, _, rfl, fun earlier hearlier => ?_⟩
  exact hbefore earlier (List.mem_of_mem_filter hearlier)

theorem eventOf_native (hrec : recognized true papi name = true)
    (h : isPapiName true papi name = false) : eventOf true papi name = eventOf false papi name := by
  obtain ⟨it, hit⟩ := named_of_recognized hrec h
  have hnone := (resolver_of_backend it hit.1).mp hit.2.1
  unfold eventOf ubenchEventResolve
  rw [resolveLoop_selects hit.find hnone, resolveLoop_selects hit.find_false hnone]

variable {o : SetupOutcomes} {names : List String}

theorem resolveEvents_native (h : ∀ name ∈ names, isPapiName true o.papi name = false) (i : ℕ)
    (config : BenchmarkConfiguration) (ledger : Ledger Resource) :
    resolveEvents true o i names config ledger = resolveEvents false o i names config ledger := by
  induction names generalizing i config ledger with
  | nil => rfl
  | cons name rest ih =>
    obtain ⟨hname, hrest⟩ := List.forall_mem_cons.mp h
    have hsame := recognized_native hname
    cases hrec : recognized true o.papi name with
    | false =>
      rw [resolveEvents_unrecognized hrec, resolveEvents_unrecognized (hsame.symm.trans hrec)]
    | true =>
      have hstored : storedEvent true o i name = storedEvent false o i name := by
        unfold storedEvent
        rw [eventOf_native hrec hname]
      rw [resolveEvents_recognized hrec, resolveEvents_recognized (hsame.symm.trans hrec), hstored]
      dsimp only
      split_ifs
      · rfl
      · exact ih hrest _ _ _

/-- Without PAPI the event loop complains about the first name that is not recognized, whatever
the slot held. -/
theorem resolveEvents_false_thrown (names : List String) (i : ℕ) (config : BenchmarkConfiguration)
    (ledger : Ledger Resource) :
    (resolveEvents false o i names config ledger).thrown =
      (names.find? fun name => !recognized false o.papi name).map .unrecognizedEvent := by
  induction names generalizing i config ledger with
  | nil => rfl
  | cons name rest ih =>
    cases hrec : recognized false o.papi name with
    | false =>
      rw [resolveEvents_unrecognized hrec, List.find?_cons, hrec]
      rfl
    | true =>
      have hother : (storedEvent false o i name).backend ≠ backendPapi := by
        have hno := isPapiName_no_papi hrec
        rw [isPapiName, beq_eq_false_iff_ne] at hno
        exact hno
      rw [resolveEvents_recognized hrec]
      dsimp only
      rw [addEvent_other hother, if_neg Bool.false_ne_true, List.find?_cons, hrec]
      exact ih _ _ _

end Resolution

section Creation

variable {o : SetupOutcomes} {size : ℕ} {args : CreateArgs}

theorem configure_native (h : args.Native o.papi) (config : BenchmarkConfiguration)
    (ledger : Ledger Resource) :
    (configure true o size args config ledger).thrown =
        (configure false o size args config ledger).thrown ∧
      (configure true o size args config ledger).config.view =
        (configure false o size args config ledger).config.view := by
  by_cases hdata : o.callocData = true
  · by_cases hevents : o.callocEvents = true
    · have hloop : loopStage true o size args config ledger =
          loopStage false o size args config ledger := resolveEvents_native h 0 _ _
      rw [configure_eq hdata hevents, configure_eq hdata hevents, hloop]
      dsimp only
      cases hthrown : (loopStage false o size args config ledger).thrown with
      | some e => exact ⟨rfl, rfl⟩
      | none =>
        dsimp only
        rw [if_pos rfl, if_neg Bool.false_ne_true]
        have hinv := loopStage_inv hthrown
        have hunused : ¬ (loopStage false o size args config ledger).config.uses backendPapi := by
          rw [hinv.uses]
          rintro ⟨name, hname, hpapi⟩
          rw [isPapiName_no_papi (hinv.recognized name hname)] at hpapi
          cases hpapi
        constructor
        · rw [hthrown, setupPapi_thrown]
          exact fun hu => absurd hu hunused
        · obtain ⟨p, hp⟩ := setupPapi_config (o := o) args.joptions
            (loopStage false o size args config ledger).config
            (loopStage false o size args config ledger).ledger
          rw [hp]
          rfl
    · unfold configure
      rw [Bool.not_eq_true] at hevents
      rw [hdata, hevents]
      exact ⟨rfl, rfl⟩
  · unfold configure
    rw [Bool.not_eq_true] at hdata
    rw [hdata]
    exact ⟨rfl, rfl⟩

/-- What creation throws without PAPI once it has a slot, whatever the slot held. -/
theorem configure_false_thrown (config : BenchmarkConfiguration) (ledger : Ledger Resource) :
    (configure false o size args config ledger).thrown =
      if o.callocData = false then some (.outOfMemory "allocating place for measurements")
      else if o.callocEvents = false then some (.outOfMemory "allocating place for event metadata")
      else (args.jeventNames.find? fun name => !recognized false o.papi name).map
        .unrecognizedEvent := by
  cases hdata : o.callocData with
  | false =>
    rw [if_pos rfl]
    unfold configure
    rw [hdata]
    rfl
  | true =>
    rw [if_neg Bool.noConfusion]
    cases hevents : o.callocEvents with
    | false =>
      rw [if_pos rfl]
      unfold configure
      rw [hdata, hevents]
      rfl
    | true =>
      have hthrown := resolveEvents_false_thrown (o := o) args.jeventNames 0
      rw [if_neg Bool.noConfusion, configure_eq hdata hevents]
      unfold loopStage
      rw [← hthrown]
      dsimp only
      split
      · rfl
      · rw [if_neg Bool.false_ne_true]

end Creation

/-- The tables look the same and have the same size. -/
structure SameTables (a b : Agent) : Prop where
  looks : Looks a b
  size : a.allEventsets.length = b.allEventsets.length

section Tables

variable {hasPapi : Bool} {a b : Agent} {args : CreateArgs} {o : CreateOutcomes}

theorem hasRoom_iff : HasRoom a o ↔ a.freeSlot < a.allEventsets.length ∨ o.realloc = true := by
  unfold HasRoom
  apply or_congr_left
  constructor
  · rintro ⟨eventset, hmem, hfree⟩
    cases hfind : findFreeSlot 0 a.allEventsets with
    | some found => exact (findFreeSlot_eq_some hfind).2.1
    | none =>
      rw [findFreeSlot_eq_none.mp hfind eventset hmem] at hfree
      cases hfree
  · intro hlt
    by_contra hfull
    push Not at hfull
    have hall : ∀ eventset ∈ a.allEventsets, eventset.valid = true :=
      fun eventset hmem => Bool.not_eq_false _ ▸ hfull eventset hmem
    have hslot : a.freeSlot = a.allEventsets.length := lowestFree_full hall
    omega

theorem SameTables.freeSlot (h : SameTables a b) : a.freeSlot = b.freeSlot :=
  freeSlot_congr h.looks.isNone

theorem SameTables.hasRoom (h : SameTables a b) : HasRoom a o ↔ HasRoom b o := by
  rw [hasRoom_iff, hasRoom_iff, h.freeSlot, h.size]

variable (hasPapi a args o) in
theorem createEventSet_size (hmeas : 0 < args.jmeasurements * 2) (hnames : args.jeventNames ≠ [])
    (hroom : HasRoom a o) : (createEventSet hasPapi a args o).1.allEventsets.length =
      max a.allEventsets.length (a.freeSlot + 1) := by
  have hlength : ¬ args.jeventNames.length = 0 := List.length_eq_zero_iff.not.mpr hnames
  unfold createEventSet
  dsimp only
  rw [if_neg (Int32.not_le.mpr hmeas), if_neg hlength]
  cases hfind : findFreeSlot 0 a.allEventsets with
  | some found =>
    have hlt : a.freeSlot < a.allEventsets.length := (findFreeSlot_eq_some hfind).2.1
    have hmax : max a.allEventsets.length (a.freeSlot + 1) = a.allEventsets.length :=
      max_eq_left hlt
    rw [hmax]
    exact fillSlot_length a found.1 found.2 args.size args o
  | none =>
    have hslot : a.freeSlot = a.allEventsets.length :=
      lowestFree_full (findFreeSlot_eq_none.mp hfind)
    have hrealloc : o.realloc = true := by
      refine (hasRoom_iff.mp hroom).resolve_left ?_
      omega
    rw [hrealloc, hslot, max_eq_right (Nat.le_succ _)]
    exact (fillSlot_length _ _ _ _ args o).trans List.length_append

structure CreateChecks (hasPapi : Bool) (a : Agent) (args : CreateArgs) (o : CreateOutcomes) :
    Prop where
  measurements : args.jmeasurements * 2 ≤ 0 →
    createEventSet hasPapi a args o = (a, .error .measurementsNotPositive)
  events : 0 < args.jmeasurements * 2 → args.jeventNames = [] →
    createEventSet hasPapi a args o = (a, .error .noEvents)
  room : 0 < args.jmeasurements * 2 → args.jeventNames ≠ [] → ¬ HasRoom a o →
    createEventSet hasPapi a args o = (a, .error (.outOfMemory "allocating an event set"))

theorem createEventSet_checks (hasPapi : Bool) (a : Agent) (args : CreateArgs)
    (o : CreateOutcomes) : CreateChecks hasPapi a args o := by
  constructor
  · intro hmeas
    unfold createEventSet
    dsimp only
    rw [if_pos hmeas]
  · intro hmeas hnames
    unfold createEventSet
    dsimp only
    rw [if_neg (Int32.not_le.mpr hmeas), if_pos (List.length_eq_zero_iff.mpr hnames)]
  · intro hmeas hnames hroom
    have hlength : ¬ args.jeventNames.length = 0 := List.length_eq_zero_iff.not.mpr hnames
    have hfind : findFreeSlot 0 a.allEventsets = none := by
      rw [findFreeSlot_eq_none]
      intro eventset hmem
      by_contra hfree
      exact hroom (.inl ⟨eventset, hmem, Bool.not_eq_true _ ▸ hfree⟩)
    have hrealloc : o.realloc = false := by
      rw [← Bool.not_eq_true]
      exact fun hr => hroom (.inr hr)
    unfold createEventSet
    dsimp only
    rw [if_neg (Int32.not_le.mpr hmeas), if_neg hlength, hfind, hrealloc]
    rfl

variable (hasPapi) in
theorem createEventSet_native_thrown (hnative : args.Native o.papi)
    (hmeas : 0 < args.jmeasurements * 2) (hnames : args.jeventNames ≠ []) (hroom : HasRoom a o)
    {e : MeasurementException} :
    (createEventSet hasPapi a args o).2 = .error e ↔
      (configure false o.toSetupOutcomes args.size args o.fresh .empty).thrown = some e := by
  obtain ⟨eventsets, eventset, -, -, -, heq⟩ := createEventSet_slot hasPapi hmeas hnames hroom
  rw [heq, fillSlot_thrown, configure_false_thrown o.fresh .empty]
  cases hasPapi with
  | false => rw [configure_false_thrown]
  | true =>
    rw [(configure_native hnative eventset.config a.ledger).1, configure_false_thrown]

theorem accepted_native (hnative : args.Native o.papi) (hroom : HasRoom a o ↔ HasRoom b o) :
    Accepted true a args o ↔ Accepted false b args o := by
  have hconfigurable : Configurable true args o.toSetupOutcomes ↔
      Configurable false args o.toSetupOutcomes := by
    have hthrown : (configure true o.toSetupOutcomes 0 args o.fresh .empty).thrown = none ↔
        (configure false o.toSetupOutcomes 0 args o.fresh .empty).thrown = none := by
      rw [(configure_native hnative o.fresh .empty).1]
    rw [configure_thrown, configure_thrown] at hthrown
    exact hthrown
  constructor
  · exact fun h => ⟨h.measurements, h.events, hroom.mp h.room, hconfigurable.mp h.configurable⟩
  · exact fun h => ⟨h.measurements, h.events, hroom.mpr h.room, hconfigurable.mpr h.configurable⟩

theorem SameTables.createEventSet (h : SameTables a b) (hnative : args.Native o.papi) :
    (UbenchAgent.createEventSet true a args o).2 = (UbenchAgent.createEventSet false b args o).2 ∧
      SameTables (UbenchAgent.createEventSet true a args o).1
        (UbenchAgent.createEventSet false b args o).1 := by
  have hchecks := createEventSet_checks true a args o
  have hchecks' := createEventSet_checks false b args o
  by_cases hmeas : args.jmeasurements * 2 ≤ 0
  · rw [hchecks.measurements hmeas, hchecks'.measurements hmeas]
    exact ⟨rfl, h⟩
  rw [Int32.not_le] at hmeas
  by_cases hnames : args.jeventNames = []
  · rw [hchecks.events hmeas hnames, hchecks'.events hmeas hnames]
    exact ⟨rfl, h⟩
  by_cases hroom : HasRoom a o
  · have hroom' := h.hasRoom.mp hroom
    have hsize : (UbenchAgent.createEventSet true a args o).1.allEventsets.length =
        (UbenchAgent.createEventSet false b args o).1.allEventsets.length := by
      rw [createEventSet_size true a args o hmeas hnames hroom,
        createEventSet_size false b args o hmeas hnames hroom', h.size, h.freeSlot]
    by_cases hacc : Accepted true a args o
    · obtain ⟨a', config, heq, -, htable, hview⟩ := createEventSet_accepted hacc
      obtain ⟨b', config', heq', -, htable', hview'⟩ :=
        createEventSet_accepted ((accepted_native hnative h.hasRoom).mp hacc)
      rw [heq, heq'] at hsize ⊢
      refine ⟨by rw [h.freeSlot], fun id => ?_, hsize⟩
      rw [htable, htable', h.freeSlot]
      split_ifs
      · rw [Option.map_some, Option.map_some, hview o.fresh .empty, hview' o.fresh .empty,
          (configure_native hnative o.fresh .empty).2]
      · exact h.looks id
    · obtain ⟨a', e, heq, htable⟩ := createEventSet_rejected hacc
      obtain ⟨b', e', heq', htable'⟩ :=
        createEventSet_rejected fun hacc' => hacc ((accepted_native hnative h.hasRoom).mpr hacc')
      have hthrown := (createEventSet_native_thrown true hnative hmeas hnames hroom).mp
        (congrArg Prod.snd heq)
      have hthrown' := (createEventSet_native_thrown false hnative hmeas hnames hroom').mp
        (congrArg Prod.snd heq')
      obtain rfl : e = e' := Option.some.inj (hthrown.symm.trans hthrown')
      rw [heq, heq'] at hsize ⊢
      refine ⟨rfl, fun id => ?_, hsize⟩
      rw [htable, htable']
      exact h.looks id
  · rw [hchecks.room hmeas hnames hroom,
      hchecks'.room hmeas hnames fun hroom' => hroom (h.hasRoom.mpr hroom')]
    exact ⟨rfl, h⟩

theorem createAttached_native (hnative : args.Native o.papi) (hacc : Accepted true a args o)
    (threads : ThreadMap) (threadId : Int64) (attach : Int32) :
    createAttachedEventSetWithJavaThread true a threads threadId args o attach =
        .ok (createEventSet true a args o) ∧
      createAttachedEventSetWithNativeThread true a threadId args o attach =
        .ok (createEventSet true a args o) := by
  obtain ⟨a', config, heq, hcreated, htable, -⟩ := createEventSet_accepted hacc
  have hc : a'.validConfig a.freeSlot = some config := by rw [htable, if_pos rfl]
  have hunused : ¬ config.uses backendPapi = true := by
    rw [hcreated.loop.uses]
    rintro ⟨name, hname, hpapi⟩
    rw [hnative name hname] at hpapi
    cases hpapi
  unfold createAttachedEventSetWithJavaThread createAttachedEventSetWithNativeThread
  rw [heq]
  dsimp only [returnedId]
  rw [if_pos rfl, if_pos rfl, eventsetAt_of_validConfig hc]
  dsimp only
  rw [if_neg hunused, if_neg hunused]
  exact ⟨rfl, rfl⟩

theorem SameTables.createAttached (h : SameTables a b) (hnative : args.Native o.papi)
    (call : Call) (outcome : Except Fault (Agent × Except MeasurementException ℤ))
    (hstep : a.step true call = (outcome >>= fun x => .ok (x.1, Response.ofId x.2)))
    (hstep' : b.step false call = .ok ((UbenchAgent.createEventSet false b args o).1,
      Response.ofId (UbenchAgent.createEventSet false b args o).2))
    (haccepted : Accepted true a args o → outcome = .ok (UbenchAgent.createEventSet true a args o))
    (hrejected : ¬ Accepted true a args o → outcome = .error (.eventsetIndex (-1))) :
    (∃ a' b' r, a.step true call = .ok (a', r) ∧ b.step false call = .ok (b', r) ∧
        SameTables a' b') ∨
      a.step true call = .error (.eventsetIndex (-1)) := by
  by_cases hacc : Accepted true a args o
  · obtain ⟨hresult, htables⟩ := h.createEventSet hnative
    refine .inl ⟨_, _, _, ?_, hstep', htables⟩
    rw [hstep, haccepted hacc, ← hresult]
    rfl
  · right
    rw [hstep, hrejected hacc]
    rfl

/-- In the two builds a call answers alike, or it fails alike; only an attached creation may fail
in the build with PAPI alone. -/
theorem SameTables.step {call : Call} (h : SameTables a b) (hnative : call.Native) :
    (∃ a' b' r, a.step true call = .ok (a', r) ∧ b.step false call = .ok (b', r) ∧
        SameTables a' b') ∨
      ∃ f, a.step true call = .error f ∧ (call.detached = true → b.step false call = .error f) := by
  cases hcalls : call.setCalls with
  | some calls =>
    rw [step_of_setCalls hcalls, step_of_setCalls hcalls]
    rcases withIds_looks calls h.looks with ⟨a', b', result, ha, hb, hlooks⟩ | ⟨f, ha, hb⟩
    · rw [ha, hb]
      refine .inl ⟨a', b', _, rfl, rfl, hlooks, ?_⟩
      rw [withIds_length ha, withIds_length hb, h.size]
    · rw [ha, hb]
      exact .inr ⟨f, rfl, fun _ => rfl⟩
  | none =>
    cases call with
    | createEventSet args o =>
      obtain ⟨hresult, htables⟩ := h.createEventSet hnative
      refine .inl ⟨_, _, Response.ofId (UbenchAgent.createEventSet true a args o).2, rfl, ?_,
        htables⟩
      rw [hresult]
      rfl
    | createAttachedEventSetWithJavaThread threads javaThreadId args o attach =>
      have hstep := h.createAttached hnative
        (.createAttachedEventSetWithJavaThread threads javaThreadId args o attach)
        (createAttachedEventSetWithJavaThread true a threads javaThreadId args o attach) rfl rfl
        (fun hacc => (createAttached_native hnative hacc threads javaThreadId attach).1)
        (fun hrej => (createAttached_rejected hrej threads javaThreadId attach).1)
      exact hstep.imp_right fun hfail => ⟨_, hfail, fun hdetached => by cases hdetached⟩
    | createAttachedEventSetWithNativeThread nativeThreadId args o attach =>
      have hstep := h.createAttached hnative
        (.createAttachedEventSetWithNativeThread nativeThreadId args o attach)
        (createAttachedEventSetWithNativeThread true a nativeThreadId args o attach) rfl rfl
        (fun hacc => (createAttached_native hnative hacc .empty nativeThreadId attach).2)
        (fun hrej => (createAttached_rejected hrej .empty nativeThreadId attach).2)
      exact hstep.imp_right fun hfail => ⟨_, hfail, fun hdetached => by cases hdetached⟩
    | destroyEventSet jid =>
      obtain ⟨hresult, hlooks⟩ := destroyEventSet_looks h.looks jid
      refine .inl ⟨(destroyEventSet a jid).1, (destroyEventSet b jid).1,
        Response.ofUnit (destroyEventSet a jid).2, rfl, ?_, hlooks, ?_⟩
      · rw [hresult]
        rfl
      · rw [destroyEventSet_length, destroyEventSet_length, h.size]
    | getResults jid =>
      have hsame := (getResults_looks (h.looks jid)).1
      rw [Agent.step, Agent.step, ← hsame]
      cases UbenchAgent.getResults a jid with
      | error f => exact .inr ⟨f, rfl, fun _ => rfl⟩
      | ok result => exact .inl ⟨a, b, _, rfl, rfl, h⟩
    | getRawResults jid =>
      have hsame := (getResults_looks (h.looks jid)).2
      rw [Agent.step, Agent.step, ← hsame]
      cases UbenchAgent.getRawResults a jid with
      | error f => exact .inr ⟨f, rfl, fun _ => rfl⟩
      | ok result => exact .inl ⟨a, b, _, rfl, rfl, h⟩
    | start => cases hcalls
    | stop => cases hcalls
    | sample => cases hcalls
    | reset => cases hcalls

theorem SameTables.step_ok {call : Call} {a' : Agent} {r : Response} (h : SameTables a b)
    (hnative : call.Native) (hstep : a.step true call = .ok (a', r)) :
    ∃ b', b.step false call = .ok (b', r) ∧ SameTables a' b' := by
  rcases h.step hnative with ⟨a₁, b', r₁, ha, hb, htables⟩ | ⟨f, ha, -⟩
  · obtain ⟨rfl, rfl⟩ := Prod.mk.inj (Except.ok.inj (ha.symm.trans hstep))
    exact ⟨b', hb, htables⟩
  · rw [ha] at hstep
    cases hstep

end Tables

/-- To clients that ask for no event of PAPI both builds answer alike: each run of the build with
PAPI is one of the build without, with the same answers and the same exceptions, and the other
way round if no event set is attached. -/
theorem builds_agree {calls : List Call} (hnative : ∀ call ∈ calls, call.Native) :
    (∀ a tr, run (Agent.step true) .initial calls = .ok (a, tr) →
      ∃ b, run (Agent.step false) .initial calls = .ok (b, tr) ∧ SameTables a b) ∧
    ((∀ call ∈ calls, call.detached = true) → ∀ b tr,
      run (Agent.step false) .initial calls = .ok (b, tr) →
        ∃ a, run (Agent.step true) .initial calls = .ok (a, tr) ∧ SameTables a b) := by
  have hinitial : SameTables .initial .initial := ⟨fun _ => rfl, rfl⟩
  constructor
  · intro a tr hrun
    exact run_simulation (P := Call.Native) (R := SameTables)
      (fun s t call s' r hcall h hstep => h.step_ok hcall hstep) hnative hinitial hrun
  · intro hdetached b tr hrun
    refine run_simulation (P := fun call => call.Native ∧ call.detached = true)
      (R := fun b a => SameTables a b) ?_
      (fun call hmem => ⟨hnative call hmem, hdetached call hmem⟩) hinitial hrun
    intro s t call s' r hcall h hstep
    rcases h.step hcall.1 with ⟨a', b', r', ha, hb, htables⟩ | ⟨f, -, hb⟩
    · obtain ⟨rfl, rfl⟩ := Prod.mk.inj (Except.ok.inj (hb.symm.trans hstep))
      exact ⟨a', ha, htables⟩
    · rw [hb hcall.2] at hstep
      cases hstep

/-- A measurement of the wall clock, after a count that is refused. -/
theorem builds_agree_wallclock : ∃ a tr b,
    run (Agent.step true) .initial [.createEventSet (.wallclock 0) .success,
      .createEventSet (.wallclock 1) .success, .start [(0, .zero)]] = .ok (a, tr) ∧
    tr.map Prod.snd = [.thrown .measurementsNotPositive, .eventSet 0, .done] ∧
    run (Agent.step false) .initial [.createEventSet (.wallclock 0) .success,
      .createEventSet (.wallclock 1) .success, .start [(0, .zero)]] = .ok (b, tr) ∧
    SameTables a b := by
  have hname : isPapiName true CreateOutcomes.success.papi "SYS:wallclock-time" = false := by
    decide
  have hnative : ∀ call ∈ [Call.createEventSet (.wallclock 0) .success,
      .createEventSet (.wallclock 1) .success, .start [(0, .zero)]], call.Native := by
    rw [List.forall_mem_cons, List.forall_mem_cons, List.forall_mem_singleton]
    exact ⟨List.forall_mem_singleton.mpr hname, List.forall_mem_singleton.mpr hname, trivial⟩
  obtain ⟨a, tr, hrun, hresponses⟩ : ∃ a tr,
      run (Agent.step true) .initial [.createEventSet (.wallclock 0) .success,
        .createEventSet (.wallclock 1) .success, .start [(0, .zero)]] = .ok (a, tr) ∧
      tr.map Prod.snd = [.thrown .measurementsNotPositive, .eventSet 0, .done] :=
    ⟨_, _, rfl, rfl⟩
  obtain ⟨b, hrun', htables⟩ := (builds_agree hnative).1 a tr hrun
  exact ⟨a, tr, b, hrun, hresponses, hrun', htables⟩

end UbenchAgent
