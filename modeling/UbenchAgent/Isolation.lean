import UbenchAgent.Benchmark
import UbenchAgent.Loop
import UbenchAgent.Readings

/-!
# `Benchmark` and the others do not disturb each other

A native call leaves every event set alone that it does not name.  So, as long as the other
clients of `Measurement` name their own event sets only, the event set of `Benchmark` has been
through the calls of `Benchmark` and nothing else, whatever the others do in between.
-/

namespace UbenchAgent

open RewindLog

section Frame

variable {hasPapi : Bool} {a a' : Agent} {id : ℤ}

theorem forEachEventset_other {calls : List (ℤ × SetCall)}
    {result : Except MeasurementException Unit} (h : forEachEventset calls a = .ok (a', result))
    (hid : id ∉ calls.map Prod.fst) : a'.validConfig id = a.validConfig id := by
  induction calls generalizing a with
  | nil =>
    obtain ⟨rfl, -⟩ : a = a' ∧ .ok () = result := by simpa [forEachEventset] using h
    rfl
  | cons x rest ih =>
    obtain ⟨id₁, call⟩ := x
    rw [List.map_cons, List.mem_cons, not_or] at hid
    rw [forEachEventset] at h
    cases hc : a.validConfig id₁ with
    | none =>
      rw [hc] at h
      obtain ⟨rfl, -⟩ : a = a' ∧ .error .invalidEventSetId = result := by simpa using h
      rfl
    | some config =>
      rw [hc] at h
      obtain ⟨config', -, hrest⟩ := except_bind_ok.mp h
      rw [ih hrest hid.2, validConfig_setValid hc, if_neg hid.1]

theorem AllOrNothing.frame {nativeId : Int64} {result : Except MeasurementException ℤ}
    (h : AllOrNothing a nativeId (.ok (a', result))) (hlive : (a.validConfig id).isSome = true) :
    a'.validConfig id = a.validConfig id := by
  rcases h with ⟨a₁, id', config, heq, hfresh, -, -, hothers⟩ | ⟨a₁, e, heq, hsame⟩
  · cases heq
    apply hothers
    rintro rfl
    rw [hfresh] at hlive
    cases hlive
  · cases heq
    exact hsame id

theorem createEventSet_frame (args : CreateArgs) (o : CreateOutcomes)
    (hlive : (a.validConfig id).isSome = true) :
    (createEventSet hasPapi a args o).1.validConfig id = a.validConfig id := by
  by_cases hacc : Accepted hasPapi a args o
  · obtain ⟨a₁, config, heq, -, htable, -⟩ := createEventSet_accepted hacc
    rw [heq, htable, if_neg]
    rintro rfl
    rw [validConfig_freeSlot] at hlive
    cases hlive
  · obtain ⟨a₁, e, heq, htable⟩ := createEventSet_rejected hacc
    rw [heq, htable]

theorem createAttached_frame {nativeId : Int64} {args : CreateArgs} {o : CreateOutcomes}
    {response : Response}
    (outcome : Bool → Except Fault (Agent × Except MeasurementException ℤ))
    (hnoPapi : outcome false = .ok (createEventSet false a args o))
    (haccepted : Accepted true a args o → AllOrNothing a nativeId (outcome true))
    (hrejected : ¬ Accepted true a args o → outcome true = .error (.eventsetIndex (-1)))
    (h : (outcome hasPapi >>= fun x => .ok (x.1, Response.ofId x.2)) = .ok (a', response))
    (hlive : (a.validConfig id).isSome = true) : a'.validConfig id = a.validConfig id := by
  obtain ⟨⟨a₁, result⟩, houtcome, hresponse⟩ := except_bind_ok.mp h
  obtain ⟨rfl, -⟩ := Prod.mk.inj (Except.ok.inj hresponse)
  cases hasPapi with
  | false =>
    have heq : createEventSet false a args o = (a₁, result) :=
      Except.ok.inj (hnoPapi.symm.trans houtcome)
    have hframe : (createEventSet false a args o).1.validConfig id = a.validConfig id :=
      createEventSet_frame args o hlive
    rw [heq] at hframe
    exact hframe
  | true =>
    by_cases hacc : Accepted true a args o
    · have hall := haccepted hacc
      rw [houtcome] at hall
      exact hall.frame hlive
    · rw [hrejected hacc] at houtcome
      cases houtcome

/-- A call that does not name an event set leaves it as it is, whether it throws or not. -/
theorem step_frame {call : Call} {response : Response}
    (h : a.step hasPapi call = .ok (a', response)) (hlive : (a.validConfig id).isSome = true)
    (hid : id ∉ call.ids) : a'.validConfig id = a.validConfig id := by
  cases hcalls : call.setCalls with
  | some calls =>
    rw [Call.ids_of_setCalls hcalls] at hid
    rw [step_of_setCalls hcalls] at h
    obtain ⟨⟨a₁, result⟩, hwith, heq⟩ := except_bind_ok.mp h
    obtain ⟨rfl, -⟩ : a₁ = a' ∧ Response.ofUnit result = response := by simpa using heq
    obtain ⟨a₂, hloop, htable⟩ := withIds_ok hwith
    rw [htable, forEachEventset_other hloop hid]
    rfl
  | none =>
    cases call with
    | createEventSet args o =>
      cases h
      exact createEventSet_frame args o hlive
    | createAttachedEventSetWithJavaThread threads javaThreadId args o attach =>
      exact createAttached_frame
        (fun p => createAttachedEventSetWithJavaThread p a threads javaThreadId args o attach) rfl
        (fun hacc => createAttachedEventSetWithJavaThread_accepted hacc threads javaThreadId attach)
        (fun hrej => (createAttached_rejected hrej threads javaThreadId attach).1) h hlive
    | createAttachedEventSetWithNativeThread nativeThreadId args o attach =>
      exact createAttached_frame
        (fun p => createAttachedEventSetWithNativeThread p a nativeThreadId args o attach) rfl
        (fun hacc => createAttachedEventSetWithNativeThread_accepted hacc nativeThreadId attach)
        (fun hrej => (createAttached_rejected hrej .empty nativeThreadId attach).2) h hlive
    | destroyEventSet jid =>
      have hne : id ≠ jid := fun heq => hid (List.mem_singleton.mpr heq)
      obtain rfl : (destroyEventSet a jid).1 = a' := (Prod.mk.inj (Except.ok.inj h)).1
      cases hc : a.validConfig jid with
      | none => rw [destroyEventSet_invalid hc]
      | some config =>
        obtain ⟨a₁, heq, htable⟩ := destroyEventSet_valid hc
        rw [heq, htable, if_neg hne]
    | getResults jid =>
      obtain ⟨result, -, heq⟩ := except_bind_ok.mp h
      rw [(Prod.mk.inj (Except.ok.inj heq)).1]
    | getRawResults jid =>
      obtain ⟨result, -, heq⟩ := except_bind_ok.mp h
      rw [(Prod.mk.inj (Except.ok.inj heq)).1]
    | start => cases hcalls
    | stop => cases hcalls
    | sample => cases hcalls
    | reset => cases hcalls

end Frame

theorem step_on_dead (hasPapi : Bool) {a : Agent} {id : ℤ} (hc : a.validConfig id = none)
    (call : SetCall) : ∃ a', a.step hasPapi (call.on id) = .ok (a', .thrown .invalidEventSetId) ∧
      a'.validConfig = a.validConfig := by
  have hstep : a.step hasPapi (call.on id) =
      (withIds a [(id, call)] >>= fun x => .ok (x.1, Response.ofUnit x.2)) := by
    cases call <;> rfl
  have hvalid : Agent.validConfig { a with ledger := (a.ledger.acquire .intArray).2 } id = none :=
    hc
  rw [hstep, withIds, if_neg (by simp)]
  dsimp only
  rw [forEachEventset, hvalid]
  exact ⟨_, rfl, rfl⟩

def ownLifeStep (life : Option Lifetime) (c : NativeCall) : Option Lifetime :=
  match c.caller with
  | .client => life
  | .benchmark _ =>
    match c.call, c.response with
    | .createEventSet args o, .eventSet _ => some ⟨args, o.toSetupOutcomes, []⟩
    | .destroyEventSet _, .done => none
    | call, .done => life.map fun l =>
        { l with calls := l.calls ++ (call.setCalls.getD []).map Prod.snd }
    | _, _ => life

/-- The lifetime of the event set that `Benchmark` has; the calls of others do not count. -/
def ownLife (trace : List NativeCall) : Option Lifetime := trace.foldl ownLifeStep none

def ClientsNameOwn (hasPapi : Bool) (actions : List BenchmarkAction) : Prop :=
  ∀ before call after s, actions = before ++ .client call :: after →
    benchmarkRun hasPapi before = .ok s →
    ∀ id ∈ call.ids, ∀ n, owner s.trace id ≠ some (.benchmark n)

theorem ClientsNameOwn.destroyOwn {hasPapi : Bool} {actions : List BenchmarkAction}
    (h : ClientsNameOwn hasPapi actions) : ClientsDestroyOwn hasPapi actions :=
  fun before jid after s hsplit hrun => h before _ after s hsplit hrun jid List.mem_cons_self

/-- `Benchmark` has an event set exactly if its calls say so, and the event set has been created
and used by these calls alone. -/
structure BenchmarkState.Isolated (hasPapi : Bool) (s : BenchmarkState) : Prop where
  unset : s.defaultEventSet = -1 ↔ ownLife s.trace = none
  alone : ∀ l, ownLife s.trace = some l → 0 < l.args.jmeasurements * 2 ∧
    ∃ config₀ config, Created hasPapi l.args l.outcomes l.args.size config₀ ∧
      l.calls.foldlM SetCall.apply config₀ = .ok config ∧
      (l.config hasPapi).map BenchmarkConfiguration.view = .ok config.view ∧
      s.agent.validConfig s.defaultEventSet = some config

section Own

variable {hasPapi : Bool} {s s' : BenchmarkState}

theorem ownLife_snoc (trace : List NativeCall) (c : NativeCall) :
    ownLife (trace ++ [c]) = ownLifeStep (ownLife trace) c := by
  rw [ownLife, List.foldl_append]
  rfl

theorem BenchmarkState.Isolated.init (h : s.Isolated hasPapi) (hinv : s.Inv) :
    s.init.Isolated hasPapi := by
  unfold BenchmarkState.init
  split_ifs with hset
  · obtain ⟨-, hcurrent⟩ := hinv.current hset
    have hlive : (s.agent.validConfig s.defaultEventSet).isSome = true := by
      rw [hinv.owners, hcurrent]
      rfl
    obtain ⟨config, hconfig⟩ := Option.isSome_iff_exists.mp hlive
    obtain ⟨agent, hdestroy, -⟩ := destroyEventSet_valid hconfig
    rw [hdestroy]
    dsimp only [record]
    constructor
    · rw [ownLife_snoc]
      exact iff_of_true rfl rfl
    · intro l hl
      rw [ownLife_snoc] at hl
      cases hl
  · exact ⟨h.unset, h.alone⟩

theorem BenchmarkState.Isolated.initCreate (h : s.Isolated hasPapi) (hinv : s.Inv)
    (hrunning : s.initializing = true) (args : CreateArgs) (o : CreateOutcomes) :
    (s.initCreate hasPapi args o).Isolated hasPapi := by
  have hunset := (hinv.initializing hrunning).1
  have hnone := h.unset.mp hunset
  unfold BenchmarkState.initCreate
  rcases hcreate : createEventSet hasPapi s.agent args o with ⟨agent, e | id⟩
  · dsimp only [record]
    constructor
    · rw [ownLife_snoc]
      exact iff_of_true hunset hnone
    · intro l hl
      rw [ownLife_snoc] at hl
      exact absurd (hl.symm.trans hnone) (Option.some_ne_none l)
  · obtain ⟨hacc, hid, config, hc, hcreated, -⟩ := createEventSet_created hcreate
    have hview : config.view = (Lifetime.start hasPapi ⟨args, o.toSetupOutcomes, []⟩).view := by
      obtain ⟨a₁, config₁, heq, -, htable, hview⟩ := createEventSet_accepted hacc
      obtain ⟨rfl, -⟩ := Prod.mk.inj (hcreate.symm.trans heq)
      rw [hid, htable, if_pos rfl] at hc
      rw [← Option.some.inj hc]
      exact hview _ _
    dsimp only [record]
    constructor
    · rw [ownLife_snoc]
      refine iff_of_false (fun hneg : id = -1 => ?_) (Option.some_ne_none _)
      omega
    · intro l hl
      rw [ownLife_snoc] at hl
      obtain rfl : ⟨args, o.toSetupOutcomes, []⟩ = l := Option.some.inj hl
      exact ⟨hacc.measurements, config, config, hcreated, rfl, congrArg Except.ok hview.symm, hc⟩

theorem BenchmarkState.Isolated.serve (h : s.Isolated hasPapi) {n : ℕ} (call : SetCall)
    (hstep : s.native hasPapi (.benchmark n) (call.on s.defaultEventSet) = .ok s') :
    s'.Isolated hasPapi := by
  obtain ⟨⟨agent, response⟩, hresponse, hs'⟩ := except_bind_ok.mp hstep
  obtain rfl := Except.ok.inj hs'
  cases hl : ownLife s.trace with
  | none =>
    have hdead : s.agent.validConfig s.defaultEventSet = none := by
      rw [h.unset.mpr hl]
      rfl
    obtain ⟨a', hthrown, htable⟩ := step_on_dead hasPapi hdead call
    rw [hthrown] at hresponse
    cases hresponse
    have hlife : ownLife (s.record agent (.benchmark n) (call.on s.defaultEventSet)
        (.thrown .invalidEventSetId)).trace = ownLife s.trace := by
      rw [record, ownLife_snoc]
      cases call <;> rfl
    constructor
    · rw [hlife]
      exact h.unset
    · intro l hl'
      exact absurd (hl.symm.trans (hlife.symm.trans hl')) (Option.some_ne_none _).symm
  | some l =>
    obtain ⟨hmeas, config₀, config, hcreated, hfold, hview, hc⟩ := h.alone l hl
    rcases step_on hasPapi hc call with ⟨config', a', happly, hserved, htable⟩ | ⟨f, -, hfail⟩
    · rw [hserved] at hresponse
      cases hresponse
      have hlife : ownLife (s.record agent (.benchmark n) (call.on s.defaultEventSet) .done).trace =
          some { l with calls := l.calls ++ [call] } := by
        rw [record, ownLife_snoc, hl]
        cases call <;> rfl
      constructor
      · rw [hlife]
        refine iff_of_false (fun hunset => ?_) (Option.some_ne_none _)
        exact absurd ((h.unset.mp hunset).symm.trans hl) (Option.some_ne_none _).symm
      · intro l' hl'
        obtain rfl := Option.some.inj (hlife.symm.trans hl')
        have hone : [call].foldlM SetCall.apply config = .ok config' := by
          rw [List.foldlM_cons, happly]
          rfl
        refine ⟨hmeas, config₀, config', hcreated, ?_, Lifetime.config_served hview hone, ?_⟩
        · rw [List.foldlM_append, hfold]
          exact hone
        · exact (htable _).trans (if_pos rfl)
    · rw [hfail] at hresponse
      cases hresponse

theorem BenchmarkState.Isolated.step {action : BenchmarkAction} (h : s.Isolated hasPapi)
    (hinv : s.Inv) (hnames : ∀ call, action = .client call →
      ∀ id ∈ call.ids, ∀ n, owner s.trace id ≠ some (.benchmark n))
    (hstep : s.step hasPapi action = .ok s') : s'.Isolated hasPapi := by
  cases action with
  | init =>
    obtain rfl := Except.ok.inj hstep
    split_ifs with hrunning
    · exact h
    · exact h.init hinv
  | initCreate args o =>
    obtain rfl := Except.ok.inj hstep
    split_ifs with hrunning
    · exact h.initCreate hinv hrunning args o
    · exact h
  | start r => exact h.serve (.start r) hstep
  | stop r => exact h.serve (.stop r) hstep
  | reset => exact h.serve .reset hstep
  | getResults =>
    obtain ⟨⟨agent, response⟩, hresponse, hs'⟩ := except_bind_ok.mp hstep
    obtain rfl := Except.ok.inj hs'
    obtain ⟨result, -, heq⟩ := except_bind_ok.mp hresponse
    obtain ⟨rfl, rfl⟩ := Prod.mk.inj (Except.ok.inj heq)
    have hlife : ownLife (s.record s.agent (.benchmark s.initResults.length)
        (.getResults s.defaultEventSet) (.ofResults result)).trace = ownLife s.trace := by
      rw [record, ownLife_snoc]
      cases result <;> rfl
    exact ⟨hlife ▸ h.unset, hlife ▸ h.alone⟩
  | client call =>
    obtain ⟨⟨agent, response⟩, hresponse, hs'⟩ := except_bind_ok.mp hstep
    obtain rfl := Except.ok.inj hs'
    have hlife : ownLife (s.record agent .client call response).trace = ownLife s.trace := by
      rw [record, ownLife_snoc]
      rfl
    constructor
    · rw [hlife]
      exact h.unset
    · intro l hl
      rw [hlife] at hl
      obtain ⟨hmeas, config₀, config, hcreated, hfold, hview, hc⟩ := h.alone l hl
      refine ⟨hmeas, config₀, config, hcreated, hfold, hview, ?_⟩
      have hset : s.defaultEventSet ≠ -1 := by
        rw [Ne, h.unset, hl]
        exact Option.some_ne_none l
      have hid : s.defaultEventSet ∉ call.ids := fun hmem =>
        hnames call rfl _ hmem _ (hinv.current hset).2
      exact (step_frame hresponse (by rw [hc]; rfl) hid).trans hc

theorem benchmarkRun_isolated {actions before after : List BenchmarkAction}
    (hown : ClientsNameOwn hasPapi actions) (hsplit : actions = before ++ after)
    (hrun : benchmarkRun hasPapi before = .ok s) : s.Isolated hasPapi := by
  refine foldlM_prefix_invariant (P := BenchmarkState.Isolated hasPapi) ?_ ?_ hsplit hrun
  · exact ⟨iff_of_true rfl rfl, nofun⟩
  · intro before action after s₁ s' hsplit hbefore hisolated hstep
    refine hisolated.step (benchmarkRun_inv hown.destroyOwn hsplit hbefore) ?_ hstep
    rintro call rfl
    exact hown before call after s₁ hsplit hbefore

/-- What `Benchmark.getResults` returns is determined by the calls of `Benchmark` and what they
read: in any two runs in which these are the same it is the same, whatever other clients do with
their own event sets. -/
theorem benchmark_noninterference {s' : BenchmarkState} {actions actions' : List BenchmarkAction}
    (hown : ClientsNameOwn hasPapi actions) (hown' : ClientsNameOwn hasPapi actions')
    (hrun : benchmarkRun hasPapi actions = .ok s) (hrun' : benchmarkRun hasPapi actions' = .ok s')
    (hsame : ownLife s.trace = ownLife s'.trace) :
    getResults s.agent s.defaultEventSet = getResults s'.agent s'.defaultEventSet ∧
      getRawResults s.agent s.defaultEventSet = getRawResults s'.agent s'.defaultEventSet := by
  have h := benchmarkRun_isolated hown (List.append_nil _).symm hrun
  have h' := benchmarkRun_isolated hown' (List.append_nil _).symm hrun'
  apply getResults_looks
  cases hl : ownLife s.trace with
  | none =>
    rw [h.unset.mpr hl, h'.unset.mpr (hsame.symm.trans hl)]
    rfl
  | some l =>
    obtain ⟨-, -, config, -, -, hview, hc⟩ := h.alone l hl
    obtain ⟨-, -, config', -, -, hview', hc'⟩ := h'.alone l (hsame.symm.trans hl)
    rw [hc, hc', Option.map_some, Option.map_some, Except.ok.inj (hview.symm.trans hview')]

/-- A client starts its own event set in the middle of a measurement of `Benchmark`. -/
def sharedActions : List BenchmarkAction :=
  [.client (.createEventSet (.wallclock 2) .success), .init, .initCreate (.wallclock 1) .success,
    .start (.at 1 0), .client (.start [(0, .at 2 0)]), .stop (.at 3 0)]

theorem clientsNameOwn_shared : ClientsNameOwn false sharedActions := by
  intro before call after s hsplit hbefore id hid n
  simp [sharedActions, List.cons_eq_append_iff] at hsplit
  obtain ⟨-, rfl, -⟩ | ⟨rfl, rfl, -⟩ := hsplit
  · cases hid
  · obtain rfl : id = 0 := List.mem_singleton.mp hid
    have howner : (benchmarkRun false [.client (.createEventSet (.wallclock 2) .success), .init,
        .initCreate (.wallclock 1) .success, .start (.at 1 0)]).map
          (fun s => owner s.trace 0) = .ok (some .client) := rfl
    rw [hbefore] at howner
    rw [show owner s.trace 0 = some .client from Except.ok.inj howner]
    nofun

theorem benchmark_noninterference_shared : ∃ s s',
    benchmarkRun false [.init, .initCreate (.wallclock 1) .success, .start (.at 1 0),
      .stop (.at 3 0)] = .ok s ∧ benchmarkRun false sharedActions = .ok s' ∧
    getResults s.agent s.defaultEventSet = getResults s'.agent s'.defaultEventSet := by
  obtain ⟨s, hrun, hlife⟩ : ∃ s, benchmarkRun false [.init, .initCreate (.wallclock 1) .success,
        .start (.at 1 0), .stop (.at 3 0)] = .ok s ∧
      ownLife s.trace = some ⟨.wallclock 1, CreateOutcomes.success.toSetupOutcomes,
        [.start (.at 1 0), .stop (.at 3 0)]⟩ := ⟨_, rfl, rfl⟩
  obtain ⟨s', hrun', hlife'⟩ : ∃ s, benchmarkRun false sharedActions = .ok s ∧
      ownLife s.trace = some ⟨.wallclock 1, CreateOutcomes.success.toSetupOutcomes,
        [.start (.at 1 0), .stop (.at 3 0)]⟩ := ⟨_, rfl, rfl⟩
  have hown : ClientsNameOwn false [.init, .initCreate (.wallclock 1) .success,
      .start (.at 1 0), .stop (.at 3 0)] := by
    intro before call after s hsplit
    simp [List.cons_eq_append_iff] at hsplit
  exact ⟨s, s', hrun, hrun', (benchmark_noninterference hown clientsNameOwn_shared hrun hrun'
    (hlife.trans hlife'.symm)).1⟩

/-- Whatever other clients do with their own event sets in between, after `Benchmark.init` for
`N` measurements of supported names, none of which is one of PAPI and whose copies fit in the
memory, and any rounds of `start` and `stop` between `reset`s,
`Benchmark.getResults` returns the names and the rows of the first `N` measurements since the
last reset, or of the first `N - 1` and the last if there were more. -/
theorem benchmark_getResults_isolated {actions : List BenchmarkAction}
    (hown : ClientsNameOwn hasPapi actions) (hrun : benchmarkRun hasPapi actions = .ok s)
    {l : Lifetime} (hl : ownLife s.trace = some l) (hN : 1 ≤ l.args.jmeasurements)
    (hsup : ∀ name ∈ l.args.jeventNames, quantityOf name ≠ none)
    (hstrdup : ∀ i, l.outcomes.strdup i = true) {earlier : List (List (Reading × Reading))}
    {pairs : List (Reading × Reading)} (hcalls : l.calls = loopHistory earlier pairs) :
    getResults s.agent s.defaultEventSet = .ok (.ok ⟨l.args.jeventNames.map some,
      (keepLast l.args.jmeasurements.toInt.toNat pairs).map fun p =>
        l.args.jeventNames.map (columnOf p)⟩) := by
  obtain ⟨hmeas, config₀, config, hcreated, hfold, -, hc⟩ :=
    (benchmarkRun_isolated hown (List.append_nil _).symm hrun).alone l hl
  have hn : 1 ≤ l.args.jmeasurements.toInt.toNat := by
    have : 1 ≤ l.args.jmeasurements.toInt := Int32.le_iff_toInt_le.mp hN
    omega
  have hsize : config₀.dataSize = 2 * l.args.jmeasurements.toInt.toNat :=
    hcreated.dataSize.trans ((size_spec hmeas).2.2 hN)
  obtain ⟨config', writer, rc2, hfold', hinv, hrec, hs⟩ :=
    hcreated.foldlM_loopHistory hmeas hn hsize earlier pairs
  obtain rfl : config' = config := by
    rw [hcalls] at hfold
    exact Except.ok.inj (hfold'.symm.trans hfold)
  rw [getResults, hc]
  dsimp only
  rw [hcreated.getResultsOf_loop hsup hstrdup hfold' hinv hrec hs]
  rfl

theorem benchmark_getResults_isolated_shared : ∃ s, benchmarkRun false sharedActions = .ok s ∧
    getResults s.agent s.defaultEventSet =
      .ok (.ok ⟨[some "SYS:wallclock-time"], [[2000000000]]⟩) := by
  obtain ⟨s, hrun, hlife⟩ : ∃ s, benchmarkRun false sharedActions = .ok s ∧
      ownLife s.trace = some ⟨.wallclock 1, CreateOutcomes.success.toSetupOutcomes,
        [.start (.at 1 0), .stop (.at 3 0)]⟩ := ⟨_, rfl, rfl⟩
  have hrows : ((keepLast 1 [(Reading.at 1 0, Reading.at 3 0)]).map fun p =>
      ["SYS:wallclock-time"].map (columnOf p)) = [[2000000000]] := by decide
  rw [← hrows]
  have hcalls : [.start (.at 1 0), .stop (.at 3 0)] =
      loopHistory [] [(Reading.at 1 0, Reading.at 3 0)] := rfl
  exact ⟨s, hrun, benchmark_getResults_isolated clientsNameOwn_shared hrun hlife (by decide)
    (by decide) (fun _ => rfl) hcalls⟩

end Own

end UbenchAgent
