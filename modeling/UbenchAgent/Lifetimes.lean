import UbenchAgent.Table

/-!
# Event sets as separate machines

The lifetime of an event set is what its creation and the calls that name it say since
then, read off the trace.  The table is a family of machines, one for each lifetime: an id
names an event set exactly while it has a lifetime, and as long as nothing throws its
configuration is what its lifetime makes it.
-/

namespace UbenchAgent

def Call.detached : Call → Bool
  | .createAttachedEventSetWithJavaThread .. => false
  | .createAttachedEventSetWithNativeThread .. => false
  | _ => true

/-- The loop of `start`, `stop`, `sample` and `reset`: what each id is to go through. -/
def Call.setCalls : Call → Option (List (ℤ × SetCall))
  | .start jids => some (jids.map fun x => (x.1, .start x.2))
  | .stop jids => some (jids.map fun x => (x.1, .stop x.2))
  | .sample juserId jids => some (jids.map fun x => (x.1, .sample juserId x.2))
  | .reset jids => some (jids.map fun id => (id, .reset))
  | _ => none

def Call.ids : Call → List ℤ
  | .destroyEventSet jid => [jid]
  | .getResults jid => [jid]
  | .getRawResults jid => [jid]
  | call => (call.setCalls.getD []).map Prod.fst

theorem Call.ids_of_setCalls {call : Call} {calls : List (ℤ × SetCall)}
    (h : call.setCalls = some calls) : call.ids = calls.map Prod.fst := by
  cases call <;> simp only [Call.setCalls, Option.some.injEq, reduceCtorEq] at h <;> subst h <;> rfl

theorem step_of_setCalls {hasPapi : Bool} {a : Agent} {call : Call} {calls : List (ℤ × SetCall)}
    (h : call.setCalls = some calls) :
    a.step hasPapi call = withIds a calls >>= fun x => .ok (x.1, Response.ofUnit x.2) := by
  cases call <;> simp only [Call.setCalls, Option.some.injEq, reduceCtorEq] at h <;> subst h <;> rfl

/-- An event set since its creation: the arguments, what the setup got from the allocator
and from PAPI, and the calls that named it. -/
structure Lifetime where
  args : CreateArgs
  outcomes : SetupOutcomes
  calls : List SetCall

def lifetimeStep (id : ℤ) (life : Option Lifetime) : Call × Response → Option Lifetime
  | (.createEventSet args o, .eventSet id') =>
    if id = id' then some ⟨args, o.toSetupOutcomes, []⟩ else life
  | (.destroyEventSet jid, .done) => if id = jid then none else life
  | (call, .done) =>
    life.map fun l => { l with calls := l.calls ++ callsOn id (call.setCalls.getD []) }
  | _ => life

/-- The lifetime of the event set that `id` names at the end of a trace; there is none if
it was not created, or was destroyed since. -/
def lifetime (tr : List (Call × Response)) (id : ℤ) : Option Lifetime :=
  tr.foldl (lifetimeStep id) none

def Live (tr : List (Call × Response)) (id : ℤ) : Prop := (lifetime tr id).isSome = true

def NothingThrown (tr : List (Call × Response)) : Prop :=
  ∀ response ∈ tr.map Prod.snd, ∀ e, response ≠ .thrown e

theorem lifetime_snoc (tr : List (Call × Response)) (x : Call × Response) (id : ℤ) :
    lifetime (tr ++ [x]) id = lifetimeStep id (lifetime tr id) x := by
  rw [lifetime, List.foldl_append]
  rfl

theorem lifetimeStep_served {call : Call} {calls : List (ℤ × SetCall)}
    (h : call.setCalls = some calls) (id : ℤ) (life : Option Lifetime) :
    lifetimeStep id life (call, .done) =
      life.map fun l => { l with calls := l.calls ++ callsOn id calls } := by
  cases call <;> simp only [Call.setCalls, Option.some.injEq, reduceCtorEq] at h <;> subst h <;> rfl

theorem lifetimeStep_thrown (call : Call) (e : MeasurementException) (id : ℤ)
    (life : Option Lifetime) : lifetimeStep id life (call, .thrown e) = life := by
  cases call <;> rfl

/-- The configuration that creation leaves in a slot that was never used. -/
def Lifetime.start (hasPapi : Bool) (l : Lifetime) : BenchmarkConfiguration :=
  (configure hasPapi l.outcomes l.args.size l.args CreateOutcomes.success.fresh .empty).config

/-- One event set as a machine of its own: creation, then each of its calls. -/
def Lifetime.config (hasPapi : Bool) (l : Lifetime) : Except Fault BenchmarkConfiguration :=
  l.calls.foldlM SetCall.apply (l.start hasPapi)

/-- What a call does to the table, by the way in which it ends. -/
inductive TableStep (hasPapi : Bool) (a a' : Agent) : Call → Response → Prop
  | created {args : CreateArgs} {o : CreateOutcomes} {config : BenchmarkConfiguration}
      (view : config.view = (Lifetime.start hasPapi ⟨args, o.toSetupOutcomes, []⟩).view)
      (table : ∀ id, a'.validConfig id =
        if id = a.freeSlot then some config else a.validConfig id) :
      TableStep hasPapi a a' (.createEventSet args o) (.eventSet a.freeSlot)
  | rejected {args : CreateArgs} {o : CreateOutcomes} {e : MeasurementException}
      (valid : e ≠ .invalidEventSetId) (table : ∀ id, a'.validConfig id = a.validConfig id) :
      TableStep hasPapi a a' (.createEventSet args o) (.thrown e)
  | destroyed {jid : ℤ} (live : (a.validConfig jid).isSome = true)
      (table : ∀ id, a'.validConfig id = if id = jid then none else a.validConfig id) :
      TableStep hasPapi a a' (.destroyEventSet jid) .done
  | served {call : Call} {calls : List (ℤ × SetCall)} (set : call.setCalls = some calls)
      (live : ∀ id ∈ call.ids, (a.validConfig id).isSome = true)
      (kept : ∀ id, (a'.validConfig id).isSome = (a.validConfig id).isSome)
      (table : ∀ id config, a.validConfig id = some config →
        ∃ config', (callsOn id calls).foldlM SetCall.apply config = .ok config' ∧
          a'.validConfig id = some config') :
      TableStep hasPapi a a' call .done
  | read {call : Call} {jid : ℤ} {data : BenchmarkResults} (ids : call.ids = [jid])
      (live : (a.validConfig jid).isSome = true)
      (table : ∀ id, a'.validConfig id = a.validConfig id) :
      TableStep hasPapi a a' call (.results data)
  | invalid {call : Call} {id : ℤ} (mem : id ∈ call.ids) (dead : a.validConfig id = none)
      (kept : ∀ id, (a'.validConfig id).isSome = (a.validConfig id).isSome) :
      TableStep hasPapi a a' call (.thrown .invalidEventSetId)

section Step

variable {hasPapi : Bool} {a a' : Agent}

theorem TableStep.createEventSet (args : CreateArgs) (o : CreateOutcomes) :
    TableStep hasPapi a (createEventSet hasPapi a args o).1 (.createEventSet args o)
      (.ofId (createEventSet hasPapi a args o).2) := by
  by_cases hacc : Accepted hasPapi a args o
  · obtain ⟨a₁, config, heq, -, htable, hview⟩ := createEventSet_accepted hacc
    rw [heq]
    exact .created (hview _ _) htable
  · have hvalid := createEventSet_valid hasPapi a args o
    obtain ⟨a₁, e, heq, htable⟩ := createEventSet_rejected hacc
    rw [heq] at hvalid ⊢
    exact .rejected (fun he => hvalid (he ▸ rfl)) htable

theorem TableStep.destroyEventSet (jid : ℤ) :
    TableStep hasPapi a (destroyEventSet a jid).1 (.destroyEventSet jid)
      (.ofUnit (destroyEventSet a jid).2) := by
  cases hc : a.validConfig jid with
  | none =>
    rw [destroyEventSet_invalid hc]
    exact .invalid List.mem_cons_self hc fun _ => rfl
  | some config =>
    obtain ⟨a₁, heq, htable⟩ := destroyEventSet_valid hc
    rw [heq]
    exact .destroyed (by rw [hc]; rfl) htable

theorem TableStep.withIds {call : Call} {calls : List (ℤ × SetCall)}
    {result : Except MeasurementException Unit} (hcalls : call.setCalls = some calls)
    (h : withIds a calls = .ok (a', result)) :
    TableStep hasPapi a a' call (.ofUnit result) := by
  obtain ⟨a₁, hloop, htable⟩ := withIds_ok h
  obtain ⟨hkept, hresult⟩ := forEachEventset_result hloop
  rw [← htable] at hkept
  rcases hresult with ⟨rfl, hlive⟩ | ⟨rfl, x, hx, hdead⟩
  · refine .served hcalls (fun id hid => ?_) hkept fun id config hc => ?_
    · rw [Call.ids_of_setCalls hcalls] at hid
      obtain ⟨x, hx, rfl⟩ := List.mem_map.mp hid
      exact hlive x hx
    · rw [htable]
      exact forEachEventset_served hloop hc
  · have hmem : x.1 ∈ call.ids := by
      rw [Call.ids_of_setCalls hcalls]
      exact List.mem_map_of_mem hx
    exact .invalid hmem hdead hkept

theorem TableStep.results {call : Call} {jid : ℤ}
    {f : BenchmarkConfiguration → Except Fault BenchmarkResults}
    {read : Except Fault (Except MeasurementException BenchmarkResults)} {response : Response}
    (hids : call.ids = [jid])
    (hread : read = match a.validConfig jid with
      | none => .ok (.error .invalidEventSetId)
      | some config => f config >>= fun results => .ok (.ok results))
    (h : (read >>= fun result => .ok (a, Response.ofResults result)) = .ok (a', response)) :
    TableStep hasPapi a a' call response := by
  obtain ⟨result, hresult, h⟩ := except_bind_ok.mp h
  obtain ⟨rfl, rfl⟩ : a = a' ∧ Response.ofResults result = response := by simpa using h
  rw [hread] at hresult
  cases hc : a.validConfig jid with
  | none =>
    rw [hc] at hresult
    cases hresult
    exact .invalid (hids ▸ List.mem_cons_self) hc fun _ => rfl
  | some config =>
    rw [hc] at hresult
    obtain ⟨data, -, hdata⟩ := except_bind_ok.mp hresult
    cases hdata
    exact .read hids (by rw [hc]; rfl) fun _ => rfl

theorem step_table {call : Call} {response : Response} (hdetached : call.detached = true)
    (h : a.step hasPapi call = .ok (a', response)) : TableStep hasPapi a a' call response := by
  cases hcalls : call.setCalls with
  | some calls =>
    rw [step_of_setCalls hcalls] at h
    obtain ⟨⟨a₁, result⟩, hwith, heq⟩ := except_bind_ok.mp h
    obtain ⟨rfl, rfl⟩ : a₁ = a' ∧ Response.ofUnit result = response := by simpa using heq
    exact .withIds hcalls hwith
  | none =>
    cases call with
    | createEventSet args o =>
      cases h
      exact .createEventSet args o
    | destroyEventSet jid =>
      cases h
      exact .destroyEventSet jid
    | getResults jid => exact .results (f := getResultsOf) rfl rfl h
    | getRawResults jid => exact .results (f := getRawResultsOf) rfl rfl h
    | createAttachedEventSetWithJavaThread => cases hdetached
    | createAttachedEventSetWithNativeThread => cases hdetached
    | start => cases hcalls
    | stop => cases hcalls
    | sample => cases hcalls
    | reset => cases hcalls

end Step

section Run

variable {hasPapi : Bool} {a a' : Agent} {tr : List (Call × Response)}

def TracksLive (tr : List (Call × Response)) (a : Agent) : Prop :=
  ∀ id, (a.validConfig id).isSome = (lifetime tr id).isSome

/-- Each live event set looks as its lifetime makes it. -/
def TracksLifetimes (hasPapi : Bool) (tr : List (Call × Response)) (a : Agent) : Prop :=
  ∀ id, (a.validConfig id).map (fun config => .ok config.view) =
    (lifetime tr id).map fun l => (l.config hasPapi).map BenchmarkConfiguration.view

theorem TracksLive.step {call : Call} {response : Response} (h : TracksLive tr a)
    (hstep : TableStep hasPapi a a' call response) :
    TracksLive (tr ++ [(call, response)]) a' := by
  intro id
  rw [lifetime_snoc]
  cases hstep with
  | created view table =>
    rw [table, lifetimeStep]
    split_ifs with hid
    · rfl
    · exact h id
  | rejected valid table =>
    rw [table, lifetimeStep_thrown]
    exact h id
  | destroyed live table =>
    rw [table, lifetimeStep]
    split_ifs with hid
    · rfl
    · exact h id
  | served set live kept table =>
    rw [kept, lifetimeStep_served set, Option.isSome_map]
    exact h id
  | read ids live table =>
    rw [table, h id]
    cases call <;> rfl
  | invalid mem dead kept =>
    rw [kept, lifetimeStep_thrown]
    exact h id

theorem Lifetime.config_served {l : Lifetime} {config config' : BenchmarkConfiguration}
    {calls : List SetCall}
    (h : (l.config hasPapi).map BenchmarkConfiguration.view = .ok config.view)
    (hrun : calls.foldlM SetCall.apply config = .ok config') :
    (Lifetime.config hasPapi { l with calls := l.calls ++ calls }).map
      BenchmarkConfiguration.view = .ok config'.view := by
  have hsplit : Lifetime.config hasPapi { l with calls := l.calls ++ calls } =
      l.config hasPapi >>= fun config => calls.foldlM SetCall.apply config :=
    List.foldlM_append
  rw [hsplit]
  cases hlife : l.config hasPapi with
  | error f =>
    rw [hlife] at h
    cases h
  | ok config₀ =>
    rw [hlife] at h
    have hview : config₀.view = config.view := by simpa [Except.map] using h
    rw [except_ok_bind, foldlM_apply_looks hview, hrun]
    rfl

theorem TracksLifetimes.step {call : Call} {response : Response}
    (h : TracksLifetimes hasPapi tr a) (hstep : TableStep hasPapi a a' call response)
    (hthrown : ∀ e, response ≠ .thrown e) :
    TracksLifetimes hasPapi (tr ++ [(call, response)]) a' := by
  intro id
  rw [lifetime_snoc]
  cases hstep with
  | created view table =>
    rw [table, lifetimeStep]
    split_ifs with hid
    · exact congrArg (fun config => some (Except.ok config)) view
    · exact h id
  | rejected valid table => exact absurd rfl (hthrown _)
  | destroyed live table =>
    rw [table, lifetimeStep]
    split_ifs with hid
    · rfl
    · exact h id
  | served set live kept table =>
    rw [lifetimeStep_served set]
    have hid := h id
    cases hc : a.validConfig id with
    | none =>
      have hnone : a'.validConfig id = none := by
        rw [← Option.isNone_iff_eq_none, ← Option.isSome_eq_false_iff, kept, hc]
        rfl
      rw [hc, Option.map_none, eq_comm, Option.map_eq_none_iff] at hid
      rw [hnone, hid]
      rfl
    | some config =>
      obtain ⟨config', hrun, hc'⟩ := table id config hc
      rw [hc, Option.map_some, eq_comm, Option.map_eq_some_iff] at hid
      obtain ⟨l, hl, hconfig⟩ := hid
      rw [hc', hl]
      exact congrArg some (Lifetime.config_served hconfig hrun).symm
  | read ids live table =>
    rw [table, h id]
    cases call <;> rfl
  | invalid mem dead kept => exact absurd rfl (hthrown _)

/-- After a run from the start the ids that name an event set are those that are live. -/
theorem tracksLive_run {calls : List Call} (hrun : run (Agent.step hasPapi) .initial calls =
    .ok (a, tr)) (hdetached : ∀ call ∈ calls, call.detached = true) : TracksLive tr a := by
  rw [← run_actions hrun, List.forall_mem_map] at hdetached
  refine run_induction_of (Q := fun call _ => call.detached = true)
    (fun tr a call a' response hcall ih hstep => ih.step (step_table hcall hstep))
    (fun id => ?_) hrun hdetached
  rw [validConfig_initial]
  rfl

/-- After a run in which nothing threw each event set looks as its lifetime makes it. -/
theorem tracksLifetimes_run {calls : List Call} (hrun : run (Agent.step hasPapi) .initial calls =
    .ok (a, tr)) (hdetached : ∀ call ∈ calls, call.detached = true) (hnothing : NothingThrown tr) :
    TracksLifetimes hasPapi tr a := by
  rw [← run_actions hrun, List.forall_mem_map] at hdetached
  refine run_induction_of
    (Q := fun call response => call.detached = true ∧ ∀ e, response ≠ .thrown e)
    (fun tr a call a' response hcall ih hstep => ih.step (step_table hcall.1 hstep) hcall.2)
    (fun id => ?_) hrun fun x hx => ⟨hdetached x hx, hnothing x.2 (List.mem_map_of_mem hx)⟩
  rw [validConfig_initial]
  rfl

/-- A call complains about an id exactly if it names one that is not live. -/
theorem TableStep.thrown_iff {call : Call} {response : Response} (hlive : TracksLive tr a)
    (h : TableStep hasPapi a a' call response) :
    response = .thrown .invalidEventSetId ↔ ∃ id ∈ call.ids, ¬ Live tr id := by
  have hdead : ∀ {id}, Live tr id ↔ (a.validConfig id).isSome = true := by
    intro id
    rw [hlive, Live]
  simp only [hdead]
  cases h with
  | created view table => simp [Call.ids, Call.setCalls]
  | rejected valid table => simpa [Call.ids, Call.setCalls] using valid
  | destroyed live table =>
    refine iff_of_false (by simp) ?_
    rintro ⟨id, hid, hnot⟩
    exact hnot (List.mem_singleton.mp hid ▸ live)
  | served set live kept table =>
    refine iff_of_false (by simp) ?_
    rintro ⟨id, hid, hnot⟩
    exact hnot (live id hid)
  | read ids live table =>
    refine iff_of_false (by simp) ?_
    rintro ⟨id, hid, hnot⟩
    rw [ids] at hid
    exact hnot (List.mem_singleton.mp hid ▸ live)
  | invalid mem dead kept => exact iff_of_true rfl ⟨_, mem, by simp [dead]⟩

theorem getResults_looks {id id' : ℤ}
    (h : (a.validConfig id).map BenchmarkConfiguration.view =
      (a'.validConfig id').map BenchmarkConfiguration.view) :
    getResults a id = getResults a' id' ∧ getRawResults a id = getRawResults a' id' := by
  unfold getResults getRawResults
  cases hc : a.validConfig id with
  | none =>
    rw [hc, Option.map_none, eq_comm, Option.map_eq_none_iff] at h
    rw [h]
    exact ⟨rfl, rfl⟩
  | some config =>
    rw [hc, Option.map_some, eq_comm, Option.map_eq_some_iff] at h
    obtain ⟨config', hc', hview⟩ := h
    obtain ⟨used, owned, rfl⟩ := exists_of_view_eq hview
    rw [hc']
    exact ⟨rfl, rfl⟩

theorem TracksLifetimes.looks {tr' : List (Call × Response)} {id id' : ℤ}
    (h : TracksLifetimes hasPapi tr a) (h' : TracksLifetimes hasPapi tr' a')
    (hlife : lifetime tr id = lifetime tr' id') :
    (a.validConfig id).map BenchmarkConfiguration.view =
      (a'.validConfig id').map BenchmarkConfiguration.view := by
  have hsame := (h id).trans (hlife ▸ (h' id').symm)
  have hinj : Function.Injective (Except.ok : BenchmarkConfiguration → Except Fault _) :=
    fun _ _ h => by simpa using h
  refine Option.map_injective hinj ?_
  rw [Option.map_map, Option.map_map]
  exact hsame

/-- The table of event sets is a family of separate machines.  A creation returns an id
that is not live and makes it live; a call throws `Invalid event set id.` exactly if it
names an id that is not live; and if nothing threw, event sets of equal lifetimes, in two
runs or in one, have equal logs and equal results. -/
theorem eventsets_independent {calls : List Call}
    (hrun : run (Agent.step hasPapi) .initial calls = .ok (a, tr))
    (hdetached : ∀ call ∈ calls, call.detached = true) :
    (∀ args o a' id, a.step hasPapi (.createEventSet args o) = .ok (a', .eventSet id) →
      ¬ Live tr id ∧ ∀ id', (a'.validConfig id').isSome = true ↔ id' = id ∨ Live tr id') ∧
    (∀ call a' response, call.detached = true → a.step hasPapi call = .ok (a', response) →
      (response = .thrown .invalidEventSetId ↔ ∃ id ∈ call.ids, ¬ Live tr id)) ∧
    (∀ calls' a' tr', run (Agent.step hasPapi) .initial calls' = .ok (a', tr') →
      (∀ call ∈ calls', call.detached = true) → NothingThrown tr → NothingThrown tr' →
      ∀ id id', lifetime tr id = lifetime tr' id' →
        (a.validConfig id).map BenchmarkConfiguration.view =
          (a'.validConfig id').map BenchmarkConfiguration.view ∧
        getResults a id = getResults a' id' ∧ getRawResults a id = getRawResults a' id') := by
  have hlive := tracksLive_run hrun hdetached
  refine ⟨fun args o a' id hstep => ?_, fun call a' response hcall hstep =>
    (step_table hcall hstep).thrown_iff hlive, fun calls' a' tr' hrun' hdetached' hno hno' id id'
    hlife => ?_⟩
  · have htable := step_table rfl hstep
    cases htable with
    | created view table =>
      refine ⟨?_, fun id' => ?_⟩
      · rw [Live, ← hlive, validConfig_freeSlot]
        exact Bool.false_ne_true
      · rw [table, Live, ← hlive]
        split_ifs with hid
        · exact iff_of_true rfl (.inl hid)
        · exact ⟨.inr, fun h => h.resolve_left hid⟩
  · have hlooks := (tracksLifetimes_run hrun hdetached hno).looks
      (tracksLifetimes_run hrun' hdetached' hno') hlife
    exact ⟨hlooks, getResults_looks hlooks⟩

end Run

/-- The second event set in slot 0, started together with slot 1, has the results of a lone
one. -/
theorem eventsets_independent_recycled :
    ∃ a tr a' tr',
      run (Agent.step false) .initial [.createEventSet (.wallclock 2) .success,
        .createEventSet (.wallclock 1) .success, .destroyEventSet 0,
        .createEventSet (.wallclock 1) .success, .start [(1, .zero), (0, .zero)]] = .ok (a, tr) ∧
      run (Agent.step false) .initial [.createEventSet (.wallclock 1) .success,
        .start [(0, .zero)]] = .ok (a', tr') ∧
      getRawResults a 0 = getRawResults a' 0 := by
  obtain ⟨a, tr, hrun, hlife, hresponses⟩ : ∃ a tr,
      run (Agent.step false) .initial [.createEventSet (.wallclock 2) .success,
        .createEventSet (.wallclock 1) .success, .destroyEventSet 0,
        .createEventSet (.wallclock 1) .success, .start [(1, .zero), (0, .zero)]] = .ok (a, tr) ∧
      lifetime tr 0 = some ⟨.wallclock 1, CreateOutcomes.success.toSetupOutcomes,
        [.start .zero]⟩ ∧
      tr.map Prod.snd = [.eventSet 0, .eventSet 1, .done, .eventSet 0, .done] :=
    ⟨_, _, rfl, rfl, rfl⟩
  obtain ⟨a', tr', hrun', hlife', hresponses'⟩ : ∃ a tr,
      run (Agent.step false) .initial [.createEventSet (.wallclock 1) .success,
        .start [(0, .zero)]] = .ok (a, tr) ∧
      lifetime tr 0 = some ⟨.wallclock 1, CreateOutcomes.success.toSetupOutcomes,
        [.start .zero]⟩ ∧ tr.map Prod.snd = [.eventSet 0, .done] := ⟨_, _, rfl, rfl, rfl⟩
  have hno : NothingThrown tr := by simp [NothingThrown, hresponses]
  have hno' : NothingThrown tr' := by simp [NothingThrown, hresponses']
  exact ⟨a, tr, a', tr', hrun, hrun', ((eventsets_independent hrun (by simp [Call.detached])).2.2
    _ _ _ hrun' (by simp [Call.detached]) hno hno' 0 0 (hlife.trans hlife'.symm)).2.2⟩

end UbenchAgent
