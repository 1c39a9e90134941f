import UbenchAgent.Attached
import UbenchAgent.Batches
import UbenchAgent.Loop
import Mathlib.Data.List.TakeWhile
import Mathlib.Data.Option.Basic

/-!
# What an event set has gone through

A trace of answers tells for each id how its event set was created and which calls it has served
since then, also where calls throw and where event sets are attached to threads.
-/

namespace UbenchAgent

/-- What a call is to create.  Without an event of PAPI nothing is attached. -/
def Call.creates : Call → Option (CreateArgs × CreateOutcomes)
  | .createEventSet args o => some (args, o)
  | .createAttachedEventSetWithJavaThread _ _ args o _ => some (args, o)
  | .createAttachedEventSetWithNativeThread _ args o _ => some (args, o)
  | _ => none

/-- The calls in front of the first one whose id names nothing. -/
def frontOf (live : ℤ → Bool) (calls : List (ℤ × SetCall)) : List (ℤ × SetCall) :=
  calls.takeWhile fun x => live x.1

/-- A call with an array of ids, whether it throws or not, is served by the ids in front of the
first one that names nothing. -/
def historiesStep (t : ℤ → Option Lifetime) : Call × Response → ℤ → Option Lifetime
  | (call, .eventSet id) =>
    Function.update t id (call.creates.map fun x => ⟨x.1, x.2.toSetupOutcomes, []⟩)
  | (.destroyEventSet jid, .done) => Function.update t jid none
  | (call, _) => fun id => (t id).map fun l => { l with
      calls := l.calls ++ callsOn id (frontOf (fun id => (t id).isSome) (call.setCalls.getD [])) }

/-- The event sets at the end of a trace, each with its creation and all calls it has served. -/
def histories (tr : List (Call × Response)) : ℤ → Option Lifetime :=
  tr.foldl historiesStep fun _ => none

theorem frontOf_congr {live live' : ℤ → Bool} (h : ∀ id, live id = live' id)
    (calls : List (ℤ × SetCall)) : frontOf live calls = frontOf live' calls := by
  rw [funext h]

theorem frontOf_cons_of_pos {live : ℤ → Bool} {x : ℤ × SetCall} (h : live x.1 = true)
    (calls : List (ℤ × SetCall)) : frontOf live (x :: calls) = x :: frontOf live calls :=
  List.takeWhile_cons_of_pos h

theorem frontOf_of_live {live : ℤ → Bool} {calls : List (ℤ × SetCall)}
    (h : ∀ x ∈ calls, live x.1 = true) : frontOf live calls = calls :=
  List.takeWhile_eq_self_iff.mpr h

theorem frontOf_of_dead {live : ℤ → Bool} {done rest : List (ℤ × SetCall)} {x : ℤ × SetCall}
    (h : ∀ y ∈ done, live y.1 = true) (hx : live x.1 = false) :
    frontOf live (done ++ x :: rest) = done := by
  have hstop : ¬ (fun y : ℤ × SetCall => live y.1) x = true := Bool.eq_false_iff.mp hx
  have htail : (x :: rest).takeWhile (fun y => live y.1) = [] := List.takeWhile_cons_of_neg hstop
  rw [frontOf, List.takeWhile_append_of_pos h, htail, List.append_nil]

/-- The loop over the ids, however it ends, has served the calls in front of the first bad id. -/
theorem forEachEventset_front {a a' : Agent} {calls : List (ℤ × SetCall)}
    {result : Except MeasurementException Unit} (h : forEachEventset calls a = .ok (a', result)) :
    forEachEventset (frontOf (fun id => (a.validConfig id).isSome) calls) a = .ok (a', .ok ()) := by
  cases result with
  | ok u =>
    obtain ⟨-, hresult⟩ := forEachEventset_result h
    have hlive : ∀ x ∈ calls, (a.validConfig x.1).isSome = true :=
      (hresult.resolve_right fun hthrown => nomatch hthrown.1).2
    rw [frontOf_of_live hlive]
    exact h
  | error e =>
    obtain ⟨-, done, x, rest, rfl, hlive, hbad, hdone⟩ := forEachEventset_thrown h
    rw [frontOf_of_dead hlive (by rw [hbad]; rfl)]
    exact hdone

theorem Served.withLog {config : BenchmarkConfiguration} {event : EventInfo}
    {getter : EventGetterFunc} (h : Served config event getter) (data : List EventsSnapshot)
    (i : ℕ) (papiState : PapiState) : Served (config.withLog data i papiState) event getter :=
  ⟨h.opGet, h.opGetRaw, h.backend, h.uses, h.papiIndex⟩

/-- An event set when its creation returns, attached to a thread or not. -/
structure Fresh (args : CreateArgs) (config : BenchmarkConfiguration) : Prop where
  inv : LogInv config
  empty : config.dataIndex = 0
  size : config.dataSize = args.size
  served : EventsServed config
  papiRc2 : ∀ (i : ℕ) s, config.data[i]? = some s → s.papiRc2 = 0
  named : ∀ (j : ℕ) name q, args.jeventNames[j]? = some name → quantityOf name = some q →
    ∃ event, config.usedEvents[j]? = some event ∧ Served config event q.getter

section Fresh

variable {hasPapi : Bool} {args : CreateArgs} {config : BenchmarkConfiguration}

/-- A supported name is served by its getter, whatever the other names are. -/
theorem Created.servedAt {o : SetupOutcomes} {size : ℕ}
    (h : Created hasPapi args o size config) {j : ℕ} {name : String} {q : Quantity}
    (hname : args.jeventNames[j]? = some name) (hq : quantityOf name = some q) :
    ∃ event, config.usedEvents[j]? = some event ∧ Served config event q.getter := by
  obtain ⟨hj, hnamej⟩ := List.getElem?_eq_some_iff.mp hname
  have hi : j < args.jeventNames.zipIdx.length := by rwa [List.length_zipIdx]
  have hi' : j < config.usedEvents.length := h.stored.length_eq ▸ hi
  obtain ⟨index, heq⟩ := h.stored.get hi hi'
  have hnamed : (args.jeventNames.zipIdx.get ⟨j, hi⟩).1 = name := by
    rw [List.get_eq_getElem, List.getElem_zipIdx]
    exact hnamej
  rw [hnamed] at heq
  obtain ⟨getter, hserved⟩ := h.loop.served _ (List.get_mem _ ⟨j, hi'⟩)
  have hg : getter = q.getter := by
    have hopGet := hserved.opGet
    rw [heq] at hopGet
    exact Option.some.inj (hopGet.symm.trans (recognized_supported hasPapi o.papi hq).2.1)
  exact ⟨_, List.getElem?_eq_getElem hi', hg ▸ hserved⟩

theorem Created.fresh {o : SetupOutcomes} (h : Created hasPapi args o args.size config)
    (hmeas : 0 < args.jmeasurements * 2) : Fresh args config where
  inv := h.logInv hmeas
  empty := h.dataIndex
  size := h.dataSize
  served := h.loop.served
  papiRc2 i s hs := by
    rw [h.data] at hs
    rw [List.eq_of_mem_replicate (List.mem_of_getElem? hs)]
    rfl
  named j name q hname hq := h.servedAt hname hq

theorem Fresh.attach (h : Fresh args config) (papiState : PapiState) :
    Fresh args { config with papiState := papiState } where
  inv := ⟨h.inv.length_data, h.inv.two_le, h.inv.size_lt, h.inv.index_le⟩
  empty := h.empty
  size := h.size
  served := h.served.congr rfl rfl rfl
  papiRc2 := h.papiRc2
  named j name q hname hq := by
    obtain ⟨event, hevent, hserved⟩ := h.named j name q hname hq
    exact ⟨event, hevent, hserved.withLog config.data config.dataIndex papiState⟩

theorem Fresh.recorded {L : Type} (h : Fresh args config) :
    Recorded config (fun _ => (none : Option (L × SetCall))) (fun _ => 0) where
  inv := h.inv
  visible i hi := by
    rw [h.empty] at hi
    cases hi
  papiRc2 _ i s hs := h.papiRc2 i s hs
  agree _ _ _ _ hx := by cases hx
  writes _ _ hx := by cases hx

theorem Fresh.shows {L : Type} (h : Fresh args config) :
    Shows config (fun _ => (none : Option (L × SetCall))) [] :=
  ⟨h.empty, fun _ hi => by cases hi⟩

/-- Every call that creates and returns leaves a fresh event set. -/
theorem step_creates {a a' : Agent} {call : Call} {o : CreateOutcomes} {response : Response}
    (hcreates : call.creates = some (args, o))
    (hstep : a.step hasPapi call = .ok (a', response)) :
    ∃ result, response = .ofId result ∧ Creates (Fresh args) a a' result := by
  have hfresh : ∀ {hasPapi}, Accepted hasPapi a args o → ∀ config,
      Created hasPapi args o.toSetupOutcomes args.size config → Fresh args config :=
    fun hacc config hcreated => hcreated.fresh hacc.measurements
  cases call with
  | createEventSet args' o' =>
    obtain ⟨rfl, rfl⟩ := Prod.mk.inj (Option.some.inj hcreates)
    obtain ⟨rfl, rfl⟩ := Prod.mk.inj (Except.ok.inj hstep)
    exact ⟨_, rfl, createEventSet_creates hfresh⟩
  | createAttachedEventSetWithJavaThread threads javaThreadId args' o' attach =>
    obtain ⟨rfl, rfl⟩ := Prod.mk.inj (Option.some.inj hcreates)
    obtain ⟨⟨a₁, result⟩, hcreate, heq⟩ := except_bind_ok.mp hstep
    obtain ⟨rfl, rfl⟩ := Prod.mk.inj (Except.ok.inj heq)
    refine ⟨result, rfl, ?_⟩
    cases hasPapi with
    | false =>
      obtain ⟨rfl, rfl⟩ := Prod.mk.inj (Except.ok.inj hcreate)
      exact createEventSet_creates hfresh
    | true =>
      exact createAttachedEventSetWithJavaThread_creates
        (fun hacc config hcreated _ => hfresh hacc config hcreated)
        (fun hacc config hcreated _ _ => (hfresh hacc config hcreated).attach _) hcreate
  | createAttachedEventSetWithNativeThread nativeThreadId args' o' attach =>
    obtain ⟨rfl, rfl⟩ := Prod.mk.inj (Option.some.inj hcreates)
    obtain ⟨⟨a₁, result⟩, hcreate, heq⟩ := except_bind_ok.mp hstep
    obtain ⟨rfl, rfl⟩ := Prod.mk.inj (Except.ok.inj heq)
    refine ⟨result, rfl, ?_⟩
    cases hasPapi with
    | false =>
      obtain ⟨rfl, rfl⟩ := Prod.mk.inj (Except.ok.inj hcreate)
      exact createEventSet_creates hfresh
    | true =>
      exact createAttachedEventSetWithNativeThread_creates
        (fun hacc config hcreated _ => hfresh hacc config hcreated)
        (fun hacc config hcreated _ => (hfresh hacc config hcreated).attach _) hcreate
  | destroyEventSet => cases hcreates
  | start => cases hcreates
  | stop => cases hcreates
  | sample => cases hcreates
  | reset => cases hcreates
  | getResults => cases hcreates
  | getRawResults => cases hcreates

end Fresh

/-- The calls of the history lead to the configuration, from a fresh event set on. -/
def MadeBy (l : Lifetime) (config : BenchmarkConfiguration) : Prop :=
  ∃ config₀, Fresh l.args config₀ ∧ l.calls.foldlM SetCall.apply config₀ = .ok config

/-- The ids name the event sets that the trace tells of. -/
def Tracks (tr : List (Call × Response)) (a : Agent) : Prop :=
  ∀ id, Option.Rel MadeBy (histories tr id) (a.validConfig id)

section Tracks

variable {hasPapi : Bool} {tr : List (Call × Response)} {a a' : Agent} {call : Call}

theorem histories_snoc (tr : List (Call × Response)) (x : Call × Response) :
    histories (tr ++ [x]) = historiesStep (histories tr) x := by
  rw [histories, List.foldl_append]
  rfl

theorem historiesStep_setCalls {calls : List (ℤ × SetCall)} (h : call.setCalls = some calls)
    (t : ℤ → Option Lifetime) (result : Except MeasurementException Unit) (id : ℤ) :
    historiesStep t (call, .ofUnit result) id = (t id).map fun l => { l with
      calls := l.calls ++ callsOn id (frontOf (fun id => (t id).isSome) calls) } := by
  cases call <;> cases h <;> cases result <;> rfl

theorem historiesStep_other (hset : call.setCalls = none) (t : ℤ → Option Lifetime) :
    (∀ e, historiesStep t (call, .thrown e) = t) ∧
      ∀ results, historiesStep t (call, .results results) = t := by
  have hsame : (fun id => (t id).map fun l => { l with
      calls := l.calls ++ callsOn id (frontOf (fun id => (t id).isSome) (call.setCalls.getD [])) }) =
        t := by
    funext id
    rw [hset]
    cases t id with
    | none => rfl
    | some l =>
      obtain ⟨args, outcomes, calls⟩ := l
      exact congrArg (fun calls => some (Lifetime.mk args outcomes calls)) (List.append_nil calls)
  exact ⟨fun e => by cases call <;> exact hsame, fun results => by cases call <;> exact hsame⟩

theorem Tracks.isSome (h : Tracks tr a) (id : ℤ) :
    (histories tr id).isSome = (a.validConfig id).isSome := by
  have hid := h id
  generalize histories tr id = l at hid
  generalize a.validConfig id = config at hid
  cases hid <;> rfl

theorem Tracks.made (h : Tracks tr a) {id : ℤ} {l : Lifetime} (hl : histories tr id = some l) :
    ∃ config, a.validConfig id = some config ∧ MadeBy l config := by
  have hid := h id
  rw [hl] at hid
  generalize a.validConfig id = config at hid
  cases hid with
  | some hmade => exact ⟨_, rfl, hmade⟩

theorem Tracks.creates {args : CreateArgs} {o : CreateOutcomes}
    {result : Except MeasurementException ℤ} (h : Tracks tr a)
    (hcreates : call.creates = some (args, o)) (hnew : Creates (Fresh args) a a' result) :
    Tracks (tr ++ [(call, .ofId result)]) a' := by
  intro id'
  rw [histories_snoc]
  cases hnew with
  | created id config hfresh htable =>
    change Option.Rel MadeBy (Function.update (histories tr) id
      (call.creates.map fun x => ⟨x.1, x.2.toSetupOutcomes, []⟩) id') _
    rw [htable, hcreates]
    split_ifs with hid
    · rw [hid, Function.update_self]
      exact .some ⟨config, hfresh, rfl⟩
    · rw [Function.update_of_ne hid]
      exact h id'
  | thrown e hsame =>
    have hset : call.setCalls = none := by cases call <;> first | rfl | cases hcreates
    change Option.Rel MadeBy (historiesStep (histories tr) (call, .thrown e) id') _
    rw [(historiesStep_other hset (histories tr)).1, hsame]
    exact h id'

theorem Tracks.setCalls {calls : List (ℤ × SetCall)} {result : Except MeasurementException Unit}
    (h : Tracks tr a) (hcalls : call.setCalls = some calls)
    (hwith : withIds a calls = .ok (a', result)) : Tracks (tr ++ [(call, .ofUnit result)]) a' := by
  obtain ⟨a₁, hloop, htable⟩ := withIds_ok hwith
  have hkept : ∀ id, (a₁.validConfig id).isSome = (a.validConfig id).isSome :=
    (forEachEventset_result hloop).1
  have hfront := forEachEventset_front hloop
  rw [validConfig_withLedger, ← frontOf_congr h.isSome] at hfront
  intro id
  rw [histories_snoc, historiesStep_setCalls hcalls, htable]
  cases hl : histories tr id with
  | none =>
    have hdead : (a₁.validConfig id).isSome = false := by
      rw [hkept, ← h.isSome, hl]
      rfl
    rw [Option.not_isSome_iff_eq_none.mp (Bool.eq_false_iff.mp hdead)]
    exact .none
  | some l =>
    obtain ⟨config, hc, config₀, hfresh, hrun⟩ := h.made hl
    obtain ⟨config', hserved, hc'⟩ := forEachEventset_served hfront hc
    rw [hc']
    refine .some ⟨config₀, hfresh, ?_⟩
    rw [List.foldlM_append, hrun]
    exact hserved

theorem Tracks.destroyEventSet (h : Tracks tr a) (jid : ℤ) :
    Tracks (tr ++ [(.destroyEventSet jid, .ofUnit (destroyEventSet a jid).2)])
      (destroyEventSet a jid).1 := by
  intro id
  rw [histories_snoc]
  cases hc : a.validConfig jid with
  | none =>
    rw [destroyEventSet_invalid hc]
    change Option.Rel MadeBy
      (historiesStep (histories tr) (.destroyEventSet jid, .thrown .invalidEventSetId) id) _
    rw [(historiesStep_other rfl (histories tr)).1]
    exact h id
  | some config =>
    obtain ⟨a₁, heq, htable⟩ := destroyEventSet_valid hc
    rw [heq]
    change Option.Rel MadeBy (Function.update (histories tr) jid none id) _
    rw [htable]
    split_ifs with hid
    · rw [hid, Function.update_self]
      exact .none
    · rw [Function.update_of_ne hid]
      exact h id

theorem Tracks.shows {response : Response} (h : Tracks tr a) (hset : call.setCalls = none)
    (result : Except MeasurementException BenchmarkResults)
    (hresponse : response = .ofResults result) : Tracks (tr ++ [(call, response)]) a := by
  intro id
  rw [histories_snoc, hresponse]
  cases result with
  | error e =>
    change Option.Rel MadeBy (historiesStep (histories tr) (call, .thrown e) id) _
    rw [(historiesStep_other hset (histories tr)).1]
    exact h id
  | ok results =>
    change Option.Rel MadeBy (historiesStep (histories tr) (call, .results results) id) _
    rw [(historiesStep_other hset (histories tr)).2]
    exact h id

theorem Tracks.step {response : Response} (h : Tracks tr a)
    (hstep : a.step hasPapi call = .ok (a', response)) : Tracks (tr ++ [(call, response)]) a' := by
  cases hcreates : call.creates with
  | some x =>
    obtain ⟨result, rfl, hnew⟩ := step_creates hcreates hstep
    exact h.creates hcreates hnew
  | none =>
    cases hcalls : call.setCalls with
    | some calls =>
      rw [step_of_setCalls hcalls] at hstep
      obtain ⟨⟨a₁, result⟩, hwith, heq⟩ := except_bind_ok.mp hstep
      obtain ⟨rfl, rfl⟩ := Prod.mk.inj (Except.ok.inj heq)
      exact h.setCalls hcalls hwith
    | none =>
      cases call with
      | destroyEventSet jid =>
        cases hstep
        exact h.destroyEventSet jid
      | getResults jid =>
        obtain ⟨result, -, heq⟩ := except_bind_ok.mp hstep
        obtain ⟨rfl, rfl⟩ := Prod.mk.inj (Except.ok.inj heq)
        exact h.shows rfl result rfl
      | getRawResults jid =>
        obtain ⟨result, -, heq⟩ := except_bind_ok.mp hstep
        obtain ⟨rfl, rfl⟩ := Prod.mk.inj (Except.ok.inj heq)
        exact h.shows rfl result rfl
      | createEventSet => cases hcreates
      | createAttachedEventSetWithJavaThread => cases hcreates
      | createAttachedEventSetWithNativeThread => cases hcreates
      | start => cases hcalls
      | stop => cases hcalls
      | sample => cases hcalls
      | reset => cases hcalls

theorem Tracks.initial : Tracks [] .initial := by
  intro id
  rw [validConfig_initial]
  exact .none

/-- In every run the table holds what the trace tells of. -/
theorem tracks_run {calls : List Call} {a : Agent} {tr : List (Call × Response)}
    (hrun : run (Agent.step hasPapi) .initial calls = .ok (a, tr)) : Tracks tr a :=
  run_induction (fun _ _ _ _ _ h hstep => h.step hstep) [] .initial hrun

theorem setCalls_of_results {data : BenchmarkResults}
    (hstep : a.step hasPapi call = .ok (a', .results data)) : call.setCalls = none := by
  cases hcalls : call.setCalls with
  | none => rfl
  | some calls =>
    rw [step_of_setCalls hcalls] at hstep
    obtain ⟨⟨a₁, result⟩, -, heq⟩ := except_bind_ok.mp hstep
    cases result <;> cases heq

theorem Tracks.lifetimeStep_eq {response : Response} (h : Tracks tr a)
    (hdetached : call.detached = true) (hthrown : ∀ e, response ≠ .thrown e)
    (hstep : a.step hasPapi call = .ok (a', response)) (id : ℤ) :
    historiesStep (histories tr) (call, response) id =
      lifetimeStep id (histories tr id) (call, response) := by
  cases step_table hdetached hstep with
  | created view table => exact Function.update_apply (histories tr) _ _ id
  | rejected valid table => exact absurd rfl (hthrown _)
  | destroyed live table => exact Function.update_apply (histories tr) _ _ id
  | @served call calls set live kept table =>
    have hlive : ∀ x ∈ calls, (histories tr x.1).isSome = true := by
      intro x hx
      rw [h.isSome]
      apply live
      rw [Call.ids_of_setCalls set]
      exact List.mem_map_of_mem hx
    have hserved := historiesStep_setCalls set (histories tr) (.ok ()) id
    rw [frontOf_of_live hlive] at hserved
    exact hserved.trans (lifetimeStep_served set id _).symm
  | read ids live table =>
    rw [(historiesStep_other (setCalls_of_results hstep) (histories tr)).2]
    cases call <;> rfl
  | invalid mem dead kept => exact absurd rfl (hthrown _)

/-- Where nothing throws and nothing is attached, what an event set has gone through is its
lifetime. -/
theorem histories_eq_lifetime {calls : List Call}
    (hrun : run (Agent.step hasPapi) .initial calls = .ok (a, tr))
    (hdetached : ∀ call ∈ calls, call.detached = true) (hnothing : NothingThrown tr) (id : ℤ) :
    histories tr id = lifetime tr id := by
  rw [← run_actions hrun, List.forall_mem_map] at hdetached
  have hboth : Tracks tr a ∧ ∀ id, histories tr id = lifetime tr id := by
    refine run_induction_of (P := fun tr a => Tracks tr a ∧ ∀ id, histories tr id = lifetime tr id)
      (Q := fun call response => call.detached = true ∧ ∀ e, response ≠ .thrown e)
      (fun tr a call a' response hcall ih hstep => ⟨ih.1.step hstep, fun id => ?_⟩)
      ⟨.initial, fun id => rfl⟩ hrun
      fun x hx => ⟨hdetached x hx, hnothing x.2 (List.mem_map_of_mem hx)⟩
    rw [histories_snoc, lifetime_snoc, ih.1.lifetimeStep_eq hcall.1 hcall.2 hstep, ih.2]
  exact hboth.2 id

end Tracks

end UbenchAgent
