import UbenchAgent.Attached
import UbenchAgent.Lifetimes

/-!
# The event set of `Benchmark`

`Benchmark` keeps the id of one event set.  The native table hands the ids of destroyed event
sets out again, also to other clients of `Measurement`, and these may come in between the two
native calls of `Benchmark.init`.
-/

namespace UbenchAgent

/-- A call returns a new event set, or destroys one, or changes which ids are in use in no
way. -/
inductive LiveStep (a a' : Agent) (call : Call) : Response → Prop
  | created (id : ℤ) (fresh : a.validConfig id = none)
      (table : ∀ id', (a'.validConfig id').isSome =
        if id' = id then true else (a.validConfig id').isSome) :
      LiveStep a a' call (.eventSet id)
  | destroyed (jid : ℤ) (destroys : call = .destroyEventSet jid)
      (table : ∀ id', (a'.validConfig id').isSome =
        if id' = jid then false else (a.validConfig id').isSome) :
      LiveStep a a' call .done
  | kept {response : Response} (creates : ∀ id, response ≠ .eventSet id)
      (destroys : ∀ jid, call = .destroyEventSet jid → response ≠ .done)
      (table : ∀ id', (a'.validConfig id').isSome = (a.validConfig id').isSome) :
      LiveStep a a' call response

section Live

variable {hasPapi : Bool} {a a' : Agent} {call : Call} {response : Response}

theorem TableStep.live (h : TableStep hasPapi a a' call response) :
    LiveStep a a' call response := by
  cases h with
  | created view table =>
    refine .created _ (validConfig_freeSlot a) fun id' => ?_
    rw [table]
    split_ifs <;> rfl
  | rejected valid table =>
    refine .kept (fun id h => by cases h) (fun jid h => by cases h) fun id' => by rw [table]
  | destroyed live table =>
    refine .destroyed _ rfl fun id' => ?_
    rw [table]
    split_ifs <;> rfl
  | served set live kept table =>
    refine .kept (fun id h => by cases h) (fun jid h => ?_) kept
    rw [h] at set
    cases set
  | read ids live table =>
    exact .kept (fun id h => by cases h) (fun jid _ h => by cases h) fun id' => by rw [table]
  | invalid mem dead kept =>
    exact .kept (fun id h => by cases h) (fun jid _ h => by cases h) kept

theorem AllOrNothing.live {nativeId : Int64} {result : Except MeasurementException ℤ}
    (h : AllOrNothing a nativeId (.ok (a', result)))
    (hcall : ∀ jid, call ≠ .destroyEventSet jid) : LiveStep a a' call (.ofId result) := by
  rcases h with ⟨a₁, id, config, heq, hfresh, hnew, -, hothers⟩ | ⟨a₁, e, heq, hsame⟩
  · cases heq
    refine .created id hfresh fun id' => ?_
    split_ifs with hid
    · rw [hid, hnew]
      rfl
    · rw [hothers id' hid]
  · cases heq
    exact .kept (fun id h => by cases h) (fun jid h => absurd h (hcall jid)) fun id' => by
      rw [hsame]

theorem LiveStep.createEventSet (args : CreateArgs) (o : CreateOutcomes)
    (hcall : ∀ jid, call ≠ .destroyEventSet jid) :
    LiveStep a (createEventSet hasPapi a args o).1 call
      (.ofId (createEventSet hasPapi a args o).2) := by
  have h : LiveStep a (UbenchAgent.createEventSet hasPapi a args o).1 (.createEventSet args o)
      (.ofId (UbenchAgent.createEventSet hasPapi a args o).2) :=
    (TableStep.createEventSet args o).live
  generalize Response.ofId (UbenchAgent.createEventSet hasPapi a args o).2 = response at h ⊢
  cases h with
  | created id fresh table => exact .created id fresh table
  | destroyed jid destroys table => cases destroys
  | kept creates destroys table =>
    exact .kept creates (fun jid h => absurd h (hcall jid)) table

/-- What an attached creation does, if it comes back at all. -/
theorem createAttached_live {nativeId : Int64} {args : CreateArgs} {o : CreateOutcomes}
    (outcome : Bool → Except Fault (Agent × Except MeasurementException ℤ))
    (hcall : ∀ jid, call ≠ .destroyEventSet jid)
    (hnoPapi : outcome false = .ok (createEventSet false a args o))
    (haccepted : Accepted true a args o → AllOrNothing a nativeId (outcome true))
    (hrejected : ¬ Accepted true a args o → outcome true = .error (.eventsetIndex (-1)))
    (h : (outcome hasPapi >>= fun x => .ok (x.1, Response.ofId x.2)) = .ok (a', response)) :
    LiveStep a a' call response := by
  obtain ⟨⟨a₁, result⟩, houtcome, hresponse⟩ := except_bind_ok.mp h
  obtain ⟨rfl, rfl⟩ := Prod.mk.inj (Except.ok.inj hresponse)
  cases hasPapi with
  | false =>
    have heq : createEventSet false a args o = (a₁, result) :=
      Except.ok.inj (hnoPapi.symm.trans houtcome)
    have hlive : LiveStep a (createEventSet false a args o).1 call
        (.ofId (createEventSet false a args o).2) := LiveStep.createEventSet args o hcall
    rw [heq] at hlive
    exact hlive
  | true =>
    by_cases hacc : Accepted true a args o
    · have hall := haccepted hacc
      rw [houtcome] at hall
      exact hall.live hcall
    · rw [hrejected hacc] at houtcome
      cases houtcome

theorem step_live (h : a.step hasPapi call = .ok (a', response)) :
    LiveStep a a' call response := by
  cases hdetached : call.detached with
  | true => exact (step_table hdetached h).live
  | false =>
    cases call with
    | createAttachedEventSetWithJavaThread threads javaThreadId args o attach =>
      exact createAttached_live
        (fun p => createAttachedEventSetWithJavaThread p a threads javaThreadId args o attach)
        (fun jid h => by cases h) rfl
        (fun hacc => createAttachedEventSetWithJavaThread_accepted hacc threads javaThreadId attach)
        (fun hrej => (createAttached_rejected hrej threads javaThreadId attach).1) h
    | createAttachedEventSetWithNativeThread nativeThreadId args o attach =>
      exact createAttached_live
        (fun p => createAttachedEventSetWithNativeThread p a nativeThreadId args o attach)
        (fun jid h => by cases h) rfl
        (fun hacc => createAttachedEventSetWithNativeThread_accepted hacc nativeThreadId attach)
        (fun hrej => (createAttached_rejected hrej .empty nativeThreadId attach).2) h
    | createEventSet => cases hdetached
    | destroyEventSet => cases hdetached
    | start => cases hdetached
    | stop => cases hdetached
    | sample => cases hdetached
    | reset => cases hdetached
    | getResults => cases hdetached
    | getRawResults => cases hdetached

end Live

/-- Who makes a native call: `Benchmark`, during or after its init with this number, or another
client of `Measurement`. -/
inductive Caller
  | benchmark (init : ℕ)
  | client
  deriving DecidableEq, Repr

structure NativeCall where
  caller : Caller
  call : Call
  response : Response

def ownerStep (id : ℤ) (owner : Option Caller) (c : NativeCall) : Option Caller :=
  match c.response with
  | .eventSet id' => if id = id' then some c.caller else owner
  | .done =>
    match c.call with
    | .destroyEventSet jid => if id = jid then none else owner
    | _ => owner
  | _ => owner

/-- Who created the event set that `id` names, if it was not destroyed since. -/
def owner (trace : List NativeCall) (id : ℤ) : Option Caller := trace.foldl (ownerStep id) none

/-- The static field of `Benchmark`, whether an init is between its two statements, how the
inits so far have ended, the native state and all native calls. -/
structure BenchmarkState where
  defaultEventSet : ℤ
  initializing : Bool
  initResults : List (Except MeasurementException Unit)
  agent : Agent
  trace : List NativeCall

inductive BenchmarkAction
  /-- `init` is called and destroys the event set that there is. -/
  | init
  /-- The rest of `init`. -/
  | initCreate (args : CreateArgs) (o : CreateOutcomes)
  | start (r : Reading)
  | stop (r : Reading)
  | reset
  | getResults
  | client (call : Call)

namespace BenchmarkState

def initial : BenchmarkState := ⟨-1, false, [], .initial, []⟩

def record (s : BenchmarkState) (agent : Agent) (caller : Caller) (call : Call)
    (response : Response) : BenchmarkState :=
  { s with agent := agent, trace := s.trace ++ [⟨caller, call, response⟩] }

def initNumber (s : BenchmarkState) : ℕ := s.initResults.length + 1

def init (s : BenchmarkState) : BenchmarkState :=
  if s.defaultEventSet ≠ -1 then
    match destroyEventSet s.agent s.defaultEventSet with
    | (agent, .ok ()) =>
      { s.record agent (.benchmark s.initNumber) (.destroyEventSet s.defaultEventSet) .done with
        defaultEventSet := -1
        initializing := true }
    | (agent, .error e) =>
      { s.record agent (.benchmark s.initNumber) (.destroyEventSet s.defaultEventSet) (.thrown e) with
        initResults := s.initResults ++ [.error e] }
  else { s with initializing := true }

def initCreate (hasPapi : Bool) (s : BenchmarkState) (args : CreateArgs) (o : CreateOutcomes) :
    BenchmarkState :=
  match createEventSet hasPapi s.agent args o with
  | (agent, .ok id) =>
    { s.record agent (.benchmark s.initNumber) (.createEventSet args o) (.eventSet id) with
      defaultEventSet := id
      initializing := false
      initResults := s.initResults ++ [.ok ()] }
  | (agent, .error e) =>
    { s.record agent (.benchmark s.initNumber) (.createEventSet args o) (.thrown e) with
      initializing := false
      initResults := s.initResults ++ [.error e] }

def native (hasPapi : Bool) (s : BenchmarkState) (caller : Caller) (call : Call) :
    Except Fault BenchmarkState := do
  let (agent, response) ← s.agent.step hasPapi call
  .ok (s.record agent caller call response)

/-- One step.  The inits follow one another, so a step of `init` that is not due is none. -/
def step (hasPapi : Bool) (s : BenchmarkState) : BenchmarkAction → Except Fault BenchmarkState
  | .init => .ok (if s.initializing then s else s.init)
  | .initCreate args o => .ok (if s.initializing then s.initCreate hasPapi args o else s)
  | .start r => s.native hasPapi (.benchmark s.initResults.length) (.start [(s.defaultEventSet, r)])
  | .stop r => s.native hasPapi (.benchmark s.initResults.length) (.stop [(s.defaultEventSet, r)])
  | .reset => s.native hasPapi (.benchmark s.initResults.length) (.reset [s.defaultEventSet])
  | .getResults => s.native hasPapi (.benchmark s.initResults.length) (.getResults s.defaultEventSet)
  | .client call => s.native hasPapi .client call

end BenchmarkState

def benchmarkRun (hasPapi : Bool) (actions : List BenchmarkAction) :
    Except Fault BenchmarkState :=
  actions.foldlM (BenchmarkState.step hasPapi) .initial

/-- No client destroys an event set of `Benchmark`.  It may destroy those of clients. -/
def ClientsDestroyOwn (hasPapi : Bool) (actions : List BenchmarkAction) : Prop :=
  ∀ before jid after s, actions = before ++ .client (.destroyEventSet jid) :: after →
    benchmarkRun hasPapi before = .ok s → ∀ n, owner s.trace jid ≠ some (.benchmark n)

/-- `Benchmark` has one event set if its latest init succeeded, and otherwise none. -/
structure BenchmarkState.OwnsAtMostOne (s : BenchmarkState) : Prop where
  destroys : ∀ c ∈ s.trace, ∀ n jid, c.caller = .benchmark n → c.call = .destroyEventSet jid →
    c.response = .done
  owners : ∀ id, (s.agent.validConfig id).isSome = (owner s.trace id).isSome
  unset_iff : s.initializing = false → (s.defaultEventSet = -1 ↔
    (∀ result ∈ s.initResults, result ≠ .ok ()) ∨ ∃ e, s.initResults.getLast? = some (.error e))
  current : s.defaultEventSet ≠ -1 → (s.agent.validConfig s.defaultEventSet).isSome = true ∧
    owner s.trace s.defaultEventSet = some (.benchmark s.initResults.length) ∧
    s.initResults.getLast? = some (.ok ())
  earlier : ∀ id n, owner s.trace id = some (.benchmark n) →
    id = s.defaultEventSet ∧ n = s.initResults.length
  clients : ∀ id, owner s.trace id = some .client → id ≠ s.defaultEventSet

/-- The event sets of `Benchmark` are the one in its field, and the latest init made it. -/
structure BenchmarkState.Inv (s : BenchmarkState) : Prop where
  destroys : ∀ c ∈ s.trace, ∀ n jid, c.caller = .benchmark n → c.call = .destroyEventSet jid →
    c.response = .done
  owners : ∀ id, (s.agent.validConfig id).isSome = (owner s.trace id).isSome
  owned : ∀ id n, owner s.trace id = some (.benchmark n) →
    s.initializing = false ∧ id = s.defaultEventSet ∧ n = s.initResults.length
  current : s.defaultEventSet ≠ -1 → s.initializing = false ∧
    owner s.trace s.defaultEventSet = some (.benchmark s.initResults.length)
  last : s.initializing = false →
    (s.defaultEventSet ≠ -1 ↔ s.initResults.getLast? = some (.ok ()))

section Owners

variable {s : BenchmarkState} {agent : Agent} {caller : Caller} {call : Call} {response : Response}

theorem owner_snoc (trace : List NativeCall) (c : NativeCall) (id : ℤ) :
    owner (trace ++ [c]) id = ownerStep id (owner trace id) c := by
  rw [owner, List.foldl_append]
  rfl

theorem ownerStep_kept (id : ℤ) (o : Option Caller) (hcreates : ∀ id, response ≠ .eventSet id)
    (hdestroys : ∀ jid, call = .destroyEventSet jid → response ≠ .done) :
    ownerStep id o ⟨caller, call, response⟩ = o := by
  cases response with
  | eventSet id' => exact absurd rfl (hcreates id')
  | done =>
    cases call with
    | destroyEventSet jid => exact absurd rfl (hdestroys jid rfl)
    | _ => rfl
  | results data => rfl
  | thrown e => rfl

theorem owners_record
    (howners : ∀ id, (s.agent.validConfig id).isSome = (owner s.trace id).isSome)
    (hlive : LiveStep s.agent agent call response) (id : ℤ) :
    (agent.validConfig id).isSome = (owner (s.record agent caller call response).trace id).isSome := by
  rw [BenchmarkState.record, owner_snoc]
  cases hlive with
  | created id' fresh table =>
    rw [table, ownerStep]
    dsimp only
    split_ifs with hid
    · rfl
    · exact howners id
  | destroyed jid destroys table =>
    rw [table, destroys, ownerStep]
    dsimp only
    split_ifs with hid
    · rfl
    · exact howners id
  | kept creates destroys table =>
    rw [table, ownerStep_kept id _ creates destroys]
    exact howners id

theorem BenchmarkState.Inv.owner_ne (h : s.Inv) {id : ℤ} (howner : owner s.trace id ≠ none) :
    id ≠ -1 := by
  rintro rfl
  rw [Ne, ← Option.not_isSome_iff_eq_none, ← h.owners] at howner
  exact howner Bool.false_ne_true

theorem BenchmarkState.Inv.record_kept (h : s.Inv) (hcreates : ∀ id, response ≠ .eventSet id)
    (hdestroys : ∀ jid, call ≠ .destroyEventSet jid)
    (hlive : LiveStep s.agent agent call response) : (s.record agent caller call response).Inv := by
  have howner : ∀ id, owner (s.record agent caller call response).trace id = owner s.trace id := by
    intro id
    rw [record, owner_snoc]
    exact ownerStep_kept id _ hcreates fun jid hcall => absurd hcall (hdestroys jid)
  refine ⟨?_, owners_record h.owners hlive, ?_, ?_, h.last⟩
  · intro c hc n jid hcaller hcall
    rcases List.mem_append.mp hc with hold | hnew
    · exact h.destroys c hold n jid hcaller hcall
    · rw [List.mem_singleton.mp hnew] at hcall
      exact absurd hcall (hdestroys jid)
  · intro id n hbenchmark
    rw [howner] at hbenchmark
    exact h.owned id n hbenchmark
  · intro hset
    obtain ⟨hidle, hcurrent⟩ := h.current hset
    exact ⟨hidle, (howner _).trans hcurrent⟩

theorem BenchmarkState.Inv.record_client (h : s.Inv)
    (hspares : ∀ jid, call = .destroyEventSet jid → ∀ n, owner s.trace jid ≠ some (.benchmark n))
    (hlive : LiveStep s.agent agent call response) :
    (s.record agent .client call response).Inv := by
  -- What `Benchmark` owns, it owned before, and still owns.
  have hbenchmark : ∀ id n, owner (s.record agent .client call response).trace id =
      some (.benchmark n) ↔ owner s.trace id = some (.benchmark n) := by
    intro id n
    rw [record, owner_snoc]
    cases hlive with
    | created id' fresh table =>
      rw [ownerStep]
      dsimp only
      split_ifs with hid
      · refine iff_of_false (by simp) fun hold => ?_
        have hnone := h.owners id'
        rw [fresh, ← hid, hold] at hnone
        cases hnone
      · rfl
    | destroyed jid destroys table =>
      rw [destroys, ownerStep]
      dsimp only
      split_ifs with hid
      · rw [hid]
        exact iff_of_false (by simp) (hspares jid destroys n)
      · rfl
    | kept creates destroys table => rw [ownerStep_kept id _ creates destroys]
  refine ⟨?_, owners_record h.owners hlive, ?_, ?_, h.last⟩
  · intro c hc n jid hcaller hcall
    rcases List.mem_append.mp hc with hold | hnew
    · exact h.destroys c hold n jid hcaller hcall
    · rw [List.mem_singleton.mp hnew] at hcaller
      cases hcaller
  · intro id n hid
    exact h.owned id n ((hbenchmark id n).mp hid)
  · intro hset
    obtain ⟨hidle, hcurrent⟩ := h.current hset
    exact ⟨hidle, (hbenchmark _ _).mpr hcurrent⟩

end Owners

section Steps

variable {hasPapi : Bool} {s s' : BenchmarkState}

theorem BenchmarkState.Inv.initializing (h : s.Inv) (hrunning : s.initializing = true) :
    s.defaultEventSet = -1 ∧ ∀ id n, owner s.trace id ≠ some (.benchmark n) := by
  constructor
  · by_contra hset
    rw [(h.current hset).1] at hrunning
    cases hrunning
  · intro id n howner
    rw [(h.owned id n howner).1] at hrunning
    cases hrunning

theorem BenchmarkState.Inv.init (h : s.Inv) : s.init.Inv := by
  unfold BenchmarkState.init
  split_ifs with hset
  · obtain ⟨hidle, hcurrent⟩ := h.current hset
    have hlive : (s.agent.validConfig s.defaultEventSet).isSome = true := by
      rw [h.owners, hcurrent]
      rfl
    obtain ⟨config, hconfig⟩ := Option.isSome_iff_exists.mp hlive
    obtain ⟨agent, hdestroy, htable⟩ := destroyEventSet_valid hconfig
    have hstep : LiveStep s.agent agent (.destroyEventSet s.defaultEventSet) .done := by
      refine .destroyed _ rfl fun id' => ?_
      rw [htable]
      split_ifs <;> rfl
    rw [hdestroy]
    dsimp only
    refine ⟨?_, owners_record h.owners hstep, ?_, fun hne => absurd rfl hne, fun hnot => ?_⟩
    · intro c hc n jid hcaller hcall
      rcases List.mem_append.mp hc with hold | hnew
      · exact h.destroys c hold n jid hcaller hcall
      · rw [List.mem_singleton.mp hnew]
    · intro id n howner
      dsimp only [record] at howner
      rw [owner_snoc, ownerStep] at howner
      dsimp only at howner
      split_ifs at howner with hid
      exact absurd (h.owned id n howner).2.1 hid
    · cases hnot
  · have hunset : s.defaultEventSet = -1 := not_not.mp hset
    refine ⟨h.destroys, h.owners, ?_, fun hne => absurd hunset hne, fun hnot => ?_⟩
    · intro id n howner
      obtain ⟨-, hid, -⟩ := h.owned id n howner
      exact absurd (hid.trans hunset) (h.owner_ne (by rw [howner]; exact Option.some_ne_none _))
    · cases hnot

theorem BenchmarkState.Inv.initCreate (h : s.Inv) (hrunning : s.initializing = true)
    (args : CreateArgs) (o : CreateOutcomes) : (s.initCreate hasPapi args o).Inv := by
  obtain ⟨hunset, hnone⟩ := h.initializing hrunning
  have hstep : s.agent.step hasPapi (.createEventSet args o) =
      .ok ((createEventSet hasPapi s.agent args o).1,
        .ofId (createEventSet hasPapi s.agent args o).2) := rfl
  have hlive := step_live hstep
  unfold BenchmarkState.initCreate
  cases hcreate : createEventSet hasPapi s.agent args o with
  | mk agent result =>
    rw [hcreate] at hlive
    have hdestroys : ∀ response, ∀ c ∈ s.trace ++
        [⟨.benchmark s.initNumber, .createEventSet args o, response⟩], ∀ n jid,
        c.caller = .benchmark n → c.call = .destroyEventSet jid → c.response = .done := by
      intro response c hc n jid hcaller hcall
      rcases List.mem_append.mp hc with hold | hnew
      · exact h.destroys c hold n jid hcaller hcall
      · rw [List.mem_singleton.mp hnew] at hcall
        cases hcall
    have howners : ∀ id, (agent.validConfig id).isSome =
        (owner (s.record agent (.benchmark s.initNumber) (.createEventSet args o)
          (.ofId result)).trace id).isSome := owners_record h.owners hlive
    cases result with
    | ok id =>
      have howner : ∀ id', owner (s.record agent (.benchmark s.initNumber)
          (.createEventSet args o) (.eventSet id)).trace id' =
          if id' = id then some (.benchmark s.initNumber) else owner s.trace id' := by
        intro id'
        rw [record, owner_snoc]
        rfl
      have hnumber : s.initNumber =
          (s.initResults ++ [(.ok () : Except MeasurementException Unit)]).length := by
        rw [List.length_append]
        rfl
      have hid : id ≠ -1 := by
        rintro rfl
        have hsome : (agent.validConfig (-1)).isSome = true := by
          rw [howners]
          exact (congrArg Option.isSome (howner (-1))).trans (by rw [if_pos rfl]; rfl)
        cases hsome
      dsimp only
      refine ⟨hdestroys _, howners, ?_, fun _ => ⟨rfl, ?_⟩, fun _ => ?_⟩
      · intro id' n hbenchmark
        replace hbenchmark := (howner id').symm.trans hbenchmark
        split_ifs at hbenchmark with hsame
        · cases hbenchmark
          exact ⟨rfl, hsame, hnumber⟩
        · exact absurd hbenchmark (hnone id' n)
      · exact (howner id).trans (by rw [if_pos rfl, hnumber])
      · exact iff_of_true hid List.getLast?_concat
    | error e =>
      have howner : ∀ id', owner (s.record agent (.benchmark s.initNumber)
          (.createEventSet args o) (.thrown e)).trace id' = owner s.trace id' := by
        intro id'
        rw [record, owner_snoc]
        rfl
      dsimp only
      refine ⟨hdestroys _, howners, ?_, fun hne => absurd hunset hne, fun _ => ?_⟩
      · intro id' n hbenchmark
        exact absurd ((howner id').symm.trans hbenchmark) (hnone id' n)
      · refine iff_of_false (not_not.mpr hunset) fun hlast => ?_
        cases List.getLast?_concat.symm.trans hlast

theorem BenchmarkState.Inv.native_benchmark (h : s.Inv) {n : ℕ} {call : Call}
    (hcall : call.detached = true) (hcreates : ∀ args o, call ≠ .createEventSet args o)
    (hdestroys : ∀ jid, call ≠ .destroyEventSet jid)
    (hstep : s.native hasPapi (.benchmark n) call = .ok s') : s'.Inv := by
  obtain ⟨⟨agent, response⟩, hresponse, hs'⟩ := except_bind_ok.mp hstep
  obtain rfl := Except.ok.inj hs'
  refine h.record_kept (fun id hid => ?_) hdestroys (step_live hresponse)
  rw [hid] at hresponse
  cases step_table hcall hresponse
  exact hcreates _ _ rfl

theorem BenchmarkState.Inv.step {action : BenchmarkAction} (h : s.Inv)
    (hspares : ∀ jid, action = .client (.destroyEventSet jid) →
      ∀ n, owner s.trace jid ≠ some (.benchmark n))
    (hstep : s.step hasPapi action = .ok s') : s'.Inv := by
  cases action with
  | init =>
    obtain rfl := Except.ok.inj hstep
    split_ifs with hrunning
    · exact h
    · exact h.init
  | initCreate args o =>
    obtain rfl := Except.ok.inj hstep
    split_ifs with hrunning
    · exact h.initCreate hrunning args o
    · exact h
  | start r => exact h.native_benchmark rfl (fun _ _ h => by cases h) (fun _ h => by cases h) hstep
  | stop r => exact h.native_benchmark rfl (fun _ _ h => by cases h) (fun _ h => by cases h) hstep
  | reset => exact h.native_benchmark rfl (fun _ _ h => by cases h) (fun _ h => by cases h) hstep
  | getResults =>
    exact h.native_benchmark rfl (fun _ _ h => by cases h) (fun _ h => by cases h) hstep
  | client call =>
    obtain ⟨⟨agent, response⟩, hresponse, hs'⟩ := except_bind_ok.mp hstep
    obtain rfl := Except.ok.inj hs'
    exact h.record_client (fun jid hcall => hspares jid (by rw [hcall])) (step_live hresponse)

end Steps

section Runs

variable {hasPapi : Bool} {s s' : BenchmarkState}

theorem BenchmarkState.Inv.initial : BenchmarkState.initial.Inv := by
  refine ⟨List.forall_mem_nil _, fun id => ?_, fun id n h => ?_, fun h => absurd rfl h, fun _ => ?_⟩
  · exact congrArg Option.isSome (validConfig_initial id)
  · cases h
  · refine iff_of_false (fun h => h rfl) fun h => ?_
    cases h

theorem benchmarkRun_inv {actions before after : List BenchmarkAction}
    (hown : ClientsDestroyOwn hasPapi actions) (hsplit : actions = before ++ after)
    (hrun : benchmarkRun hasPapi before = .ok s) : s.Inv := by
  refine foldlM_prefix_invariant .initial ?_ hsplit hrun
  intro before action after s₁ s' hsplit hbefore hinv hstep
  refine hinv.step (fun jid haction => ?_) hstep
  rw [haction] at hsplit
  exact hown before jid after s₁ hsplit hbefore

theorem getLast?_ne_ok {results : List (Except MeasurementException Unit)} :
    results.getLast? ≠ some (.ok ()) ↔
      (∀ result ∈ results, result ≠ .ok ()) ∨ ∃ e, results.getLast? = some (.error e) := by
  cases hlast : results.getLast? with
  | none =>
    rw [List.getLast?_eq_none_iff] at hlast
    rw [hlast]
    exact iff_of_true (by simp) (.inl (List.forall_mem_nil _))
  | some result =>
    have hmem := List.mem_of_getLast? hlast
    cases result with
    | ok u =>
      refine iff_of_false (not_not.mpr rfl) ?_
      rintro (hnever | ⟨e, he⟩)
      · exact hnever _ hmem rfl
      · cases he
    | error e => exact iff_of_true (by simp) (.inr ⟨e, rfl⟩)

/-- After any steps, of which a client's destroy no event set of `Benchmark`, it has one event
set if its latest init succeeded, and otherwise none.  A run ends at its first fault: what a
process does after an access outside of an array is not defined. -/
theorem benchmark_ownsAtMostOne (actions : List BenchmarkAction)
    (hown : ClientsDestroyOwn hasPapi actions) (hrun : benchmarkRun hasPapi actions = .ok s) :
    s.OwnsAtMostOne := by
  have h : s.Inv := benchmarkRun_inv hown (List.append_nil _).symm hrun
  refine ⟨h.destroys, h.owners, ?_, ?_, ?_, ?_⟩
  · intro hidle
    rw [← getLast?_ne_ok]
    exact not_not.symm.trans (not_congr (h.last hidle))
  · intro hset
    obtain ⟨hidle, hcurrent⟩ := h.current hset
    refine ⟨?_, hcurrent, (h.last hidle).mp hset⟩
    rw [h.owners, hcurrent]
    rfl
  · intro id n howner
    exact (h.owned id n howner).2
  · rintro id howner rfl
    have hset := h.owner_ne (by rw [howner]; exact Option.some_ne_none _)
    rw [(h.current hset).2] at howner
    cases howner

end Runs

/-- A client gets the slot of an init that fails after it has destroyed its event set. -/
theorem benchmark_ownsAtMostOne_reused :
    ∃ s, benchmarkRun false [.init, .initCreate (.wallclock 1) .success, .init,
        .client (.createEventSet (.wallclock 2) .success), .initCreate (.wallclock 0) .success,
        .init, .initCreate (.wallclock 1) .success, .client (.destroyEventSet 0)] = .ok s ∧
      s.defaultEventSet = 1 ∧ s.OwnsAtMostOne := by
  obtain ⟨s, hrun, hdefault⟩ : ∃ s, benchmarkRun false [.init,
        .initCreate (.wallclock 1) .success, .init,
        .client (.createEventSet (.wallclock 2) .success), .initCreate (.wallclock 0) .success,
        .init, .initCreate (.wallclock 1) .success, .client (.destroyEventSet 0)] = .ok s ∧
      s.defaultEventSet = 1 := ⟨_, rfl, rfl⟩
  refine ⟨s, hrun, hdefault, benchmark_ownsAtMostOne _ ?_ hrun⟩
  intro before jid after s' hsplit hbefore n
  have howner : (benchmarkRun false [.init, .initCreate (.wallclock 1) .success, .init,
      .client (.createEventSet (.wallclock 2) .success), .initCreate (.wallclock 0) .success,
      .init, .initCreate (.wallclock 1) .success]).map (fun s => owner s.trace 0) =
      .ok (some .client) := rfl
  simp [List.cons_eq_append_iff] at hsplit
  obtain ⟨rfl, rfl, -⟩ := hsplit
  rw [hbefore] at howner
  have hclient : owner s'.trace 0 = some .client := Except.ok.inj howner
  rw [hclient]
  intro h
  cases h

end UbenchAgent
