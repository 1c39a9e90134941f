import UbenchAgent.Histories
import UbenchAgent.NativeIds

/-!
# Whose events an attached event set counts

The thread map and the table of event sets belong to one process: threads are registered and
end at any moment between the calls of `Measurement`, and a creation attached to a Java
thread looks it up once.  What the event set counts from then on is to be the thread that
was asked for, however often the Java thread is registered anew later.
-/

namespace UbenchAgent

def Call.withThreads (threads : ThreadMap) : Call → Call
  | .createAttachedEventSetWithJavaThread _ javaThreadId args o attach =>
    .createAttachedEventSetWithJavaThread threads javaThreadId args o attach
  | call => call

/-- The thread that a creation is for: the calling one, a Java thread with its latest
registration, or a native one. -/
inductive CountedThread
  | caller
  | java (registered : Option Int64)
  | native (nativeThreadId : Int64)

def CountedThread.Attached : CountedThread → Option Int64 → Prop
  | .caller, attached => attached = none
  | .java registered, attached => ∃ n, registered = some n ∧ attached = some n
  | .native n, attached => attached = some n

def Call.countedThread (threads : Registrations) : Call → CountedThread
  | .createAttachedEventSetWithJavaThread _ javaThreadId _ _ _ =>
    .java (threads.latest javaThreadId)
  | .createAttachedEventSetWithNativeThread nativeThreadId _ _ _ => .native nativeThreadId
  | _ => .caller

/-- The threads that the ids were last asked for, after one more call. -/
def countedStep (counted : ℤ → CountedThread) (thread : CountedThread) :
    Response → ℤ → CountedThread
  | .eventSet id => Function.update counted id thread
  | _ => counted

/-- The thread map, the table of event sets, and for which thread each id was last
returned. -/
structure Process where
  threads : Registrations
  agent : Agent
  counted : ℤ → CountedThread

def Process.initial : Process := ⟨⟨.empty, []⟩, .initial, fun _ => .caller⟩

inductive ProcessCall
  | thread (c : ThreadCall)
  | measurement (call : Call)

def Process.step (p : Process) : ProcessCall → Except (ProcessExit ⊕ Fault) Process
  | .thread c => do
    let threads ← (p.threads.call c).mapError .inl
    .ok { p with threads := threads }
  | .measurement call => do
    let (agent, response) ← (p.agent.step true (call.withThreads p.threads.map)).mapError .inr
    .ok { p with
      agent := agent
      counted := countedStep p.counted (call.countedThread p.threads) response }

/-- The event set counts `thread`, unless it has no event of PAPI and counts none. -/
def BenchmarkConfiguration.Counts (config : BenchmarkConfiguration) (thread : CountedThread) :
    Prop :=
  if config.uses backendPapi then thread.Attached config.papiState.attached
  else config.papiState.attached = none

section EventSet

variable {config config' : BenchmarkConfiguration} {thread : CountedThread}

theorem SetCall.papi_attached (config : BenchmarkConfiguration) (call : SetCall) :
    (call.papi config).attached = config.papiState.attached := by
  cases call with
  | start r =>
    rw [SetCall.papi, papiStarted]
    split_ifs <;> rfl
  | stop r =>
    rw [SetCall.papi, papiStopped]
    split_ifs <;> rfl
  | sample userId r => rfl
  | reset => rfl

theorem apply_attached {call : SetCall} (h : call.apply config = .ok config') :
    config'.papiState.attached = config.papiState.attached := by
  cases hslot : call.slot config with
  | some i =>
    rw [apply_of_slot hslot] at h
    cases hs : config.data[i]? with
    | none =>
      rw [hs] at h
      cases h
    | some s =>
      rw [hs] at h
      obtain rfl := Except.ok.inj h
      exact call.papi_attached config
  | none =>
    rcases apply_of_slot_none hslot with ⟨-, hsame⟩ | ⟨-, hreset⟩
    · obtain rfl := Except.ok.inj (h.symm.trans hsame)
      rfl
    · obtain rfl := Except.ok.inj (h.symm.trans hreset)
      rfl

theorem BenchmarkConfiguration.Counts.apply {call : SetCall} (hcounts : config.Counts thread)
    (h : call.apply config = .ok config') : config'.Counts thread := by
  have huses : config'.uses backendPapi = config.uses backendPapi := by
    rw [apply_frame h]
    rfl
  rw [BenchmarkConfiguration.Counts, huses, apply_attached h]
  exact hcounts

variable {args : CreateArgs} {o : SetupOutcomes} {size : ℕ}

theorem Created.attached (h : Created true args o size config) :
    config.papiState.attached = none := by
  rw [h.papiState]

theorem Created.counts (h : Created true args o size config) : config.Counts .caller := by
  rw [BenchmarkConfiguration.Counts]
  split_ifs
  · exact h.attached
  · exact h.attached

theorem Created.counts_of_native (h : Created true args o size config)
    (huses : ¬ config.uses backendPapi = true) (thread : CountedThread) : config.Counts thread :=
  (if_neg huses).mpr h.attached

end EventSet

def CountsAsAsked (a : Agent) (counted : ℤ → CountedThread) : Prop :=
  ∀ id config, a.validConfig id = some config → config.Counts (counted id)

section Table

variable {a a' : Agent} {counted : ℤ → CountedThread} {thread : CountedThread}

theorem countedStep_ofUnit (counted : ℤ → CountedThread) (thread : CountedThread)
    (result : Except MeasurementException Unit) :
    countedStep counted thread (.ofUnit result) = counted := by
  cases result <;> rfl

theorem CountsAsAsked.same (h : CountsAsAsked a counted)
    (hsame : ∀ id config, a'.validConfig id = some config → a.validConfig id = some config) :
    CountsAsAsked a' counted :=
  fun id config hc => h id config (hsame id config hc)

theorem CountsAsAsked.creates {result : Except MeasurementException ℤ}
    (h : CountsAsAsked a counted)
    (hcreates : Creates (fun config => config.Counts thread) a a' result) :
    CountsAsAsked a' (countedStep counted thread (.ofId result)) := by
  cases hcreates with
  | created id config hcounts htable =>
    intro id' config' hc
    change config'.Counts (Function.update counted id thread id')
    rw [htable] at hc
    split_ifs at hc with hid
    · obtain rfl : config = config' := Option.some.inj hc
      rw [hid, Function.update_self]
      exact hcounts
    · rw [Function.update_of_ne hid]
      exact h id' config' hc
  | thrown e hsame =>
    refine h.same fun id config hc => ?_
    rw [← hsame id]
    exact hc

theorem CountsAsAsked.destroyEventSet (h : CountsAsAsked a counted) (jid : ℤ) :
    CountsAsAsked (destroyEventSet a jid).1 counted := by
  cases hc : a.validConfig jid with
  | none =>
    rw [destroyEventSet_invalid hc]
    exact h
  | some config =>
    obtain ⟨a₁, heq, htable⟩ := destroyEventSet_valid hc
    rw [heq]
    refine h.same fun id config' hc' => ?_
    rw [htable] at hc'
    split_ifs at hc'
    exact hc'

/-- The loop over the ids keeps the attachments, also if it throws halfway. -/
theorem CountsAsAsked.forEachEventset {calls : List (ℤ × SetCall)}
    {result : Except MeasurementException Unit} (h : CountsAsAsked a counted)
    (hloop : forEachEventset calls a = .ok (a', result)) : CountsAsAsked a' counted := by
  induction calls generalizing a with
  | nil =>
    obtain ⟨rfl, -⟩ := Prod.mk.inj (Except.ok.inj hloop)
    exact h
  | cons x rest ih =>
    obtain ⟨id, call⟩ := x
    rw [UbenchAgent.forEachEventset] at hloop
    cases hc : a.validConfig id with
    | none =>
      rw [hc] at hloop
      obtain ⟨rfl, -⟩ := Prod.mk.inj (Except.ok.inj hloop)
      exact h
    | some config =>
      rw [hc] at hloop
      obtain ⟨config₁, happly, hrest⟩ := except_bind_ok.mp hloop
      refine ih ?_ hrest
      intro id' config' hc'
      rw [validConfig_setValid hc] at hc'
      split_ifs at hc' with hid
      · obtain rfl : config₁ = config' := Option.some.inj hc'
        rw [hid]
        exact (h id config hc).apply happly
      · exact h id' config' hc'

/-- A lookup that gives a thread gives that of its latest registration. -/
theorem Registrations.Inv.attached {threads : Registrations} (h : threads.Inv) {j : Int64}
    (hknown : ubenchThreadsGetNativeId threads.map j ≠ ubenchThreadIdInvalid) :
    CountedThread.Attached (.java (threads.latest j))
      (some (ubenchThreadsGetNativeId threads.map j)) := by
  rw [getNativeId_eq_lookup] at hknown ⊢
  cases hlookup : threads.map.lookup j with
  | none =>
    rw [hlookup] at hknown
    exact absurd rfl hknown
  | some n => exact ⟨n, h.latest j n hlookup, rfl⟩

/-- Each creation makes an event set that counts the thread that it is for. -/
theorem step_countsThread {threads : Registrations} (hthreads : threads.Inv) {call : Call}
    {args : CreateArgs} {o : CreateOutcomes} (hcreates : call.creates = some (args, o))
    {response : Response}
    (hstep : a.step true (call.withThreads threads.map) = .ok (a', response)) :
    ∃ result, response = .ofId result ∧
      Creates (fun config => config.Counts (call.countedThread threads)) a a' result := by
  cases call with
  | createEventSet args' o' =>
    obtain ⟨rfl, rfl⟩ := Prod.mk.inj (Except.ok.inj hstep)
    exact ⟨_, rfl, createEventSet_creates fun _ config hcreated => hcreated.counts⟩
  | createAttachedEventSetWithJavaThread threads' javaThreadId args' o' attach =>
    obtain ⟨⟨a₁, result⟩, hcreate, heq⟩ := except_bind_ok.mp hstep
    obtain ⟨rfl, rfl⟩ := Prod.mk.inj (Except.ok.inj heq)
    refine ⟨result, rfl, createAttachedEventSetWithJavaThread_creates ?_ ?_ hcreate⟩
    · exact fun _ config hcreated huses => hcreated.counts_of_native huses _
    · exact fun _ config hcreated huses hknown => (if_pos huses).mpr (hthreads.attached hknown)
  | createAttachedEventSetWithNativeThread nativeThreadId args' o' attach =>
    obtain ⟨⟨a₁, result⟩, hcreate, heq⟩ := except_bind_ok.mp hstep
    obtain ⟨rfl, rfl⟩ := Prod.mk.inj (Except.ok.inj heq)
    refine ⟨result, rfl, createAttachedEventSetWithNativeThread_creates ?_ ?_ hcreate⟩
    · exact fun _ config hcreated huses => hcreated.counts_of_native huses _
    · exact fun _ config hcreated huses => (if_pos huses).mpr rfl
  | destroyEventSet => cases hcreates
  | start => cases hcreates
  | stop => cases hcreates
  | sample => cases hcreates
  | reset => cases hcreates
  | getResults => cases hcreates
  | getRawResults => cases hcreates

/-- A call of `Measurement` keeps every attachment, and a creation makes its own. -/
theorem CountsAsAsked.step {threads : Registrations} {call : Call} {response : Response}
    (h : CountsAsAsked a counted) (hthreads : threads.Inv)
    (hstep : a.step true (call.withThreads threads.map) = .ok (a', response)) :
    CountsAsAsked a' (countedStep counted (call.countedThread threads) response) := by
  cases hcalls : call.setCalls with
  | some calls =>
    have hwith : call.withThreads threads.map = call := by
      cases call <;> first | rfl | cases hcalls
    rw [hwith, step_of_setCalls hcalls] at hstep
    obtain ⟨⟨a₁, result⟩, hids, heq⟩ := except_bind_ok.mp hstep
    obtain ⟨rfl, rfl⟩ := Prod.mk.inj (Except.ok.inj heq)
    obtain ⟨a₂, hloop, htable⟩ := withIds_ok hids
    rw [countedStep_ofUnit]
    have hlocked : CountsAsAsked { a with ledger := (a.ledger.acquire .intArray).2 } counted := h
    have hlooped : CountsAsAsked a₂ counted := hlocked.forEachEventset hloop
    refine hlooped.same fun id config hc => ?_
    rw [← htable]
    exact hc
  | none =>
    cases call with
    | createEventSet args o =>
      obtain ⟨result, rfl, hcreated⟩ := step_countsThread hthreads rfl hstep
      exact h.creates hcreated
    | createAttachedEventSetWithJavaThread threads' javaThreadId args o attach =>
      obtain ⟨result, rfl, hcreated⟩ := step_countsThread hthreads rfl hstep
      exact h.creates hcreated
    | createAttachedEventSetWithNativeThread nativeThreadId args o attach =>
      obtain ⟨result, rfl, hcreated⟩ := step_countsThread hthreads rfl hstep
      exact h.creates hcreated
    | destroyEventSet jid =>
      obtain ⟨hagent, rfl⟩ := Prod.mk.inj (Except.ok.inj hstep)
      rw [countedStep_ofUnit, ← hagent]
      exact h.destroyEventSet jid
    | getResults jid =>
      obtain ⟨result, -, heq⟩ := except_bind_ok.mp hstep
      obtain ⟨rfl, rfl⟩ := Prod.mk.inj (Except.ok.inj heq)
      cases result <;> exact h
    | getRawResults jid =>
      obtain ⟨result, -, heq⟩ := except_bind_ok.mp hstep
      obtain ⟨rfl, rfl⟩ := Prod.mk.inj (Except.ok.inj heq)
      cases result <;> exact h
    | start jids => cases hcalls
    | stop jids => cases hcalls
    | sample juserId jids => cases hcalls
    | reset jids => cases hcalls

end Table

structure Process.Inv (p : Process) : Prop where
  threads : p.threads.Inv
  counts : CountsAsAsked p.agent p.counted

theorem Process.Inv.initial : Process.initial.Inv where
  threads := by
    have hempty : registrations [] = .ok ⟨.empty, []⟩ := rfl
    exact registrations_inv hempty
  counts := fun id config hc => by
    rw [Process.initial, validConfig_initial] at hc
    cases hc

theorem Process.Inv.step {p p' : Process} (h : p.Inv) {c : ProcessCall}
    (hstep : p.step c = .ok p') : p'.Inv := by
  cases c with
  | thread c =>
    obtain ⟨threads, hcall, heq⟩ := except_bind_ok.mp hstep
    obtain rfl := Except.ok.inj heq
    exact ⟨h.threads.call (except_mapError_ok.mp hcall), h.counts⟩
  | measurement call =>
    obtain ⟨⟨agent, response⟩, hcall, heq⟩ := except_bind_ok.mp hstep
    obtain rfl := Except.ok.inj heq
    exact ⟨h.threads, h.counts.step h.threads (except_mapError_ok.mp hcall)⟩

/-- However registrations and ends of threads come between the calls of `Measurement`, each
event set counts the thread that it was created for, and goes on to do so when that thread
ends or is registered anew. -/
theorem eventSets_countAsAsked {cs : List ProcessCall} {p : Process}
    (h : cs.foldlM Process.step .initial = .ok p) : CountsAsAsked p.agent p.counted :=
  (foldlM_invariant (fun _ _ _ hs hstep => hs.step hstep) Process.Inv.initial h).counts

/-- The Java thread 1 ends and is registered anew; the event set keeps the old one. -/
theorem eventSets_countAsAsked_ended : ∃ p config,
    [.thread (.registerJavaThread 1 7 (some ⟨0, 0⟩)),
      .measurement (.createAttachedEventSetWithJavaThread .empty 1 ⟨1, ["PAPI:A"], []⟩ .success
        papiOk),
      .thread (.threadEnd 7), .thread (.registerJavaThread 1 8 (some ⟨0, 0⟩)),
      .measurement (.start [(0, .zero)])].foldlM Process.step .initial = .ok p ∧
    p.threads.latest 1 = some 8 ∧ p.agent.validConfig 0 = some config ∧
      config.papiState.attached = some 7 := by
  obtain ⟨p, config, hrun, hlatest, hconfig, huses, hcounted⟩ : ∃ p config,
      [.thread (.registerJavaThread 1 7 (some ⟨0, 0⟩)),
        .measurement (.createAttachedEventSetWithJavaThread .empty 1 ⟨1, ["PAPI:A"], []⟩ .success
          papiOk),
        .thread (.threadEnd 7), .thread (.registerJavaThread 1 8 (some ⟨0, 0⟩)),
        .measurement (.start [(0, .zero)])].foldlM Process.step .initial = .ok p ∧
      p.threads.latest 1 = some 8 ∧ p.agent.validConfig 0 = some config ∧
        config.uses backendPapi = true ∧ p.counted 0 = .java (some 7) :=
    ⟨_, _, rfl, rfl, rfl, rfl, rfl⟩
  have hcounts := eventSets_countAsAsked hrun 0 config hconfig
  rw [BenchmarkConfiguration.Counts, if_pos huses, hcounted] at hcounts
  obtain ⟨n, hn, hattached⟩ := hcounts
  exact ⟨p, config, hrun, hlatest, hconfig, hattached.trans hn.symm⟩

end UbenchAgent
