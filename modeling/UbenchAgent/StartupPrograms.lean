import UbenchAgent.Startup
import Mathlib.Data.List.TakeWhile

/-!
# What the programs of the start request

Whatever answers they get: the requests for a context enable it fully or dispose its
environment, each program works for few contexts, and only the first start works at all.
-/

namespace UbenchAgent

open Program

@[simp] def AgentRequest.jvmtiContext? : AgentRequest → Option ContextName
  | .getJvmtiEnv name => some name
  | .setJvmti name _ => some name
  | .addCapabilities name _ => some name
  | .setEventNotificationMode name _ _ => some name
  | .setEventCallbacks name _ => some name
  | .disposeEnvironment name _ => some name
  | _ => none

/-- The context that a request is for.  The method identifier is for the thread callbacks. -/
@[simp] def AgentRequest.context? : AgentRequest → Option ContextName
  | .findThreadClass => some .threads
  | .getMethodID => some .threads
  | .setThreadGetIdMethod _ => some .threads
  | other => other.jvmtiContext?

section Ask

variable {β : Type} {request : AgentRequest}

theorem ask_ensures {Q : List AgentEvent → Option request.Answer → Prop} :
    (ask request).Ensures Q ↔ Q [] none ∧ ∀ x, Q [⟨request, x⟩] (some x) :=
  ensures_request.trans (and_congr_right fun _ => forall_congr' fun _ => ensures_done)

theorem ask_bind_ensures {f : request.Answer → AgentProgram β}
    {Q : List AgentEvent → Option β → Prop} :
    (ask request >>= f).Ensures Q ↔
      Q [] none ∧ ∀ x, (f x).Ensures fun es b => Q (⟨request, x⟩ :: es) b :=
  ensures_request

theorem ask_bind_uses {f : request.Answer → AgentProgram β} {allowed : AgentRequest → Prop}
    (h : allowed request) (hf : ∀ x, (f x).Uses allowed) : (ask request >>= f).Uses allowed :=
  uses_request h hf

theorem pure_ensures {b : β} {Q : List AgentEvent → Option β → Prop} :
    (pure b : AgentProgram β).Ensures Q ↔ Q [] (some b) :=
  ensures_done

end Ask

section Context

variable {name : ContextName} {jvmti : JvmtiEnv} {es es' : List AgentEvent} {b : Option Bool}

/-- What was asked for an environment before its callbacks were set, and what was not. -/
structure FullyEnabled (name : ContextName) (jvmti : JvmtiEnv) (es : List AgentEvent) : Prop where
  created : ⟨.getJvmtiEnv name, some jvmti⟩ ∈ es
  capabilities : name.context.hasCapabilities = true → ⟨.addCapabilities name jvmti, true⟩ ∈ es
  events : ∀ event ∈ name.context.events, ⟨.setEventNotificationMode name jvmti event, true⟩ ∈ es
  stored : ⟨.setJvmti name (some jvmti), ()⟩ ∈ es
  kept : ∀ stored, ⟨.setJvmti name stored, ()⟩ ∈ es → stored = some jvmti
  alive : ∀ jvmti' ok, ⟨.disposeEnvironment name jvmti', ok⟩ ∉ es
  only : ∀ jvmti', ⟨.setEventCallbacks name jvmti', true⟩ ∈ es → jvmti' = jvmti
  single : ∀ created, ⟨.getJvmtiEnv name, created⟩ ∈ es → created = some jvmti

structure EnableActs (name : ContextName) (jvmti : JvmtiEnv) (es : List AgentEvent)
    (b : Option Bool) : Prop where
  calls : ∀ event ∈ es, event.1 = .addCapabilities name jvmti ∨
    (∃ e, event.1 = .setEventNotificationMode name jvmti e) ∨
    event.1 = .setEventCallbacks name jvmti
  callbacks : ⟨.setEventCallbacks name jvmti, true⟩ ∈ es ↔ b = some true
  capabilities : b = some true → name.context.hasCapabilities = true →
    ⟨.addCapabilities name jvmti, true⟩ ∈ es
  events : b = some true → ∀ event ∈ name.context.events,
    ⟨.setEventNotificationMode name jvmti event, true⟩ ∈ es

theorem enableEvents_ensures (name : ContextName) (jvmti : JvmtiEnv) (events : List JvmtiEvent) :
    (enableEvents name jvmti events).Ensures fun es b =>
      (∀ event ∈ es, ∃ e, event.1 = .setEventNotificationMode name jvmti e) ∧
        (b = some true → ∀ event ∈ events,
          ⟨.setEventNotificationMode name jvmti event, true⟩ ∈ es) := by
  induction events with
  | nil => exact ensures_done.mpr ⟨List.forall_mem_nil _, fun _ => List.forall_mem_nil _⟩
  | cons event events ih =>
    refine ensures_request.mpr ⟨⟨List.forall_mem_nil _, fun h => by cases h⟩, fun enabled => ?_⟩
    cases enabled with
    | false =>
      refine ensures_done.mpr ⟨?_, fun h => by cases h⟩
      exact List.forall_mem_singleton.mpr ⟨event, rfl⟩
    | true =>
      refine ih.mono fun es b ⟨hcalls, hevents⟩ => ⟨?_, fun hb => ?_⟩
      · exact List.forall_mem_cons.mpr ⟨⟨event, rfl⟩, hcalls⟩
      · refine List.forall_mem_cons.mpr ⟨List.mem_cons_self, fun event' hmem => ?_⟩
        exact List.mem_cons_of_mem _ (hevents hb event' hmem)

theorem addCapabilities_ensures (name : ContextName) (jvmti : JvmtiEnv) :
    (addCapabilities name jvmti).Ensures fun es b =>
      (∀ event ∈ es, event.1 = .addCapabilities name jvmti) ∧
        (b = some true → name.context.hasCapabilities = true →
          (⟨.addCapabilities name jvmti, true⟩ : AgentEvent) ∈ es) := by
  by_cases hcap : name.context.hasCapabilities = true
  · rw [addCapabilities, if_pos hcap]
    refine ask_ensures.mpr ⟨⟨List.forall_mem_nil _, fun h => by cases h⟩, fun ok => ⟨?_, ?_⟩⟩
    · intro event hmem
      rw [List.mem_singleton.mp hmem]
    · intro h _
      rw [Option.some.inj h]
      exact List.mem_singleton_self _
  · rw [addCapabilities, if_neg hcap]
    exact pure_ensures.mpr ⟨List.forall_mem_nil _, fun _ h => absurd h hcap⟩

theorem setEventCallbacks_notMem (h : ∀ event ∈ es, event.1 = .addCapabilities name jvmti ∨
    ∃ e, event.1 = .setEventNotificationMode name jvmti e) (jvmti' : JvmtiEnv) (ok : Bool) :
    (⟨.setEventCallbacks name jvmti', ok⟩ : AgentEvent) ∉ es := by
  intro hmem
  rcases h _ hmem with h | ⟨e, h⟩
  · cases h
  · cases h

theorem EnableActs.early (h : ∀ event ∈ es, event.1 = .addCapabilities name jvmti ∨
    ∃ e, event.1 = .setEventNotificationMode name jvmti e) (hb : b ≠ some true) :
    EnableActs name jvmti es b :=
  ⟨fun event hmem => (h event hmem).imp_right .inl,
    iff_of_false (setEventCallbacks_notMem h jvmti true) hb, fun h => absurd h hb,
    fun h => absurd h hb⟩

theorem ubenchJvmtiContextEnable_ensures (name : ContextName) (jvmti : JvmtiEnv) :
    (ubenchJvmtiContextEnable name jvmti).Ensures (EnableActs name jvmti) := by
  unfold ubenchJvmtiContextEnable
  refine (addCapabilities_ensures name jvmti).bind (fun es ⟨hes, _⟩ => ?_) fun es capable hadd => ?_
  · exact .early (fun event hmem => .inl (hes event hmem)) (fun h => by cases h)
  obtain ⟨hes, hcap⟩ := hadd
  cases capable with
  | false =>
    refine ensures_done.mpr (.early (fun event hmem => ?_) (fun h => by cases h))
    rw [List.append_nil] at hmem
    exact .inl (hes event hmem)
  | true =>
    refine (enableEvents_ensures name jvmti _).bind (fun es' ⟨hes', _⟩ => ?_)
      fun es' enabled hmodes => ?_
    · refine .early (fun event hmem => ?_) (fun h => by cases h)
      exact (List.mem_append.mp hmem).imp (hes event) (hes' event)
    obtain ⟨hes', hevents⟩ := hmodes
    have hbefore : ∀ event ∈ es ++ es', event.1 = .addCapabilities name jvmti ∨
        ∃ e, event.1 = .setEventNotificationMode name jvmti e := fun event hmem =>
      (List.mem_append.mp hmem).imp (hes event) (hes' event)
    cases enabled with
    | false =>
      refine ensures_done.mpr (.early (fun event hmem => ?_) (fun h => by cases h))
      rw [List.append_nil] at hmem
      exact hbefore event hmem
    | true =>
      refine ensures_request.mpr ⟨.early (fun event hmem => ?_) (fun h => by cases h), fun ok => ?_⟩
      · rw [List.append_nil] at hmem
        exact hbefore event hmem
      · refine ensures_done.mpr ?_
        rw [← List.append_assoc]
        refine ⟨fun event hmem => ?_, ?_, fun _ hcapable => ?_, fun _ event hmem => ?_⟩
        · rcases List.mem_append.mp hmem with hmem | hmem
          · exact (hbefore event hmem).imp_right .inl
          · rw [List.mem_singleton.mp hmem]
            exact .inr (.inr rfl)
        · rw [List.mem_append, List.mem_singleton]
          constructor
          · rintro (hmem | hset)
            · exact absurd hmem (setEventCallbacks_notMem hbefore _ _)
            · cases hset
              rfl
          · intro h
            rw [Option.some.inj h]
            exact .inr rfl
        · exact List.mem_append_left _ (List.mem_append_left _ (hcap rfl hcapable))
        · exact List.mem_append_left _ (List.mem_append_right _ (hevents rfl event hmem))

theorem ubenchJvmtiContextDestroy_ensures (name : ContextName) (jvmti : JvmtiEnv) :
    (ubenchJvmtiContextDestroy name (some jvmti)).Ensures fun es b =>
      (∀ event ∈ es, event = ⟨.setJvmti name none, ()⟩ ∨
        event.1 = .disposeEnvironment name jvmti) ∧
        (b ≠ none → ∃ ok, es = [⟨.setJvmti name none, ()⟩, ⟨.disposeEnvironment name jvmti, ok⟩]) := by
  refine ask_bind_ensures.mpr ⟨⟨List.forall_mem_nil _, fun h => absurd rfl h⟩, fun _ => ?_⟩
  refine ask_ensures.mpr ⟨⟨?_, fun h => absurd rfl h⟩, fun ok => ⟨?_, fun _ => ⟨ok, rfl⟩⟩⟩
  · intro event hmem
    exact .inl (List.mem_singleton.mp hmem)
  · intro event hmem
    rcases List.mem_pair.mp hmem with rfl | rfl
    · exact .inl rfl
    · exact .inr rfl

theorem ubenchJvmtiContextInit_ensures (name : ContextName) :
    (ubenchJvmtiContextInit name).Ensures fun es b =>
      (es = [] ∧ b = none) ∨ (es = [⟨.getJvmtiEnv name, none⟩] ∧ b = some (false, none)) ∨
        ∃ jvmti, (es = [⟨.getJvmtiEnv name, some jvmti⟩] ∧ b = none) ∨
          (es = [⟨.getJvmtiEnv name, some jvmti⟩, ⟨.setJvmti name (some jvmti), ()⟩] ∧
            b = some (true, some jvmti)) := by
  refine ask_bind_ensures.mpr ⟨.inl ⟨rfl, rfl⟩, fun created => ?_⟩
  cases created with
  | none => exact pure_ensures.mpr (.inr (.inl ⟨rfl, rfl⟩))
  | some jvmti =>
    refine ask_bind_ensures.mpr ⟨.inr (.inr ⟨jvmti, .inl ⟨rfl, rfl⟩⟩), fun _ => ?_⟩
    exact pure_ensures.mpr (.inr (.inr ⟨jvmti, .inr ⟨rfl, rfl⟩⟩))

/-- The requests for a context, with the result: callbacks are set in an environment that is
fully enabled, and after a failure the environment is disposed. -/
structure Enabling (name : ContextName) (es : List AgentEvent) (b : Option Bool) : Prop where
  context : ∀ event ∈ es, event.1.jvmtiContext? = some name
  enabled : ∀ jvmti, ⟨.setEventCallbacks name jvmti, true⟩ ∈ es → FullyEnabled name jvmti es
  succeeded : b = some true → ∃ jvmti, ⟨.setEventCallbacks name jvmti, true⟩ ∈ es
  disposed : b = some false → ∀ jvmti, ⟨.getJvmtiEnv name, some jvmti⟩ ∈ es →
    (∃ ok, ⟨.disposeEnvironment name jvmti, ok⟩ ∈ es) ∧ lastWritten (jvmtiWritten name) es = none

theorem Enabling.quiet (hcontext : ∀ event ∈ es, event.1.jvmtiContext? = some name)
    (hnot : ∀ jvmti, (⟨.setEventCallbacks name jvmti, true⟩ : AgentEvent) ∉ es)
    (hb : b = none) : Enabling name es b := by
  subst hb
  exact ⟨hcontext, fun jvmti h => absurd h (hnot jvmti), (fun h => by cases h),
    (fun h => by cases h)⟩

theorem EnableActs.context (h : EnableActs name jvmti es b) :
    ∀ event ∈ es, event.1.jvmtiContext? = some name := by
  intro event hmem
  rcases h.calls event hmem with hcall | ⟨e, hcall⟩ | hcall
  · rw [hcall]
    rfl
  · rw [hcall]
    rfl
  · rw [hcall]
    rfl

theorem EnableActs.callbacks_iff (h : EnableActs name jvmti es b) (jvmti' : JvmtiEnv) :
    (⟨.setEventCallbacks name jvmti', true⟩ : AgentEvent) ∈ es ↔ jvmti' = jvmti ∧ b = some true := by
  constructor
  · intro hmem
    rcases h.calls _ hmem with hcall | ⟨e, hcall⟩ | hcall
    · cases hcall
    · cases hcall
    · cases hcall
      exact ⟨rfl, h.callbacks.mp hmem⟩
  · rintro ⟨rfl, hb⟩
    exact h.callbacks.mpr hb

theorem EnableActs.notMem (h : EnableActs name jvmti es b) :
    (∀ stored u, (⟨.setJvmti name stored, u⟩ : AgentEvent) ∉ es) ∧
      (∀ jvmti' ok, (⟨.disposeEnvironment name jvmti', ok⟩ : AgentEvent) ∉ es) ∧
      ∀ created, (⟨.getJvmtiEnv name, created⟩ : AgentEvent) ∉ es := by
  refine ⟨fun stored u hmem => ?_, fun jvmti' ok hmem => ?_, fun created hmem => ?_⟩
  all_goals
    rcases h.calls _ hmem with hcall | ⟨e, hcall⟩ | hcall
    · cases hcall
    · cases hcall
    · cases hcall

theorem ubenchJvmtiContextInitAndEnable_ensures (name : ContextName) :
    (ubenchJvmtiContextInitAndEnable name).Ensures (Enabling name) := by
  unfold ubenchJvmtiContextInitAndEnable
  refine (ubenchJvmtiContextInit_ensures name).bind (fun es hes => ?_) fun es x hes => ?_
  · refine .quiet (fun event hmem => ?_) (fun jvmti hmem => ?_) rfl
    · rcases hes with ⟨rfl, -⟩ | ⟨-, h⟩ | ⟨jvmti, ⟨rfl, -⟩ | ⟨-, h⟩⟩
      · cases hmem
      · cases h
      · rw [List.mem_singleton.mp hmem]
        rfl
      · cases h
    · rcases hes with ⟨rfl, -⟩ | ⟨-, h⟩ | ⟨jvmti, ⟨rfl, -⟩ | ⟨-, h⟩⟩
      · cases hmem
      · cases h
      · cases List.mem_singleton.mp hmem
      · cases h
  rcases hes with ⟨-, h⟩ | ⟨rfl, h⟩ | ⟨jvmti, ⟨-, h⟩ | ⟨rfl, h⟩⟩
  · cases h
  · obtain rfl := Option.some.inj h
    refine pure_ensures.mpr ⟨fun event hmem => ?_, fun jvmti hmem => ?_, (fun h => by cases h),
      fun _ jvmti hmem => ?_⟩
    · rw [List.mem_singleton.mp hmem]
      rfl
    · cases List.mem_singleton.mp hmem
    · cases List.mem_singleton.mp hmem
  · cases h
  obtain rfl := Option.some.inj h
  -- From here on the context has an environment.
  have hinit : ∀ event ∈ ([⟨.getJvmtiEnv name, some jvmti⟩,
      ⟨.setJvmti name (some jvmti), ()⟩] : List AgentEvent), event.1.jvmtiContext? = some name := by
    intro event hmem
    rcases List.mem_pair.mp hmem with rfl | rfl
    · rfl
    · rfl
  refine (ubenchJvmtiContextEnable_ensures name jvmti).bind (fun es hes => ?_) fun es ok hes => ?_
  · refine .quiet (fun event hmem => ?_) (fun jvmti' => ?_) rfl
    · exact (List.mem_append.mp hmem).elim (hinit event) (hes.context event)
    · simp [hes.callbacks_iff]
  obtain ⟨hstored, hdisposed, hcreated⟩ := hes.notMem
  cases ok with
  | true =>
    refine pure_ensures.mpr ?_
    have hset : (⟨.setEventCallbacks name jvmti, true⟩ : AgentEvent) ∈ es := hes.callbacks.mpr rfl
    rw [List.append_nil]
    refine ⟨fun event hmem => ?_, fun jvmti' hmem => ?_, fun _ => ⟨jvmti, by simp [hset]⟩,
      fun h => by cases h⟩
    · exact (List.mem_append.mp hmem).elim (hinit event) (hes.context event)
    have honly : ∀ jvmti', (⟨.setEventCallbacks name jvmti', true⟩ : AgentEvent) ∈ es →
        jvmti' = jvmti := fun jvmti' hmem => ((hes.callbacks_iff jvmti').mp hmem).1
    obtain rfl := honly jvmti' (by simpa using hmem)
    refine ⟨by simp, fun hcap => ?_, fun event hevent => ?_, by simp, ?_, ?_, ?_, ?_⟩
    · exact List.mem_append_right _ (hes.capabilities rfl hcap)
    · exact List.mem_append_right _ (hes.events rfl event hevent)
    · simp [hstored]
    · simp [hdisposed]
    · simpa using honly
    · simp [hcreated]
  | false =>
    have hnot : ∀ jvmti', (⟨.setEventCallbacks name jvmti', true⟩ : AgentEvent) ∉ es :=
      fun jvmti' hmem => by cases ((hes.callbacks_iff jvmti').mp hmem).2
    refine (ubenchJvmtiContextDestroy_ensures name jvmti).bind (fun es' hes' => ?_)
      fun es' ok hes' => ?_
    · have hcontext : ∀ event ∈ es', event.1.jvmtiContext? = some name := by
        intro event hmem
        rcases hes'.1 event hmem with rfl | h
        · rfl
        · rw [h]
          rfl
      have hnot' : ∀ jvmti', (⟨.setEventCallbacks name jvmti', true⟩ : AgentEvent) ∉ es' := by
        intro jvmti' hmem
        rcases hes'.1 _ hmem with h | h
        · cases h
        · cases h
      refine .quiet (fun event hmem => ?_) (fun jvmti' => ?_) rfl
      · rcases List.mem_append.mp hmem with hmem | hmem
        · exact hinit event hmem
        · exact (List.mem_append.mp hmem).elim (hes.context event) (hcontext event)
      · simp [hnot, hnot']
    · obtain ⟨ok, rfl⟩ := hes'.2 (fun h => by cases h)
      refine pure_ensures.mpr ?_
      refine ⟨fun event hmem => ?_, fun jvmti' hmem => ?_, (fun h => by cases h),
        fun _ jvmti' hmem => ⟨?_, ?_⟩⟩
      · rcases List.mem_append.mp hmem with hmem | hmem
        · exact hinit event hmem
        · rcases List.mem_append.mp hmem with hmem | hmem
          · exact hes.context event hmem
          · rcases List.mem_pair.mp hmem with rfl | rfl
            · rfl
            · rfl
      · simp [hnot] at hmem
      · obtain rfl : jvmti' = jvmti := by simpa [hcreated] using hmem
        exact ⟨ok, by simp⟩
      · have hnone : ([⟨.setJvmti name none, ()⟩, ⟨.disposeEnvironment name jvmti, ok⟩] :
            List AgentEvent).filterMap (jvmtiWritten name) = [none] := by
          simp [jvmtiWritten]
        rw [List.append_nil, ← List.append_assoc, lastWritten, List.filterMap_append, hnone,
          List.getLast?_concat]
        rfl

end Context

def ofContext (name : ContextName) (es : List AgentEvent) : List AgentEvent :=
  es.filter fun event => event.1.jvmtiContext? = some name

/-- The identifier of `Thread.getId` was stored, and nothing else in its place. -/
def MethodStored (es : List AgentEvent) : Prop :=
  (∃ method, ⟨.setThreadGetIdMethod (some method), ()⟩ ∈ es) ∧
    ∀ method, ⟨.setThreadGetIdMethod method, ()⟩ ∈ es → method ≠ none

/-- The requests of a program that works for some contexts only. -/
structure Acts (names : ContextName → Prop) (es : List AgentEvent) (ended : Prop) : Prop where
  touches : ∀ event ∈ es, ∀ name, event.1.context? = some name → names name
  enabling : ∀ name, ∃ b, Enabling name (ofContext name es) b ∧
    (ended → b = none → ofContext name es = [])
  method : (∃ jvmti, ⟨.setEventCallbacks .threads jvmti, true⟩ ∈ es) → MethodStored es

section Acts

variable {names names' : ContextName → Prop} {name : ContextName} {es es' : List AgentEvent}
  {ended : Prop} {b : Option Bool}

theorem mem_ofContext {event : AgentEvent} :
    event ∈ ofContext name es ↔ event ∈ es ∧ event.1.jvmtiContext? = some name := by
  rw [ofContext, List.mem_filter, decide_eq_true_iff]

theorem ofContext_append (name : ContextName) (es es' : List AgentEvent) :
    ofContext name (es ++ es') = ofContext name es ++ ofContext name es' :=
  List.filter_append ..

theorem ofContext_eq_self (h : ∀ event ∈ es, event.1.jvmtiContext? = some name) :
    ofContext name es = es :=
  List.filter_eq_self.mpr fun event hmem => decide_eq_true (h event hmem)

theorem ofContext_eq_nil (h : ∀ event ∈ es, event.1.jvmtiContext? ≠ some name) :
    ofContext name es = [] :=
  List.filter_eq_nil_iff.mpr fun event hmem => mt of_decide_eq_true (h event hmem)

theorem context_of_jvmtiContext {request : AgentRequest}
    (h : request.jvmtiContext? = some name) : request.context? = some name := by
  cases request <;> first | exact h | cases h

theorem Enabling.nil (name : ContextName) : Enabling name [] none :=
  .quiet (List.forall_mem_nil _) (fun _ => List.not_mem_nil) rfl

theorem Acts.ofContext_eq_nil (h : Acts names es ended) (hname : ¬ names name) :
    ofContext name es = [] :=
  UbenchAgent.ofContext_eq_nil fun event hmem hcontext =>
    hname (h.touches event hmem name (context_of_jvmtiContext hcontext))

theorem Acts.mono (h : Acts names es ended) (hnames : ∀ name, names name → names' name) :
    Acts names' es ended :=
  ⟨fun event hmem name hname => hnames name (h.touches event hmem name hname), h.enabling, h.method⟩

theorem Acts.weaken {ended' : Prop} (h : Acts names es ended) (hended : ended' → ended) :
    Acts names es ended' :=
  ⟨h.touches, fun name => (h.enabling name).imp fun _ hb => ⟨hb.1, fun h' => hb.2 (hended h')⟩,
    h.method⟩

theorem Acts.quiet (h : ∀ event ∈ es, event.1.context? = none) : Acts names es ended := by
  refine ⟨fun event hmem name hname => ?_, fun name => ⟨none, ?_⟩, ?_⟩
  · rw [h event hmem] at hname
    cases hname
  · have hnil : ofContext name es = [] := by
      refine UbenchAgent.ofContext_eq_nil fun event hmem hname => ?_
      have hcontext := context_of_jvmtiContext hname
      rw [h event hmem] at hcontext
      cases hcontext
    rw [hnil]
    exact ⟨.nil name, fun _ _ => rfl⟩
  · rintro ⟨jvmti, hmem⟩
    cases h _ hmem

theorem Acts.append (h : Acts names es True) (h' : Acts names' es' ended)
    (hdisjoint : ∀ name, names name → ¬ names' name) :
    Acts (fun name => names name ∨ names' name) (es ++ es') ended := by
  refine ⟨fun event hmem name hname => ?_, fun name => ?_, ?_⟩
  · exact (List.mem_append.mp hmem).imp (fun hmem => h.touches event hmem name hname)
      (fun hmem => h'.touches event hmem name hname)
  · rw [ofContext_append]
    by_cases hname : names name
    · rw [h'.ofContext_eq_nil (hdisjoint name hname), List.append_nil]
      exact (h.weaken fun _ : ended => trivial).enabling name
    · rw [h.ofContext_eq_nil hname, List.nil_append]
      exact h'.enabling name
  · -- The other program has no request for the threads.
    have hno : ∀ {names es ended}, Acts names es ended → ¬ names .threads → ∀ event ∈ es,
        event.1.context? ≠ some .threads := fun hacts hnot event hmem hcontext =>
      hnot (hacts.touches event hmem _ hcontext)
    rintro ⟨jvmti, hmem⟩
    rcases List.mem_append.mp hmem with hmem | hmem
    · have hthreads := h.touches _ hmem .threads rfl
      obtain ⟨⟨method, hmethod⟩, hall⟩ := h.method ⟨jvmti, hmem⟩
      refine ⟨⟨method, List.mem_append_left _ hmethod⟩, fun method' hmem' => ?_⟩
      rcases List.mem_append.mp hmem' with hmem' | hmem'
      · exact hall method' hmem'
      · exact absurd rfl (hno h' (hdisjoint _ hthreads) _ hmem')
    · have hthreads := h'.touches _ hmem .threads rfl
      obtain ⟨⟨method, hmethod⟩, hall⟩ := h'.method ⟨jvmti, hmem⟩
      refine ⟨⟨method, List.mem_append_right _ hmethod⟩, fun method' hmem' => ?_⟩
      rcases List.mem_append.mp hmem' with hmem' | hmem'
      · exact absurd rfl (hno h (fun hnames => hdisjoint _ hnames hthreads) _ hmem')
      · exact hall method' hmem'

theorem Enabling.acts (h : Enabling name es b) (hmethod : name = .threads →
    (∃ jvmti, ⟨.setEventCallbacks .threads jvmti, true⟩ ∈ es) → MethodStored es) :
    Acts (· = name) es (b ≠ none) := by
  refine ⟨fun event hmem name' hname => ?_, fun name' => ?_, fun hset => hmethod ?_ hset⟩
  · rw [context_of_jvmtiContext (h.context event hmem)] at hname
    exact (Option.some.inj hname).symm
  · by_cases hname : name' = name
    · rw [hname, ofContext_eq_self h.context]
      exact ⟨b, h, fun hne hb => absurd hb hne⟩
    · have hnil : ofContext name' es = [] := by
        refine UbenchAgent.ofContext_eq_nil fun event hmem hcontext => hname ?_
        rw [h.context event hmem] at hcontext
        exact (Option.some.inj hcontext).symm
      rw [hnil]
      exact ⟨none, .nil name', fun _ _ => rfl⟩
  · obtain ⟨jvmti, hmem⟩ := hset
    have hcontext := h.context _ hmem
    exact (Option.some.inj hcontext).symm

theorem Enabling.acts_threads {before : List AgentEvent} (h : Enabling .threads es b)
    (hbefore : ∀ event ∈ before, event.1.context? = some .threads ∧ event.1.jvmtiContext? = none)
    (hmethod : es ≠ [] → MethodStored before) (hended : ended → b = none → es = []) :
    Acts (· = .threads) (before ++ es) ended := by
  have hcontext : ∀ name, ofContext name before = [] := fun name =>
    UbenchAgent.ofContext_eq_nil fun event hmem hname => by
      rw [(hbefore event hmem).2] at hname
      cases hname
  refine ⟨fun event hmem name hname => ?_, fun name => ?_, ?_⟩
  · rcases List.mem_append.mp hmem with hmem | hmem
    · rw [(hbefore event hmem).1] at hname
      exact (Option.some.inj hname).symm
    · rw [context_of_jvmtiContext (h.context event hmem)] at hname
      exact (Option.some.inj hname).symm
  · rw [ofContext_append, hcontext, List.nil_append]
    by_cases hname : name = .threads
    · rw [hname, ofContext_eq_self h.context]
      exact ⟨b, h, hended⟩
    · have hnil : ofContext name es = [] := by
        refine UbenchAgent.ofContext_eq_nil fun event hmem hcontext => hname ?_
        rw [h.context event hmem] at hcontext
        exact (Option.some.inj hcontext).symm
      rw [hnil]
      exact ⟨none, .nil name, fun _ _ => rfl⟩
  · rintro ⟨jvmti, hmem⟩
    rcases List.mem_append.mp hmem with hmem | hmem
    · cases (hbefore _ hmem).2
    · obtain ⟨⟨method, hstored⟩, hall⟩ := hmethod (List.ne_nil_of_mem hmem)
      refine ⟨⟨method, List.mem_append_left _ hstored⟩, fun method' hmem' => ?_⟩
      rcases List.mem_append.mp hmem' with hmem' | hmem'
      · exact hall method' hmem'
      · cases h.context _ hmem'

theorem enableAutomaticThreadsRegistration_ensures :
    enableAutomaticThreadsRegistration.Ensures fun es b => Acts (· = .threads) es (b ≠ none) := by
  -- Before the first request for the environment.
  have hearly : ∀ {before : List AgentEvent} {ended : Prop},
      (∀ event ∈ before, event.1.context? = some .threads ∧ event.1.jvmtiContext? = none) →
        Acts (· = .threads) before ended := by
    intro before ended hbefore
    have hacts := (Enabling.nil .threads).acts_threads hbefore (fun h => absurd rfl h)
      (fun (_ : ended) _ => rfl)
    rwa [List.append_nil] at hacts
  unfold enableAutomaticThreadsRegistration
  refine ask_bind_ensures.mpr ⟨hearly (List.forall_mem_nil _), fun found => ?_⟩
  cases found with
  | false => exact pure_ensures.mpr (hearly (by simp))
  | true =>
    refine ask_bind_ensures.mpr ⟨hearly (by simp), fun method => ?_⟩
    refine ask_bind_ensures.mpr ⟨hearly (by simp), fun _ => ?_⟩
    cases method with
    | none => exact pure_ensures.mpr (hearly (by simp))
    | some method =>
      refine (ubenchJvmtiContextInitAndEnable_ensures .threads).mono fun es b hes => ?_
      change Acts _ ([⟨.findThreadClass, true⟩, ⟨.getMethodID, some method⟩,
        ⟨.setThreadGetIdMethod (some method), ()⟩] ++ es) _
      exact hes.acts_threads (by simp) (fun _ => ⟨⟨method, by simp⟩, by simp⟩)
        (fun hne hb => absurd hb hne)

/-- The threads module works for the thread callbacks, or for the callback that will. -/
theorem ubenchThreadsInit_ensures :
    ubenchThreadsInit.Ensures fun es b => ∃ name, name ≠ .counters ∧
      Acts (· = name) es (b ≠ none) := by
  have hjni : ∀ {available : Bool} {ended : Prop},
      Acts (fun _ => False) [⟨.getJniEnv, available⟩] ended := .quiet (by simp)
  unfold ubenchThreadsInit
  refine ask_bind_ensures.mpr ⟨⟨.init, by decide, .quiet (List.forall_mem_nil _)⟩,
    fun available => ?_⟩
  cases available with
  | true =>
    refine enableAutomaticThreadsRegistration_ensures.mono fun es b hes => ?_
    refine ⟨.threads, by decide, ?_⟩
    exact (hjni.append hes fun name hname => hname.elim).mono fun name hname => hname.resolve_left id
  | false =>
    refine (ubenchJvmtiContextInitAndEnable_ensures .init).mono fun es b hes => ?_
    refine ⟨.init, by decide, ?_⟩
    have hacts := hes.acts fun h => by cases h
    exact (hjni.append hacts fun name hname => hname.elim).mono
      fun name hname => hname.resolve_left id

theorem ubenchMeasurementInit_ensures (papiVerCurrent : Option Int32) :
    (ubenchMeasurementInit papiVerCurrent).Ensures fun es b =>
      (∀ event ∈ es, event.1 = .papiLibraryInit ∨ event.1 = .papiThreadInit) ∧
        (es.countP fun event => event.1 = .papiLibraryInit) ≤ 1 ∧ b ≠ some false := by
  unfold ubenchMeasurementInit
  cases papiVerCurrent with
  | none => exact pure_ensures.mpr (by simp)
  | some current =>
    refine ask_bind_ensures.mpr ⟨by simp, fun libInitRc => ?_⟩
    split_ifs with hversion
    · exact ensures_request.mpr ⟨by simp, fun answer => answer.elim⟩
    · unfold checkPapiError
      by_cases hlib : libInitRc < 0
      · rw [if_pos hlib]
        exact ensures_request.mpr ⟨by simp, fun answer => answer.elim⟩
      · rw [if_neg hlib]
        refine ask_bind_ensures.mpr ⟨by simp, fun threadInitRc => ?_⟩
        by_cases hthread : threadInitRc < 0
        · rw [if_pos hthread]
          exact ensures_request.mpr ⟨by simp, fun answer => answer.elim⟩
        · rw [if_neg hthread]
          exact pure_ensures.mpr (by simp)

def AgentRequest.IsForContext (call : AgentRequest) : Prop :=
  call = .getJniEnv ∨ ∃ name, call.context? = some name

theorem ubenchJvmtiContextInitAndEnable_uses (name : ContextName) :
    (ubenchJvmtiContextInitAndEnable name).Uses AgentRequest.IsForContext :=
  (ubenchJvmtiContextInitAndEnable_ensures name).mono fun _ _ hes event hmem =>
    .inr ⟨name, context_of_jvmtiContext (hes.context event hmem)⟩

theorem enableAutomaticThreadsRegistration_uses :
    enableAutomaticThreadsRegistration.Uses AgentRequest.IsForContext := by
  refine uses_request (.inr ⟨.threads, rfl⟩) fun found => ?_
  cases found with
  | false => exact uses_done _
  | true =>
    refine uses_request (.inr ⟨.threads, rfl⟩) fun method => ?_
    refine uses_request (.inr ⟨.threads, rfl⟩) fun _ => ?_
    cases method with
    | none => exact uses_done _
    | some method => exact ubenchJvmtiContextInitAndEnable_uses .threads

theorem ubenchThreadsInit_uses : ubenchThreadsInit.Uses AgentRequest.IsForContext := by
  refine uses_request (.inl rfl) fun available => ?_
  cases available with
  | false => exact ubenchJvmtiContextInitAndEnable_uses .init
  | true => exact enableAutomaticThreadsRegistration_uses

/-- The requests of the start: the modules are initialised only by the first one. -/
structure StartupActs (es : List AgentEvent) (ended : Prop) : Prop where
  guard : es = [] ∨ ∃ old rest, es = ⟨.incStartupGuard, old⟩ :: rest ∧
    (∀ event ∈ rest, event.1 ≠ .incStartupGuard) ∧ (old ≠ 0 → rest = [])
  acts : ∃ name, name ≠ .counters ∧ Acts (fun name' => name' = .counters ∨ name' = name) es ended
  library : (es.countP fun event => event.1 = .papiLibraryInit) ≤ 1

theorem countP_eq_zero_of_isForContext (h : ∀ event ∈ es, event.1.IsForContext) :
    (es.countP fun event => event.1 = .papiLibraryInit) = 0 := by
  refine List.countP_eq_zero.mpr fun event hmem hlibrary => ?_
  rcases h event hmem with hcall | ⟨name, hcall⟩
  · rw [of_decide_eq_true hlibrary] at hcall
    cases hcall
  · rw [of_decide_eq_true hlibrary] at hcall
    cases hcall

theorem ne_incStartupGuard_of_isForContext {call : AgentRequest} (h : call.IsForContext) :
    call ≠ .incStartupGuard := by
  rintro rfl
  rcases h with h | ⟨name, h⟩
  · cases h
  · cases h

theorem StartupActs.first
    (hacts : ∃ name, name ≠ .counters ∧
      Acts (fun name' => name' = .counters ∨ name' = name) es ended)
    (hguard : ∀ event ∈ es, event.1 ≠ .incStartupGuard)
    (hlibrary : (es.countP fun event => event.1 = .papiLibraryInit) ≤ 1) :
    StartupActs (⟨.incStartupGuard, (0 : Int32)⟩ :: es) ended := by
  refine ⟨.inr ⟨0, es, rfl, hguard, fun h => absurd rfl h⟩, ?_, ?_⟩
  · obtain ⟨name, hname, hacts⟩ := hacts
    have hfirst : Acts (fun _ => False) [⟨.incStartupGuard, (0 : Int32)⟩] True := .quiet (by simp)
    refine ⟨name, hname, ?_⟩
    exact (hfirst.append hacts fun _ h => h.elim).mono fun _ h => h.resolve_left id
  · rw [List.countP_cons_of_neg (by simp)]
    exact hlibrary

theorem ubenchStartup_ensures (papiVerCurrent : Option Int32) :
    (ubenchStartup papiVerCurrent).Ensures fun es b => StartupActs es (b ≠ none) ∧
      b ≠ some false := by
  unfold ubenchStartup
  refine ask_bind_ensures.mpr ⟨⟨⟨.inl rfl, ⟨.init, by decide, .quiet (by simp)⟩, by simp⟩, by simp⟩,
    fun old => ?_⟩
  by_cases hold : old = 0
  · rw [if_neg (not_not.mpr hold), hold]
    -- The counters module.
    refine ((ubenchJvmtiContextInitAndEnable_ensures .counters).and
      (ubenchJvmtiContextInitAndEnable_uses .counters)).bind (fun es ⟨hes, hcontext⟩ => ?_)
      fun es _ ⟨hes, hcontext⟩ => ?_
    · refine ⟨.first ⟨.init, by decide, ?_⟩ ?_ ?_, by simp⟩
      · exact (hes.acts fun h => by cases h).mono fun _ => .inl
      · exact fun event hmem => ne_incStartupGuard_of_isForContext (hcontext event hmem)
      · rw [countP_eq_zero_of_isForContext hcontext]
        exact Nat.zero_le 1
    have hcounters : Acts (· = .counters) es True :=
      (hes.acts fun h => by cases h).weaken fun _ h => by cases h
    -- The threads module.
    refine (ubenchThreadsInit_ensures.and ubenchThreadsInit_uses).bind
      (fun es' ⟨⟨name, hname, hes'⟩, hcontext'⟩ => ?_)
      fun es' _ ⟨⟨name, hname, hes'⟩, hcontext'⟩ => ?_
    · have hall : ∀ event ∈ es ++ es', event.1.IsForContext :=
        List.forall_mem_append.mpr ⟨hcontext, hcontext'⟩
      refine ⟨.first ⟨name, hname, ?_⟩ ?_ ?_, by simp⟩
      · exact hcounters.append hes' fun name' h h' => hname (h' ▸ h)
      · exact fun event hmem => ne_incStartupGuard_of_isForContext (hall event hmem)
      · rw [countP_eq_zero_of_isForContext hall]
        exact Nat.zero_le 1
    have hall : ∀ event ∈ es ++ es', event.1.IsForContext :=
      List.forall_mem_append.mpr ⟨hcontext, hcontext'⟩
    have hacts : Acts (fun name' => name' = .counters ∨ name' = name) (es ++ es') True :=
      hcounters.append (hes'.weaken fun _ h => by cases h) fun name' h h' => hname (h' ▸ h)
    -- The measurement module.
    have hmeasurement : ∀ {es₁ : List AgentEvent} {ended : Prop},
        (∀ event ∈ es₁, event.1 = .papiLibraryInit ∨ event.1 = .papiThreadInit) →
        (es₁.countP fun event => event.1 = .papiLibraryInit) ≤ 1 →
        StartupActs (⟨.incStartupGuard, (0 : Int32)⟩ :: (es ++ (es' ++ es₁))) ended := by
      intro es₁ ended hpapi hlibrary
      rw [← List.append_assoc]
      refine .first ⟨name, hname, ?_⟩ (fun event hmem => ?_) ?_
      · have hquiet : Acts (fun _ => False) es₁ ended := by
          refine .quiet fun event hmem => ?_
          rcases hpapi event hmem with h | h
          · rw [h]
            rfl
          · rw [h]
            rfl
        exact (hacts.append hquiet fun _ _ h => h).mono fun _ h => h.resolve_right id
      · rcases List.mem_append.mp hmem with hmem | hmem
        · exact ne_incStartupGuard_of_isForContext (hall event hmem)
        · rcases hpapi event hmem with h | h
          · rw [h]
            exact fun h => by cases h
          · rw [h]
            exact fun h => by cases h
      · rw [List.countP_append, countP_eq_zero_of_isForContext hall, Nat.zero_add]
        exact hlibrary
    refine (ubenchMeasurementInit_ensures papiVerCurrent).bind
      (fun es₁ ⟨hpapi, hlibrary, _⟩ => ⟨hmeasurement hpapi hlibrary, by simp⟩)
      fun es₁ ok ⟨hpapi, hlibrary, hok⟩ => ?_
    cases ok with
    | false => exact absurd rfl hok
    | true =>
      refine pure_ensures.mpr ?_
      rw [List.append_nil]
      exact ⟨hmeasurement hpapi hlibrary, by simp⟩
  · rw [if_pos hold]
    refine pure_ensures.mpr ⟨⟨.inr ⟨old, [], rfl, List.forall_mem_nil _, fun _ => rfl⟩,
      ⟨.init, by decide, .quiet (by simp)⟩, by simp⟩, by simp⟩

end Acts

section Origins

variable {papiVerCurrent : Option Int32}

/-- A load starts the agent, and never fails. -/
theorem load_ensures {origin : Origin} (h : origin = .agentOnLoad ∨ origin = .jniOnLoad) :
    (origin.program papiVerCurrent).Ensures fun es b => StartupActs es (b ≠ none) ∧
      ∀ code, b = some code → code = some (if origin = .agentOnLoad then jniOk else jniVersion18) := by
  rcases h with rfl | rfl
  all_goals
    refine (ubenchStartup_ensures papiVerCurrent).bind (fun es ⟨hes, _⟩ => ⟨?_, by simp⟩)
      fun es ok ⟨hes, hok⟩ => ?_
    · exact ⟨hes.guard, hes.acts.imp fun _ h => ⟨h.1, h.2.weaken fun h => absurd rfl h⟩, hes.library⟩
    · refine pure_ensures.mpr ⟨?_, fun code hcode => ?_⟩
      · rw [List.append_nil]
        exact ⟨hes.guard, hes.acts.imp fun _ h => ⟨h.1, h.2.weaken fun _ h => by cases h⟩,
          hes.library⟩
      · cases ok with
        | false => exact absurd rfl hok
        | true => exact (Option.some.inj hcode).symm

/-- What a callback asks for is what its origin does. -/
theorem callback_ensures {jvmti : JvmtiEnv} {event : JvmtiEvent}
    {R : List AgentEvent → Prop → Prop} (h : event.callback.Ensures fun es b => R es (b ≠ none)) :
    ((Origin.callback jvmti event).program papiVerCurrent).Ensures fun es b => R es (b ≠ none) := by
  refine h.bind (fun es hes => by simpa using hes) fun es _ hes => pure_ensures.mpr ?_
  rw [List.append_nil]
  simpa using hes

theorem vmInit_ensures (papiVerCurrent : Option Int32) (jvmti : JvmtiEnv) :
    ((Origin.callback jvmti .vmInit).program papiVerCurrent).Ensures fun es b =>
      Acts (· = .threads) es (b ≠ none) := by
  refine callback_ensures (R := Acts (· = .threads)) ?_
  have hobtained : ∀ {obtained : Bool} {ended : Prop},
      Acts (fun _ => False) [⟨.getJavaVM, obtained⟩] ended := .quiet (by simp)
  refine ask_bind_ensures.mpr ⟨.quiet (by simp), fun obtained => ?_⟩
  cases obtained with
  | false => exact pure_ensures.mpr (.quiet (by simp))
  | true =>
    refine enableAutomaticThreadsRegistration_ensures.bind (fun es hes => ?_) fun es _ hes => ?_
    · exact ((hobtained.append hes fun _ h => h.elim).mono fun _ h => h.resolve_left id).weaken
        fun h => absurd rfl h
    · refine pure_ensures.mpr ?_
      rw [List.append_nil]
      exact ((hobtained.append hes fun _ h => h.elim).mono fun _ h => h.resolve_left id).weaken
        fun _ h => by cases h

structure Origin.Allows (origin : Origin) (call : AgentRequest) : Prop where
  method : call = .threadGetIdMethod → ∃ jvmti, origin = .callback jvmti .threadStart
  modules : call = .incStartupGuard ∨ call = .papiLibraryInit →
    origin = .agentOnLoad ∨ origin = .jniOnLoad
  context : call.context? ≠ none →
    (origin = .agentOnLoad ∨ origin = .jniOnLoad) ∨ ∃ jvmti, origin = .callback jvmti .vmInit

theorem AgentRequest.IsForContext.ne_threadGetIdMethod {call : AgentRequest}
    (h : call.IsForContext) : call ≠ .threadGetIdMethod := by
  rintro rfl
  rcases h with h | ⟨name, h⟩
  · cases h
  · cases h

theorem ubenchStartup_uses (papiVerCurrent : Option Int32) :
    (ubenchStartup papiVerCurrent).Uses fun call => call ≠ .threadGetIdMethod := by
  refine ask_bind_uses (by simp) fun old => ?_
  split_ifs
  · exact uses_done _
  refine ((ubenchJvmtiContextInitAndEnable_uses .counters).mono
    fun _ h => h.ne_threadGetIdMethod).bind fun _ => ?_
  refine (ubenchThreadsInit_uses.mono fun _ h => h.ne_threadGetIdMethod).bind fun _ => ?_
  have hmeasurement : (ubenchMeasurementInit papiVerCurrent).Uses
      fun call => call ≠ .threadGetIdMethod := by
    refine (ubenchMeasurementInit_ensures papiVerCurrent).mono fun es _ hes event hmem => ?_
    rcases hes.1 event hmem with h | h
    · rw [h]
      exact fun h => by cases h
    · rw [h]
      exact fun h => by cases h
  refine hmeasurement.bind fun ok => ?_
  cases ok with
  | false => exact uses_done _
  | true => exact uses_done _

theorem load_allows {origin : Origin} (h : origin = .agentOnLoad ∨ origin = .jniOnLoad) :
    (origin.program papiVerCurrent).Uses origin.Allows := by
  have hload : ∀ call : AgentRequest, call ≠ .threadGetIdMethod → origin.Allows call :=
    fun call hcall => ⟨fun h' => absurd h' hcall, fun _ => h, fun _ => .inl h⟩
  rcases h with rfl | rfl
  · exact ((ubenchStartup_uses papiVerCurrent).mono hload).bind fun _ => uses_done _
  · exact ((ubenchStartup_uses papiVerCurrent).mono hload).bind fun _ => uses_done _

theorem vmInit_allows (jvmti : JvmtiEnv) :
    ((Origin.callback jvmti .vmInit).program papiVerCurrent).Uses
      (Origin.callback jvmti .vmInit).Allows := by
  have hcontext : ∀ call : AgentRequest, call.IsForContext →
      (Origin.callback jvmti .vmInit).Allows call := by
    intro call hcall
    refine ⟨fun h => absurd h hcall.ne_threadGetIdMethod, fun h => ?_, fun _ => .inr ⟨jvmti, rfl⟩⟩
    rcases h with rfl | rfl
    · exact absurd rfl (ne_incStartupGuard_of_isForContext hcall)
    · rcases hcall with hcall | ⟨name, hcall⟩
      · cases hcall
      · cases hcall
  refine Uses.bind ?_ fun _ => uses_done _
  refine uses_request ⟨(fun h => by cases h), by simp, by simp⟩ fun obtained => ?_
  cases obtained with
  | false => exact uses_done _
  | true => exact (enableAutomaticThreadsRegistration_uses.mono hcontext).bind fun _ => uses_done _

theorem callback_allows {jvmti : JvmtiEnv} {event : JvmtiEvent} (h : event ≠ .vmInit) :
    ((Origin.callback jvmti event).program papiVerCurrent).Uses
      (Origin.callback jvmti event).Allows := by
  have hother : ∀ call : AgentRequest, call.context? = none → call ≠ .threadGetIdMethod →
      call ≠ .incStartupGuard → call ≠ .papiLibraryInit →
        (Origin.callback jvmti event).Allows call := fun call hnone hmethod hguard hlibrary =>
    ⟨fun h' => absurd h' hmethod, fun h' => (h'.elim hguard hlibrary).elim,
      fun h' => absurd hnone h'⟩
  refine Uses.bind ?_ fun _ => uses_done _
  cases event with
  | vmInit => exact absurd rfl h
  | threadStart =>
    refine uses_request ⟨fun _ => ⟨jvmti, rfl⟩, by simp, by simp⟩ fun _ => ?_
    refine uses_request (by apply hother <;> simp) fun _ => ?_
    refine uses_request (by apply hother <;> simp) fun _ => ?_
    exact uses_request (by apply hother <;> simp) fun _ => uses_done _
  | threadEnd =>
    refine uses_request (by apply hother <;> simp) fun _ => ?_
    exact uses_request (by apply hother <;> simp) fun _ => uses_done _
  | compiledMethodLoad =>
    refine uses_request (by apply hother <;> simp) fun _ => ?_
    exact uses_request (by apply hother <;> simp) fun _ => uses_done _
  | garbageCollectionFinish =>
    exact uses_request (by apply hother <;> simp) fun _ => uses_done _

theorem origin_allows (origin : Origin) : (origin.program papiVerCurrent).Uses origin.Allows := by
  cases origin with
  | agentOnLoad => exact load_allows (.inl rfl)
  | jniOnLoad => exact load_allows (.inr rfl)
  | callback jvmti event =>
    by_cases h : event = .vmInit
    · rw [h]
      exact vmInit_allows jvmti
    · exact callback_allows h

end Origins

end UbenchAgent
