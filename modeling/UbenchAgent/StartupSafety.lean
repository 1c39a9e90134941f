import UbenchAgent.StartupPrograms
import Mathlib.Algebra.GroupWithZero.Nat

/-!
# Safe starts

However loads and callbacks interleave, each module is started once, callbacks run only in
environments that are fully enabled, and no thread callback runs before the identifier of
`Thread.getId` is there.
-/

namespace UbenchAgent

open Program

section Owners

variable {papiVerCurrent : Option Int32} {tr : List AgentEntry}
  {ps : ℕ → Option (AgentProgram (Option Int32))} {i j : ℕ} {name : ContextName}

def WorksFor (tr : List AgentEntry) (i : ℕ) (name : ContextName) : Prop :=
  ∃ event, .act i event ∈ tr ∧ event.1.context? = some name

theorem startups_pos {old : Int32} (h : .act i ⟨.incStartupGuard, old⟩ ∈ tr) : 0 < startups tr := by
  rw [startups, List.countP_pos_iff]
  exact ⟨_, mem_allActs.mpr ⟨i, h⟩, by simp⟩

theorem startups_append (tr tr' : List AgentEntry) :
    startups (tr ++ tr') = startups tr + startups tr' := by
  rw [startups, allActs, List.filterMap_append, List.countP_append]
  rfl

/-- The counter of starts has not come round to zero again. -/
theorem ofNat_startups_ne_zero (hpos : 0 < startups tr) (hlt : startups tr < 2 ^ 32) :
    Int32.ofNat (startups tr) ≠ 0 := by
  intro h
  have htoNat := congrArg (fun n : Int32 => n.toBitVec.toNat) h
  simp only [Int32.toBitVec_ofNat', BitVec.toNat_ofNat] at htoNat
  rw [Nat.mod_eq_of_lt hlt] at htoNat
  exact hpos.ne' htoNat

/-- Only one start is the first one. -/
theorem first_unique (h : (agentSystem papiVerCurrent).Runs tr ps) (hlt : startups tr < 2 ^ 32)
    (hi : .act i ⟨.incStartupGuard, (0 : Int32)⟩ ∈ tr)
    (hj : .act j ⟨.incStartupGuard, (0 : Int32)⟩ ∈ tr) : i = j := by
  -- The second one of two would read that there was one before it.
  have hsecond : ∀ {i j before after}, tr = before ++ .act j ⟨.incStartupGuard, (0 : Int32)⟩ :: after →
      .act i ⟨.incStartupGuard, (0 : Int32)⟩ ∈ before → False := by
    intro i j before after hsplit hmem
    have hanswer : (0 : Int32) = Int32.ofNat (startups before) := h.mayAnswer hsplit
    have hle : startups before ≤ startups tr := by
      rw [hsplit, startups_append]
      exact Nat.le_add_right _ _
    exact ofNat_startups_ne_zero (startups_pos hmem) (hle.trans_lt hlt) hanswer.symm
  by_contra hne
  rcases exists_order hi hj (fun h => hne (Entry.act.inj h).1) with
    ⟨before, after, hsplit, hmem⟩ | ⟨before, after, hsplit, hmem⟩
  · exact hsecond hsplit hmem
  · exact hsecond hsplit hmem

theorem first_of_act (h : (agentSystem papiVerCurrent).Runs tr ps) {origin : Origin}
    (horigin : origin = .agentOnLoad ∨ origin = .jniOnLoad) (hstart : .start i origin ∈ tr)
    {event : AgentEvent} (hmem : .act i event ∈ tr) (hevent : event.1 ≠ .incStartupGuard) :
    .act i ⟨.incStartupGuard, (0 : Int32)⟩ ∈ tr := by
  obtain ⟨p, -, hacts, -⟩ := h.ensures (load_ensures horigin) hstart
  have hmem' := mem_acts.mpr hmem
  rcases hacts.guard with hnil | ⟨old, rest, hes, -, hrest⟩
  · rw [hnil] at hmem'
    cases hmem'
  · have hold : old = 0 := by
      by_contra hne
      rw [hes, hrest hne] at hmem'
      rw [List.mem_singleton.mp hmem'] at hevent
      exact hevent rfl
    rw [← mem_acts, hes, hold]
    exact List.mem_cons_self

theorem vmInit_acts (h : (agentSystem papiVerCurrent).Runs tr ps) {jvmti : JvmtiEnv}
    (hstart : .start i (.callback jvmti .vmInit) ∈ tr) :
    ∃ p, ps i = some p ∧ Acts (· = .threads) (acts i tr) (p.result? ≠ none) := by
  have hvmInit : ((agentSystem papiVerCurrent).program (.callback jvmti .vmInit)).Ensures
      fun es b => Acts (· = .threads) es (b ≠ none) :=
    vmInit_ensures papiVerCurrent jvmti
  exact h.ensures hvmInit hstart

/-- Who works for a context: the first load, or the callback for `VMInit` for the threads. -/
theorem worksFor_cases (h : (agentSystem papiVerCurrent).Runs tr ps) (hworks : WorksFor tr i name) :
    (∃ origin, (origin = .agentOnLoad ∨ origin = .jniOnLoad) ∧ .start i origin ∈ tr ∧
      .act i ⟨.incStartupGuard, (0 : Int32)⟩ ∈ tr) ∨
      ∃ jvmti, .start i (.callback jvmti .vmInit) ∈ tr ∧ name = .threads := by
  obtain ⟨event, hmem, hcontext⟩ := hworks
  obtain ⟨origin, hstart⟩ := h.exists_start hmem
  have hallows := h.allows (origin_allows origin) hstart hmem
  rcases hallows.context (by rw [hcontext]; exact Option.some_ne_none name) with
    horigin | ⟨jvmti, rfl⟩
  · refine .inl ⟨origin, horigin, hstart, first_of_act h horigin hstart hmem fun hguard => ?_⟩
    rw [hguard] at hcontext
    cases hcontext
  · obtain ⟨p, -, hacts⟩ := vmInit_acts h hstart
    exact .inr ⟨jvmti, hstart, hacts.touches event (mem_acts.mpr hmem) name hcontext⟩

theorem exists_acts (h : (agentSystem papiVerCurrent).Runs tr ps) (hworks : WorksFor tr i name) :
    ∃ names p, ps i = some p ∧ Acts names (acts i tr) (p.result? ≠ none) ∧
      (names .threads → ¬ names .init) := by
  rcases worksFor_cases h hworks with ⟨origin, horigin, hstart, -⟩ | ⟨jvmti, hstart, -⟩
  · obtain ⟨p, hp, hacts, -⟩ := h.ensures (load_ensures horigin) hstart
    obtain ⟨name', -, hacts⟩ := hacts.acts
    refine ⟨_, p, hp, hacts, fun hthreads hinit => ?_⟩
    have hname := hthreads.resolve_left (by decide)
    rw [← hname] at hinit
    exact absurd hinit (by decide)
  · obtain ⟨p, hp, hacts⟩ := vmInit_acts h hstart
    exact ⟨_, p, hp, hacts, fun _ => by decide⟩

theorem worksFor_of_jvmtiContext {event : AgentEvent} (hmem : .act i event ∈ tr)
    (hcontext : event.1.jvmtiContext? = some name) : WorksFor tr i name :=
  ⟨event, hmem, context_of_jvmtiContext hcontext⟩

theorem fullyEnabled_of_callbacks (h : (agentSystem papiVerCurrent).Runs tr ps) {jvmti : JvmtiEnv}
    (hmem : .act i ⟨.setEventCallbacks name jvmti, true⟩ ∈ tr) :
    FullyEnabled name jvmti (ofContext name (acts i tr)) := by
  obtain ⟨names, p, -, hacts, -⟩ := exists_acts h (worksFor_of_jvmtiContext hmem rfl)
  obtain ⟨b, henabling, -⟩ := hacts.enabling name
  exact henabling.enabled jvmti (mem_ofContext.mpr ⟨mem_acts.mpr hmem, rfl⟩)

theorem vmInit_setter (h : (agentSystem papiVerCurrent).Runs tr ps) {jvmti : JvmtiEnv}
    (hstart : .start i (.callback jvmti .vmInit) ∈ tr) :
    ∃ k, .act k ⟨.incStartupGuard, (0 : Int32)⟩ ∈ tr ∧
      .act k ⟨.setEventCallbacks .init jvmti, true⟩ ∈ tr := by
  obtain ⟨before, after, hsplit⟩ := List.append_of_mem hstart
  obtain ⟨⟨k, name, hset, hevent⟩, -⟩ := h.mayStart hsplit
  have hname : name = .init := by
    cases name with
    | counters => exact absurd hevent (by decide)
    | threads => exact absurd hevent (by decide)
    | init => rfl
  rw [hname] at hset
  have hmem : .act k ⟨.setEventCallbacks .init jvmti, true⟩ ∈ tr := by
    rw [hsplit]
    exact List.mem_append_left _ hset
  rcases worksFor_cases h (worksFor_of_jvmtiContext hmem rfl) with
    ⟨origin, -, -, hfirst⟩ | ⟨jvmti', -, hthreads⟩
  · exact ⟨k, hfirst, hmem⟩
  · cases hthreads

/-- The virtual machine runs the callback for `VMInit` once. -/
theorem vmInit_unique (h : (agentSystem papiVerCurrent).Runs tr ps) (hlt : startups tr < 2 ^ 32)
    {jvmti jvmti' : JvmtiEnv} (hi : .start i (.callback jvmti .vmInit) ∈ tr)
    (hj : .start j (.callback jvmti' .vmInit) ∈ tr) : i = j := by
  obtain ⟨k, hfirst, hset⟩ := vmInit_setter h hi
  obtain ⟨k', hfirst', hset'⟩ := vmInit_setter h hj
  obtain rfl := first_unique h hlt hfirst hfirst'
  obtain rfl : jvmti' = jvmti := (fullyEnabled_of_callbacks h hset).only jvmti'
    (mem_ofContext.mpr ⟨mem_acts.mpr hset', rfl⟩)
  by_contra hne
  rcases exists_order hi hj (fun h => hne (Entry.start.inj h).1) with
    ⟨before, after, hsplit, hmem⟩ | ⟨before, after, hsplit, hmem⟩
  · exact (h.mayStart hsplit).2 rfl i hmem
  · exact (h.mayStart hsplit).2 rfl j hmem

theorem not_vmInit_of_worksFor (h : (agentSystem papiVerCurrent).Runs tr ps)
    (hlt : startups tr < 2 ^ 32) (hfirst : .act i ⟨.incStartupGuard, (0 : Int32)⟩ ∈ tr)
    (hworks : WorksFor tr i .threads) (jvmti : JvmtiEnv) :
    .start j (.callback jvmti .vmInit) ∉ tr := by
  intro hstart
  obtain ⟨k, hfirst', hset⟩ := vmInit_setter h hstart
  obtain rfl := first_unique h hlt hfirst hfirst'
  obtain ⟨names, p, -, hacts, hexclusive⟩ := exists_acts h hworks
  obtain ⟨event, hmem, hcontext⟩ := hworks
  exact hexclusive (hacts.touches event (mem_acts.mpr hmem) _ hcontext)
    (hacts.touches _ (mem_acts.mpr hset) _ rfl)

/-- Each context has one program that works for it. -/
theorem worksFor_unique (h : (agentSystem papiVerCurrent).Runs tr ps) (hlt : startups tr < 2 ^ 32)
    (hi : WorksFor tr i name) (hj : WorksFor tr j name) : i = j := by
  rcases worksFor_cases h hi with ⟨-, -, -, hfirst⟩ | ⟨jvmti, hstart, hname⟩
  · rcases worksFor_cases h hj with ⟨-, -, -, hfirst'⟩ | ⟨jvmti, hstart, hname⟩
    · exact first_unique h hlt hfirst hfirst'
    · exact absurd hstart (not_vmInit_of_worksFor h hlt hfirst (hname ▸ hi) jvmti)
  · rcases worksFor_cases h hj with ⟨-, -, -, hfirst⟩ | ⟨jvmti', hstart', -⟩
    · exact absurd hstart (not_vmInit_of_worksFor h hlt hfirst (hname ▸ hj) jvmti)
    · exact vmInit_unique h hlt hstart hstart'

end Owners

section Safety

variable {papiVerCurrent : Option Int32} {tr : List AgentEntry}
  {ps : ℕ → Option (AgentProgram (Option Int32))} {i j : ℕ} {name : ContextName}

/-- A variable that only one program writes has a value that the program gave it. -/
theorem lastWritten_of_owner {β : Type} {written : AgentEvent → Option (Option β)}
    {P : Option β → Prop}
    (howner : ∀ j event, .act j event ∈ tr → (written event).isSome = true → j = i)
    (hvalue : ∀ event ∈ acts i tr, ∀ value, written event = some value → P value)
    (hsome : ∃ event ∈ acts i tr, (written event).isSome = true) :
    P (lastWritten written (allActs tr)) := by
  rw [lastWritten, filterMap_allActs howner]
  have hall : ∀ value ∈ (acts i tr).filterMap written, P value := by
    intro value hmem
    obtain ⟨event, hevent, hwritten⟩ := List.mem_filterMap.mp hmem
    exact hvalue event hevent value hwritten
  have hne : (acts i tr).filterMap written ≠ [] := by
    obtain ⟨event, hevent, hsome⟩ := hsome
    obtain ⟨value, hwritten⟩ := Option.isSome_iff_exists.mp hsome
    exact List.ne_nil_of_mem (List.mem_filterMap.mpr ⟨event, hevent, hwritten⟩)
  rw [List.getLast?_eq_some_getLast hne, Option.join_some]
  exact hall _ (List.getLast_mem hne)

theorem methodWritten_eq_some {event : AgentEvent} {method : Option JMethodID}
    (h : methodWritten event = some method) : event = ⟨.setThreadGetIdMethod method, ()⟩ := by
  obtain ⟨call, answer⟩ := event
  cases call <;> first | cases h; rfl | cases h

theorem jvmtiWritten_eq_some {event : AgentEvent} {stored : Option JvmtiEnv}
    (h : jvmtiWritten name event = some stored) : event = ⟨.setJvmti name stored, ()⟩ := by
  obtain ⟨call, answer⟩ := event
  cases call with
  | setJvmti name' jvmti =>
    rw [jvmtiWritten] at h
    split_ifs at h with hname
    rw [hname, Option.some.inj h]
  | _ => cases h

theorem callback_set (h : (agentSystem papiVerCurrent).Runs tr ps) {jvmti : JvmtiEnv}
    {event : JvmtiEvent} (hstart : .start i (.callback jvmti event) ∈ tr) :
    ∃ k name, .act k ⟨.setEventCallbacks name jvmti, true⟩ ∈ tr ∧
      event ∈ name.context.callbacks := by
  obtain ⟨before, after, hsplit⟩ := List.append_of_mem hstart
  obtain ⟨⟨k, name, hset, hevent⟩, -⟩ := h.mayStart hsplit
  refine ⟨k, name, ?_, hevent⟩
  rw [hsplit]
  exact List.mem_append_left _ hset

/-- No thread callback runs before the identifier of `Thread.getId` is stored, and it is never
lost afterwards. -/
theorem threadGetIdMethod_stored (h : (agentSystem papiVerCurrent).Runs tr ps)
    (hlt : startups tr < 2 ^ 32) {method : Option JMethodID}
    (hread : .act i ⟨.threadGetIdMethod, method⟩ ∈ tr) : method ≠ none := by
  obtain ⟨before, after, hsplit⟩ := List.append_of_mem hread
  obtain rfl : method = lastWritten methodWritten (allActs before) := h.mayAnswer hsplit
  rw [hsplit] at h hlt
  rw [startups_append] at hlt
  obtain ⟨ps', hbefore⟩ := h.before
  have hlt : startups before < 2 ^ 32 := (Nat.le_add_right _ _).trans_lt hlt
  -- The callback has started before it reads the variable.
  obtain ⟨jvmti, hstart⟩ : ∃ jvmti, .start i (.callback jvmti .threadStart) ∈ before := by
    rw [← List.singleton_append, ← List.append_assoc] at h
    obtain ⟨ps₁, h₁⟩ := h.before
    have hmem : Entry.act i ⟨.threadGetIdMethod, lastWritten methodWritten (allActs before)⟩ ∈
        before ++ [.act i ⟨.threadGetIdMethod, lastWritten methodWritten (allActs before)⟩] :=
      List.mem_append_right _ (List.mem_singleton_self _)
    obtain ⟨origin, hstart⟩ := h₁.exists_start hmem
    obtain ⟨jvmti, rfl⟩ := (h₁.allows (origin_allows origin) hstart hmem).method rfl
    refine ⟨jvmti, ?_⟩
    rcases List.mem_append.mp hstart with hstart | hstart
    · exact hstart
    · cases List.mem_singleton.mp hstart
  obtain ⟨k, name, hset, hevent⟩ := callback_set hbefore hstart
  have hname : name = .threads := by
    cases name with
    | counters => exact absurd hevent (by decide)
    | threads => rfl
    | init => exact absurd hevent (by decide)
  rw [hname] at hset
  have hworks : WorksFor before k .threads := worksFor_of_jvmtiContext hset rfl
  obtain ⟨names, p, -, hacts, -⟩ := exists_acts hbefore hworks
  obtain ⟨⟨stored, hstored⟩, hall⟩ := hacts.method ⟨jvmti, mem_acts.mpr hset⟩
  refine lastWritten_of_owner (P := fun value => value ≠ none) (fun j event hmem hwritten => ?_)
    (fun event hmem value hwritten => ?_) ⟨_, hstored, rfl⟩
  · obtain ⟨value, hvalue⟩ := Option.isSome_iff_exists.mp hwritten
    rw [methodWritten_eq_some hvalue] at hmem
    exact worksFor_unique hbefore hlt ⟨_, hmem, rfl⟩ hworks
  · rw [methodWritten_eq_some hwritten] at hmem
    exact hall value hmem

/-- A load for which the virtual machine has no environment for the counters, and a thread that
starts afterwards. -/
theorem exists_threadStart : ∃ (before : List AgentEntry) (ps : _),
    (agentSystem none).Runs (before ++ [.start 1 (.callback 3 .threadStart)]) ps ∧
      startups (before ++ [.start 1 (.callback 3 .threadStart)]) < 2 ^ 32 ∧
      ps 1 = some ((Origin.callback 3 .threadStart).program none) ∧
      lastWritten methodWritten (allActs (before ++ [.start 1 (.callback 3 .threadStart)])) = some 7 ∧
      .start 0 .agentOnLoad ∈ before ∧ ps 0 = some (.done (some jniOk)) ∧
      .act 0 ⟨.getJvmtiEnv .threads, some 3⟩ ∈ before := by
  have h₀ : (agentSystem none).Runs [] _ := .nil
  have h₁ := h₀.start (i := 0) (o := Origin.agentOnLoad) rfl trivial
  have h₂ := h₁.act (i := 0) (x := (0 : Int32)) rfl (by rfl)
  have h₃ := h₂.act (i := 0) (x := (none : Option JvmtiEnv)) rfl trivial
  have h₄ := h₃.act (i := 0) (x := true) rfl trivial
  have h₅ := h₄.act (i := 0) (x := true) rfl trivial
  have h₆ := h₅.act (i := 0) (x := some 7) rfl trivial
  have h₇ := h₆.act (i := 0) (x := ()) rfl trivial
  have h₈ := h₇.act (i := 0) (x := some 3) rfl trivial
  have h₉ := h₈.act (i := 0) (x := ()) rfl trivial
  have h₁₀ := h₉.act (i := 0) (x := true) rfl trivial
  have h₁₁ := h₁₀.act (i := 0) (x := true) rfl trivial
  have h₁₂ := h₁₁.act (i := 0) (x := true) rfl trivial
  have h₁₃ := h₁₂.start (i := 1) (o := Origin.callback 3 .threadStart) rfl
    ⟨⟨0, .threads, by simp, by decide⟩, by simp⟩
  exact ⟨_, _, h₁₃, by decide, rfl, rfl, by simp, rfl, by simp⟩

/-- A thread starts after a load, and its callback reads the identifier. -/
theorem threadGetIdMethod_stored_start : ∃ (tr : List AgentEntry) (ps : _) (method : _),
    (agentSystem none).Runs tr ps ∧ .act 1 ⟨.threadGetIdMethod, method⟩ ∈ tr ∧ method ≠ none := by
  obtain ⟨before, ps, hrun, hlt, hp, hlast, -⟩ := exists_threadStart
  have hread := hrun.act (i := 1) (x := some 7) hp (by exact hlast.symm)
  have hmem : .act 1 ⟨.threadGetIdMethod, some 7⟩ ∈ before ++
      [.start 1 (.callback 3 .threadStart)] ++ [.act 1 ⟨.threadGetIdMethod, some 7⟩] := by simp
  have hstartups : startups (before ++ [.start 1 (.callback 3 .threadStart)] ++
      [.act 1 ⟨.threadGetIdMethod, some 7⟩]) < 2 ^ 32 := by
    rw [startups_append]
    exact hlt
  exact ⟨_, _, some 7, hread, hmem, threadGetIdMethod_stored hread hstartups hmem⟩

theorem FullyEnabled.of_mem {jvmti : JvmtiEnv} {es es' : List AgentEvent}
    (h : FullyEnabled name jvmti es)
    (hmem : ∀ event, event.1.jvmtiContext? = some name → (event ∈ es ↔ event ∈ es')) :
    FullyEnabled name jvmti es' where
  created := (hmem _ rfl).mp h.created
  capabilities hcap := (hmem _ rfl).mp (h.capabilities hcap)
  events event hevent := (hmem _ rfl).mp (h.events event hevent)
  stored := (hmem _ rfl).mp h.stored
  kept stored hstored := h.kept stored ((hmem _ rfl).mpr hstored)
  alive jvmti' ok hdisposed := h.alive jvmti' ok ((hmem _ rfl).mpr hdisposed)
  only jvmti' hset := h.only jvmti' ((hmem _ rfl).mpr hset)
  single created hcreated := h.single created ((hmem _ rfl).mpr hcreated)

theorem fullyEnabled_allActs (h : (agentSystem papiVerCurrent).Runs tr ps)
    (hlt : startups tr < 2 ^ 32) {jvmti : JvmtiEnv}
    (hset : .act i ⟨.setEventCallbacks name jvmti, true⟩ ∈ tr) :
    FullyEnabled name jvmti (allActs tr) := by
  apply (fullyEnabled_of_callbacks h hset).of_mem
  intro event hcontext
  rw [mem_ofContext, mem_acts, mem_allActs]
  constructor
  · rintro ⟨hmem, -⟩
    exact ⟨i, hmem⟩
  · rintro ⟨j, hmem⟩
    obtain rfl : j = i := worksFor_unique h hlt (worksFor_of_jvmtiContext hmem hcontext)
      (worksFor_of_jvmtiContext hset rfl)
    exact ⟨hmem, hcontext⟩

theorem FullyEnabled.lastWritten (h : (agentSystem papiVerCurrent).Runs tr ps)
    (hlt : startups tr < 2 ^ 32) {jvmti : JvmtiEnv} (hfull : FullyEnabled name jvmti (allActs tr)) :
    UbenchAgent.lastWritten (jvmtiWritten name) (allActs tr) = some jvmti := by
  obtain ⟨i, hstored⟩ := mem_allActs.mp hfull.stored
  refine lastWritten_of_owner (P := fun value => value = some jvmti) (i := i)
    (fun j event hmem hwritten => ?_) (fun event hmem value hwritten => ?_)
    ⟨_, mem_acts.mpr hstored, by simp [jvmtiWritten]⟩
  · obtain ⟨value, hvalue⟩ := Option.isSome_iff_exists.mp hwritten
    rw [jvmtiWritten_eq_some hvalue] at hmem
    exact worksFor_unique h hlt (worksFor_of_jvmtiContext hmem rfl)
      (worksFor_of_jvmtiContext hstored rfl)
  · rw [jvmtiWritten_eq_some hwritten] at hmem
    exact hfull.kept value (mem_allActs.mpr ⟨i, mem_acts.mp hmem⟩)

/-- A callback runs in an environment in which all events of its context were enabled before,
and which its context keeps for the rest of the run. -/
theorem callback_fullyEnabled (h : (agentSystem papiVerCurrent).Runs tr ps)
    (hlt : startups tr < 2 ^ 32) {before after : List AgentEntry} {jvmti : JvmtiEnv}
    {event : JvmtiEvent} (hsplit : tr = before ++ .start i (.callback jvmti event) :: after) :
    ∃ name, event ∈ name.context.callbacks ∧ FullyEnabled name jvmti (allActs before) ∧
      FullyEnabled name jvmti (allActs tr) ∧
        UbenchAgent.lastWritten (jvmtiWritten name) (allActs tr) = some jvmti := by
  obtain ⟨⟨k, name, hset, hevent⟩, -⟩ := h.mayStart hsplit
  have hset' : .act k ⟨.setEventCallbacks name jvmti, true⟩ ∈ tr := by
    rw [hsplit]
    exact List.mem_append_left _ hset
  have hfull := fullyEnabled_allActs h hlt hset'
  refine ⟨name, hevent, ?_, hfull, hfull.lastWritten h hlt⟩
  rw [hsplit] at h hlt
  rw [startups_append] at hlt
  obtain ⟨ps', hbefore⟩ := h.before
  exact fullyEnabled_allActs hbefore ((Nat.le_add_right _ _).trans_lt hlt) hset

theorem callback_fullyEnabled_start : ∃ (before : List AgentEntry) (ps : _) (name : _),
    (agentSystem none).Runs (before ++ [.start 1 (.callback 3 .threadStart)]) ps ∧
      JvmtiEvent.threadStart ∈ name.context.callbacks ∧ FullyEnabled name 3 (allActs before) := by
  obtain ⟨before, ps, hrun, hlt, -⟩ := exists_threadStart
  obtain ⟨name, hevent, hfull, -⟩ := callback_fullyEnabled hrun hlt rfl
  exact ⟨before, ps, name, hrun, hevent, hfull⟩

theorem lastWritten_ofContext (name : ContextName) (es : List AgentEvent) :
    lastWritten (jvmtiWritten name) (ofContext name es) =
      lastWritten (jvmtiWritten name) es := by
  rw [lastWritten, lastWritten, ofContext, List.filterMap_filter]
  congr 2
  apply List.filterMap_congr
  intro event hmem
  split_ifs with hcontext
  · rfl
  · by_contra hne
    obtain ⟨stored, hstored⟩ := Option.ne_none_iff_exists.mp (Ne.symm hne)
    rw [jvmtiWritten_eq_some hstored.symm] at hcontext
    exact hcontext (by simp)

/-- A program that has ended has set the callbacks in the environment it got for a context, or
has disposed it. -/
theorem ended_enabled_or_disposed (h : (agentSystem papiVerCurrent).Runs tr ps)
    (hlt : startups tr < 2 ^ 32) {b : Option Int32} (hended : ps i = some (.done b))
    {jvmti : JvmtiEnv} (hcreated : .act i ⟨.getJvmtiEnv name, some jvmti⟩ ∈ tr) :
    (.act i ⟨.setEventCallbacks name jvmti, true⟩ ∈ tr ∧
        lastWritten (jvmtiWritten name) (allActs tr) = some jvmti) ∨
      ((∃ ok, .act i ⟨.disposeEnvironment name jvmti, ok⟩ ∈ tr) ∧
        lastWritten (jvmtiWritten name) (allActs tr) = none) := by
  have hworks : WorksFor tr i name := worksFor_of_jvmtiContext hcreated rfl
  obtain ⟨names, p, hp, hacts, -⟩ := exists_acts h hworks
  have hcreated' := mem_ofContext.mpr ⟨mem_acts.mpr hcreated, rfl⟩
  rw [hended] at hp
  obtain rfl := Option.some.inj hp
  obtain ⟨result, henabling, hnone⟩ := hacts.enabling name
  cases result with
  | none =>
    rw [hnone (by simp [result?]) rfl] at hcreated'
    cases hcreated'
  | some result =>
    cases result with
    | true =>
      obtain ⟨jvmti', hset⟩ := henabling.succeeded rfl
      obtain rfl := Option.some.inj ((henabling.enabled jvmti' hset).single _ hcreated')
      have hset := mem_acts.mp (mem_ofContext.mp hset).1
      exact .inl ⟨hset, (fullyEnabled_allActs h hlt hset).lastWritten h hlt⟩
    | false =>
      obtain ⟨⟨ok, hdisposed⟩, hlast⟩ := henabling.disposed rfl jvmti hcreated'
      refine .inr ⟨⟨ok, mem_acts.mp (mem_ofContext.mp hdisposed).1⟩, ?_⟩
      rw [lastWritten_ofContext] at hlast
      rw [lastWritten, filterMap_allActs (i := i) fun j event hmem hwritten => ?_]
      · exact hlast
      · obtain ⟨value, hvalue⟩ := Option.isSome_iff_exists.mp hwritten
        rw [jvmtiWritten_eq_some hvalue] at hmem
        exact worksFor_unique h hlt (worksFor_of_jvmtiContext hmem rfl) hworks

theorem ended_enabled_or_disposed_load : ∃ (tr : List AgentEntry) (ps : _),
    (agentSystem none).Runs tr ps ∧ .act 0 ⟨.getJvmtiEnv .threads, some 3⟩ ∈ tr ∧
      ((.act 0 ⟨.setEventCallbacks .threads 3, true⟩ ∈ tr ∧
          lastWritten (jvmtiWritten .threads) (allActs tr) = some 3) ∨
        ((∃ ok, .act 0 ⟨.disposeEnvironment .threads 3, ok⟩ ∈ tr) ∧
          lastWritten (jvmtiWritten .threads) (allActs tr) = none)) := by
  obtain ⟨before, ps, hrun, hlt, -, -, -, hended, hcreated⟩ := exists_threadStart
  have hmem := List.mem_append_left [.start 1 (.callback 3 .threadStart)] hcreated
  exact ⟨_, ps, hrun, hmem, ended_enabled_or_disposed hrun hlt hended hmem⟩

/-- Each module is started once: one program works for each context, and PAPI is initialised at
most once. -/
theorem modules_startedOnce (h : (agentSystem papiVerCurrent).Runs tr ps)
    (hlt : startups tr < 2 ^ 32) :
    (∀ name i j, WorksFor tr i name → WorksFor tr j name → i = j) ∧
      ((allActs tr).countP fun event => event.1 = .papiLibraryInit) ≤ 1 := by
  refine ⟨fun name i j => worksFor_unique h hlt, ?_⟩
  -- Who initialises PAPI is the first load.
  have hload : ∀ {i event}, .act i event ∈ tr → event.1 = .papiLibraryInit →
      ∃ origin, (origin = .agentOnLoad ∨ origin = .jniOnLoad) ∧ .start i origin ∈ tr ∧
        .act i ⟨.incStartupGuard, (0 : Int32)⟩ ∈ tr := by
    intro i event hmem hlibrary
    obtain ⟨origin, hstart⟩ := h.exists_start hmem
    have horigin := (h.allows (origin_allows origin) hstart hmem).modules (.inr hlibrary)
    exact ⟨origin, horigin, hstart, first_of_act h horigin hstart hmem (by simp [hlibrary])⟩
  rcases Nat.eq_zero_or_pos ((allActs tr).countP fun event => event.1 = .papiLibraryInit) with
    hzero | hpos
  · rw [hzero]
    exact Nat.zero_le 1
  · obtain ⟨event, hevent, hlibrary⟩ := List.countP_pos_iff.mp hpos
    obtain ⟨i, hmem⟩ := mem_allActs.mp hevent
    obtain ⟨origin, horigin, hstart, hfirst⟩ := hload hmem (of_decide_eq_true hlibrary)
    rw [countP_allActs (i := i) fun j event' hmem' hlibrary' => ?_]
    · obtain ⟨p, -, hacts, -⟩ := h.ensures (load_ensures horigin) hstart
      exact hacts.library
    · obtain ⟨-, -, -, hfirst'⟩ := hload hmem' (of_decide_eq_true hlibrary')
      exact first_unique h hlt hfirst' hfirst

theorem modules_startedOnce_load : ∃ (tr : List AgentEntry) (ps : _),
    (agentSystem none).Runs tr ps ∧ (∀ name i j, WorksFor tr i name → WorksFor tr j name → i = j) ∧
      ((allActs tr).countP fun event => event.1 = .papiLibraryInit) ≤ 1 := by
  obtain ⟨before, ps, hrun, hlt, -⟩ := exists_threadStart
  exact ⟨_, ps, hrun, modules_startedOnce hrun hlt⟩

end Safety

end UbenchAgent
