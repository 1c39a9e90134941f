import UbenchAgent.Lib.Run
import Mathlib.Logic.Function.Basic

/-!
# Programs whose steps interleave

A program makes requests and goes on with the answers.  A system starts programs at any time
and lets them make their requests in any order; which programs may start and which answers
may come depends on what has happened so far.
-/

namespace UbenchAgent

/-- A program ends, or makes a request and goes on with the answer. -/
inductive Program {α : Type} (ans : α → Type) (β : Type)
  | done (b : β)
  | request (a : α) (next : ans a → Program ans β)

namespace Program

variable {α β γ : Type} {ans : α → Type}

protected def bind : Program ans β → (β → Program ans γ) → Program ans γ
  | .done b, f => f b
  | .request a next, f => .request a fun x => (next x).bind f

instance : Monad (Program ans) where
  pure := .done
  bind := Program.bind

def ask (a : α) : Program ans (ans a) := .request a .done

def result? : Program ans β → Option β
  | .done b => some b
  | .request _ _ => none

/-- `p` makes requests, gets answers and is then where `q` begins. -/
inductive Steps : Program ans β → List (Σ a, ans a) → Program ans β → Prop
  | refl (p : Program ans β) : Steps p [] p
  | request {a : α} {next : ans a → Program ans β} {x : ans a} {tr : List (Σ a, ans a)}
    {q : Program ans β} : Steps (next x) tr q → Steps (.request a next) (⟨a, x⟩ :: tr) q

theorem Steps.concat {p : Program ans β} {tr : List (Σ a, ans a)} {a : α}
    {next : ans a → Program ans β} (h : p.Steps tr (.request a next)) (x : ans a) :
    p.Steps (tr ++ [⟨a, x⟩]) (next x) := by
  generalize hq : Program.request a next = q at h
  induction h with
  | refl p => exact hq ▸ .request (.refl _)
  | request _ ih => exact .request (ih hq)

/-- Whatever answers it gets, the requests so far and the result, if any, satisfy `Q`. -/
def Ensures (p : Program ans β) (Q : List (Σ a, ans a) → Option β → Prop) : Prop :=
  ∀ tr q, p.Steps tr q → Q tr q.result?

section Ensures

variable {p : Program ans β} {f : β → Program ans γ} {Q : List (Σ a, ans a) → Option β → Prop}

theorem ensures_done {b : β} : (done b : Program ans β).Ensures Q ↔ Q [] (some b) := by
  constructor
  · intro h
    exact h [] (.done b) (.refl _)
  · intro h tr q hq
    cases hq
    exact h

theorem ensures_request {a : α} {next : ans a → Program ans β} :
    (request a next).Ensures Q ↔
      Q [] none ∧ ∀ x, (next x).Ensures fun tr b => Q (⟨a, x⟩ :: tr) b := by
  constructor
  · intro h
    exact ⟨h [] _ (.refl _), fun x tr q hq => h _ q (.request hq)⟩
  · rintro ⟨hnil, hnext⟩ tr q hq
    cases hq with
    | refl => exact hnil
    | request hq => exact hnext _ _ _ hq

theorem Ensures.mono {Q' : List (Σ a, ans a) → Option β → Prop} (h : p.Ensures Q)
    (hQ : ∀ tr b, Q tr b → Q' tr b) : p.Ensures Q' :=
  fun tr q hq => hQ tr _ (h tr q hq)

/-- The rule of composition: what the first program ensures is what the second one starts from. -/
theorem Ensures.bind {R : List (Σ a, ans a) → Option γ → Prop} (h : p.Ensures Q)
    (hbefore : ∀ tr, Q tr none → R tr none)
    (hafter : ∀ tr b, Q tr (some b) → (f b).Ensures fun tr' c => R (tr ++ tr') c) :
    (p >>= f).Ensures R := by
  induction p generalizing Q R with
  | done b =>
    have hf := hafter [] b (ensures_done.mp h)
    exact hf
  | request a next ih =>
    obtain ⟨hnil, hnext⟩ := ensures_request.mp h
    refine ensures_request.mpr ⟨hbefore [] hnil, fun x => ?_⟩
    exact ih x (hnext x) (fun tr => hbefore _) fun tr b hQ => hafter _ b hQ

theorem Ensures.and {Q' : List (Σ a, ans a) → Option β → Prop} (h : p.Ensures Q)
    (h' : p.Ensures Q') : p.Ensures fun tr b => Q tr b ∧ Q' tr b :=
  fun tr q hq => ⟨h tr q hq, h' tr q hq⟩

def Uses (p : Program ans β) (allowed : α → Prop) : Prop :=
  p.Ensures fun tr _ => ∀ event ∈ tr, allowed event.1

variable {allowed : α → Prop}

theorem uses_done (b : β) : (done b : Program ans β).Uses allowed :=
  ensures_done.mpr (List.forall_mem_nil _)

theorem uses_request {a : α} {next : ans a → Program ans β} (ha : allowed a)
    (h : ∀ x, (next x).Uses allowed) : (request a next).Uses allowed :=
  ensures_request.mpr ⟨List.forall_mem_nil _,
    fun x => (h x).mono fun _ _ htr => List.forall_mem_cons.mpr ⟨ha, htr⟩⟩

theorem Uses.bind (h : p.Uses allowed) (hf : ∀ b, (f b).Uses allowed) : (p >>= f).Uses allowed :=
  Ensures.bind h (fun _ htr => htr) fun _ b htr =>
    (hf b).mono fun _ _ htr' => List.forall_mem_append.mpr ⟨htr, htr'⟩

theorem Uses.mono {allowed' : α → Prop} (h : p.Uses allowed)
    (hallowed : ∀ a, allowed a → allowed' a) : p.Uses allowed' :=
  Ensures.mono h fun _ _ htr event hmem => hallowed _ (htr event hmem)

end Ensures

end Program

inductive Entry (ι ω : Type) {α : Type} (ans : α → Type)
  | start (i : ι) (origin : ω)
  | act (i : ι) (event : Σ a, ans a)

def Entry.event? {ι ω α : Type} {ans : α → Type} (P : ι → Bool) : Entry ι ω ans → Option (Σ a, ans a)
  | .start _ _ => none
  | .act i event => if P i then some event else none

def allActs {ι ω α : Type} {ans : α → Type} (tr : List (Entry ι ω ans)) : List (Σ a, ans a) :=
  tr.filterMap (Entry.event? fun _ => true)

def acts {ι ω α : Type} {ans : α → Type} [DecidableEq ι] (i : ι) (tr : List (Entry ι ω ans)) :
    List (Σ a, ans a) :=
  tr.filterMap (Entry.event? fun j => j = i)

/-- The programs of the origins, which of them may start, and which answers may come. -/
structure System (ι ω β : Type) {α : Type} (ans : α → Type) where
  program : ω → Program ans β
  MayStart : List (Entry ι ω ans) → ω → Prop
  MayAnswer : List (Entry ι ω ans) → (Σ a, ans a) → Prop

/-- A run of a system, with where each program is that has started. -/
inductive System.Runs {ι ω α β : Type} {ans : α → Type} [DecidableEq ι]
    (system : System ι ω β ans) : List (Entry ι ω ans) → (ι → Option (Program ans β)) → Prop
  | nil : Runs system [] fun _ => none
  | start {tr ps i o} : Runs system tr ps → ps i = none → system.MayStart tr o →
      Runs system (tr ++ [.start i o]) (Function.update ps i (some (system.program o)))
  | act {tr ps i a} {next : ans a → Program ans β} {x : ans a} : Runs system tr ps →
      ps i = some (.request a next) → system.MayAnswer tr ⟨a, x⟩ →
      Runs system (tr ++ [.act i ⟨a, x⟩]) (Function.update ps i (some (next x)))

section Runs

variable {ι ω α β : Type} {ans : α → Type} [DecidableEq ι] {system : System ι ω β ans}
  {tr tr' : List (Entry ι ω ans)} {ps : ι → Option (Program ans β)} {i : ι}

theorem acts_append (i : ι) (tr tr' : List (Entry ι ω ans)) :
    acts i (tr ++ tr') = acts i tr ++ acts i tr' :=
  List.filterMap_append

@[simp] theorem acts_start (i j : ι) (origin : ω) :
    acts i ([.start j origin] : List (Entry ι ω ans)) = [] :=
  rfl

@[simp] theorem acts_self (i : ι) (event : Σ a, ans a) :
    acts i ([.act i event] : List (Entry ι ω ans)) = [event] := by
  simp [acts, Entry.event?]

theorem acts_of_ne {j : ι} (h : j ≠ i) (event : Σ a, ans a) :
    acts i ([.act j event] : List (Entry ι ω ans)) = [] := by
  simp [acts, Entry.event?, h]

omit [DecidableEq ι] in
theorem mem_filterMap_event {P : ι → Bool} {event : Σ a, ans a} :
    event ∈ tr.filterMap (Entry.event? P) ↔ ∃ j, P j = true ∧ .act j event ∈ tr := by
  rw [List.mem_filterMap]
  constructor
  · rintro ⟨entry, hmem, hentry⟩
    cases entry with
    | start j origin => cases hentry
    | act j event' =>
      rw [Entry.event?] at hentry
      split_ifs at hentry with hj
      rw [← Option.some.inj hentry]
      exact ⟨j, hj, hmem⟩
  · rintro ⟨j, hj, hmem⟩
    exact ⟨_, hmem, if_pos hj⟩

theorem mem_acts {event : Σ a, ans a} : event ∈ acts i tr ↔ .act i event ∈ tr := by
  rw [acts, mem_filterMap_event]
  simp

omit [DecidableEq ι] in
theorem mem_allActs {event : Σ a, ans a} : event ∈ allActs tr ↔ ∃ j, .act j event ∈ tr := by
  rw [allActs, mem_filterMap_event]
  simp

theorem filterMap_allActs {γ : Type} {f : (Σ a, ans a) → Option γ}
    (h : ∀ j event, .act j event ∈ tr → (f event).isSome = true → j = i) :
    (allActs tr).filterMap f = (acts i tr).filterMap f := by
  induction tr with
  | nil => rfl
  | cons entry tr ih =>
    have ih := ih fun j event hmem => h j event (List.mem_cons_of_mem _ hmem)
    rw [allActs, acts] at ih ⊢
    cases entry with
    | start j origin => exact ih
    | act j event =>
      rw [List.filterMap_cons_some (b := event) (by simp [Entry.event?]), List.filterMap_cons]
      by_cases hj : j = i
      · rw [List.filterMap_cons_some (b := event) (by simp [Entry.event?, hj]), List.filterMap_cons,
          ih]
      · have hnone : f event = none := by
          by_contra hsome
          exact hj (h j event List.mem_cons_self (Option.ne_none_iff_isSome.mp hsome))
        rw [hnone, List.filterMap_cons_none (by simp [Entry.event?, hj])]
        exact ih

theorem countP_allActs {P : (Σ a, ans a) → Bool}
    (h : ∀ j event, .act j event ∈ tr → P event = true → j = i) :
    (allActs tr).countP P = (acts i tr).countP P := by
  rw [List.countP_eq_length_filter, List.countP_eq_length_filter, ← List.filterMap_eq_filter,
    filterMap_allActs fun j event hmem hsome => h j event hmem ?_]
  rwa [Option.isSome_guard] at hsome

theorem System.Runs.steps (h : system.Runs tr ps) (i : ι) :
    (ps i = none ∧ acts i tr = [] ∧ ∀ origin, .start i origin ∉ tr) ∨
      ∃ origin p, ps i = some p ∧ .start i origin ∈ tr ∧
        (∀ origin', .start i origin' ∈ tr → origin' = origin) ∧
        (system.program origin).Steps (acts i tr) p := by
  induction h with
  | nil => exact .inl ⟨rfl, rfl, fun _ => List.not_mem_nil⟩
  | @start tr ps j origin hrun hidle hmay ih =>
    rw [acts_append, acts_start, List.append_nil]
    by_cases hj : i = j
    · subst hj
      rcases ih with ⟨-, hacts, hnot⟩ | ⟨origin', p, hp, -⟩
      · refine .inr ⟨origin, _, Function.update_self .., by simp, ?_, ?_⟩
        · intro origin' hmem
          rcases List.mem_append.mp hmem with hmem | hmem
          · exact absurd hmem (hnot origin')
          · cases List.mem_singleton.mp hmem
            rfl
        · rw [hacts]
          exact .refl _
      · rw [hidle] at hp
        cases hp
    · have hmem : ∀ origin', Entry.start i origin' ∈ tr ++ [.start j origin] ↔
          Entry.start i origin' ∈ tr := by
        intro origin'
        simp [hj]
      rw [Function.update_of_ne hj]
      simpa only [hmem] using ih
  | @act tr ps j a next x hrun hp hmay ih =>
    have hmem : ∀ origin', Entry.start i origin' ∈ tr ++ [.act j ⟨a, x⟩] ↔
        Entry.start i origin' ∈ tr := by
      intro origin'
      simp
    simp only [hmem]
    rw [acts_append]
    by_cases hj : i = j
    · subst hj
      rw [acts_self]
      rcases ih with ⟨hnone, -⟩ | ⟨origin, p, hp', hstart, honly, hsteps⟩
      · rw [hnone] at hp
        cases hp
      · rw [hp'] at hp
        obtain rfl := Option.some.inj hp
        exact .inr ⟨origin, _, Function.update_self .., hstart, honly, hsteps.concat x⟩
    · rw [acts_of_ne (Ne.symm hj), List.append_nil, Function.update_of_ne hj]
      exact ih

/-- What a program ensures holds of its requests in every run. -/
theorem System.Runs.ensures (h : system.Runs tr ps) {origin : ω}
    {Q : List (Σ a, ans a) → Option β → Prop} (hQ : (system.program origin).Ensures Q)
    (hstart : .start i origin ∈ tr) : ∃ p, ps i = some p ∧ Q (acts i tr) p.result? := by
  rcases h.steps i with ⟨-, -, hnot⟩ | ⟨origin', p, hp, -, honly, hsteps⟩
  · exact absurd hstart (hnot origin)
  · rw [← honly origin hstart] at hsteps
    exact ⟨p, hp, hQ _ p hsteps⟩

theorem System.Runs.exists_start (h : system.Runs tr ps) {event : Σ a, ans a}
    (hevent : .act i event ∈ tr) : ∃ origin, .start i origin ∈ tr := by
  rcases h.steps i with ⟨-, hacts, -⟩ | ⟨origin, -, -, hstart, -⟩
  · have hmem := mem_acts.mpr hevent
    rw [hacts] at hmem
    cases hmem
  · exact ⟨origin, hstart⟩

/-- The first part of a run is a run. -/
theorem System.Runs.before (h : system.Runs (tr ++ tr') ps) : ∃ ps', system.Runs tr ps' := by
  generalize hwhole : tr ++ tr' = whole at h
  induction h generalizing tr' with
  | nil =>
    rw [(List.append_eq_nil_iff.mp hwhole).1]
    exact ⟨_, .nil⟩
  | start hrun hidle hmay ih =>
    rcases List.eq_nil_or_concat tr' with rfl | ⟨tr₁, entry, rfl⟩
    · rw [List.append_nil] at hwhole
      rw [hwhole]
      exact ⟨_, .start hrun hidle hmay⟩
    · rw [List.concat_eq_append, ← List.append_assoc] at hwhole
      exact ih (List.append_inj_left' hwhole rfl)
  | act hrun hp hmay ih =>
    rcases List.eq_nil_or_concat tr' with rfl | ⟨tr₁, entry, rfl⟩
    · rw [List.append_nil] at hwhole
      rw [hwhole]
      exact ⟨_, .act hrun hp hmay⟩
    · rw [List.concat_eq_append, ← List.append_assoc] at hwhole
      exact ih (List.append_inj_left' hwhole rfl)

theorem System.Runs.mayStart (h : system.Runs tr ps) {before after : List (Entry ι ω ans)}
    {origin : ω} (hsplit : tr = before ++ .start i origin :: after) :
    system.MayStart before origin := by
  have hwhole : system.Runs (before ++ [.start i origin] ++ after) ps := by
    rw [List.append_assoc]
    exact hsplit ▸ h
  obtain ⟨ps', hrun⟩ := hwhole.before
  generalize hprefix : before ++ [Entry.start i origin] = whole at hrun
  cases hrun with
  | nil => simp at hprefix
  | start hrun hidle hmay =>
    obtain ⟨rfl, hentry⟩ := List.append_inj' hprefix rfl
    cases hentry
    exact hmay
  | act hrun hp hmay =>
    obtain ⟨-, hentry⟩ := List.append_inj' hprefix rfl
    cases hentry

theorem System.Runs.mayAnswer (h : system.Runs tr ps) {before after : List (Entry ι ω ans)}
    {event : Σ a, ans a} (hsplit : tr = before ++ .act i event :: after) :
    system.MayAnswer before event := by
  have hwhole : system.Runs (before ++ [.act i event] ++ after) ps := by
    rw [List.append_assoc]
    exact hsplit ▸ h
  obtain ⟨ps', hrun⟩ := hwhole.before
  generalize hprefix : before ++ [Entry.act i event] = whole at hrun
  cases hrun with
  | nil => simp at hprefix
  | start hrun hidle hmay =>
    obtain ⟨-, hentry⟩ := List.append_inj' hprefix rfl
    cases hentry
  | act hrun hp hmay =>
    obtain ⟨rfl, hentry⟩ := List.append_inj' hprefix rfl
    cases hentry
    exact hmay

theorem exists_order {γ : Type} {l : List γ} {a b : γ} (ha : a ∈ l) (hb : b ∈ l) (hne : a ≠ b) :
    (∃ before after, l = before ++ b :: after ∧ a ∈ before) ∨
      ∃ before after, l = before ++ a :: after ∧ b ∈ before := by
  obtain ⟨before, after, rfl⟩ := List.append_of_mem hb
  rcases List.mem_append.mp ha with hmem | hmem
  · exact .inl ⟨before, after, rfl, hmem⟩
  · obtain ⟨before', after', rfl⟩ := List.append_of_mem ((List.mem_cons.mp hmem).resolve_left hne)
    refine .inr ⟨before ++ b :: before', after', ?_, by simp⟩
    rw [List.append_assoc]
    rfl

/-- A program makes only requests that its origin allows. -/
theorem System.Runs.allows (h : system.Runs tr ps) {origin : ω} {allowed : α → Prop}
    (hallowed : (system.program origin).Uses allowed) (hstart : .start i origin ∈ tr)
    {event : Σ a, ans a} (hevent : .act i event ∈ tr) : allowed event.1 := by
  obtain ⟨p, -, hall⟩ := h.ensures hallowed hstart
  exact hall event (mem_acts.mpr hevent)

end Runs

end UbenchAgent
