import UbenchAgent.Lib.Run
import Mathlib.Logic.Function.Basic

/-!
# Critical sections

Threads serve requests on a shared state.  Each request runs in small steps under one lock,
and the steps of different threads interleave in any order.  The requests still take effect
one after another, in the order in which the lock is released.
-/

namespace UbenchAgent

namespace CriticalSection

/-- A lock is a word that an atomic step reads and writes. -/
structure Lock (κ : Type) where
  free : κ
  taken : κ
  tryLock : κ → Bool × κ
  unlock : κ → κ
  tryLock_free : tryLock free = (true, taken)
  tryLock_taken : tryLock taken = (false, taken)
  unlock_taken : unlock taken = free

theorem Lock.taken_ne_free {κ : Type} (lock : Lock κ) : lock.taken ≠ lock.free := by
  intro h
  have hfree := lock.tryLock_free
  rw [← h, lock.tryLock_taken] at hfree
  cases hfree

/-- The code between lock and unlock: each step leads to a further one or to the response. -/
structure Routine (σ ω ℓ ρ : Type) where
  start : ω → ℓ
  micro : ω → ℓ → σ → σ × (ℓ ⊕ ρ)

inductive Phase (ω ℓ ρ : Type)
  | idle
  | spinning (op : ω)
  | inside (op : ω) (l : ℓ)
  | leaving (op : ω) (x : ρ)
  | returning (op : ω) (x : ρ)

def Phase.Holds {ω ℓ ρ : Type} : Phase ω ℓ ρ → Prop
  | .inside _ _ => True
  | .leaving _ _ => True
  | _ => False

structure World (θ κ σ ω ℓ ρ : Type) where
  word : κ
  shared : σ
  phase : θ → Phase ω ℓ ρ

inductive Action (θ ω : Type)
  | call (t : θ) (op : ω)
  | advance (t : θ)

/-- What happens in a step.  A request takes effect when its thread releases the lock. -/
inductive Event (θ ω ρ : Type)
  | call (t : θ) (op : ω)
  | effect (t : θ) (op : ω) (x : ρ)
  | ret (t : θ) (x : ρ)

variable {θ κ σ ω ℓ ρ : Type}

def Event.thread : Event θ ω ρ → θ
  | .call t _ => t
  | .effect t _ _ => t
  | .ret t _ => t

def Event.visible : Event θ ω ρ → Bool
  | .effect _ _ _ => false
  | _ => true

def Event.served : Event θ ω ρ → Option (ω × ρ)
  | .effect _ op x => some (op, x)
  | _ => none

section Step

variable [DecidableEq θ]

def World.enter (w : World θ κ σ ω ℓ ρ) (t : θ) (phase : Phase ω ℓ ρ) : World θ κ σ ω ℓ ρ :=
  { w with phase := Function.update w.phase t phase }

def World.step (lock : Lock κ) (r : Routine σ ω ℓ ρ) (w : World θ κ σ ω ℓ ρ) :
    Action θ ω → Except Unit (World θ κ σ ω ℓ ρ × Option (Event θ ω ρ))
  | .call t op =>
    match w.phase t with
    | .idle => .ok (w.enter t (.spinning op), some (.call t op))
    | _ => .error ()
  | .advance t =>
    match w.phase t with
    | .idle => .error ()
    | .spinning op =>
      match lock.tryLock w.word with
      | (true, word) => .ok (({ w with word := word }).enter t (.inside op (r.start op)), none)
      | (false, word) => .ok ({ w with word := word }, none)
    | .inside op l =>
      match r.micro op l w.shared with
      | (shared, .inl l) => .ok (({ w with shared := shared }).enter t (.inside op l), none)
      | (shared, .inr x) => .ok (({ w with shared := shared }).enter t (.leaving op x), none)
    | .leaving op x =>
      .ok (({ w with word := lock.unlock w.word }).enter t (.returning op x), some (.effect t op x))
    | .returning _ x => .ok (w.enter t .idle, some (.ret t x))

end Step

def World.initial (lock : Lock κ) (s : σ) : World θ κ σ ω ℓ ρ := ⟨lock.free, s, fun _ => .idle⟩

def events (tr : List (Action θ ω × Option (Event θ ω ρ))) : List (Event θ ω ρ) :=
  tr.filterMap Prod.snd

/-- The end of a routine that runs alone, after at most some steps. -/
def Routine.exec (r : Routine σ ω ℓ ρ) (op : ω) : ℕ → ℓ → σ → Option (σ × ρ)
  | 0, _, _ => none
  | n + 1, l, s =>
    match r.micro op l s with
    | (s, .inl l) => r.exec op n l s
    | (s, .inr x) => some (s, x)

def Routine.EndsIn (r : Routine σ ω ℓ ρ) (op : ω) (l : ℓ) (s : σ) (y : σ × ρ) : Prop :=
  ∃ n, r.exec op n l s = some y

section EndsIn

variable {r : Routine σ ω ℓ ρ} {op : ω} {l l' : ℓ} {s s' : σ} {x : ρ} {y : σ × ρ}

theorem Routine.EndsIn.continues (h : r.micro op l s = (s', .inl l')) :
    r.EndsIn op l s y ↔ r.EndsIn op l' s' y := by
  constructor
  · rintro ⟨n, hn⟩
    cases n with
    | zero => cases hn
    | succ n =>
      rw [exec, h] at hn
      exact ⟨n, hn⟩
  · rintro ⟨n, hn⟩
    refine ⟨n + 1, ?_⟩
    rw [exec, h]
    exact hn

theorem Routine.EndsIn.finishes (h : r.micro op l s = (s', .inr x)) :
    r.EndsIn op l s y ↔ y = (s', x) := by
  constructor
  · rintro ⟨n, hn⟩
    cases n with
    | zero => cases hn
    | succ n =>
      rw [exec, h] at hn
      exact (Option.some.inj hn).symm
  · intro hy
    refine ⟨1, ?_⟩
    rw [exec, h, hy]

end EndsIn

/-- Run alone in a valid state, the routine serves each request as `serve` does. -/
structure Routine.Implements (r : Routine σ ω ℓ ρ) (serve : ω → σ → σ × ρ) (Valid : σ → Prop) :
    Prop where
  endsIn : ∀ op s, Valid s → r.EndsIn op (r.start op) s (serve op s)
  preserves : ∀ op s, Valid s → Valid (serve op s).1

def sequential (serve : ω → σ → σ × ρ) (s : σ) : List ω → σ × List ρ
  | [] => (s, [])
  | op :: ops =>
    let served := serve op s
    let rest := sequential serve served.1 ops
    (rest.1, served.2 :: rest.2)

theorem sequential_concat (serve : ω → σ → σ × ρ) (s : σ) (ops : List ω) (op : ω) :
    sequential serve s (ops ++ [op]) =
      ((serve op (sequential serve s ops).1).1,
        (sequential serve s ops).2 ++ [(serve op (sequential serve s ops).1).2]) := by
  induction ops generalizing s with
  | nil => rfl
  | cons a ops ih =>
    rw [List.cons_append, sequential, ih]
    rfl

inductive Stage (ω ρ : Type)
  | idle
  | pending (op : ω)
  | effected (op : ω) (x : ρ)

/-- The events of a thread are a call, the effect and the return, over and over. -/
inductive Alternates (t : θ) : List (Event θ ω ρ) → Stage ω ρ → Prop
  | nil : Alternates t [] .idle
  | call {es op} : Alternates t es .idle → Alternates t (es ++ [.call t op]) (.pending op)
  | effect {es op x} : Alternates t es (.pending op) →
      Alternates t (es ++ [.effect t op x]) (.effected op x)
  | ret {es op x} : Alternates t es (.effected op x) → Alternates t (es ++ [.ret t x]) .idle

/-- Each request of the events takes effect once, between its call and its return, and the
effects are those of serving the requests one after another, ending in `s'`. -/
structure Linearizes [DecidableEq θ] (serve : ω → σ → σ × ρ) (s s' : σ)
    (es : List (Event θ ω ρ)) : Prop where
  alternates : ∀ t, ∃ stage, Alternates t (es.filter (·.thread = t)) stage
  effects : sequential serve s ((es.filterMap Event.served).map Prod.fst) =
    (s', (es.filterMap Event.served).map Prod.snd)

/-- A history of calls and returns in which effects can be put so that it linearizes. -/
def Linearizable [DecidableEq θ] (serve : ω → σ → σ × ρ) (s : σ)
    (history : List (Event θ ω ρ)) : Prop :=
  ∃ es s', es.filter Event.visible = history ∧ Linearizes serve s s' es

def Phase.stage : Phase ω ℓ ρ → Stage ω ρ
  | .idle => .idle
  | .spinning op => .pending op
  | .inside op _ => .pending op
  | .leaving op _ => .pending op
  | .returning op x => .effected op x

/-- What the thread with the lock is about to give is what `serve` gives in the state from
before it had the lock. -/
def Phase.Serves (r : Routine σ ω ℓ ρ) (serve : ω → σ → σ × ρ) (s shared : σ) :
    Phase ω ℓ ρ → Prop
  | .inside op l => r.EndsIn op l shared (serve op s)
  | .leaving op x => serve op s = (shared, x)
  | _ => False

theorem Phase.Serves.holds {r : Routine σ ω ℓ ρ} {serve : ω → σ → σ × ρ} {s shared : σ}
    {phase : Phase ω ℓ ρ} (h : phase.Serves r serve s shared) : phase.Holds := by
  cases phase with
  | idle => exact h
  | spinning op => exact h
  | inside op l => trivial
  | leaving op x => trivial
  | returning op x => exact h

/-- The lock is free and the shared state is the sequential one, or one thread has it. -/
inductive Guarded (lock : Lock κ) (r : Routine σ ω ℓ ρ) (serve : ω → σ → σ × ρ) (s : σ)
    (w : World θ κ σ ω ℓ ρ) : Prop
  | free (word : w.word = lock.free) (shared : w.shared = s) (none : ∀ t, ¬ (w.phase t).Holds)
  | held (t : θ) (word : w.word = lock.taken) (serves : (w.phase t).Serves r serve s w.shared)
      (only : ∀ t', (w.phase t').Holds → t' = t)

structure World.Inv [DecidableEq θ] (lock : Lock κ) (r : Routine σ ω ℓ ρ) (serve : ω → σ → σ × ρ)
    (Valid : σ → Prop) (s₀ s : σ) (es : List (Event θ ω ρ)) (w : World θ κ σ ω ℓ ρ) : Prop where
  valid : Valid s
  effects : sequential serve s₀ ((es.filterMap Event.served).map Prod.fst) =
    (s, (es.filterMap Event.served).map Prod.snd)
  alternates : ∀ t, Alternates t (es.filter (·.thread = t)) (w.phase t).stage
  guarded : Guarded lock r serve s w

section Invariant

variable [DecidableEq θ] {lock : Lock κ} {r : Routine σ ω ℓ ρ} {serve : ω → σ → σ × ρ}
  {Valid : σ → Prop} {s₀ s : σ} {es : List (Event θ ω ρ)} {w w' : World θ κ σ ω ℓ ρ}

@[simp] theorem World.enter_word (w : World θ κ σ ω ℓ ρ) (t : θ) (phase : Phase ω ℓ ρ) :
    (w.enter t phase).word = w.word :=
  rfl

@[simp] theorem World.enter_shared (w : World θ κ σ ω ℓ ρ) (t : θ) (phase : Phase ω ℓ ρ) :
    (w.enter t phase).shared = w.shared :=
  rfl

@[simp] theorem World.enter_self (w : World θ κ σ ω ℓ ρ) (t : θ) (phase : Phase ω ℓ ρ) :
    (w.enter t phase).phase t = phase :=
  Function.update_self ..

theorem World.enter_of_ne (w : World θ κ σ ω ℓ ρ) {t t' : θ} (phase : Phase ω ℓ ρ) (h : t' ≠ t) :
    (w.enter t phase).phase t' = w.phase t' :=
  Function.update_of_ne h ..

theorem alternates_enter {t : θ} {phase : Phase ω ℓ ρ}
    (h : ∀ t, Alternates t (es.filter (·.thread = t)) (w.phase t).stage)
    (hstage : phase.stage = (w.phase t).stage) (t' : θ) :
    Alternates t' (es.filter (·.thread = t')) ((w.enter t phase).phase t').stage := by
  by_cases ht : t' = t
  · rw [ht, World.enter_self, hstage]
    exact h t
  · rw [World.enter_of_ne _ _ ht]
    exact h t'

theorem alternates_event {t : θ} {phase : Phase ω ℓ ρ} {e : Event θ ω ρ} (he : e.thread = t)
    (h : ∀ t, Alternates t (es.filter (·.thread = t)) (w.phase t).stage)
    (hnew : Alternates t (es.filter (·.thread = t) ++ [e]) phase.stage) (t' : θ) :
    Alternates t' ((es ++ [e]).filter (·.thread = t')) ((w.enter t phase).phase t').stage := by
  rw [List.filter_append]
  by_cases ht : t' = t
  · rw [ht, World.enter_self, List.filter_cons_of_pos (by simpa using he)]
    exact hnew
  · have hne : ¬ e.thread = t' := by
      intro h'
      exact ht (h'.symm.trans he)
    rw [World.enter_of_ne _ _ ht, List.filter_cons_of_neg (by simpa using hne), List.filter_nil,
      List.append_nil]
    exact h t'

theorem Guarded.enter {t : θ} {phase : Phase ω ℓ ρ} (h : Guarded lock r serve s w)
    (hbefore : ¬ (w.phase t).Holds) (hafter : ¬ phase.Holds) :
    Guarded lock r serve s (w.enter t phase) := by
  have hholds : ∀ t', ((w.enter t phase).phase t').Holds → (w.phase t').Holds := by
    intro t' ht'
    by_cases ht : t' = t
    · rw [ht, World.enter_self] at ht'
      exact absurd ht' hafter
    · rwa [World.enter_of_ne _ _ ht] at ht'
  cases h with
  | free word shared none => exact .free word shared fun t' ht' => none t' (hholds t' ht')
  | held owner word serves only =>
    have hne : owner ≠ t := by
      rintro rfl
      exact hbefore serves.holds
    refine .held owner word ?_ fun t' ht' => only t' (hholds t' ht')
    rw [World.enter_of_ne _ _ hne]
    exact serves

omit [DecidableEq θ] in
theorem Guarded.serves {t : θ} (h : Guarded lock r serve s w) (ht : (w.phase t).Holds) :
    w.word = lock.taken ∧ (w.phase t).Serves r serve s w.shared ∧
      ∀ t', (w.phase t').Holds → t' = t := by
  cases h with
  | free word shared none => exact absurd ht (none t)
  | held owner word serves only =>
    obtain rfl := only t ht
    exact ⟨word, serves, only⟩

theorem Guarded.keep {t : θ} {phase : Phase ω ℓ ρ} {shared : σ} (h : Guarded lock r serve s w)
    (ht : (w.phase t).Holds) (hserves : phase.Serves r serve s shared) :
    Guarded lock r serve s (({ w with shared := shared }).enter t phase) := by
  obtain ⟨hword, -, honly⟩ := h.serves ht
  refine .held t hword ?_ fun t' ht' => ?_
  · rw [World.enter_self]
    exact hserves
  · by_contra hne
    rw [World.enter_of_ne _ _ hne] at ht'
    exact hne (honly t' ht')

omit [DecidableEq θ] in
theorem effects_append {serve : ω → σ → σ × ρ} {es es' : List (Event θ ω ρ)}
    (h : sequential serve s₀ ((es.filterMap Event.served).map Prod.fst) =
      (s, (es.filterMap Event.served).map Prod.snd)) (hes' : es'.filterMap Event.served = []) :
    sequential serve s₀ (((es ++ es').filterMap Event.served).map Prod.fst) =
      (s, ((es ++ es').filterMap Event.served).map Prod.snd) := by
  rw [List.filterMap_append, hes', List.append_nil]
  exact h

/-- One step keeps the invariant, for the sequential state that belongs to its event. -/
theorem World.Inv.step {a : Action θ ω} {e : Option (Event θ ω ρ)}
    (hr : r.Implements serve Valid) (h : w.Inv lock r serve Valid s₀ s es)
    (hstep : w.step lock r a = .ok (w', e)) :
    ∃ s', w'.Inv lock r serve Valid s₀ s' (es ++ e.toList) := by
  obtain ⟨hvalid, heffects, halternates, hguarded⟩ := h
  cases a with
  | call t op =>
    have ht := halternates t
    cases hphase : w.phase t with
    | idle =>
      rw [World.step, hphase] at hstep
      obtain ⟨rfl, rfl⟩ := Prod.mk.inj (Except.ok.inj hstep)
      rw [hphase] at ht
      exact ⟨s, hvalid, effects_append heffects rfl, alternates_event rfl halternates ht.call,
        hguarded.enter (by rw [hphase]; exact id) id⟩
    | spinning op' => rw [World.step, hphase] at hstep; cases hstep
    | inside op' l => rw [World.step, hphase] at hstep; cases hstep
    | leaving op' x => rw [World.step, hphase] at hstep; cases hstep
    | returning op' x => rw [World.step, hphase] at hstep; cases hstep
  | advance t =>
    have ht := halternates t
    cases hphase : w.phase t with
    | idle => rw [World.step, hphase] at hstep; cases hstep
    | spinning op =>
      rw [World.step, hphase] at hstep
      cases hguarded with
      | free word shared none =>
        -- The thread gets the lock in the state that the request is then served in.
        rw [word, lock.tryLock_free] at hstep
        obtain ⟨rfl, rfl⟩ := Prod.mk.inj (Except.ok.inj hstep)
        refine ⟨s, hvalid, effects_append heffects rfl, ?_, .held t rfl ?_ fun t' ht' => ?_⟩
        · rw [Option.toList_none, List.append_nil]
          exact alternates_enter halternates (by rw [hphase]; rfl)
        · rw [World.enter_self]
          dsimp only [Phase.Serves, World.enter_shared]
          rw [shared]
          exact hr.endsIn op s hvalid
        · by_contra hne
          rw [World.enter_of_ne _ _ hne] at ht'
          exact none t' ht'
      | held owner word serves only =>
        rw [word, lock.tryLock_taken] at hstep
        obtain ⟨rfl, rfl⟩ := Prod.mk.inj (Except.ok.inj hstep)
        rw [← word]
        refine ⟨s, hvalid, effects_append heffects rfl, ?_, .held owner word serves only⟩
        rw [Option.toList_none, List.append_nil]
        exact halternates
    | inside op l =>
      have hholds : (w.phase t).Holds := by rw [hphase]; trivial
      have hserves := (hguarded.serves hholds).2.1
      rw [hphase] at hserves
      change r.EndsIn op l w.shared (serve op s) at hserves
      rw [World.step, hphase] at hstep
      dsimp only at hstep
      cases hmicro : r.micro op l w.shared with
      | mk shared next =>
        rw [hmicro] at hstep
        cases next with
        | inl l' =>
          obtain ⟨rfl, rfl⟩ := Prod.mk.inj (Except.ok.inj hstep)
          refine ⟨s, hvalid, effects_append heffects rfl, ?_, hguarded.keep hholds ?_⟩
          · rw [Option.toList_none, List.append_nil]
            exact alternates_enter halternates (by rw [hphase]; rfl)
          · exact (Routine.EndsIn.continues hmicro).mp hserves
        | inr x =>
          obtain ⟨rfl, rfl⟩ := Prod.mk.inj (Except.ok.inj hstep)
          refine ⟨s, hvalid, effects_append heffects rfl, ?_, hguarded.keep hholds ?_⟩
          · rw [Option.toList_none, List.append_nil]
            exact alternates_enter halternates (by rw [hphase]; rfl)
          · exact (Routine.EndsIn.finishes hmicro).mp hserves
    | leaving op x =>
      have hholds : (w.phase t).Holds := by rw [hphase]; trivial
      obtain ⟨hword, hserves, honly⟩ := hguarded.serves hholds
      rw [hphase] at hserves
      change serve op s = (w.shared, x) at hserves
      rw [World.step, hphase] at hstep
      obtain ⟨rfl, rfl⟩ := Prod.mk.inj (Except.ok.inj hstep)
      rw [hphase] at ht
      refine ⟨(serve op s).1, hr.preserves op s hvalid, ?_, ?_, .free ?_ ?_ fun t' ht' => ?_⟩
      · -- The request is the next one of the sequential run.
        rw [Option.toList_some, List.filterMap_append, List.map_append, List.map_append]
        change sequential serve s₀ (_ ++ [op]) = (_, _ ++ [x])
        rw [sequential_concat, heffects, hserves]
      · exact alternates_event rfl halternates ht.effect
      · rw [World.enter_word, hword]
        exact lock.unlock_taken
      · rw [hserves]
        rfl
      · by_cases hne : t' = t
        · rw [hne, World.enter_self] at ht'
          exact ht'
        · rw [World.enter_of_ne _ _ hne] at ht'
          exact hne (honly t' ht')
    | returning op x =>
      rw [World.step, hphase] at hstep
      obtain ⟨rfl, rfl⟩ := Prod.mk.inj (Except.ok.inj hstep)
      rw [hphase] at ht
      exact ⟨s, hvalid, effects_append heffects rfl, alternates_event rfl halternates ht.ret,
        hguarded.enter (by rw [hphase]; exact id) id⟩

end Invariant

section Runs

variable [DecidableEq θ] {lock : Lock κ} {r : Routine σ ω ℓ ρ} {serve : ω → σ → σ × ρ}
  {Valid : σ → Prop} {s₀ : σ} {as : List (Action θ ω)}
  {tr : List (Action θ ω × Option (Event θ ω ρ))} {w w' : World θ κ σ ω ℓ ρ}

theorem World.Inv.initial (h : Valid s₀) :
    (World.initial lock s₀ : World θ κ σ ω ℓ ρ).Inv lock r serve Valid s₀ s₀ [] :=
  ⟨h, rfl, fun _ => .nil, .free rfl rfl fun _ => id⟩

omit [DecidableEq θ] in
theorem events_concat (tr : List (Action θ ω × Option (Event θ ω ρ))) (a : Action θ ω)
    (e : Option (Event θ ω ρ)) : events (tr ++ [(a, e)]) = events tr ++ e.toList := by
  rw [events, List.filterMap_append]
  cases e with
  | none => rfl
  | some e => rfl

theorem World.Inv.run (hr : r.Implements serve Valid) (h : Valid s₀)
    (hrun : UbenchAgent.run (World.step lock r) (.initial lock s₀) as = .ok (w, tr)) :
    ∃ s, w.Inv lock r serve Valid s₀ s (events tr) := by
  refine run_induction (P := fun tr w => ∃ s, World.Inv lock r serve Valid s₀ s (events tr) w)
    ?_ [] ⟨s₀, World.Inv.initial h⟩ hrun
  rintro tr w a w' e ⟨s, hw⟩ hstep
  rw [events_concat]
  exact hw.step hr hstep

/-- No two threads have the lock. -/
theorem mutual_exclusion (hr : r.Implements serve Valid) (h : Valid s₀)
    (hrun : run (World.step lock r) (.initial lock s₀) as = .ok (w, tr)) {t t' : θ}
    (ht : (w.phase t).Holds) (ht' : (w.phase t').Holds) : t = t' := by
  obtain ⟨s, hw⟩ := World.Inv.run hr h hrun
  exact ((hw.guarded.serves ht).2.2 t' ht').symm

/-- The events of a run linearize it. -/
theorem linearizes (hr : r.Implements serve Valid) (h : Valid s₀)
    (hrun : run (World.step lock r) (.initial lock s₀) as = .ok (w, tr)) :
    ∃ s, Valid s ∧ Linearizes serve s₀ s (events tr) ∧ (w.word = lock.free → w.shared = s) := by
  obtain ⟨s, hw⟩ := World.Inv.run hr h hrun
  refine ⟨s, hw.valid, ⟨fun t => ⟨_, hw.alternates t⟩, hw.effects⟩, fun hfree => ?_⟩
  cases hw.guarded with
  | free word shared none => exact shared
  | held t word serves only => exact absurd (word.symm.trans hfree) lock.taken_ne_free

theorem linearizable (hr : r.Implements serve Valid) (h : Valid s₀)
    (hrun : run (World.step lock r) (.initial lock s₀) as = .ok (w, tr)) :
    Linearizable serve s₀ ((events tr).filter Event.visible) := by
  obtain ⟨s, -, hlin, -⟩ := linearizes hr h hrun
  exact ⟨events tr, s, rfl, hlin⟩

/-- Alone, a thread comes to the end of its request and leaves the lock free. -/
def World.Completes (lock : Lock κ) (r : Routine σ ω ℓ ρ) (w : World θ κ σ ω ℓ ρ) (t : θ) : Prop :=
  ∃ n w' tr, UbenchAgent.run (World.step lock r) w (List.replicate n (.advance t)) = .ok (w', tr) ∧
    w'.word = lock.free ∧ w'.phase t = .idle ∧ ∀ t', t' ≠ t → w'.phase t' = w.phase t'

theorem World.Completes.of_idle {t : θ} (hword : w.word = lock.free) (hphase : w.phase t = .idle) :
    w.Completes lock r t :=
  ⟨0, w, [], rfl, hword, hphase, fun _ _ => rfl⟩

theorem World.Completes.of_step {t : θ} {phase : Phase ω ℓ ρ} {e : Option (Event θ ω ρ)}
    (hstep : w.step lock r (.advance t) = .ok (w'.enter t phase, e)) (hothers : w'.phase = w.phase)
    (h : (w'.enter t phase).Completes lock r t) : w.Completes lock r t := by
  obtain ⟨n, w₁, tr, hrun, hfree, hidle, hrest⟩ := h
  refine ⟨n + 1, w₁, _, run_cons_ok.mpr ⟨_, _, _, hstep, hrun, rfl⟩, hfree, hidle, ?_⟩
  intro t' ht'
  rw [hrest t' ht', World.enter_of_ne _ _ ht', hothers]

theorem World.Completes.of_returning {t : θ} {op : ω} {x : ρ} (hword : w.word = lock.free)
    (hphase : w.phase t = .returning op x) : w.Completes lock r t := by
  have hstep : w.step lock r (.advance t) = .ok (w.enter t .idle, some (.ret t x)) := by
    rw [World.step, hphase]
  exact .of_step hstep rfl (.of_idle hword (World.enter_self ..))

theorem World.Completes.of_leaving {t : θ} {op : ω} {x : ρ} (hword : w.word = lock.taken)
    (hphase : w.phase t = .leaving op x) : w.Completes lock r t := by
  have hstep : w.step lock r (.advance t) = .ok
      (({ w with word := lock.unlock w.word }).enter t (.returning op x),
        some (.effect t op x)) := by
    rw [World.step, hphase]
  refine .of_step hstep rfl (.of_returning ?_ (World.enter_self ..))
  rw [World.enter_word, hword]
  exact lock.unlock_taken

theorem World.Completes.of_inside {t : θ} {op : ω} {l : ℓ} {y : σ × ρ} (hword : w.word = lock.taken)
    (hphase : w.phase t = .inside op l) (hends : r.EndsIn op l w.shared y) :
    w.Completes lock r t := by
  obtain ⟨n, hn⟩ := hends
  -- Induction on the steps that the routine has left.
  induction n generalizing w l with
  | zero => cases hn
  | succ n ih =>
    cases hmicro : r.micro op l w.shared with
    | mk shared next =>
      rw [Routine.exec, hmicro] at hn
      cases next with
      | inl l' =>
        have hstep : w.step lock r (.advance t) =
            .ok (({ w with shared := shared }).enter t (.inside op l'), none) := by
          rw [World.step, hphase]
          dsimp only
          rw [hmicro]
        apply World.Completes.of_step hstep rfl
        exact ih (w := ({ w with shared := shared }).enter t (.inside op l')) hword
          (World.enter_self ..) hn
      | inr x =>
        have hstep : w.step lock r (.advance t) =
            .ok (({ w with shared := shared }).enter t (.leaving op x), none) := by
          rw [World.step, hphase]
          dsimp only
          rw [hmicro]
        exact .of_step hstep rfl (.of_leaving hword (World.enter_self ..))

theorem World.Completes.of_serves {t : θ} {s : σ} (hword : w.word = lock.taken)
    (hserves : (w.phase t).Serves r serve s w.shared) : w.Completes lock r t := by
  cases hphase : w.phase t with
  | idle => rw [hphase] at hserves; cases hserves
  | spinning op => rw [hphase] at hserves; cases hserves
  | inside op l =>
    rw [hphase] at hserves
    exact .of_inside hword hphase hserves
  | leaving op x => exact .of_leaving hword hphase
  | returning op x => rw [hphase] at hserves; cases hserves

/-- If nobody has the lock, every thread can complete its request. -/
theorem World.Completes.of_free {t : θ} (hr : r.Implements serve Valid) (hvalid : Valid w.shared)
    (hword : w.word = lock.free) (hnone : ∀ t, ¬ (w.phase t).Holds) : w.Completes lock r t := by
  cases hphase : w.phase t with
  | idle => exact .of_idle hword hphase
  | spinning op =>
    have hstep : w.step lock r (.advance t) =
        .ok (({ w with word := lock.taken }).enter t (.inside op (r.start op)), none) := by
      rw [World.step, hphase]
      dsimp only
      rw [hword, lock.tryLock_free]
    exact .of_step hstep rfl (.of_inside rfl (World.enter_self ..) (hr.endsIn op _ hvalid))
  | inside op l => exact absurd (hphase ▸ trivial) (hnone t)
  | leaving op x => exact absurd (hphase ▸ trivial) (hnone t)
  | returning op x => exact .of_returning hword hphase

/-- Every thread can come to the end of its request: the thread with the lock goes on alone until
it is free, and then this one does. -/
theorem completes (hr : r.Implements serve Valid) (h : Valid s₀)
    (hrun : run (World.step lock r) (.initial lock s₀) as = .ok (w, tr)) (t : θ) :
    w.Completes lock r t ∨ ∃ owner n w' tr', (w.phase owner).Holds ∧
      run (World.step lock r) w (List.replicate n (.advance owner)) = .ok (w', tr') ∧
        w'.Completes lock r t := by
  obtain ⟨s, hw⟩ := World.Inv.run hr h hrun
  cases hw.guarded with
  | free word shared none => exact .inl (.of_free hr (shared ▸ hw.valid) word none)
  | held owner word serves only =>
    have hcompletes : w.Completes lock r owner := .of_serves word serves
    by_cases ht : t = owner
    · rw [ht]
      exact .inl hcompletes
    · obtain ⟨n, w', tr', hrun', hfree, hidle, hothers⟩ := hcompletes
      have hnone : ∀ t', ¬ (w'.phase t').Holds := by
        intro t' ht'
        by_cases howner : t' = owner
        · rw [howner, hidle] at ht'
          exact ht'
        · rw [hothers t' howner] at ht'
          exact howner (only t' ht')
      obtain ⟨s', hvalid, -, hshared⟩ := linearizes hr h (run_trans hrun hrun')
      exact .inr ⟨owner, n, w', tr', serves.holds, hrun',
        .of_free hr (hshared hfree ▸ hvalid) hfree hnone⟩

end Runs

end CriticalSection

end UbenchAgent
