import Mathlib.Data.List.Basic
import Mathlib.Data.List.Forall2
import Mathlib.Data.List.Induction

/-!
# Runs of a step function that can fail

A step takes a state and an action and gives the next state with a response, or
fails.  A run applies a list of actions one after another, keeps the trace of
actions with their responses, and fails with the first step that does.
-/

namespace UbenchAgent

section Except

variable {ε α β : Type}

theorem except_bind_ok {x : Except ε α} {f : α → Except ε β} {b : β} :
    (x >>= f) = .ok b ↔ ∃ a, x = .ok a ∧ f a = .ok b := by
  cases x with
  | error e => simp [Bind.bind, Except.bind]
  | ok a => simp [Bind.bind, Except.bind]

@[simp] theorem except_ok_bind (a : α) (f : α → Except ε β) : ((.ok a : Except ε α) >>= f) = f a :=
  rfl

@[simp] theorem except_error_bind (e : ε) (f : α → Except ε β) :
    ((.error e : Except ε α) >>= f) = .error e :=
  rfl

theorem except_mapError_ok {ε' : Type} {f : ε → ε'} {x : Except ε α} {a : α} :
    x.mapError f = .ok a ↔ x = .ok a := by
  cases x with
  | error e => exact iff_of_false (fun h => nomatch h) (fun h => nomatch h)
  | ok b => rw [Except.mapError, Except.ok.injEq, Except.ok.injEq]

theorem mapM_eq_ok {f : α → Except ε β} {g : α → β} {l : List α}
    (h : ∀ a ∈ l, f a = .ok (g a)) : l.mapM f = .ok (l.map g) := by
  induction l with
  | nil => rfl
  | cons a l ih =>
    rw [List.mapM_cons, h a List.mem_cons_self, ih fun b hb => h b (List.mem_cons_of_mem a hb)]
    rfl

end Except

section Fold

variable {ε σ τ α β : Type}

/-- What every successful step preserves holds after every successful run. -/
theorem foldlM_invariant {step : σ → α → Except ε σ} {P : σ → Prop}
    (hstep : ∀ s a s', P s → step s a = .ok s' → P s') {l : List α} {s s' : σ}
    (hs : P s) (h : l.foldlM step s = .ok s') : P s' := by
  induction l generalizing s with
  | nil =>
    obtain rfl : s = s' := by simpa [pure, Except.pure] using h
    exact hs
  | cons a l ih =>
    rw [List.foldlM_cons] at h
    obtain ⟨s₁, h₁, h₂⟩ := except_bind_ok.mp h
    exact ih (hstep s a s₁ hs h₁) h₂

theorem foldlM_append_ok {step : σ → α → Except ε σ} {l l' : List α} {s s' : σ} :
    (l ++ l').foldlM step s = .ok s' ↔
      ∃ s₁, l.foldlM step s = .ok s₁ ∧ l'.foldlM step s₁ = .ok s' := by
  rw [List.foldlM_append]
  exact except_bind_ok

theorem foldlM_concat_ok {step : σ → α → Except ε σ} {l : List α} {a : α} {s s' : σ} :
    (l ++ [a]).foldlM step s = .ok s' ↔ ∃ s₁, l.foldlM step s = .ok s₁ ∧ step s₁ a = .ok s' := by
  rw [foldlM_append_ok]
  refine exists_congr fun s₁ => and_congr_right fun _ => ?_
  rw [List.foldlM_cons]
  constructor
  · intro h
    obtain ⟨s₂, hstep, hnil⟩ := except_bind_ok.mp h
    obtain rfl : s₂ = s' := Except.ok.inj hnil
    exact hstep
  · intro h
    exact except_bind_ok.mpr ⟨s', h, rfl⟩

/-- What every step of one run preserves, given the actions in front of it and behind it, holds
after every part of the run. -/
theorem foldlM_prefix_invariant {step : σ → α → Except ε σ} {P : σ → Prop} {l : List α} {s₀ : σ}
    (hs₀ : P s₀)
    (hstep : ∀ before a after s s', l = before ++ a :: after → before.foldlM step s₀ = .ok s →
      P s → step s a = .ok s' → P s')
    {before after : List α} {s : σ} (hsplit : l = before ++ after)
    (h : before.foldlM step s₀ = .ok s) : P s := by
  induction before using List.reverseRecOn generalizing after s with
  | nil =>
    obtain rfl : s₀ = s := Except.ok.inj h
    exact hs₀
  | append_singleton before a ih =>
    obtain ⟨s₁, hbefore, ha⟩ := foldlM_concat_ok.mp h
    rw [List.append_assoc] at hsplit
    exact hstep before a after s₁ s hsplit hbefore (ih hsplit hbefore) ha

/-- Two step functions that simulate each other step by step, on actions related by
`f`, do so on whole runs. -/
theorem foldlM_simulation {step : σ → α → Except ε σ} {step' : τ → β → Option τ} (f : α → β)
    {R : σ → τ → Prop}
    (hstep : ∀ s t a, R s t →
      (∃ s' t', step s a = .ok s' ∧ step' t (f a) = some t' ∧ R s' t') ∨
      (∃ e, step s a = .error e ∧ step' t (f a) = none)) {l : List α} {s : σ} {t : τ}
    (hR : R s t) :
    (∃ s' t', l.foldlM step s = .ok s' ∧ (l.map f).foldlM step' t = some t' ∧ R s' t') ∨
      (∃ e, l.foldlM step s = .error e ∧ (l.map f).foldlM step' t = none) := by
  induction l generalizing s t with
  | nil => exact .inl ⟨s, t, rfl, rfl, hR⟩
  | cons a l ih =>
    simp only [List.foldlM_cons, List.map_cons]
    rcases hstep s t a hR with ⟨s', t', h, h', hR'⟩ | ⟨e, h, h'⟩
    · rw [h, h']
      exact ih hR'
    · rw [h, h']
      exact .inr ⟨e, rfl, rfl⟩

end Fold

section Run

variable {ε σ α ρ : Type} (step : σ → α → Except ε (σ × ρ))

def run : σ → List α → Except ε (σ × List (α × ρ))
  | s, [] => .ok (s, [])
  | s, a :: as => do
    let (s, r) ← step s a
    let (s, tr) ← run s as
    .ok (s, (a, r) :: tr)

@[simp] theorem run_nil (s : σ) : run step s [] = .ok (s, []) := rfl

variable {step}

theorem run_cons_ok {s s' : σ} {a : α} {as : List α} {tr : List (α × ρ)} :
    run step s (a :: as) = .ok (s', tr) ↔
      ∃ s₁ r tr', step s a = .ok (s₁, r) ∧ run step s₁ as = .ok (s', tr') ∧
        tr = (a, r) :: tr' := by
  constructor
  · intro h
    obtain ⟨⟨s₁, r⟩, h₁, h⟩ := except_bind_ok.mp h
    obtain ⟨⟨s₂, tr'⟩, h₂, h⟩ := except_bind_ok.mp h
    cases h
    exact ⟨s₁, r, tr', h₁, h₂, rfl⟩
  · rintro ⟨s₁, r, tr', h₁, h₂, rfl⟩
    simp [run, h₁, h₂]

theorem run_trans {s s₁ s' : σ} {as bs : List α} {tr tr' : List (α × ρ)}
    (h : run step s as = .ok (s₁, tr)) (h' : run step s₁ bs = .ok (s', tr')) :
    run step s (as ++ bs) = .ok (s', tr ++ tr') := by
  induction as generalizing s tr with
  | nil =>
    obtain ⟨rfl, rfl⟩ : s = s₁ ∧ [] = tr := by simpa using h
    exact h'
  | cons a as ih =>
    obtain ⟨s₂, r, tr₁, h₁, h₂, rfl⟩ := run_cons_ok.mp h
    exact run_cons_ok.mpr ⟨s₂, r, tr₁ ++ tr', h₁, ih h₂, rfl⟩

/-- A property of the trace so far and the state that every step extends holds of the
whole trace and the last state. -/
theorem run_induction {P : List (α × ρ) → σ → Prop}
    (hstep : ∀ tr s a s' r, P tr s → step s a = .ok (s', r) → P (tr ++ [(a, r)]) s')
    (pre : List (α × ρ)) {s s' : σ} {as : List α} {tr : List (α × ρ)} (hs : P pre s)
    (h : run step s as = .ok (s', tr)) : P (pre ++ tr) s' := by
  induction as generalizing pre s tr with
  | nil =>
    simp only [run_nil, Except.ok.injEq, Prod.mk.injEq] at h
    obtain ⟨rfl, rfl⟩ := h
    simpa using hs
  | cons a as ih =>
    obtain ⟨s₁, r, tr', h₁, h₂, rfl⟩ := run_cons_ok.mp h
    have := ih (pre ++ [(a, r)]) (hstep pre s a s₁ r hs h₁) h₂
    simpa using this

/-- A step function that answers as another one, on actions of one sort and in related states,
does so on whole runs. -/
theorem run_simulation {τ : Type} {step' : τ → α → Except ε (τ × ρ)} {P : α → Prop}
    {R : σ → τ → Prop}
    (hstep : ∀ s t a s' r, P a → R s t → step s a = .ok (s', r) →
      ∃ t', step' t a = .ok (t', r) ∧ R s' t')
    {s s' : σ} {t : τ} {as : List α} {tr : List (α × ρ)} (has : ∀ a ∈ as, P a) (hR : R s t)
    (h : run step s as = .ok (s', tr)) : ∃ t', run step' t as = .ok (t', tr) ∧ R s' t' := by
  induction as generalizing s t tr with
  | nil =>
    obtain ⟨rfl, rfl⟩ : s = s' ∧ [] = tr := by simpa using h
    exact ⟨t, rfl, hR⟩
  | cons a as ih =>
    obtain ⟨ha, has⟩ := List.forall_mem_cons.mp has
    obtain ⟨s₁, r, tr', h₁, h₂, rfl⟩ := run_cons_ok.mp h
    obtain ⟨t₁, ht₁, hR₁⟩ := hstep s t a s₁ r ha hR h₁
    obtain ⟨t', hrun, hR'⟩ := ih has hR₁ h₂
    exact ⟨t', run_cons_ok.mpr ⟨t₁, r, tr', ht₁, hrun, rfl⟩, hR'⟩

theorem run_actions {s s' : σ} {as : List α} {tr : List (α × ρ)}
    (h : run step s as = .ok (s', tr)) : tr.map Prod.fst = as := by
  induction as generalizing s tr with
  | nil =>
    obtain ⟨-, rfl⟩ : s = s' ∧ [] = tr := by simpa using h
    rfl
  | cons a as ih =>
    obtain ⟨s₁, r, tr', -, h₂, rfl⟩ := run_cons_ok.mp h
    rw [List.map_cons, ih h₂]

/-- As `run_induction` from the empty trace, for runs whose trace has entries of one sort
only. -/
theorem run_induction_of {P : List (α × ρ) → σ → Prop} {Q : α → ρ → Prop}
    (hstep : ∀ tr s a s' r, Q a r → P tr s → step s a = .ok (s', r) → P (tr ++ [(a, r)]) s')
    {s s' : σ} {as : List α} {tr : List (α × ρ)} (hs : P [] s)
    (h : run step s as = .ok (s', tr)) (hall : ∀ x ∈ tr, Q x.1 x.2) : P tr s' := by
  have hrun := run_induction (P := fun tr s => (∀ x ∈ tr, Q x.1 x.2) → P tr s)
    (fun tr s a s' r ih h hall => ?_) [] (fun _ => hs) h
  · exact hrun hall
  · rw [List.forall_mem_append] at hall
    exact hstep tr s a s' r (hall.2 (a, r) (by simp)) (ih hall.1) h

/-- Entries that a relation between two states survives can be left out of a run: the
other entries get the same responses, also where their actions are related only. -/
theorem run_filter {keep : α × ρ → Bool} {R : σ → σ → Prop} {S : α → α → Prop}
    (hdrop : ∀ s t a s' r, R s t → step s a = .ok (s', r) → keep (a, r) = false → R s' t)
    (hkeep : ∀ s t a b s' r, R s t → step s a = .ok (s', r) → keep (a, r) = true → S a b →
      ∃ t', step t b = .ok (t', r) ∧ R s' t')
    {s s' t : σ} {as bs : List α} {tr : List (α × ρ)} (hR : R s t)
    (h : run step s as = .ok (s', tr))
    (hS : List.Forall₂ S ((tr.filter keep).map Prod.fst) bs) :
    ∃ t' tr', run step t bs = .ok (t', tr') ∧
      tr'.map Prod.snd = (tr.filter keep).map Prod.snd ∧ R s' t' := by
  induction as generalizing s t bs tr with
  | nil =>
    obtain ⟨rfl, rfl⟩ : s = s' ∧ [] = tr := by simpa using h
    cases hS
    exact ⟨t, [], rfl, rfl, hR⟩
  | cons a as ih =>
    obtain ⟨s₁, r, tr₁, h₁, h₂, rfl⟩ := run_cons_ok.mp h
    cases hk : keep (a, r) with
    | false =>
      have hfilter : ((a, r) :: tr₁).filter keep = tr₁.filter keep :=
        List.filter_cons_of_neg (by simp [hk])
      rw [hfilter] at hS ⊢
      exact ih (hdrop s t a s₁ r hR h₁ hk) h₂ hS
    | true =>
      rw [List.filter_cons_of_pos hk] at hS ⊢
      obtain ⟨b, bs', hab, hS', rfl⟩ := List.forall₂_cons_left_iff.mp hS
      obtain ⟨t₁, hb, hR₁⟩ := hkeep s t a b s₁ r hR h₁ hk hab
      obtain ⟨t', tr', hrun, hresponses, hR'⟩ := ih hR₁ h₂ hS'
      exact ⟨t', (b, r) :: tr', run_cons_ok.mpr ⟨t₁, r, tr', hb, hrun, rfl⟩,
        by rw [List.map_cons, List.map_cons, hresponses], hR'⟩

end Run

end UbenchAgent
