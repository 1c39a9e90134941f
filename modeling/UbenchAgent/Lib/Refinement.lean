import UbenchAgent.Lib.Run

/-!
# Refinement of a transition relation

A step function answers each action or fails.  It refines a transition relation if whatever
it answers is a transition of related states, and if it fails only where the relation has an
action go wrong.  Then each of its runs is a run of the relation with the same answers, up to
where it fails.
-/

namespace UbenchAgent

variable {ε σ τ α ρ : Type} {step : σ → α → Except ε (σ × ρ)}

section Runs

variable (Step : τ → α → ρ → τ → Prop)

inductive Reaches (t : τ) : List (α × ρ) → τ → Prop
  | nil : Reaches t [] t
  | snoc {tr : List (α × ρ)} {t₁ t₂ : τ} {a : α} {r : ρ} (before : Reaches t tr t₁)
      (last : Step t₁ a r t₂) : Reaches t (tr ++ [(a, r)]) t₂

end Runs

/-- A run that fails does so at one of its actions, after a run that does not. -/
theorem run_error {s : σ} {as : List α} {e : ε} (h : run step s as = .error e) :
    ∃ done a rest s' tr, as = done ++ a :: rest ∧ run step s done = .ok (s', tr) ∧
      step s' a = .error e := by
  induction as generalizing s with
  | nil => cases h
  | cons a as ih =>
    rw [run] at h
    cases hstep : step s a with
    | error e₁ =>
      rw [hstep] at h
      obtain rfl : e₁ = e := by simpa using h
      exact ⟨[], a, as, s, [], rfl, rfl, hstep⟩
    | ok x =>
      obtain ⟨s₁, r⟩ := x
      rw [hstep, except_ok_bind] at h
      dsimp only at h
      cases hrun : run step s₁ as with
      | ok y =>
        rw [hrun] at h
        cases h
      | error e₁ =>
        rw [hrun] at h
        obtain rfl : e₁ = e := by simpa using h
        obtain ⟨done, b, rest, s', tr, rfl, hdone, hlast⟩ := ih hrun
        exact ⟨a :: done, b, rest, s', (a, r) :: tr, rfl,
          run_cons_ok.mpr ⟨s₁, r, tr, hstep, hdone, rfl⟩, hlast⟩

/-- The step function refines the relation on actions of one sort; `Wrong` tells which actions
go wrong in a state. -/
structure Refines (step : σ → α → Except ε (σ × ρ)) (Step : τ → α → ρ → τ → Prop)
    (Wrong : τ → α → Prop) (P : α → Prop) (R : σ → τ → Prop) : Prop where
  answers : ∀ {s t a s' r}, P a → R s t → step s a = .ok (s', r) →
    ∃ t', Step t a r t' ∧ R s' t'
  fails : ∀ {s t a e}, P a → R s t → step s a = .error e → Wrong t a

section Refines

variable {Step : τ → α → ρ → τ → Prop} {Wrong : τ → α → Prop} {P : α → Prop} {R : σ → τ → Prop}
  {s s' : σ} {t : τ} {as : List α}

/-- A run of the step function is one of the relation. -/
theorem Refines.reaches (h : Refines step Step Wrong P R) (has : ∀ a ∈ as, P a) (hR : R s t)
    {tr : List (α × ρ)} (hrun : run step s as = .ok (s', tr)) :
    ∃ t', Reaches Step t tr t' ∧ R s' t' := by
  rw [← run_actions hrun, List.forall_mem_map] at has
  refine run_induction_of (P := fun tr s => ∃ t', Reaches Step t tr t' ∧ R s t')
    (Q := fun a _ => P a) ?_ ⟨t, .nil, hR⟩ hrun has
  rintro tr s a s' r ha ⟨t₁, hreach, hR₁⟩ hstep
  obtain ⟨t₂, hlast, hR₂⟩ := h.answers ha hR₁ hstep
  exact ⟨t₂, hreach.snoc hlast, hR₂⟩

/-- A run that fails is one of the relation up to an action that goes wrong. -/
theorem Refines.goesWrong (h : Refines step Step Wrong P R) (has : ∀ a ∈ as, P a) (hR : R s t)
    {e : ε} (hrun : run step s as = .error e) :
    ∃ done a rest tr t', as = done ++ a :: rest ∧ tr.map Prod.fst = done ∧
      Reaches Step t tr t' ∧ Wrong t' a := by
  obtain ⟨done, a, rest, s₁, tr, rfl, hdone, hlast⟩ := run_error hrun
  obtain ⟨t', hreach, hR'⟩ :=
    h.reaches (fun b hb => has b (List.mem_append_left _ hb)) hR hdone
  have ha : P a := has a (List.mem_append_right _ List.mem_cons_self)
  exact ⟨done, a, rest, tr, t', rfl, run_actions hdone, hreach, h.fails ha hR' hlast⟩

end Refines

end UbenchAgent
