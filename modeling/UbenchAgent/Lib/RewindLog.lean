import Mathlib.Data.List.Induction
import Mathlib.Logic.Function.Basic

/-!
# A log of bounded size that steps back when it is full

Entries are appended to a log of capacity `cap`.  An overwriting append to a full
log first gives up the last two entries; a plain append to a full log has no slot
to go to.  The entries are of any type, so a log of what was written and a log of
who wrote it are the same log.
-/

namespace UbenchAgent.RewindLog

variable {α β : Type*}

inductive Act (α : Type*)
  | overwrite (a : α)
  | append (a : α)
  | clear

def Act.map (f : α → β) : Act α → Act β
  | overwrite a => .overwrite (f a)
  | append a => .append (f a)
  | clear => .clear

/-- The log without its last two entries if it is full. -/
def retract (cap : ℕ) (l : List α) : List α :=
  if cap ≤ l.length then l.take (l.length - 2) else l

/-- One act; an append that finds no slot gives `none`. -/
def step (cap : ℕ) (l : List α) : Act α → Option (List α)
  | .overwrite a => some (retract cap l ++ [a])
  | .append a => if l.length < cap then some (l ++ [a]) else none
  | .clear => some []

def run (cap : ℕ) (l : List α) (acts : List (Act α)) : Option (List α) :=
  acts.foldlM (step cap) l

@[simp] theorem run_nil (cap : ℕ) (l : List α) : run cap l [] = some l := rfl

theorem run_cons (cap : ℕ) (l : List α) (a : Act α) (acts : List (Act α)) :
    run cap l (a :: acts) = (step cap l a).bind fun l => run cap l acts := rfl

theorem run_append (cap : ℕ) (l : List α) (acts acts' : List (Act α)) :
    run cap l (acts ++ acts') = (run cap l acts).bind fun l => run cap l acts' := by
  simp [run, List.foldlM_append]

theorem retract_of_lt {cap : ℕ} {l : List α} (h : l.length < cap) : retract cap l = l :=
  if_neg (by omega)

theorem retract_full {cap : ℕ} {l : List α} (h : l.length = cap) :
    retract cap l = l.take (cap - 2) := by
  rw [retract, if_pos (by omega), h]

theorem length_retract_lt {cap : ℕ} {l : List α} (hcap : 2 ≤ cap) (h : l.length ≤ cap) :
    (retract cap l).length < cap := by
  unfold retract
  split_ifs
  · simp only [List.length_take]
    omega
  · omega

theorem getElem?_retract {cap : ℕ} {l : List α} {i : ℕ} (h : i < (retract cap l).length) :
    (retract cap l)[i]? = l[i]? := by
  unfold retract at h ⊢
  split_ifs with hc
  · rw [if_pos hc, List.length_take] at h
    rw [List.getElem?_take_of_lt (by omega)]
  · rfl

theorem retract_map (cap : ℕ) (f : α → β) (l : List α) :
    retract cap (l.map f) = (retract cap l).map f := by
  simp only [retract, List.length_map, apply_ite (List.map f), List.map_take]

theorem length_step {cap : ℕ} {l l' : List α} {a : Act α} (hcap : 2 ≤ cap)
    (hl : l.length ≤ cap) (h : step cap l a = some l') : l'.length ≤ cap := by
  cases a with
  | overwrite a =>
    have := length_retract_lt hcap hl
    simp only [step, Option.some.injEq] at h
    subst h
    simp only [List.length_append, List.length_singleton]
    omega
  | append a =>
    simp only [step, Option.ite_none_right_eq_some, Option.some.injEq] at h
    obtain ⟨hlt, rfl⟩ := h
    simp only [List.length_append, List.length_singleton]
    omega
  | clear =>
    simp only [step, Option.some.injEq] at h
    subst h
    simp

/-- What the entries are does not influence where they go. -/
theorem step_map (cap : ℕ) (f : α → β) (l : List α) (a : Act α) :
    step cap (l.map f) (a.map f) = (step cap l a).map (List.map f) := by
  cases a with
  | overwrite a => simp [step, Act.map, retract_map]
  | append a =>
    simp only [step, Act.map, List.length_map]
    split_ifs <;> simp
  | clear => rfl

theorem run_map (cap : ℕ) (f : α → β) (l : List α) (acts : List (Act α)) :
    run cap (l.map f) (acts.map (Act.map f)) = (run cap l acts).map (List.map f) := by
  induction acts generalizing l with
  | nil => rfl
  | cons a acts ih =>
    rw [List.map_cons, run_cons, run_cons, step_map]
    cases step cap l a with
    | none => rfl
    | some l' => exact ih l'

theorem run_of_fits {cap : ℕ} {l : List α} {acts : List (Act α)} {as : List α}
    (hacts : List.Forall₂ (fun act a => act = .overwrite a ∨ act = .append a) acts as)
    (hfit : l.length + as.length ≤ cap) : run cap l acts = some (l ++ as) := by
  induction hacts generalizing l with
  | nil => simp
  | @cons act a acts as ha _ ih =>
    rw [List.length_cons] at hfit
    have hstep : step cap l act = some (l ++ [a]) := by
      rcases ha with rfl | rfl
      · rw [step, retract_of_lt (by omega)]
      · rw [step, if_pos (by omega)]
    rw [run_cons, hstep, Option.bind_some, ih (by simp; omega)]
    simp

def Act.entry : Act α → Option α
  | overwrite a => some a
  | append a => some a
  | clear => none

theorem mem_run {cap : ℕ} {l l' : List α} {acts : List (Act α)} (h : run cap l acts = some l')
    {x : α} (hx : x ∈ l') : x ∈ l ∨ ∃ act ∈ acts, act.entry = some x := by
  induction acts generalizing l with
  | nil =>
    obtain rfl : l = l' := by simpa using h
    exact .inl hx
  | cons act acts ih =>
    rw [run_cons, Option.bind_eq_some_iff] at h
    obtain ⟨l₁, hstep, hrun⟩ := h
    have hnew : ∀ a, act.entry = some a → x = a → ∃ act' ∈ act :: acts, act'.entry = some x :=
      fun a ha hxa => ⟨act, List.mem_cons_self, hxa ▸ ha⟩
    rcases ih hrun with hmem | ⟨act', hmem, hact⟩
    · cases act with
      | overwrite a =>
        simp only [step, Option.some.injEq] at hstep
        subst hstep
        rcases List.mem_append.mp hmem with hmem | hmem
        · refine .inl ?_
          unfold retract at hmem
          split_ifs at hmem
          · exact List.mem_of_mem_take hmem
          · exact hmem
        · exact .inr (hnew a rfl (List.mem_singleton.mp hmem))
      | append a =>
        simp only [step, Option.ite_none_right_eq_some, Option.some.injEq] at hstep
        obtain ⟨-, rfl⟩ := hstep
        rcases List.mem_append.mp hmem with hmem | hmem
        · exact .inl hmem
        · exact .inr (hnew a rfl (List.mem_singleton.mp hmem))
      | clear =>
        simp only [step, Option.some.injEq] at hstep
        subst hstep
        cases hmem
    · exact .inr ⟨act', List.mem_cons_of_mem _ hmem, hact⟩

theorem retract_sublist (cap : ℕ) (l : List α) : (retract cap l).Sublist l := by
  unfold retract
  split_ifs
  · exact List.take_sublist _ _
  · exact List.Sublist.refl _

/-- What is left of a log and of what was written to it is in the order of the writing. -/
theorem run_sublist {cap : ℕ} {l l' : List α} {acts : List (Act α)}
    (h : run cap l acts = some l') : l'.Sublist (l ++ acts.filterMap Act.entry) := by
  induction acts generalizing l with
  | nil =>
    obtain rfl : l = l' := by simpa using h
    exact List.sublist_append_left _ _
  | cons act acts ih =>
    rw [run_cons, Option.bind_eq_some_iff] at h
    obtain ⟨l₁, hstep, hrun⟩ := h
    apply (ih hrun).trans
    cases act with
    | overwrite a =>
      simp only [step, Option.some.injEq] at hstep
      subst hstep
      rw [List.filterMap_cons_some (f := Act.entry) (b := a) rfl, List.append_assoc]
      exact (retract_sublist cap l).append_right _
    | append a =>
      simp only [step, Option.ite_none_right_eq_some, Option.some.injEq] at hstep
      obtain ⟨-, rfl⟩ := hstep
      rw [List.filterMap_cons_some (f := Act.entry) (b := a) rfl, List.append_assoc]
      exact List.Sublist.refl _
    | clear =>
      simp only [step, Option.some.injEq] at hstep
      subst hstep
      exact List.sublist_append_right _ _

/-- What is left of pairs in a log with room for `n` of them: all of them, or the first
`n - 1` and the last. -/
def keepLast (n : ℕ) (ps : List α) : List α :=
  if ps.length ≤ n then ps else ps.take (n - 1) ++ ps.drop (ps.length - 1)

theorem length_keepLast {n : ℕ} (hn : 1 ≤ n) (ps : List α) :
    (keepLast n ps).length = min ps.length n := by
  unfold keepLast
  split_ifs with h
  · omega
  · rw [List.length_append, List.length_take, List.length_drop]
    omega

/-- Writing one more pair keeps it, after as many of the others as there is room for. -/
theorem keepLast_concat {n : ℕ} (hn : 1 ≤ n) (ps : List α) (p : α) :
    keepLast n (ps ++ [p]) =
      (if ps.length < n then keepLast n ps else (keepLast n ps).take (n - 1)) ++ [p] := by
  have hlen : (ps ++ [p]).length = ps.length + 1 := by simp
  unfold keepLast
  rw [hlen]
  rcases Nat.lt_trichotomy ps.length n with hlt | heq | hgt
  · rw [if_pos (by omega), if_pos hlt, if_pos (by omega)]
  · rw [if_neg (by omega), if_neg (by omega), if_pos (by omega),
      List.take_append_of_le_length (by omega), show ps.length + 1 - 1 = ps.length by omega,
      List.drop_left]
  · rw [if_neg (by omega), if_neg (by omega), if_neg (by omega),
      List.take_append_of_le_length (by omega), show ps.length + 1 - 1 = ps.length by omega,
      List.drop_left, List.take_append_of_le_length (by simp; omega), List.take_take,
      Nat.min_self]

def flatPairs (ps : List (α × α)) : List α := ps.flatMap fun p => [p.1, p.2]

theorem length_flatPairs (ps : List (α × α)) : (flatPairs ps).length = 2 * ps.length := by
  induction ps with
  | nil => rfl
  | cons p ps ih =>
    rw [flatPairs, List.flatMap_cons, List.length_append, List.length_cons]
    change 2 + (flatPairs ps).length = _
    rw [ih, List.length_cons]
    omega

theorem take_flatPairs (ps : List (α × α)) (n : ℕ) :
    (flatPairs ps).take (2 * n) = flatPairs (ps.take n) := by
  induction ps generalizing n with
  | nil => simp [flatPairs]
  | cons p ps ih =>
    cases n with
    | zero => simp [flatPairs]
    | succ n =>
      have hstep : flatPairs (p :: ps) = p.1 :: p.2 :: flatPairs ps := rfl
      rw [hstep, show 2 * (n + 1) = 2 * n + 1 + 1 by omega, List.take_succ_cons,
        List.take_succ_cons, ih]
      rfl

theorem retract_flatPairs {n : ℕ} (hn : 1 ≤ n) (ps : List (α × α)) :
    retract (2 * n) (flatPairs (keepLast n ps)) =
      flatPairs (if ps.length < n then keepLast n ps else (keepLast n ps).take (n - 1)) := by
  have hlen : (flatPairs (keepLast n ps)).length = 2 * min ps.length n := by
    rw [length_flatPairs, length_keepLast hn]
  split_ifs with h
  · rw [retract_of_lt (by omega)]
  · rw [retract_full (by omega), ← take_flatPairs]
    congr 1
    omega

/-- Pairs written to an empty log, each by overwriting and appending: the log never fails
and keeps the last pair after the first ones. -/
theorem run_pairs {n : ℕ} (hn : 1 ≤ n) (ps : List (α × α)) :
    run (2 * n) [] (ps.flatMap fun p => [.overwrite p.1, .append p.2]) =
      some (flatPairs (keepLast n ps)) := by
  induction ps using List.reverseRecOn with
  | nil => simp [keepLast, flatPairs]
  | append_singleton ps p ih =>
    have hkeep := keepLast_concat hn ps p
    have hlen := congrArg List.length hkeep
    rw [length_keepLast hn, List.length_append, List.length_append, List.length_singleton] at hlen
    rw [List.flatMap_append, run_append, ih, Option.bind_some, hkeep]
    simp only [List.flatMap_cons, List.flatMap_nil, List.append_nil, run_cons, run_nil, step,
      Option.bind_some, retract_flatPairs hn]
    generalize (if ps.length < n then keepLast n ps else (keepLast n ps).take (n - 1)) = kept
      at hlen ⊢
    have hroom : (flatPairs kept ++ [p.1]).length < 2 * n := by
      rw [List.length_append, length_flatPairs, List.length_singleton]
      omega
    rw [if_pos hroom]
    simp [flatPairs]

end UbenchAgent.RewindLog
