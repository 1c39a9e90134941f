import Mathlib.Data.List.Basic
import Mathlib.Tactic.TypeStar

/-!
# Visitors that may stop

A visitor takes the elements of a list one after another, changes a state, and may ask to
stop.  Loops over parts of a collection that pass elements on to one visitor are together
one visit of all the elements that they pass on.
-/

namespace UbenchAgent.Visitor

variable {α β σ : Type*}

/-- Passes the elements to the visitor until it returns `true`, and tells whether it did. -/
def visit (visitor : α → σ → Bool × σ) : List α → σ → Bool × σ
  | [], s => (false, s)
  | a :: l, s =>
    match visitor a s with
    | (true, s) => (true, s)
    | (false, s) => visit visitor l s

def andThen (first : Bool × σ) (second : σ → Bool × σ) : Bool × σ :=
  match first with
  | (true, s) => (true, s)
  | (false, s) => second s

section Visits

variable (visitor : α → σ → Bool × σ)

theorem visit_cons (a : α) (l : List α) (s : σ) :
    visit visitor (a :: l) s = andThen (visitor a s) (visit visitor l) :=
  rfl

theorem visit_append (xs ys : List α) (s : σ) :
    visit visitor (xs ++ ys) s = andThen (visit visitor xs s) (visit visitor ys) := by
  induction xs generalizing s with
  | nil => rfl
  | cons x xs ih =>
    rw [List.cons_append, visit_cons, visit_cons]
    rcases visitor x s with ⟨stop, s'⟩
    cases stop with
    | true => rfl
    | false => exact ih s'

theorem visit_singleton (a : α) (s : σ) : visit visitor [a] s = visitor a s := by
  rw [visit_cons]
  rcases visitor a s with ⟨stop, s'⟩
  cases stop <;> rfl

theorem visit_flatMap {outer : β → σ → Bool × σ} {f : β → List α}
    (h : ∀ b s, outer b s = visit visitor (f b) s) (l : List β) (s : σ) :
    visit outer l s = visit visitor (l.flatMap f) s := by
  induction l generalizing s with
  | nil => rfl
  | cons b l ih =>
    rw [List.flatMap_cons, visit_append, visit_cons, h]
    rcases visit visitor (f b) s with ⟨stop, s'⟩
    cases stop with
    | true => rfl
    | false => exact ih s'

def recording (a : α) (s : σ × List α) : Bool × σ × List α :=
  ((visitor a s.1).1, (visitor a s.1).2, s.2 ++ [a])

/-- A visitor that never stops is given every element, in order. -/
theorem visit_recording (hnever : ∀ a s, (visitor a s).1 = false) (l : List α) (s : σ)
    (seen : List α) : (visit (recording visitor) l (s, seen)).2.2 = seen ++ l := by
  induction l generalizing s seen with
  | nil => exact (List.append_nil seen).symm
  | cons a l ih =>
    have hfirst : recording visitor a (s, seen) = (false, (visitor a s).2, seen ++ [a]) := by
      rw [recording, hnever]
    rw [visit_cons, hfirst]
    refine (ih (visitor a s).2 (seen ++ [a])).trans ?_
    rw [List.append_assoc, List.singleton_append]

def stateAfter (s : σ) (l : List α) : σ := l.foldl (fun s a => (visitor a s).2) s

/-- What a visitor that may stop is given of a list: the beginning up to the first element at
which it stops, or all of it. -/
structure GivenUntilStop (s : σ) (l given : List α) : Prop where
  front : given <+: l
  goesOn : ∀ before a after, given = before ++ a :: after → after ≠ [] →
    (visitor a (stateAfter visitor s before)).1 = false
  stops : given ≠ l → ∃ before a, given = before ++ [a] ∧
    (visitor a (stateAfter visitor s before)).1 = true

theorem GivenUntilStop.nil (s : σ) : GivenUntilStop visitor s [] [] where
  front := List.prefix_refl []
  goesOn before a after h := absurd h (by simp)
  stops h := absurd rfl h

theorem GivenUntilStop.stop {a : α} {s : σ} (h : (visitor a s).1 = true) (l : List α) :
    GivenUntilStop visitor s (a :: l) [a] where
  front := ⟨l, rfl⟩
  goesOn before b after hgiven hafter := by
    cases before with
    | nil => exact absurd (List.cons.inj hgiven).2.symm hafter
    | cons c before => exact absurd (List.cons.inj hgiven).2 (by simp)
  stops _ := ⟨[], a, rfl, h⟩

theorem GivenUntilStop.goOn {a : α} {s s' : σ} {l given : List α} (h : visitor a s = (false, s'))
    (hrest : GivenUntilStop visitor s' l given) :
    GivenUntilStop visitor s (a :: l) (a :: given) where
  front := (List.prefix_cons_inj a).mpr hrest.front
  goesOn before b after hgiven hafter := by
    cases before with
    | nil =>
      obtain rfl : a = b := (List.cons.inj hgiven).1
      rw [stateAfter, List.foldl_nil, h]
    | cons c before =>
      obtain ⟨rfl, htail⟩ := List.cons.inj hgiven
      rw [stateAfter, List.foldl_cons, h]
      exact hrest.goesOn before b after htail hafter
  stops hne := by
    have hne' : given ≠ l := fun heq => hne (congrArg (List.cons a) heq)
    obtain ⟨before, b, hgiven, hstop⟩ := hrest.stops hne'
    refine ⟨a :: before, b, congrArg (List.cons a) hgiven, ?_⟩
    rw [stateAfter, List.foldl_cons, h]
    exact hstop

/-- A visitor is given the elements until it stops. -/
theorem visit_untilStop (l : List α) (s : σ) (seen : List α) :
    ∃ given, (visit (recording visitor) l (s, seen)).2 =
        (stateAfter visitor s given, seen ++ given) ∧ GivenUntilStop visitor s l given := by
  induction l generalizing s seen with
  | nil => exact ⟨[], by rw [List.append_nil]; rfl, .nil visitor s⟩
  | cons a l ih =>
    rw [visit_cons, recording]
    rcases h : visitor a s with ⟨stop, s'⟩
    cases stop with
    | true =>
      have hstate : stateAfter visitor s [a] = s' := congrArg Prod.snd h
      refine ⟨[a], ?_, .stop visitor (congrArg Prod.fst h) l⟩
      rw [hstate]
      rfl
    | false =>
      obtain ⟨given, hvisit, hgiven⟩ := ih s' (seen ++ [a])
      refine ⟨a :: given, ?_, .goOn visitor h hgiven⟩
      have hstate : stateAfter visitor s (a :: given) = stateAfter visitor s' given := by
        rw [stateAfter, List.foldl_cons, h]
        rfl
      rw [hstate, List.append_cons seen a given]
      exact hvisit

theorem visit_recording_state (l : List α) (s : σ) (seen : List α) :
    (visit (recording visitor) l (s, seen)).2.1 = (visit visitor l s).2 := by
  induction l generalizing s seen with
  | nil => rfl
  | cons a l ih =>
    rw [visit_cons, visit_cons, recording]
    rcases visitor a s with ⟨stop, s'⟩
    cases stop with
    | true => rfl
    | false => exact ih s' (seen ++ [a])

end Visits

end UbenchAgent.Visitor
