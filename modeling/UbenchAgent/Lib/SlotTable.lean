import Mathlib.Data.List.Basic
import Mathlib.Logic.Function.Basic
import Mathlib.Algebra.Order.Ring.Int

/-!
# Tables with recycled slots

A table is a list of slots, free or taken.  Seen from outside it is a partial map
from integers, and everything beyond its end looks free.  A new entry goes to the
lowest free slot, which lies at most one past the end; that slot is determined by
the partial map alone.
-/

namespace UbenchAgent.SlotTable

variable {α : Type*}

/-- The entry under an id; an id outside the table has none. -/
def lookup (t : List (Option α)) (id : ℤ) : Option α :=
  if id < 0 then none else t[id.toNat]?.join

def lowestFree (t : List (Option α)) : ℕ := t.findIdx Option.isNone

/-- The table with slot `i` replaced; slot `t.length` extends the table. -/
def put (t : List (Option α)) (i : ℕ) (x : Option α) : List (Option α) :=
  if i < t.length then t.set i x else t ++ [x]

@[simp] theorem lookup_natCast (t : List (Option α)) (i : ℕ) : lookup t i = t[i]?.join := by
  simp [lookup]

theorem lookup_of_neg {t : List (Option α)} {id : ℤ} (h : id < 0) : lookup t id = none :=
  if_pos h

theorem lookup_eq_some {t : List (Option α)} {id : ℤ} {x : α} (h : lookup t id = some x) :
    ∃ i : ℕ, id = i ∧ i < t.length ∧ t[i]? = some (some x) := by
  unfold lookup at h
  split_ifs at h with hneg
  obtain ⟨y, hy, rfl⟩ : ∃ y, t[id.toNat]? = some y ∧ y = some x := by
    cases hy : t[id.toNat]? with
    | none => simp [hy] at h
    | some y => exact ⟨y, rfl, by simpa [hy] using h⟩
  exact ⟨id.toNat, by omega, (List.getElem?_eq_some_iff.mp hy).1, hy⟩

theorem lowestFree_le_length (t : List (Option α)) : lowestFree t ≤ t.length :=
  List.findIdx_le_length

theorem lookup_lowestFree (t : List (Option α)) : lookup t (lowestFree t) = none := by
  rw [lookup_natCast]
  by_cases h : lowestFree t < t.length
  · have hfree := List.findIdx_getElem (p := Option.isNone) (w := h)
    rw [Option.isNone_iff_eq_none] at hfree
    rw [List.getElem?_eq_getElem h]
    exact hfree
  · rw [List.getElem?_eq_none (by omega)]
    rfl

theorem lookup_lt_lowestFree {t : List (Option α)} {i : ℕ} (h : i < lowestFree t) :
    ∃ x, lookup t i = some x := by
  have hlt : i < t.length := h.trans_le (lowestFree_le_length t)
  have hx := List.not_of_lt_findIdx h
  rw [Option.isNone_eq_false_iff, Option.isSome_iff_exists] at hx
  obtain ⟨x, hx⟩ := hx
  exact ⟨x, by rw [lookup_natCast, List.getElem?_eq_getElem hlt, hx]; rfl⟩

/-- The slots below the lowest free one are taken, so it is not above the number of taken
slots. -/
theorem lowestFree_le_countP (t : List (Option α)) : lowestFree t ≤ t.countP Option.isSome := by
  have htaken : ∀ x ∈ t.take (lowestFree t), x.isSome = true := by
    intro x hx
    obtain ⟨i, hi, rfl⟩ := List.mem_take_iff_getElem.mp hx
    have hfree : i < lowestFree t := by omega
    obtain ⟨y, hy⟩ := lookup_lt_lowestFree hfree
    rw [lookup_natCast, List.getElem?_eq_getElem (by omega)] at hy
    rw [Option.isSome_iff_exists]
    exact ⟨y, hy⟩
  have hcount : (t.take (lowestFree t)).countP Option.isSome = lowestFree t := by
    rw [List.countP_eq_length.mpr htaken, List.length_take]
    exact Nat.min_eq_left (lowestFree_le_length t)
  calc lowestFree t = (t.take (lowestFree t)).countP Option.isSome := hcount.symm
    _ ≤ t.countP Option.isSome := (List.take_sublist _ _).countP_le

/-- The lowest free slot depends on the partial map only. -/
theorem lowestFree_congr {t t' : List (Option α)}
    (h : ∀ id, (lookup t id).isNone = (lookup t' id).isNone) : lowestFree t = lowestFree t' := by
  have hle : ∀ t t' : List (Option α), (∀ id, (lookup t id).isNone = (lookup t' id).isNone) →
      lowestFree t ≤ lowestFree t' := by
    intro t t' h
    by_contra hlt
    obtain ⟨x, hx⟩ := lookup_lt_lowestFree (Nat.lt_of_not_le hlt)
    have := h (lowestFree t')
    rw [hx, lookup_lowestFree] at this
    cases this
  exact Nat.le_antisymm (hle t t' h) (hle t' t fun id => (h id).symm)

theorem lookup_put {t : List (Option α)} {i : ℕ} (hi : i ≤ t.length) (x : Option α) (id : ℤ) :
    lookup (put t i x) id = if id = i then x else lookup t id := by
  by_cases hneg : id < 0
  · rw [lookup_of_neg hneg, lookup_of_neg hneg, if_neg (by omega)]
  · obtain ⟨j, rfl⟩ : ∃ j : ℕ, id = j := ⟨id.toNat, by omega⟩
    simp only [lookup_natCast, Nat.cast_inj]
    unfold put
    split_ifs with hlt hij hij
    · subst hij
      rw [List.getElem?_set_self hlt]
      rfl
    · rw [List.getElem?_set_ne (Ne.symm hij)]
    · subst hij
      rw [List.getElem?_append_right (by omega), show j - t.length = 0 by omega]
      rfl
    · rcases Nat.lt_or_ge j t.length with hj | hj
      · rw [List.getElem?_append_left hj]
      · have hj' : (t ++ [x]).length ≤ j := by
          rw [List.length_append, List.length_singleton]
          omega
        rw [List.getElem?_eq_none hj, List.getElem?_eq_none hj']

end UbenchAgent.SlotTable
