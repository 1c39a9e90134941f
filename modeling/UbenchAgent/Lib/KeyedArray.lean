import Mathlib.Data.List.Perm.Basic
import Mathlib.Data.List.Nodup

/-!
# Unordered arrays of keyed entries

An array whose entries have distinct keys is a finite map.  The map does not depend on
the order of the entries, so a new entry can go to the end and the last one can fill a
gap.
-/

namespace UbenchAgent.KeyedArray

variable {ε κ : Type*} [DecidableEq κ] (key : ε → κ)

def find (l : List ε) (k : κ) : Option ε := l.find? fun e => key e == k

/-- The array without entry `i`, whose place the last entry takes. -/
def swapRemove (l : List ε) (i : ℕ) : List ε :=
  match l.getLast? with
  | none => l
  | some last => (l.set i last).dropLast

section Find

variable {key} {l l' : List ε}

theorem find_eq_none {k : κ} : find key l k = none ↔ k ∉ l.map key := by
  simp [find]

theorem mem_of_find {k : κ} {e : ε} (h : find key l k = some e) : e ∈ l ∧ key e = k :=
  ⟨List.mem_of_find?_eq_some h, by simpa using List.find?_some h⟩

theorem find_eq_some (hnodup : (l.map key).Nodup) {k : κ} {e : ε} :
    find key l k = some e ↔ e ∈ l ∧ key e = k := by
  refine ⟨mem_of_find, ?_⟩
  rintro ⟨hmem, rfl⟩
  cases h : find key l (key e) with
  | none => exact absurd (List.mem_map_of_mem hmem) (find_eq_none.mp h)
  | some e' =>
    obtain ⟨hmem', hkey⟩ := mem_of_find h
    exact congrArg some (List.inj_on_of_nodup_map hnodup hmem' hmem hkey)

theorem find_perm (hnodup : (l.map key).Nodup) (h : l.Perm l') (k : κ) :
    find key l k = find key l' k := by
  have hnodup' : (l'.map key).Nodup := (h.map key).nodup_iff.mp hnodup
  refine Option.ext fun e => ?_
  rw [find_eq_some hnodup, find_eq_some hnodup', h.mem_iff]

theorem find_concat {e : ε} (h : key e ∉ l.map key) (k : κ) :
    find key (l ++ [e]) k = if k = key e then some e else find key l k := by
  split_ifs with hk
  · subst hk
    rw [find, List.find?_append, Option.or_of_isNone]
    · simp
    · rw [Option.isNone_iff_eq_none]
      exact find_eq_none.mpr h
  · have hsingle : [e].find? (fun e => key e == k) = none := by simpa using Ne.symm hk
    rw [find, List.find?_append, hsingle, Option.or_none]
    rfl

/-- Without entry `i` its key has no entry, and every other key has the same. -/
theorem find_eraseIdx (hnodup : (l.map key).Nodup) {i : ℕ} (hi : i < l.length) (k : κ) :
    find key (l.eraseIdx i) k = if k = key l[i] then none else find key l k := by
  have hperm : (l[i] :: l.eraseIdx i).Perm l := List.getElem_cons_eraseIdx_perm hi
  have hnodup' : ((l[i] :: l.eraseIdx i).map key).Nodup :=
    (hperm.map key).nodup_iff.mpr hnodup
  rw [← find_perm hnodup' hperm k]
  rw [List.map_cons, List.nodup_cons] at hnodup'
  split_ifs with hk
  · subst hk
    exact find_eq_none.mpr hnodup'.1
  · have hne : (key l[i] == k) = false := by simpa using Ne.symm hk
    rw [find, find, List.find?_cons, hne]

end Find

/-- The last entry in the gap is the entries without the removed one, in another order. -/
theorem swapRemove_perm {l : List ε} {i : ℕ} (hi : i < l.length) :
    (swapRemove l i).Perm (l.eraseIdx i) := by
  rcases List.eq_nil_or_concat l with rfl | ⟨init, last, rfl⟩
  · cases hi
  · rw [List.concat_eq_append] at hi ⊢
    rw [List.length_append, List.length_singleton] at hi
    rw [swapRemove, List.getLast?_append_of_ne_nil _ (by simp), List.getLast?_singleton]
    dsimp only
    rcases Nat.lt_or_ge i init.length with hlt | hge
    · rw [List.set_append_left _ _ hlt, List.dropLast_concat, List.eraseIdx_append_of_lt_length hlt]
      exact (List.set_perm_cons_eraseIdx hlt last).trans (List.perm_append_singleton _ _).symm
    · obtain rfl : i = init.length := by omega
      rw [List.set_append_right _ _ hge, Nat.sub_self, List.eraseIdx_append_of_length_le hge,
        Nat.sub_self]
      simp

omit [DecidableEq κ] in
theorem nodup_swapRemove {key : ε → κ} {l : List ε} (hnodup : (l.map key).Nodup) {i : ℕ}
    (hi : i < l.length) : ((swapRemove l i).map key).Nodup :=
  ((swapRemove_perm hi).map key).nodup_iff.mpr
    (hnodup.sublist ((List.eraseIdx_sublist l i).map key))

/-- Removal by the last entry takes the key of the removed entry out of the map, and does
nothing else. -/
theorem find_swapRemove {key : ε → κ} {l : List ε} (hnodup : (l.map key).Nodup) {i : ℕ}
    (hi : i < l.length) (k : κ) :
    find key (swapRemove l i) k = if k = key l[i] then none else find key l k := by
  rw [find_perm (nodup_swapRemove hnodup hi) (swapRemove_perm hi), find_eraseIdx hnodup hi]

end UbenchAgent.KeyedArray
