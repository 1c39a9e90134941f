import Mathlib.Data.List.Nodup
import Mathlib.Data.List.Perm.Basic
import Mathlib.Order.Nat

/-!
# A ledger of acquired resources

A resource is acquired under a fresh number and released by that number.  The
ledger holds what was acquired and not yet released, and remembers whether a
release ever named a number that was not held: a second release, or one of a
resource that never was.
-/

namespace UbenchAgent

/-- Resources of kind `κ`, each under its number. -/
structure Ledger (κ : Type*) where
  next : ℕ
  held : List (ℕ × κ)
  misreleased : Bool

namespace Ledger

variable {κ : Type*}

def empty : Ledger κ := ⟨0, [], false⟩

def acquire (l : Ledger κ) (k : κ) : ℕ × Ledger κ :=
  (l.next, ⟨l.next + 1, (l.next, k) :: l.held, l.misreleased⟩)

def release (l : Ledger κ) (n : ℕ) : Ledger κ :=
  if l.held.any (fun x => x.1 == n) then
    { l with held := l.held.filter (fun x => x.1 != n) }
  else { l with misreleased := true }

/-- Releases what a pointer names; a NULL pointer is ignored, as by `free`. -/
def releaseOpt (l : Ledger κ) : Option ℕ → Ledger κ
  | none => l
  | some n => l.release n

/-- Every number was handed out once. -/
structure WF (l : Ledger κ) : Prop where
  lt : ∀ x ∈ l.held, x.1 < l.next
  nodup : (l.held.map Prod.fst).Nodup

theorem WF.empty : (empty : Ledger κ).WF := ⟨by simp [Ledger.empty], by simp [Ledger.empty]⟩

/-- What a stretch of work on the ledger `l` comes to: `new` was acquired and is still held,
what was held before is held, and no release went wrong. -/
structure Extends (l l' : Ledger κ) (new : List (ℕ × κ)) : Prop where
  next_le : l.next ≤ l'.next
  misreleased : l'.misreleased = l.misreleased
  held : l'.held.Perm (new ++ l.held)
  fresh : ∀ x ∈ new, l.next ≤ x.1 ∧ x.1 < l'.next
  nodup : (new.map Prod.fst).Nodup

theorem Extends.refl (l : Ledger κ) : l.Extends l [] :=
  ⟨le_rfl, rfl, .refl _, by simp, by simp⟩

theorem Extends.perm {l l' : Ledger κ} {new new' : List (ℕ × κ)} (h : l.Extends l' new)
    (hperm : new.Perm new') : l.Extends l' new' :=
  ⟨h.next_le, h.misreleased, h.held.trans (hperm.append_right _),
    fun x hx => h.fresh x (hperm.mem_iff.mpr hx), (hperm.map Prod.fst).nodup_iff.mp h.nodup⟩

theorem Extends.acquire {l l' : Ledger κ} {new : List (ℕ × κ)} (h : l.Extends l' new) (k : κ) :
    l.Extends (l'.acquire k).2 (((l'.acquire k).1, k) :: new) where
  next_le := h.next_le.trans (Nat.le_succ _)
  misreleased := h.misreleased
  held := h.held.cons _
  fresh x hx := by
    rcases List.mem_cons.mp hx with rfl | hx
    · exact ⟨h.next_le, Nat.lt_succ_self _⟩
    · obtain ⟨h₁, h₂⟩ := h.fresh x hx
      exact ⟨h₁, h₂.trans (Nat.lt_succ_self _)⟩
  nodup := by
    rw [List.map_cons, List.nodup_cons]
    refine ⟨fun hmem => ?_, h.nodup⟩
    obtain ⟨x, hx, heq⟩ := List.mem_map.mp hmem
    have hlt := (h.fresh x hx).2
    rw [heq] at hlt
    exact Nat.lt_irrefl _ hlt

theorem release_of_mem {l : Ledger κ} {n : ℕ} {k : κ} (h : (n, k) ∈ l.held) :
    l.release n = { l with held := l.held.filter fun x => x.1 != n } :=
  if_pos (List.any_eq_true.mpr ⟨(n, k), h, by simp⟩)

theorem filter_ne_of_nodup {n : ℕ} {k : κ} {rest : List (ℕ × κ)}
    (h : (((n, k) :: rest).map Prod.fst).Nodup) :
    ((n, k) :: rest).filter (fun x => x.1 != n) = rest := by
  rw [List.map_cons, List.nodup_cons] at h
  rw [List.filter_cons_of_neg (by simp), List.filter_eq_self]
  intro x hx
  exact bne_iff_ne.mpr fun heq => h.1 (List.mem_map.mpr ⟨x, hx, heq⟩)

theorem Extends.release {l l' : Ledger κ} {new rest : List (ℕ × κ)} {n : ℕ} {k : κ} (hwf : l.WF)
    (h : l.Extends l' new) (hperm : new.Perm ((n, k) :: rest)) :
    l.Extends (l'.release n) rest := by
  have h' := h.perm hperm
  have hmem : (n, k) ∈ l'.held := h'.held.mem_iff.mpr (by simp)
  have hold : l.held.filter (fun x => x.1 != n) = l.held := by
    refine List.filter_eq_self.mpr fun x hx => bne_iff_ne.mpr fun heq => ?_
    have hlt := hwf.lt x hx
    have hge := (h'.fresh (n, k) List.mem_cons_self).1
    rw [heq] at hlt
    exact absurd hlt (Nat.not_lt.mpr hge)
  rw [release_of_mem hmem]
  refine ⟨h'.next_le, h'.misreleased, ?_, fun x hx => h'.fresh x (List.mem_cons_of_mem _ hx),
    h'.nodup.sublist ((List.sublist_cons_self _ _).map _)⟩
  have hfilter := h'.held.filter fun x => x.1 != n
  rw [List.filter_append, hold, filter_ne_of_nodup h'.nodup] at hfilter
  exact hfilter

theorem Extends.wf {l l' : Ledger κ} {new : List (ℕ × κ)} (h : l.Extends l' new) (hwf : l.WF) :
    l'.WF := by
  refine ⟨fun x hx => ?_, ?_⟩
  · rcases List.mem_append.mp (h.held.mem_iff.mp hx) with hx | hx
    · exact (h.fresh x hx).2
    · exact (hwf.lt x hx).trans_le h.next_le
  · rw [(h.held.map Prod.fst).nodup_iff, List.map_append]
    refine List.Nodup.append h.nodup hwf.nodup fun n hn hn' => ?_
    obtain ⟨x, hx, rfl⟩ := List.mem_map.mp hn
    obtain ⟨y, hy, heq⟩ := List.mem_map.mp hn'
    have hlt := hwf.lt y hy
    have hge := (h.fresh x hx).1
    omega

theorem WF.eq_of_fst {l : Ledger κ} (hwf : l.WF) {x y : ℕ × κ} (hx : x ∈ l.held)
    (hy : y ∈ l.held) (h : x.1 = y.1) : x = y :=
  List.inj_on_of_nodup_map hwf.nodup hx hy h

theorem WF.release {l : Ledger κ} (hwf : l.WF) {n : ℕ} {k : κ} (h : (n, k) ∈ l.held) :
    (l.release n).WF ∧ (l.release n).misreleased = l.misreleased ∧
      ∀ x, x ∈ (l.release n).held ↔ x ∈ l.held ∧ x ≠ (n, k) := by
  rw [release_of_mem h]
  refine ⟨⟨fun x hx => hwf.lt x (List.mem_of_mem_filter hx),
    hwf.nodup.sublist (List.filter_sublist.map _)⟩, rfl, fun x => ?_⟩
  rw [List.mem_filter, bne_iff_ne]
  refine and_congr_right fun hx => not_congr ⟨fun hn => hwf.eq_of_fst hx h hn, ?_⟩
  rintro rfl
  rfl

theorem WF.releaseOpt {l : Ledger κ} (hwf : l.WF) {p : Option ℕ} {k : κ}
    (h : ∀ x ∈ p.toList.map (fun n => (n, k)), x ∈ l.held) :
    (l.releaseOpt p).WF ∧ (l.releaseOpt p).misreleased = l.misreleased ∧
      ∀ x, x ∈ (l.releaseOpt p).held ↔ x ∈ l.held ∧ x ∉ p.toList.map fun n => (n, k) := by
  cases p with
  | none => exact ⟨hwf, rfl, by simp [Ledger.releaseOpt]⟩
  | some n =>
    obtain ⟨hwf', honce, hmem⟩ := hwf.release (h (n, k) (by simp))
    exact ⟨hwf', honce, fun x => (hmem x).trans (by simp)⟩

end Ledger

end UbenchAgent
