import Mathlib.Algebra.BigOperators.Group.List.Basic
import Mathlib.Algebra.Order.Ring.Int
import Mathlib.Data.List.Basic
import Mathlib.Data.List.Induction

/-!
# Pairing starts with ends

A list is scanned once from the left.  The scan remembers the first start since the
last pair, and the first end after it completes a pair of positions.  Everything
else is passed over.

`pairs` is that one-pass scan; `pairs_eq_search` says that two linear searches, for
the next start and for the next end from there, find the same pairs.
-/

namespace UbenchAgent.Pairing

variable {α β : Type*}

def indexFrom (p : α → Bool) : ℕ → List α → Option ℕ
  | _, [] => none
  | i, a :: l => if p a then some i else indexFrom p (i + 1) l

/-- The pairs of positions, counted from `i`; `opened` is the start that waits for its
end. -/
def pairs (isStart isEnd : α → Bool) : Option ℕ → ℕ → List α → List (ℕ × ℕ)
  | _, _, [] => []
  | none, i, a :: l =>
    if isStart a then pairs isStart isEnd (some i) (i + 1) l
    else pairs isStart isEnd none (i + 1) l
  | some s, i, a :: l =>
    if isEnd a then (s, i) :: pairs isStart isEnd none (i + 1) l
    else pairs isStart isEnd (some s) (i + 1) l

theorem indexFrom_bounds {p : α → Bool} {i j : ℕ} {l : List α} (h : indexFrom p i l = some j) :
    i ≤ j ∧ j < i + l.length := by
  induction l generalizing i with
  | nil => simp [indexFrom] at h
  | cons a l ih =>
    rw [indexFrom] at h
    split_ifs at h with ha
    · simp only [Option.some.injEq] at h
      subst h
      simp
    · have := ih h
      simp only [List.length_cons]
      omega

theorem indexFrom_holds {p : α → Bool} {i j : ℕ} {l : List α} (h : indexFrom p i l = some j) :
    ∃ a, l[j - i]? = some a ∧ p a := by
  induction l generalizing i with
  | nil => simp [indexFrom] at h
  | cons a l ih =>
    rw [indexFrom] at h
    split_ifs at h with ha
    · simp only [Option.some.injEq] at h
      subst h
      exact ⟨a, by simp, ha⟩
    · obtain ⟨b, hb, hp⟩ := ih h
      have hj := (indexFrom_bounds h).1
      have hd : j - i = j - (i + 1) + 1 := by omega
      exact ⟨b, by rw [hd, List.getElem?_cons_succ]; exact hb, hp⟩

section Search

variable {isStart isEnd : α → Bool}

theorem pairs_none_eq (i : ℕ) (l : List α) :
    pairs isStart isEnd none i l =
      match indexFrom isStart i l with
      | none => []
      | some s => pairs isStart isEnd (some s) (s + 1) (l.drop (s + 1 - i)) := by
  induction l generalizing i with
  | nil => rfl
  | cons a l ih =>
    rw [pairs, indexFrom]
    split_ifs with ha
    · have hd : i + 1 - i = 1 := by omega
      simp [hd]
    · rw [ih]
      cases h : indexFrom isStart (i + 1) l with
      | none => rfl
      | some s =>
        have hs := (indexFrom_bounds h).1
        have hd : s + 1 - i = s + 1 - (i + 1) + 1 := by omega
        simp [hd]

theorem pairs_some_eq (s i : ℕ) (l : List α) :
    pairs isStart isEnd (some s) i l =
      match indexFrom isEnd i l with
      | none => []
      | some e => (s, e) :: pairs isStart isEnd none (e + 1) (l.drop (e + 1 - i)) := by
  induction l generalizing i with
  | nil => rfl
  | cons a l ih =>
    rw [pairs, indexFrom]
    split_ifs with ha
    · have hd : i + 1 - i = 1 := by omega
      simp [hd]
    · rw [ih]
      cases h : indexFrom isEnd (i + 1) l with
      | none => rfl
      | some e =>
        have he := (indexFrom_bounds h).1
        have hd : e + 1 - i = e + 1 - (i + 1) + 1 := by omega
        simp [hd]

/-- The two searches of a restarting loop find the next pair of the scan: one for a
start from `i` on, and one for an end from that start on. -/
theorem pairs_eq_search (hdisj : ∀ a, isStart a → ¬ isEnd a) (i : ℕ) (l : List α) :
    pairs isStart isEnd none i (l.drop i) =
      match indexFrom isStart i (l.drop i) with
      | none => []
      | some s =>
        match indexFrom isEnd s (l.drop s) with
        | none => []
        | some e => (s, e) :: pairs isStart isEnd none (e + 1) (l.drop (e + 1)) := by
  rw [pairs_none_eq]
  cases hs : indexFrom isStart i (l.drop i) with
  | none => rfl
  | some s =>
    obtain ⟨a, ha, hsa⟩ := indexFrom_holds hs
    have hi := (indexFrom_bounds hs).1
    have has : l[s]? = some a := by
      rw [List.getElem?_drop] at ha
      rwa [show i + (s - i) = s by omega] at ha
    have hlt : s < l.length := (List.getElem?_eq_some_iff.mp has).1
    have hdrop : l.drop s = a :: l.drop (s + 1) := by
      rw [List.drop_eq_getElem_cons hlt]
      congr 1
      exact (List.getElem?_eq_some_iff.mp has).2
    have hskip : indexFrom isEnd s (l.drop s) = indexFrom isEnd (s + 1) (l.drop (s + 1)) := by
      rw [hdrop, indexFrom, if_neg (hdisj a hsa)]
    simp only [List.drop_drop, hskip]
    rw [show i + (s + 1 - i) = s + 1 by omega, pairs_some_eq]
    cases he : indexFrom isEnd (s + 1) (l.drop (s + 1)) with
    | none => rfl
    | some e =>
      have hse := (indexFrom_bounds he).1
      simp only [List.drop_drop]
      rw [show s + 1 + (e + 1 - (s + 1)) = e + 1 by omega]

end Search

section Scan

variable (isStart isEnd : α → Bool)

/-- The start that waits after the scan of a list. -/
def opened : Option ℕ → ℕ → List α → Option ℕ
  | o, _, [] => o
  | none, i, a :: l =>
    if isStart a then opened (some i) (i + 1) l else opened none (i + 1) l
  | some s, i, a :: l =>
    if isEnd a then opened none (i + 1) l else opened (some s) (i + 1) l

/-- The scan of a concatenation goes on where the scan of the first part ended. -/
theorem pairs_append (o : Option ℕ) (i : ℕ) (l l' : List α) :
    pairs isStart isEnd o i (l ++ l') =
      pairs isStart isEnd o i l ++
        pairs isStart isEnd (opened isStart isEnd o i l) (i + l.length) l' := by
  induction l generalizing o i with
  | nil => cases o <;> simp [pairs, opened]
  | cons a l ih =>
    have hlen : i + (a :: l).length = i + 1 + l.length := by simp; omega
    rw [List.cons_append, hlen]
    cases o with
    | none =>
      simp only [pairs, opened]
      split_ifs <;> exact ih _ _
    | some s =>
      simp only [pairs, opened]
      split_ifs
      · rw [List.cons_append, ih]
      · exact ih _ _

theorem opened_append (o : Option ℕ) (i : ℕ) (l l' : List α) :
    opened isStart isEnd o i (l ++ l') =
      opened isStart isEnd (opened isStart isEnd o i l) (i + l.length) l' := by
  induction l generalizing o i with
  | nil => cases o <;> simp [opened]
  | cons a l ih =>
    have hlen : i + (a :: l).length = i + 1 + l.length := by simp; omega
    rw [List.cons_append, hlen]
    cases o <;> simp only [opened] <;> split_ifs <;> exact ih _ _

variable {isStart isEnd}

theorem getElem?_cons_of_lt {a : α} {l : List α} {i j : ℕ} (h : i + 1 ≤ j) :
    (a :: l)[j - i]? = l[j - (i + 1)]? := by
  rw [show j - i = j - (i + 1) + 1 by omega, List.getElem?_cons_succ]

/-- A pair of the scan is a start and a later end; only the waiting start can lie before
the list. -/
theorem mem_pairs {o : Option ℕ} {i s e : ℕ} {l : List α}
    (h : (s, e) ∈ pairs isStart isEnd o i l) :
    (o = some s ∨ i ≤ s ∧ s < e ∧ ∃ a, l[s - i]? = some a ∧ isStart a) ∧
      i ≤ e ∧ ∃ b, l[e - i]? = some b ∧ isEnd b := by
  induction l generalizing o i with
  | nil => cases o <;> simp [pairs] at h
  | cons a l ih =>
    -- A pair of the rest of the list is one of the whole list.
    have hrest : ∀ o', (s, e) ∈ pairs isStart isEnd o' (i + 1) l →
        (o' = some s ∨ i + 1 ≤ s ∧ s < e ∧ ∃ a', (a :: l)[s - i]? = some a' ∧ isStart a') ∧
          i + 1 ≤ e ∧ ∃ b, (a :: l)[e - i]? = some b ∧ isEnd b := by
      intro o' h'
      obtain ⟨hs, he, b, hb, hbe⟩ := ih h'
      refine ⟨hs.imp_right ?_, he, b, by rw [getElem?_cons_of_lt he]; exact hb, hbe⟩
      rintro ⟨his, hse, a', ha', hsa⟩
      exact ⟨his, hse, a', by rw [getElem?_cons_of_lt his]; exact ha', hsa⟩
    cases o with
    | none =>
      rw [pairs] at h
      split_ifs at h with ha
      · obtain ⟨hs | hs, he, hb⟩ := hrest _ h
        · obtain rfl : i = s := by simpa using hs
          exact ⟨.inr ⟨Nat.le_refl _, by omega, a, by simp, ha⟩, by omega, hb⟩
        · exact ⟨.inr ⟨by omega, hs.2⟩, by omega, hb⟩
      · obtain ⟨hs | hs, he, hb⟩ := hrest _ h
        · cases hs
        · exact ⟨.inr ⟨by omega, hs.2⟩, by omega, hb⟩
    | some s' =>
      rw [pairs] at h
      split_ifs at h with ha
      · rcases List.mem_cons.mp h with h | h
        · obtain ⟨rfl, rfl⟩ : s = s' ∧ e = i := by simpa using h
          exact ⟨.inl rfl, Nat.le_refl _, a, by simp, ha⟩
        · obtain ⟨hs | hs, he, hb⟩ := hrest _ h
          · cases hs
          · exact ⟨.inr ⟨by omega, hs.2⟩, by omega, hb⟩
      · obtain ⟨hs | hs, he, hb⟩ := hrest _ h
        · exact ⟨.inl hs, by omega, hb⟩
        · exact ⟨.inr ⟨by omega, hs.2⟩, by omega, hb⟩

theorem pairs_map {f : β → α} (o : Option ℕ) (i : ℕ) (l : List β) :
    pairs isStart isEnd o i (l.map f) =
      pairs (fun b => isStart (f b)) (fun b => isEnd (f b)) o i l := by
  induction l generalizing o i with
  | nil => cases o <;> rfl
  | cons b l ih => cases o <;> simp only [List.map_cons, pairs, ih]

end Scan

section Scanned

variable (isStart isEnd : α → Bool)

/-- What holds of the pairs `ps` and of the waiting start `o` after the scan of `l`: the
pairs follow one another, each is a start and the first end after it, and every end that
has a start before it is in a pair unless a pair ends between the two. -/
structure Scanned (l : List α) (ps : List (ℕ × ℕ)) (o : Option ℕ) : Prop where
  increasing : ps.Pairwise fun p q => p.2 < q.1
  inside : ∀ p ∈ ps, p.1 < p.2 ∧ p.2 < l.length
  ends : ∀ p ∈ ps, (∃ a, l[p.1]? = some a ∧ isStart a = true) ∧
    ∃ b, l[p.2]? = some b ∧ isEnd b = true
  between : ∀ p ∈ ps, ∀ k b, p.1 < k → k < p.2 → l[k]? = some b → isEnd b = false
  waiting : ∀ s, o = some s → (∃ a, l[s]? = some a ∧ isStart a = true) ∧
    (∀ p ∈ ps, p.2 < s) ∧ ∀ k b, s < k → l[k]? = some b → isEnd b = false
  seen : ∀ s a, l[s]? = some a → isStart a = true →
    (∃ p ∈ ps, s < p.2) ∨ ∃ s', o = some s' ∧ s' ≤ s
  complete : ∀ s e a b, s < e → l[s]? = some a → isStart a = true → l[e]? = some b →
    isEnd b = true → (∃ p ∈ ps, p.2 = e) ∨ ∃ p ∈ ps, s < p.2 ∧ p.2 < e

variable {isStart isEnd}

theorem getElem?_snoc {l : List α} {a b : α} {k : ℕ} (h : (l ++ [a])[k]? = some b) :
    l[k]? = some b ∨ k = l.length ∧ b = a := by
  rcases Nat.lt_trichotomy k l.length with hk | rfl | hk
  · rw [List.getElem?_append_left hk] at h
    exact .inl h
  · rw [List.getElem?_concat_length, Option.some.injEq] at h
    exact .inr ⟨rfl, h.symm⟩
  · rw [List.getElem?_eq_none (by rw [List.length_append, List.length_singleton]; omega)] at h
    cases h

theorem getElem?_snoc_of_some {l : List α} {b : α} {k : ℕ} (h : l[k]? = some b) (a : α) :
    (l ++ [a])[k]? = some b := by
  rw [List.getElem?_append_left (List.getElem?_eq_some_iff.mp h).1]
  exact h

theorem lt_length_of_some {l : List α} {b : α} {k : ℕ} (h : l[k]? = some b) : k < l.length :=
  (List.getElem?_eq_some_iff.mp h).1

theorem Scanned.pass {l : List α} {ps : List (ℕ × ℕ)} {o o' : Option ℕ}
    (h : Scanned isStart isEnd l ps o) (a : α)
    (hwaiting : ∀ s, o' = some s → (∃ b, (l ++ [a])[s]? = some b ∧ isStart b = true) ∧
      (∀ p ∈ ps, p.2 < s) ∧ ∀ k b, s < k → (l ++ [a])[k]? = some b → isEnd b = false)
    (hkept : ∀ s, o = some s → o' = some s)
    (hstart : isStart a = true → ∃ s', o' = some s' ∧ s' ≤ l.length)
    (hend : isEnd a = true → o = none) : Scanned isStart isEnd (l ++ [a]) ps o' where
  increasing := h.increasing
  inside p hp := by
    have hin := h.inside p hp
    rw [List.length_append, List.length_singleton]
    omega
  ends p hp := by
    obtain ⟨⟨b, hb, hs⟩, c, hc, he⟩ := h.ends p hp
    exact ⟨⟨b, getElem?_snoc_of_some hb a, hs⟩, c, getElem?_snoc_of_some hc a, he⟩
  between p hp k b hsk hke hb := by
    rcases getElem?_snoc hb with hb | ⟨rfl, -⟩
    · exact h.between p hp k b hsk hke hb
    · have hin := (h.inside p hp).2
      omega
  waiting := hwaiting
  seen s b hb hs := by
    rcases getElem?_snoc hb with hb | ⟨rfl, rfl⟩
    · exact (h.seen s b hb hs).imp_right fun ⟨s', ho, hle⟩ => ⟨s', hkept s' ho, hle⟩
    · exact .inr (hstart hs)
  complete s e b c hse hb hs hc he := by
    rcases getElem?_snoc hb with hb' | ⟨rfl, -⟩
    · rcases getElem?_snoc hc with hc' | ⟨rfl, rfl⟩
      · exact h.complete s e b c hse hb' hs hc' he
      · -- No start waits, so some pair ends after `s`.
        rcases h.seen s b hb' hs with ⟨p, hp, hlt⟩ | ⟨s', ho, -⟩
        · exact .inr ⟨p, hp, hlt, (h.inside p hp).2⟩
        · rw [hend he] at ho
          cases ho
    · have hlen := lt_length_of_some hc
      rw [List.length_append, List.length_singleton] at hlen
      omega

theorem Scanned.close (hdisj : ∀ a, isStart a = true → isEnd a = false) {l : List α}
    {ps : List (ℕ × ℕ)} {s : ℕ} (h : Scanned isStart isEnd l ps (some s)) {a : α}
    (ha : isEnd a = true) : Scanned isStart isEnd (l ++ [a]) (ps ++ [(s, l.length)]) none := by
  obtain ⟨⟨b, hb, hsb⟩, hafter, hnone⟩ := h.waiting s rfl
  have hlt := lt_length_of_some hb
  refine ⟨?_, ?_, ?_, ?_, nofun, ?_, ?_⟩
  · refine List.pairwise_append.mpr ⟨h.increasing, List.pairwise_singleton _ _, ?_⟩
    intro p hp q hq
    rw [List.mem_singleton.mp hq]
    exact hafter p hp
  · rw [List.forall_mem_append, List.length_append, List.length_singleton]
    refine ⟨fun p hp => ?_, fun p hp => ?_⟩
    · have hin := h.inside p hp
      omega
    · rw [List.mem_singleton.mp hp]
      exact ⟨hlt, Nat.lt_succ_self _⟩
  · rw [List.forall_mem_append]
    refine ⟨fun p hp => ?_, fun p hp => ?_⟩
    · obtain ⟨⟨c, hc, hs⟩, d, hd, he⟩ := h.ends p hp
      exact ⟨⟨c, getElem?_snoc_of_some hc a, hs⟩, d, getElem?_snoc_of_some hd a, he⟩
    · rw [List.mem_singleton.mp hp]
      exact ⟨⟨b, getElem?_snoc_of_some hb a, hsb⟩, a, List.getElem?_concat_length, ha⟩
  · rw [List.forall_mem_append]
    refine ⟨fun p hp k c hsk hke hc => ?_, fun p hp k c hsk hke hc => ?_⟩
    · rcases getElem?_snoc hc with hc | ⟨rfl, -⟩
      · exact h.between p hp k c hsk hke hc
      · have hin := (h.inside p hp).2
        omega
    · rw [List.mem_singleton.mp hp] at hsk hke
      rcases getElem?_snoc hc with hc | ⟨rfl, -⟩
      · exact hnone k c hsk hc
      · exact absurd hke (Nat.lt_irrefl _)
  · intro s' c hc hs'
    refine .inl ⟨(s, l.length), by simp, ?_⟩
    rcases getElem?_snoc hc with hc | ⟨rfl, rfl⟩
    · exact lt_length_of_some hc
    · rw [hdisj c hs'] at ha
      cases ha
  · intro s' e c d hse hc hs' hd he
    rcases getElem?_snoc hd with hd | ⟨rfl, -⟩
    · have hc' : l[s']? = some c := by
        have hlt' := lt_length_of_some hd
        rw [List.getElem?_append_left (by omega)] at hc
        exact hc
      refine (h.complete s' e c d hse hc' hs' hd he).imp ?_ ?_
      · rintro ⟨p, hp, rfl⟩
        exact ⟨p, List.mem_append_left _ hp, rfl⟩
      · rintro ⟨p, hp, hlt'⟩
        exact ⟨p, List.mem_append_left _ hp, hlt'⟩
    · exact .inl ⟨(s, l.length), by simp, rfl⟩

theorem Scanned.snoc (hdisj : ∀ a, isStart a = true → isEnd a = false) {l : List α}
    {ps : List (ℕ × ℕ)} {o : Option ℕ} (h : Scanned isStart isEnd l ps o) (a : α) :
    Scanned isStart isEnd (l ++ [a]) (ps ++ pairs isStart isEnd o l.length [a])
      (opened isStart isEnd o l.length [a]) := by
  cases o with
  | none =>
    by_cases hs : isStart a = true
    · rw [pairs, if_pos hs, opened, if_pos hs, pairs, opened, List.append_nil]
      refine h.pass a ?_ nofun (fun _ => ⟨_, rfl, Nat.le_refl _⟩) (fun _ => rfl)
      intro s hsome
      obtain rfl : l.length = s := Option.some.inj hsome
      refine ⟨⟨a, List.getElem?_concat_length, hs⟩, fun p hp => (h.inside p hp).2, ?_⟩
      intro k b hk hb
      have hlen := lt_length_of_some hb
      rw [List.length_append, List.length_singleton] at hlen
      omega
    · rw [pairs, if_neg hs, opened, if_neg hs, pairs, opened, List.append_nil]
      exact h.pass a nofun nofun (fun hs' => absurd hs' hs) (fun _ => rfl)
  | some s =>
    by_cases he : isEnd a = true
    · rw [pairs, if_pos he, opened, if_pos he, pairs, opened]
      exact h.close hdisj he
    · rw [pairs, if_neg he, opened, if_neg he, pairs, opened, List.append_nil]
      obtain ⟨⟨b, hb, hsb⟩, hafter, hnone⟩ := h.waiting s rfl
      refine h.pass a ?_ (fun _ ho => ho) (fun _ => ⟨s, rfl, Nat.le_of_lt (lt_length_of_some hb)⟩)
        (fun he' => absurd he' he)
      intro s' hs'
      obtain rfl : s = s' := Option.some.inj hs'
      refine ⟨⟨b, getElem?_snoc_of_some hb a, hsb⟩, hafter, ?_⟩
      intro k c hk hc
      rcases getElem?_snoc hc with hc | ⟨-, rfl⟩
      · exact hnone k c hk hc
      · exact Bool.not_eq_true _ ▸ he

theorem scanned (hdisj : ∀ a, isStart a = true → isEnd a = false) (l : List α) :
    Scanned isStart isEnd l (pairs isStart isEnd none 0 l) (opened isStart isEnd none 0 l) := by
  induction l using List.reverseRecOn with
  | nil => exact ⟨.nil, nofun, nofun, nofun, nofun, nofun, nofun⟩
  | append_singleton l a ih =>
    have hsnoc := ih.snoc hdisj a
    rw [pairs_append, opened_append, Nat.zero_add]
    exact hsnoc

end Scanned

section Matched

variable (isStart isEnd : α → Bool)

def matched : Option α → List α → List (α × α)
  | _, [] => []
  | none, a :: l => if isStart a then matched (some a) l else matched none l
  | some s, a :: l => if isEnd a then (s, a) :: matched none l else matched (some s) l

variable {isStart isEnd}

variable (isStart isEnd) in
theorem map_pairs_getD (d : α) (front l : List α) (o : Option ℕ)
    (ho : ∀ s, o = some s → s < front.length) :
    (pairs isStart isEnd o front.length l).map
        (fun p => ((front ++ l).getD p.1 d, (front ++ l).getD p.2 d)) =
      matched isStart isEnd (o.map fun s => front.getD s d) l := by
  induction l generalizing front o with
  | nil => cases o <;> rfl
  | cons a l ih =>
    have hsplit : front ++ a :: l = front ++ [a] ++ l := by simp
    have hlength : (front ++ [a]).length = front.length + 1 := by simp
    have hlast : (front ++ [a]).getD front.length d = a := by
      rw [List.getD_eq_getElem?_getD, List.getElem?_concat_length]
      rfl
    have hkept : ∀ (xs ys : List α) {s : ℕ}, s < xs.length →
        (xs ++ ys).getD s d = xs.getD s d := by
      intro xs ys s hs
      rw [List.getD_eq_getElem?_getD, List.getD_eq_getElem?_getD, List.getElem?_append_left hs]
    have hrest := ih (front ++ [a])
    rw [hlength, ← hsplit] at hrest
    cases o with
    | none =>
      have hnone := hrest none nofun
      rw [pairs, Option.map_none, matched]
      split_ifs with ha
      · rw [hrest (some front.length), Option.map_some, hlast]
        intro s hs
        cases hs
        exact Nat.lt_succ_self _
      · exact hnone
    | some s =>
      have hs : s < front.length := ho s rfl
      rw [pairs, Option.map_some, matched]
      split_ifs with ha
      · rw [List.map_cons, hrest none nofun]
        congr 2
        · exact hkept front (a :: l) hs
        · rw [hsplit, hkept (front ++ [a]) l (by omega), hlast]
      · rw [hrest (some s), Option.map_some, hkept front [a] hs]
        intro s' hs'
        cases hs'
        omega

variable (isStart isEnd) in
theorem matched_map (f : β → α) (o : Option β) (l : List β) :
    matched isStart isEnd (o.map f) (l.map f) =
      (matched (fun b => isStart (f b)) (fun b => isEnd (f b)) o l).map
        fun p => (f p.1, f p.2) := by
  induction l generalizing o with
  | nil => cases o <;> rfl
  | cons b l ih =>
    cases o with
    | none =>
      rw [List.map_cons, Option.map_none, matched, matched]
      split_ifs
      · exact ih (some b)
      · exact ih none
    | some s =>
      rw [List.map_cons, Option.map_some, matched, matched]
      split_ifs
      · rw [List.map_cons, ← ih none]
        rfl
      · exact ih (some s)

theorem matched_eq_nil {o : Option α} {l : List α} (h : ∀ a ∈ l, ¬ isEnd a = true) :
    matched isStart isEnd o l = [] := by
  induction l generalizing o with
  | nil => cases o <;> rfl
  | cons a l ih =>
    obtain ⟨ha, hl⟩ := List.forall_mem_cons.mp h
    cases o with
    | none =>
      rw [matched]
      split_ifs <;> exact ih hl
    | some s =>
      rw [matched, if_neg ha]
      exact ih hl

theorem exists_matched {s : α} {l : List α} (h : ∃ a ∈ l, isEnd a = true) :
    ∃ p ∈ matched isStart isEnd (some s) l, p.1 = s := by
  induction l with
  | nil =>
    obtain ⟨a, hmem, -⟩ := h
    cases hmem
  | cons a l ih =>
    rw [matched]
    split_ifs with ha
    · exact ⟨(s, a), List.mem_cons_self, rfl⟩
    · apply ih
      obtain ⟨b, hmem, hb⟩ := h
      rcases List.mem_cons.mp hmem with rfl | hmem
      · exact absurd hb ha
      · exact ⟨b, hmem, hb⟩

theorem forall_matched_of_not {P : α → Prop} {s : α} (hs : ¬ P s) {l : List α} :
    (∀ p ∈ matched isStart isEnd (some s) l, P p.1 ∧ P p.2) ↔ ∀ a ∈ l, ¬ isEnd a = true := by
  constructor
  · intro h a hmem hend
    obtain ⟨p, hp, rfl⟩ : ∃ p ∈ matched isStart isEnd (some s) l, p.1 = s :=
      exists_matched ⟨a, hmem, hend⟩
    exact hs (h p hp).1
  · intro hnoend
    rw [matched_eq_nil hnoend]
    exact List.forall_mem_nil _

theorem mem_matched {o : Option α} {l : List α} {p : α × α}
    (h : p ∈ matched isStart isEnd o l) :
    (o = some p.1 ∨ p.1 ∈ l ∧ isStart p.1 = true) ∧ p.2 ∈ l ∧ isEnd p.2 = true := by
  induction l generalizing o with
  | nil => cases o <;> cases h
  | cons a l ih =>
    have hlater : ∀ {o : Option α}, p ∈ matched isStart isEnd o l →
        (o = some p.1 ∨ p.1 ∈ a :: l ∧ isStart p.1 = true) ∧ p.2 ∈ a :: l ∧ isEnd p.2 = true := by
      intro o hp
      obtain ⟨hstart, hmem, hend⟩ := ih hp
      exact ⟨hstart.imp_right fun h => ⟨List.mem_cons_of_mem _ h.1, h.2⟩,
        List.mem_cons_of_mem _ hmem, hend⟩
    cases o with
    | none =>
      rw [matched] at h
      split_ifs at h with ha
      · obtain ⟨hstart, hend⟩ := hlater h
        refine ⟨.inr ?_, hend⟩
        rcases hstart with hwait | hstart
        · rw [← Option.some.inj hwait]
          exact ⟨List.mem_cons_self, ha⟩
        · exact hstart
      · exact hlater h
    | some s =>
      rw [matched] at h
      split_ifs at h with ha
      · rcases List.mem_cons.mp h with rfl | h
        · exact ⟨.inl rfl, List.mem_cons_self, ha⟩
        · exact ⟨.inr ((hlater h).1.resolve_left nofun), (hlater h).2⟩
      · exact hlater h

/-- Elements that are in no pair can be left out. -/
theorem matched_filter {keep : α → Bool} {o : Option α} {l : List α}
    (h : ∀ p ∈ matched isStart isEnd o l, keep p.1 = true ∧ keep p.2 = true) :
    matched isStart isEnd o (l.filter keep) = matched isStart isEnd o l := by
  induction l generalizing o with
  | nil => rfl
  | cons a l ih =>
    by_cases hkeep : keep a = true
    · rw [List.filter_cons_of_pos hkeep]
      cases o with
      | none =>
        rw [matched] at h
        rw [matched, matched]
        split_ifs at h ⊢ with ha
        · exact ih h
        · exact ih h
      | some s =>
        rw [matched] at h
        rw [matched, matched]
        split_ifs at h ⊢ with ha
        · rw [ih (List.forall_mem_cons.mp h).2]
        · exact ih h
    · rw [List.filter_cons_of_neg hkeep]
      cases o with
      | none =>
        rw [matched] at h
        rw [matched]
        split_ifs at h ⊢ with ha
        · -- This start would be in a pair if an end came.
          have hnoend : ∀ b ∈ l, ¬ isEnd b = true :=
            (forall_matched_of_not (P := fun b => keep b = true) hkeep).mp h
          rw [matched_eq_nil hnoend]
          exact matched_eq_nil fun b hb => hnoend b (List.mem_filter.mp hb).1
        · exact ih h
      | some s =>
        rw [matched] at h
        rw [matched]
        split_ifs at h ⊢ with ha
        · exact absurd (List.forall_mem_cons.mp h).1.2 hkeep
        · exact ih h

section Measure

variable {f : α → ℤ}

/-- A measure that does not fall along the list does not fall from a start to its end. -/
theorem measure_le_of_matched {o : Option α} {l : List α}
    (hmono : (o.toList ++ l).Pairwise fun a b => f a ≤ f b) {p : α × α}
    (hp : p ∈ matched isStart isEnd o l) : f p.1 ≤ f p.2 := by
  induction l generalizing o with
  | nil => cases o <;> cases hp
  | cons a l ih =>
    cases o with
    | none =>
      rw [matched] at hp
      split_ifs at hp with ha
      · exact ih (o := some a) hmono hp
      · exact ih (o := none) (List.pairwise_cons.mp hmono).2 hp
    | some s =>
      obtain ⟨hs, htail⟩ := List.pairwise_cons.mp hmono
      rw [matched] at hp
      split_ifs at hp with ha
      · rcases List.mem_cons.mp hp with rfl | hp
        · exact hs a List.mem_cons_self
        · exact ih (o := none) (List.pairwise_cons.mp htail).2 hp
      · apply ih (o := some s) ?_ hp
        apply List.pairwise_cons.mpr
        exact ⟨fun b hb => hs b (List.mem_cons_of_mem _ hb), (List.pairwise_cons.mp htail).2⟩

/-- The pairs do not overlap, so their lengths add up to no more than the whole: from the
waiting start, or else from any bound below the list, to any bound above it. -/
theorem sum_measure_le {lo hi : ℤ} {o : Option α} {l : List α}
    (hmono : l.Pairwise fun a b => f a ≤ f b) (hlo : ∀ a ∈ l, lo ≤ f a) (hhi : ∀ a ∈ l, f a ≤ hi)
    (hle : lo ≤ hi) (hwait : ∀ s, o = some s → lo ≤ f s) :
    ((matched isStart isEnd o l).map fun p => f p.2 - f p.1).sum ≤ hi - lo := by
  induction l generalizing o lo with
  | nil => cases o <;> simp only [matched, List.map_nil, List.sum_nil] <;> omega
  | cons a l ih =>
    obtain ⟨hmin, hmono⟩ := List.pairwise_cons.mp hmono
    obtain ⟨hloa, hlo⟩ := List.forall_mem_cons.mp hlo
    obtain ⟨hhia, hhi⟩ := List.forall_mem_cons.mp hhi
    cases o with
    | none =>
      rw [matched]
      split_ifs with ha
      · apply ih hmono hlo hhi hle
        intro s hs
        rwa [← Option.some.inj hs]
      · exact ih hmono hlo hhi hle nofun
    | some s =>
      rw [matched]
      split_ifs with ha
      · have hrest := ih (o := none) hmono hmin hhi hhia nofun
        have hs := hwait s rfl
        rw [List.map_cons, List.sum_cons]
        dsimp only
        omega
      · exact ih hmono hlo hhi hle hwait

end Measure

end Matched

end UbenchAgent.Pairing
