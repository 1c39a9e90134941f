import Mathlib.Data.List.Basic

/-!
# Lines, cells and words

A text is a list of symbols.  Lines end at a newline.  A cell is a word behind some blanks, and
a row of cells can be split at the blanks again if every word has one in front of it.
-/

namespace UbenchAgent.Text

variable {α : Type*}

section Lines

variable [DecidableEq α]

/-- The lines of a text, each of which ends with `newline`; nothing may follow the last one. -/
def lines (newline : α) (text : List α) : Option (List (List α)) :=
  if (text.splitOn newline).getLast? = some [] then some (text.splitOn newline).dropLast else none

def unlines (newline : α) (ls : List (List α)) : List α := ls.flatMap (· ++ [newline])

theorem splitOn_unlines {newline : α} {ls : List (List α)} (h : ∀ l ∈ ls, newline ∉ l) :
    (unlines newline ls).splitOn newline = ls ++ [[]] := by
  induction ls with
  | nil => rfl
  | cons l ls ih =>
    obtain ⟨hl, hls⟩ := List.forall_mem_cons.mp h
    have hcons : unlines newline (l :: ls) = l ++ newline :: unlines newline ls := by
      rw [unlines, List.flatMap_cons, List.append_assoc, List.singleton_append]
      rfl
    rw [hcons, List.splitOn_append_cons_self_of_not_mem hl, ih hls, List.cons_append]

theorem lines_unlines {newline : α} {ls : List (List α)} (h : ∀ l ∈ ls, newline ∉ l) :
    lines newline (unlines newline ls) = some ls := by
  rw [lines, splitOn_unlines h, List.getLast?_concat, if_pos rfl, List.dropLast_concat]

end Lines

/-- Words, each behind its number of blanks. -/
def cells (blank : α) (cs : List (ℕ × List α)) : List α :=
  cs.flatMap fun c => List.replicate c.1 blank ++ c.2

variable {blank : α}

theorem cells_cons (c : ℕ × List α) (cs : List (ℕ × List α)) :
    cells blank (c :: cs) = List.replicate c.1 blank ++ (c.2 ++ cells blank cs) := by
  rw [cells, List.flatMap_cons, List.append_assoc]
  rfl

theorem replicate_append_inj {m n : ℕ} {a b : α} {as bs : List α} (ha : a ≠ blank)
    (hb : b ≠ blank)
    (h : List.replicate m blank ++ a :: as = List.replicate n blank ++ b :: bs) :
    m = n ∧ as = bs := by
  induction m generalizing n with
  | zero =>
    cases n with
    | zero => exact ⟨rfl, (List.cons.inj h).2⟩
    | succ n => exact absurd (List.cons.inj h).1 ha
  | succ m ih =>
    cases n with
    | zero => exact absurd (List.cons.inj h).1.symm hb
    | succ n =>
      obtain ⟨hmn, has⟩ := ih (List.cons.inj h).2
      exact ⟨congrArg (· + 1) hmn, has⟩

theorem cells_inj {cs ds : List (ℕ × List α)} (hwords : cs.map Prod.snd = ds.map Prod.snd)
    (hcs : ∀ c ∈ cs, c.2 ≠ [] ∧ blank ∉ c.2) (h : cells blank cs = cells blank ds) : cs = ds := by
  induction cs generalizing ds with
  | nil => exact (List.map_eq_nil_iff.mp hwords.symm).symm
  | cons c cs ih =>
    obtain ⟨m, word⟩ := c
    obtain ⟨⟨hne, hword⟩, hrest⟩ := List.forall_mem_cons.mp hcs
    obtain ⟨d, ds, rfl, hd, htail⟩ := List.map_eq_cons_iff.mp hwords.symm
    obtain ⟨n, word'⟩ := d
    dsimp only at hd hne hword
    subst hd
    obtain ⟨a, as, rfl⟩ := List.exists_cons_of_ne_nil hne
    have ha : a ≠ blank := fun hblank => hword (hblank ▸ List.mem_cons_self)
    rw [cells_cons, cells_cons] at h
    obtain ⟨hpad, htext⟩ := replicate_append_inj ha ha h
    dsimp only at hpad
    rw [hpad, ih htail.symm hrest (List.append_cancel_left htext)]

section Words

variable [DecidableEq α]

def words (blank : α) (text : List α) : List (List α) :=
  (text.splitOn blank).filter fun word => word ≠ []

theorem words_append (before after : List α) :
    words blank (before ++ blank :: after) = words blank before ++ words blank after := by
  rw [words, List.splitOn_append_cons_self, List.filter_append]
  rfl

theorem words_blank (text : List α) : words blank (blank :: text) = words blank text :=
  words_append [] text

theorem words_replicate (n : ℕ) (text : List α) :
    words blank (List.replicate n blank ++ text) = words blank text := by
  induction n with
  | zero => rfl
  | succ n ih => rw [List.replicate_succ, List.cons_append, words_blank, ih]

theorem words_word {word : List α} (h : blank ∉ word) (hne : word ≠ []) :
    words blank word = [word] := by
  rw [words, List.splitOn_eq_singleton h, List.filter_singleton, decide_eq_true hne]
  rfl

theorem nil_notMem_words (text : List α) : [] ∉ words blank text := by
  intro hmem
  exact of_decide_eq_true (List.mem_filter.mp hmem).2 rfl

theorem words_cells {cs : List (ℕ × List α)}
    (h : ∀ c ∈ cs, 0 < c.1 ∧ c.2 ≠ [] ∧ blank ∉ c.2) :
    words blank (cells blank cs) = cs.map Prod.snd := by
  induction cs with
  | nil => rfl
  | cons c cs ih =>
    obtain ⟨⟨-, hne, hword⟩, hcs⟩ := List.forall_mem_cons.mp h
    have ih := ih hcs
    rw [cells_cons, words_replicate, List.map_cons]
    cases cs with
    | nil =>
      rw [cells, List.flatMap_nil, List.append_nil, words_word hword hne]
      rfl
    | cons d cs =>
      -- The blank of the next cell ends the word.
      obtain ⟨⟨hpad, -, -⟩, -⟩ := List.forall_mem_cons.mp hcs
      obtain ⟨pad, hpad⟩ := Nat.exists_eq_add_one.mpr hpad
      rw [cells_cons, hpad, List.replicate_succ, List.cons_append] at ih ⊢
      rw [words_append, words_word hword hne, ← words_blank, ih]
      rfl

end Words

end UbenchAgent.Text
