import Mathlib.Data.List.Basic
import Mathlib.Data.List.Zip

/-!
# Blocks of columns side by side

A block is a rectangle of values with a name for each column.  Blocks of one height can be
put side by side: the names follow one another, and so do the rows.
-/

namespace UbenchAgent.Columns

variable {ν α : Type*}

structure Block (ν α : Type*) where
  names : List ν
  rows : List (List α)
  deriving DecidableEq, Repr

def Block.Rectangular (b : Block ν α) : Prop := ∀ row ∈ b.rows, row.length = b.names.length

def Block.beside (a b : Block ν α) : Block ν α :=
  ⟨a.names ++ b.names, List.zipWith (· ++ ·) a.rows b.rows⟩

/-- `whole` is the blocks side by side. -/
structure SideBySide (blocks : List (Block ν α)) (whole : Block ν α) : Prop where
  names : whole.names = blocks.flatMap (·.names)
  height : ∀ b ∈ blocks, b.rows.length = whole.rows.length
  row : ∀ i < whole.rows.length,
    whole.rows[i]? = some (blocks.flatMap fun b => b.rows.getD i [])

theorem Block.Rectangular.beside {a b : Block ν α} (ha : a.Rectangular) (hb : b.Rectangular) :
    (a.beside b).Rectangular := by
  intro row hrow
  change row ∈ List.zipWith (· ++ ·) a.rows b.rows at hrow
  obtain ⟨i, hi, rfl⟩ := List.mem_iff_getElem.mp hrow
  rw [List.getElem_zipWith, List.length_append, ha _ (List.getElem_mem _),
    hb _ (List.getElem_mem _)]
  exact List.length_append.symm

theorem SideBySide.single (b : Block ν α) : SideBySide [b] b := by
  refine ⟨?_, ?_, ?_⟩
  · rw [List.flatMap_singleton]
  · intro b' hb'
    rw [List.mem_singleton.mp hb']
  · intro i hi
    rw [List.flatMap_singleton, List.getD_eq_getElem?_getD, List.getElem?_eq_getElem hi]
    rfl

theorem SideBySide.snoc {blocks : List (Block ν α)} {whole b : Block ν α}
    (h : SideBySide blocks whole) (hb : b.rows.length = whole.rows.length) :
    SideBySide (blocks ++ [b]) (whole.beside b) := by
  have hlength : (whole.beside b).rows.length = whole.rows.length := by
    rw [Block.beside, List.length_zipWith, hb, min_self]
  refine ⟨?_, ?_, ?_⟩
  · rw [Block.beside, h.names, List.flatMap_append, List.flatMap_singleton]
  · intro b' hb'
    rw [hlength]
    rcases List.mem_append.mp hb' with hold | hnew
    · exact h.height b' hold
    · rw [List.mem_singleton.mp hnew, hb]
  · intro i hi
    rw [hlength] at hi
    rw [List.flatMap_append, List.flatMap_singleton, Block.beside, List.getElem?_zipWith,
      h.row i hi, List.getD_eq_getElem?_getD, List.getElem?_eq_getElem (by omega)]
    rfl

def Block.blank (height : ℕ) : Block ν α := ⟨[], List.replicate height []⟩

def Block.rename (f : ν → ν) (b : Block ν α) : Block ν α := ⟨b.names.map f, b.rows⟩

def joined (height : ℕ) : List (Block ν α) → Block ν α
  | [] => .blank height
  | b :: blocks => b.beside (joined height blocks)

theorem zipWith_append_assoc (as bs cs : List (List α)) :
    List.zipWith (· ++ ·) (List.zipWith (· ++ ·) as bs) cs =
      List.zipWith (· ++ ·) as (List.zipWith (· ++ ·) bs cs) := by
  induction as generalizing bs cs with
  | nil => rfl
  | cons a as ih =>
    cases bs with
    | nil => rfl
    | cons b bs =>
      cases cs with
      | nil => rfl
      | cons c cs =>
        simp only [List.zipWith_cons_cons, ih, List.append_assoc]

theorem zipWith_nil_append (rows : List (List α)) :
    List.zipWith (· ++ ·) (List.replicate rows.length []) rows = rows := by
  induction rows with
  | nil => rfl
  | cons row rows ih =>
    rw [List.length_cons, List.replicate_succ, List.zipWith_cons_cons, ih]
    rfl

theorem zipWith_append_nil (rows : List (List α)) :
    List.zipWith (· ++ ·) rows (List.replicate rows.length []) = rows := by
  induction rows with
  | nil => rfl
  | cons row rows ih =>
    rw [List.length_cons, List.replicate_succ, List.zipWith_cons_cons, ih, List.append_nil]

theorem Block.beside_assoc (a b c : Block ν α) :
    (a.beside b).beside c = a.beside (b.beside c) := by
  unfold Block.beside
  rw [List.append_assoc, zipWith_append_assoc]

theorem Block.blank_beside (b : Block ν α) : (Block.blank b.rows.length).beside b = b := by
  unfold Block.beside Block.blank
  rw [zipWith_nil_append]
  rfl

theorem Block.beside_blank (b : Block ν α) : b.beside (.blank b.rows.length) = b := by
  unfold Block.beside Block.blank
  rw [zipWith_append_nil, List.append_nil]

section Joined

variable {height : ℕ} {blocks : List (Block ν α)}

theorem joined_names (height : ℕ) (blocks : List (Block ν α)) :
    (joined height blocks).names = blocks.flatMap (·.names) := by
  induction blocks with
  | nil => rfl
  | cons b blocks ih => rw [joined, Block.beside, ih, List.flatMap_cons]

theorem joined_height (h : ∀ b ∈ blocks, b.rows.length = height) :
    (joined height blocks).rows.length = height := by
  induction blocks with
  | nil => exact List.length_replicate
  | cons b blocks ih =>
    obtain ⟨hb, hblocks⟩ := List.forall_mem_cons.mp h
    rw [joined, Block.beside, List.length_zipWith, ih hblocks, hb, min_self]

theorem joined_rectangular (h : ∀ b ∈ blocks, b.Rectangular) :
    (joined height blocks).Rectangular := by
  induction blocks with
  | nil =>
    intro row hrow
    rw [List.eq_of_mem_replicate hrow]
    rfl
  | cons b blocks ih =>
    obtain ⟨hb, hblocks⟩ := List.forall_mem_cons.mp h
    exact hb.beside (ih hblocks)

theorem joined_append (before : List (Block ν α)) (h : ∀ b ∈ blocks, b.rows.length = height) :
    joined height (before ++ blocks) = (joined height before).beside (joined height blocks) := by
  induction before with
  | nil =>
    have hblank := Block.blank_beside (joined height blocks)
    rw [joined_height h] at hblank
    exact hblank.symm
  | cons b before ih => rw [List.cons_append, joined, ih, joined, Block.beside_assoc]

theorem joined_snoc {b : Block ν α} (h : b.rows.length = height) :
    joined height (blocks ++ [b]) = (joined height blocks).beside b := by
  rw [joined_append blocks (List.forall_mem_singleton.mpr h), joined, joined, ← h,
    Block.beside_blank]

theorem joined_rename (height : ℕ) (f : ν → ν) (blocks : List (Block ν α)) :
    joined height (blocks.map (Block.rename f)) = (joined height blocks).rename f := by
  induction blocks with
  | nil => rfl
  | cons b blocks ih =>
    rw [List.map_cons, joined, ih, joined]
    unfold Block.beside Block.rename
    rw [List.map_append]

theorem joined_rows_map {β ι : Type*} (l : List ι) (parts : List β) (names : β → List ν)
    (cells : β → ι → List α) :
    (joined l.length (parts.map fun b => ⟨names b, l.map (cells b)⟩)).rows =
      l.map fun i => parts.flatMap fun b => cells b i := by
  induction parts with
  | nil =>
    rw [List.map_nil, joined, Block.blank]
    exact (List.map_const' ..).symm
  | cons b parts ih =>
    rw [List.map_cons, joined, Block.beside, ih, List.zipWith_map, List.zipWith_self]
    simp only [List.flatMap_cons]

end Joined

end UbenchAgent.Columns
