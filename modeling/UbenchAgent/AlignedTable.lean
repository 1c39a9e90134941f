import UbenchAgent.Printer
import Mathlib.Algebra.GroupWithZero.Nat
import Mathlib.Algebra.Ring.Int.Defs

/-!
# The table with adaptive widths

`getOptimalColumnWidths` takes the largest value of the results, starting from zero, so it does
not see how long a negative value is.  The format of a value has a least width, and a longer
value is printed all the same.
-/

namespace UbenchAgent

open Text

/-- The line is as long as the columns are wide, every text is there in full behind at least
one blank, and the texts are what is between the blanks. -/
structure AlignedLine (widths : List ℤ) (texts : List (List UInt16)) (line : List UInt16) :
    Prop where
  length : (line.length : ℤ) = widths.sum
  cells : ∃ cs : List (ℕ × List UInt16), cs.map Prod.snd = texts ∧ (∀ c ∈ cs, 0 < c.1) ∧
    line = Text.cells space cs
  words : Text.words space line = texts

/-- The table has a line for the names and one for each row, and all are aligned. -/
def AlignedTable (results : BenchmarkResults) : Prop :=
  ∃ widths out header rows, getOptimalColumnWidths results = .ok widths ∧
    tableOptimal results = (out, .ok ()) ∧ lines newline out = some (header :: rows) ∧
    AlignedLine widths (results.eventNames.map appended) header ∧
    List.Forall₂ (fun row line => AlignedLine widths (row.map formatLong) line) results.data rows

/-- The name has neither a blank nor the end of a line. -/
def Unbroken (name : String) : Prop := space ∉ units name ∧ newline ∉ units name

/-- A negative value is not longer than the name of its column, or not longer than some value
without a sign. -/
def NegativesFit (names : List String) (data : List (List Int64)) : Prop :=
  ∀ row ∈ data, ∀ cell ∈ names.zip row, cell.2 < 0 →
    (formatLong cell.2).length ≤ (units cell.1).length ∨
      ∃ row' ∈ data, ∃ value ∈ row', 0 ≤ value ∧
        (formatLong cell.2).length ≤ (formatLong value).length

instance : DecidablePred Unbroken :=
  fun name => inferInstanceAs (Decidable (space ∉ units name ∧ newline ∉ units name))

def columnWidth (data : List (List Int64)) (name : String) : ℤ :=
  max ((units name).length : ℤ) (formatLong (maxValue data)).length + 1

section Widths

variable {names : List String} {data : List (List Int64)}

theorem getOptimalColumnWidths_eq (names : List String) (data : List (List Int64)) :
    getOptimalColumnWidths ⟨names.map some, data⟩ = .ok (names.map (columnWidth data)) := by
  unfold getOptimalColumnWidths
  dsimp only
  induction names with
  | nil => rfl
  | cons name names ih =>
    rw [List.map_cons, List.mapM_cons, ih]
    rfl

theorem le_larger (a r : Int64) :
    a ≤ (if r > a then r else a) ∧ r ≤ (if r > a then r else a) := by
  split_ifs with hgreater
  · exact ⟨Int64.le_of_lt hgreater, Int64.le_refl _⟩
  · exact ⟨Int64.le_refl _, Int64.not_lt.mp hgreater⟩

theorem foldl_larger (values : List Int64) (start : Int64) :
    start ≤ values.foldl (fun m r => if r > m then r else m) start ∧
      (∀ r ∈ values, r ≤ values.foldl (fun m r => if r > m then r else m) start) ∧
      (values.foldl (fun m r => if r > m then r else m) start = start ∨
        values.foldl (fun m r => if r > m then r else m) start ∈ values) := by
  induction values generalizing start with
  | nil => exact ⟨Int64.le_refl _, List.forall_mem_nil _, .inl rfl⟩
  | cons r values ih =>
    obtain ⟨hstart, hvalues, hmem⟩ := ih (if r > start then r else start)
    obtain ⟨hle, hr⟩ := le_larger start r
    refine ⟨Int64.le_trans hle hstart,
      List.forall_mem_cons.mpr ⟨Int64.le_trans hr hstart, hvalues⟩, ?_⟩
    rw [List.foldl_cons]
    rcases hmem with hsame | hmem
    · rw [hsame]
      split_ifs
      · exact .inr List.mem_cons_self
      · exact .inl rfl
    · exact .inr (List.mem_cons_of_mem _ hmem)

theorem maxValue_spec (data : List (List Int64)) :
    0 ≤ maxValue data ∧ (∀ row ∈ data, ∀ r ∈ row, r ≤ maxValue data) ∧
      (maxValue data = 0 ∨ ∃ row ∈ data, maxValue data ∈ row) := by
  obtain ⟨hstart, hvalues, hmem⟩ := foldl_larger data.flatten 0
  rw [List.foldl_flatten] at hstart hvalues hmem
  refine ⟨hstart, fun row hrow r hr => hvalues r (List.mem_flatten_of_mem hrow hr), ?_⟩
  exact hmem.imp_right List.mem_flatten.mp

theorem length_digitUnits_le {n m : ℕ} (h : n ≤ m) :
    (digitUnits n).length ≤ (digitUnits m).length := by
  rw [digitUnits, digitUnits, List.length_map, List.length_map,
    Nat.length_toDigits_le_iff (by omega) Nat.length_toDigits_pos]
  have hm : m < 10 ^ (Nat.toDigits 10 m).length :=
    (Nat.length_toDigits_le_iff (by omega) Nat.length_toDigits_pos).mp le_rfl
  omega

theorem length_formatLong_le {v w : Int64} (hv : 0 ≤ v) (h : v ≤ w) :
    (formatLong v).length ≤ (formatLong w).length := by
  rw [Int64.le_iff_toInt_le] at hv h
  rw [Int64.toInt_zero] at hv
  rw [formatLong_eq, formatLong_eq, if_pos hv, if_pos (by omega)]
  apply length_digitUnits_le
  omega

theorem two_le_length_of_neg {v : Int64} (h : v < 0) : 2 ≤ (formatLong v).length := by
  rw [Int64.lt_iff_toInt_lt, Int64.toInt_zero] at h
  have hdigits : 0 < (Nat.toDigits 10 (-v.toInt).toNat).length := Nat.length_toDigits_pos
  rw [formatLong_eq, if_neg (by omega), List.length_cons, digitUnits, List.length_map]
  omega

theorem length_lt_columnWidth_iff {row : List Int64} (hrow : row ∈ data) {v : Int64}
    (hv : v ∈ row) (name : String) :
    ((formatLong v).length : ℤ) < columnWidth data name ↔
      (v < 0 → (formatLong v).length ≤ (units name).length ∨
        ∃ row' ∈ data, ∃ value ∈ row', 0 ≤ value ∧
          (formatLong v).length ≤ (formatLong value).length) := by
  obtain ⟨hzero, hmax, hmem⟩ := maxValue_spec data
  have hwidth : ((formatLong v).length : ℤ) < columnWidth data name ↔
      (formatLong v).length ≤ (units name).length ∨
        (formatLong v).length ≤ (formatLong (maxValue data)).length := by
    unfold columnWidth
    omega
  rw [hwidth]
  constructor
  · rintro (hname | hvalue) hneg
    · exact .inl hname
    · rcases hmem with hnone | ⟨row', hrow', hmem⟩
      · have hlong := two_le_length_of_neg hneg
        have hshort : (formatLong (maxValue data)).length = 1 := by rw [hnone]; decide
        omega
      · exact .inr ⟨row', hrow', _, hmem, hzero, hvalue⟩
  · intro hfits
    by_cases hneg : v < 0
    · refine (hfits hneg).imp_right ?_
      rintro ⟨row', hrow', value, hvalue, hsign, hlength⟩
      exact hlength.trans (length_formatLong_le hsign (hmax row' hrow' value hvalue))
    · exact .inr (length_formatLong_le (Int64.not_lt.mp hneg) (hmax row hrow v hv))

end Widths

def padded (width : ℤ) (text : List UInt16) : ℕ × List UInt16 := (width.toNat - text.length, text)

def lineCells (widths : List ℤ) (texts : List (List UInt16)) : List (ℕ × List UInt16) :=
  List.zipWith padded widths texts

theorem lineCells_cons (width : ℤ) (widths : List ℤ) (t : List UInt16)
    (texts : List (List UInt16)) :
    lineCells (width :: widths) (t :: texts) = padded width t :: lineCells widths texts := rfl

theorem mem_lineCells {widths : List ℤ} {texts : List (List UInt16)} {c : ℕ × List UInt16}
    (h : c ∈ lineCells widths texts) :
    ∃ width t, (width, t) ∈ widths.zip texts ∧ c = padded width t := by
  rw [lineCells, ← List.map_uncurry_zip_eq_zipWith] at h
  obtain ⟨⟨width, t⟩, hmem, rfl⟩ := List.mem_map.mp h
  exact ⟨width, t, hmem, rfl⟩

theorem justify_eq {width : ℤ} (h : 0 ≤ width) (text : List UInt16) :
    justify width text = List.replicate (width.toNat - text.length) space ++ text := by
  rw [justify, if_pos h, ← Int.toNat_of_nonneg h, Int.natAbs_natCast]
  rfl

section Lines

variable {γ : Type*} {cell : ℕ → γ → Except PrinterException (List UInt16)}
  {text : γ → List UInt16} {columns widths : List ℤ} {items : List γ}

theorem printCells_eq (before : List ℤ) (hcolumns : columns = before ++ widths)
    (h : List.Forall₂ (fun width item => 0 ≤ width ∧ ∀ index, columns[index]? = some width →
      cell index item = .ok (justify width (text item))) widths items) :
    printCells cell before.length items =
      (cells space (lineCells widths (items.map text)), .ok ()) := by
  induction h generalizing before with
  | nil => rfl
  | @cons width item widths items hcell hrest ih =>
    have hindex : columns[before.length]? = some width := by
      rw [hcolumns, List.getElem?_append_right le_rfl, Nat.sub_self]
      rfl
    have hrest := ih (before ++ [width]) (by rw [hcolumns, List.append_assoc]; rfl)
    rw [List.length_append, List.length_singleton] at hrest
    rw [printCells, hcell.2 _ hindex]
    dsimp only
    rw [hrest, justify_eq hcell.1, List.map_cons, lineCells_cons, cells_cons, ← List.append_assoc]
    rfl

theorem printLine_eq
    (h : List.Forall₂ (fun width item => 0 ≤ width ∧ ∀ index, columns[index]? = some width →
      cell index item = .ok (justify width (text item))) columns items) :
    printLine cell items =
      (cells space (lineCells columns (items.map text)) ++ [newline], .ok ()) := by
  have hcells := printCells_eq [] rfl h
  rw [printLine]
  unfold Printed.andThen
  rw [show printCells cell 0 items = _ from hcells]

theorem printRows_eq {rows : List (List γ)}
    (h : ∀ row ∈ rows, List.Forall₂ (fun width item => 0 ≤ width ∧ ∀ index,
      columns[index]? = some width → cell index item = .ok (justify width (text item)))
      columns row) :
    printRows cell rows = (unlines newline
      (rows.map fun row => cells space (lineCells columns (row.map text))), .ok ()) := by
  induction rows with
  | nil => rfl
  | cons row rows ih =>
    obtain ⟨hrow, hrows⟩ := List.forall_mem_cons.mp h
    rw [printRows, printLine_eq hrow, ih hrows]
    rfl

theorem newline_notMem_cells {texts : List (List UInt16)} (h : ∀ t ∈ texts, newline ∉ t) :
    newline ∉ cells space (lineCells widths texts) := by
  intro hmem
  obtain ⟨c, hc, hmem⟩ := List.mem_flatMap.mp hmem
  rcases List.mem_append.mp hmem with hblank | htext
  · exact absurd (List.eq_of_mem_replicate hblank) (by decide)
  · obtain ⟨width, t, hzip, rfl⟩ := mem_lineCells hc
    exact h t (List.of_mem_zip hzip).2 htext

theorem lineCells_map_snd {texts : List (List UInt16)} (h : widths.length = texts.length) :
    (lineCells widths texts).map Prod.snd = texts := by
  induction widths generalizing texts with
  | nil => exact (List.length_eq_zero_iff.mp h.symm).symm
  | cons width widths ih =>
    cases texts with
    | nil => cases h
    | cons t texts =>
      rw [lineCells_cons, List.map_cons, ih (Nat.succ.inj h)]
      rfl

theorem length_lineCells {texts : List (List UInt16)}
    (h : List.Forall₂ (fun width t => ((List.length t : ℕ) : ℤ) < width) widths texts) :
    ((cells space (lineCells widths texts)).length : ℤ) = widths.sum := by
  induction h with
  | nil => rfl
  | @cons width t widths texts hfits hrest ih =>
    rw [lineCells_cons, cells_cons, List.length_append, List.length_append,
      List.length_replicate, List.sum_cons, ← ih]
    unfold padded
    dsimp only
    omega

/-- A line of words is aligned exactly if each word is shorter than its column, and none is
empty. -/
theorem alignedLine_iff {texts : List (List UInt16)} (hlength : widths.length = texts.length)
    (hblank : ∀ t ∈ texts, space ∉ t) :
    AlignedLine widths texts (cells space (lineCells widths texts)) ↔
      [] ∉ texts ∧
        List.Forall₂ (fun width t => ((List.length t : ℕ) : ℤ) < width) widths texts := by
  constructor
  · intro h
    have hnil : [] ∉ texts := by
      rw [← h.words]
      exact nil_notMem_words _
    refine ⟨hnil, List.forall₂_iff_zip.mpr ⟨hlength, fun {width t} hmem => ?_⟩⟩
    obtain ⟨cs, hcs, hpads, hline⟩ := h.cells
    have hsame : lineCells widths texts = cs := by
      apply cells_inj ((lineCells_map_snd hlength).trans hcs.symm) _ hline
      intro c hc
      obtain ⟨width, t, hzip, rfl⟩ := mem_lineCells hc
      have ht := (List.of_mem_zip hzip).2
      exact ⟨ne_of_mem_of_not_mem ht hnil, hblank t ht⟩
    have hpad : padded width t ∈ lineCells widths texts := by
      rw [lineCells, ← List.map_uncurry_zip_eq_zipWith]
      exact List.mem_map_of_mem hmem
    rw [hsame] at hpad
    have hpos : 0 < width.toNat - t.length := hpads _ hpad
    omega
  · rintro ⟨hnil, hfits⟩
    have hpads : ∀ c ∈ lineCells widths texts, 0 < c.1 ∧ c.2 ≠ [] ∧ space ∉ c.2 := by
      intro c hc
      obtain ⟨width, t, hzip, rfl⟩ := mem_lineCells hc
      have hfit := (List.forall₂_iff_zip.mp hfits).2 hzip
      have ht := (List.of_mem_zip hzip).2
      refine ⟨?_, ne_of_mem_of_not_mem ht hnil, hblank t ht⟩
      change 0 < width.toNat - t.length
      omega
    refine ⟨length_lineCells hfits, ⟨_, lineCells_map_snd hlength, fun c hc => (hpads c hc).1, rfl⟩,
      ?_⟩
    rw [words_cells hpads, lineCells_map_snd hlength]

end Lines

section Table

variable {names : List String} {data : List (List Int64)}

theorem names_fit (names : List String) (data : List (List Int64)) :
    List.Forall₂ (fun width t => ((List.length t : ℕ) : ℤ) < width)
      (names.map (columnWidth data)) (names.map units) := by
  rw [List.forall₂_map_left_iff, List.forall₂_map_right_iff, List.forall₂_same]
  intro name hname
  unfold columnWidth
  omega

theorem columnWidth_pos (data : List (List Int64)) (name : String) : 0 < columnWidth data name := by
  unfold columnWidth
  omega

theorem getElem?_mod {columns : List ℤ} {index : ℕ} {width : ℤ}
    (h : columns[index]? = some width) : columns[index % columns.length]? = some width := by
  rw [Nat.mod_eq_of_lt (List.getElem?_eq_some_iff.mp h).1, h]

theorem nameCell_eq {columns : List ℤ} {index : ℕ} {width : ℤ} {name : String}
    (hwidth : columns[index]? = some width) (hfits : ((units name).length : ℤ) < width) :
    nameCell columns index (some name) = .ok (justify width (units name)) := by
  have hend : min ((units name).length : ℤ) (width - 1) = (units name).length :=
    min_eq_left (by omega)
  unfold nameCell
  rw [getElem?_mod hwidth]
  dsimp only
  rw [hend, if_neg (by omega), Int.toNat_natCast, List.take_length]

theorem valueCell_eq {columns : List ℤ} {index : ℕ} {width : ℤ}
    (hwidth : columns[index]? = some width) (hpos : 0 < width) (r : Int64) :
    valueCell columns index r = .ok (justify width (formatLong r)) := by
  rw [valueCell, getElem?_mod hwidth]
  dsimp only
  rw [if_neg hpos.ne']

theorem tableOptimal_eq (hrows : ∀ row ∈ data, row.length = names.length) :
    tableOptimal ⟨names.map some, data⟩ = (unlines newline
      (cells space (lineCells (names.map (columnWidth data)) (names.map units)) ::
        data.map fun row => cells space
          (lineCells (names.map (columnWidth data)) (row.map formatLong))), .ok ()) := by
  have hheader : printLine (nameCell (names.map (columnWidth data))) (names.map some) =
      (cells space (lineCells (names.map (columnWidth data)) ((names.map some).map appended)) ++
        [newline], .ok ()) := by
    apply printLine_eq
    rw [List.forall₂_map_left_iff, List.forall₂_map_right_iff, List.forall₂_same]
    intro name hname
    refine ⟨(columnWidth_pos data name).le, fun index hindex => nameCell_eq hindex ?_⟩
    unfold columnWidth
    omega
  have hvalues : printRows (valueCell (names.map (columnWidth data))) data =
      (unlines newline (data.map fun row => cells space
        (lineCells (names.map (columnWidth data)) (row.map formatLong))), .ok ()) := by
    apply printRows_eq
    intro row hrow
    refine List.forall₂_iff_zip.mpr ⟨by rw [List.length_map, hrows row hrow], ?_⟩
    intro width r hmem
    obtain ⟨name, -, rfl⟩ := List.mem_map.mp (List.of_mem_zip hmem).1
    have hpos := columnWidth_pos data name
    exact ⟨hpos.le, fun index hindex => valueCell_eq hindex hpos r⟩
  have hnames : (names.map some).map appended = names.map units := List.map_map
  rw [tableOptimal, getOptimalColumnWidths_eq]
  dsimp only
  rw [table, if_pos rfl, hheader, hvalues, hnames]
  rfl

theorem space_notMem_formatLong (value : Int64) : space ∉ formatLong value :=
  notMem_formatLong (by decide) (by decide) value

theorem newline_notMem_formatLong (value : Int64) : newline ∉ formatLong value :=
  notMem_formatLong (by decide) (by decide) value

theorem units_eq_nil {name : String} (h : units name = []) : name = "" := by
  rw [units, List.flatMap_eq_nil_iff] at h
  rw [← String.toList_eq_nil_iff]
  apply List.eq_nil_iff_forall_not_mem.mpr
  intro c hc
  have hunits := h c hc
  unfold charUnits at hunits
  split_ifs at hunits

theorem alignedTable_lines (hnames : ∀ name ∈ names, Unbroken name)
    (hrows : ∀ row ∈ data, row.length = names.length) :
    AlignedTable ⟨names.map some, data⟩ ↔
      AlignedLine (names.map (columnWidth data)) (names.map units)
        (cells space (lineCells (names.map (columnWidth data)) (names.map units))) ∧
      ∀ row ∈ data, AlignedLine (names.map (columnWidth data)) (row.map formatLong)
        (cells space (lineCells (names.map (columnWidth data)) (row.map formatLong))) := by
  have happended : (names.map some).map appended = names.map units := List.map_map
  have hlines : ∀ line ∈ cells space
        (lineCells (names.map (columnWidth data)) (names.map units)) ::
      data.map fun row => cells space
        (lineCells (names.map (columnWidth data)) (row.map formatLong)), newline ∉ line := by
    refine List.forall_mem_cons.mpr ⟨?_, List.forall_mem_map.mpr fun row hrow => ?_⟩
    · apply newline_notMem_cells
      exact List.forall_mem_map.mpr fun name hname => (hnames name hname).2
    · apply newline_notMem_cells
      exact List.forall_mem_map.mpr fun value hvalue => newline_notMem_formatLong value
  unfold AlignedTable
  rw [getOptimalColumnWidths_eq, tableOptimal_eq hrows, happended]
  constructor
  · rintro ⟨widths, out, header, rows, hwidths, hout, hprinted, hheader, hvalues⟩
    cases hwidths
    cases hout
    rw [lines_unlines hlines] at hprinted
    obtain ⟨rfl, rfl⟩ := List.cons.inj (Option.some.inj hprinted)
    rw [List.forall₂_map_right_iff, List.forall₂_same] at hvalues
    exact ⟨hheader, hvalues⟩
  · rintro ⟨hheader, hvalues⟩
    refine ⟨_, _, _, _, rfl, rfl, lines_unlines hlines, hheader, ?_⟩
    rw [List.forall₂_map_right_iff, List.forall₂_same]
    exact hvalues

theorem alignedHeader_iff (hnames : ∀ name ∈ names, Unbroken name) (data : List (List Int64)) :
    AlignedLine (names.map (columnWidth data)) (names.map units)
        (cells space (lineCells (names.map (columnWidth data)) (names.map units))) ↔
      ∀ name ∈ names, name ≠ "" := by
  have hlength : (names.map (columnWidth data)).length = (names.map units).length := by
    rw [List.length_map, List.length_map]
  rw [alignedLine_iff hlength (List.forall_mem_map.mpr fun name hname => (hnames name hname).1)]
  constructor
  · rintro ⟨hnil, -⟩ name hname rfl
    have hmem : units "" ∈ names.map units := List.mem_map_of_mem hname
    exact hnil hmem
  · intro h
    refine ⟨fun hmem => ?_, names_fit names data⟩
    obtain ⟨name, hname, hunits⟩ := List.mem_map.mp hmem
    exact h name hname (units_eq_nil hunits)

theorem alignedRow_iff (hrows : ∀ row ∈ data, row.length = names.length) {row : List Int64}
    (hrow : row ∈ data) :
    AlignedLine (names.map (columnWidth data)) (row.map formatLong)
        (cells space (lineCells (names.map (columnWidth data)) (row.map formatLong))) ↔
      ∀ cell ∈ names.zip row, cell.2 < 0 →
        (formatLong cell.2).length ≤ (units cell.1).length ∨
          ∃ row' ∈ data, ∃ value ∈ row', 0 ≤ value ∧
            (formatLong cell.2).length ≤ (formatLong value).length := by
  have hlength : names.length = row.length := (hrows row hrow).symm
  have hnil : [] ∉ row.map formatLong := by
    intro hmem
    obtain ⟨value, -, hvalue⟩ := List.mem_map.mp hmem
    exact formatLong_ne_nil value hvalue
  rw [alignedLine_iff (by rw [List.length_map, List.length_map, hlength])
      (List.forall_mem_map.mpr fun value hvalue => space_notMem_formatLong value),
    and_iff_right hnil, List.forall₂_map_left_iff, List.forall₂_map_right_iff,
    List.forall₂_iff_zip, and_iff_right hlength]
  constructor
  · intro h cell hcell
    exact (length_lt_columnWidth_iff hrow (List.of_mem_zip hcell).2 cell.1).mp (h hcell)
  · intro h name value hmem
    have hfits := h (name, value) hmem
    exact (length_lt_columnWidth_iff hrow (List.of_mem_zip hmem).2 name).mpr hfits

/-- The table is aligned exactly if no name is empty and the negative values fit. -/
theorem alignedTable_iff (names : List String) (data : List (List Int64))
    (hnames : ∀ name ∈ names, Unbroken name) (hrows : ∀ row ∈ data, row.length = names.length) :
    AlignedTable ⟨names.map some, data⟩ ↔
      (∀ name ∈ names, name ≠ "") ∧ NegativesFit names data := by
  rw [alignedTable_lines hnames hrows, alignedHeader_iff hnames]
  apply and_congr_right
  intro hname
  exact forall₂_congr fun row hrow => alignedRow_iff hrows hrow

/-- An error code under a name that is as long, and one next to a longer value. -/
theorem alignedTable_errors :
    AlignedTable ⟨["SYS", "L1"].map some, [[1, 1000], [-14, -25]]⟩ :=
  (alignedTable_iff ["SYS", "L1"] [[1, 1000], [-14, -25]] (by decide) (by decide)).mpr
    ⟨by decide, by unfold NegativesFit; decide⟩

/-- A negative value with more digits than its name has letters fills its column. -/
theorem not_alignedTable_negative : ¬ AlignedTable ⟨["A"].map some, [[-12345]]⟩ := by
  have hrows : ∀ row ∈ [[(-12345 : Int64)]], row.length = ["A"].length := by decide
  intro h
  have hline := ((alignedTable_lines (by decide) hrows).mp h).2 _ List.mem_cons_self
  have hshort := (alignedRow_iff hrows List.mem_cons_self).mp hline
  exact absurd hshort (by decide)

end Table

end UbenchAgent
