import UbenchAgent.Printer

/-!
# Reading CSV output

The output of `toCsv` is split at newlines and then at the separator, and the fields of the rows
are read as numbers.
-/

namespace UbenchAgent

open Text

def parseDigits (text : List UInt16) : Option ℕ :=
  if text ≠ [] ∧ text.all (fun c => decide (IsDigit c)) then
    some (text.foldl (fun n c => 10 * n + (c.toNat - 48)) 0)
  else none

def parseLong (text : List UInt16) : Option Int64 :=
  let number : Option ℤ :=
    if text.head? = some minus then (parseDigits text.tail).map fun n : ℕ => -(n : ℤ)
    else (parseDigits text).map fun n : ℕ => (n : ℤ)
  match number with
  | none => none
  | some n =>
    if Int64.minValue.toInt ≤ n ∧ n ≤ Int64.maxValue.toInt then some (Int64.ofInt n) else none

/-- The names in the first line, and the numbers in the others. -/
def decodeCsv (separator : UInt16) (text : List UInt16) :
    Option (List (List UInt16) × List (List Int64)) :=
  match (lines newline text).map (List.map (List.splitOn separator)) with
  | none => none
  | some [] => none
  | some (header :: rows) => (rows.mapM (List.mapM parseLong)).map fun data => (header, data)

section Numbers

theorem parseDigits_digitUnits (n : ℕ) : parseDigits (digitUnits n) = some n := by
  have hne : digitUnits n ≠ [] := List.map_eq_nil_iff.not.mpr Nat.toDigits_ne_nil
  have hvalue : (digitUnits n).foldl (fun n c => 10 * n + (c.toNat - 48)) 0 = n := by
    rw [digitUnits, List.foldl_map]
    calc (Nat.toDigits 10 n).foldl (fun n c => 10 * n + (c.val.toUInt16.toNat - 48)) 0
        = (Nat.toDigits 10 n).foldl (fun n c => 10 * n + (c.toNat - '0'.toNat)) 0 := by
          apply List.foldl_ext
          intro n c hc
          have hdigit := toDigits_ascii c hc
          rw [(charUnits_ascii (by omega : c.toNat < 128)).2]
          rfl
      _ = n := Nat.ofDigitChars_ten_toDigits
  have hall : (digitUnits n).all (fun c => decide (IsDigit c)) = true :=
    List.all_eq_true.mpr fun c hc => decide_eq_true (isDigit_of_mem_digitUnits hc)
  rw [parseDigits, if_pos ⟨hne, hall⟩, hvalue]

theorem head?_digitUnits_ne (n : ℕ) : (digitUnits n).head? ≠ some minus := by
  intro hhead
  exact absurd (isDigit_of_mem_digitUnits (List.mem_of_head? hhead)) (by decide)

theorem parseLong_formatLong (value : Int64) : parseLong (formatLong value) = some value := by
  have hrange : Int64.minValue.toInt ≤ value.toInt ∧ value.toInt ≤ Int64.maxValue.toInt :=
    ⟨value.minValue_le_toInt, value.toInt_le⟩
  have hnumber : (if (formatLong value).head? = some minus then
      (parseDigits (formatLong value).tail).map fun n : ℕ => -(n : ℤ)
      else (parseDigits (formatLong value)).map fun n : ℕ => (n : ℤ)) = some value.toInt := by
    rw [formatLong_eq]
    split_ifs with hsign hhead hhead
    · exact absurd hhead (head?_digitUnits_ne _)
    · rw [parseDigits_digitUnits, Option.map_some, Int.toNat_of_nonneg hsign]
    · rw [List.tail_cons, parseDigits_digitUnits, Option.map_some, Int.toNat_of_nonneg (by omega),
        Int.neg_neg]
    · exact absurd rfl hhead
  unfold parseLong
  rw [hnumber]
  dsimp only
  rw [if_pos hrange, Int64.ofInt_toInt]

theorem mapM_parseLong (row : List Int64) : (row.map formatLong).mapM parseLong = some row := by
  induction row with
  | nil => rfl
  | cons value row ih =>
    rw [List.map_cons, List.mapM_cons, parseLong_formatLong, ih]
    rfl

theorem mapM_rows (data : List (List Int64)) :
    (data.map (List.map formatLong)).mapM (List.mapM parseLong) = some data := by
  induction data with
  | nil => rfl
  | cons row data ih =>
    rw [List.map_cons, List.mapM_cons, mapM_parseLong, ih]
    rfl

end Numbers

section Lines

variable {separator : UInt16} {fields : List (List UInt16)}

theorem intercalate_cons (separator field : List UInt16) (fields : List (List UInt16)) :
    separator.intercalate (field :: fields) = field ++ fields.flatMap (separator ++ ·) := by
  induction fields generalizing field with
  | nil => rw [List.intercalate_singleton, List.flatMap_nil, List.append_nil]
  | cons next fields ih =>
    rw [List.intercalate_cons_cons, ih, List.flatMap_cons, List.append_assoc, List.append_assoc]

theorem csvFields_later (separator : List UInt16) (fields : List (List UInt16)) {k : ℕ}
    (hk : 0 < k) :
    ((fields.zipIdx k).flatMap fun (field, i) => if i > 0 then separator ++ field else field) =
      fields.flatMap (separator ++ ·) := by
  induction fields generalizing k with
  | nil => rfl
  | cons field fields ih =>
    rw [List.zipIdx_cons, List.flatMap_cons, List.flatMap_cons, ih (Nat.succ_pos k)]
    dsimp only
    rw [if_pos hk]

theorem csvLine_eq (separator : List UInt16) (fields : List (List UInt16)) :
    csvLine separator fields = separator.intercalate fields ++ [newline] := by
  cases fields with
  | nil => rfl
  | cons field fields =>
    rw [csvLine, List.zipIdx_cons, List.flatMap_cons, csvFields_later separator fields Nat.one_pos,
      intercalate_cons]
    rfl

theorem newline_notMem_intercalate (hseparator : separator ≠ newline)
    (h : ∀ field ∈ fields, newline ∉ field) : newline ∉ [separator].intercalate fields := by
  cases fields with
  | nil => exact List.not_mem_nil
  | cons field fields =>
    obtain ⟨hfield, hfields⟩ := List.forall_mem_cons.mp h
    rw [intercalate_cons, List.mem_append, List.mem_flatMap]
    rintro (hmem | ⟨next, hnext, hmem⟩)
    · exact hfield hmem
    · rcases List.mem_cons.mp hmem with hsame | hmem
      · exact hseparator hsame.symm
      · exact hfields next hnext hmem

end Lines

section Output

variable {separator : UInt16} {names : List String}

theorem toCsv_eq (separator : UInt16) (names : List String) (data : List (List Int64)) :
    toCsv ⟨names.map some, data⟩ [separator] true =
      unlines newline ((names.map units :: data.map (List.map formatLong)).map
        [separator].intercalate) := by
  have hnames : (names.map some).map appended = names.map units := List.map_map
  unfold toCsv unlines
  rw [if_pos rfl, hnames, csvLine_eq, List.map_cons, List.flatMap_cons, List.map_map,
    List.flatMap_map]
  congr 1
  apply List.flatMap_congr
  intro row hrow
  exact csvLine_eq [separator] (row.map formatLong)

theorem fields_clean (data : List (List Int64)) (hminus : separator ≠ minus) (hdigit : ¬ IsDigit separator)
    (hnames : ∀ name ∈ names, separator ∉ units name ∧ newline ∉ units name) :
    ∀ fields ∈ names.map units :: data.map (List.map formatLong), ∀ field ∈ fields,
      separator ∉ field ∧ newline ∉ field := by
  refine List.forall_mem_cons.mpr ⟨List.forall_mem_map.mpr hnames, ?_⟩
  refine List.forall_mem_map.mpr fun row hrow => List.forall_mem_map.mpr fun value hvalue => ?_
  exact ⟨notMem_formatLong hminus hdigit value, notMem_formatLong (by decide) (by decide) value⟩

/-- The output of `toCsv` can be decoded. -/
theorem decodeCsv_toCsv (separator : UInt16) (hminus : separator ≠ minus)
    (hdigit : ¬ IsDigit separator) (hnewline : separator ≠ newline) (names : List String)
    (data : List (List Int64)) (hne : names ≠ [])
    (hnames : ∀ name ∈ names, separator ∉ units name ∧ newline ∉ units name)
    (hrows : ∀ row ∈ data, row.length = names.length) :
    decodeCsv separator (toCsv ⟨names.map some, data⟩ [separator] true) =
      some (names.map units, data) := by
  have hclean := fields_clean data hminus hdigit hnames
  have hlines : ∀ line ∈ (names.map units :: data.map (List.map formatLong)).map
      [separator].intercalate, newline ∉ line := by
    refine List.forall_mem_map.mpr fun fields hfields => ?_
    exact newline_notMem_intercalate hnewline fun field hfield =>
      (hclean fields hfields field hfield).2
  have hsplit : ∀ fields ∈ names.map units :: data.map (List.map formatLong),
      ([separator].intercalate fields).splitOn separator = fields := by
    intro fields hfields
    refine List.splitOn_intercalate separator
      (fun field hfield => (hclean fields hfields field hfield).1) ?_
    -- A line without fields would be read as one with an empty field.
    rcases List.mem_cons.mp hfields with rfl | hvalues
    · exact List.map_eq_nil_iff.not.mpr hne
    · obtain ⟨row, hrow, rfl⟩ := List.mem_map.mp hvalues
      rw [Ne, List.map_eq_nil_iff, ← List.length_eq_zero_iff, hrows row hrow,
        List.length_eq_zero_iff]
      exact hne
  have hfields : ((names.map units :: data.map (List.map formatLong)).map
      [separator].intercalate).map (List.splitOn separator) =
      names.map units :: data.map (List.map formatLong) := by
    rw [List.map_map]
    calc _ = (names.map units :: data.map (List.map formatLong)).map id :=
          List.map_congr_left hsplit
      _ = _ := List.map_id _
  rw [decodeCsv, toCsv_eq, lines_unlines hlines, Option.map_some, hfields]
  dsimp only
  rw [mapM_rows]
  rfl

/-- An empty name, the least and the largest value, and a semicolon. -/
theorem decodeCsv_toCsv_extremes :
    decodeCsv 59 (toCsv ⟨["A", ""].map some, [[-9223372036854775808, 9223372036854775807], [0, -1]]⟩
        [59] true) =
      some (["A", ""].map units, [[-9223372036854775808, 9223372036854775807], [0, -1]]) :=
  decodeCsv_toCsv 59 (by decide) (by decide) (by decide) ["A", ""]
    [[-9223372036854775808, 9223372036854775807], [0, -1]] (by decide) (by decide) (by decide)

end Output

end UbenchAgent
