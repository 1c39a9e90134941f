import UbenchAgent.Merger
import UbenchAgent.Lib.Text

/-!
# Printing results

`BenchmarkResultsPrinter` prints results as CSV and as a table.  A stream gets `char`s, which
are UTF-16 code units.
-/

namespace UbenchAgent

open Text

def charUnits (c : Char) : List UInt16 :=
  if c.val < 0x10000 then [c.val.toUInt16]
  else
    -- A pair of surrogates.
    [(0xD800 : UInt16) + ((c.val - 0x10000) >>> 10).toUInt16,
      (0xDC00 : UInt16) + ((c.val - 0x10000) &&& 0x3FF).toUInt16]

def units (s : String) : List UInt16 := s.toList.flatMap charUnits

/-- What `append` puts on a stream for a string. -/
def appended (s : JavaString) : List UInt16 := units (s.getD "null")

def newline : UInt16 := 10

def space : UInt16 := 32

def minus : UInt16 := 45

def formatLong (value : Int64) : List UInt16 := units (toString value.toInt)

/-- The digits of the root locale. -/
def IsDigit (c : UInt16) : Prop := 48 ≤ c ∧ c ≤ 57

instance : DecidablePred IsDigit := fun c => inferInstanceAs (Decidable (48 ≤ c ∧ c ≤ 57))

def digitUnits (n : ℕ) : List UInt16 := (Nat.toDigits 10 n).map fun c => c.val.toUInt16

section Numbers

theorem toNat_le_of_isDigit {c : Char} (h : c.isDigit = true) : 48 ≤ c.toNat ∧ c.toNat ≤ 57 :=
  Char.isDigit_iff_toNat.mp h

theorem charUnits_ascii {c : Char} (h : c.toNat < 128) :
    charUnits c = [c.val.toUInt16] ∧ c.val.toUInt16.toNat = c.toNat := by
  have hval : c.val.toNat < 128 := h
  refine ⟨?_, ?_⟩
  · rw [charUnits, if_pos]
    rw [UInt32.lt_iff_toNat_lt]
    exact hval.trans (by decide)
  · rw [UInt32.toNat_toUInt16]
    exact Nat.mod_eq_of_lt (hval.trans (by decide))

theorem flatMap_charUnits {cs : List Char} (h : ∀ c ∈ cs, c.toNat < 128) :
    cs.flatMap charUnits = cs.map fun c => c.val.toUInt16 := by
  induction cs with
  | nil => rfl
  | cons c cs ih =>
    obtain ⟨hc, hcs⟩ := List.forall_mem_cons.mp h
    rw [List.flatMap_cons, (charUnits_ascii hc).1, ih hcs, List.map_cons, List.singleton_append]

theorem toDigits_ascii {n : ℕ} : ∀ c ∈ Nat.toDigits 10 n, 48 ≤ c.toNat ∧ c.toNat ≤ 57 :=
  fun c hc => toNat_le_of_isDigit (Nat.isDigit_of_mem_toDigits (by omega) le_rfl hc)

theorem units_repr (n : ℕ) : units n.repr = digitUnits n := by
  rw [units, Nat.toList_repr, digitUnits, flatMap_charUnits]
  intro c hc
  have hdigit := toDigits_ascii c hc
  omega

theorem units_append (s t : String) : units (s ++ t) = units s ++ units t := by
  rw [units, String.toList_append, List.flatMap_append]
  rfl

theorem formatLong_eq (value : Int64) :
    formatLong value =
      if 0 ≤ value.toInt then digitUnits value.toInt.toNat
      else minus :: digitUnits (-value.toInt).toNat := by
  rw [formatLong, Int.toString_eq_repr, Int.repr_eq_if]
  split_ifs with hsign
  · exact units_repr _
  · rw [units_append, units_repr]
    rfl

theorem isDigit_of_mem_digitUnits {n : ℕ} {u : UInt16} (h : u ∈ digitUnits n) : IsDigit u := by
  obtain ⟨c, hc, rfl⟩ := List.mem_map.mp h
  have hdigit := toDigits_ascii c hc
  have hunit := (charUnits_ascii (by omega : c.toNat < 128)).2
  constructor
  · rw [UInt16.le_iff_toNat_le, hunit]
    exact hdigit.1
  · rw [UInt16.le_iff_toNat_le, hunit]
    exact hdigit.2

theorem mem_formatLong {value : Int64} {u : UInt16} (h : u ∈ formatLong value) :
    u = minus ∨ IsDigit u := by
  rw [formatLong_eq] at h
  split_ifs at h with hsign
  · exact .inr (isDigit_of_mem_digitUnits h)
  · rcases List.mem_cons.mp h with hminus | hdigit
    · exact .inl hminus
    · exact .inr (isDigit_of_mem_digitUnits hdigit)

theorem formatLong_ne_nil (value : Int64) : formatLong value ≠ [] := by
  rw [formatLong_eq]
  split_ifs with hsign
  · exact List.map_eq_nil_iff.not.mpr Nat.toDigits_ne_nil
  · exact List.cons_ne_nil _ _

theorem notMem_formatLong {u : UInt16} (hminus : u ≠ minus) (hdigit : ¬ IsDigit u)
    (value : Int64) : u ∉ formatLong value :=
  fun h => (mem_formatLong h).elim hminus hdigit

end Numbers

/-- The fields of a line, with the separator in front of each field with `i > 0`. -/
def csvLine (separator : List UInt16) (fields : List (List UInt16)) : List UInt16 :=
  (fields.zipIdx.flatMap fun (field, i) => if i > 0 then separator ++ field else field) ++ [newline]

/-- `toCsv`: what is appended to the stream.  The separator is given by its `char`s. -/
def toCsv (results : BenchmarkResults) (separator : List UInt16) (printHeader : Bool) :
    List UInt16 :=
  (if printHeader then csvLine separator (results.eventNames.map appended) else []) ++
    results.data.flatMap fun row => csvLine separator (row.map formatLong)

inductive PrinterException
  | nullPointer
  | arithmetic
  | stringIndexOutOfBounds
  | missingFormatWidth
  deriving DecidableEq, Repr

/-- What was appended to the stream, and whether something was thrown then. -/
abbrev Printed := List UInt16 × Except PrinterException Unit

def Printed.andThen (before after : Printed) : Printed :=
  match before with
  | (out, .ok ()) => (out ++ after.1, after.2)
  | (out, .error e) => (out, .error e)

/-- `String.format` of a text with a width: a negative width puts the blanks behind it. -/
def justify (width : ℤ) (text : List UInt16) : List UInt16 :=
  let blanks := List.replicate (width.natAbs - text.length) space
  if 0 ≤ width then blanks ++ text else text ++ blanks

def nameCell (columnWidths : List ℤ) (index : ℕ) (name : JavaString) :
    Except PrinterException (List UInt16) :=
  match columnWidths[index % columnWidths.length]?, name with
  -- The remainder by zero.
  | none, _ => .error .arithmetic
  | some _, none => .error .nullPointer
  | some width, some name =>
    let endIndex := min ((units name).length : ℤ) (width - 1)
    if endIndex < 0 then .error .stringIndexOutOfBounds
    else .ok (justify width ((units name).take endIndex.toNat))

def valueCell (columnWidths : List ℤ) (index : ℕ) (r : Int64) :
    Except PrinterException (List UInt16) :=
  match columnWidths[index % columnWidths.length]? with
  | none => .error .arithmetic
  -- The format is "%0d".
  | some width =>
    if width = 0 then .error .missingFormatWidth else .ok (justify width (formatLong r))

section Loops

variable {γ : Type*}

def printCells (cell : ℕ → γ → Except PrinterException (List UInt16)) : ℕ → List γ → Printed
  | _, [] => ([], .ok ())
  | index, item :: items =>
    match cell index item with
    | .ok text => Printed.andThen (text, .ok ()) (printCells cell (index + 1) items)
    | .error e => ([], .error e)

def printLine (cell : ℕ → γ → Except PrinterException (List UInt16)) (items : List γ) : Printed :=
  (printCells cell 0 items).andThen ([newline], .ok ())

def printRows (cell : ℕ → γ → Except PrinterException (List UInt16)) : List (List γ) → Printed
  | [] => ([], .ok ())
  | row :: rows => (printLine cell row).andThen (printRows cell rows)

end Loops

/-- `table` with given widths, which are `int`s far from the bounds. -/
def table (results : BenchmarkResults) (columnWidths : List ℤ) (printHeader : Bool) : Printed :=
  let header : Printed :=
    if printHeader then printLine (nameCell columnWidths) results.eventNames else ([], .ok ())
  header.andThen (printRows (valueCell columnWidths) results.data)

def maxValue (data : List (List Int64)) : Int64 :=
  data.foldl (fun maxValue row =>
    row.foldl (fun maxValue r => if r > maxValue then r else maxValue) maxValue) 0

def getOptimalColumnWidths (results : BenchmarkResults) : Except PrinterException (List ℤ) :=
  let minWidth := (formatLong (maxValue results.data)).length
  results.eventNames.mapM fun name =>
    match name with
    | none => .error .nullPointer
    | some name => .ok (max ((units name).length : ℤ) minWidth + 1)

def tableOptimal (results : BenchmarkResults) : Printed :=
  match getOptimalColumnWidths results with
  | .error e => ([], .error e)
  | .ok columnWidths => table results columnWidths true

end UbenchAgent
