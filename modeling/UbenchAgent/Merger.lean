import UbenchAgent.Measure
import UbenchAgent.Lib.Columns

/-!
# Merging results

`BenchmarkResultsMerger` grows a table of results by columns.  `addColumns` puts a block of
columns to the right of the table, and `addColumn` a single one.
-/

namespace UbenchAgent

open Columns

/-- A reference to a `String`, which may be `null`. -/
abbrev JavaString := Option String

def javaConcat (a b : JavaString) : JavaString := some (a.getD "null" ++ b.getD "null")

/-- What a call on the merger throws. -/
inductive JavaException
  | illegalArgument (message : String)
  | indexOutOfBounds
  deriving DecidableEq, Repr

def copyOf (original : List Int64) (newLength : ℕ) : List Int64 :=
  (original ++ List.replicate newLength 0).take newLength

/-- `System.arraycopy` of a whole array; `none` is an index out of bounds. -/
def arraycopy (src dest : List Int64) (destPos : ℕ) : Option (List Int64) :=
  if destPos + src.length ≤ dest.length then
    some (dest.take destPos ++ src ++ dest.drop (destPos + src.length))
  else none

structure BenchmarkResultsMerger where
  events : List JavaString
  data : List (List Int64)
  deriving DecidableEq, Repr

/-- What a merger is given to add: results of their own, or the merger itself. -/
inductive MergerSource
  | columns (results : BenchmarkResults)
  | merger
  deriving DecidableEq, Repr

namespace BenchmarkResultsMerger

def new : BenchmarkResultsMerger := ⟨[], []⟩

/-- `getEventNames`.  `toArray` fills the array of length 1 it gets, which holds `null`. -/
def getEventNames (m : BenchmarkResultsMerger) : List JavaString :=
  if m.events.length < 1 then [none] else m.events

end BenchmarkResultsMerger

def MergerSource.getEventNames (m : BenchmarkResultsMerger) : MergerSource → List JavaString
  | .columns results => results.eventNames
  | .merger => m.getEventNames

/-- `getData` of what the merger `m` is given.  On the merger it is a view, which shows its
rows as they are when they are read. -/
def MergerSource.getData (m : BenchmarkResultsMerger) : MergerSource → List (List Int64)
  | .columns results => results.data
  | .merger => m.data

def rowLengthsDiffer (sizeSoFar newRowSize : ℕ) : String :=
  s!"Row lengths differ (wanted {sizeSoFar}, but got {newRowSize})."

def checkSameRowSize (sizeSoFar newRowSize : ℕ) : Except JavaException Unit :=
  if sizeSoFar ≠ newRowSize then .error (.illegalArgument (rowLengthsDiffer sizeSoFar newRowSize))
  else .ok ()

/-- A `for` loop over rows whose body changes the merger as its last action. -/
def forEachRow (body : BenchmarkResultsMerger → ℕ → Except JavaException BenchmarkResultsMerger) :
    List ℕ → BenchmarkResultsMerger → BenchmarkResultsMerger × Except JavaException Unit
  | [], m => (m, .ok ())
  | i :: is, m =>
    match body m i with
    | .error e => (m, .error e)
    | .ok m => forEachRow body is m

def addColumnsRow (results : MergerSource) (m : BenchmarkResultsMerger) (i : ℕ) :
    Except JavaException BenchmarkResultsMerger :=
  match (results.getData m)[i]?, m.data[i]? with
  | some newRow, some existingRow =>
    match arraycopy newRow (copyOf existingRow m.events.length) existingRow.length with
    | some updatedRow => .ok { m with data := m.data.set i updatedRow }
    | none => .error .indexOutOfBounds
  | _, _ => .error .indexOutOfBounds

def addColumnRow (values : List Int64) (columnIndex : ℕ) (m : BenchmarkResultsMerger) (i : ℕ) :
    Except JavaException BenchmarkResultsMerger :=
  match values[i]?, m.data[i]? with
  | some value, some row =>
    let updatedRow := (copyOf row (columnIndex + 1)).set columnIndex value
    .ok { m with data := m.data.set i updatedRow }
  | _, _ => .error .indexOutOfBounds

namespace BenchmarkResultsMerger

def addColumns (m : BenchmarkResultsMerger) (results : MergerSource) (pre : JavaString) :
    BenchmarkResultsMerger × Except JavaException Unit :=
  let check : Except JavaException Unit :=
    if m.events.length ≠ 0 then checkSameRowSize m.data.length (results.getData m).length
    else .ok ()
  match check with
  | .error e => (m, .error e)
  | .ok () =>
    let named := { m with
      events := m.events ++ (results.getEventNames m).map (javaConcat pre) }
    let sized :=
      -- The view of a merger without rows stays empty, so this loop does not chase it.
      if named.data.length = 0 then
        { named with data := List.replicate (results.getData named).length [] }
      else named
    forEachRow (addColumnsRow results) (List.range sized.data.length) sized

def addColumn (m : BenchmarkResultsMerger) (values : List Int64) (name : JavaString) :
    BenchmarkResultsMerger × Except JavaException Unit :=
  let check : Except JavaException Unit :=
    if m.events.length ≠ 0 then checkSameRowSize m.data.length values.length else .ok ()
  match check with
  | .error e => (m, .error e)
  | .ok () =>
    let named := { m with events := m.events ++ [name] }
    if named.data.length = 0 then
      ({ named with data := values.map fun value => [value] }, .ok ())
    else
      let columnIndex := named.events.length - 1
      forEachRow (addColumnRow values columnIndex) (List.range values.length) named

end BenchmarkResultsMerger

section Loops

variable {m : BenchmarkResultsMerger} {events : List JavaString} {old new : List (List Int64)}

theorem copyOf_grow (row : List Int64) (k : ℕ) :
    copyOf row (row.length + k) = row ++ List.replicate k 0 := by
  rw [copyOf, List.take_length_add_append, List.take_replicate, min_eq_left (by omega)]

theorem arraycopy_grow (row newRow : List Int64) :
    arraycopy newRow (copyOf row (row.length + newRow.length)) row.length =
      some (row ++ newRow) := by
  have hlength : (row ++ List.replicate newRow.length (0 : Int64)).length =
      row.length + newRow.length := by
    rw [List.length_append, List.length_replicate]
  rw [copyOf_grow, arraycopy, if_pos (by omega), List.take_left, List.drop_eq_nil_of_le (by omega),
    List.append_nil]

theorem addColumnsRow_eq {results : MergerSource} {i : ℕ} {newRow existingRow : List Int64}
    (hnew : (results.getData m)[i]? = some newRow) (hold : m.data[i]? = some existingRow)
    (hevents : m.events.length = existingRow.length + newRow.length) :
    addColumnsRow results m i =
      .ok { m with data := m.data.set i (existingRow ++ newRow) } := by
  rw [addColumnsRow, hnew, hold]
  dsimp only
  rw [hevents, arraycopy_grow]

theorem addColumnRow_eq {values : List Int64} {i : ℕ} {value : Int64} {row : List Int64}
    (hvalue : values[i]? = some value) (hrow : m.data[i]? = some row) :
    addColumnRow values row.length m i =
      .ok { m with data := m.data.set i (row ++ [value]) } := by
  rw [addColumnRow, hvalue, hrow]
  dsimp only
  rw [copyOf_grow, List.set_append_right _ _ le_rfl, Nat.sub_self]
  rfl

theorem set_take_append_drop (hlength : new.length = old.length) {i : ℕ} (hi : i < new.length) :
    (new.take i ++ old.drop i).set i new[i] = new.take (i + 1) ++ old.drop (i + 1) := by
  have htake : (new.take i).length = i := by rw [List.length_take]; omega
  rw [List.set_append_right _ _ (by omega), htake, Nat.sub_self,
    List.drop_eq_getElem_cons (by omega), List.set_cons_zero, List.take_succ_eq_append_getElem hi,
    List.append_assoc]
  rfl

theorem forEachRow_take
    {body : BenchmarkResultsMerger → ℕ → Except JavaException BenchmarkResultsMerger}
    (hlength : new.length = old.length) {k : ℕ} (hk : k ≤ new.length)
    (hbody : ∀ i (hi : i < k) data, data[i]? = old[i]? →
      body ⟨events, data⟩ i = .ok ⟨events, data.set i new[i]⟩) :
    forEachRow body (List.range old.length) ⟨events, old⟩ =
      forEachRow body (List.range' k (old.length - k)) ⟨events, new.take k ++ old.drop k⟩ := by
  induction k with
  | zero => rw [List.range_eq_range']; rfl
  | succ k ih =>
    have htake : (new.take k).length = k := by rw [List.length_take]; omega
    have hrow : (new.take k ++ old.drop k)[k]? = old[k]? := by
      rw [List.getElem?_append_right (by omega), htake, List.getElem?_drop, Nat.sub_self,
        Nat.add_zero]
    have hrest : old.length - k = old.length - (k + 1) + 1 := by omega
    rw [ih (by omega) fun i hi => hbody i (by omega), hrest, List.range'_succ, forEachRow,
      hbody k (Nat.lt_succ_self k) _ hrow]
    dsimp only
    rw [set_take_append_drop hlength hk]

theorem forEachRow_eq
    {body : BenchmarkResultsMerger → ℕ → Except JavaException BenchmarkResultsMerger}
    (hlength : new.length = old.length)
    (hbody : ∀ i (hi : i < new.length) data, data[i]? = old[i]? →
      body ⟨events, data⟩ i = .ok ⟨events, data.set i new[i]⟩) :
    forEachRow body (List.range old.length) ⟨events, old⟩ = (⟨events, new⟩, .ok ()) := by
  rw [forEachRow_take hlength le_rfl hbody, hlength, Nat.sub_self, List.drop_length,
    List.append_nil, List.take_of_length_le hlength.le]
  rfl

/-- The last loop of `addColumns` puts the new rows behind the old ones, also if it reads them
from the rows that it changes. -/
theorem addColumnsLoop_eq {results : MergerSource} {rows : List (List Int64)}
    (hlength : rows.length = old.length)
    (hview : ∀ i data, i < old.length → data[i]? = old[i]? →
      (results.getData ⟨events, data⟩)[i]? = rows[i]?)
    (hwidth : ∀ i (hi : i < old.length) (hi' : i < rows.length),
      events.length = old[i].length + rows[i].length) :
    forEachRow (addColumnsRow results) (List.range old.length) ⟨events, old⟩ =
      (⟨events, List.zipWith (· ++ ·) old rows⟩, .ok ()) := by
  have hzip : (List.zipWith (· ++ ·) old rows).length = old.length := by
    rw [List.length_zipWith, hlength, min_self]
  apply forEachRow_eq hzip
  intro i hi data hdata
  have hold : i < old.length := by omega
  rw [List.getElem_zipWith]
  apply addColumnsRow_eq
  · rw [hview i data hold hdata]
    exact List.getElem?_eq_getElem _
  · exact hdata.trans (List.getElem?_eq_getElem hold)
  · exact hwidth i hold (by omega)

theorem addColumnLoop_eq {values : List Int64} (hlength : values.length = old.length) {w : ℕ}
    (hwidth : ∀ row ∈ old, row.length = w) :
    forEachRow (addColumnRow values w) (List.range old.length) ⟨events, old⟩ =
      (⟨events, List.zipWith (· ++ ·) old (values.map fun value => [value])⟩, .ok ()) := by
  have hzip : (List.zipWith (· ++ ·) old (values.map fun value => [value])).length =
      old.length := by
    rw [List.length_zipWith, List.length_map, hlength, min_self]
  apply forEachRow_eq hzip
  intro i hi data hdata
  have hold : i < old.length := by omega
  rw [List.getElem_zipWith, List.getElem_map, ← hwidth _ (List.getElem_mem hold)]
  apply addColumnRow_eq
  · exact List.getElem?_eq_getElem (by omega)
  · exact hdata.trans (List.getElem?_eq_getElem hold)

end Loops

inductive MergerCall
  | addColumns (results : MergerSource) (pre : JavaString)
  | addColumn (values : List Int64) (name : JavaString)
  deriving DecidableEq, Repr

namespace MergerCall

def apply (m : BenchmarkResultsMerger) :
    MergerCall → BenchmarkResultsMerger × Except JavaException Unit
  | .addColumns results pre => m.addColumns results pre
  | .addColumn values name => m.addColumn values name

def block (m : BenchmarkResultsMerger) : MergerCall → Block JavaString Int64
  | .addColumns results pre => ⟨(results.getEventNames m).map (javaConcat pre), results.getData m⟩
  | .addColumn values name => ⟨[name], values.map fun value => [value]⟩

/-- Added results have a name, and as many values in each row as names.  A merger that is
added to itself has both anyway. -/
def WellFormed : MergerCall → Prop
  | .addColumns (.columns results) _ => results.eventNames ≠ [] ∧
      ∀ row ∈ results.data, row.length = results.eventNames.length
  | .addColumns .merger _ => True
  | .addColumn _ _ => True

end MergerCall

/-- The table is a rectangle, and without names it has no rows. -/
structure BenchmarkResultsMerger.Inv (m : BenchmarkResultsMerger) : Prop where
  width : ∀ row ∈ m.data, row.length = m.events.length
  unnamed : m.events = [] → m.data = []

def BenchmarkResultsMerger.table (m : BenchmarkResultsMerger) : Block JavaString Int64 :=
  ⟨m.events, m.data⟩

def BenchmarkResultsMerger.extended (m : BenchmarkResultsMerger) (b : Block JavaString Int64) :
    BenchmarkResultsMerger :=
  if m.events = [] then ⟨b.names, b.rows⟩
  else ⟨(m.table.beside b).names, (m.table.beside b).rows⟩

section Call

variable {m : BenchmarkResultsMerger}

theorem MergerSource.rectangular (results : MergerSource) (pre : JavaString) (hinv : m.Inv)
    (hc : (MergerCall.addColumns results pre).WellFormed) :
    results.getEventNames m ≠ [] ∧
      ∀ row ∈ results.getData m, row.length = (results.getEventNames m).length := by
  cases results with
  | columns results => exact hc
  | merger =>
    change m.getEventNames ≠ [] ∧ ∀ row ∈ m.data, row.length = m.getEventNames.length
    unfold BenchmarkResultsMerger.getEventNames
    split_ifs with hevents
    · rw [hinv.unnamed (List.eq_nil_of_length_eq_zero (by omega))]
      exact ⟨List.cons_ne_nil _ _, List.forall_mem_nil _⟩
    · refine ⟨?_, hinv.width⟩
      rintro hnil
      rw [hnil] at hevents
      exact hevents Nat.one_pos

theorem MergerCall.block_rectangular {c : MergerCall} (hinv : m.Inv) (hc : c.WellFormed) :
    (c.block m).names ≠ [] ∧ (c.block m).Rectangular := by
  cases c with
  | addColumns results pre =>
    obtain ⟨hnames, hwidth⟩ := results.rectangular pre hinv hc
    refine ⟨List.map_eq_nil_iff.not.mpr hnames, fun row hrow => ?_⟩
    rw [hwidth row hrow]
    exact (List.length_map _).symm
  | addColumn values name =>
    refine ⟨List.cons_ne_nil _ _, fun row hrow => ?_⟩
    obtain ⟨value, -, rfl⟩ := List.mem_map.mp hrow
    rfl

theorem getData_named (results : MergerSource) (names : List JavaString) :
    results.getData ⟨names, m.data⟩ = results.getData m := by
  cases results <;> rfl

theorem checkSameRowSize_eq {sizeSoFar newRowSize : ℕ} (h : sizeSoFar = newRowSize) :
    checkSameRowSize sizeSoFar newRowSize = .ok () := by
  rw [checkSameRowSize, if_neg (not_not.mpr h)]

theorem length_events_append (results : MergerSource) (pre : JavaString) :
    (m.events ++ (results.getEventNames m).map (javaConcat pre)).length =
      m.events.length + (results.getEventNames m).length := by
  rw [List.length_append, List.length_map]

/-- The first results: their rows follow as many empty ones. -/
theorem addColumns_eq_of_unnamed (hinv : m.Inv) {results : MergerSource} {pre : JavaString}
    (hc : (MergerCall.addColumns results pre).WellFormed) (hevents : m.events = []) :
    m.addColumns results pre =
      (m.extended ((MergerCall.addColumns results pre).block m), .ok ()) := by
  obtain ⟨-, hwidth⟩ := results.rectangular pre hinv hc
  have hdata := hinv.unnamed hevents
  unfold BenchmarkResultsMerger.addColumns BenchmarkResultsMerger.extended
  rw [if_neg (by rw [hevents]; exact fun h => h rfl), if_pos hevents]
  dsimp only
  rw [if_pos (by rw [hdata]; rfl), getData_named, List.length_replicate]
  have hloop : forEachRow (addColumnsRow results)
      (List.range (List.replicate (results.getData m).length ([] : List Int64)).length)
      ⟨m.events ++ (results.getEventNames m).map (javaConcat pre),
        List.replicate (results.getData m).length []⟩ =
      (⟨m.events ++ (results.getEventNames m).map (javaConcat pre),
        List.zipWith (· ++ ·) (List.replicate (results.getData m).length [])
          (results.getData m)⟩, .ok ()) := by
    apply addColumnsLoop_eq
    · rw [List.length_replicate]
    · intro i data hi hrow
      cases results with
      | columns results => rfl
      | merger =>
        rw [List.length_replicate, MergerSource.getData, hdata] at hi
        cases hi
    · intro i hi hi'
      rw [length_events_append, hevents, List.getElem_replicate,
        hwidth _ (List.getElem_mem hi')]
      rfl
  rw [List.length_replicate] at hloop
  rw [hloop, zipWith_nil_append, hevents]
  rfl

theorem resize_eq {results : MergerSource} (hrows : m.data.length = (results.getData m).length)
    (names : List JavaString) :
    (if m.data.length = 0 then
      (⟨names, List.replicate (results.getData ⟨names, m.data⟩).length []⟩ :
        BenchmarkResultsMerger)
      else ⟨names, m.data⟩) = ⟨names, m.data⟩ := by
  split_ifs with hzero
  · rw [getData_named, ← hrows, hzero, List.length_eq_zero_iff.mp hzero]
    rfl
  · rfl

/-- Later results: their rows follow those that are there. -/
theorem addColumns_eq_of_named (hinv : m.Inv) {results : MergerSource} {pre : JavaString}
    (hc : (MergerCall.addColumns results pre).WellFormed) (hevents : m.events ≠ [])
    (hrows : m.data.length = (results.getData m).length) :
    m.addColumns results pre =
      (m.extended ((MergerCall.addColumns results pre).block m), .ok ()) := by
  obtain ⟨-, hwidth⟩ := results.rectangular pre hinv hc
  unfold BenchmarkResultsMerger.addColumns BenchmarkResultsMerger.extended
  rw [if_pos (List.length_eq_zero_iff.not.mpr hevents), checkSameRowSize_eq hrows,
    if_neg hevents]
  dsimp only
  rw [resize_eq hrows]
  apply addColumnsLoop_eq hrows.symm
  · intro i data hi hrow
    cases results with
    | columns results => rfl
    | merger => exact hrow
  · intro i hi hi'
    rw [length_events_append, hinv.width _ (List.getElem_mem hi),
      hwidth _ (List.getElem_mem hi')]

theorem addColumns_eq (hinv : m.Inv) {results : MergerSource} {pre : JavaString}
    (hc : (MergerCall.addColumns results pre).WellFormed)
    (hrows : m.events ≠ [] → m.data.length = (results.getData m).length) :
    m.addColumns results pre =
      (m.extended ((MergerCall.addColumns results pre).block m), .ok ()) := by
  by_cases hevents : m.events = []
  · exact addColumns_eq_of_unnamed hinv hc hevents
  · exact addColumns_eq_of_named hinv hc hevents (hrows hevents)

theorem addColumn_eq (hinv : m.Inv) {values : List Int64} {name : JavaString}
    (hrows : m.events ≠ [] → m.data.length = values.length) :
    m.addColumn values name =
      (m.extended ((MergerCall.addColumn values name).block m), .ok ()) := by
  unfold BenchmarkResultsMerger.addColumn BenchmarkResultsMerger.extended
  by_cases hevents : m.events = []
  · have hdata := hinv.unnamed hevents
    rw [if_neg (by rw [hevents]; exact fun h => h rfl), if_pos hevents]
    dsimp only
    rw [if_pos (by rw [hdata]; rfl), hevents]
    rfl
  · have hrows := hrows hevents
    rw [if_pos (List.length_eq_zero_iff.not.mpr hevents), checkSameRowSize_eq hrows,
      if_neg hevents]
    dsimp only
    split_ifs with hzero
    · -- Named columns without rows: the new one has no values either.
      have hvalues : values = [] := List.length_eq_zero_iff.mp (hrows.symm.trans hzero)
      rw [hvalues, BenchmarkResultsMerger.table, Block.beside, List.length_eq_zero_iff.mp hzero]
      rfl
    · rw [List.length_append, List.length_singleton, Nat.add_sub_cancel, ← hrows]
      exact addColumnLoop_eq hrows.symm hinv.width

/-- A call throws exactly if the merger has columns of another height, and then changes
nothing.  Otherwise it adds its columns to the right. -/
theorem MergerCall.apply_eq {c : MergerCall} (hinv : m.Inv) (hc : c.WellFormed) :
    c.apply m =
      if m.events ≠ [] ∧ m.data.length ≠ (c.block m).rows.length then
        (m, .error (.illegalArgument (rowLengthsDiffer m.data.length (c.block m).rows.length)))
      else (m.extended (c.block m), .ok ()) := by
  split_ifs with hdiffer
  · obtain ⟨hevents, hrows⟩ := hdiffer
    cases c with
    | addColumns results pre =>
      change m.data.length ≠ (results.getData m).length at hrows
      change m.addColumns results pre = _
      unfold BenchmarkResultsMerger.addColumns
      rw [if_pos (List.length_eq_zero_iff.not.mpr hevents), checkSameRowSize, if_pos hrows]
      rfl
    | addColumn values name =>
      change m.data.length ≠ (values.map fun value => [value]).length at hrows
      rw [List.length_map] at hrows
      change m.addColumn values name = _
      unfold BenchmarkResultsMerger.addColumn
      rw [if_pos (List.length_eq_zero_iff.not.mpr hevents), checkSameRowSize, if_pos hrows,
        MergerCall.block, List.length_map]
  · have hrows : m.events ≠ [] → m.data.length = (c.block m).rows.length := by
      intro hevents
      by_contra hne
      exact hdiffer ⟨hevents, hne⟩
    cases c with
    | addColumns results pre => exact addColumns_eq hinv hc hrows
    | addColumn values name =>
      apply addColumn_eq hinv
      intro hevents
      rw [hrows hevents]
      exact List.length_map _

theorem BenchmarkResultsMerger.Inv.extended {b : Block JavaString Int64} (hinv : m.Inv)
    (hb : b.Rectangular) (hnames : b.names ≠ []) : (m.extended b).Inv := by
  unfold BenchmarkResultsMerger.extended
  split_ifs with hevents
  · exact ⟨hb, fun h => absurd h hnames⟩
  · refine ⟨Block.Rectangular.beside (a := m.table) hinv.width hb, fun h => ?_⟩
    exact absurd (List.append_eq_nil_iff.mp h).1 hevents

end Call

/-- A merger, and the columns that were added to it, in order. -/
structure Merging where
  merger : BenchmarkResultsMerger
  merged : List (Block JavaString Int64)

def Merging.call (s : Merging) (c : MergerCall) : Merging :=
  match c.apply s.merger with
  | (m, .ok ()) => ⟨m, s.merged ++ [c.block s.merger]⟩
  | (m, .error _) => ⟨m, s.merged⟩

def merging (calls : List MergerCall) : Merging := calls.foldl Merging.call ⟨.new, []⟩

structure Merging.Inv (s : Merging) : Prop where
  table : s.merger.Inv
  events_iff : s.merger.events = [] ↔ s.merged = []
  sideBySide : s.merged ≠ [] → SideBySide s.merged s.merger.table

theorem Merging.Inv.call {s : Merging} (h : s.Inv) {c : MergerCall} (hc : c.WellFormed) :
    (s.call c).Inv := by
  obtain ⟨hnames, hb⟩ := MergerCall.block_rectangular h.table hc
  have happly := MergerCall.apply_eq h.table hc
  unfold Merging.call
  split_ifs at happly with hdiffer
  · rw [happly]
    exact h
  · rw [happly]
    have hinv := h.table.extended hb hnames
    refine ⟨hinv, ?_, fun _ => ?_⟩
    · refine iff_of_false ?_ (List.append_ne_nil_of_right_ne_nil _ (List.cons_ne_nil _ _))
      dsimp only
      unfold BenchmarkResultsMerger.extended
      split_ifs with hevents
      · exact hnames
      · exact fun hnil => hevents (List.append_eq_nil_iff.mp hnil).1
    · dsimp only
      unfold BenchmarkResultsMerger.extended
      split_ifs with hevents
      · rw [h.events_iff.mp hevents]
        exact SideBySide.single _
      · have hrows : (c.block s.merger).rows.length = s.merger.data.length := by
          by_contra hne
          exact hdiffer ⟨hevents, Ne.symm hne⟩
        exact (h.sideBySide (mt h.events_iff.mpr hevents)).snoc hrows

theorem Merging.Inv.run {calls : List MergerCall} (hcalls : ∀ c ∈ calls, c.WellFormed) {s : Merging}
    (h : s.Inv) : (calls.foldl Merging.call s).Inv := by
  induction calls generalizing s with
  | nil => exact h
  | cons c calls ih =>
    obtain ⟨hc, hcalls⟩ := List.forall_mem_cons.mp hcalls
    exact ih hcalls (h.call hc)

/-- What merging is to do: the next call throws exactly if something was added and its row
count differs, and throwing leaves the merger as it is; and the names and rows of the merger
are those of the added columns, one after another. -/
structure Merging.Concatenates (s : Merging) : Prop where
  throws_iff : ∀ c : MergerCall, c.WellFormed →
    ((∃ message, c.apply s.merger = (s.merger, .error (.illegalArgument message))) ↔
      s.merged ≠ [] ∧ (c.block s.merger).rows.length ≠ s.merger.data.length)
  returns : ∀ c : MergerCall, c.WellFormed →
    ¬ (s.merged ≠ [] ∧ (c.block s.merger).rows.length ≠ s.merger.data.length) →
    (c.apply s.merger).2 = .ok ()
  names : s.merged ≠ [] → s.merger.getEventNames = s.merged.flatMap (·.names)
  height : ∀ b ∈ s.merged, b.rows.length = s.merger.data.length
  row : s.merged ≠ [] → ∀ i < s.merger.data.length,
    s.merger.data[i]? = some (s.merged.flatMap fun b => b.rows.getD i [])

/-- Merging is horizontal concatenation, after any calls. -/
theorem merging_concatenates (calls : List MergerCall) (hcalls : ∀ c ∈ calls, c.WellFormed) :
    (merging calls).Concatenates := by
  have hnew : Merging.Inv ⟨.new, []⟩ :=
    ⟨⟨List.forall_mem_nil _, fun _ => rfl⟩, iff_of_true rfl rfl, fun h => absurd rfl h⟩
  have h : (merging calls).Inv := hnew.run hcalls
  have hcond : ∀ c : MergerCall,
      ((merging calls).merged ≠ [] ∧
        (c.block (merging calls).merger).rows.length ≠ (merging calls).merger.data.length) ↔
      (merging calls).merger.events ≠ [] ∧
        (merging calls).merger.data.length ≠ (c.block (merging calls).merger).rows.length := by
    intro c
    rw [Ne, ← h.events_iff, ne_comm (a := (c.block (merging calls).merger).rows.length)]
  refine ⟨?_, ?_, ?_, ?_, ?_⟩
  · intro c hc
    rw [hcond, MergerCall.apply_eq h.table hc]
    split_ifs with hdiffer
    · exact iff_of_true ⟨_, rfl⟩ hdiffer
    · refine iff_of_false ?_ hdiffer
      rintro ⟨message, hthrow⟩
      cases congrArg Prod.snd hthrow
  · intro c hc hnot
    rw [MergerCall.apply_eq h.table hc, if_neg (mt (hcond c).mpr hnot)]
  · intro hmerged
    have hlength : ¬ (merging calls).merger.events.length < 1 := by
      rw [Nat.lt_one_iff, List.length_eq_zero_iff, h.events_iff]
      exact hmerged
    rw [BenchmarkResultsMerger.getEventNames, if_neg hlength]
    exact (h.sideBySide hmerged).names
  · intro b hb
    exact (h.sideBySide (List.ne_nil_of_mem hb)).height b hb
  · intro hmerged
    exact (h.sideBySide hmerged).row

/-- Two results, a column, and the merger itself. -/
theorem merging_concatenates_self :
    (merging [.addColumns (.columns ⟨[some "A"], [[1], [2]]⟩) (some "x:"),
      .addColumn [3, 4] (some "B"), .addColumn [5] (some "C"),
      .addColumns .merger (some "y:")]).Concatenates ∧
    (merging [.addColumns (.columns ⟨[some "A"], [[1], [2]]⟩) (some "x:"),
      .addColumn [3, 4] (some "B"), .addColumn [5] (some "C"),
      .addColumns .merger (some "y:")]).merger =
      ⟨[some "x:A", some "B", some "y:x:A", some "y:B"], [[1, 3, 1, 3], [2, 4, 2, 4]]⟩ := by
  refine ⟨merging_concatenates _ ?_, by decide⟩
  simp [MergerCall.WellFormed]

end UbenchAgent
