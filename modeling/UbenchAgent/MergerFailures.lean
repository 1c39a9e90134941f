import UbenchAgent.Merger

/-!
# Failures while merging

`addColumns` compares the numbers of rows, and only if the merger has names.  Then it adds
the names and replaces the rows one by one.  So results whose rows do not fit under the names
stop it halfway, and rows that the merger has no place for are left out.
-/

namespace UbenchAgent

/-- An `addColumns` that throws changes nothing, and one that returns leaves a value for every
name in each row, and each row of the results behind the row that was there. -/
def MergedOrUnchanged (m : BenchmarkResultsMerger) (results : MergerSource) (pre : JavaString) :
    Prop :=
  match m.addColumns results pre with
  | (m', .error _) => m' = m
  | (m', .ok ()) => (∀ row ∈ m'.data, row.length = m'.events.length) ∧
      ∀ i row, (results.getData m)[i]? = some row →
        ∃ row', m'.data[i]? = some row' ∧ m.data.getD i [] ++ row <+: row'

def RowFits (width : ℕ) (old rows : List (List Int64)) (i : ℕ) : Prop :=
  ∃ row, rows[i]? = some row ∧ (old.getD i []).length + row.length ≤ width

def mergedWidth (m : BenchmarkResultsMerger) (results : MergerSource) : ℕ :=
  m.events.length + (results.getEventNames m).length

/-- The ways in which `addColumns` is all or nothing: the check of the row counts rejects the
results; every row fits, and the merger has no rows yet or as many; or the results have no
names, and in front of the first row that does not fit there is nothing to do. -/
inductive Mergeable (m : BenchmarkResultsMerger) (results : MergerSource) : Prop
  | rejected (named : m.events ≠ []) (height : m.data.length ≠ (results.getData m).length)
  | fits (height : m.data = [] ∨ m.data.length = (results.getData m).length)
      (rows : ∀ i < (results.getData m).length,
        RowFits (mergedWidth m results) m.data (results.getData m) i)
  | untouched (unnamed : results.getEventNames m = []) (i : ℕ) (inside : i < m.data.length)
      (stops : ¬ RowFits (mergedWidth m results) m.data (results.getData m) i)
      (before : ∀ j < i, (m.data.getD j []).length = m.events.length ∧
        (results.getData m)[j]? = some [])

/-- The rows that the last loop of `addColumns` starts with. -/
def BenchmarkResultsMerger.sized (m : BenchmarkResultsMerger) (rows : List (List Int64)) :
    List (List Int64) :=
  if m.data.length = 0 then List.replicate rows.length [] else m.data

def grown (width : ℕ) (row newRow : List Int64) : List Int64 :=
  row ++ newRow ++ List.replicate (width - (row.length + newRow.length)) 0

def grownRows (width : ℕ) (old rows : List (List Int64)) : List (List Int64) :=
  old.mapIdx fun i row => grown width row (rows.getD i [])

section Rows

variable {width : ℕ} {row newRow : List Int64}

theorem length_copyOf (row : List Int64) (width : ℕ) : (copyOf row width).length = width := by
  rw [copyOf, List.length_take, List.length_append, List.length_replicate]
  omega

theorem length_grown (h : row.length + newRow.length ≤ width) :
    (grown width row newRow).length = width := by
  rw [grown, List.length_append, List.length_append, List.length_replicate]
  omega

theorem arraycopy_fits (h : row.length + newRow.length ≤ width) :
    arraycopy newRow (copyOf row width) row.length = some (grown width row newRow) := by
  obtain ⟨k, rfl⟩ := Nat.exists_eq_add_of_le (Nat.le_of_add_right_le h)
  rw [arraycopy, if_pos (by rw [length_copyOf]; exact h), copyOf_grow, List.take_left,
    ← List.drop_drop, List.drop_left, List.drop_replicate, grown, Nat.add_sub_add_left]

theorem arraycopy_unfit (h : ¬ row.length + newRow.length ≤ width) :
    arraycopy newRow (copyOf row width) row.length = none := by
  rw [arraycopy, if_neg (by rw [length_copyOf]; exact h)]

variable {m : BenchmarkResultsMerger} {rows old : List (List Int64)}

theorem getD_of_getElem? {i : ℕ} (h : rows[i]? = some row) : rows.getD i [] = row := by
  rw [List.getD_eq_getElem?_getD, h]
  rfl

theorem getElem?_of_lt {i : ℕ} (hi : i < rows.length) : rows[i]? = some (rows.getD i []) := by
  rw [getD_of_getElem? (List.getElem?_eq_getElem hi)]
  exact List.getElem?_eq_getElem hi

theorem length_grownRows : (grownRows width old rows).length = old.length := List.length_mapIdx

theorem getElem_grownRows {i : ℕ} (hi : i < (grownRows width old rows).length) :
    (grownRows width old rows)[i] =
      grown width (old.getD i []) (rows.getD i []) := by
  rw [length_grownRows] at hi
  rw [getD_of_getElem? (List.getElem?_eq_getElem hi)]
  exact List.getElem_mapIdx

theorem sized_getD (i : ℕ) : (m.sized rows).getD i [] = m.data.getD i [] := by
  unfold BenchmarkResultsMerger.sized
  split_ifs with hzero
  · rw [List.length_eq_zero_iff.mp hzero, List.getD_eq_getElem?_getD, List.getElem?_replicate]
    split_ifs <;> rfl
  · rfl

theorem sized_self : m.sized m.data = m.data := by
  unfold BenchmarkResultsMerger.sized
  split_ifs with hzero
  · rw [List.length_eq_zero_iff.mp hzero]
    rfl
  · rfl

theorem sized_of_pos (h : 0 < m.data.length) : m.sized rows = m.data := by
  unfold BenchmarkResultsMerger.sized
  rw [if_neg h.ne']

theorem sized_length_of_height (h : m.data = [] ∨ m.data.length = rows.length) :
    (m.sized rows).length = rows.length := by
  unfold BenchmarkResultsMerger.sized
  split_ifs with hzero
  · exact List.length_replicate
  · rcases h with hnil | hlength
    · exact absurd (congrArg List.length hnil) hzero
    · exact hlength

end Rows

section Loop

variable {m : BenchmarkResultsMerger} {results : MergerSource}

/-- The rows that a source shows during the loop are those that it showed before, as far as
the loop has not come. -/
theorem getData_loop {events : List JavaString} {data : List (List Int64)} {i : ℕ}
    (hrow : data[i]? = (m.sized (results.getData m))[i]?) :
    (results.getData ⟨events, data⟩)[i]? = (results.getData m)[i]? := by
  cases results with
  | columns results => rfl
  | merger => exact hrow.trans (congrArg (fun rows => rows[i]?) sized_self)

theorem addColumnsRow_fits {events : List JavaString} {data : List (List Int64)} {i : ℕ}
    (hi : i < (m.sized (results.getData m)).length)
    (hrow : data[i]? = (m.sized (results.getData m))[i]?)
    (hfits : RowFits events.length m.data (results.getData m) i) :
    addColumnsRow results ⟨events, data⟩ i = .ok ⟨events, data.set i
      (grown events.length ((m.sized (results.getData m)).getD i [])
        ((results.getData m).getD i []))⟩ := by
  obtain ⟨newRow, hnew, hroom⟩ := hfits
  rw [← sized_getD] at hroom
  rw [addColumnsRow, getData_loop hrow, hnew]
  dsimp only
  rw [hrow, getElem?_of_lt hi]
  dsimp only
  rw [arraycopy_fits hroom, getD_of_getElem? hnew]

theorem addColumnsRow_unfit {events : List JavaString} {data : List (List Int64)} {i : ℕ}
    (hi : i < (m.sized (results.getData m)).length)
    (hrow : data[i]? = (m.sized (results.getData m))[i]?)
    (hfits : ¬ RowFits events.length m.data (results.getData m) i) :
    addColumnsRow results ⟨events, data⟩ i = .error .indexOutOfBounds := by
  rw [addColumnsRow, getData_loop hrow]
  cases hnew : (results.getData m)[i]? with
  | none => rfl
  | some newRow =>
    dsimp only
    rw [hrow, getElem?_of_lt hi, sized_getD]
    dsimp only
    rw [arraycopy_unfit fun hroom => hfits ⟨newRow, hnew, hroom⟩]

theorem addColumns_rejected (pre : JavaString)
    (h : m.events ≠ [] ∧ m.data.length ≠ (results.getData m).length) :
    m.addColumns results pre = (m, .error (.illegalArgument
      (rowLengthsDiffer m.data.length (results.getData m).length))) := by
  unfold BenchmarkResultsMerger.addColumns
  rw [if_pos (List.length_eq_zero_iff.not.mpr h.1), checkSameRowSize, if_pos h.2]

theorem addColumns_checked (pre : JavaString)
    (h : ¬ (m.events ≠ [] ∧ m.data.length ≠ (results.getData m).length)) :
    m.addColumns results pre = forEachRow (addColumnsRow results)
      (List.range (m.sized (results.getData m)).length)
      ⟨m.events ++ (results.getEventNames m).map (javaConcat pre),
        m.sized (results.getData m)⟩ := by
  have hcheck : (if m.events.length ≠ 0 then
      checkSameRowSize m.data.length (results.getData m).length else .ok ()) = .ok () := by
    split_ifs with hnamed
    · apply checkSameRowSize_eq
      by_contra hne
      exact h ⟨List.length_eq_zero_iff.not.mp hnamed, hne⟩
    · rfl
  unfold BenchmarkResultsMerger.addColumns
  rw [hcheck]
  dsimp only
  rw [getData_named]
  unfold BenchmarkResultsMerger.sized
  split_ifs <;> rfl

theorem length_merged (pre : JavaString) :
    (m.events ++ (results.getEventNames m).map (javaConcat pre)).length =
      mergedWidth m results :=
  length_events_append results pre

theorem addColumns_returns (pre : JavaString)
    (h : ¬ (m.events ≠ [] ∧ m.data.length ≠ (results.getData m).length))
    (hfits : ∀ i < (m.sized (results.getData m)).length,
      RowFits (mergedWidth m results) m.data (results.getData m) i) :
    m.addColumns results pre =
      (⟨m.events ++ (results.getEventNames m).map (javaConcat pre),
        grownRows (mergedWidth m results) (m.sized (results.getData m)) (results.getData m)⟩,
        .ok ()) := by
  rw [addColumns_checked pre h]
  apply forEachRow_eq length_grownRows
  intro i hi data hrow
  rw [getElem_grownRows, ← length_merged pre]
  rw [length_grownRows] at hi
  apply addColumnsRow_fits hi hrow
  rw [length_merged]
  exact hfits i hi

theorem addColumns_throws (pre : JavaString)
    (h : ¬ (m.events ≠ [] ∧ m.data.length ≠ (results.getData m).length)) {i : ℕ}
    (hi : i < (m.sized (results.getData m)).length)
    (hstops : ¬ RowFits (mergedWidth m results) m.data (results.getData m) i)
    (hfits : ∀ j < i, RowFits (mergedWidth m results) m.data (results.getData m) j) :
    m.addColumns results pre =
      (⟨m.events ++ (results.getEventNames m).map (javaConcat pre),
        (grownRows (mergedWidth m results) (m.sized (results.getData m))
          (results.getData m)).take i ++ (m.sized (results.getData m)).drop i⟩,
        .error .indexOutOfBounds) := by
  have hlength : (grownRows (mergedWidth m results) (m.sized (results.getData m))
      (results.getData m)).length = (m.sized (results.getData m)).length := length_grownRows
  rw [addColumns_checked pre h, forEachRow_take hlength (k := i) (by omega) ?_]
  · have hrest : (m.sized (results.getData m)).length - i =
        (m.sized (results.getData m)).length - (i + 1) + 1 := by omega
    have hrow : ((grownRows (mergedWidth m results) (m.sized (results.getData m))
        (results.getData m)).take i ++ (m.sized (results.getData m)).drop i)[i]? =
        (m.sized (results.getData m))[i]? := by
      have htake : ((grownRows (mergedWidth m results) (m.sized (results.getData m))
          (results.getData m)).take i).length = i := by rw [List.length_take]; omega
      rw [List.getElem?_append_right (by omega), htake, List.getElem?_drop, Nat.sub_self,
        Nat.add_zero]
    rw [hrest, List.range'_succ, forEachRow, addColumnsRow_unfit hi hrow]
    rw [length_merged]
    exact hstops
  · intro j hj data hrow
    rw [getElem_grownRows, ← length_merged pre]
    apply addColumnsRow_fits (by omega) hrow
    rw [length_merged]
    exact hfits j hj

end Loop

section Call

variable {m : BenchmarkResultsMerger} {results : MergerSource}

theorem merged_iff (hfits : ∀ i < (m.sized (results.getData m)).length,
      RowFits (mergedWidth m results) m.data (results.getData m) i) :
    ((∀ row ∈ grownRows (mergedWidth m results) (m.sized (results.getData m)) (results.getData m),
          row.length = mergedWidth m results) ∧
        ∀ i row, (results.getData m)[i]? = some row → ∃ row',
          (grownRows (mergedWidth m results) (m.sized (results.getData m))
            (results.getData m))[i]? = some row' ∧ m.data.getD i [] ++ row <+: row') ↔
      (m.sized (results.getData m)).length = (results.getData m).length := by
  constructor
  · rintro ⟨-, hall⟩
    apply le_antisymm
    · by_contra hlt
      obtain ⟨row, hrow, -⟩ := hfits (results.getData m).length (by omega)
      rw [List.getElem?_eq_none le_rfl] at hrow
      cases hrow
    · by_contra hlt
      obtain ⟨row', hrow', -⟩ := hall _ _ (getElem?_of_lt (Nat.lt_of_not_le hlt))
      rw [List.getElem?_eq_none length_grownRows.le] at hrow'
      cases hrow'
  · intro hlength
    constructor
    · intro row hrow
      obtain ⟨i, hi, rfl⟩ := List.mem_iff_getElem.mp hrow
      rw [length_grownRows] at hi
      obtain ⟨newRow, hnew, hroom⟩ := hfits i hi
      rw [getElem_grownRows, sized_getD, getD_of_getElem? hnew]
      exact length_grown hroom
    · intro i row hrow
      have hi : i < (grownRows (mergedWidth m results) (m.sized (results.getData m))
          (results.getData m)).length := by
        rw [length_grownRows, hlength]
        exact (List.getElem?_eq_some_iff.mp hrow).1
      refine ⟨_, List.getElem?_eq_getElem hi, ?_⟩
      rw [getElem_grownRows, sized_getD, getD_of_getElem? hrow]
      exact List.prefix_append _ _

theorem unchanged_iff (pre : JavaString) {i : ℕ} (hi : i < (m.sized (results.getData m)).length)
    (hfits : ∀ j < i, RowFits (mergedWidth m results) m.data (results.getData m) j) :
    (⟨m.events ++ (results.getEventNames m).map (javaConcat pre),
      (grownRows (mergedWidth m results) (m.sized (results.getData m))
        (results.getData m)).take i ++ (m.sized (results.getData m)).drop i⟩ :
        BenchmarkResultsMerger) = m ↔
      results.getEventNames m = [] ∧ i < m.data.length ∧
        ∀ j < i, (m.data.getD j []).length = m.events.length ∧
          (results.getData m)[j]? = some [] := by
  have htake : ((grownRows (mergedWidth m results) (m.sized (results.getData m))
      (results.getData m)).take i).length = i := by
    rw [List.length_take, length_grownRows]
    omega
  constructor
  · intro h
    have hevents := congrArg BenchmarkResultsMerger.events h
    have hdata := congrArg BenchmarkResultsMerger.data h
    dsimp only at hevents hdata
    have hunnamed : results.getEventNames m = [] := by
      rwa [List.append_right_eq_self, List.map_eq_nil_iff] at hevents
    have hlength : (m.sized (results.getData m)).length = m.data.length := by
      rw [← congrArg List.length hdata, List.length_append, htake, List.length_drop]
      omega
    refine ⟨hunnamed, hlength ▸ hi, fun j hj => ?_⟩
    obtain ⟨newRow, hnew, hroom⟩ := hfits j hj
    have hrow : (grownRows (mergedWidth m results) (m.sized (results.getData m))
        (results.getData m))[j]? = m.data[j]? := by
      rw [← hdata, List.getElem?_append_left (by omega), List.getElem?_take_of_lt hj]
    have hj' : j < (grownRows (mergedWidth m results) (m.sized (results.getData m))
        (results.getData m)).length := by
      rw [length_grownRows]
      omega
    -- The new row is the old one, so its length is the number of names.
    have hgrown : m.data.getD j [] = grown (mergedWidth m results) (m.data.getD j []) newRow := by
      rw [List.getElem?_eq_getElem hj', getElem_grownRows, sized_getD,
        getD_of_getElem? hnew] at hrow
      exact getD_of_getElem? hrow.symm
    have hwidth := congrArg List.length hgrown
    rw [length_grown hroom, mergedWidth, hunnamed, List.length_nil] at hwidth
    rw [mergedWidth, hunnamed, List.length_nil] at hroom
    have hempty : newRow.length = 0 := by omega
    exact ⟨hwidth, by rw [hnew, List.length_eq_zero_iff.mp hempty]⟩
  · rintro ⟨hunnamed, hinside, hbefore⟩
    have hsized : m.sized (results.getData m) = m.data := sized_of_pos (by omega)
    have hsame : (grownRows (mergedWidth m results) (m.sized (results.getData m))
        (results.getData m)).take i ++ (m.sized (results.getData m)).drop i = m.data := by
      apply List.ext_getElem?
      intro j
      by_cases hj : j < i
      · obtain ⟨hwidth, hrow⟩ := hbefore j hj
        have hj' : j < (grownRows (mergedWidth m results) (m.sized (results.getData m))
            (results.getData m)).length := by
          rw [length_grownRows]
          omega
        rw [List.getElem?_append_left (by omega), List.getElem?_take_of_lt hj,
          List.getElem?_eq_getElem hj', getElem_grownRows, sized_getD, getD_of_getElem? hrow,
          getElem?_of_lt (hj.trans hinside), grown, mergedWidth, hunnamed, hwidth]
        simp
      · rw [List.getElem?_append_right (by omega), htake, List.getElem?_drop, hsized,
          Nat.add_sub_cancel' (by omega)]
    rw [hsame, hunnamed, List.map_nil, List.append_nil]

theorem exists_first_unfit {width n : ℕ} {old rows : List (List Int64)}
    (h : ¬ ∀ i < n, RowFits width old rows i) :
    ∃ i < n, ¬ RowFits width old rows i ∧ ∀ j < i, RowFits width old rows j := by
  classical
  push Not at h
  obtain ⟨hi, hunfit⟩ := Nat.find_spec h
  refine ⟨Nat.find h, hi, hunfit, fun j hj => ?_⟩
  by_contra hnot
  exact Nat.find_min h hj ⟨hj.trans hi, hnot⟩

/-- `addColumns` is all or nothing exactly in the three ways. -/
theorem mergedOrUnchanged_iff (m : BenchmarkResultsMerger) (results : MergerSource)
    (pre : JavaString) : MergedOrUnchanged m results pre ↔ Mergeable m results := by
  by_cases hrejected : m.events ≠ [] ∧ m.data.length ≠ (results.getData m).length
  · unfold MergedOrUnchanged
    rw [addColumns_rejected pre hrejected]
    exact iff_of_true rfl (.rejected hrejected.1 hrejected.2)
  · by_cases hfits : ∀ i < (m.sized (results.getData m)).length,
        RowFits (mergedWidth m results) m.data (results.getData m) i
    · unfold MergedOrUnchanged
      rw [addColumns_returns pre hrejected hfits]
      dsimp only
      rw [length_merged, merged_iff hfits]
      constructor
      · intro hlength
        refine .fits ?_ fun i hi => hfits i (by omega)
        rcases Nat.eq_zero_or_pos m.data.length with hzero | hpos
        · exact .inl (List.length_eq_zero_iff.mp hzero)
        · rw [sized_of_pos hpos] at hlength
          exact .inr hlength
      · intro h
        cases h with
        | rejected hnamed hheight => exact absurd ⟨hnamed, hheight⟩ hrejected
        | fits hheight => exact sized_length_of_height hheight
        | untouched hunnamed i hinside hstops =>
          rw [sized_of_pos (by omega)] at hfits
          exact absurd (hfits i hinside) hstops
    · obtain ⟨i, hi, hunfit, hbefore⟩ := exists_first_unfit hfits
      unfold MergedOrUnchanged
      rw [addColumns_throws pre hrejected hi hunfit hbefore]
      dsimp only
      rw [unchanged_iff pre hi hbefore]
      constructor
      · rintro ⟨hunnamed, hinside, huntouched⟩
        exact .untouched hunnamed i hinside hunfit huntouched
      · intro h
        cases h with
        | rejected hnamed hheight => exact absurd ⟨hnamed, hheight⟩ hrejected
        | fits hheight hrows =>
          rw [sized_length_of_height hheight] at hi
          exact absurd (hrows i hi) hunfit
        | untouched hunnamed i' hinside hstops huntouched =>
          have hle : i ≤ i' := by
            by_contra hlt
            exact hstops (hbefore i' (by omega))
          have hge : i' ≤ i := by
            by_contra hlt
            obtain ⟨hwidth, hrow⟩ := huntouched i (by omega)
            refine hunfit ⟨[], hrow, ?_⟩
            rw [hwidth, mergedWidth, hunnamed]
            exact le_rfl
          obtain rfl : i = i' := le_antisymm hle hge
          exact ⟨hunnamed, hinside, huntouched⟩

end Call

def MergesIntact (calls : List MergerCall) : Prop :=
  ∀ before results pre after, calls = before ++ .addColumns results pre :: after →
    MergedOrUnchanged (merging before).merger results pre

def MergeableRun (calls : List MergerCall) : Prop :=
  ∀ before results pre after, calls = before ++ .addColumns results pre :: after →
    Mergeable (merging before).merger results

/-- In a run of any calls `addColumns` is all or nothing exactly if the results are mergeable
whenever it is called. -/
theorem mergesIntact_iff (calls : List MergerCall) : MergesIntact calls ↔ MergeableRun calls := by
  constructor
  · intro h before results pre after hcalls
    exact (mergedOrUnchanged_iff _ results pre).mp (h before results pre after hcalls)
  · intro h before results pre after hcalls
    exact (mergedOrUnchanged_iff _ results pre).mpr (h before results pre after hcalls)

/-- A row that is longer than the list of names leaves the name and an empty row behind.  After
results without names a row of the next results is left out. -/
theorem not_mergesIntact_ragged :
    ¬ MergesIntact [.addColumns (.columns ⟨[some "A"], [[1, 2]]⟩) (some "")] ∧
      ¬ MergesIntact [.addColumns (.columns ⟨[], [[]]⟩) (some ""),
        .addColumns (.columns ⟨[some "A"], [[1], [2]]⟩) (some "")] := by
  constructor
  · intro h
    have hkept : (⟨[some "A"], [[]]⟩ : BenchmarkResultsMerger) = .new := h [] _ _ [] rfl
    exact absurd hkept (by decide)
  · intro h
    have hmerged := (h [.addColumns (.columns ⟨[], [[]]⟩) (some "")] _ _ [] rfl).2 1 [2] rfl
    obtain ⟨row, hrow, -⟩ := hmerged
    cases hrow

end UbenchAgent
