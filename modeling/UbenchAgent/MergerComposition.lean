import UbenchAgent.MergerFailures

/-!
# Merging mergers

A merger is itself a `BenchmarkResults`, so mergers may be merged.  While it has no names,
`getEventNames` shows a `null` that nobody added.
-/

namespace UbenchAgent

open Columns

def addedNames (c : MergerCall) : List JavaString := (c.block .new).names

/-- The source of a call is a rectangle with `height` rows.  It is not the merger itself. -/
def MergerCall.Rectangle (height : ℕ) : MergerCall → Prop
  | .addColumns (.columns results) _ => results.data.length = height ∧
      ∀ row ∈ results.data, row.length = results.eventNames.length
  | .addColumns .merger _ => False
  | .addColumn values _ => values.length = height

def MergerCall.prefixed (pre : JavaString) : MergerCall → MergerCall
  | .addColumns results pre' => .addColumns results (javaConcat pre pre')
  | .addColumn values name => .addColumn values (javaConcat pre name)

def BenchmarkResultsMerger.source (m : BenchmarkResultsMerger) : MergerSource :=
  .columns ⟨m.getEventNames, m.data⟩

section Height

variable {height : ℕ} {m : BenchmarkResultsMerger} {c : MergerCall}

theorem MergerCall.Rectangle.length_rows (h : c.Rectangle height) :
    (c.block .new).rows.length = height := by
  cases c with
  | addColumns results pre =>
    cases results with
    | columns results => exact h.1
    | merger => exact h.elim
  | addColumn values name => exact (List.length_map _).trans h

theorem MergerCall.Rectangle.rectangular (h : c.Rectangle height) :
    (c.block .new).Rectangular := by
  cases c with
  | addColumns results pre =>
    cases results with
    | columns results =>
      intro row hrow
      rw [h.2 row hrow]
      exact (List.length_map _).symm
    | merger => exact h.elim
  | addColumn values name =>
    intro row hrow
    obtain ⟨value, -, rfl⟩ := List.mem_map.mp hrow
    rfl

theorem javaConcat_assoc (a b c : JavaString) :
    javaConcat (javaConcat a b) c = javaConcat a (javaConcat b c) := by
  unfold javaConcat
  rw [Option.getD_some, Option.getD_some, String.append_assoc]

theorem MergerCall.prefixed_block (pre : JavaString) (c : MergerCall) :
    (c.prefixed pre).block m = (c.block m).rename (javaConcat pre) := by
  cases c with
  | addColumns results pre' =>
    have hnames : (results.getEventNames m).map (javaConcat (javaConcat pre pre')) =
        ((results.getEventNames m).map (javaConcat pre')).map (javaConcat pre) := by
      rw [List.map_map]
      apply List.map_congr_left
      intro name hname
      exact javaConcat_assoc pre pre' name
    exact congrArg (fun names => Block.mk names (results.getData m)) hnames
  | addColumn values name => rfl

theorem MergerCall.Rectangle.prefixed (h : c.Rectangle height) (pre : JavaString) :
    (c.prefixed pre).Rectangle height := by
  cases c with
  | addColumns results pre' => cases results <;> exact h
  | addColumn values name => exact h

end Height

/-- The merger holds the blocks side by side.  It has no rows as long as nothing is added. -/
structure Built (height : ℕ) (blocks : List (Block JavaString Int64))
    (m : BenchmarkResultsMerger) : Prop where
  events : m.events = (joined height blocks).names
  data : m.data = if blocks = [] then [] else (joined height blocks).rows

section Built

variable {height : ℕ} {blocks : List (Block JavaString Int64)} {m : BenchmarkResultsMerger}
  {c : MergerCall}

theorem Built.not_rejected (h : Built height blocks m)
    (hblocks : ∀ b ∈ blocks, b.rows.length = height) :
    ¬ (m.events ≠ [] ∧ m.data.length ≠ height) := by
  rintro ⟨hevents, hlength⟩
  apply hlength
  rw [h.data, if_neg ?_, joined_height hblocks]
  intro hnil
  rw [h.events, hnil] at hevents
  exact hevents rfl

theorem Built.sized_eq (h : Built height blocks m)
    (hblocks : ∀ b ∈ blocks, b.rows.length = height) {rows : List (List Int64)}
    (hrows : rows.length = height) : m.sized rows = (joined height blocks).rows := by
  unfold BenchmarkResultsMerger.sized
  rw [h.data]
  by_cases hnil : blocks = []
  · rw [if_pos hnil, if_pos List.length_nil, hrows, hnil]
    rfl
  · rw [if_neg hnil]
    split_ifs with hzero
    · rw [List.length_eq_zero_iff.mp hzero, hrows, ← joined_height hblocks, hzero]
      rfl
    · rfl

theorem Built.addColumns (h : Built height blocks m)
    (hheight : ∀ b ∈ blocks, b.rows.length = height) (hwidth : ∀ b ∈ blocks, b.Rectangular)
    {results : BenchmarkResults} (hrows : results.data.length = height)
    (hcells : ∀ row ∈ results.data, row.length = results.eventNames.length) (pre : JavaString) :
    m.addColumns (.columns results) pre =
      (⟨m.events ++ results.eventNames.map (javaConcat pre),
        List.zipWith (· ++ ·) (joined height blocks).rows results.data⟩, .ok ()) := by
  have hchecked : ¬ (m.events ≠ [] ∧ m.data.length ≠ results.data.length) := by
    rw [hrows]
    exact h.not_rejected hheight
  have hsized : m.sized ((MergerSource.columns results).getData m) = (joined height blocks).rows :=
    h.sized_eq hheight hrows
  rw [addColumns_checked pre hchecked, hsized]
  apply addColumnsLoop_eq
  · rw [joined_height hheight]
    exact hrows
  · intro i data hi hrow
    rfl
  · intro i hi hi'
    rw [length_events_append, h.events, joined_rectangular hwidth _ (List.getElem_mem hi)]
    congr 1
    exact (hcells _ (List.getElem_mem hi')).symm

theorem Built.addColumn (h : Built height blocks m)
    (hheight : ∀ b ∈ blocks, b.rows.length = height) (hwidth : ∀ b ∈ blocks, b.Rectangular)
    {values : List Int64} (hvalues : values.length = height) (name : JavaString) :
    m.addColumn values name =
      (⟨m.events ++ [name], List.zipWith (· ++ ·) (joined height blocks).rows
        (values.map fun value => [value])⟩, .ok ()) := by
  have hlength : (joined height blocks).rows.length = values.length :=
    (joined_height hheight).trans hvalues.symm
  have hcheck : (if m.events.length ≠ 0 then checkSameRowSize m.data.length values.length
      else .ok ()) = .ok () := by
    split_ifs with hnamed
    · apply checkSameRowSize_eq
      by_contra hne
      exact h.not_rejected hheight
        ⟨List.length_eq_zero_iff.not.mp hnamed, by rw [← hvalues]; exact hne⟩
    · rfl
  unfold BenchmarkResultsMerger.addColumn
  rw [hcheck]
  dsimp only
  split_ifs with hzero
  · have hcolumn : (values.map fun value => [value]).length = height := by
      rw [List.length_map, hvalues]
    have hsized := h.sized_eq hheight hcolumn
    unfold BenchmarkResultsMerger.sized at hsized
    rw [if_pos hzero] at hsized
    rw [← hsized, zipWith_nil_append]
  · have hne : blocks ≠ [] := by
      rintro rfl
      exact hzero (congrArg List.length h.data)
    have hdata : m.data = (joined height blocks).rows := by rw [h.data, if_neg hne]
    have hrows : ∀ row ∈ m.data, row.length = m.events.length := by
      rw [hdata, h.events]
      exact joined_rectangular hwidth
    rw [List.length_append, List.length_singleton, Nat.add_sub_cancel, ← hdata, ← hlength, ← hdata]
    apply addColumnLoop_eq _ hrows
    rw [hdata, hlength]

/-- The columns of a further call go to the right. -/
theorem Built.apply (h : Built height blocks m)
    (hheight : ∀ b ∈ blocks, b.rows.length = height) (hwidth : ∀ b ∈ blocks, b.Rectangular)
    (hc : c.Rectangle height) :
    ∃ m', c.apply m = (m', .ok ()) ∧ Built height (blocks ++ [c.block .new]) m' := by
  have hjoined : joined height (blocks ++ [c.block .new]) =
      (joined height blocks).beside (c.block .new) := joined_snoc hc.length_rows
  have hne : blocks ++ [c.block .new] ≠ [] :=
    List.append_ne_nil_of_right_ne_nil _ (List.cons_ne_nil _ _)
  cases c with
  | addColumns results pre =>
    cases results with
    | columns results =>
      refine ⟨_, h.addColumns hheight hwidth hc.1 hc.2 pre, ?_, ?_⟩
      · rw [hjoined, h.events]
        rfl
      · rw [if_neg hne, hjoined]
        rfl
    | merger => exact hc.elim
  | addColumn values name =>
    refine ⟨_, h.addColumn hheight hwidth hc name, ?_, ?_⟩
    · rw [hjoined, h.events]
      rfl
    · rw [if_neg hne, hjoined]
      rfl

end Built

def blocksOf (calls : List MergerCall) : List (Block JavaString Int64) :=
  calls.map (MergerCall.block .new)

section Merging

variable {height : ℕ} {calls : List MergerCall}

theorem blocksOf_height (h : ∀ c ∈ calls, c.Rectangle height) :
    ∀ b ∈ blocksOf calls, b.rows.length = height :=
  List.forall_mem_map.mpr fun c hc => (h c hc).length_rows

theorem blocksOf_rectangular (h : ∀ c ∈ calls, c.Rectangle height) :
    ∀ b ∈ blocksOf calls, b.Rectangular :=
  List.forall_mem_map.mpr fun c hc => (h c hc).rectangular

/-- A merger that was built from sources of one height. -/
theorem merging_built (h : ∀ c ∈ calls, c.Rectangle height) :
    Built height (blocksOf calls) (merging calls).merger := by
  induction calls using List.reverseRecOn with
  | nil => exact ⟨rfl, rfl⟩
  | append_singleton calls c ih =>
    obtain ⟨hcalls, hc⟩ := List.forall_mem_append.mp h
    obtain ⟨m', happly, hbuilt⟩ := (ih hcalls).apply (blocksOf_height hcalls)
      (blocksOf_rectangular hcalls) (List.forall_mem_singleton.mp hc)
    have hmerger : (merging (calls ++ [c])).merger = m' := by
      unfold merging Merging.call at *
      rw [List.foldl_append, List.foldl_cons, List.foldl_nil, happly]
    rw [hmerger, blocksOf, List.map_append]
    exact hbuilt

end Merging

/-- To merge the merger of `B` with `pre` shows the same as to merge its sources one by one. -/
def Composes (A B : List MergerCall) (pre : JavaString) : Prop :=
  ∃ m, (merging A).merger.addColumns (merging B).merger.source pre = (m, .ok ()) ∧
    m.getEventNames = (merging (A ++ B.map (MergerCall.prefixed pre))).merger.getEventNames ∧
    m.data = (merging (A ++ B.map (MergerCall.prefixed pre))).merger.data

/-- `getEventNames` is the names that were added, and none is `null`. -/
def ShowsNames (calls : List MergerCall) : Prop :=
  (merging calls).merger.getEventNames = calls.flatMap addedNames ∧
    none ∉ (merging calls).merger.getEventNames

def MergesNothing (A B : List MergerCall) (pre : JavaString) : Prop :=
  ∃ m, (merging A).merger.addColumns (merging B).merger.source pre = (m, .ok ()) ∧
    m.getEventNames = (merging A).merger.getEventNames ∧ m.data = (merging A).merger.data

def AddsNames (calls : List MergerCall) : Prop := ∃ c ∈ calls, addedNames c ≠ []

section Composition

variable {height : ℕ} {A B calls : List MergerCall}

theorem joined_blocksOf_names (height : ℕ) (calls : List MergerCall) :
    (joined height (blocksOf calls)).names = calls.flatMap addedNames := by
  rw [joined_names, blocksOf, List.flatMap_map]
  rfl

theorem addsNames_iff : AddsNames calls ↔ calls.flatMap addedNames ≠ [] := by
  rw [Ne, List.flatMap_eq_nil_iff, AddsNames]
  push Not
  rfl

theorem events_eq (h : ∀ c ∈ calls, c.Rectangle height) :
    (merging calls).merger.events = calls.flatMap addedNames :=
  (merging_built h).events.trans (joined_blocksOf_names height calls)

theorem getEventNames_of_named (h : ∀ c ∈ calls, c.Rectangle height) (hnamed : AddsNames calls) :
    (merging calls).merger.getEventNames = calls.flatMap addedNames := by
  have hlength : ¬ (merging calls).merger.events.length < 1 := by
    rw [events_eq h, Nat.lt_one_iff, List.length_eq_zero_iff]
    exact addsNames_iff.mp hnamed
  rw [BenchmarkResultsMerger.getEventNames, if_neg hlength, events_eq h]

theorem getEventNames_of_unnamed (h : ∀ c ∈ calls, c.Rectangle height)
    (hnamed : ¬ AddsNames calls) :
    (merging calls).merger.getEventNames = [none] := by
  have hlength : (merging calls).merger.events.length < 1 := by
    rw [events_eq h, not_not.mp (mt addsNames_iff.mpr hnamed)]
    exact Nat.one_pos
  rw [BenchmarkResultsMerger.getEventNames, if_pos hlength]

theorem showsNames_iff (h : ∀ c ∈ calls, c.Rectangle height) :
    ShowsNames calls ↔ AddsNames calls ∧ none ∉ calls.flatMap addedNames := by
  unfold ShowsNames
  by_cases hnamed : AddsNames calls
  · rw [getEventNames_of_named h hnamed]
    tauto
  · rw [getEventNames_of_unnamed h hnamed]
    exact iff_of_false (fun hshown => hshown.2 (List.mem_singleton_self _))
      fun hcond => hnamed hcond.1

theorem source_rectangle (hB : ∀ c ∈ B, c.Rectangle height) (hnamed : AddsNames B)
    (pre : JavaString) :
    (MergerCall.addColumns (merging B).merger.source pre).Rectangle height ∧
      (MergerCall.addColumns (merging B).merger.source pre).block .new =
        (joined height (blocksOf B)).rename (javaConcat pre) := by
  have hbuilt := merging_built hB
  have hne : blocksOf B ≠ [] := by
    obtain ⟨c, hc, -⟩ := hnamed
    exact List.ne_nil_of_mem (List.mem_map_of_mem hc)
  have hnames : (merging B).merger.getEventNames = (joined height (blocksOf B)).names :=
    (getEventNames_of_named hB hnamed).trans (joined_blocksOf_names height B).symm
  have hrows : (merging B).merger.data = (joined height (blocksOf B)).rows := by
    rw [hbuilt.data, if_neg hne]
  unfold BenchmarkResultsMerger.source
  rw [hnames, hrows]
  exact ⟨⟨joined_height (blocksOf_height hB), joined_rectangular (blocksOf_rectangular hB)⟩, rfl⟩

/-- A merger with names can be merged as one source. -/
theorem composes_of_named (hA : ∀ c ∈ A, c.Rectangle height) (hB : ∀ c ∈ B, c.Rectangle height)
    (pre : JavaString) (hnamed : AddsNames B) : Composes A B pre := by
  obtain ⟨hsource, hblock⟩ := source_rectangle hB hnamed pre
  obtain ⟨m, happly, hbuilt⟩ := (merging_built hA).apply (blocksOf_height hA)
    (blocksOf_rectangular hA) hsource
  have hone : ∀ c ∈ A ++ B.map (MergerCall.prefixed pre), c.Rectangle height :=
    List.forall_mem_append.mpr
      ⟨hA, List.forall_mem_map.mpr fun c hc => (hB c hc).prefixed pre⟩
  have hone := merging_built hone
  have hblocks : blocksOf (B.map (MergerCall.prefixed pre)) =
      (blocksOf B).map (Block.rename (javaConcat pre)) := by
    unfold blocksOf
    rw [List.map_map, List.map_map]
    apply List.map_congr_left
    intro c hc
    exact MergerCall.prefixed_block pre c
  have hjoined : joined height (blocksOf A ++
        [(MergerCall.addColumns (merging B).merger.source pre).block .new]) =
      joined height (blocksOf (A ++ B.map (MergerCall.prefixed pre))) := by
    rw [joined_snoc hsource.length_rows, hblock, ← joined_rename, ← hblocks, ← joined_append]
    · rw [blocksOf, blocksOf, blocksOf, List.map_append]
    · rw [hblocks]
      exact List.forall_mem_map.mpr fun b hb => blocksOf_height hB b hb
  have hne : blocksOf (A ++ B.map (MergerCall.prefixed pre)) ≠ [] := by
    obtain ⟨c, hc, -⟩ := hnamed
    have hmem : c.prefixed pre ∈ A ++ B.map (MergerCall.prefixed pre) :=
      List.mem_append_right _ (List.mem_map_of_mem hc)
    exact List.ne_nil_of_mem (List.mem_map_of_mem hmem)
  have hevents : m.events = (merging (A ++ B.map (MergerCall.prefixed pre))).merger.events := by
    rw [hbuilt.events, hone.events, hjoined]
  refine ⟨m, happly, ?_, ?_⟩
  · unfold BenchmarkResultsMerger.getEventNames
    rw [hevents]
  · rw [hbuilt.data, hone.data, if_neg hne, hjoined,
      if_neg (List.append_ne_nil_of_right_ne_nil _ (List.cons_ne_nil _ _))]

theorem addColumns_events {m m' : BenchmarkResultsMerger} {results : MergerSource}
    {pre : JavaString} (h : m.addColumns results pre = (m', .ok ())) :
    m'.events = m.events ++ (results.getEventNames m).map (javaConcat pre) := by
  by_cases hrejected : m.events ≠ [] ∧ m.data.length ≠ (results.getData m).length
  · rw [addColumns_rejected pre hrejected] at h
    cases h
  · by_cases hfits : ∀ i < (m.sized (results.getData m)).length,
        RowFits (mergedWidth m results) m.data (results.getData m) i
    · rw [addColumns_returns pre hrejected hfits] at h
      cases h
      rfl
    · obtain ⟨i, hi, hunfit, hbefore⟩ := exists_first_unfit hfits
      rw [addColumns_throws pre hrejected hi hunfit hbefore] at h
      cases h

theorem events_of_unnamed (hA : ∀ c ∈ A, c.Rectangle height) (hB : ∀ c ∈ B, c.Rectangle height)
    {pre : JavaString} (hnamed : ¬ AddsNames B) {m : BenchmarkResultsMerger}
    (hm : (merging A).merger.addColumns (merging B).merger.source pre = (m, .ok ())) :
    m.getEventNames = A.flatMap addedNames ++ [javaConcat pre none] := by
  have hevents : m.events = (merging A).merger.events ++ [javaConcat pre none] := by
    have hnames : (merging B).merger.source.getEventNames (merging A).merger = [none] :=
      getEventNames_of_unnamed hB hnamed
    rw [addColumns_events hm, hnames]
    rfl
  have hlength : ¬ m.events.length < 1 := by
    rw [hevents, List.length_append, List.length_singleton]
    omega
  rw [BenchmarkResultsMerger.getEventNames, if_neg hlength, hevents, events_eq hA]

theorem flatMap_prefixed (pre : JavaString) (calls : List MergerCall) :
    (calls.map (MergerCall.prefixed pre)).flatMap addedNames =
      (calls.flatMap addedNames).map (javaConcat pre) := by
  rw [List.flatMap_map, List.map_flatMap]
  apply List.flatMap_congr
  intro c hc
  exact congrArg Block.names (MergerCall.prefixed_block pre c)

theorem not_composes_of_unnamed (hA : ∀ c ∈ A, c.Rectangle height)
    (hB : ∀ c ∈ B, c.Rectangle height) (pre : JavaString) (hnamed : ¬ AddsNames B) :
    ¬ Composes A B pre := by
  rintro ⟨m, hm, hshown, -⟩
  rw [events_of_unnamed hA hB hnamed hm] at hshown
  have hall : ∀ c ∈ A ++ B.map (MergerCall.prefixed pre), c.Rectangle height :=
    List.forall_mem_append.mpr
      ⟨hA, List.forall_mem_map.mpr fun c hc => (hB c hc).prefixed pre⟩
  have hnilB := not_not.mp (mt addsNames_iff.mpr hnamed)
  have hnames : (A ++ B.map (MergerCall.prefixed pre)).flatMap addedNames =
      A.flatMap addedNames := by
    rw [List.flatMap_append, flatMap_prefixed, hnilB, List.map_nil, List.append_nil]
  by_cases hnamedA : AddsNames A
  · have hnamedAll : AddsNames (A ++ B.map (MergerCall.prefixed pre)) := by
      rw [addsNames_iff, hnames]
      exact addsNames_iff.mp hnamedA
    rw [getEventNames_of_named hall hnamedAll, hnames] at hshown
    have hlength := congrArg List.length hshown
    rw [List.length_append, List.length_singleton] at hlength
    omega
  · have hnilA := not_not.mp (mt addsNames_iff.mpr hnamedA)
    have hunnamedAll : ¬ AddsNames (A ++ B.map (MergerCall.prefixed pre)) := by
      rw [addsNames_iff, hnames]
      exact not_not.mpr hnilA
    rw [getEventNames_of_unnamed hall hunnamedAll, hnilA] at hshown
    cases hshown

theorem not_mergesNothing (hA : ∀ c ∈ A, c.Rectangle height) (hB : ∀ c ∈ B, c.Rectangle height)
    (pre : JavaString) (hnamedA : ¬ AddsNames A) (hnamedB : ¬ AddsNames B) :
    ¬ MergesNothing A B pre := by
  rintro ⟨m, hm, hshown, -⟩
  rw [events_of_unnamed hA hB hnamedB hm, getEventNames_of_unnamed hA hnamedA,
    not_not.mp (mt addsNames_iff.mpr hnamedA)] at hshown
  cases hshown

/-- Mergers of sources of one height.  To merge a merger is to merge its sources exactly if it
has a name; a merger shows its names exactly if it has one and none is `null`; and to merge a
merger without names is never without a change. -/
theorem mergers_compose_iff (height : ℕ) (A B : List MergerCall) (pre : JavaString)
    (hA : ∀ c ∈ A, c.Rectangle height) (hB : ∀ c ∈ B, c.Rectangle height) :
    (Composes A B pre ↔ AddsNames B) ∧
      (ShowsNames A ↔ AddsNames A ∧ none ∉ A.flatMap addedNames) ∧
      ((¬ AddsNames A → ¬ AddsNames B → MergesNothing A B pre) ↔ AddsNames A ∨ AddsNames B) := by
  refine ⟨⟨?_, composes_of_named hA hB pre⟩, showsNames_iff hA, ?_⟩
  · intro hcomposes
    by_contra hnamed
    exact not_composes_of_unnamed hA hB pre hnamed hcomposes
  · constructor
    · intro hnothing
      by_contra hnamed
      obtain ⟨hnamedA, hnamedB⟩ := not_or.mp hnamed
      exact not_mergesNothing hA hB pre hnamedA hnamedB (hnothing hnamedA hnamedB)
    · intro hnamed hnamedA hnamedB
      exact (hnamed.elim hnamedA hnamedB).elim

/-- Two columns, and the merger of another two. -/
theorem mergers_compose_two :
    Composes [.addColumn [1, 2] (some "A")]
        [.addColumns (.columns ⟨[], [[], []]⟩) (some "x:"), .addColumn [3, 4] (some "B")]
        (some "y:") ∧
      ShowsNames [.addColumn [1, 2] (some "A")] := by
  have h := mergers_compose_iff 2 [.addColumn [1, 2] (some "A")]
    [.addColumns (.columns ⟨[], [[], []]⟩) (some "x:"), .addColumn [3, 4] (some "B")] (some "y:")
    (by simp [MergerCall.Rectangle]) (by simp [MergerCall.Rectangle])
  refine ⟨h.1.mpr ⟨.addColumn [3, 4] (some "B"), ?_, ?_⟩,
    h.2.1.mpr ⟨⟨.addColumn [1, 2] (some "A"), ?_, ?_⟩, ?_⟩⟩ <;> decide

/-- Two new mergers: the one shows a `null`, and is merged as a column. -/
theorem not_composes_new :
    ¬ Composes [] [] (some "p") ∧ ¬ ShowsNames [] ∧ ¬ MergesNothing [] [] (some "p") := by
  refine ⟨?_, ?_, ?_⟩
  · rintro ⟨m, hm, hshown, -⟩
    cases hm
    cases hshown
  · rintro ⟨hshown, -⟩
    cases hshown
  · rintro ⟨m, hm, hshown, -⟩
    cases hm
    cases hshown

end Composition

end UbenchAgent
