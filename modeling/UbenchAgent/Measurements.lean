import UbenchAgent.Table
import UbenchAgent.Lib.Brackets

/-!
# Measurements

A measurement is a `start`, samples and a `stop`.  Here are the two results about runs of
measurements on a created event set: for which numbers of samples no row of `getResults`
mixes two measurements, and what the rows of the documented loop of `start` and `stop`
are.
-/

namespace UbenchAgent

open Brackets RewindLog

structure Measurement where
  start : Reading
  samples : List (Int32 × Reading)
  stop : Reading

def Measurement.labelled (i : ℕ) (m : Measurement) : List (ℕ × SetCall) :=
  (i, .start m.start) :: m.samples.map (fun x => (i, .sample x.1 x.2)) ++ [(i, .stop m.stop)]

/-- The calls of measurements one after another, each labelled with the number of its
measurement. -/
def labelledCalls (ms : List Measurement) : List (ℕ × SetCall) :=
  ms.zipIdx.flatMap fun x => x.1.labelled x.2

/-- The measurements stay inside the array, and each row of `getResults` is computed from
a snapshot that the `start` and one that the `stop` of the same measurement wrote. -/
def RowsUnmixed (config : BenchmarkConfiguration) (ms : List Measurement) : Prop :=
  ∃ config' writer pairs, performAll config (labelledCalls ms) = .ok (config', writer) ∧
    resultPairs config' = .ok pairs ∧
    ∀ p ∈ pairs, ∃ i r r', writer p.1 = some (i, .start r) ∧ writer p.2 = some (i, .stop r')

def Measurement.bracket (i : ℕ) (m : Measurement) : Bracket (ℕ × SetCall) where
  start := (i, .start m.start)
  samples := m.samples.map fun x => (i, .sample x.1 x.2)
  stop := (i, .stop m.stop)

abbrev isStart (x : ℕ × SetCall) : Bool := x.2.type == snapshotTypeStart

abbrev isEnd (x : ℕ × SetCall) : Bool := x.2.type == snapshotTypeEnd

theorem type_of_nonneg {userId : Int32} (h : 0 ≤ userId) :
    (userId == snapshotTypeStart) = false ∧ (userId == snapshotTypeEnd) = false := by
  constructor <;> rw [beq_eq_false_iff_ne] <;> rintro rfl <;> revert h <;> decide

theorem start_beq_end : (snapshotTypeStart == snapshotTypeEnd) = false := by decide

theorem end_beq_start : (snapshotTypeEnd == snapshotTypeStart) = false := by decide

theorem Measurement.bracket_valid {i : ℕ} {m : Measurement} (h : ∀ x ∈ m.samples, 0 ≤ x.1) :
    Valid isStart isEnd Prod.fst (m.bracket i) where
  start := rfl
  start_not_end := start_beq_end
  samples_not_start x hx := by
    obtain ⟨y, hy, rfl⟩ := List.mem_map.mp hx
    exact (type_of_nonneg (h y hy)).1
  samples_not_end x hx := by
    obtain ⟨y, hy, rfl⟩ := List.mem_map.mp hx
    exact (type_of_nonneg (h y hy)).2
  stop := rfl
  stop_not_start := end_beq_start
  samples_owner x hx := by
    obtain ⟨y, -, rfl⟩ := List.mem_map.mp hx
    rfl
  stop_owner := rfl

def brackets (ms : List Measurement) : List (Bracket (ℕ × SetCall)) :=
  ms.zipIdx.map fun x => x.1.bracket x.2

theorem acts_brackets (ms : List Measurement) :
    (labelledCalls ms).map (fun x => x.2.act x) = (brackets ms).flatMap Bracket.acts := by
  rw [labelledCalls, brackets, List.map_flatMap, List.flatMap_map]
  congr 1
  funext x
  simp [Measurement.labelled, Measurement.bracket, Bracket.acts, SetCall.act, Function.comp_def]

theorem brackets_owner (ms : List Measurement) :
    (brackets ms).Pairwise fun b b' => b.start.1 ≠ b'.start.1 := by
  have hnodup : (ms.zipIdx.map Prod.snd).Nodup := by
    rw [List.zipIdx_map_snd]
    exact List.nodup_range'
  rw [brackets, List.pairwise_map]
  exact List.pairwise_map.mp hnodup

theorem brackets_counts (ms : List Measurement) :
    (brackets ms).map (fun b => b.samples.length) = ms.map fun m => m.samples.length := by
  have hfun : (fun x : Measurement × ℕ => (x.1.bracket x.2).samples.length) =
      (fun m => m.samples.length) ∘ Prod.fst := by
    funext x
    simp [Measurement.bracket]
  rw [brackets, List.map_map]
  change ms.zipIdx.map (fun x => (x.1.bracket x.2).samples.length) = _
  rw [hfun, ← List.map_map, List.zipIdx_map_fst]

/-- Only a `start` writes a START among measurements whose ids are not negative, and only a
`stop` an END. -/
theorem mem_labelledCalls {ms : List Measurement} (hids : ∀ m ∈ ms, ∀ x ∈ m.samples, 0 ≤ x.1)
    {x : ℕ × SetCall} (hx : x ∈ labelledCalls ms) :
    (isStart x = true → ∃ r, x.2 = .start r) ∧ (isEnd x = true → ∃ r, x.2 = .stop r) := by
  obtain ⟨⟨m, i⟩, hmem, hx⟩ := List.mem_flatMap.mp hx
  have hm : m ∈ ms := (List.mem_zipIdx hmem).2.2 ▸ List.getElem_mem _
  simp only [Measurement.labelled, List.cons_append, List.mem_cons, List.mem_append,
    List.mem_map, List.not_mem_nil, or_false] at hx
  rcases hx with rfl | ⟨y, hy, rfl⟩ | rfl
  · exact ⟨fun _ => ⟨_, rfl⟩, fun h => absurd (start_beq_end.symm.trans h) Bool.false_ne_true⟩
  · obtain ⟨h₁, h₂⟩ := type_of_nonneg (hids m hm y hy)
    exact ⟨fun h => absurd (h₁.symm.trans h) Bool.false_ne_true,
      fun h => absurd (h₂.symm.trans h) Bool.false_ne_true⟩
  · exact ⟨fun h => absurd (end_beq_start.symm.trans h) Bool.false_ne_true, fun _ => ⟨_, rfl⟩⟩

section Unmixed

variable {hasPapi : Bool} {args : CreateArgs} {o : SetupOutcomes}
  {config : BenchmarkConfiguration} {ms : List Measurement}

theorem rowsUnmixed_iff_log (hcreated : Created hasPapi args o args.size config)
    (hmeas : 0 < args.jmeasurements * 2) (hids : ∀ m ∈ ms, ∀ x ∈ m.samples, 0 ≤ x.1) :
    RowsUnmixed config ms ↔
      ∃ l, RewindLog.run config.dataSize [] ((brackets ms).flatMap Bracket.acts) = some l ∧
        Unmixed isStart isEnd Prod.fst l := by
  have hshows := Shows.run (hcreated.logInv hmeas) (hcreated.shows (L := ℕ)) (labelledCalls ms)
  rw [acts_brackets] at hshows
  rcases hshows with ⟨config', writer, l, hrun, hlog, -, hs⟩ | ⟨e, hrun, hlog⟩
  · have hrec := (hcreated.recorded hmeas).run hrun
    have hpairs := hrec.resultPairs hs
    have hmem : ∀ x ∈ l, x ∈ labelledCalls ms := by
      intro x hx
      rw [← acts_brackets] at hlog
      rcases mem_run hlog hx with h | ⟨act, hact, hentry⟩
      · cases h
      · obtain ⟨y, hy, rfl⟩ := List.mem_map.mp hact
        have : y = x := by
          obtain ⟨i, call⟩ := y
          cases call <;> simp [SetCall.act, Act.entry] at hentry <;> exact hentry
        exact this ▸ hy
    constructor
    · rintro ⟨config₁, writer₁, pairs, hrun₁, hpairs₁, hall⟩
      obtain ⟨rfl, rfl⟩ : config' = config₁ ∧ writer = writer₁ := by
        have := hrun.symm.trans hrun₁
        simpa using this
      obtain rfl : _ = pairs := by
        have := hpairs.symm.trans hpairs₁
        simpa using this
      refine ⟨l, hlog, fun p hp x y hx hy => ?_⟩
      obtain ⟨i, r, r', h₁, h₂⟩ := hall p hp
      rw [hs.2 _ (List.getElem?_eq_some_iff.mp hx).1, hx] at h₁
      rw [hs.2 _ (List.getElem?_eq_some_iff.mp hy).1, hy] at h₂
      rw [Option.some.inj h₁, Option.some.inj h₂]
    · rintro ⟨l', hlog', hunmixed⟩
      obtain rfl : l = l' := Option.some.inj (hlog.symm.trans hlog')
      refine ⟨config', writer, _, hrun, hpairs, ?_⟩
      rintro ⟨s, e⟩ hp
      obtain ⟨hstart, -, y, hy, hend⟩ := Pairing.mem_pairs hp
      rcases hstart with hnone | ⟨-, -, x, hx, hstart⟩
      · cases hnone
      · rw [Nat.sub_zero] at hx hy
        obtain ⟨r, hr⟩ := (mem_labelledCalls hids (hmem x (List.mem_of_getElem? hx))).1 hstart
        obtain ⟨r', hr'⟩ := (mem_labelledCalls hids (hmem y (List.mem_of_getElem? hy))).2 hend
        have howner := hunmixed (s, e) hp x y hx hy
        refine ⟨x.1, r, r', ?_, ?_⟩
        · rw [hs.2 _ (List.getElem?_eq_some_iff.mp hx).1, hx, ← hr]
        · rw [hs.2 _ (List.getElem?_eq_some_iff.mp hy).1, hy, ← hr', howner]
  · refine iff_of_false ?_ (fun ⟨l, hl, _⟩ => by rw [hlog] at hl; cases hl)
    rintro ⟨config₁, writer₁, pairs, hrun₁, -⟩
    have := hrun.symm.trans hrun₁
    cases this

end Unmixed

/-- On a created event set of `N` measurements, measurements with samples never mix in a row
exactly if their numbers of samples are such for `2 * N` slots. -/
theorem createEventSet_rowsUnmixed_iff {hasPapi : Bool} {a a' : Agent} {args : CreateArgs}
    {o : CreateOutcomes} {id : ℤ} {config : BenchmarkConfiguration} {ms : List Measurement}
    (hN : 1 ≤ args.jmeasurements) (hcreate : createEventSet hasPapi a args o = (a', .ok id))
    (hconfig : a'.validConfig id = some config)
    (hids : ∀ m ∈ ms, ∀ x ∈ m.samples, 0 ≤ x.1) :
    RowsUnmixed config ms ↔
      NeverMixes (2 * args.jmeasurements.toInt.toNat) (ms.map fun m => m.samples.length) := by
  obtain ⟨hacc, -, config₁, hc, hcreated, -⟩ := createEventSet_created hcreate
  obtain rfl : config = config₁ := Option.some.inj (hconfig.symm.trans hc)
  obtain ⟨htwo, -, hsize⟩ := size_spec hacc.measurements
  have hvalid : ∀ b ∈ [] ++ brackets ms, Valid isStart isEnd Prod.fst b := by
    intro b hb
    obtain ⟨⟨m, i⟩, hmem, rfl⟩ := List.mem_map.mp hb
    have hm : m ∈ ms := (List.mem_zipIdx hmem).2.2 ▸ List.getElem_mem _
    exact Measurement.bracket_valid (hids m hm)
  have hroom : (whole ([] : List (Bracket (ℕ × SetCall)))).length + args.size = args.size := by
    simp [whole]
  have hiff := run_brackets_iff hvalid (brackets_owner ms) hroom (by omega) htwo
  rw [rowsUnmixed_iff_log hcreated hacc.measurements hids, hcreated.dataSize, ← hsize hN,
    ← brackets_counts]
  exact hiff

/-- Two measurements of one sample each in an event set of two: the second sample is written
over the first `stop`, and the only row pairs the first `start` with the second `stop`. -/
theorem not_rowsUnmixed_two_samples :
    ∃ a' config, createEventSet false Agent.initial (.wallclock 2) .success = (a', .ok 0) ∧
      a'.validConfig 0 = some config ∧
      (∃ config' writer, performAll config (labelledCalls
          [⟨.zero, [(0, .zero)], .zero⟩, ⟨.zero, [(0, .zero)], .zero⟩]) = .ok (config', writer) ∧
        resultPairs config' = .ok [(0, 3)] ∧ writer 0 = some (0, .start .zero) ∧
        writer 3 = some (1, .stop .zero)) ∧
      ¬ RowsUnmixed config [⟨.zero, [(0, .zero)], .zero⟩, ⟨.zero, [(0, .zero)], .zero⟩] := by
  have hacc := accepted_wallclock false Agent.initial 2 (by decide)
  have hcreate := createEventSet_eq hacc
  obtain ⟨-, -, config, hc, hcreated, -⟩ := createEventSet_created hcreate
  have hsize : config.dataSize = 4 := hcreated.dataSize
  refine ⟨_, config, hcreate, hc, ?_⟩
  rcases Shows.run (hcreated.logInv hacc.measurements) (hcreated.shows (L := ℕ)) (labelledCalls
      [⟨.zero, [(0, .zero)], .zero⟩, ⟨.zero, [(0, .zero)], .zero⟩]) with
    ⟨config', writer, l, hrun, hlog, -, hs⟩ | ⟨e, -, hlog⟩
  · have hl : l = [(0, .start .zero), (0, .sample 0 .zero), (1, .sample 0 .zero),
        (1, .stop .zero)] := by
      rw [hsize] at hlog
      exact (Option.some.inj hlog).symm
    have hpairs := ((hcreated.recorded hacc.measurements).run hrun).resultPairs hs
    subst hl
    have h₀ : writer 0 = some (0, .start .zero) := hs.2 0 (by decide)
    have h₃ : writer 3 = some (1, .stop .zero) := hs.2 3 (by decide)
    refine ⟨⟨config', writer, hrun, hpairs, h₀, h₃⟩, ?_⟩
    rintro ⟨config₁, writer₁, pairs, hrun₁, hpairs₁, hall⟩
    obtain ⟨rfl, rfl⟩ : config' = config₁ ∧ writer = writer₁ := by
      have := hrun.symm.trans hrun₁
      simpa using this
    obtain rfl : _ = pairs := Except.ok.inj (hpairs.symm.trans hpairs₁)
    obtain ⟨i, r, r', hi, hi'⟩ := hall (0, 3) List.mem_cons_self
    have hzero : 0 = i := congrArg Prod.fst (Option.some.inj (h₀.symm.trans hi))
    have hone : 1 = i := congrArg Prod.fst (Option.some.inj (h₃.symm.trans hi'))
    omega
  · rw [hsize] at hlog
    cases hlog

/-- Two measurements that fit, and a third with two samples, do not mix in an event set of
two. -/
theorem rowsUnmixed_wallclock :
    ∃ config, (createEventSet false Agent.initial (.wallclock 2) .success).1.validConfig 0 =
        some config ∧
      RowsUnmixed config [⟨.zero, [], .zero⟩, ⟨.zero, [], .zero⟩,
        ⟨.zero, [(0, .zero), (1, .zero)], .zero⟩] := by
  have hcreate := createEventSet_eq (accepted_wallclock false Agent.initial 2 (by decide))
  obtain ⟨-, -, config, hc, -⟩ := createEventSet_created hcreate
  exact ⟨config, hc, (createEventSet_rowsUnmixed_iff (by decide) hcreate hc (by decide)).mpr
    (by decide)⟩

end UbenchAgent
