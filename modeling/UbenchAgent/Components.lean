import UbenchAgent.Table

/-!
# The component check

All PAPI events of an event set are to be of one component.  The event loop compares each
of them with the one before it only, and only once two ids are registered.  That is enough:
while one id is registered all PAPI events have that id, and PAPI tells the component by it.
-/

namespace UbenchAgent

/-- What the check is to do in a loop over `names` that ends in `stage`. -/
structure ComponentsChecked (hasPapi : Bool) (papi : PapiLibrary) (names : List String)
    (stage : Stage) : Prop where
  throws_iff : stage.thrown = some .papiComponentsDiffer ↔
    ∃ name ∈ names, ∃ name' ∈ names, isPapiName hasPapi papi name = true ∧
      isPapiName hasPapi papi name' = true ∧
      (eventOf hasPapi papi name).papiComponent ≠ (eventOf hasPapi papi name').papiComponent
  component : stage.thrown = none → ∀ name ∈ names, isPapiName hasPapi papi name = true →
    (eventOf hasPapi papi name).papiComponent = stage.config.papiComponent

section Check

variable {hasPapi : Bool} {o : SetupOutcomes} {config : BenchmarkConfiguration}

theorem resolveEvents_thrown_cases {names : List String}
    (hrec : ∀ name ∈ names, recognized hasPapi o.papi name = true) (i : ℕ)
    (ledger : Ledger Resource) :
    (resolveEvents hasPapi o i names config ledger).thrown = none ∨
      (resolveEvents hasPapi o i names config ledger).thrown = some .papiComponentsDiffer := by
  induction names generalizing i config ledger with
  | nil => exact .inl rfl
  | cons name rest ih =>
    obtain ⟨hname, hrest⟩ := List.forall_mem_cons.mp hrec
    rw [resolveEvents_recognized hname]
    dsimp only
    split_ifs with hdiffer
    · exact .inr rfl
    · exact ih hrest _ _

theorem not_sameComponent_iff {papi : PapiLibrary} {names : List String} :
    ¬ SameComponent hasPapi papi names ↔
      ∃ name ∈ names, ∃ name' ∈ names, isPapiName hasPapi papi name = true ∧
        isPapiName hasPapi papi name' = true ∧
        (eventOf hasPapi papi name).papiComponent ≠
          (eventOf hasPapi papi name').papiComponent := by
  unfold SameComponent
  push Not
  rfl

variable {size : ℕ} {args : CreateArgs} {ledger : Ledger Resource}

/-- The check is exact, for any number of recognized names. -/
theorem loopStage_componentsChecked
    (hrec : ∀ name ∈ args.jeventNames, recognized hasPapi o.papi name = true) :
    ComponentsChecked hasPapi o.papi args.jeventNames
      (loopStage hasPapi o size args config ledger) := by
  have hthrown : (loopStage hasPapi o size args config ledger).thrown = none ↔
      SameComponent hasPapi o.papi args.jeventNames :=
    loopStage_thrown.trans (and_iff_right hrec)
  refine ⟨?_, fun hok => (loopStage_inv hok).component⟩
  rw [← not_sameComponent_iff, ← hthrown]
  have hcases : (loopStage hasPapi o size args config ledger).thrown = none ∨
      (loopStage hasPapi o size args config ledger).thrown = some .papiComponentsDiffer :=
    resolveEvents_thrown_cases hrec 0 _
  rcases hcases with hok | hdiffer
  · rw [hok]
    exact iff_of_false (Option.some_ne_none _).symm (not_not.mpr rfl)
  · rw [hdiffer]
    exact iff_of_true rfl (Option.some_ne_none _)

end Check

/-- A PAPI whose events alternate between two components. -/
def PapiLibrary.alternating : PapiLibrary where
  eventNameToCode := fun name => (papiOk, Int32.ofNat name.toList.length)
  getEventInfo := fun code => (papiOk, ⟨code % 2, 1⟩)
  isPreset := fun _ => false

def SetupOutcomes.alternating : SetupOutcomes :=
  { CreateOutcomes.success.toSetupOutcomes with papi := .alternating }

def CreateArgs.alternating : CreateArgs := ⟨1, ["A", "SYS:thread-time", "BB", "CCC"], []⟩

theorem componentsChecked_alternating :
    ComponentsChecked true .alternating CreateArgs.alternating.jeventNames
        (loopStage true .alternating 2 .alternating CreateOutcomes.success.fresh .empty) ∧
      (loopStage true .alternating 2 .alternating CreateOutcomes.success.fresh .empty).thrown =
        some .papiComponentsDiffer := by
  have hrec : ∀ name ∈ CreateArgs.alternating.jeventNames,
      recognized true SetupOutcomes.alternating.papi name = true := by decide
  exact ⟨loopStage_componentsChecked hrec, by decide⟩

end UbenchAgent
