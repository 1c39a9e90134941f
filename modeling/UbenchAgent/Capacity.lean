import UbenchAgent.Table

/-!
# The check of the measurement count

`createEventSet` doubles the requested count and then checks the doubled one.  The doubling
wraps at 2^32, so the check lets through a part of the negative counts.
-/

namespace UbenchAgent

/-- The counts that are to be accepted: the positive ones whose double is an `int`. -/
def RequestFits (measurements : Int32) : Prop :=
  1 ≤ measurements.toInt ∧ 2 * measurements.toInt ≤ 2 ^ 31 - 1

/-- The doubled count is positive if the count fits, and also if it wraps back from below. -/
theorem doubled_pos_iff (measurements : Int32) :
    0 < measurements * 2 ↔ RequestFits measurements ∨
      -2 ^ 31 < measurements.toInt ∧ measurements.toInt < -2 ^ 30 := by
  have hmul : (measurements * 2).toInt = (measurements.toInt * 2).bmod (2 ^ 32) :=
    Int32.toInt_mul _ _
  have hlt := measurements.toInt_lt
  have hle := measurements.le_toInt
  have hpos : 0 < measurements * 2 ↔ 0 < (measurements * 2).toInt := Int32.lt_iff_toInt_lt
  rw [Int.bmod_def] at hmul
  rw [hpos]
  unfold RequestFits
  omega

/-- What is asked of the check of the count: a count that fits is accepted and the log of the
new event set has twice as many slots, and every other count is rejected and no event set
becomes live. -/
structure CountValidated (hasPapi : Bool) (a : Agent) (args : CreateArgs) (o : CreateOutcomes) :
    Prop where
  accepts : RequestFits args.jmeasurements → ∃ a' id config,
    createEventSet hasPapi a args o = (a', .ok id) ∧ a.validConfig id = none ∧
      a'.validConfig id = some config ∧ (config.dataSize : ℤ) = 2 * args.jmeasurements.toInt
  rejects : ¬ RequestFits args.jmeasurements → ∃ a' e,
    createEventSet hasPapi a args o = (a', .error e) ∧
      ∀ id, a'.validConfig id = a.validConfig id

section Count

variable {hasPapi : Bool} {a : Agent} {args : CreateArgs} {o : CreateOutcomes}

theorem createEventSet_fits (hfits : RequestFits args.jmeasurements)
    (h : Accepted hasPapi a args o) : ∃ a' id config,
      createEventSet hasPapi a args o = (a', .ok id) ∧ a.validConfig id = none ∧
        a'.validConfig id = some config ∧
        (config.dataSize : ℤ) = 2 * args.jmeasurements.toInt := by
  obtain ⟨a', config, heq, hcreated, hset, -⟩ := createEventSet_accepted h
  refine ⟨a', a.freeSlot, config, heq, validConfig_freeSlot a, by rw [hset, if_pos rfl], ?_⟩
  have hone : 1 ≤ args.jmeasurements := Int32.le_iff_toInt_le.mpr hfits.1
  have hsize := (size_spec h.measurements).2.2 hone
  have hpos := hfits.1
  rw [hcreated.dataSize]
  omega

/-- With supported events, and allocations and PAPI calls that succeed, the count is validated
exactly unless it wraps back from below. -/
theorem countValidated_iff (hevents : args.jeventNames ≠ []) (hroom : HasRoom a o)
    (hconfigurable : Configurable hasPapi args o.toSetupOutcomes) :
    CountValidated hasPapi a args o ↔
      -2 ^ 30 ≤ args.jmeasurements.toInt ∨ args.jmeasurements.toInt = -2 ^ 31 := by
  have hle := args.jmeasurements.le_toInt
  constructor
  · intro h
    by_contra hwraps
    have hbelow : -2 ^ 31 < args.jmeasurements.toInt ∧ args.jmeasurements.toInt < -2 ^ 30 := by
      omega
    have hpos := (doubled_pos_iff args.jmeasurements).mpr (.inr hbelow)
    obtain ⟨a₁, e, hthrown, -⟩ := h.rejects (by unfold RequestFits; omega)
    obtain ⟨a₂, config, heq, -⟩ := createEventSet_accepted ⟨hpos, hevents, hroom, hconfigurable⟩
    rw [hthrown] at heq
    cases congrArg Prod.snd heq
  · intro hnot
    refine ⟨fun hfits => ?_, fun hfits => ?_⟩
    · have hpos := (doubled_pos_iff args.jmeasurements).mpr (.inl hfits)
      exact createEventSet_fits hfits ⟨hpos, hevents, hroom, hconfigurable⟩
    · apply createEventSet_rejected
      intro haccepted
      rcases (doubled_pos_iff args.jmeasurements).mp haccepted.measurements with hpos | hwraps
      · exact hfits hpos
      · omega

end Count

/-- -2^31 + 1 measurements: the doubled count wraps to 2. -/
theorem not_countValidated_wraps :
    (∃ a' config, createEventSet false .initial (.wallclock (-2147483647)) .success = (a', .ok 0) ∧
      a'.validConfig 0 = some config ∧ config.dataSize = 2) ∧
    ¬ CountValidated false .initial (.wallclock (-2147483647)) .success := by
  have hcreated : ∃ a' config,
      createEventSet false .initial (.wallclock (-2147483647)) .success = (a', .ok 0) ∧
        a'.validConfig 0 = some config ∧ config.dataSize = 2 :=
    ⟨_, _, rfl, rfl, rfl⟩
  refine ⟨hcreated, fun h => ?_⟩
  obtain ⟨a', config, heq, -⟩ := hcreated
  obtain ⟨a₁, e, hthrown, -⟩ := h.rejects (by unfold RequestFits; decide)
  rw [heq] at hthrown
  cases congrArg Prod.snd hthrown

/-- Three measurements of the wall clock. -/
theorem countValidated_three : CountValidated true .initial (.wallclock 3) .success := by
  have haccepted := accepted_wallclock true .initial 3 (by decide)
  exact (countValidated_iff haccepted.events haccepted.room haccepted.configurable).mpr
    (.inl (by decide))

end UbenchAgent
