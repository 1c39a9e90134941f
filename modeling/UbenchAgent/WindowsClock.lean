import UbenchAgent.Lib.WrappedQuotient

/-!
# The wall clock on Windows

Without `HAS_TIMESPEC` and with `HAS_QUERY_PERFORMANCE_COUNTER` a timestamp is a number of
ticks, which the getters convert to nanoseconds.  They multiply by 10^9 before they divide by
the frequency, so the product may wrap although the result would fit.
-/

namespace UbenchAgent.Windows

/-- The field of `ubench_events_snapshot_t` that the getters of the wall clock read: a
`LARGE_INTEGER`, of which they use `QuadPart`. -/
structure EventsSnapshot where
  timestamp : Int64
  deriving DecidableEq, Repr

/-- `timestamp_diff_ns`; `frequency` is `windows_timer_frequency`. -/
def timestampDiffNs (frequency a b : Int64) : Int64 :=
  if frequency = 0 then -1 else (b - a) * 1000 * 1000 * 1000 / frequency

def getterWallClockTime (frequency : Int64) (start stop : EventsSnapshot) : Int64 :=
  timestampDiffNs frequency start.timestamp stop.timestamp

def getterRawWallClockTime (frequency : Int64) (value : EventsSnapshot) : Int64 :=
  if frequency = 0 then -1 else value.timestamp * 1000 * 1000 * 1000 / frequency

/-- The nanoseconds of some ticks, rounded down. -/
def nanoseconds (frequency ticks : ℤ) : ℤ := ticks * 10 ^ 9 / frequency

def DiffExact (frequency a b : Int64) : Prop :=
  nanoseconds frequency.toInt (b.toInt - a.toInt) < 2 ^ 63 →
    (timestampDiffNs frequency a b).toInt = nanoseconds frequency.toInt (b.toInt - a.toInt)

def RawExact (frequency a : Int64) : Prop :=
  nanoseconds frequency.toInt a.toInt < 2 ^ 63 →
    (getterRawWallClockTime frequency ⟨a⟩).toInt = nanoseconds frequency.toInt a.toInt

section Conversion

variable {frequency : Int64}

/-- Ticks that are not negative are converted exactly only if their product with 10^9 fits. -/
theorem toInt_conversion_iff (hf : 0 < frequency.toInt) {ticks : Int64} (hticks : 0 ≤ ticks.toInt) :
    (ticks * 1000 * 1000 * 1000 / frequency).toInt = nanoseconds frequency.toInt ticks.toInt ↔
      ticks.toInt * 10 ^ 9 < 2 ^ 63 := by
  have hne : frequency ≠ -1 := by
    rintro rfl
    revert hf
    decide
  have hproduct : (ticks * 1000 * 1000 * 1000).toInt = (ticks.toInt * 10 ^ 9).bmod (2 * 2 ^ 63) := by
    have hassoc : ticks * 1000 * 1000 * 1000 = ticks * 1000000000 := by grind
    rw [hassoc, Int64.toInt_mul]
    rfl
  rw [Int64.toInt_div_of_ne_right _ _ hne, hproduct, nanoseconds]
  have hlt := frequency.toInt_lt
  apply WrappedQuotient.tdiv_bmod_eq_iff
  · omega
  · exact hf
  · exact hlt

theorem frequency_ne_zero (hf : 0 < frequency.toInt) : frequency ≠ 0 := by
  rintro rfl
  revert hf
  decide

/-- Both conversions are exact as long as the products fit, or the results do not. -/
theorem conversions_exact_iff (frequency a b : Int64) (hf : 0 < frequency.toInt)
    (ha : 0 ≤ a.toInt) (hab : a.toInt ≤ b.toInt) :
    (DiffExact frequency a b ↔
      (nanoseconds frequency.toInt (b.toInt - a.toInt) < 2 ^ 63 →
        (b.toInt - a.toInt) * 10 ^ 9 < 2 ^ 63)) ∧
    (RawExact frequency a ↔
      (nanoseconds frequency.toInt a.toInt < 2 ^ 63 → a.toInt * 10 ^ 9 < 2 ^ 63)) := by
  have hsub : (b - a).toInt = b.toInt - a.toInt := by
    have hlt := b.toInt_lt
    rw [Int64.toInt_sub]
    apply Int.bmod_eq_of_le_mul_two <;> omega
  constructor
  · unfold DiffExact timestampDiffNs
    rw [if_neg (frequency_ne_zero hf), ← hsub, toInt_conversion_iff hf (by omega)]
  · unfold RawExact getterRawWallClockTime
    rw [if_neg (frequency_ne_zero hf), toInt_conversion_iff hf ha]

end Conversion

/-- At 10 MHz, 1000 seconds come out negative. -/
theorem not_diffExact_thousand_seconds :
    timestampDiffNs 10000000 0 10000000000 = -844674407370 ∧
      nanoseconds 10000000 10000000000 = 1000000000000 ∧
      ¬ DiffExact 10000000 0 10000000000 ∧ ¬ RawExact 10000000 10000000000 := by
  refine ⟨by decide, by decide, ?_, ?_⟩
  · intro h
    have hexact := h (by decide)
    revert hexact
    decide
  · intro h
    have hexact := h (by decide)
    revert hexact
    decide

/-- At 10 MHz, one second is exact, from one second on. -/
theorem conversions_exact_one_second :
    DiffExact 10000000 10000000 20000000 ∧ RawExact 10000000 10000000 := by
  obtain ⟨hdiff, hraw⟩ :=
    conversions_exact_iff 10000000 10000000 20000000 (by decide) (by decide) (by decide)
  exact ⟨hdiff.mpr fun _ => by decide, hraw.mpr fun _ => by decide⟩

end UbenchAgent.Windows
