/-
This file proves what moving back in time does to the order of instants. A leap
second is counted apart from the second it belongs to, so that arithmetic on
instants is not arithmetic on one number; but a positive span always leads to an
earlier instant.
-/

import CiTelemetry.Time.Instant

namespace CiTelemetry

namespace Instant

variable {first second third : Instant}

/-- An instant that there is: within a leap second the nanoseconds stay below two whole
seconds. -/
def IsReal (instant : Instant) : Prop :=
  instant.nanos < 2 * nanosPerSecond

instance (instant : Instant) : Decidable instant.IsReal :=
  inferInstanceAs (Decidable (_ < _))

/-! ### Order -/

theorem before_iff :
    first.before second = true ↔
      first.seconds < second.seconds ∨
        first.seconds = second.seconds ∧ first.nanos < second.nanos := by
  simp [before]

theorem notAfter_iff :
    first.notAfter second = true ↔
      first.seconds < second.seconds ∨
        first.seconds = second.seconds ∧ first.nanos ≤ second.nanos := by
  rw [notAfter, Bool.not_eq_true', Bool.eq_false_iff, Ne, before_iff]
  omega

theorem notAfter_refl (instant : Instant) : instant.notAfter instant = true :=
  notAfter_iff.mpr (.inr ⟨rfl, Nat.le_refl _⟩)

theorem notAfter_of_before (earlier : first.before second = true) :
    first.notAfter second = true := by
  rw [before_iff] at earlier
  rw [notAfter_iff]
  omega

theorem before_of_notAfter_of_before (early : first.notAfter second = true)
    (late : second.before third = true) : first.before third = true := by
  rw [notAfter_iff] at early
  rw [before_iff] at late ⊢
  omega

theorem notAfter_trans (early : first.notAfter second = true)
    (late : second.notAfter third = true) : first.notAfter third = true := by
  rw [notAfter_iff] at early late ⊢
  omega

theorem notAfter_latest_right (first second : Instant) :
    second.notAfter (latest first second) = true := by
  unfold latest
  split
  · exact notAfter_refl second
  · next notEarlier =>
    rw [before_iff] at notEarlier
    rw [notAfter_iff]
    omega

/-- Of two instants one is before the other or is not after it. -/
theorem notAfter_iff_not_before : first.notAfter second = true ↔ second.before first = false := by
  rw [notAfter, Bool.not_eq_true']

/-! ### Moving back -/

theorem tdiv_neg_span {span : Int} (positive : 0 < span) :
    Int.tdiv (-span) nanosPerSecond = -(span / 1000000000) := by
  rw [Int.neg_tdiv, Int.tdiv_eq_ediv_of_nonneg (Int.le_of_lt positive)]
  rfl

theorem tmod_neg_span {span : Int} (positive : 0 < span) :
    Int.tmod (-span) nanosPerSecond = -(span % 1000000000) := by
  rw [Int.neg_tmod, Int.tmod_eq_emod_of_nonneg (Int.le_of_lt positive)]
  rfl

/-- A positive span leads to an earlier instant, and to one that there is. -/
theorem back_before {instant : Instant} {span : Int} (real : instant.IsReal)
    (positive : 0 < span) :
    (instant.back span).before instant = true ∧ (instant.back span).IsReal := by
  unfold IsReal at real ⊢
  rw [before_iff, back, add, tdiv_neg_span positive, tmod_neg_span positive]
  simp only [Bool.or_eq_true, Bool.and_eq_true, decide_eq_true_eq, carried, nanosPerSecond]
    at real ⊢
  split
  · split
    · omega
    · split
      · dsimp only
        omega
      · dsimp only
        omega
  · dsimp only
    omega

end Instant

end CiTelemetry
