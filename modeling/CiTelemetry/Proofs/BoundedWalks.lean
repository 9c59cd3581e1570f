/-
This file proves how far back windows can be computed. Going back must not lead
past the first instant: a window can be computed if its span is not longer than
the time since then, and a walk back if that time holds as many whole intervals
as the walk has windows, as its last window takes a whole interval even where it
is cut at the floor. What is computed is the walk over instants without bounds.
-/

import CiTelemetry.Proofs.WindowTiling
import CiTelemetry.Time.Range

namespace CiTelemetry

/-! ### Going back within the bounds -/

namespace Instant

variable {now instant floor : Instant} {span : Int}

/-- The nanoseconds since the first instant there is. -/
def reach (instant : Instant) : Int :=
  instant.position - secondBounds.1 * nanosPerSecond

theorem isInBounds_iff :
    instant.isInBounds = true ↔
      secondBounds.1 ≤ instant.seconds ∧ instant.seconds ≤ secondBounds.2 := by
  simp [isInBounds]

theorem reach_nonneg (bounded : instant.isInBounds) : 0 ≤ instant.reach := by
  have first := (isInBounds_iff.mp bounded).1
  unfold reach position nanosPerSecond
  omega

theorem reach_back (real : instant.IsReal) (positive : 0 < span) :
    (instant.back span).reach = instant.reach - span := by
  rw [reach, (position_back real positive).1, reach]
  omega

/-- Going back stays within the bounds as long as the span does not exceed the time since the first
instant. -/
theorem isInBounds_back_iff (real : instant.IsReal) (bounded : instant.isInBounds)
    (positive : 0 < span) : (instant.back span).isInBounds = true ↔ span ≤ instant.reach := by
  have reached := reach_back real positive
  have leap := (position_back real positive).2
  obtain ⟨earlier, stillReal⟩ := back_before real positive
  rw [before_iff] at earlier
  rw [isInBounds_iff] at bounded ⊢
  unfold reach position at reached
  unfold InLeapSecond at leap
  unfold IsReal at stillReal
  unfold reach position
  unfold nanosPerSecond at *
  omega

theorem back?_eq (real : instant.IsReal) (bounded : instant.isInBounds) (positive : 0 < span) :
    instant.back? span = if span ≤ instant.reach then some (instant.back span) else none :=
  if_congr (isInBounds_back_iff real bounded positive) rfl rfl

end Instant

theorem SyncWindow.trailing?_eq {now : Instant} {span : Int} (real : now.IsReal)
    (bounded : now.isInBounds) (positive : 0 < span) :
    trailing? now span = if span ≤ now.reach then some (trailing now span) else none := by
  rw [trailing?, Instant.back?_eq real bounded positive]
  split <;> rfl

/-! ### The walk back -/

/-- At the floor there is nothing left to walk back over. -/
theorem catchUpWindow?_floor (interval : Int) (floor : Instant) :
    catchUpWindow? interval floor floor = none := by
  rw [catchUpWindow?, Instant.notAfter_refl]
  rfl

theorem catchUpWindows?_floor (limit : Nat) (interval : Int) (floor : Instant) :
    catchUpWindows? limit floor interval floor = some [] ∧
      catchUpWindows limit floor interval floor = [] := by
  cases limit with
  | zero => exact ⟨rfl, rfl⟩
  | succ limit =>
    rw [catchUpWindows?, catchUpWindows, catchUpWindow?_floor]
    exact ⟨rfl, rfl⟩

/-- The windows of a walk can be computed as long as so many whole intervals fit into the time since
the first instant. -/
theorem catchUpWindows?_eq {now : Instant} {interval : Int} (limit : Nat) (floor : Instant)
    (real : now.IsReal) (bounded : now.isInBounds) (positive : 0 < interval) :
    catchUpWindows? limit now interval floor =
      if (catchUpWindows limit now interval floor).length * interval ≤ now.reach then
        some (catchUpWindows limit now interval floor) else none := by
  have noWindow {instant : Instant} (isBounded : instant.isInBounds) :
      ([] : List SyncWindow).length * interval ≤ instant.reach := by
    rw [List.length_nil, Nat.cast_zero, zero_mul]
    exact Instant.reach_nonneg isBounded
  induction limit generalizing now with
  | zero => exact (if_pos (noWindow bounded)).symm
  | succ limit inductionHypothesis =>
    rw [catchUpWindows?, catchUpWindows]
    cases found : catchUpWindow? interval floor now with
    | none => exact (if_pos (noWindow bounded)).symm
    | some window =>
      have oneMore (rest : List SyncWindow) :
          (window :: rest).length * interval = rest.length * interval + interval := by
        rw [List.length_cons, Nat.cast_succ, add_mul, one_mul]
      have notNegative (rest : List SyncWindow) : 0 ≤ rest.length * interval :=
        mul_nonneg (Nat.cast_nonneg _) positive.le
      simp only [Instant.back?_eq real bounded positive, oneMore]
      by_cases fits : interval ≤ now.reach
      · rw [if_pos fits]
        rcases WindowTiling.start_of_found found with ⟨_, rfl⟩ | ⟨_, rfl⟩
        · have stillBounded := (Instant.isInBounds_back_iff real bounded positive).mpr fits
          have rest := inductionHypothesis (Instant.back_before real positive).2 stillBounded
          rw [Instant.reach_back real positive] at rest
          simp only [Option.bind_eq_bind, Option.bind_some, rest]
          split
          · next within => exact (if_pos (by omega)).symm
          · next beyond => exact (if_neg (by omega)).symm
        · obtain ⟨checked, unchecked⟩ := catchUpWindows?_floor limit interval floor
          simp only [Option.bind_eq_bind, Option.bind_some, checked, unchecked]
          exact (if_pos (by simpa using fits)).symm
      · rw [if_neg fits]
        have := notNegative (catchUpWindows limit window.start interval floor)
        exact (if_neg (by omega)).symm

end CiTelemetry
