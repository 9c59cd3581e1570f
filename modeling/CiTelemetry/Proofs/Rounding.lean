/-
This file proves that rounding is exact where there is nothing to round: the
exact decimal numeral of a finite number is read back as that number. The place
of the highest binary digit of a ratio is characterised by the powers of two
that the ratio reaches, so that it can be told for a ratio whose value is known
without looking at how it is estimated.
-/

import CiTelemetry.Number.Decimal
import Mathlib.Tactic.Ring

namespace CiTelemetry

/-! ### Powers of two -/

theorem twoTo_add (first second : Nat) : twoTo (first + second) = twoTo first * twoTo second :=
  Nat.pow_add 2 first second

theorem twoTo_le_twoTo {first second : Nat} (le : first ≤ second) : twoTo first ≤ twoTo second :=
  Nat.pow_le_pow_right (by decide) le

namespace Binary64

/-! ### The powers of two that a ratio reaches -/

/-- Whether a ratio is at least a power of two. One of the two factors is always one. -/
def Reaches (numerator denominator : Nat) (exponent : Int) : Prop :=
  denominator * twoTo exponent.toNat ≤ numerator * twoTo (-exponent).toNat

section Reaching

variable {numerator denominator : Nat} {exponent other : Int}

/-- Both sides measured in the same small unit. -/
theorem reaches_iff (shift : Nat) (enough : 0 ≤ exponent + shift) :
    Reaches numerator denominator exponent ↔
      denominator * twoTo (exponent + shift).toNat ≤ numerator * twoTo shift := by
  unfold Reaches
  by_cases positive : 0 ≤ exponent
  · have none : (-exponent).toNat = 0 := by omega
    have sum : (exponent + shift).toNat = exponent.toNat + shift := by omega
    rw [none, sum, twoTo_add, ← Nat.mul_assoc, show twoTo 0 = 1 from rfl, Nat.mul_one]
    exact (Nat.mul_le_mul_right_iff (twoTo_pos shift)).symm
  · have none : exponent.toNat = 0 := by omega
    have sum : shift = (-exponent).toNat + (exponent + shift).toNat := by omega
    conv_rhs => rw [sum, twoTo_add, ← Nat.mul_assoc]
    rw [none, show twoTo 0 = 1 from rfl, Nat.mul_one, ← sum]
    exact (Nat.mul_le_mul_right_iff (twoTo_pos _)).symm

theorem Reaches.of_le (reaches : Reaches numerator denominator exponent) (le : other ≤ exponent) :
    Reaches numerator denominator other := by
  have enough : 0 ≤ other + (-other).toNat := by omega
  refine (reaches_iff (-other).toNat enough).mpr ?_
  refine Nat.le_trans ?_ ((reaches_iff (-other).toNat (by omega)).mp reaches)
  exact Nat.mul_le_mul_left _ (twoTo_le_twoTo (by omega))

theorem reaches_iff_test :
    (if 0 ≤ exponent then decide (denominator * twoTo exponent.toNat ≤ numerator)
      else decide (denominator ≤ numerator * twoTo (-exponent).toNat)) = true ↔
      Reaches numerator denominator exponent := by
  unfold Reaches
  split
  · next positive =>
    have none : (-exponent).toNat = 0 := by omega
    rw [decide_eq_true_eq, none, show twoTo 0 = 1 from rfl, Nat.mul_one]
  · next negative =>
    have none : exponent.toNat = 0 := by omega
    rw [decide_eq_true_eq, none, show twoTo 0 = 1 from rfl, Nat.mul_one]

/-- The place of the highest binary digit: the last power of two that a ratio reaches. -/
theorem floorLog2_reaches (positive : 0 < numerator) (nonzero : 0 < denominator) :
    Reaches numerator denominator (floorLog2 numerator denominator) ∧
      ¬ Reaches numerator denominator (floorLog2 numerator denominator + 1) := by
  have numeratorLow : twoTo numerator.log2 ≤ numerator := Nat.log2_self_le positive.ne'
  have numeratorHigh : numerator < twoTo (numerator.log2 + 1) := Nat.lt_log2_self
  have denominatorLow : twoTo denominator.log2 ≤ denominator := Nat.log2_self_le nonzero.ne'
  have denominatorHigh : denominator < twoTo (denominator.log2 + 1) := Nat.lt_log2_self
  have notAbove : ¬ Reaches numerator denominator
      ((numerator.log2 : Int) - (denominator.log2 : Int) + 1) := by
    rw [reaches_iff denominator.log2 (by omega), Nat.not_le]
    have sum : ((numerator.log2 : Int) - (denominator.log2 : Int) + 1 +
        (denominator.log2 : Nat)).toNat = numerator.log2 + 1 := by omega
    rw [sum, Nat.mul_comm denominator]
    exact Nat.mul_lt_mul_of_lt_of_le numeratorHigh denominatorLow nonzero
  have below : Reaches numerator denominator
      ((numerator.log2 : Int) - (denominator.log2 : Int) - 1) := by
    rw [reaches_iff (denominator.log2 + 1) (by omega)]
    have sum : ((numerator.log2 : Int) - (denominator.log2 : Int) - 1 +
        (denominator.log2 + 1 : Nat)).toNat = numerator.log2 := by omega
    rw [sum, Nat.mul_comm denominator]
    exact Nat.mul_le_mul numeratorLow denominatorHigh.le
  by_cases reached : Reaches numerator denominator
      ((numerator.log2 : Int) - (denominator.log2 : Int))
  · have value : floorLog2 numerator denominator =
        (numerator.log2 : Int) - (denominator.log2 : Int) := if_pos (reaches_iff_test.mpr reached)
    rw [value]
    exact ⟨reached, notAbove⟩
  · have value : floorLog2 numerator denominator =
        (numerator.log2 : Int) - (denominator.log2 : Int) - 1 :=
      if_neg fun test => reached (reaches_iff_test.mp test)
    rw [value, Int.sub_add_cancel]
    exact ⟨below, reached⟩

theorem floorLog2_eq (positive : 0 < numerator) (nonzero : 0 < denominator)
    (reaches : Reaches numerator denominator exponent)
    (last : ¬ Reaches numerator denominator (exponent + 1)) :
    floorLog2 numerator denominator = exponent := by
  obtain ⟨found, foundLast⟩ := floorLog2_reaches positive nonzero
  have notLess : ¬ floorLog2 numerator denominator < exponent := fun less =>
    foundLast (reaches.of_le less)
  have notMore : ¬ exponent < floorLog2 numerator denominator := fun more =>
    last (found.of_le more)
  omega

end Reaching

/-! ### Rounding what needs no rounding -/

theorem roundHalfEven_mul (quotient : Nat) {denominator : Nat} (nonzero : 0 < denominator) :
    roundHalfEven (quotient * denominator) denominator = quotient := by
  unfold roundHalfEven
  rw [Nat.mul_div_cancel quotient nonzero, Nat.mul_mod_left]
  exact if_pos nonzero

/-- A significand as a number stores it: with its leading bit above the smallest exponent, and
any smaller one at the smallest exponent. -/
def IsStored (significand scale : Nat) : Prop :=
  (twoTo 52 ≤ significand ∧ significand < twoTo 53) ∨
    (scale = 0 ∧ 0 < significand ∧ significand < twoTo 52)

theorem IsStored.pos {significand scale : Nat} (stored : IsStored significand scale) :
    0 < significand := by
  rcases stored with ⟨low, _⟩ | ⟨_, positive, _⟩
  · exact Nat.lt_of_lt_of_le (twoTo_pos 52) low
  · exact positive

/-- The place at which a stored significand is rounded is its own. -/
theorem IsStored.place {significand scale : Nat} (stored : IsStored significand scale) :
    (significand * twoTo scale).log2 - 52 = scale := by
  rcases stored with ⟨low, high⟩ | ⟨rfl, positive, high⟩
  · have nonzero : significand * twoTo scale ≠ 0 :=
      (Nat.mul_pos (Nat.lt_of_lt_of_le (twoTo_pos 52) low) (twoTo_pos scale)).ne'
    have digits : (significand * twoTo scale).log2 = 52 + scale := by
      refine (Nat.log2_eq_iff nonzero).mpr ⟨?_, ?_⟩
      · show twoTo (52 + scale) ≤ significand * twoTo scale
        rw [twoTo_add]
        exact Nat.mul_le_mul_right _ low
      · show significand * twoTo scale < twoTo (52 + scale + 1)
        rw [Nat.add_right_comm, twoTo_add]
        exact Nat.mul_lt_mul_of_pos_right high (twoTo_pos scale)
    omega
  · have bits : (significand * twoTo 0).log2 < 52 := by
      rw [show twoTo 0 = 1 from rfl, Nat.mul_one]
      exact (Nat.log2_lt positive.ne').mpr high
    omega

/-- A stored significand is rounded to its own word, whatever common factor the ratio has. -/
theorem ratioWord_stored {significand scale factor : Nat} (stored : IsStored significand scale)
    (nonzero : 0 < factor) :
    ratioWord (significand * twoTo scale * factor) (twoTo 1074 * factor) =
      min infinityWord (scale * exponentStep + significand) := by
  have positive : 0 < significand * twoTo scale * factor :=
    Nat.mul_pos (Nat.mul_pos stored.pos (twoTo_pos scale)) nonzero
  have unit : 0 < twoTo 1074 * factor := Nat.mul_pos (twoTo_pos 1074) nonzero
  have reaches : ∀ digit : Nat, Reaches (significand * twoTo scale * factor) (twoTo 1074 * factor)
      ((digit : Int) - 1074) ↔ twoTo digit ≤ significand * twoTo scale := by
    intro digit
    rw [reaches_iff 1074 (by omega)]
    have sum : ((digit : Int) - 1074 + (1074 : Nat)).toNat = digit := by omega
    have left : twoTo 1074 * factor * twoTo digit = twoTo digit * (twoTo 1074 * factor) :=
      Nat.mul_comm _ _
    have right : significand * twoTo scale * factor * twoTo 1074 =
        significand * twoTo scale * (twoTo 1074 * factor) := by
      rw [Nat.mul_assoc, Nat.mul_comm factor]
    rw [sum, left, right]
    exact Nat.mul_le_mul_right_iff unit
  have highest : floorLog2 (significand * twoTo scale * factor) (twoTo 1074 * factor) =
      ((significand * twoTo scale).log2 : Int) - 1074 := by
    refine floorLog2_eq positive unit ((reaches _).mpr ?_) ?_
    · exact Nat.log2_self_le (Nat.mul_pos stored.pos (twoTo_pos scale)).ne'
    · have next : ((significand * twoTo scale).log2 : Int) - 1074 + 1 =
          ((significand * twoTo scale).log2 + 1 : Nat) - 1074 := by omega
      rw [next, reaches, Nat.not_le]
      exact Nat.lt_log2_self
  have place : (floorLog2 (significand * twoTo scale * factor) (twoTo 1074 * factor) - 52 +
      1074).toNat = scale := by
    have own := stored.place
    omega
  have rounded : roundHalfEven (significand * twoTo scale * factor * twoTo 1074)
      (twoTo 1074 * factor * twoTo scale) = significand := by
    have whole : significand * twoTo scale * factor * twoTo 1074 =
        significand * (twoTo 1074 * factor * twoTo scale) := by ring
    rw [whole, roundHalfEven_mul significand (Nat.mul_pos unit (twoTo_pos scale))]
  unfold ratioWord
  rw [if_neg positive.ne']
  simp only [place, rounded]

/-! ### The fields of a finite number -/

section Fields

variable {number : Binary64}

theorem exponentStep_pos : 0 < exponentStep := twoTo_pos 52

/-- The word of a number is put together from its fields. -/
theorem magnitude_eq (number : Binary64) :
    number.scale * exponentStep + number.significand = number.magnitude := by
  have whole := Nat.div_add_mod number.magnitude exponentStep
  unfold scale significand
  simp only
  split
  · next zero =>
    rw [zero, Nat.mul_zero, Nat.zero_add] at whole
    rw [zero, Nat.zero_sub, Nat.zero_mul, Nat.zero_add, whole]
  · next nonzero =>
    obtain ⟨before, found⟩ := Nat.exists_eq_succ_of_ne_zero nonzero
    rw [found, Nat.succ_eq_add_one, Nat.mul_add, Nat.mul_one, Nat.mul_comm] at whole
    rw [found, Nat.succ_eq_add_one, Nat.add_sub_cancel, ← Nat.add_assoc, whole]

theorem isStored (nonzero : number.magnitude ≠ 0) : IsStored number.significand number.scale := by
  have fraction : number.magnitude % exponentStep < exponentStep :=
    Nat.mod_lt _ exponentStep_pos
  have whole := magnitude_eq number
  unfold IsStored
  have double : twoTo 53 = exponentStep + exponentStep := rfl
  rw [double]
  show (exponentStep ≤ _ ∧ _) ∨ (_ ∧ _ ∧ _ < exponentStep)
  by_cases field : number.magnitude / exponentStep = 0
  · have small : number.significand = number.magnitude % exponentStep := if_pos field
    have atBottom : number.scale = 0 := by rw [scale, field]
    right
    rw [atBottom, Nat.zero_mul, Nat.zero_add] at whole
    exact ⟨atBottom, by omega, by omega⟩
  · have large : number.significand = exponentStep + number.magnitude % exponentStep :=
      if_neg field
    left
    omega

theorem scale_le (finite : number.isFinite = true) : number.scale ≤ 2045 := by
  have bound : number.magnitude < 0x7FF * exponentStep := of_decide_eq_true finite
  have field : number.magnitude / exponentStep < 0x7FF :=
    Nat.div_lt_of_lt_mul (Nat.mul_comm _ _ ▸ bound)
  unfold scale
  omega

end Fields

end Binary64

namespace Decimal

open Binary64

theorem digitCount_le_iff {number places : Nat} (some : 0 < places) :
    digitCount number ≤ places ↔ number < tenTo places :=
  Nat.length_toDigits_le_iff (by decide) some

/-- A power of five, by which a power of two becomes one of ten. -/
def fiveTo (exponent : Nat) : Nat := Nat.pow 5 exponent

theorem fiveTo_pos (exponent : Nat) : 0 < fiveTo exponent :=
  Nat.pow_pos (by decide)

theorem tenTo_eq (exponent : Nat) : tenTo exponent = twoTo exponent * fiveTo exponent :=
  Nat.mul_pow 2 5 exponent

theorem exact_digits (number : Binary64) :
    (exact number).digits = number.significand * twoTo number.scale * fiveTo 1074 := by
  unfold exact fiveTo
  generalize Nat.pow 5 1074 = power
  rfl

/-- The exact numeral is neither too small nor too large to be looked at. -/
theorem exact_size {number : Binary64} (finite : number.isFinite = true)
    (nonzero : number.magnitude ≠ 0) :
    743 < digitCount (exact number).digits ∧ digitCount (exact number).digits ≤ 1384 := by
  have stored := isStored nonzero
  rw [exact_digits]
  constructor
  · rw [← Nat.not_le, digitCount_le_iff (by decide), Nat.not_lt]
    have known : tenTo 743 ≤ fiveTo 1074 := by decide +kernel
    refine Nat.le_trans known (Nat.le_mul_of_pos_left _ ?_)
    exact Nat.mul_pos stored.pos (twoTo_pos _)
  · rw [digitCount_le_iff (by decide)]
    have known : twoTo 53 * twoTo 2045 * fiveTo 1074 ≤ tenTo 1384 := by decide +kernel
    have high : number.significand < twoTo 53 := by
      rcases stored with ⟨_, high⟩ | ⟨_, _, high⟩
      · exact high
      · exact Nat.lt_of_lt_of_le high (twoTo_le_twoTo (by decide))
    refine Nat.lt_of_lt_of_le (Nat.mul_lt_mul_of_pos_right ?_ (fiveTo_pos 1074)) known
    exact Nat.mul_lt_mul_of_lt_of_le high (twoTo_le_twoTo (scale_le finite)) (twoTo_pos _)

/-- The exact numeral of a finite number is read back as that number. -/
theorem exact_word {number : Binary64} (finite : number.isFinite = true)
    (nonzero : number.magnitude ≠ 0) : (exact number).word = number.magnitude := by
  have stored := isStored nonzero
  obtain ⟨above, below⟩ := exact_size finite nonzero
  have positive : (exact number).digits ≠ 0 := by
    rw [exact_digits]
    exact (Nat.mul_pos (Nat.mul_pos stored.pos (twoTo_pos _)) (fiveTo_pos _)).ne'
  have exponent : (exact number).exponent = -1074 := rfl
  have inFinite : number.magnitude < infinityWord := of_decide_eq_true finite
  have opposite : (-(-1074 : Int)).toNat = 1074 := rfl
  unfold word
  simp only [exponent]
  rw [if_neg, if_neg, if_neg, opposite, exact_digits, tenTo_eq,
    ratioWord_stored stored (fiveTo_pos 1074), magnitude_eq]
  · exact Nat.min_eq_right inFinite.le
  · decide
  · omega
  · rw [Bool.or_eq_true, decide_eq_true_eq, decide_eq_true_eq]
    omega

end Decimal

end CiTelemetry
