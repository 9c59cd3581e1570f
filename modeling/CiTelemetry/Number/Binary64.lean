/-
This file holds 64-bit binary floating-point numbers as words. A number is the
word that stores it, so equality of words is the identity that storage sees,
and every rounding is done here in exact integer arithmetic: `ofRatio` gives
the representable number nearest to a ratio, a tie going to the even word.
-/

import CiTelemetry.Number.Power

namespace CiTelemetry

/-- A binary floating-point number of 64 bits: one sign bit, eleven exponent
bits and fifty-two fraction bits. -/
structure Binary64 where
  bits : UInt64
  deriving DecidableEq, Repr, Inhabited

namespace Binary64

/-! ### Fields -/

/-- The distance between the words of neighbouring powers of two. -/
def exponentStep : Nat := twoTo 52

/-- The word of positive infinity. -/
def infinityWord : Nat := 0x7FF * exponentStep

/-- The word of the sign bit alone. -/
def signWord : Nat := twoTo 63

/-- The word without its sign bit. -/
def magnitude (number : Binary64) : Nat :=
  number.bits.toNat % signWord

def isNegative (number : Binary64) : Bool :=
  signWord ≤ number.bits.toNat

def isNaN (number : Binary64) : Bool :=
  infinityWord < number.magnitude

def isInfinite (number : Binary64) : Bool :=
  number.magnitude == infinityWord

def isFinite (number : Binary64) : Bool :=
  number.magnitude < infinityWord

/-- A sign and a magnitude word together. -/
def ofMagnitude (negative : Bool) (word : Nat) : Binary64 :=
  ⟨UInt64.ofNat (if negative then signWord + word else word)⟩

def zero : Binary64 := ⟨0⟩
def infinity : Binary64 := ofMagnitude false infinityWord
def negativeInfinity : Binary64 := ofMagnitude true infinityWord

/-- The quiet word that stands for every result that is not a number. -/
def nan : Binary64 := ofMagnitude false (infinityWord + twoTo 51)

/-- A finite magnitude as `significand * 2 ^ exponent`, with the exponent
counted from the smallest one, `-1074`. -/
def significand (number : Binary64) : Nat :=
  let exponentField := number.magnitude / exponentStep
  let fraction := number.magnitude % exponentStep
  if exponentField = 0 then fraction else exponentStep + fraction

/-- The binary exponent, counted from `-1074`. -/
def scale (number : Binary64) : Nat :=
  number.magnitude / exponentStep - 1

/-- The magnitude of a finite number as a ratio of two whole numbers. -/
def ratio (number : Binary64) : Nat × Nat :=
  (number.significand * twoTo number.scale, twoTo 1074)

/-! ### Equality of values -/

/-- Equality of the stored numbers: a number that is not a number equals
nothing, and both zeros are equal. -/
def equal (first second : Binary64) : Bool :=
  !first.isNaN && !second.isNaN &&
    (first.bits == second.bits || (first.magnitude == 0 && second.magnitude == 0))

/-! ### Rounding -/

/-- The whole number nearest to a ratio, a tie going to the even one. -/
def roundHalfEven (numerator denominator : Nat) : Nat :=
  let quotient := numerator / denominator
  let remainder := numerator % denominator
  if 2 * remainder < denominator then quotient
  else if denominator < 2 * remainder then quotient + 1
  else quotient + quotient % 2

/-- The exponent of the power of two that a positive ratio lies at or just above. -/
def floorLog2 (numerator denominator : Nat) : Int :=
  let estimate : Int := (Nat.log2 numerator : Int) - (Nat.log2 denominator : Int)
  let reached : Bool :=
    if 0 ≤ estimate then denominator * twoTo estimate.toNat ≤ numerator
    else denominator ≤ numerator * twoTo (-estimate).toNat
  if reached then estimate else estimate - 1

/-- The magnitude word nearest to a ratio. The unit of the last place is
`2 ^ (place - 1074)`; a result that reaches the next power of two carries into
the exponent field by itself, and one beyond the largest finite word becomes
the word of infinity. -/
def ratioWord (numerator denominator : Nat) : Nat :=
  if numerator = 0 then 0
  else
    let place := (floorLog2 numerator denominator - 52 + 1074).toNat
    let rounded := roundHalfEven (numerator * twoTo 1074) (denominator * twoTo place)
    min infinityWord (place * exponentStep + rounded)

/-- The number nearest to a signed ratio. -/
def ofRatio (negative : Bool) (numerator denominator : Nat) : Binary64 :=
  ofMagnitude negative (ratioWord numerator denominator)

/-- The number nearest to a whole number. -/
def ofInt (value : Int) : Binary64 :=
  ofRatio (value < 0) value.natAbs 1

end Binary64

end CiTelemetry
