/-
This file holds decimal numerals and the two directions between them and binary
numbers. Reading takes the nearest binary number. Writing takes the fewest
digits that read back to the number, and of those the nearest to it, so what is
written always reads back.
-/

import CiTelemetry.Number.Binary64

namespace CiTelemetry

/-- The decimal numeral `digits * 10 ^ exponent`. -/
structure Decimal where
  digits : Nat
  exponent : Int
  deriving DecidableEq, Repr, Inhabited

namespace Decimal

/-! ### From decimal to binary -/

/-- How many decimal digits a whole number has; zero has one. -/
def digitCount (number : Nat) : Nat :=
  (Nat.toDigits 10 number).length

/-- The nearest binary magnitude. Numerals beyond every finite number and
numerals below half the smallest one are settled by their size alone, so no
huge power is ever built. -/
def word (numeral : Decimal) : Nat :=
  let size : Int := digitCount numeral.digits + numeral.exponent
  if numeral.digits = 0 || size < -330 then 0
  else if 310 < size then Binary64.infinityWord
  else if 0 ≤ numeral.exponent then
    Binary64.ratioWord (numeral.digits * tenTo numeral.exponent.toNat) 1
  else
    Binary64.ratioWord numeral.digits (tenTo (-numeral.exponent).toNat)

/-! ### From binary to decimal -/

/-- The place of the first decimal digit of a positive ratio: the least `place`
with the ratio below `10 ^ place`, searched upward from an estimate below it. -/
def firstPlace (numerator denominator : Nat) : Int :=
  let estimate : Int := (digitCount numerator : Int) - (digitCount denominator : Int)
  let below (place : Int) : Bool :=
    if 0 ≤ place then numerator < denominator * tenTo place.toNat
    else numerator * tenTo (-place).toNat < denominator
  if below estimate then estimate else estimate + 1

/-- A ratio measured in units of `10 ^ exponent`, as a whole part and the ratio
of what is left over. -/
def measure (numerator denominator : Nat) (exponent : Int) : Nat × Nat × Nat :=
  let scaled := if 0 ≤ exponent then numerator else numerator * tenTo (-exponent).toNat
  let unit := if 0 ≤ exponent then denominator * tenTo exponent.toNat else denominator
  (scaled / unit, scaled % unit, unit)

/-- The same numeral without zeros at its end; at most `fuel` are dropped. -/
def dropZeros (fuel : Nat) (numeral : Decimal) : Decimal :=
  match fuel with
  | 0 => numeral
  | fuel + 1 =>
    if numeral.digits != 0 && numeral.digits % 10 == 0 then
      dropZeros fuel ⟨numeral.digits / 10, numeral.exponent + 1⟩
    else numeral

/-- A numeral in its shortest form. -/
def trimmed (numeral : Decimal) : Decimal :=
  dropZeros (digitCount numeral.digits) numeral

/-- Of the two neighbours of a number on the grid of `10 ^ exponent` the one
that reads back to it; of two such neighbours the nearer, a tie going up. -/
def onGrid? (word numerator denominator : Nat) (exponent : Int) : Option Decimal :=
  let (whole, left, unit) := measure numerator denominator exponent
  let lower := trimmed ⟨whole, exponent⟩
  let upper := trimmed ⟨whole + 1, exponent⟩
  let lowerReads := lower.word == word
  let upperReads := upper.word == word
  if lowerReads && upperReads then
    some (if 2 * left < unit then lower else upper)
  else if lowerReads then some lower
  else if upperReads then some upper
  else none

/-- The exact value of a finite magnitude, which always has a decimal numeral. -/
def exact (number : Binary64) : Decimal :=
  ⟨number.significand * twoTo number.scale * Nat.pow 5 1074, -1074⟩

/-- The numeral with the fewest digits that reads back to a finite magnitude.
Seventeen digits always suffice. -/
def shortest (number : Binary64) : Decimal :=
  if number.magnitude = 0 then ⟨0, 0⟩
  else
    let (numerator, denominator) := number.ratio
    let place := firstPlace numerator denominator
    let found := (List.range 17).findSome? fun (index : Nat) =>
      onGrid? number.magnitude numerator denominator (place - ((index : Int) + 1))
    found.getD (exact number)

/-- A numeral written out in full: no exponent, and a point only before a
fraction. -/
def render (numeral : Decimal) : String :=
  let digits := Nat.toDigits 10 numeral.digits
  if 0 ≤ numeral.exponent then
    String.ofList
      (if numeral.digits = 0 then digits else digits ++ List.replicate numeral.exponent.toNat '0')
  else
    let places := (-numeral.exponent).toNat
    let padded := List.replicate (places + 1 - digits.length) '0' ++ digits
    let whole := padded.take (padded.length - places)
    let fraction := padded.drop (padded.length - places)
    String.ofList (whole ++ '.' :: fraction)

end Decimal

namespace Binary64

/-- The text of a number: its shortest numeral written out in full, with a sign
for every negative number and words for what is not finite. -/
def render (number : Binary64) : String :=
  if number.isNaN then "NaN"
  else
    let unsigned := if number.isInfinite then "inf" else (Decimal.shortest number).render
    if number.isNegative then "-" ++ unsigned else unsigned

end Binary64

/-! ### Reading text -/

/-- The value of a run of decimal digits. -/
def digitsValue (digits : List Char) : Nat :=
  digits.foldl (fun value digit => value * 10 + (digit.toNat - 48)) 0

/-- Splits off an optional sign; the flag says whether it was a minus. -/
def splitSign : List Char → Bool × List Char
  | '-' :: rest => (true, rest)
  | '+' :: rest => (false, rest)
  | text => (false, text)

/-- A signed decimal integer: an optional sign, then digits only and at least one. -/
def integer? (text : List Char) : Option Int :=
  let (negative, digits) := splitSign text
  if digits.isEmpty || !digits.all Char.isDigit then none
  else some (if negative then -(digitsValue digits : Int) else digitsValue digits)

/-- Whether a whole number fits a signed word of 64 bits. -/
def fitsSigned64 (value : Int) : Bool :=
  -(twoTo 63 : Int) ≤ value && value < twoTo 63

/-- A signed decimal integer that fits a signed word of 64 bits. -/
def integer64? (text : List Char) : Option Int :=
  (integer? text).filter fitsSigned64

namespace Decimal

/-- An exponent mark and its value; no mark stands for exponent zero. -/
def exponentPart? : List Char → Option Int
  | [] => some 0
  | mark :: rest => if mark == 'e' || mark == 'E' then integer? rest else none

/-- An unsigned numeral: digits with an optional point, at least one digit on
either side of it, and an optional exponent. -/
def read? (text : List Char) : Option Decimal :=
  let whole := text.takeWhile Char.isDigit
  let afterWhole := text.dropWhile Char.isDigit
  let (fraction, afterFraction) := match afterWhole with
    | '.' :: rest => (rest.takeWhile Char.isDigit, rest.dropWhile Char.isDigit)
    | rest => ([], rest)
  if whole.isEmpty && fraction.isEmpty then none
  else
    (exponentPart? afterFraction).map fun exponent =>
      ⟨digitsValue (whole ++ fraction), exponent - fraction.length⟩

end Decimal

namespace Binary64

/-- The lower-case form of an ASCII text, by which words are compared. -/
def lowered (text : List Char) : String :=
  String.ofList (text.map Char.toLower)

/-- Reads a number: an optional sign and then a numeral, or one of the words
for infinity and for what is not a number in any case. -/
def read? (text : List Char) : Option Binary64 :=
  let (negative, unsigned) := splitSign text
  match Decimal.read? unsigned with
  | some numeral => some (ofMagnitude negative numeral.word)
  | none =>
    if lowered unsigned == "inf" || lowered unsigned == "infinity" then
      some (ofMagnitude negative infinityWord)
    else if lowered unsigned == "nan" then
      some (ofMagnitude negative (infinityWord + twoTo 51))
    else none

end Binary64

end CiTelemetry
