/-
This file holds the writing of names beyond ASCII with letters, digits and
hyphens. The characters beyond ASCII are told in the order of their code points,
each by the number of steps from the one before, where a step moves on by one
place in the name, and past its end to the next code point. Steps are written
with digits of base 36 whose thresholds follow the size of the steps so far.
-/

import CiTelemetry.Text.Bytes

namespace CiTelemetry

namespace Punycode

/-! ### Digits -/

/-- Digits are the small letters and after them the ten numerals. -/
def digit (value : Nat) : Char :=
  if value < 26 then Char.ofNat (97 + value) else Char.ofNat (22 + value)

def digitValue? (char : Char) : Option Nat :=
  if char.isLower then some (char.toNat - 97)
  else if char.isUpper then some (char.toNat - 65)
  else if char.isDigit then some (char.toNat - 22)
  else none

/-- The least digit that does not end a number, at a place counted from one. -/
def threshold (bias place : Nat) : Nat :=
  min 26 (max 1 (36 * place - bias))

theorem threshold_pos (bias place : Nat) : 1 ≤ threshold bias place := by
  unfold threshold
  omega

/-- The bias that a size of steps leads to, after some halvings. -/
def settle (size bias : Nat) : Nat :=
  if 455 < size then settle (size / 35) (bias + 36) else bias + 36 * size / (size + 38)
termination_by size
decreasing_by exact Nat.div_lt_self (by omega) (by omega)

/-- The bias after a number of steps, `count` characters being placed by now. -/
def adapt (steps count : Nat) (isFirst : Bool) : Nat :=
  let size := if isFirst then steps / 700 else steps / 2
  settle (size + size / count) 0

/-- A number in digits, the lowest first. -/
def writeNumber (bias place number : Nat) : List Char :=
  let least := threshold bias place
  if number < least then [digit number]
  else
    digit (least + (number - least) % (36 - least)) ::
      writeNumber bias (place + 1) ((number - least) / (36 - least))
termination_by number
decreasing_by
  have _atLeastOne := threshold_pos bias place
  calc (number - threshold bias place) / (36 - threshold bias place)
      ≤ number - threshold bias place := Nat.div_le_self _ _
    _ < number := by omega

/-- Reads a number; its digits weigh `weight` and more. -/
def readNumber? (bias place weight : Nat) : List Char → Option (Nat × List Char)
  | [] => none
  | char :: rest => do
    let value ← digitValue? char
    if value < threshold bias place then pure (value * weight, rest)
    else do
      let (higher, after) ←
        readNumber? bias (place + 1) (weight * (36 - threshold bias place)) rest
      pure (value * weight + higher, after)

/-! ### Writing -/

def isBasic (char : Char) : Bool :=
  char.toNat < 0x80

/-- What is known while a name is written: the text so far, the steps since the
last character told, the bias, and how many characters are told. -/
structure Writing where
  text : List Char
  steps : Nat
  bias : Nat
  told : Nat

/-- Passes one character of the name while those equal to `point` are told. -/
def Writing.pass (basic point : Nat) (state : Writing) (char : Char) : Writing :=
  if char.toNat < point then { state with steps := state.steps + 1 }
  else if char.toNat = point then
    { text := state.text ++ writeNumber state.bias 1 state.steps
      steps := 0
      bias := adapt state.steps (state.told + 1) (state.told == basic)
      told := state.told + 1 }
  else state

/-- Tells the characters at the code points of a rising list, `next` being the
first code point that is still open. -/
def tell (name : List Char) (basic : Nat) : List Nat → Nat → Writing → Writing
  | [], _, state => state
  | point :: rest, next, state =>
    let reached := { state with steps := state.steps + (point - next) * (state.told + 1) }
    let passed := name.foldl (Writing.pass basic point) reached
    tell name basic rest (point + 1) { passed with steps := passed.steps + 1 }

/-- The code points of a name beyond ASCII, rising, each once. -/
def pointsBeyond (name : List Char) : List Nat :=
  ((name.filter fun char => !isBasic char).map Char.toNat).mergeSort.eraseDups

def encode (name : List Char) : List Char :=
  let basic := name.filter isBasic
  let start : Writing := ⟨[], 0, 72, basic.length⟩
  basic ++ (if basic.isEmpty then [] else ['-']) ++
    (tell name basic.length (pointsBeyond name) 0x80 start).text

/-! ### Reading -/

/-- Places the characters that digits tell of into a name. The fuel bounds their
number. -/
def place? : Nat → (bias point position : Nat) → (name digits : List Char) →
    Option (List Char)
  | _, _, _, _, name, [] => some name
  | 0, _, _, _, _, _ => none
  | fuel + 1, bias, point, position, name, digits => do
    let (steps, rest) ← readNumber? bias 1 1 digits
    let count := name.length + 1
    let reached := position + steps
    let next := point + reached / count
    if next.isValidChar then
      place? fuel (adapt steps count (position == 0)) next
        (reached % count + 1) (name.insertIdx (reached % count) (Char.ofNat next)) rest
    else none

/-- Splits text at its last hyphen, which goes to neither part. -/
def splitAtLastHyphen (text : List Char) : List Char × List Char :=
  let after := (text.reverse.takeWhile (· != '-')).reverse
  if after.length = text.length then ([], text)
  else (text.take (text.length - after.length - 1), after)

def decode? (text : List Char) : Option (List Char) :=
  let (basic, digits) := splitAtLastHyphen text
  if basic.all isBasic then place? digits.length 72 0x80 0 basic digits else none

end Punycode

end CiTelemetry
