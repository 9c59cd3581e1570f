/-
This file reads JSON text by the strict grammar: no comments, no trailing
commas, no leading zeros, no raw control characters in strings, and no lone
surrogates. Each reader gives what it read with the characters after it. The
nesting is bounded by the length of the text, which `parse?` supplies.
-/

import CiTelemetry.Json.Basic
import CiTelemetry.Text.Bytes

namespace CiTelemetry

namespace Json

namespace Parser

def isBlank (char : Char) : Bool :=
  char == ' ' || char == '\n' || char == '\t' || char == '\r'

def skipBlanks (text : List Char) : List Char :=
  text.dropWhile isBlank

/-! ### Strings -/

/-- The value of four hexadecimal digits. -/
def unit? : List Char → Option (Nat × List Char)
  | first :: second :: third :: fourth :: rest => do
    let a ← hexValue? first
    let b ← hexValue? second
    let c ← hexValue? third
    let d ← hexValue? fourth
    pure (((a * 16 + b) * 16 + c) * 16 + d, rest)
  | _ => none

/-- The character after an escaping backslash and the letter `u`: a code point
of its own or a pair of surrogates. -/
def unicodeEscape? (text : List Char) : Option (Char × List Char) := do
  let (high, rest) ← unit? text
  if 0xD800 ≤ high && high ≤ 0xDBFF then
    match rest with
    | '\\' :: 'u' :: after => do
      let (low, left) ← unit? after
      if 0xDC00 ≤ low && low ≤ 0xDFFF then
        pure (Char.ofNat (0x10000 + (high - 0xD800) * 0x400 + (low - 0xDC00)), left)
      else none
    | _ => none
  else if 0xDC00 ≤ high && high ≤ 0xDFFF then none
  else pure (Char.ofNat high, rest)

/-- The character that a single letter stands for after a backslash. -/
def letterEscape? (letter : Char) : Option Char :=
  match letter with
  | '"' => some '"'
  | '\\' => some '\\'
  | '/' => some '/'
  | 'b' => some '\x08'
  | 'f' => some '\x0c'
  | 'n' => some '\n'
  | 'r' => some '\r'
  | 't' => some '\t'
  | _ => none

/-- The characters of a string up to its closing quote, after those already
read in reverse order. The fuel bounds the number of characters. -/
def stringBody? : Nat → List Char → List Char → Option (String × List Char)
  | 0, _, _ => none
  | fuel + 1, reversed, text =>
    match text with
    | [] => none
    | '"' :: rest => some (String.ofList reversed.reverse, rest)
    | '\\' :: 'u' :: rest =>
      match unicodeEscape? rest with
      | some (char, after) => stringBody? fuel (char :: reversed) after
      | none => none
    | '\\' :: letter :: rest =>
      match letterEscape? letter with
      | some char => stringBody? fuel (char :: reversed) rest
      | none => none
    | char :: rest =>
      if char.toNat < 0x20 || char == '\\' then none
      else stringBody? fuel (char :: reversed) rest

/-! ### Numbers -/

/-- A whole part: one zero, or digits that do not begin with one. -/
def wholePart? (text : List Char) : Option (List Char × List Char) :=
  let digits := text.takeWhile Char.isDigit
  match digits with
  | [] => none
  | '0' :: _ :: _ => none
  | _ => some (digits, text.dropWhile Char.isDigit)

/-- An optional fraction: a point with at least one digit after it. -/
def fractionPart? : List Char → Option (Option (List Char) × List Char)
  | '.' :: rest =>
    let digits := rest.takeWhile Char.isDigit
    if digits.isEmpty then none else some (some digits, rest.dropWhile Char.isDigit)
  | text => some (none, text)

/-- An optional exponent: a mark, an optional sign and at least one digit. -/
def exponentPart? : List Char → Option (Option Int × List Char)
  | mark :: rest =>
    if mark == 'e' || mark == 'E' then
      let (negative, unsigned) := splitSign rest
      let digits := unsigned.takeWhile Char.isDigit
      if digits.isEmpty then none
      else
        let value : Int := digitsValue digits
        some (some (if negative then -value else value), unsigned.dropWhile Char.isDigit)
    else some (none, mark :: rest)
  | [] => some (none, [])

/-- The number of a numeral. Without fraction and exponent it is a whole number
while it fits a word of 64 bits; the negative zero is not one. -/
def numberOf (negative : Bool) (whole : List Char) (fraction : Option (List Char))
    (exponent : Option Int) : Json :=
  let magnitude := digitsValue whole
  let isWhole := fraction.isNone && exponent.isNone
  if isWhole && !negative && magnitude < twoTo 64 then .int magnitude
  else if isWhole && negative && magnitude ≤ twoTo 63 && magnitude != 0 then .int (-magnitude)
  else
    let places := fraction.getD []
    let numeral : Decimal :=
      ⟨digitsValue (whole ++ places), exponent.getD 0 - places.length⟩
    .float (Binary64.ofMagnitude negative numeral.word)

def number? (text : List Char) : Option (Json × List Char) := do
  let (negative, unsigned) := match text with
    | '-' :: rest => (true, rest)
    | _ => (false, text)
  let (whole, afterWhole) ← wholePart? unsigned
  let (fraction, afterFraction) ← fractionPart? afterWhole
  let (exponent, rest) ← exponentPart? afterFraction
  pure (numberOf negative whole fraction exponent, rest)

/-- The text after a word that must come next. -/
def word? (word : String) (text : List Char) : Option (List Char) :=
  if word.toList.isPrefixOf text then some (text.drop word.length) else none

/-! ### Values -/

mutual

/-- A value, with blanks before it. -/
def value? : Nat → List Char → Option (Json × List Char)
  | 0, _ => none
  | fuel + 1, text =>
    match skipBlanks text with
    | [] => none
    | 'n' :: rest => (word? "ull" rest).map (.null, ·)
    | 't' :: rest => (word? "rue" rest).map (.bool true, ·)
    | 'f' :: rest => (word? "alse" rest).map (.bool false, ·)
    | '"' :: rest =>
      (stringBody? (rest.length + 1) [] rest).map fun (text, after) => (.str text, after)
    | '[' :: rest =>
      match skipBlanks rest with
      | ']' :: after => some (.arr [], after)
      | _ => (items? fuel rest).map fun (items, after) => (.arr items, after)
    | '{' :: rest =>
      match skipBlanks rest with
      | '}' :: after => some (.obj [], after)
      | _ => (fields? fuel rest).map fun (fields, after) => (.obj fields, after)
    | other => number? other

/-- Items separated by commas, up to the closing bracket. -/
def items? : Nat → List Char → Option (List Json × List Char)
  | 0, _ => none
  | fuel + 1, text =>
    match value? fuel text with
    | none => none
    | some (item, afterItem) =>
      match skipBlanks afterItem with
      | ',' :: rest => (items? fuel rest).map fun (items, after) => (item :: items, after)
      | ']' :: rest => some ([item], rest)
      | _ => none

/-- Fields separated by commas, up to the closing brace. -/
def fields? : Nat → List Char → Option (List (String × Json) × List Char)
  | 0, _ => none
  | fuel + 1, text =>
    match skipBlanks text with
    | '"' :: quoted =>
      match stringBody? (quoted.length + 1) [] quoted with
      | none => none
      | some (name, afterName) =>
        match skipBlanks afterName with
        | ':' :: afterColon =>
          match value? fuel afterColon with
          | none => none
          | some (value, afterValue) =>
            match skipBlanks afterValue with
            | ',' :: rest =>
              (fields? fuel rest).map fun (fields, after) => ((name, value) :: fields, after)
            | '}' :: rest => some ([(name, value)], rest)
            | _ => none
        | _ => none
    | _ => none

end

end Parser

/-- Reads a text that is one JSON value with blanks around it. -/
def parse? (text : List Char) : Option Json :=
  match Parser.value? (text.length + 1) text with
  | some (value, rest) => if (Parser.skipBlanks rest).isEmpty then some value else none
  | none => none

/-- Reads bytes that are one JSON value. -/
def ofBytes? (bytes : Bytes) : Option Json :=
  (Utf8.decode? bytes).bind fun text => parse? text.toList

/-! ### Damage that only a number can have -/

mutual

/-- Whether every numeral of a value is within the finite numbers. -/
def isFinite : Json → Bool
  | float number => number.isFinite
  | arr items => itemsFinite items
  | obj fields => fieldsFinite fields
  | _ => true

def itemsFinite : List Json → Bool
  | [] => true
  | item :: rest => isFinite item && itemsFinite rest

def fieldsFinite : List (String × Json) → Bool
  | [] => true
  | (_, value) :: rest => isFinite value && fieldsFinite rest

end

end Json

end CiTelemetry
