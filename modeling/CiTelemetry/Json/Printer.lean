/-
This file writes JSON values as text, either without any space or with one
field or item to a line. Every control character in a string is escaped, so
the text without spaces is always a single line.
-/

import CiTelemetry.Json.Basic
import CiTelemetry.Text.Bytes

namespace CiTelemetry

/-! ### Numbers -/

/-- A finite number with the fewest digits, in plain notation while the point
stays within sixteen places after the first digit and five before it, and with
an exponent beyond that. A whole number keeps one zero after its point. -/
def Binary64.renderPlain (number : Binary64) : String :=
  let sign := if number.isNegative then "-" else ""
  if number.magnitude = 0 then sign ++ "0.0"
  else
    let numeral := Decimal.shortest number
    let digits := (Nat.toDigits 10 numeral.digits).reverse.dropWhile (· == '0') |>.reverse
    let dropped := (Nat.toDigits 10 numeral.digits).length - digits.length
    let exponent := numeral.exponent + dropped
    let point : Int := digits.length + exponent
    let unsigned : List Char :=
      if 0 ≤ exponent && point ≤ 16 then
        digits ++ List.replicate exponent.toNat '0' ++ ['.', '0']
      else if 0 < point && point ≤ 16 then
        digits.take point.toNat ++ '.' :: digits.drop point.toNat
      else if -5 < point && point ≤ 0 then
        ['0', '.'] ++ List.replicate (-point).toNat '0' ++ digits
      else
        let fraction := digits.drop 1
        let mantissa := digits.take 1 ++ (if fraction.isEmpty then [] else '.' :: fraction)
        mantissa ++ ['e'] ++ (toString (point - 1)).toList
    sign ++ String.ofList unsigned

namespace Json

/-! ### Strings -/

/-- A character as it stands between the quotes of a JSON string. -/
def escapeChar (char : Char) : List Char :=
  if char = '"' then ['\\', '"']
  else if char = '\\' then ['\\', '\\']
  else if char = '\n' then ['\\', 'n']
  else if char = '\r' then ['\\', 'r']
  else if char = '\t' then ['\\', 't']
  else if char = '\x08' then ['\\', 'b']
  else if char = '\x0c' then ['\\', 'f']
  else if char.toNat < 0x20 then
    ['\\', 'u', '0', '0', hexDigit (char.toNat / 16), hexDigit (char.toNat % 16)]
  else [char]

def quote (text : String) : String :=
  String.ofList ('"' :: text.toList.flatMap escapeChar ++ ['"'])

/-! ### Values without spaces -/

/-- A value that has no parts. -/
def renderLeaf : Json → String
  | null => "null"
  | bool value => if value then "true" else "false"
  | int value => toString value
  | float value => value.renderPlain
  | str text => quote text
  | arr _ => "[]"
  | obj _ => "\x7b\x7d"

mutual

/-- The pieces of the text of a value, to be written one after another. -/
def pieces : Json → List String
  | arr items => "[" :: itemPieces true items
  | obj fields => "\x7b" :: fieldPieces true fields
  | leaf => [renderLeaf leaf]

def itemPieces (first : Bool) : List Json → List String
  | [] => ["]"]
  | item :: rest => (if first then [] else [","]) ++ pieces item ++ itemPieces false rest

def fieldPieces (first : Bool) : List (String × Json) → List String
  | [] => ["\x7d"]
  | (name, value) :: rest =>
    (if first then [] else [","]) ++ (quote name :: ":" :: pieces value) ++ fieldPieces false rest

end

/-- The text of a value without any space. -/
def render (value : Json) : String :=
  String.join (pieces value)

/-! ### Values spread over lines -/

/-- A new line at a depth, two blanks for each level. -/
def lineStart (depth : Nat) : String :=
  "\n" ++ String.ofList (List.replicate (2 * depth) ' ')

mutual

/-- The pieces of the spread text. Empty arrays and objects stay closed up. -/
def spreadPieces (depth : Nat) : Json → List String
  | arr [] => ["[]"]
  | obj [] => ["\x7b\x7d"]
  | arr items => "[" :: spreadItems depth true items
  | obj fields => "\x7b" :: spreadFields depth true fields
  | leaf => [renderLeaf leaf]

def spreadItems (depth : Nat) (first : Bool) : List Json → List String
  | [] => [lineStart depth, "]"]
  | item :: rest =>
    (if first then [] else [","]) ++ (lineStart (depth + 1) :: spreadPieces (depth + 1) item) ++
      spreadItems depth false rest

def spreadFields (depth : Nat) (first : Bool) : List (String × Json) → List String
  | [] => [lineStart depth, "\x7d"]
  | (name, value) :: rest =>
    (if first then [] else [","]) ++
      (lineStart (depth + 1) :: quote name :: ": " :: spreadPieces (depth + 1) value) ++
      spreadFields depth false rest

end

/-- The text of a value with every item and field on a line of its own. -/
def renderSpread (value : Json) : String :=
  String.join (spreadPieces 0 value)

end Json

end CiTelemetry
