/-
This file holds the writing of text inside addresses. A byte that may not stand
for itself is written as a percent sign with two hexadecimal digits; which ones
those are depends on the place. In forms a blank is written as a plus sign.
-/

import CiTelemetry.Text.Bytes

namespace CiTelemetry

namespace Percent

/-- The capital hexadecimal digit of a number below sixteen. -/
def capitalHexDigit (number : Nat) : Char :=
  if number < 10 then Char.ofNat (48 + number) else Char.ofNat (55 + number)

def escapeByte (byte : UInt8) : List Char :=
  ['%', capitalHexDigit (byte.toNat / 16), capitalHexDigit (byte.toNat % 16)]

/-! ### Places in an address -/

/-- What is escaped everywhere: controls and everything beyond ASCII. -/
def inOpaquePath (char : Char) : Bool :=
  char.toNat < 0x20 || 0x7E < char.toNat

def inFragment (char : Char) : Bool :=
  inOpaquePath char || char == ' ' || char == '"' || char == '<' || char == '>' ||
    char.toNat == 0x60

def inQuery (char : Char) : Bool :=
  inOpaquePath char || char == ' ' || char == '"' || char == '#' || char == '<' || char == '>'

/-- The queries of web addresses escape the apostrophe as well. -/
def inWebQuery (char : Char) : Bool :=
  inQuery char || char.toNat == 0x27

def inPath (char : Char) : Bool :=
  inFragment char || char == '#' || char == '?' || char == '\x7b' || char == '\x7d'

def inUserInfo (char : Char) : Bool :=
  inPath char || ['/', ':', ';', '=', '@', '[', '\\', ']', '^', '|'].contains char

/-- What is escaped in forms: all but letters, digits and four marks. -/
def inForm (char : Char) : Bool :=
  !(char.isAlphanum || char == '*' || char == '-' || char == '.' || char == '_')

/-! ### Writing and reading -/

/-- Writes text with the characters of a place escaped. -/
def escape (isEscaped : Char → Bool) (text : List Char) : List Char :=
  text.flatMap fun char =>
    if isEscaped char then (String.utf8EncodeChar char).flatMap escapeByte else [char]

/-- Writes text as a part of a form. -/
def form (text : List Char) : List Char :=
  text.flatMap fun char => if char = ' ' then ['+'] else escape inForm [char]

/-- The bytes that text with escapes stands for. A percent sign without two
digits after it stands for itself. -/
def unescape : List Char → Bytes
  | [] => []
  | '%' :: high :: low :: rest =>
    match hexValue? high, hexValue? low with
    | some highValue, some lowValue => UInt8.ofNat (highValue * 16 + lowValue) :: unescape rest
    | _, _ => String.utf8EncodeChar '%' ++ unescape (high :: low :: rest)
  | char :: rest => String.utf8EncodeChar char ++ unescape rest

end Percent

end CiTelemetry
