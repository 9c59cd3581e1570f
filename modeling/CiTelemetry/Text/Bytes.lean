/-
This file holds the reading of bytes as text. A byte sequence is cut into code
points and damaged stretches once, by `Utf8.pieces`; the strict reading accepts
only sequences without damage, and the lenient reading shows one replacement
character for each damaged stretch.
-/

import CiTelemetry.Number.Power

namespace CiTelemetry

/-- A log, a response body or a file is a finite sequence of bytes. -/
abbrev Bytes := List UInt8

namespace Utf8

/-! ### Code points -/

/-- A continuation byte carries six bits under the mark `10`. -/
def isContinuation (byte : UInt8) : Bool :=
  0x80 ≤ byte && byte ≤ 0xBF

/-- The six bits of a continuation byte. -/
def payload (byte : UInt8) : Nat :=
  byte.toNat % 64

/-- How many continuation bytes a leading byte announces, with the number of
its own payload bits that count and the range its first continuation byte must
lie in. The narrow ranges rule out overlong forms, surrogates and values above
the last code point. -/
def leading? (byte : UInt8) : Option (Nat × Nat × UInt8 × UInt8) :=
  if 0xC2 ≤ byte && byte ≤ 0xDF then some (1, byte.toNat % 32, 0x80, 0xBF)
  else if byte == 0xE0 then some (2, 0, 0xA0, 0xBF)
  else if byte == 0xED then some (2, 13, 0x80, 0x9F)
  else if 0xE1 ≤ byte && byte ≤ 0xEF then some (2, byte.toNat % 16, 0x80, 0xBF)
  else if byte == 0xF0 then some (3, 0, 0x90, 0xBF)
  else if byte == 0xF4 then some (3, 4, 0x80, 0x8F)
  else if 0xF1 ≤ byte && byte ≤ 0xF3 then some (3, byte.toNat % 8, 0x80, 0xBF)
  else none

/-- Cuts bytes into code points. A stretch that cannot be continued to a code
point stands as one `none`; it is as long as the longest beginning of a code
point found there, and at least one byte. -/
def pieces : Bytes → List (Option Char)
  | [] => []
  | byte :: rest =>
    if byte < 0x80 then
      some (Char.ofNat byte.toNat) :: pieces rest
    else
      match leading? byte with
      | none => none :: pieces rest
      | some (count, top, low, high) =>
        match rest with
        | [] => [none]
        | second :: afterSecond =>
          if low ≤ second && second ≤ high then
            let two := top * 64 + payload second
            if count = 1 then
              some (Char.ofNat two) :: pieces afterSecond
            else
              match afterSecond with
              | [] => [none]
              | third :: afterThird =>
                if isContinuation third then
                  let three := two * 64 + payload third
                  if count = 2 then
                    some (Char.ofNat three) :: pieces afterThird
                  else
                    match afterThird with
                    | [] => [none]
                    | fourth :: afterFourth =>
                      if isContinuation fourth then
                        some (Char.ofNat (three * 64 + payload fourth)) :: pieces afterFourth
                      else
                        none :: pieces (fourth :: afterFourth)
                else
                  none :: pieces (third :: afterThird)
          else
            none :: pieces (second :: afterSecond)

/-! ### Reading and writing -/

/-- The characters of an undamaged byte sequence, and `none` for a damaged one. -/
def decode? (bytes : Bytes) : Option String :=
  ((pieces bytes).mapM id).map String.ofList

/-- The characters of any byte sequence, one replacement character for each
damaged stretch. -/
def decodeLenient (bytes : Bytes) : String :=
  String.ofList ((pieces bytes).map (·.getD '\uFFFD'))

/-- The bytes of a text. -/
def encode (text : String) : Bytes :=
  text.toList.flatMap String.utf8EncodeChar

end Utf8

/-! ### Bytes written as text -/

/-- The lower-case hexadecimal digit of a number below sixteen. -/
def hexDigit (number : Nat) : Char :=
  if number < 10 then Char.ofNat (48 + number) else Char.ofNat (87 + number)

/-- A number as exactly `width` lower-case hexadecimal digits, the highest first;
higher digits are cut off. -/
def hexDigits (width number : Nat) : String :=
  String.ofList ((List.range width).map fun place =>
    hexDigit (number / twoTo (4 * (width - 1 - place)) % 16))

/-- The value of a hexadecimal digit of either case. -/
def hexValue? (char : Char) : Option Nat :=
  if '0' ≤ char && char ≤ '9' then some (char.toNat - 48)
  else if 'a' ≤ char && char ≤ 'f' then some (char.toNat - 87)
  else if 'A' ≤ char && char ≤ 'F' then some (char.toNat - 55)
  else none

/-- Reads pairs of hexadecimal digits. -/
def Bytes.ofHex? : List Char → Option Bytes
  | [] => some []
  | [_] => none
  | high :: low :: rest => do
    let highValue ← hexValue? high
    let lowValue ← hexValue? low
    let bytes ← Bytes.ofHex? rest
    pure (UInt8.ofNat (highValue * 16 + lowValue) :: bytes)

end CiTelemetry
