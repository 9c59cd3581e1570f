/-
This file holds the hosts of addresses: names, and the two kinds of numbers that
stand for machines. A name whose last label is a number is read as one, and a
name beyond ASCII is brought to small letters and written with letters, digits
and hyphens.
-/

import CiTelemetry.Http.Percent
import CiTelemetry.Http.Punycode
import CiTelemetry.Number.Decimal
import CiTelemetry.Text.Blank
import CiTelemetry.Text.LowerCase

namespace CiTelemetry

/-- Why text is no address. -/
inductive AddressFault where
  | emptyHost
  | invalidDomain
  | invalidPort
  | invalidFourPartNumber
  | invalidEightPartNumber
  | invalidHostCharacter
  /-- The address is relative, and there is none that it could be relative to. -/
  | withoutBase
  /-- The address is relative to one that has no place for others below it. -/
  | belowOpaque
  deriving DecidableEq, Repr, Inhabited

def AddressFault.message : AddressFault → String
  | emptyHost => "empty host"
  | invalidDomain => "invalid international domain name"
  | invalidPort => "invalid port number"
  | invalidFourPartNumber => "invalid IPv4 address"
  | invalidEightPartNumber => "invalid IPv6 address"
  | invalidHostCharacter => "invalid domain character"
  | withoutBase => "relative URL without a base"
  | belowOpaque => "relative URL with a cannot-be-a-base base"

/-- The host of an address. -/
inductive Host where
  | named (name : String)
  /-- A machine by a number of four parts, each a byte. -/
  | fourParts (number : Nat)
  /-- A machine by a number of eight parts, each of 16 bits. -/
  | eightParts (parts : List Nat)
  deriving DecidableEq, Repr, Inhabited

/-- Cuts text at every character of a kind. -/
def splitWhere (isCut : Char → Bool) : List Char → List (List Char)
  | [] => [[]]
  | char :: rest =>
    match splitWhere isCut rest with
    | [] => [[char]]
    | first :: others => if isCut char then [] :: first :: others else (char :: first) :: others

/-! ### Names -/

namespace DomainName

/-- Characters that are passed over in a name: soft hyphens, joiners of words,
zero-width spaces and the selectors of variants. -/
def isIgnored (char : Char) : Bool :=
  [0xAD, 0x34F, 0x200B, 0x2060, 0x2064, 0xFEFF].contains char.toNat ||
    (0x180B ≤ char.toNat && char.toNat ≤ 0x180D) || (0xFE00 ≤ char.toNat && char.toNat ≤ 0xFE0F)

/-- Controls, marks of direction, characters for private use and stand-ins for
what could not be read. -/
def isRefused (char : Char) : Bool :=
  let point := char.toNat
  (0x80 ≤ point && point ≤ 0x9F) || (0x200E ≤ point && point ≤ 0x200F) ||
    (0x2028 ≤ point && point ≤ 0x202E) || (0x2061 ≤ point && point ≤ 0x206F) ||
    (0xE000 ≤ point && point ≤ 0xF8FF) || (0xFDD0 ≤ point && point ≤ 0xFDEF) ||
    (0xFFF9 ≤ point && point ≤ 0xFFFF) || 0xE0000 ≤ point

/-- Full stops of other scripts, and the wide forms of ASCII. -/
def narrow (char : Char) : Char :=
  if char.toNat = 0x3002 || char.toNat = 0xFF61 then '.'
  else if 0xFF01 ≤ char.toNat && char.toNat ≤ 0xFF5E then Char.ofNat (char.toNat - 0xFEE0)
  else if !Punycode.isBasic char && isBlank char then ' '
  else char

/-- What may not stand in a name. -/
def isForbidden (char : Char) : Bool :=
  char.toNat ≤ 0x20 || char.toNat = 0x7F ||
    ['%', '#', '/', ':', '<', '>', '?', '@', '[', '\\', ']', '^', '|'].contains char

/-- What the labels that tell of characters beyond ASCII begin with. -/
def mark : List Char := "xn--".toList

/-- A label in ASCII. One that is marked has to tell of some character beyond
ASCII. -/
def label? (label : List Char) : Option (List Char) :=
  if mark.isPrefixOf label then
    match Punycode.decode? (label.drop 4) with
    | some name =>
      if name.all Punycode.isBasic || name.any isRefused then none else some label
    | none => none
  else if label.all Punycode.isBasic then some label
  else some (mark ++ Punycode.encode label)

/-- A name in ASCII and small letters. -/
def ascii? (text : List Char) : Option (List Char) :=
  let small := (text.filter fun char => !isIgnored char).flatMap fun char =>
    LowerCase.ofChar (narrow char)
  if small.any isRefused || small.any isForbidden then none
  else do
    let labels ← (splitWhere (· == '.') small).mapM label?
    pure (List.intercalate ['.'] labels)

end DomainName

/-! ### Numbers of four parts -/

namespace FourPartNumber

/-- A part, in base 16 after `0x`, in base 8 after a zero, and else in base
ten. -/
def part? : List Char → Option Nat
  | [] => none
  | ['0'] => some 0
  | '0' :: 'x' :: digits => inBase 16 digits
  | '0' :: 'X' :: digits => inBase 16 digits
  | '0' :: digits => inBase 8 digits
  | digits => inBase 10 digits
where
  inBase (base : Nat) (digits : List Char) : Option Nat :=
    digits.foldlM (fun number char =>
      (hexValue? char).bind fun value => if value < base then some (number * base + value) else none)
      0

/-- The labels of a name, the empty one after a last full stop left out. -/
def labels (name : List Char) : List (List Char) :=
  let all := splitWhere (· == '.') name
  if 1 < all.length && all.getLast? == some [] then all.dropLast else all

/-- Whether a name ends in a number. -/
def endsName (name : List Char) : Bool :=
  match (labels name).getLast? with
  | some last => (!last.isEmpty && last.all Char.isDigit) || (part? last).isSome
  | none => false

/-- Reads a number. All parts but the last are one byte each, and the last one
fills the bytes that are left. -/
def read? (name : List Char) : Option Nat := do
  let parts ← (labels name).mapM part?
  let last ← parts.getLast?
  let leading := parts.dropLast
  if parts.length ≤ 4 && leading.all (· < 256) && last < twoTo (8 * (4 - leading.length)) then
    pure (leading.zipIdx.foldl (fun sum (part, index) => sum + part * twoTo (8 * (3 - index))) last)
  else none

def render (number : Nat) : String :=
  ".".intercalate ([3, 2, 1, 0].map fun place => toString (number / twoTo (8 * place) % 256))

end FourPartNumber

/-! ### Numbers of eight parts -/

namespace EightPartNumber

/-- A part of one to four hexadecimal digits. -/
def part? (digits : List Char) : Option Nat := do
  let values ← digits.mapM hexValue?
  if 1 ≤ values.length && values.length ≤ 4 then pure (values.foldl (· * 16 + ·) 0) else none

/-- The two parts that four bytes in base ten stand for. -/
def byteParts? (text : List Char) : Option (List Nat) := do
  let bytes ← (splitWhere (· == '.') text).mapM fun digits =>
    if digits.all Char.isDigit && 1 ≤ digits.length && digits.length ≤ 3 &&
        (digits.length = 1 || digits.head? != some '0') && digitsValue digits < 256
    then some (digitsValue digits) else none
  match bytes with
  | [first, second, third, fourth] => pure [first * 256 + second, third * 256 + fourth]
  | _ => none

/-- The parts between colons, the last of which may be four bytes. -/
def parts? : List (List Char) → Option (List Nat)
  | [] => some []
  | [last] => if last.contains '.' then byteParts? last else (part? last).map ([·])
  | first :: rest => do
    let part ← part? first
    let others ← parts? rest
    pure (part :: others)

/-- The parts of one side of a double colon; an empty side has none. -/
def side? (text : List Char) : Option (List Nat) :=
  if text.isEmpty then some [] else parts? (splitWhere (· == ':') text)

/-- Splits text at its first double colon. -/
def splitAtGap (before : List Char) : List Char → Option (List Char × List Char)
  | ':' :: ':' :: rest => some (before.reverse, rest)
  | char :: rest => splitAtGap (char :: before) rest
  | [] => none

/-- Reads a number. A double colon stands for the zeros that are missing, at
least one. -/
def read? (text : List Char) : Option (List Nat) := do
  match splitAtGap [] text with
  | none =>
    let parts ← side? text
    if parts.length = 8 then pure parts else none
  | some (before, after) =>
    let high ← if before.contains '.' then none else side? before
    let low ← side? after
    let count := high.length + low.length
    if count ≤ 7 then pure (high ++ List.replicate (8 - count) 0 ++ low) else none

/-- The place and length of the first longest run of zeros. -/
def longestGap (parts : List Nat) : Nat × Nat :=
  let runs := (List.range parts.length).map fun place =>
    (place, ((parts.drop place).takeWhile (· == 0)).length)
  runs.foldl (fun best run => if best.2 < run.2 then run else best) (0, 0)

def hexNumeral (part : Nat) : String :=
  String.ofList (Nat.toDigits 16 part)

/-- Writes a number with its longest run of at least two zeros left out. -/
def render (parts : List Nat) : String :=
  let write (run : List Nat) : String := ":".intercalate (run.map hexNumeral)
  let (place, count) := longestGap parts
  if 2 ≤ count then write (parts.take place) ++ "::" ++ write (parts.drop (place + count))
  else write parts

end EightPartNumber

/-! ### Hosts -/

namespace Host

/-- Reads what stands in square brackets. -/
def readBracketed (text : List Char) : Except AddressFault Host :=
  if text.getLast? == some ']' then
    match EightPartNumber.read? text.dropLast with
    | some parts => .ok (eightParts parts)
    | none => .error .invalidEightPartNumber
  else .error .invalidEightPartNumber

/-- Reads the host of a web address. -/
def readWeb (text : List Char) : Except AddressFault Host :=
  match text with
  | '[' :: rest => readBracketed rest
  | _ =>
    match DomainName.ascii? (Utf8.decodeLenient (Percent.unescape text)).toList with
    | none => .error .invalidDomain
    | some [] => .error .emptyHost
    | some name =>
      if FourPartNumber.endsName name then
        match FourPartNumber.read? name with
        | some number => .ok (fourParts number)
        | none => .error .invalidFourPartNumber
      else .ok (named (String.ofList name))

/-- What may not stand in the host of an address that is no web address. -/
def isForbidden (char : Char) : Bool :=
  [0, 9, 10, 13].contains char.toNat ||
    [' ', '#', '/', ':', '<', '>', '?', '@', '[', '\\', ']', '^', '|'].contains char

/-- Reads the host of an address that is no web address; it may be empty. -/
def readOther (text : List Char) : Except AddressFault Host :=
  match text with
  | '[' :: rest => readBracketed rest
  | _ =>
    if text.any isForbidden then .error .invalidHostCharacter
    else .ok (named (String.ofList (Percent.escape Percent.inOpaquePath text)))

def isEmpty : Host → Bool
  | named name => name.isEmpty
  | _ => false

def render : Host → String
  | named name => name
  | fourParts number => FourPartNumber.render number
  | eightParts parts => "[" ++ EightPartNumber.render parts ++ "]"

end Host

end CiTelemetry
