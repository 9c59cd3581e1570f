/-
This file writes instants as dates with a time of day and reads them back. The
writer has one form; the reader is more tolerant: numbers may lack leading
zeros, blanks may stand between the parts, and any offset from universal time
below a day is taken into account.
-/

import CiTelemetry.Number.Decimal
import CiTelemetry.Text.Blank
import CiTelemetry.Time.Calendar
import CiTelemetry.Time.Instant

namespace CiTelemetry

namespace Instant

/-! ### Writing -/

/-- A number with at least `width` digits, zeros in front. -/
def padded (width number : Nat) : String :=
  let digits := toString number
  String.ofList (List.replicate (width - digits.length) '0') ++ digits

/-- Four digits for the years from 0 to 9999, and a sign before every other. -/
def renderYear (year : Int) : String :=
  if 0 ≤ year && year ≤ 9999 then padded 4 year.toNat
  else (if year < 0 then "-" else "+") ++ padded 4 year.natAbs

/-- The fewest of no, three, six or nine digits that show the fraction exactly. -/
def renderFraction (nanos : Nat) : String :=
  if nanos = 0 then ""
  else if nanos % 1000000 = 0 then "." ++ padded 3 (nanos / 1000000)
  else if nanos % 1000 = 0 then "." ++ padded 6 (nanos / 1000)
  else "." ++ padded 9 nanos

/-- Date and time of day, with `zone` behind them. A leap second shows as the
sixtieth. -/
def renderWith (zone : String) (instant : Instant) : String :=
  let date := CalendarDate.ofDays (instant.seconds / 86400)
  let secondOfDay := (instant.seconds % 86400).toNat
  let isLeap : Bool := nanosPerSecond ≤ instant.nanos
  let second := secondOfDay % 60 + (if isLeap then 1 else 0)
  let nanos := if isLeap then instant.nanos - nanosPerSecond else instant.nanos
  renderYear date.year ++ "-" ++ padded 2 date.month ++ "-" ++ padded 2 date.day ++ "T" ++
    padded 2 (secondOfDay / 3600) ++ ":" ++ padded 2 (secondOfDay / 60 % 60) ++ ":" ++
    padded 2 second ++ renderFraction nanos ++ zone

/-- The form that records carry. -/
def render : Instant → String :=
  renderWith "Z"

/-- The form that query variables carry. -/
def renderOffset : Instant → String :=
  renderWith "+00:00"

/-! ### Reading -/

/-- What a part of the text reads, with the characters after it. -/
abbrev Reading (α : Type) := Option (α × List Char)

/-- At least one and at most `width` digits. -/
def digits? (width : Nat) (text : List Char) : Reading Nat :=
  let digits := (text.take width).takeWhile Char.isDigit
  if digits.isEmpty then none else some (digitsValue digits, text.drop digits.length)

/-- A number of at most two digits, after blanks, within bounds. -/
def part? (low high : Nat) (text : List Char) : Reading Nat :=
  (digits? 2 (trimStart text)).filter fun (number, _) => low ≤ number && number ≤ high

/-- A year of at most four digits, or of any number of digits after a sign. -/
def year? (text : List Char) : Reading Int :=
  match trimStart text with
  | '-' :: rest => (digits? rest.length rest).map fun (year, after) => (-(year : Int), after)
  | '+' :: rest => (digits? rest.length rest).map fun (year, after) => ((year : Int), after)
  | rest => (digits? 4 rest).map fun (year, after) => ((year : Int), after)

/-- The characters after a mark, which blanks may precede. -/
def mark? (mark : Char) (text : List Char) : Option (List Char) :=
  match trimStart text with
  | found :: rest => if found = mark then some rest else none
  | [] => none

/-- An optional fraction of a second in nanoseconds; digits past the ninth are
passed over. -/
def fraction? : List Char → Reading Nat
  | '.' :: rest =>
    let digits := rest.takeWhile Char.isDigit
    if digits.isEmpty then none
    else
      let kept := digits.take 9
      some (digitsValue kept * tenTo (9 - kept.length), rest.dropWhile Char.isDigit)
  | text => some (0, text)

/-- Minutes of an offset: exactly two digits below sixty. -/
def offsetMinutes? : List Char → Reading Nat
  | tens :: ones :: rest =>
    if '0' ≤ tens && tens ≤ '5' && ones.isDigit then some (digitsValue [tens, ones], rest) else none
  | _ => none

/-- Hours and minutes of an offset, with any run of colons and blanks between. -/
def offsetAmount? : List Char → Reading Nat
  | tens :: ones :: rest =>
    if tens.isDigit && ones.isDigit then
      let separated := rest.dropWhile fun char => char == ':' || isBlank char
      (offsetMinutes? separated).map fun (minutes, after) =>
        (digitsValue [tens, ones] * 3600 + minutes * 60, after)
    else none
  | _ => none

/-- The characters after the letters `UTC`, capital or small. -/
def afterUniversal? (text : List Char) : Option (List Char) :=
  if (text.take 3).map Char.toUpper = ['U', 'T', 'C'] then some (text.drop 3) else none

/-- An offset from universal time in seconds with its sign, which is below a
day. -/
def signedOffset? : List Char → Reading Int
  | sign :: rest =>
    let amount := (offsetAmount? rest).filter (·.1 < 86400)
    if sign == '+' then amount.map fun (seconds, after) => ((seconds : Int), after)
    else if sign == '-' || sign == '\u2212' then
      amount.map fun (seconds, after) => (-(seconds : Int), after)
    else none
  | [] => none

/-- An offset from universal time in seconds: letters for universal time itself,
or a sign and an amount. -/
def offset? (text : List Char) : Reading Int :=
  let zone := trimStart text
  match afterUniversal? zone, zone with
  | some rest, _ => some (0, rest)
  | none, 'Z' :: rest => some (0, rest)
  | none, 'z' :: rest => some (0, rest)
  | none, _ => signedOffset? zone

/-- The first and the last second that an instant may have: those of the years
from -262143 to 262142. -/
def secondBounds : Int × Int :=
  (CalendarDate.toDays ⟨-262143, 1, 1⟩ * 86400, CalendarDate.toDays ⟨262143, 1, 1⟩ * 86400 - 1)

/-- The instant at the beginning of a unix second, within the bounds of time. -/
def ofSeconds? (seconds : Int) : Option Instant :=
  if secondBounds.1 ≤ seconds && seconds ≤ secondBounds.2 then some ⟨seconds, 0⟩ else none

/-- The separator between date and time of day. -/
def separator? : List Char → Option (List Char)
  | char :: rest => if char == 'T' || char == 't' || char == ' ' then some rest else none
  | [] => none

/-- Reads an instant from a text that holds nothing else. -/
def read? (text : List Char) : Option Instant := do
  let (year, afterYear) ← year? text
  let (month, afterMonth) ← part? 1 12 (← mark? '-' afterYear)
  let (day, afterDay) ← part? 1 31 (← mark? '-' afterMonth)
  let (hour, afterHour) ← part? 0 23 (← separator? afterDay)
  let (minute, afterMinute) ← part? 0 59 (← mark? ':' afterHour)
  let (second, afterSecond) ← part? 0 60 (← mark? ':' afterMinute)
  let (nanos, afterFraction) ← fraction? afterSecond
  let (offset, rest) ← offset? afterFraction
  let date : CalendarDate := ⟨year, month, day⟩
  if !date.isValid || !(trimStart rest).isEmpty then none
  else
    let isLeap : Bool := second == 60
    let secondOfDay := hour * 3600 + minute * 60 + (if isLeap then 59 else second)
    let localSecond := date.toDays * 86400 + secondOfDay
    (ofSeconds? localSecond).bind fun _ =>
      (ofSeconds? (localSecond - offset)).map fun instant =>
        { instant with nanos := if isLeap then nanos + nanosPerSecond else nanos }

end Instant

end CiTelemetry
