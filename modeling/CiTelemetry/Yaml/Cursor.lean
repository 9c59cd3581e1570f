/-
This file holds the place that a reader of indented text has reached, and the
classes of characters that such text is made of.
-/

namespace CiTelemetry

namespace Yaml

/-! ### Characters -/

/-- The end of a line. Two separators of lines and paragraphs end a line as well
and are kept as they are. -/
def isBreak (char : Char) : Bool :=
  char == '\n' || char.toNat == 0x2028 || char.toNat == 0x2029

def isGap (char : Char) : Bool :=
  char == ' ' || char == '\t'

/-- What separates words; the end of the text does so as well. -/
def isSeparator (char : Option Char) : Bool :=
  match char with
  | none => true
  | some char => isGap char || isBreak char

/-- Whether a character may stand in indented text at all. -/
def isPrintable (char : Char) : Bool :=
  let point := char.toNat
  point == 9 || point == 10 || point == 13 || (0x20 ≤ point && point ≤ 0x7E) || point == 0x85 ||
    (0xA0 ≤ point && point ≤ 0xFFFD && point != 0xFEFF) || 0x10000 ≤ point

/-- Writes every end of a line as one line feed. -/
def unifyBreaks : List Char → List Char
  | '\r' :: '\n' :: rest => '\n' :: unifyBreaks rest
  | '\r' :: rest => '\n' :: unifyBreaks rest
  | char :: rest => (if char.toNat = 0x85 then '\n' else char) :: unifyBreaks rest
  | [] => []

/-! ### Places -/

/-- A place in a text. -/
structure Cursor where
  rest : List Char
  line : Nat
  column : Nat
  offset : Nat
  deriving Repr, Inhabited

namespace Cursor

def atStart (text : List Char) : Cursor :=
  ⟨text, 0, 0, 0⟩

/-- The character that is `distance` ahead. -/
def ahead? (cursor : Cursor) (distance : Nat) : Option Char :=
  cursor.rest[distance]?

def head? (cursor : Cursor) : Option Char :=
  cursor.rest.head?

/-- The place after the next character. -/
def next (cursor : Cursor) : Cursor :=
  match cursor.rest with
  | [] => cursor
  | char :: rest =>
    if isBreak char then ⟨rest, cursor.line + 1, 0, cursor.offset + 1⟩
    else ⟨rest, cursor.line, cursor.column + 1, cursor.offset + 1⟩

def skip (count : Nat) (cursor : Cursor) : Cursor :=
  match count with
  | 0 => cursor
  | count + 1 => cursor.next.skip count

/-- The characters of a class that come next, and the place after them. -/
def span (isMember : Char → Bool) (cursor : Cursor) : List Char × Cursor :=
  let taken := cursor.rest.takeWhile isMember
  (taken, cursor.skip taken.length)

/-- The place after the blanks that come next. -/
def skipGaps (cursor : Cursor) : Cursor :=
  (cursor.span isGap).2

/-- The place at the end of the line. -/
def skipLine (cursor : Cursor) : Cursor :=
  (cursor.span fun char => !isBreak char).2

/-- Whether a mark of three equal characters stands alone at the start of a
line. -/
def isAtMark (mark : Char) (cursor : Cursor) : Bool :=
  cursor.column == 0 && cursor.rest.take 3 == [mark, mark, mark] && isSeparator (cursor.ahead? 3)

/-- Whether a document begins or ends here. -/
def isAtBoundary (cursor : Cursor) : Bool :=
  cursor.isAtMark '-' || cursor.isAtMark '.'

end Cursor

end Yaml

end CiTelemetry
