/-
This file reads scalars, the texts that indented documents are made of: plain
ones, which end where something else could begin, quoted ones, and blocks of
lines. In plain and quoted scalars the end of a line with what is blank around
it counts as one blank, and an empty line as the end of a line.
-/

import CiTelemetry.Text.Bytes
import CiTelemetry.Yaml.Cursor

namespace CiTelemetry

namespace Yaml

/-! ### Gaps between words -/

/-- What stands between two words of a scalar. -/
structure Gap where
  /-- The blanks before the first end of a line. -/
  blanks : List Char
  /-- The first end of a line, or nothing where it is escaped. -/
  first : Option (Option Char)
  /-- All other ends of lines. -/
  others : List Char
  deriving Repr, Inhabited

namespace Gap

def none : Gap := ⟨[], Option.none, []⟩

def breaksLine (gap : Gap) : Bool :=
  gap.first.isSome

/-- What a gap counts as. -/
def folded (gap : Gap) : List Char :=
  match gap.first with
  | Option.none => gap.blanks
  | some (some '\n') => if gap.others.isEmpty then [' '] else gap.others
  | some first => first.toList ++ gap.others

/-- Reads what separates words. In the indentation of a line, up to a column, no
tab may stand. -/
def read? (limit : Nat) : (fuel : Nat) → Gap → Cursor → Option (Gap × Cursor)
  | 0, gap, cursor => some (gap, cursor)
  | fuel + 1, gap, cursor =>
    match cursor.head? with
    | Option.none => some (gap, cursor)
    | some char =>
      if isGap char then
        if !gap.breaksLine then read? limit fuel { gap with blanks := gap.blanks ++ [char] } cursor.next
        else if char == '\t' && cursor.column < limit then Option.none
        else read? limit fuel gap cursor.next
      else if isBreak char then
        if gap.breaksLine then read? limit fuel { gap with others := gap.others ++ [char] } cursor.next
        else read? limit fuel ⟨[], some (some char), []⟩ cursor.next
      else some (gap, cursor)

end Gap

/-! ### Plain scalars -/

/-- What ends a plain scalar inside brackets. -/
def endsInside (char : Char) : Bool :=
  [',', '[', ']', '\x7b', '\x7d'].contains char

/-- How long the next word of a plain scalar is. -/
def wordLength? (inside : Bool) : List Char → Option Nat
  | [] => some 0
  | char :: rest =>
    if isSeparator (some char) then some 0
    else if inside && char == ':' && rest.head?.any fun next => next == '?' || endsInside next then
      none
    else if (char == ':' && isSeparator rest.head?) || (inside && endsInside char) then some 0
    else (wordLength? inside rest).map (· + 1)

/-- The text of a plain scalar from a place on, after the words already read and
the gap after them. With it comes whether its last gap breaks the line. -/
def plainFrom? (inside : Bool) (limit : Nat) :
    (fuel : Nat) → (words : List Char) → Gap → Cursor → Option (List Char × Bool × Cursor)
  | 0, _, _, _ => none
  | fuel + 1, words, gap, cursor =>
    if cursor.isAtBoundary || cursor.head? == some '#' then some (words, gap.breaksLine, cursor)
    else do
      let length ← wordLength? inside cursor.rest
      let after := cursor.skip length
      if length = 0 then pure (words, gap.breaksLine, cursor)
      else do
        let known := words ++ gap.folded ++ cursor.rest.take length
        let (nextGap, next) ← Gap.read? limit after.rest.length .none after
        if next.offset = after.offset || (!inside && next.column < limit) then
          pure (known, nextGap.breaksLine, next)
        else plainFrom? inside limit fuel known nextGap next

/-- Reads a plain scalar, whose further lines begin at a column at least. -/
def plain? (inside : Bool) (limit : Nat) (cursor : Cursor) :
    Option (List Char × Bool × Cursor) :=
  plainFrom? inside limit (cursor.rest.length + 1) [] .none cursor

/-! ### Quoted scalars -/

/-- A character by the letter of its escape. -/
def letterEscapes : List (Char × Nat) :=
  [('0', 0), ('a', 7), ('b', 8), ('t', 9), ('\t', 9), ('n', 10), ('v', 11), ('f', 12), ('r', 13),
    ('e', 27), (' ', 32), ('"', 34), ('/', 47), ('\\', 92), ('N', 0x85), ('_', 0xA0),
    ('L', 0x2028), ('P', 0x2029), (Char.ofNat 39, 39)]

/-- The letters of escapes by number, with the count of digits. -/
def numberEscapes : List (Char × Nat) :=
  [('x', 2), ('u', 4), ('U', 8)]

/-- The character of an escape, from its letter on, and how many characters the
escape takes. -/
def escape? (text : List Char) : Option (Char × Nat) := do
  let letter ← text.head?
  match letterEscapes.lookup letter, numberEscapes.lookup letter with
  | some point, _ => pure (Char.ofNat point, 1)
  | none, some count => do
    let digits ← ((text.drop 1).take count).mapM hexValue?
    let point := digits.foldl (· * 16 + ·) 0
    if digits.length = count && point.isValidChar then pure (Char.ofNat point, count + 1) else none
  | none, none => none

/-- The text of a quoted scalar up to its closing quote, after what is already
read. -/
def quotedFrom? (quote : Char) : (fuel : Nat) → List Char → Cursor → Option (List Char × Cursor)
  | 0, _, _ => none
  | fuel + 1, known, cursor =>
    let isDouble := quote == '"'
    match cursor.head? with
    | none => none
    | some char =>
      if cursor.isAtBoundary then none
      else if char == quote then
        if !isDouble && cursor.ahead? 1 == some quote then
          quotedFrom? quote fuel (known ++ [quote]) (cursor.skip 2)
        else some (known, cursor.next)
      else if isDouble && char == '\\' then
        if (cursor.ahead? 1).any isBreak then do
          let after := cursor.skip 2
          let (gap, next) ← Gap.read? 0 after.rest.length ⟨[], some none, []⟩ after
          quotedFrom? quote fuel (known ++ gap.folded) next
        else do
          let (escaped, count) ← escape? (cursor.rest.drop 1)
          quotedFrom? quote fuel (known ++ [escaped]) (cursor.skip (count + 1))
      else if isSeparator (some char) then do
        let (gap, next) ← Gap.read? 0 cursor.rest.length .none cursor
        quotedFrom? quote fuel (known ++ gap.folded) next
      else quotedFrom? quote fuel (known ++ [char]) cursor.next

/-- Reads a quoted scalar from its opening quote on. -/
def quoted? (quote : Char) (cursor : Cursor) : Option (List Char × Cursor) :=
  quotedFrom? quote (cursor.rest.length + 1) [] cursor.next

/-! ### Blocks of lines -/

/-- What becomes of the ends of lines at the end of a block. -/
inductive Chomp where
  | strip
  | clip
  | keep
  deriving DecidableEq, Repr, Inhabited

def Chomp.ofChar? : Char → Option Chomp
  | '-' => some .strip
  | '+' => some .keep
  | _ => none

/-- A column that is told by a digit. -/
def indentOfChar? (char : Char) : Option Nat :=
  if '1' ≤ char && char ≤ '9' then some (char.toNat - 48) else none

/-- The mark of a block after its first character: how it ends and how far it is
indented, in either order. -/
def blockHead (cursor : Cursor) : Chomp × Option Nat × Cursor :=
  match cursor.head?.bind Chomp.ofChar?, cursor.head?.bind indentOfChar? with
  | some chomp, _ =>
    match cursor.next.head?.bind indentOfChar? with
    | some indent => (chomp, some indent, cursor.skip 2)
    | none => (chomp, none, cursor.next)
  | none, some indent =>
    match cursor.next.head?.bind Chomp.ofChar? with
    | some chomp => (chomp, some indent, cursor.skip 2)
    | none => (.clip, some indent, cursor.next)
  | none, none => (.clip, none, cursor)

/-- The empty lines that come next: the ends of them, the deepest column reached
in them, and the first line that is not empty. Where the column of the block is
known, blanks beyond it belong to the line. -/
def emptyLines? (column : Option Nat) :
    (fuel : Nat) → (breaks : List Char) → (deepest : Nat) → Cursor →
      Option (List Char × Nat × Cursor)
  | 0, _, _, _ => none
  | fuel + 1, breaks, deepest, cursor =>
    let blanks := (cursor.rest.takeWhile (· == ' ')).length
    let count := match column with
      | some column => min blanks (column - cursor.column)
      | none => blanks
    let start := cursor.skip count
    let reached := max deepest start.column
    let isOpen := column.all (start.column < ·)
    match start.head? with
    | none => some (breaks, reached, start)
    | some char =>
      if isOpen && char == '\t' then none
      else if isBreak char then emptyLines? column fuel (breaks ++ [char]) reached start.next
      else some (breaks, reached, start)

/-- The lines of a block at a column: what is read, the end of the line before,
whether that line began with a blank, and the ends of empty lines since. -/
def blockLines? (literal : Bool) (column : Nat) :
    (fuel : Nat) → (known : List Char) → (lineEnd : List Char) → (wasBlank : Bool) →
      (breaks : List Char) → Cursor → Option (List Char × List Char × List Char × Cursor)
  | 0, _, _, _, _, _ => none
  | fuel + 1, known, lineEnd, wasBlank, breaks, cursor =>
    match cursor.head? with
    | none => some (known, lineEnd, breaks, cursor)
    | some char =>
      if cursor.column != column then some (known, lineEnd, breaks, cursor)
      else do
        let isIndented := isGap char
        let joint :=
          if !literal && lineEnd == ['\n'] && !wasBlank && !isIndented then
            if breaks.isEmpty then [' '] else []
          else lineEnd
        let line := cursor.rest.takeWhile fun char => !isBreak char
        let lineStop := cursor.skip line.length
        let (nextBreaks, _, next) ←
          emptyLines? (some column) (cursor.rest.length + 1) [] 0 lineStop.next
        blockLines? literal column fuel (known ++ joint ++ breaks ++ line) lineStop.head?.toList
          isIndented nextBreaks next

/-- Reads a block of lines from its mark on; `indent` is the column of what the
block belongs to, if it belongs to anything. -/
def block? (literal : Bool) (indent : Option Nat) (cursor : Cursor) :
    Option (List Char × Cursor) := do
  let (chomp, told, afterHead) := blockHead cursor.next
  let afterGap := afterHead.skipGaps
  let lineStop := if afterGap.head? == some '#' then afterGap.skipLine else afterGap
  if !lineStop.head?.all isBreak then none
  else do
    let least := indent.elim 0 (· + 1)
    let start := lineStop.next
    let fuel := cursor.rest.length + 1
    let known := told.map fun told => indent.elim told (· + told)
    let (breaks, deepest, first) ← emptyLines? known fuel [] 0 start
    let column := known.getD (max (max deepest least) 1)
    let (text, lineEnd, trailing, next) ←
      blockLines? literal column fuel [] [] false breaks first
    let ending := match chomp with
      | .strip => []
      | .clip => lineEnd
      | .keep => lineEnd ++ trailing
    pure (text ++ ending, next)

end Yaml

end CiTelemetry
