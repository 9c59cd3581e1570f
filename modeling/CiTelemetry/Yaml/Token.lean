/-
This file cuts indented text into tokens, among them those that stand for the
beginning and end of an indented collection. That something was the key of a
mapping shows only at the colon after it; its token is therefore put in later,
at the place that was kept in mind when the key began.
-/

import CiTelemetry.Yaml.Scalar

namespace CiTelemetry

namespace Yaml

inductive Token where
  | documentStart
  | documentStop
  /-- A line to the reader of the document, which may tell the version. -/
  | directive (isVersion : Bool)
  | indentedList
  | indentedMapping
  | indentStop
  | listStart
  | listStop
  | mappingStart
  | mappingStop
  /-- A dash before an element. -/
  | element
  | comma
  | key
  | value
  | anchor (name : String)
  | reference (name : String)
  | tag (text : String)
  | scalar (text : String) (isPlain : Bool)
  deriving DecidableEq, Repr, Inhabited

/-! ### What is kept in mind -/

/-- A place at which a key may have begun. -/
structure KeyPlace where
  /-- How many tokens were before it. -/
  position : Nat
  cursor : Cursor
  /-- Whether it has to be a key, because nothing else may stand there. -/
  isRequired : Bool
  deriving Repr, Inhabited

/-- What is known while text is cut. -/
structure Scan where
  cursor : Cursor
  tokens : List Token
  /-- The columns of the open collections, the innermost first. -/
  columns : List Nat
  /-- Where a key may have begun: inside the innermost bracket first, and last
  outside of all brackets. -/
  keys : List (Option KeyPlace)
  /-- Whether a key may begin here. -/
  allowsKey : Bool
  deriving Repr, Inhabited

namespace Scan

def start (text : List Char) : Scan :=
  ⟨.atStart text, [], [], [none], true⟩

/-- Whether the place is inside brackets. -/
def isInside (scan : Scan) : Bool :=
  1 < scan.keys.length

def push (scan : Scan) (token : Token) : Scan :=
  { scan with tokens := scan.tokens ++ [token] }

def moveTo (scan : Scan) (cursor : Cursor) : Scan :=
  { scan with cursor }

def allow (scan : Scan) (allowsKey : Bool) : Scan :=
  { scan with allowsKey }

/-- Closes the collections that are indented deeper than `column`; all of them
where there is none. Brackets keep them open. -/
def closeBeyond (column : Option Nat) (scan : Scan) : Scan :=
  if scan.isInside then scan
  else
    let isClosed (openColumn : Nat) : Bool := column.all (· < openColumn)
    let closed := scan.columns.takeWhile isClosed
    { scan with
      tokens := scan.tokens ++ List.replicate closed.length .indentStop
      columns := scan.columns.drop closed.length }

/-- Opens a collection at a column unless one is open there, its token being put
in at a position. -/
def openAt (column : Nat) (position : Nat) (token : Token) (scan : Scan) : Scan :=
  if scan.isInside || !scan.columns.head?.all (· < column) then scan
  else
    { scan with
      tokens := scan.tokens.insertIdx position token
      columns := column :: scan.columns }

/-! ### Keys -/

/-- Gives up a key that did not get its colon, which a required one must not. -/
def giveUpKey? (scan : Scan) : Option Scan :=
  match scan.keys with
  | some place :: rest => if place.isRequired then none else some { scan with keys := none :: rest }
  | _ => some scan

/-- Keeps in mind that a key may begin here. -/
def keepKey? (scan : Scan) : Option Scan :=
  if !scan.allowsKey then some scan
  else do
    let scan ← scan.giveUpKey?
    let isRequired := !scan.isInside && scan.columns.head? == some scan.cursor.column
    pure { scan with
      keys := some ⟨scan.tokens.length, scan.cursor, isRequired⟩ :: scan.keys.drop 1 }

/-- Gives up the keys that ended with their line or became too long. -/
def giveUpStale? (scan : Scan) : Option Scan := do
  let keys ← scan.keys.mapM fun kept =>
    match kept with
    | none => some none
    | some place =>
      if place.cursor.line < scan.cursor.line || place.cursor.offset + 1024 < scan.cursor.offset then
        if place.isRequired then none else some none
      else some (some place)
  pure { scan with keys }

/-! ### Blanks -/

/-- Passes over blanks, comments and ends of lines. A tab is blank only where no
key may begin. -/
def skipBlanks (scan : Scan) : (fuel : Nat) → Scan
  | 0 => scan
  | fuel + 1 =>
    match scan.cursor.head? with
    | none => scan
    | some char =>
      if char == ' ' || (char == '\t' && (scan.isInside || !scan.allowsKey)) then
        skipBlanks (scan.moveTo scan.cursor.next) fuel
      else if char == '#' then skipBlanks (scan.moveTo scan.cursor.skipLine) fuel
      else if isBreak char then
        let after := scan.moveTo scan.cursor.next
        skipBlanks (if scan.isInside then after else after.allow true) fuel
      else scan

/-! ### Tokens -/

/-- A mark that ends all collections. -/
def boundary? (token : Token) (cursor : Cursor) (scan : Scan) : Option Scan := do
  let scan ← (scan.closeBeyond none).giveUpKey?
  pure (((scan.allow false).push token).moveTo cursor)

def openBracket? (token : Token) (scan : Scan) : Option Scan := do
  let scan ← scan.keepKey?
  pure ((({ scan with keys := none :: scan.keys }.allow true).push token).moveTo scan.cursor.next)

def closeBracket? (token : Token) (scan : Scan) : Option Scan := do
  let scan ← scan.giveUpKey?
  let keys := if scan.isInside then scan.keys.drop 1 else scan.keys
  pure ((({ scan with keys }.allow false).push token).moveTo scan.cursor.next)

def comma? (scan : Scan) : Option Scan := do
  let scan ← scan.giveUpKey?
  pure (((scan.allow true).push .comma).moveTo scan.cursor.next)

/-- A dash or a mark of a key, before which a collection is opened where none is
open; only where a key may begin. -/
def opening? (collection token : Token) (allowsNext : Bool) (scan : Scan) : Option Scan :=
  if !scan.isInside && !scan.allowsKey then none
  else do
    let opened := scan.openAt scan.cursor.column scan.tokens.length collection
    let scan ← opened.giveUpKey?
    pure (((scan.allow allowsNext).push token).moveTo scan.cursor.next)

/-- The colon after a key: after the one kept in mind, or else after none. -/
def value? (scan : Scan) : Option Scan :=
  match scan.keys with
  | some place :: rest =>
    let keyed := { scan with
      tokens := scan.tokens.insertIdx place.position .key
      keys := none :: rest }
    let opened := keyed.openAt place.cursor.column place.position .indentedMapping
    some (((opened.allow false).push .value).moveTo scan.cursor.next)
  | _ =>
    if scan.isInside then some (((scan.allow false).push .value).moveTo scan.cursor.next)
    else if !scan.allowsKey then none
    else
      let opened := scan.openAt scan.cursor.column scan.tokens.length .indentedMapping
      some (((opened.allow true).push .value).moveTo scan.cursor.next)

def isNameChar (char : Char) : Bool :=
  char.isAlphanum || char == '_' || char == '-'

/-- What may follow a name. -/
def endsName (char : Option Char) : Bool :=
  isSeparator char || char.any fun char =>
    ['?', ':', ',', ']', '\x7d', '%', '@'].contains char || char.toNat == 0x60

/-- An anchor or a reference to one. -/
def named? (make : String → Token) (scan : Scan) : Option Scan := do
  let scan ← scan.keepKey?
  let (name, after) := scan.cursor.next.span isNameChar
  if name.isEmpty || !endsName after.head? then none
  else pure (((scan.allow false).push (make (String.ofList name))).moveTo after)

/-- Whether a tag begins with a handle, which stands between exclamation marks. No
handle but the empty one is known. -/
def hasHandle (text : List Char) : Bool :=
  let handle := (text.drop 1).takeWhile isNameChar
  !handle.isEmpty && (text.drop (handle.length + 1)).head? == some '!'

/-- A tag, up to a separator, or inside brackets up to a comma unless it is
spelled out in full. -/
def tag? (scan : Scan) : Option Scan := do
  let scan ← scan.keepKey?
  let isFull := scan.cursor.ahead? 1 == some '<'
  let isEnd (char : Char) : Bool :=
    isSeparator (some char) || (scan.isInside && !isFull && endsInside char)
  let (text, after) := scan.cursor.span fun char => !isEnd char
  if (isSeparator after.head? || after.head? == some ',') && !hasHandle text then
    pure (((scan.allow false).push (.tag (String.ofList text))).moveTo after)
  else none

def blockScalar? (literal : Bool) (scan : Scan) : Option Scan := do
  let scan ← scan.giveUpKey?
  let (text, after) ← block? literal scan.columns.head? scan.cursor
  pure (((scan.allow true).push (.scalar (String.ofList text) false)).moveTo after)

def quotedScalar? (quote : Char) (scan : Scan) : Option Scan := do
  let scan ← scan.keepKey?
  let (text, after) ← quoted? quote scan.cursor
  pure (((scan.allow false).push (.scalar (String.ofList text) false)).moveTo after)

def plainScalar? (scan : Scan) : Option Scan := do
  let scan ← scan.keepKey?
  let limit := scan.columns.head?.elim 0 (· + 1)
  let (text, breaksLine, after) ← plain? scan.isInside limit scan.cursor
  pure (((scan.allow breaksLine).push (.scalar (String.ofList text) true)).moveTo after)

/-- Whether text tells a version that is known, and nothing else but a
comment. -/
def tellsVersion (text : List Char) : Bool :=
  let told := text.dropWhile isGap
  let after := (told.dropWhile (!isGap ·)).dropWhile isGap
  ["1.1", "1.2"].contains (String.ofList (told.takeWhile (!isGap ·))) &&
    (after.isEmpty || after.head? == some '#')

/-- A directive: the version of the language or the meaning of a tag. -/
def directive? (scan : Scan) : Option Scan :=
  let line := scan.cursor.rest.takeWhile fun char => !isBreak char
  let subject := String.ofList (line.takeWhile (!isGap ·))
  if subject == "%YAML" && tellsVersion (line.drop 5) then
    scan.boundary? (.directive true) scan.cursor.skipLine
  else if subject == "%TAG" then scan.boundary? (.directive false) scan.cursor.skipLine
  else none

/-- Marks that begin no plain scalar. -/
def isMark (char : Char) : Bool :=
  [',', '[', ']', '\x7b', '\x7d', '#', '&', '*', '!', '|', '>', '"', '%', '@'].contains char ||
    char.toNat == 39 || char.toNat == 0x60

/-- Whether a plain scalar may begin with a character before another one. -/
def beginsPlain (inside : Bool) (char : Char) (next : Option Char) : Bool :=
  if char == '-' then next.all (!isGap ·)
  else if char == '?' || char == ':' then !inside && !isSeparator next
  else !isMark char && char != '\t'

/-- Cuts off the token that begins with `char`. -/
def token? (char : Char) (scan : Scan) : Option Scan :=
  let cursor := scan.cursor
  let isAlone := isSeparator (cursor.ahead? 1)
  if cursor.column = 0 && char = '%' then scan.directive?
  else if cursor.isAtMark '-' then scan.boundary? .documentStart (cursor.skip 3)
  else if cursor.isAtMark '.' then scan.boundary? .documentStop (cursor.skip 3)
  else
    match char with
    | '[' => scan.openBracket? .listStart
    | '\x7b' => scan.openBracket? .mappingStart
    | ']' => scan.closeBracket? .listStop
    | '\x7d' => scan.closeBracket? .mappingStop
    | ',' => scan.comma?
    | '*' => scan.named? .reference
    | '&' => scan.named? .anchor
    | '!' => scan.tag?
    | '"' => scan.quotedScalar? char
    | _ =>
      if char.toNat = 39 then scan.quotedScalar? char
      else if char == '-' && isAlone then scan.opening? .indentedList .element true
      else if char == '?' && (scan.isInside || isAlone) then
        scan.opening? .indentedMapping .key !scan.isInside
      else if char == ':' && (scan.isInside || isAlone) then scan.value?
      else if char == '|' && !scan.isInside then scan.blockScalar? true
      else if char == '>' && !scan.isInside then scan.blockScalar? false
      else if beginsPlain scan.isInside char (cursor.ahead? 1) then scan.plainScalar?
      else none

/-- Cuts the rest of the text. -/
def finish? : (fuel : Nat) → Scan → Option (List Token)
  | 0, _ => none
  | fuel + 1, scan => do
    let scan ← (scan.skipBlanks (scan.cursor.rest.length + 1)).giveUpStale?
    match scan.cursor.head? with
    | none => do
      let closed ← (scan.closeBeyond none).giveUpKey?
      pure closed.tokens
    | some char =>
      let next ← (scan.closeBeyond (some scan.cursor.column)).token? char
      if next.cursor.rest.length < scan.cursor.rest.length then finish? fuel next else none

end Scan

/-- The tokens of a text. A mark of the order of bytes before it does not
count. -/
def tokens? (text : List Char) : Option (List Token) :=
  let content := match text with
    | first :: rest => if first.toNat = 0xFEFF then rest else text
    | [] => []
  if content.all isPrintable then
    (Scan.start (unifyBreaks content)).finish? (content.length + 1)
  else none

end Yaml

end CiTelemetry
