/-
This file reads a whole job log in one pass over its lines: section markers
wherever they stand in a line, and metric samples from the lines that begin
with the metric mark. A refused line is reported with its number and does not
disturb the others.
-/

import CiTelemetry.Log.MetricLine
import CiTelemetry.Log.Section

namespace CiTelemetry

namespace Log

/-! ### Lines -/

/-- The first line with its newline, and the bytes after it. -/
def splitLine : Bytes → Bytes × Bytes
  | [] => ([], [])
  | byte :: rest =>
    if byte = MetricLine.newline then ([byte], rest)
    else
      let (line, after) := splitLine rest
      (byte :: line, after)

theorem splitLine_length (byte : UInt8) (rest : Bytes) :
    (splitLine (byte :: rest)).2.length < (byte :: rest).length := by
  induction rest generalizing byte with
  | nil =>
    unfold splitLine
    split <;> simp [splitLine]
  | cons next after inductionHypothesis =>
    unfold splitLine
    split
    · simp
    · exact Nat.lt_succ_of_lt (inductionHypothesis next)

/-- The lines of a log, each with its newline; only the last may lack one. -/
def lines (log : Bytes) : List Bytes :=
  match log with
  | [] => []
  | byte :: rest => (splitLine (byte :: rest)).1 :: lines (splitLine (byte :: rest)).2
termination_by log.length
decreasing_by exact splitLine_length byte rest

/-! ### Section markers -/

/-- Which of the two markers a keyword announces. -/
inductive Keyword where
  | sectionStart
  | sectionEnd
  deriving DecidableEq, Repr, Inhabited

def Keyword.bytes : Keyword → Bytes
  | sectionStart => Utf8.encode "section_start:"
  | sectionEnd => Utf8.encode "section_end:"

def Keyword.event : Keyword → String → Int → SectionEvent
  | sectionStart => .opens
  | sectionEnd => .closes

/-- The distance to the first place where `sought` stands in `text`. -/
def indexOf? (sought : Bytes) : Bytes → Option Nat
  | [] => if sought.isEmpty then some 0 else none
  | byte :: rest =>
    if sought.isPrefixOf (byte :: rest) then some 0 else (indexOf? sought rest).map (· + 1)

/-- The nearer of the two keywords, with its distance. -/
def nextKeyword? (text : Bytes) : Option (Nat × Keyword) :=
  match indexOf? Keyword.sectionStart.bytes text, indexOf? Keyword.sectionEnd.bytes text with
  | some first, some second =>
    if first ≤ second then some (first, .sectionStart) else some (second, .sectionEnd)
  | some first, none => some (first, .sectionStart)
  | none, some second => some (second, .sectionEnd)
  | none, none => none

/-- The bytes that a section name may hold. -/
def isSectionNameByte (byte : UInt8) : Bool :=
  MetricLine.isLabelByte byte || byte == 0x2D || byte == 0x2E

/-- What follows a keyword in a well-formed marker: a time, a colon and a name.
Gives the time, the name and how many bytes they take. -/
def markerBody? (text : Bytes) : Option (Int × String × Nat) :=
  let digits := text.takeWhile MetricLine.isDigit
  match text.dropWhile MetricLine.isDigit with
  | [] => none
  | colon :: afterColon =>
    let name := afterColon.takeWhile isSectionNameByte
    if digits.isEmpty || colon != 0x3A || name.isEmpty then none
    else
      (integer64? (MetricLine.asciiText digits).toList).map fun time =>
        (time, MetricLine.asciiText name, digits.length + 1 + name.length)

theorem Keyword.bytes_length_pos (keyword : Keyword) : 0 < keyword.bytes.length := by
  cases keyword <;> decide

theorem indexOf?_lt {sought text : Bytes} (nonempty : 0 < sought.length) {index : Nat}
    (found : indexOf? sought text = some index) : index < text.length := by
  induction text generalizing index with
  | nil =>
    cases sought with
    | nil => simp at nonempty
    | cons => simp [indexOf?] at found
  | cons byte rest inductionHypothesis =>
    unfold indexOf? at found
    split at found
    · cases found
      simp
    · cases inner : indexOf? sought rest with
      | none => simp [inner] at found
      | some place =>
        simp only [inner, Option.map_some, Option.some.injEq] at found
        have bound := inductionHypothesis inner
        simp only [List.length_cons]
        omega

theorem nextKeyword?_lt {text : Bytes} {offset : Nat} {keyword : Keyword}
    (found : nextKeyword? text = some (offset, keyword)) : offset < text.length := by
  unfold nextKeyword? at found
  split at found
  · next first second firstFound secondFound =>
    have firstBound := indexOf?_lt (Keyword.bytes_length_pos _) firstFound
    have secondBound := indexOf?_lt (Keyword.bytes_length_pos _) secondFound
    split at found <;> cases found <;> assumption
  · next first firstFound _ =>
    cases found
    exact indexOf?_lt (Keyword.bytes_length_pos _) firstFound
  · next second _ secondFound =>
    cases found
    exact indexOf?_lt (Keyword.bytes_length_pos _) secondFound
  · cases found

/-- The markers of a line from left to right. The search goes on after the body
of a well-formed marker and after the keyword of a malformed one. -/
def markers (text : Bytes) : List SectionEvent :=
  match _found : nextKeyword? text with
  | none => []
  | some (offset, keyword) =>
    let afterKeyword := text.drop (offset + keyword.bytes.length)
    match markerBody? afterKeyword with
    | some (time, name, consumed) =>
      keyword.event name time :: markers (text.drop (offset + keyword.bytes.length + consumed))
    | none => markers (text.drop (offset + keyword.bytes.length))
termination_by text.length
decreasing_by
  all_goals
    have bound := nextKeyword?_lt _found
    have positive := Keyword.bytes_length_pos keyword
    simp only [List.length_drop]
    omega

/-! ### Metric lines -/

/-- The sample of a metric line; `none` for every other line. -/
def metric? (line : Bytes) : Option (Except LineFault Metric) :=
  let mark := Utf8.encode metricMark
  if mark.isPrefixOf line then some (Metric.ofLine? (line.drop mark.length)) else none

/-- The sample that a line gives, if it is a metric line without a fault. -/
def sample? (line : Bytes) : Option Metric :=
  match metric? line with
  | some (.ok metric) => some metric
  | _ => none

/-- The fault of a metric line. A truncation is none. -/
def fault? (line : Bytes) : Option LineFault :=
  match metric? line with
  | some (.error .truncated) => none
  | some (.error fault) => some fault
  | _ => none

end Log

/-! ### The whole log -/

/-- Everything read from one log. -/
structure ParsedLog where
  sections : List Section
  metrics : List Metric
  errors : List LineError
  deriving DecidableEq, Repr, Inhabited

namespace Log

/-- The faults of lines, numbered from `first`. -/
def lineErrors (first : Nat) : List Bytes → List LineError
  | [] => []
  | line :: rest =>
    match fault? line with
    | some fault => ⟨first, fault⟩ :: lineErrors (first + 1) rest
    | none => lineErrors (first + 1) rest

/-- Reads a log; `endOfLog` decides about the sections still open at its end. -/
def parseWith (log : Bytes) (endOfLog : EndOfLog) : ParsedLog :=
  let lines := lines log
  { sections := (SectionStack.empty.applyAll (lines.flatMap markers)).finish endOfLog
    metrics := lines.filterMap sample?
    errors := lineErrors 1 lines }

/-- Reads a log and leaves unfinished sections without an end. -/
def parse (log : Bytes) : ParsedLog :=
  parseWith log .leaveOpen

end Log

end CiTelemetry
