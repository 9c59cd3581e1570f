/-
This file holds metric samples, their written form, and the causes for which a
metric line is refused, each with its wording.
-/

import CiTelemetry.Number.Decimal

namespace CiTelemetry

/-- The mark at the beginning of every metric line. -/
def metricMark : String := "METRIC_"

/-- A sample that a job script wrote to its log. The labels keep the order in
which they were written, and no label name occurs twice. -/
structure Metric where
  name : String
  labels : List (String × String)
  value : Binary64
  timestamp : Option Int
  deriving DecidableEq, Repr, Inhabited

namespace Metric

/-! ### The written form -/

/-- A character of a label value as it is written between quotes. -/
def escapeChar (char : Char) : List Char :=
  if char = '\\' then ['\\', '\\']
  else if char = '"' then ['\\', '"']
  else if char = '\n' then ['\\', 'n']
  else [char]

def escape (text : String) : String :=
  String.ofList (text.toList.flatMap escapeChar)

def renderLabel (label : String × String) : String :=
  label.1 ++ "=\"" ++ escape label.2 ++ "\""

/-- The label block; a sample without labels has none. -/
def renderLabels (labels : List (String × String)) : String :=
  if labels.isEmpty then ""
  else "\x7b" ++ ",".intercalate (labels.map renderLabel) ++ "\x7d"

/-- The line of a sample, without a line end. -/
def render (metric : Metric) : String :=
  metricMark ++ metric.name ++ renderLabels metric.labels ++ " " ++ metric.value.render ++
    match metric.timestamp with
    | some timestamp => " " ++ toString timestamp
    | none => ""

/-! ### Equality -/

/-- Equality of samples as values: the order of labels does not count, and a
value that is not a number equals nothing. -/
def equal (first second : Metric) : Bool :=
  first.name == second.name &&
    first.labels.length == second.labels.length &&
    first.labels.all (fun label => second.labels.lookup label.1 == some label.2) &&
    first.value.equal second.value &&
    first.timestamp == second.timestamp

/-- Gives a label a value: a new name goes to the end, a known name keeps its
place. -/
def setLabel (labels : List (String × String)) (name value : String) : List (String × String) :=
  if labels.any (·.1 == name) then
    labels.map fun label => if label.1 == name then (name, value) else label
  else labels ++ [(name, value)]

end Metric

/-! ### Refused lines -/

/-- What a label block must go on with at some point. -/
inductive LabelMark where
  | equalsSign
  | openingQuote
  | commaOrBrace
  deriving DecidableEq, Repr, Inhabited

def LabelMark.wording : LabelMark → String
  | equalsSign => "'=' after label name"
  | openingQuote => "'\"' to open label value"
  | commaOrBrace => "',' or '\x7d' after label value"

/-- Why a metric line was refused. A line that the end of the log cuts short is
`truncated`, which is no fault of the line. -/
inductive LineFault where
  | truncated
  | invalidMetricName
  | invalidLabelName
  | duplicateLabel (name : String)
  | invalidEscape (char : Char)
  | newlineInLabelValue
  | unterminatedLabels
  | invalidUtf8
  | expected (mark : LabelMark)
  | missingValue
  | invalidValue (token : String)
  | invalidTimestamp (token : String)
  | trailingCharacters
  deriving DecidableEq, Repr, Inhabited

def LineFault.message : LineFault → String
  | truncated => "unexpected end of input"
  | invalidMetricName => "invalid metric name"
  | invalidLabelName => "invalid label name"
  | duplicateLabel name => "duplicate label '" ++ name ++ "'"
  | invalidEscape char => "invalid escape sequence '\\" ++ char.toString ++ "' in label value"
  | newlineInLabelValue => "unescaped newline in label value"
  | unterminatedLabels => "label set is not terminated"
  | invalidUtf8 => "label value is not valid UTF-8"
  | expected mark => "expected " ++ mark.wording
  | missingValue => "missing metric value"
  | invalidValue token => "invalid metric value '" ++ token ++ "'"
  | invalidTimestamp token => "invalid timestamp '" ++ token ++ "'"
  | trailingCharacters => "unexpected characters after timestamp"

/-- A refused line. The lines after it are still read. -/
structure LineError where
  line : Nat
  fault : LineFault
  deriving DecidableEq, Repr, Inhabited

def LineError.message (refused : LineError) : String :=
  "line " ++ toString refused.line ++ ": " ++ refused.fault.message

end CiTelemetry
