/-
This file reads typed settings out of documents of indented text. What a plain
scalar is depends on what is wanted: where text is wanted, it is text as it is
spelled, and where anything may stand, it is the first of nothing, a truth value,
a whole number, a fraction and text that it can be. A quoted scalar is always
text.
-/

import CiTelemetry.Config.Value
import CiTelemetry.Yaml.Node

namespace CiTelemetry

namespace Yaml

/-! ### Plain scalars -/

def isNullWord (text : String) : Bool :=
  ["null", "Null", "NULL", "~"].contains text

def boolWord? (text : String) : Option Bool :=
  if ["true", "True", "TRUE"].contains text then some true
  else if ["false", "False", "FALSE"].contains text then some false
  else none

/-- The number of digits in a base; no digits are no number. -/
def digitsIn? (base : Nat) (digits : List Char) : Option Nat :=
  if digits.isEmpty then none
  else
    digits.foldlM
      (fun number char => (hexValue? char).bind fun value =>
        if value < base then some (number * base + value) else none) 0

/-- The prefixes of whole numbers in other bases than ten. -/
def basePrefixes : List (List Char × Nat) :=
  [(['0', 'x'], 16), (['0', 'o'], 8), (['0', 'b'], 2)]

/-- Digits behind a leading zero are no number but text. -/
def hasLeadingZero (text : List Char) : Bool :=
  let digits := match text with
    | '-' :: rest => rest
    | '+' :: rest => rest
    | _ => text
  match digits with
  | '0' :: rest => !rest.isEmpty && rest.all Char.isDigit
  | _ => false

/-- The size of a whole number without a sign, up to but not including a
bound. -/
def magnitude? (bound : Nat) (text : List Char) : Option Nat :=
  let isBelow (number : Nat) : Bool := number < bound
  let based := basePrefixes.findSome? fun (start, base) =>
    if start.isPrefixOf text then (digitsIn? base (text.drop 2)).filter isBelow else none
  based.or (if hasLeadingZero text then none else (digitsIn? 10 text).filter isBelow)

/-- A whole number that is not negative; it may have a plus sign. -/
def unsigned? (bound : Nat) (text : List Char) : Option Nat :=
  match text with
  | '+' :: rest => magnitude? bound rest
  | _ => magnitude? bound text

/-- A whole number with a minus sign. -/
def negative? (bound : Nat) (text : List Char) : Option Int :=
  match text with
  | '-' :: rest => (magnitude? (bound + 1) rest).map fun number => -(number : Int)
  | _ => none

/-- Whether text is a fraction: a finite one, or a word for one that is not. -/
def isFraction (text : List Char) : Bool :=
  let words := [".inf", ".Inf", ".INF", "-.inf", "-.Inf", "-.INF", "+.inf", "+.Inf", "+.INF",
    ".nan", ".NaN", ".NAN"]
  let bare := match text with
    | '+' :: rest => rest
    | _ => text
  words.contains (String.ofList text) ||
    (bare.head? != some '+' && !(text.head? == some '+' && bare.head? == some '-') &&
      !hasLeadingZero text && (Binary64.read? bare).any Binary64.isFinite)

/-- What a plain scalar is where anything may stand. -/
inductive PlainKind where
  | nothing
  | flag
  | whole (number : Int)
  /-- A number that no word of 64 bits holds, or a fraction. -/
  | otherNumber
  | text
  deriving DecidableEq, Repr, Inhabited

def plainKind (text : String) : PlainKind :=
  if text.isEmpty || isNullWord text then .nothing
  else if (boolWord? text).isSome then .flag
  else
    match unsigned? (twoTo 64) text.toList, negative? (twoTo 63) text.toList with
    | some number, _ => .whole number
    | none, some number => .whole number
    | none, none =>
      if (unsigned? (twoTo 128) text.toList).isSome || (negative? (twoTo 127) text.toList).isSome ||
          isFraction text.toList
      then .otherNumber
      else .text

/-! ### Nodes -/

namespace Node

/-- What is left out altogether. -/
def isLeftOut (node : Node) : Bool :=
  match node.bare with
  | scalar "" true => true
  | _ => false

/-- A scalar as it is spelled. -/
def asText? (node : Node) : Option String :=
  match node.bare with
  | scalar text _ => some text
  | _ => none

/-- A scalar that is text where anything may stand. -/
def asOwnText? : Node → Option String
  | scalar text isPlain => if isPlain && plainKind text != .text then none else some text
  | marked .isText (scalar text _) => some text
  | _ => none

/-- The fields of a mapping, whose keys are scalars. What is left out has no
fields. -/
def asFields? (node : Node) : Option (NamedFields Node) :=
  match node.bare with
  | mapping fields => fields.mapM fun (key, value) => key.asText?.map (·, value)
  | _ => if node.isLeftOut then some [] else none

def asItems? (node : Node) : Option (List Node) :=
  match node.bare with
  | list items => some items
  | _ => if node.isLeftOut then some [] else none

def asFlag? (node : Node) : Option Bool :=
  match node.bare with
  | scalar text true => boolWord? text
  | _ => none

def asUnsigned? (node : Node) : Option Nat :=
  match node.bare with
  | scalar text true => unsigned? (twoTo 64) text.toList
  | _ => none

/-- A name: text, or a whole number of a signed word of 64 bits. -/
def asName? : Node → Option String
  | scalar text true =>
    match plainKind text with
    | .text => some text
    | .whole number => if fitsSigned64 number then some (toString number) else none
    | _ => none
  | scalar text false => some text
  | marked .isText (scalar text _) => some text
  | _ => none

/-- Whether a setting that may be missing is left out. -/
def isMissing : Node → Bool
  | scalar text true => text.isEmpty || isNullWord text
  | _ => false

instance : ConfigValue Node where
  fields? := asFields?
  items? := asItems?
  text? := asText?
  flag? := asFlag?
  unsigned? := asUnsigned?
  name? := asName?
  isMissing := isMissing

end Node

end Yaml

end CiTelemetry
