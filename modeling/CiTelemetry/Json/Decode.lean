/-
This file reads typed data out of JSON values. Nothing is coerced: a whole
number must be written as one and fit its type, text and truth values must be
what they are, and only a number of the floating kind may be written as a whole
number. Of an object's fields the unknown ones are passed over, and a known one
that is written twice is refused.
-/

import CiTelemetry.Json.Basic
import CiTelemetry.NamedFields

namespace CiTelemetry

namespace Json

/-- The fields of an object. -/
abbrev Fields := NamedFields Json

/-! ### Leaves -/

def asObject? : Json → Option Fields
  | obj fields => some fields
  | _ => none

def asText? : Json → Option String
  | str text => some text
  | _ => none

def asBool? : Json → Option Bool
  | bool value => some value
  | _ => none

/-- A whole number of a signed word of 64 bits. -/
def asSigned64? : Json → Option Int
  | int value => if fitsSigned64 value then some value else none
  | _ => none

/-- A whole number from zero up to, and not including, `bound`. -/
def asBelow? (bound : Nat) : Json → Option Nat
  | int value => if 0 ≤ value && value < bound then some value.toNat else none
  | _ => none

/-- A whole number of an unsigned word of 64 bits. -/
def asUnsigned64? : Json → Option Nat :=
  asBelow? (twoTo 64)

/-- A number of the floating kind, which may be written as a whole number. -/
def asNumber? : Json → Option Binary64
  | int value => some (Binary64.ofInt value)
  | float value => if value.isFinite then some value else none
  | _ => none

def asList? {α : Type} (decode : Json → Option α) : Json → Option (List α)
  | arr items => items.mapM decode
  | _ => none

/-- Null stands for a missing value. -/
def asOption? {α : Type} (decode : Json → Option α) : Json → Option (Option α)
  | null => some none
  | value => (decode value).map some

/-! ### Fields of an object -/

/-- A field that must be there. -/
def required? {α : Type} (fields : Fields) (name : String) (decode : Json → Option α) :
    Option α :=
  NamedFields.required? fields name decode

/-- A field that may be missing or null. -/
def optional? {α : Type} (fields : Fields) (name : String) (decode : Json → Option α) :
    Option (Option α) :=
  NamedFields.defaulted? fields name (asOption? decode) none

/-- A field that may be missing, in which case it has a default; null is a value
like any other here. -/
def defaulted? {α : Type} (fields : Fields) (name : String) (decode : Json → Option α)
    (default : α) : Option α :=
  NamedFields.defaulted? fields name decode default

end Json

end CiTelemetry
