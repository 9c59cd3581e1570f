/-
This file holds the reading of the fields of an object, one function for each
kind of field that records have: those that must be there, those that may be
missing or null, and those that have a default.
-/

import CiTelemetry.Json.Decode
import CiTelemetry.Time.Text

namespace CiTelemetry

namespace Json

/-- An instant written as text. -/
def asInstant? (value : Json) : Option Instant :=
  value.asText?.bind fun text => Instant.read? text.toList

def ofInstant (instant : Instant) : Json :=
  str instant.render

/-- Texts by name, each name once. -/
def asTextMap? : Json → Option (List (String × String))
  | obj fields => (obj fields).distinct.asObject?.bind fun distinctFields =>
    distinctFields.mapM fun (name, value) => value.asText?.map (name, ·)
  | _ => none

namespace Fields

/-! ### Fields that must be there -/

def signed? (fields : Fields) (name : String) : Option Int :=
  required? fields name asSigned64?

def unsigned? (fields : Fields) (name : String) : Option Nat :=
  required? fields name asUnsigned64?

def text? (fields : Fields) (name : String) : Option String :=
  required? fields name asText?

def flag? (fields : Fields) (name : String) : Option Bool :=
  required? fields name asBool?

def number? (fields : Fields) (name : String) : Option Binary64 :=
  required? fields name asNumber?

def list? {α : Type} (fields : Fields) (name : String) (decode : Json → Option α) :
    Option (List α) :=
  required? fields name (asList? decode)

/-! ### Fields that may be missing or null -/

def maybeSigned? (fields : Fields) (name : String) : Option (Option Int) :=
  optional? fields name asSigned64?

def maybeText? (fields : Fields) (name : String) : Option (Option String) :=
  optional? fields name asText?

def maybeFlag? (fields : Fields) (name : String) : Option (Option Bool) :=
  optional? fields name asBool?

def maybeNumber? (fields : Fields) (name : String) : Option (Option Binary64) :=
  optional? fields name asNumber?

def maybeInstant? (fields : Fields) (name : String) : Option (Option Instant) :=
  optional? fields name asInstant?

end Fields

end Json

end CiTelemetry
