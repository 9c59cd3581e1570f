/-
This file holds what settings are read from. Settings come as JSON or as indented
text, and the two differ in what may stand for a text, a number or nothing; how
the settings of a thing are put together from its fields is the same for both.
-/

import CiTelemetry.Json.Fields
import CiTelemetry.NamedFields

namespace CiTelemetry

/-- Values that settings are read from. -/
class ConfigValue (Value : Type) where
  /-- The fields of a group of settings. -/
  fields? : Value → Option (NamedFields Value)
  items? : Value → Option (List Value)
  text? : Value → Option String
  flag? : Value → Option Bool
  /-- A whole number of an unsigned word of 64 bits. -/
  unsigned? : Value → Option Nat
  /-- A name, which may be written as a whole number. -/
  name? : Value → Option String
  /-- Whether a setting that may be missing is left out by this value. -/
  isMissing : Value → Bool

namespace ConfigValue

variable {Value α : Type} [ConfigValue Value]

def list? (decode : Value → Option α) (value : Value) : Option (List α) :=
  (items? value).bind fun items => items.mapM decode

/-- A value that may be left out. -/
def option? (decode : Value → Option α) (value : Value) : Option (Option α) :=
  if isMissing value then some none else (decode value).map some

/-- A field that may be missing or left out. -/
def optional? (fields : NamedFields Value) (name : String) (decode : Value → Option α) :
    Option (Option α) :=
  fields.defaulted? name (option? decode) none

def instant? (value : Value) : Option Instant :=
  (text? value).bind fun text => Instant.read? text.toList

end ConfigValue

instance : ConfigValue Json where
  fields? := Json.asObject?
  items? := Json.asList? some
  text? := Json.asText?
  flag? := Json.asBool?
  unsigned? := Json.asUnsigned64?
  name? json := (json.asSigned64?.map toString).or json.asText?
  isMissing json := json == .null

end CiTelemetry
