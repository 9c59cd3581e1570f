/-
This file holds the look-up of fields by name. A reader of typed data knows which
names it expects: fields of other names are passed over, and a name that is
written twice is refused.
-/

namespace CiTelemetry

/-- Fields in the order in which they are written. -/
abbrev NamedFields (Value : Type) := List (String × Value)

namespace NamedFields

variable {Value α : Type}

/-- The value under a name, if it is written at most once. -/
def unique? (fields : NamedFields Value) (name : String) : Option (Option Value) :=
  match fields.filter (·.1 == name) with
  | [] => some none
  | [(_, value)] => some (some value)
  | _ => none

/-- A field that must be there. -/
def required? (fields : NamedFields Value) (name : String) (decode : Value → Option α) :
    Option α :=
  match unique? fields name with
  | some (some value) => decode value
  | _ => none

/-- A field that may be missing, in which case it has a default. -/
def defaulted? (fields : NamedFields Value) (name : String) (decode : Value → Option α)
    (default : α) : Option α :=
  match unique? fields name with
  | some (some value) => decode value
  | some none => some default
  | none => none

end NamedFields

end CiTelemetry
