/-
This file holds JSON values. An object keeps its fields in the order in which
they were written, also a name that is written twice, so that a reader of typed
data can refuse the repetition; `distinct` is the reading in which the last
value of a name counts.
-/

import CiTelemetry.Number.Decimal

namespace CiTelemetry

/-- A JSON value. Whole numbers that fit a word of 64 bits are kept apart from
all other numbers. A numeral beyond every finite number is kept as infinity,
which no reader of numbers accepts. -/
inductive Json where
  | null
  | bool (value : Bool)
  | int (value : Int)
  | float (value : Binary64)
  | str (text : String)
  | arr (items : List Json)
  | obj (fields : List (String × Json))
  deriving Repr, Inhabited

namespace Json

/-! ### Equality -/

mutual

def beq : Json → Json → Bool
  | null, null => true
  | bool first, bool second => first == second
  | int first, int second => first == second
  | float first, float second => first == second
  | str first, str second => first == second
  | arr first, arr second => beqItems first second
  | obj first, obj second => beqFields first second
  | _, _ => false

def beqItems : List Json → List Json → Bool
  | [], [] => true
  | first :: firstRest, second :: secondRest => beq first second && beqItems firstRest secondRest
  | _, _ => false

def beqFields : List (String × Json) → List (String × Json) → Bool
  | [], [] => true
  | (firstName, first) :: firstRest, (secondName, second) :: secondRest =>
    firstName == secondName && beq first second && beqFields firstRest secondRest
  | _, _ => false

end

instance : BEq Json := ⟨beq⟩

/-! ### Fields -/

/-- The last value written under a name. -/
def field? (name : String) : Json → Option Json
  | obj fields => (fields.reverse.find? (·.1 == name)).map (·.2)
  | _ => none

/-- The last value written under a name, and null when there is none. -/
def get (name : String) (value : Json) : Json :=
  (value.field? name).getD null

/-- Inserts a field into fields sorted by name; a value under the same name is
replaced. -/
def insertField (name : String) (value : Json) :
    List (String × Json) → List (String × Json)
  | [] => [(name, value)]
  | (other, kept) :: rest =>
    if name = other then (name, value) :: rest
    else if name < other then (name, value) :: (other, kept) :: rest
    else (other, kept) :: insertField name value rest

mutual

/-- The value in which every object lists its fields by name, each name once,
with the value written last. -/
def distinct : Json → Json
  | arr items => arr (distinctItems items)
  | obj fields => obj (distinctFields [] fields)
  | other => other

def distinctItems : List Json → List Json
  | [] => []
  | item :: rest => distinct item :: distinctItems rest

def distinctFields (sorted : List (String × Json)) :
    List (String × Json) → List (String × Json)
  | [] => sorted
  | (name, value) :: rest => distinctFields (insertField name (distinct value) sorted) rest

end

/-! ### Building values -/

/-- A value that may be missing. -/
def ofOption {α : Type} (encode : α → Json) : Option α → Json
  | none => null
  | some value => encode value

def ofList {α : Type} (encode : α → Json) (items : List α) : Json :=
  arr (items.map encode)

def ofNat (number : Nat) : Json :=
  int number

/-- A number as the encoder of records writes it: what is not finite has no
numeral and stands as null. -/
def ofNumber (number : Binary64) : Json :=
  if number.isFinite then float number else null

end Json

end CiTelemetry
