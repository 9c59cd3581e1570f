/-
This file holds the names under which things are known to the server: access
tokens, which never show themselves, and global ids, whose last segment is the
number of the thing.
-/

import CiTelemetry.Error
import CiTelemetry.Number.Decimal

namespace CiTelemetry

/-! ### Access tokens -/

/-- An access token. -/
structure Token where
  text : String
  deriving DecidableEq, Inhabited

/-- What may be shown of a token. -/
def Token.redacted (_token : Token) : String :=
  "Token(***)"

/-! ### Global ids -/

namespace GlobalId

/-- What every global id begins with. -/
def scheme : String := "gid://gitlab/"

/-- The characters after the last slash; all of them where there is none. -/
def lastSegment : List Char → List Char
  | [] => []
  | char :: rest =>
    if rest.contains '/' then lastSegment rest else if char = '/' then rest else char :: rest

/-- The number of a global id, which must be positive. -/
def number? (text : String) : Option Int :=
  if scheme.toList.isPrefixOf text.toList then
    (integer64? (lastSegment (text.toList.drop scheme.length))).filter (0 < ·)
  else none

def parse (text : String) : Outcome Int :=
  match number? text with
  | some number => .ok number
  | none => .error (.conversion ("malformed global id '" ++ text ++ "'"))

/-- The global id of the project with a number. -/
def ofProject (number : Int) : String :=
  scheme ++ "Project/" ++ toString number

end GlobalId

end CiTelemetry
