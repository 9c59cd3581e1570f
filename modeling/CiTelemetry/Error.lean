/-
This file holds the causes for which a synchronization fails, their wording,
and the joining of several failures into one. Cancellation is no failure among
others: wherever it takes part it is the whole result.
-/

import CiTelemetry.Http.Breakdown

namespace CiTelemetry

/-- Why something failed. -/
inductive SyncError where
  | apiStatus (status : Nat) (body : String)
  | retriesExhausted (status : Nat) (retries : Nat)
  | queryErrors (query : String) (errors : String)
  | noData
  | projectNotFound (project : String)
  | namespaceNotFound (group : String)
  | invalidConfig (reason : String)
  | conversion (reason : String)
  | sinkRefused (sink : String) (kind : String) (reason : String)
  /-- The sink could not be reached at all. -/
  | sinkUnreachable (sink : String) (kind : String)
  | task (reason : String)
  /-- A task broke down without a result. -/
  | taskPanicked
  | cancelled
  | several (errors : List SyncError)
  /-- The network failed: an exchange broke down, or a request or an answer was of no use. -/
  | network (breakdown : Option Http.Breakdown := none)
  | malformedJson
  | malformedYaml
  | inputOutput (reason : String)
  deriving Repr, Inhabited

namespace SyncError

/-! ### Wording -/

mutual

/-- The wording of a failure; `none` where the wording is not this program's
own. -/
def message? : SyncError → Option String
  | apiStatus status body => some ("GitLab API error (status " ++ toString status ++ "): " ++ body)
  | retriesExhausted status retries =>
    some ("GitLab API error (status " ++ toString status ++ ") after " ++ toString retries ++
      " retries")
  | queryErrors query errors => some ("GraphQL errors in " ++ query ++ ": " ++ errors)
  | noData => some "GraphQL response contained no data"
  | projectNotFound project => some ("Project '" ++ project ++ "' not found")
  | namespaceNotFound group => some ("Namespace '" ++ group ++ "' not found")
  | invalidConfig reason => some ("Invalid configuration: " ++ reason)
  | conversion reason => some ("Conversion failed: " ++ reason)
  | sinkRefused sink kind reason =>
    some ("Sink '" ++ sink ++ "' failed to accept " ++ kind ++ ": " ++ reason)
  | task reason => some ("Task failed: " ++ reason)
  | cancelled => some "Operation cancelled"
  | several errors =>
    (messages? errors).map fun texts =>
      toString errors.length ++ " errors: " ++ "; ".intercalate texts
  | inputOutput reason => some ("IO error: " ++ reason)
  | sinkUnreachable _ _ => none
  | taskPanicked => none
  | network _ => none
  | malformedJson => none
  | malformedYaml => none

def messages? : List SyncError → Option (List String)
  | [] => some []
  | error :: rest => do
    let text ← message? error
    let texts ← messages? rest
    pure (text :: texts)

end

/-! ### Joining -/

def isCancelled : SyncError → Bool
  | cancelled => true
  | _ => false

/-- The failures that one stands for: those inside, if it joins several. -/
def parts : SyncError → List SyncError
  | several errors => errors
  | error => [error]

/-- Joins failures into one. Cancellation outweighs all others; otherwise what
was joined before is taken apart, so that the result lists single failures. -/
def join (errors : List SyncError) : Option SyncError :=
  if errors.any isCancelled then some cancelled
  else
    match errors.flatMap parts with
    | [] => none
    | [error] => some error
    | errors => some (several errors)

/-- The joined failures as an outcome. -/
def joinResult (errors : List SyncError) : Except SyncError Unit :=
  match join errors with
  | some error => .error error
  | none => .ok ()

end SyncError

/-- An outcome of this program. -/
abbrev Outcome (α : Type) := Except SyncError α

end CiTelemetry
