/-
This file gathers the outcomes of tasks that do not depend on one another. A
failed task does not disturb the others; only cancellation ends the gathering,
and it is then the whole result.
-/

import CiTelemetry.Sync.Action

namespace CiTelemetry

/-- The values and failures of a set of tasks. -/
structure Collected (α : Type) where
  values : List α
  errors : List SyncError
  deriving Repr, Inhabited

namespace Collected

variable {α β : Type}

def empty : Collected α := ⟨[], []⟩

def ofValues (values : List α) : Collected α := ⟨values, []⟩

def mapValues (change : List α → List β) (collected : Collected α) : Collected β :=
  ⟨change collected.values, collected.errors⟩

/-- The values, with the failures joined into one. -/
def joined (collected : Collected α) : List α × Option SyncError :=
  (collected.values, SyncError.join collected.errors)

end Collected

/-! ### Running tasks -/

/-- Runs tasks and gathers their outcomes, after those already gathered. The
first task that reports cancellation ends the gathering. -/
def runTasks {α : Type} (gathered : Collected α) : List (Fetch α) → Fetch (Collected α)
  | [] => pure gathered
  | task :: rest => do
    match ← Attempt.outcome task with
    | .ok value => runTasks { gathered with values := gathered.values ++ [value] } rest
    | .error error =>
      if error.isCancelled then throw .cancelled
      else runTasks { gathered with errors := gathered.errors ++ [error] } rest

/-- Runs tasks and gathers their outcomes, unless the synchronization has been
cancelled before. -/
def runPool {α : Type} (tasks : List (Fetch α)) : Fetch (Collected α) := do
  if ← (Sync.isCancelled : Sync Bool) then throw .cancelled
  else runTasks .empty tasks

/-- The values of a gathering, with its failures added to those before. A fetch
that was given up contributes its failure alone. -/
def settle {α : Type} (fetched : Outcome (Collected α)) : List α × List SyncError :=
  match fetched with
  | .ok collected => (collected.values, collected.errors)
  | .error error => ([], [error])

end CiTelemetry
