/-
This file holds what a synchronization is set up with: how often it runs, how it
cuts its work, and which namespaces and projects it covers.
-/

import CiTelemetry.Registry.Settings
import CiTelemetry.Remote.Query

namespace CiTelemetry

/-- The settings of projects that have none of their own. -/
structure ProjectDefaults where
  exportFlags : ExportFlags
  catchUp : CatchUp
  deriving DecidableEq, Repr, Inhabited

/-- An owner whose projects are covered. -/
structure NamespaceSource where
  id : String
  /-- What the owner is; the server is asked when this is missing. -/
  kind : Option NamespaceKind
  includeSubgroups : Bool
  withShared : Bool
  /-- Projects that are left out, by path or id. -/
  exclude : List String
  exportFlags : Option ExportFlags
  catchUp : Option CatchUp
  deriving DecidableEq, Repr, Inhabited

/-- A project that is covered by itself. -/
structure ProjectSource where
  id : String
  exportFlags : Option ExportFlags
  catchUp : Option CatchUp
  deriving DecidableEq, Repr, Inhabited

/-- The set-up of a synchronization; spans are in milliseconds. -/
structure SyncSettings where
  interval : Nat
  catchUpInterval : Nat
  batchSize : Nat
  concurrency : Nat
  defaults : ProjectDefaults
  namespaces : List NamespaceSource
  projects : List ProjectSource
  deriving DecidableEq, Repr, Inhabited

/-- A span of milliseconds as nanoseconds. What a signed word of milliseconds
cannot hold counts as a year. -/
def spanOfMillis (millis : Nat) : Int :=
  if millis < twoTo 63 then millis * 1000000 else 365 * 86400 * 1000000000

/-! ### Reading -/

variable {Value : Type} [ConfigValue Value]

def NamespaceKind.decode? (value : Value) : Option NamespaceKind :=
  (ConfigValue.text? value).bind NamespaceKind.ofName?

def ProjectDefaults.decode? (value : Value) : Option ProjectDefaults := do
  let fields ← ConfigValue.fields? value
  let exportFlags ← fields.defaulted? "export" ExportFlags.decode? default
  let catchUp ← fields.defaulted? "catch_up" CatchUp.decode? default
  pure ⟨exportFlags, catchUp⟩

def NamespaceSource.decode? (value : Value) : Option NamespaceSource := do
  let fields ← ConfigValue.fields? value
  let id ← fields.required? "id" ConfigValue.name?
  let kind ← ConfigValue.optional? fields "kind" NamespaceKind.decode?
  let includeSubgroups ← fields.defaulted? "include_subgroups" ConfigValue.flag? false
  let withShared ← fields.defaulted? "with_shared" ConfigValue.flag? false
  let exclude ← fields.defaulted? "exclude" (ConfigValue.list? ConfigValue.text?) []
  let exportFlags ← ConfigValue.optional? fields "export" ExportFlags.decode?
  let catchUp ← ConfigValue.optional? fields "catch_up" CatchUp.decode?
  pure ⟨id, kind, includeSubgroups, withShared, exclude, exportFlags, catchUp⟩

def ProjectSource.decode? (value : Value) : Option ProjectSource := do
  let fields ← ConfigValue.fields? value
  let id ← fields.required? "id" ConfigValue.name?
  let exportFlags ← ConfigValue.optional? fields "export" ExportFlags.decode?
  let catchUp ← ConfigValue.optional? fields "catch_up" CatchUp.decode?
  pure ⟨id, exportFlags, catchUp⟩

end CiTelemetry
