/-
This file holds what is configured for a project: which optional kinds of data
are exported, and over which part of its history the walk back goes.
-/

import CiTelemetry.Config.Value
import CiTelemetry.Record.Project
import CiTelemetry.Time.Window

namespace CiTelemetry

/-- Which optional kinds of data are exported for a project. -/
structure ExportFlags where
  sections : Bool
  testReports : Bool
  traces : Bool
  metrics : Bool
  mergeRequests : Bool
  deployments : Bool
  deriving DecidableEq, Repr

namespace ExportFlags

/-- Everything is exported unless it is switched off. -/
def all : ExportFlags :=
  ⟨true, true, true, true, true, true⟩

instance : Inhabited ExportFlags := ⟨all⟩

/-- Whether job logs are needed at all: for sections and metrics, and for
traces, which have a span for each section. -/
def needsLogs (flags : ExportFlags) : Bool :=
  flags.sections || flags.metrics || flags.traces

def decode? {Value : Type} [ConfigValue Value] (value : Value) : Option ExportFlags := do
  let fields ← ConfigValue.fields? value
  let sections ← fields.defaulted? "sections" ConfigValue.flag? true
  let testReports ← fields.defaulted? "test_reports" ConfigValue.flag? true
  let traces ← fields.defaulted? "traces" ConfigValue.flag? true
  let metrics ← fields.defaulted? "metrics" ConfigValue.flag? true
  let mergeRequests ← fields.defaulted? "merge_requests" ConfigValue.flag? true
  let deployments ← fields.defaulted? "deployments" ConfigValue.flag? true
  pure ⟨sections, testReports, traces, metrics, mergeRequests, deployments⟩

def encode (flags : ExportFlags) : Json :=
  .obj
    [("sections", .bool flags.sections),
      ("test_reports", .bool flags.testReports),
      ("traces", .bool flags.traces),
      ("metrics", .bool flags.metrics),
      ("merge_requests", .bool flags.mergeRequests),
      ("deployments", .bool flags.deployments)]

end ExportFlags

/-- The part of a project's history that the walk back covers. -/
structure CatchUp where
  enabled : Bool
  updatedAfter : Option Instant
  updatedBefore : Option Instant
  deriving DecidableEq, Repr, Inhabited

namespace CatchUp

def decode? {Value : Type} [ConfigValue Value] (value : Value) : Option CatchUp := do
  let fields ← ConfigValue.fields? value
  let enabled ← fields.defaulted? "enabled" ConfigValue.flag? false
  let updatedAfter ← ConfigValue.optional? fields "updated_after" ConfigValue.instant?
  let updatedBefore ← ConfigValue.optional? fields "updated_before" ConfigValue.instant?
  pure ⟨enabled, updatedAfter, updatedBefore⟩

def encode (range : CatchUp) : Json :=
  .obj
    [("enabled", .bool range.enabled),
      ("updated_after", .ofOption .ofInstant range.updatedAfter),
      ("updated_before", .ofOption .ofInstant range.updatedBefore)]

end CatchUp

/-- What is configured for one project. -/
structure ProjectSettings where
  id : Int
  fullPath : String
  exportFlags : ExportFlags
  catchUp : CatchUp
  deriving DecidableEq, Repr, Inhabited

namespace ProjectSettings

/-- The settings of a project. A walk back without a lower bound goes down to
the creation of the project. -/
def ofProject (project : Project) (flags : ExportFlags) (range : CatchUp) : ProjectSettings :=
  { id := project.id
    fullPath := project.fullPath
    exportFlags := flags
    catchUp := { range with updatedAfter := range.updatedAfter.or project.createdAt } }

/-- Whether the walk back covers a project within a window. -/
def catchesUpIn (settings : ProjectSettings) (window : SyncWindow) : Bool :=
  settings.catchUp.enabled &&
    window.overlaps settings.catchUp.updatedAfter settings.catchUp.updatedBefore

/-- A project is meant by its full path or by its id. -/
def isMeantBy (settings : ProjectSettings) (pattern : String) : Bool :=
  settings.fullPath == pattern || toString settings.id == pattern

def encode (settings : ProjectSettings) : Json :=
  .obj
    [("id", .int settings.id),
      ("full_path", .str settings.fullPath),
      ("export", settings.exportFlags.encode),
      ("catch_up", settings.catchUp.encode)]

end ProjectSettings

end CiTelemetry
