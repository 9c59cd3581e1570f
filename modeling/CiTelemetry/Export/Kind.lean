/-
This file holds the kinds of records that are exported, and batches of records
in which every kind is gathered from many sources.
-/

import CiTelemetry.Json.Basic

namespace CiTelemetry

/-- The kinds of exported records. -/
inductive EntityKind where
  | projects
  | pipelines
  | jobs
  | bridges
  | sections
  | metrics
  | testReports
  | testSuites
  | testCases
  | mergeRequests
  | deployments
  | runners
  | traces
  deriving DecidableEq, Repr, Inhabited

namespace EntityKind

def name : EntityKind → String
  | projects => "projects"
  | pipelines => "pipelines"
  | jobs => "jobs"
  | bridges => "bridges"
  | sections => "sections"
  | metrics => "metrics"
  | testReports => "testreports"
  | testSuites => "testsuites"
  | testCases => "testcases"
  | mergeRequests => "mergerequests"
  | deployments => "deployments"
  | runners => "runners"
  | traces => "traces"

def all : List EntityKind :=
  [projects, pipelines, jobs, bridges, sections, metrics, testReports, testSuites, testCases,
    mergeRequests, deployments, runners, traces]

def ofName? (name : String) : Option EntityKind :=
  all.find? (·.name == name)

end EntityKind

/-! ### Batches -/

/-- Records of several kinds that are exported together, each kind once, in the
order in which the kinds were first pushed. -/
abbrev ExportBatch := List (EntityKind × List Json)

namespace ExportBatch

def empty : ExportBatch := []

/-- Adds records of a kind. A record without an encoding is left out. -/
def push {α : Type} (batch : ExportBatch) (kind : EntityKind) (encode? : α → Option Json)
    (records : List α) : ExportBatch :=
  let values := records.filterMap encode?
  if batch.any (·.1 == kind) then
    batch.map fun (known, held) => if known == kind then (known, held ++ values) else (known, held)
  else batch ++ [(kind, values)]

/-- Whether no kind has any record. -/
def isEmpty (batch : ExportBatch) : Bool :=
  batch.all (·.2.isEmpty)

end ExportBatch

end CiTelemetry
