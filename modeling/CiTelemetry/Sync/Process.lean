/-
This file processes one batch of projects within a window: it finds out which
projects changed, and then exports project records, continuous-integration data
and merge requests independently of one another. Whatever fails is joined into
one failure at the end; only what depends on a failed fetch is missing from the
export.
-/

import CiTelemetry.Export.Fan
import CiTelemetry.Fetch.JobLogs
import CiTelemetry.Fetch.MergeRequests
import CiTelemetry.Fetch.Pipelines
import CiTelemetry.Fetch.Reports
import CiTelemetry.Registry.Builder
import CiTelemetry.Trace.Assembly

namespace CiTelemetry

/-- What the processing of batches works with: the sinks, and how many pages or
lookups a walk may take. -/
structure SyncContext where
  exporter : Exporter
  allowance : Nat
  deriving DecidableEq, Repr, Inhabited

/-! ### Records of a batch -/

/-- A record that always has an encoding. -/
def always {α : Type} (encode : α → Json) (record : α) : Option Json :=
  some (encode record)

namespace ExportBatch

/-- Adds the records of one entry, as far as they are wanted. -/
def pushEntry (batch : ExportBatch) (flags : ExportFlags) (entry : HierarchyEntry) :
    ExportBatch :=
  let withJobs := (batch.push .jobs (always Job.encode) entry.jobs).push .bridges
    (always Bridge.encode) entry.bridges
  let withSections :=
    if flags.sections then withJobs.push .sections (always JobSection.encode) entry.sections
    else withJobs
  if flags.metrics then withSections.push .metrics (always JobMetric.encode) entry.metrics
  else withSections

/-- Adds the records of a hierarchy, parents before children. -/
def pushHierarchy (batch : ExportBatch) (flags : ExportFlags) (hierarchy : PipelineHierarchy) :
    ExportBatch :=
  let entries := hierarchy.depthFirst
  let withPipelines := batch.push .pipelines (always Pipeline.encode) (entries.map (·.pipeline))
  let withEntries := entries.foldl (fun known entry => known.pushEntry flags entry) withPipelines
  if flags.traces && !(TraceData.ofHierarchy hierarchy).isEmpty then
    withEntries.push .traces (always Span.encode) (TraceData.ofHierarchy hierarchy).spans
  else withEntries

/-- Adds the suites and cases of a test report. -/
def pushReportParts (batch : ExportBatch) (report : TestReport) : ExportBatch :=
  (batch.push .testSuites (always TestSuiteRecord.encode) report.suiteRecords).push .testCases
    (always TestCaseRecord.encode) report.caseRecords

/-- Adds test reports with their suites and cases. -/
def pushReports (batch : ExportBatch) (reports : List TestReport) : ExportBatch :=
  reports.foldl pushReportParts (batch.push .testReports (always TestReport.encode) reports)

end ExportBatch

/-! ### What is wanted of which project -/

/-- The settings of a project among those of a batch. -/
def settingsOf? (batch : FetchBatch) (id : Int) : Option ProjectSettings :=
  batch.reverse.find? (·.id == id)

/-- What is wanted of a hierarchy: what is configured for the project of its
root, and everything if that project was not asked for. -/
def flagsOf (projects : List ProjectSettings) (hierarchy : PipelineHierarchy) : ExportFlags :=
  match settingsOf? projects hierarchy.rootPipeline.projectId with
  | some settings => settings.exportFlags
  | none => .all

/-- The jobs whose logs are wanted. -/
def loggedJobs (projects : List ProjectSettings) (hierarchies : List PipelineHierarchy) :
    List Job :=
  (hierarchies.filter fun hierarchy => (flagsOf projects hierarchy).needsLogs).flatMap
    fun hierarchy => hierarchy.depthFirst.flatMap (·.jobs)

/-- The pipelines whose test reports are wanted. -/
def reportedPipelines (projects : List ProjectSettings) (hierarchies : List PipelineHierarchy) :
    List Pipeline :=
  (hierarchies.filter fun hierarchy => (flagsOf projects hierarchy).testReports).flatMap
    fun hierarchy => hierarchy.depthFirst.map (·.pipeline)

/-- The runners of all jobs. -/
def runnersOf (hierarchies : List PipelineHierarchy) : List Int :=
  hierarchies.flatMap fun hierarchy => hierarchy.depthFirst.flatMap fun entry =>
    entry.jobs.filterMap (·.runnerId)

/-- The projects whose deployments are wanted. -/
def deployedProjects (projects : List ProjectSettings) : List Int :=
  (projects.filter (·.exportFlags.deployments)).map (·.id)

/-! ### The three parts of a batch -/

/-- The batch of everything that belongs to pipelines. -/
def ciBatch (projects : List ProjectSettings) (hierarchies : List PipelineHierarchy)
    (reports : List TestReport) (deployments : List Deployment) (runners : List Runner) :
    ExportBatch :=
  let pipelines := hierarchies.foldl
    (fun known hierarchy => ExportBatch.pushHierarchy known (flagsOf projects hierarchy) hierarchy)
    ExportBatch.empty
  ((pipelines.pushReports reports).push .deployments (always Deployment.encode)
    deployments).push .runners (always Runner.encode) runners

/-- The failures among outcomes. -/
def failures (outcomes : List (Outcome Unit)) : List SyncError :=
  outcomes.filterMap fun outcome =>
    match outcome with
    | .ok () => none
    | .error error => some error

/-- Fetches pipelines and what belongs to them, as the batch to be exported with
the failures on the way. Each of the fetches adds its failures, and what the
others brought is part of the batch all the same. -/
def fetchCi (context : SyncContext) (projects : List ProjectSettings) (window : SyncWindow) :
    Sync (ExportBatch × List SyncError) := do
  let fetched ← (fetchPipelineHierarchies context.allowance (projects.map (·.id)) window).run
  let (hierarchies, pipelineErrors) := settle fetched
  let logs ← (fetchJobLogs (loggedJobs projects hierarchies)).run
  let (logs, logErrors) := settle logs
  let reports ← (fetchTestReports (reportedPipelines projects hierarchies)).run
  let (reports, reportErrors) := settle reports
  let deployments ← (fetchDeployments (deployedProjects projects) window).run
  let (deployments, deploymentErrors) := settle deployments
  let runners ← (fetchRunners (runnersOf hierarchies)).run
  let (runners, runnerErrors) := settle runners
  pure (ciBatch projects (attachJobLogs logs hierarchies) reports deployments runners,
    pipelineErrors ++ logErrors ++ reportErrors ++ deploymentErrors ++ runnerErrors)

/-- Exports pipelines and what belongs to them. -/
def syncCi (context : SyncContext) (projects : List ProjectSettings) (window : SyncWindow) :
    Sync (Outcome Unit) :=
  if projects.isEmpty then pure (.ok ())
  else do
    let (batch, errors) ← fetchCi context projects window
    let exported ← context.exporter.exportBatch batch
    pure (SyncError.joinResult (errors ++ failures [exported]))

/-- Exports merge requests. -/
def syncMergeRequests (context : SyncContext) (ids : List Int) (window : SyncWindow) :
    Sync (Outcome Unit) :=
  if ids.isEmpty then pure (.ok ())
  else do
    match ← (fetchMergeRequests context.allowance ids window).run with
    | .error error => pure (.error error)
    | .ok collected =>
      let (records, fetchError) := collected.joined
      let exported ← context.exporter.exportRecords .mergeRequests
        (always MergeRequest.encode) records
      pure (SyncError.joinResult (fetchError.toList ++ failures [exported]))

/-! ### A batch -/

/-- The projects whose records are exported: those updated, or all of them. -/
def exportedProjects (changes : List ProjectChanges) (everything : Bool) : List Project :=
  (changes.filter fun change => everything || change.updated).map (·.project)

/-- The projects of a batch whose pipelines changed. -/
def projectsWithPipelines (batch : FetchBatch) (changes : List ProjectChanges) :
    List ProjectSettings :=
  (changes.filter (0 < ·.pipelines)).filterMap fun change => settingsOf? batch change.project.id

/-- The projects of a batch whose merge requests changed and are wanted. -/
def projectsWithMergeRequests (batch : FetchBatch) (changes : List ProjectChanges) : List Int :=
  (((changes.filter (0 < ·.mergeRequests)).filterMap fun change =>
    settingsOf? batch change.project.id).filter (·.exportFlags.mergeRequests)).map (·.id)

/-- Processes a batch within a window. With `everything` set the records of all
its projects are exported, changed or not. The three parts of the export do not
wait for one another. -/
def process (context : SyncContext) (batch : FetchBatch) (window : SyncWindow)
    (everything : Bool) : Sync (Outcome Unit) := do
  match ← (fetchProjectChanges context.allowance (batch.map (·.id)) window).run with
  | .error error => pure (.error error)
  | .ok ⟨changes, errors⟩ =>
    let projects := context.exporter.exportRecords .projects (always Project.encode)
      (exportedProjects changes everything)
    let ci := syncCi context (projectsWithPipelines batch changes) window
    let mergeRequests :=
      syncMergeRequests context (projectsWithMergeRequests batch changes) window
    let (exported, synced, merged) ← projects.beside (ci.beside mergeRequests)
    pure (SyncError.joinResult (errors ++ failures [exported, synced, merged]))

/-- Processes batches, each whatever becomes of the others, and gives the
failures. -/
def processEach (context : SyncContext) (window : SyncWindow) (everything : Bool) :
    List FetchBatch → Sync (List SyncError)
  | [] => pure []
  | batch :: rest => do
    let (outcome, others) ← (process context batch window everything).beside
      (processEach context window everything rest)
    pure (failures [outcome] ++ others)

/-- Processes batches and joins their failures. -/
def processBatches (context : SyncContext) (batches : List FetchBatch) (window : SyncWindow)
    (everything : Bool) : Sync (Outcome Unit) := do
  let errors ← processEach context window everything batches
  pure (SyncError.joinResult errors)

end CiTelemetry
