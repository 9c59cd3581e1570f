/-
This file fetches job logs and attaches what they hold to the hierarchies of
their pipelines.
-/

import CiTelemetry.Hierarchy
import CiTelemetry.Log.Scan
import CiTelemetry.Sync.Pool

namespace CiTelemetry

/-- The sections and samples of the log of one job. -/
structure JobLog where
  jobId : Int
  pipelineId : Int
  sections : List JobSection
  metrics : List JobMetric
  deriving DecidableEq, Repr, Inhabited

namespace JobLog

/-- The sections of a log in the order in which they closed. Sections that the
log left open end when the job finished, if it did. -/
def sectionsOf (job : Job) (parsed : ParsedLog) : List Section :=
  match job.finishedAt with
  | some instant => backfillOpen parsed.sections instant.seconds
  | none => parsed.sections

/-- What the log of a job holds. -/
def ofLog (job : Job) (log : Bytes) : JobLog :=
  let parsed := Log.parse log
  { jobId := job.id
    pipelineId := job.pipelineId
    sections := (sectionsOf job parsed).zipIdx.map fun (part, index) =>
      ⟨job.id, job.pipelineId, job.projectId, index, part.name, part.start, part.finish⟩
    metrics := parsed.metrics.map fun metric =>
      ⟨job.id, job.pipelineId, job.projectId, metric.name, metric.labels, metric.value,
        metric.timestamp⟩ }

def encode (log : JobLog) : Json :=
  .obj
    [("job_id", .int log.jobId),
      ("pipeline_id", .int log.pipelineId),
      ("sections", .ofList JobSection.encode log.sections),
      ("metrics", .ofList JobMetric.encode log.metrics)]

end JobLog

/-- Fetches the logs of all jobs that have started. -/
def fetchJobLogs (jobs : List Job) : Fetch (Collected JobLog) :=
  runPool ((jobs.filter (·.startedAt.isSome)).map fun job => do
    let log ← Fetch.query (.jobLog job.projectId job.id)
    pure (JobLog.ofLog job log))

/-! ### Attaching -/

/-- Adds the contents of logs to an entry. -/
def HierarchyEntry.addLogs (entry : HierarchyEntry) (logs : List JobLog) : HierarchyEntry :=
  { entry with
    sections := entry.sections ++ logs.flatMap (·.sections)
    metrics := entry.metrics ++ logs.flatMap (·.metrics) }

/-- Gives each entry the logs of its pipeline, and gives back those left over. -/
def attachToEntries (logs : List JobLog) : List HierarchyEntry →
    List HierarchyEntry × List JobLog
  | [] => ([], logs)
  | entry :: rest =>
    let own := logs.filter (·.pipelineId == entry.id)
    let (others, left) := attachToEntries (logs.filter (·.pipelineId != entry.id)) rest
    (entry.addLogs own :: others, left)

/-- Gives each log to the first entry of its pipeline; a log of a pipeline that
is in no hierarchy is dropped. -/
def attachJobLogs (logs : List JobLog) : List PipelineHierarchy → List PipelineHierarchy
  | [] => []
  | hierarchy :: rest =>
    let (entries, left) := attachToEntries logs hierarchy.entries
    { hierarchy with entries } :: attachJobLogs left rest

end CiTelemetry
