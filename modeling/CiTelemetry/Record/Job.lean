/-
This file holds the records of jobs: build jobs with their artifacts, bridges,
which start other pipelines, and the sections and samples found in job logs.
-/

import CiTelemetry.Record.Pipeline

namespace CiTelemetry

/-- A file that a job left behind. -/
structure JobArtifact where
  name : Option String
  fileType : Option String
  size : Option Int
  downloadPath : Option String
  deriving DecidableEq, Repr, Inhabited

def JobArtifact.encode (artifact : JobArtifact) : Json :=
  .obj
    [("name", .ofOption .str artifact.name),
      ("file_type", .ofOption .str artifact.fileType),
      ("size", .ofOption .int artifact.size),
      ("download_path", .ofOption .str artifact.downloadPath)]

def JobArtifact.decode? (json : Json) : Option JobArtifact := do
  let fields ← json.asObject?
  let name ← fields.maybeText? "name"
  let fileType ← fields.maybeText? "file_type"
  let size ← fields.maybeSigned? "size"
  let downloadPath ← fields.maybeText? "download_path"
  pure ⟨name, fileType, size, downloadPath⟩

/-- A build job. -/
structure Job where
  id : Int
  pipelineId : Int
  projectId : Int
  name : String
  stage : Option String
  status : String
  tags : List String
  allowFailure : Bool
  retried : Bool
  failureMessage : Option String
  runnerId : Option Int
  createdAt : Option Instant
  queuedAt : Option Instant
  startedAt : Option Instant
  finishedAt : Option Instant
  duration : Option Binary64
  queuedDuration : Option Binary64
  artifacts : List JobArtifact
  deriving DecidableEq, Repr, Inhabited

def Job.encode (job : Job) : Json :=
  .obj
    [("id", .int job.id),
      ("pipeline_id", .int job.pipelineId),
      ("project_id", .int job.projectId),
      ("name", .str job.name),
      ("stage", .ofOption .str job.stage),
      ("status", .str job.status),
      ("tags", .ofList .str job.tags),
      ("allow_failure", .bool job.allowFailure),
      ("retried", .bool job.retried),
      ("failure_message", .ofOption .str job.failureMessage),
      ("runner_id", .ofOption .int job.runnerId),
      ("created_at", .ofOption .ofInstant job.createdAt),
      ("queued_at", .ofOption .ofInstant job.queuedAt),
      ("started_at", .ofOption .ofInstant job.startedAt),
      ("finished_at", .ofOption .ofInstant job.finishedAt),
      ("duration", .ofOption .ofNumber job.duration),
      ("queued_duration", .ofOption .ofNumber job.queuedDuration),
      ("artifacts", .ofList JobArtifact.encode job.artifacts)]

def Job.decode? (json : Json) : Option Job := do
  let fields ← json.asObject?
  let id ← fields.signed? "id"
  let pipelineId ← fields.signed? "pipeline_id"
  let projectId ← fields.signed? "project_id"
  let name ← fields.text? "name"
  let stage ← fields.maybeText? "stage"
  let status ← fields.text? "status"
  let tags ← fields.list? "tags" Json.asText?
  let allowFailure ← fields.flag? "allow_failure"
  let retried ← fields.flag? "retried"
  let failureMessage ← fields.maybeText? "failure_message"
  let runnerId ← fields.maybeSigned? "runner_id"
  let createdAt ← fields.maybeInstant? "created_at"
  let queuedAt ← fields.maybeInstant? "queued_at"
  let startedAt ← fields.maybeInstant? "started_at"
  let finishedAt ← fields.maybeInstant? "finished_at"
  let duration ← fields.maybeNumber? "duration"
  let queuedDuration ← fields.maybeNumber? "queued_duration"
  let artifacts ← fields.list? "artifacts" JobArtifact.decode?
  pure ⟨id, pipelineId, projectId, name, stage, status, tags, allowFailure, retried,
    failureMessage, runnerId, createdAt, queuedAt, startedAt, finishedAt, duration,
    queuedDuration, artifacts⟩

/-- A job that starts another pipeline. -/
structure Bridge where
  id : Int
  pipelineId : Int
  projectId : Int
  name : String
  stage : Option String
  status : String
  allowFailure : Bool
  createdAt : Option Instant
  startedAt : Option Instant
  finishedAt : Option Instant
  duration : Option Binary64
  queuedDuration : Option Binary64
  /-- The pipeline that the bridge started. -/
  downstream : Option PipelineRef
  deriving DecidableEq, Repr, Inhabited

def Bridge.encode (bridge : Bridge) : Json :=
  .obj
    [("id", .int bridge.id),
      ("pipeline_id", .int bridge.pipelineId),
      ("project_id", .int bridge.projectId),
      ("name", .str bridge.name),
      ("stage", .ofOption .str bridge.stage),
      ("status", .str bridge.status),
      ("allow_failure", .bool bridge.allowFailure),
      ("created_at", .ofOption .ofInstant bridge.createdAt),
      ("started_at", .ofOption .ofInstant bridge.startedAt),
      ("finished_at", .ofOption .ofInstant bridge.finishedAt),
      ("duration", .ofOption .ofNumber bridge.duration),
      ("queued_duration", .ofOption .ofNumber bridge.queuedDuration),
      ("downstream", .ofOption PipelineRef.encode bridge.downstream)]

def Bridge.decode? (json : Json) : Option Bridge := do
  let fields ← json.asObject?
  let id ← fields.signed? "id"
  let pipelineId ← fields.signed? "pipeline_id"
  let projectId ← fields.signed? "project_id"
  let name ← fields.text? "name"
  let stage ← fields.maybeText? "stage"
  let status ← fields.text? "status"
  let allowFailure ← fields.flag? "allow_failure"
  let createdAt ← fields.maybeInstant? "created_at"
  let startedAt ← fields.maybeInstant? "started_at"
  let finishedAt ← fields.maybeInstant? "finished_at"
  let duration ← fields.maybeNumber? "duration"
  let queuedDuration ← fields.maybeNumber? "queued_duration"
  let downstream ← Json.optional? fields "downstream" PipelineRef.decode?
  pure ⟨id, pipelineId, projectId, name, stage, status, allowFailure, createdAt, startedAt,
    finishedAt, duration, queuedDuration, downstream⟩

/-- A section of the log of a job. -/
structure JobSection where
  jobId : Int
  pipelineId : Int
  projectId : Int
  /-- The place in the order in which the sections of the job closed. -/
  index : Nat
  name : String
  /-- Unix seconds. -/
  start : Int
  /-- Unix seconds. -/
  finish : Option Int
  deriving DecidableEq, Repr, Inhabited

def JobSection.encode (part : JobSection) : Json :=
  .obj
    [("job_id", .int part.jobId),
      ("pipeline_id", .int part.pipelineId),
      ("project_id", .int part.projectId),
      ("index", .ofNat part.index),
      ("name", .str part.name),
      ("start", .int part.start),
      ("end", .ofOption .int part.finish)]

def JobSection.decode? (json : Json) : Option JobSection := do
  let fields ← json.asObject?
  let jobId ← fields.signed? "job_id"
  let pipelineId ← fields.signed? "pipeline_id"
  let projectId ← fields.signed? "project_id"
  let index ← fields.unsigned? "index"
  let name ← fields.text? "name"
  let start ← fields.signed? "start"
  let finish ← fields.maybeSigned? "end"
  pure ⟨jobId, pipelineId, projectId, index, name, start, finish⟩

/-- A metric sample from the log of a job. -/
structure JobMetric where
  jobId : Int
  pipelineId : Int
  projectId : Int
  name : String
  labels : List (String × String)
  value : Binary64
  timestamp : Option Int
  deriving DecidableEq, Repr, Inhabited

def JobMetric.encode (sample : JobMetric) : Json :=
  .obj
    [("job_id", .int sample.jobId),
      ("pipeline_id", .int sample.pipelineId),
      ("project_id", .int sample.projectId),
      ("name", .str sample.name),
      ("labels", .obj (sample.labels.map fun (name, text) => (name, .str text))),
      ("value", .ofNumber sample.value),
      ("timestamp", .ofOption .int sample.timestamp)]

def JobMetric.decode? (json : Json) : Option JobMetric := do
  let fields ← json.asObject?
  let jobId ← fields.signed? "job_id"
  let pipelineId ← fields.signed? "pipeline_id"
  let projectId ← fields.signed? "project_id"
  let name ← fields.text? "name"
  let labels ← Json.required? fields "labels" Json.asTextMap?
  let value ← fields.number? "value"
  let timestamp ← fields.maybeSigned? "timestamp"
  pure ⟨jobId, pipelineId, projectId, name, labels, value, timestamp⟩

end CiTelemetry
