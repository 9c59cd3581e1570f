/-
This file holds the record of a pipeline and references to pipelines, which may
belong to other projects.
-/

import CiTelemetry.Json.Fields

namespace CiTelemetry

/-- A reference to a pipeline. -/
structure PipelineRef where
  id : Int
  iid : String
  projectId : Option Int
  projectPath : String
  deriving DecidableEq, Repr, Inhabited

def PipelineRef.encode (reference : PipelineRef) : Json :=
  .obj
    [("id", .int reference.id),
      ("iid", .str reference.iid),
      ("project_id", .ofOption .int reference.projectId),
      ("project_path", .str reference.projectPath)]

def PipelineRef.decode? (json : Json) : Option PipelineRef := do
  let fields ← json.asObject?
  let id ← fields.signed? "id"
  let iid ← fields.text? "iid"
  let projectId ← fields.maybeSigned? "project_id"
  let projectPath ← fields.text? "project_path"
  pure ⟨id, iid, projectId, projectPath⟩

/-- A run of a pipeline. -/
structure Pipeline where
  id : Int
  /-- The number within the project, by which the pipeline is looked up there. -/
  iid : String
  projectId : Int
  projectPath : String
  /-- The branch or tag that the pipeline ran for. -/
  branch : Option String
  sha : Option String
  source : Option String
  status : String
  user : Option String
  createdAt : Option Instant
  updatedAt : Option Instant
  startedAt : Option Instant
  finishedAt : Option Instant
  /-- Seconds. -/
  duration : Option Binary64
  /-- Seconds. -/
  queuedDuration : Option Binary64
  coverage : Option Binary64
  /-- The pipeline whose bridge started this one. -/
  triggeredBy : Option PipelineRef
  deriving DecidableEq, Repr, Inhabited

def Pipeline.encode (pipeline : Pipeline) : Json :=
  .obj
    [("id", .int pipeline.id),
      ("iid", .str pipeline.iid),
      ("project_id", .int pipeline.projectId),
      ("project_path", .str pipeline.projectPath),
      ("ref_", .ofOption .str pipeline.branch),
      ("sha", .ofOption .str pipeline.sha),
      ("source", .ofOption .str pipeline.source),
      ("status", .str pipeline.status),
      ("user", .ofOption .str pipeline.user),
      ("created_at", .ofOption .ofInstant pipeline.createdAt),
      ("updated_at", .ofOption .ofInstant pipeline.updatedAt),
      ("started_at", .ofOption .ofInstant pipeline.startedAt),
      ("finished_at", .ofOption .ofInstant pipeline.finishedAt),
      ("duration", .ofOption .ofNumber pipeline.duration),
      ("queued_duration", .ofOption .ofNumber pipeline.queuedDuration),
      ("coverage", .ofOption .ofNumber pipeline.coverage),
      ("upstream", .ofOption PipelineRef.encode pipeline.triggeredBy)]

def Pipeline.decode? (json : Json) : Option Pipeline := do
  let fields ← json.asObject?
  let id ← fields.signed? "id"
  let iid ← fields.text? "iid"
  let projectId ← fields.signed? "project_id"
  let projectPath ← fields.text? "project_path"
  let branch ← fields.maybeText? "ref_"
  let sha ← fields.maybeText? "sha"
  let source ← fields.maybeText? "source"
  let status ← fields.text? "status"
  let user ← fields.maybeText? "user"
  let createdAt ← fields.maybeInstant? "created_at"
  let updatedAt ← fields.maybeInstant? "updated_at"
  let startedAt ← fields.maybeInstant? "started_at"
  let finishedAt ← fields.maybeInstant? "finished_at"
  let duration ← fields.maybeNumber? "duration"
  let queuedDuration ← fields.maybeNumber? "queued_duration"
  let coverage ← fields.maybeNumber? "coverage"
  let triggeredBy ← Json.optional? fields "upstream" PipelineRef.decode?
  pure ⟨id, iid, projectId, projectPath, branch, sha, source, status, user, createdAt,
    updatedAt, startedAt, finishedAt, duration, queuedDuration, coverage, triggeredBy⟩

end CiTelemetry
