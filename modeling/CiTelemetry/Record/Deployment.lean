/-
This file holds the record of a deployment.
-/

import CiTelemetry.Json.Fields

namespace CiTelemetry

/-- A deployment of a project to an environment. -/
structure Deployment where
  id : Int
  iid : Int
  projectId : Int
  environment : Option String
  status : String
  branch : Option String
  sha : Option String
  user : Option String
  jobId : Option Int
  pipelineId : Option Int
  createdAt : Option Instant
  updatedAt : Option Instant
  finishedAt : Option Instant
  deriving DecidableEq, Repr, Inhabited

def Deployment.encode (deployment : Deployment) : Json :=
  .obj
    [("id", .int deployment.id),
      ("iid", .int deployment.iid),
      ("project_id", .int deployment.projectId),
      ("environment", .ofOption .str deployment.environment),
      ("status", .str deployment.status),
      ("ref_", .ofOption .str deployment.branch),
      ("sha", .ofOption .str deployment.sha),
      ("user", .ofOption .str deployment.user),
      ("job_id", .ofOption .int deployment.jobId),
      ("pipeline_id", .ofOption .int deployment.pipelineId),
      ("created_at", .ofOption .ofInstant deployment.createdAt),
      ("updated_at", .ofOption .ofInstant deployment.updatedAt),
      ("finished_at", .ofOption .ofInstant deployment.finishedAt)]

def Deployment.decode? (json : Json) : Option Deployment := do
  let fields ← json.asObject?
  let id ← fields.signed? "id"
  let iid ← fields.signed? "iid"
  let projectId ← fields.signed? "project_id"
  let environment ← fields.maybeText? "environment"
  let status ← fields.text? "status"
  let branch ← fields.maybeText? "ref_"
  let sha ← fields.maybeText? "sha"
  let user ← fields.maybeText? "user"
  let jobId ← fields.maybeSigned? "job_id"
  let pipelineId ← fields.maybeSigned? "pipeline_id"
  let createdAt ← fields.maybeInstant? "created_at"
  let updatedAt ← fields.maybeInstant? "updated_at"
  let finishedAt ← fields.maybeInstant? "finished_at"
  pure ⟨id, iid, projectId, environment, status, branch, sha, user, jobId, pipelineId,
    createdAt, updatedAt, finishedAt⟩

end CiTelemetry
