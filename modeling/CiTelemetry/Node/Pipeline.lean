/-
This file holds pipelines as the query language answers them, with the first
page of their jobs inside, and projects with the first page of their pipelines.
-/

import CiTelemetry.Node.Job

namespace CiTelemetry

structure PipelineNode where
  id : String
  iid : String
  status : String
  branch : Option String
  sha : Option String
  source : Option String
  user : Option String
  createdAt : Option Instant
  updatedAt : Option Instant
  startedAt : Option Instant
  finishedAt : Option Instant
  duration : Option Int
  queuedDuration : Option Binary64
  coverage : Option Binary64
  triggeredBy : Option PipelineRefNode
  project : Option ProjectRefNode
  jobs : Option (Connection JobNode)
  deriving DecidableEq, Repr, Inhabited

namespace PipelineNode

def decode? (json : Json) : Option PipelineNode := do
  let fields ← json.asObject?
  let id ← fields.text? "id"
  let iid ← fields.text? "iid"
  let status ← Json.defaulted? fields "status" Json.asText? ""
  let branch ← fields.maybeText? "ref"
  let sha ← fields.maybeText? "sha"
  let source ← fields.maybeText? "source"
  let user ← Json.optional? fields "user" decodeUserName?
  let createdAt ← fields.maybeInstant? "createdAt"
  let updatedAt ← fields.maybeInstant? "updatedAt"
  let startedAt ← fields.maybeInstant? "startedAt"
  let finishedAt ← fields.maybeInstant? "finishedAt"
  let duration ← fields.maybeSigned? "duration"
  let queuedDuration ← fields.maybeNumber? "queuedDuration"
  let coverage ← fields.maybeNumber? "coverage"
  let triggeredBy ← Json.optional? fields "upstream" PipelineRefNode.decode?
  let project ← Json.optional? fields "project" ProjectRefNode.decode?
  let jobs ← Json.optional? fields "jobs" (Connection.decode? JobNode.decode?)
  pure ⟨id, iid, status, branch, sha, source, user, createdAt, updatedAt, startedAt,
    finishedAt, duration, queuedDuration, coverage, triggeredBy, project, jobs⟩

/-- The first page of the jobs of a pipeline. -/
def jobPage (node : PipelineNode) : Page JobNode :=
  Connection.pageOf node.jobs

/-- The record of a pipeline of the project with a number and a path. -/
def toPipeline (node : PipelineNode) (projectId : Int) (projectPath : String) :
    Outcome Pipeline := do
  let triggeredBy ← PipelineRefNode.toRef? node.triggeredBy projectPath
  let id ← GlobalId.parse node.id
  pure
    { id
      iid := node.iid
      projectId
      projectPath
      branch := node.branch
      sha := node.sha
      source := node.source
      status := lowerCase node.status
      user := node.user
      createdAt := node.createdAt
      updatedAt := node.updatedAt
      startedAt := node.startedAt
      finishedAt := node.finishedAt
      duration := node.duration.map Binary64.ofInt
      queuedDuration := node.queuedDuration
      coverage := node.coverage
      triggeredBy }

end PipelineNode

/-- A project with the first page of its pipelines. -/
structure ProjectPipelinesNode where
  id : String
  fullPath : String
  pipelines : Option (Connection PipelineNode)
  deriving DecidableEq, Repr, Inhabited

namespace ProjectPipelinesNode

def decode? (json : Json) : Option ProjectPipelinesNode := do
  let fields ← json.asObject?
  let id ← fields.text? "id"
  let fullPath ← fields.text? "fullPath"
  let pipelines ← Json.optional? fields "pipelines" (Connection.decode? PipelineNode.decode?)
  pure ⟨id, fullPath, pipelines⟩

def pipelinePage (node : ProjectPipelinesNode) : Page PipelineNode :=
  Connection.pageOf node.pipelines

end ProjectPipelinesNode

end CiTelemetry
