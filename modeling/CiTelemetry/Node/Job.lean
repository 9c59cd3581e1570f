/-
This file holds jobs as the query language answers them, with the first page of
their artifacts inside, and the records that such answers become.
-/

import CiTelemetry.Node.Project
import CiTelemetry.Record.Job
import CiTelemetry.Text.LowerCase

namespace CiTelemetry

/-! ### References to pipelines -/

structure PipelineRefNode where
  id : String
  iid : String
  project : Option ProjectRefNode
  deriving DecidableEq, Repr, Inhabited

namespace PipelineRefNode

def decode? (json : Json) : Option PipelineRefNode := do
  let fields ← json.asObject?
  let id ← fields.text? "id"
  let iid ← fields.text? "iid"
  let project ← Json.optional? fields "project" ProjectRefNode.decode?
  pure ⟨id, iid, project⟩

/-- The reference itself. One that names no project stands for a pipeline of the
project at `fallbackPath`. -/
def toRef (node : PipelineRefNode) (fallbackPath : String) : Outcome PipelineRef := do
  let id ← GlobalId.parse node.id
  match node.project with
  | none => pure ⟨id, node.iid, none, fallbackPath⟩
  | some project =>
    match project.id with
    | none => pure ⟨id, node.iid, none, project.fullPath⟩
    | some projectGid =>
      let projectId ← GlobalId.parse projectGid
      pure ⟨id, node.iid, some projectId, project.fullPath⟩

/-- The reference of a node that may be missing. -/
def toRef? (node : Option PipelineRefNode) (fallbackPath : String) :
    Outcome (Option PipelineRef) :=
  match node with
  | none => .ok none
  | some node => (node.toRef fallbackPath).map some

end PipelineRefNode

/-! ### Artifacts -/

structure ArtifactNode where
  name : Option String
  fileType : Option String
  size : Option Int
  downloadPath : Option String
  deriving DecidableEq, Repr, Inhabited

def ArtifactNode.decode? (json : Json) : Option ArtifactNode := do
  let fields ← json.asObject?
  let name ← fields.maybeText? "name"
  let fileType ← fields.maybeText? "fileType"
  let size ← fields.maybeSigned? "size"
  let downloadPath ← fields.maybeText? "downloadPath"
  pure ⟨name, fileType, size, downloadPath⟩

def ArtifactNode.toArtifact (node : ArtifactNode) : JobArtifact :=
  { name := node.name
    fileType := node.fileType.map lowerCase
    size := node.size
    downloadPath := node.downloadPath }

/-! ### Jobs -/

structure JobNode where
  id : Option String
  name : Option String
  /-- What sort of job this is; only bridges are told apart. -/
  kind : Option String
  status : Option String
  stage : Option String
  allowFailure : Bool
  retried : Option Bool
  tags : Option (List String)
  failureMessage : Option String
  runner : Option String
  createdAt : Option Instant
  queuedAt : Option Instant
  startedAt : Option Instant
  finishedAt : Option Instant
  duration : Option Int
  queuedDuration : Option Binary64
  downstream : Option PipelineRefNode
  artifacts : Option (Connection ArtifactNode)
  deriving DecidableEq, Repr, Inhabited

/-- A name that may be missing. -/
def decodeName? (json : Json) : Option (Option String) := do
  let fields ← json.asObject?
  fields.maybeText? "name"

/-- The global id of a runner. -/
def decodeRunnerId? (json : Json) : Option String := do
  let fields ← json.asObject?
  fields.text? "id"

/-- A job of a pipeline: a build job or a bridge. -/
inductive CiJob where
  | build (job : Job)
  | bridge (bridge : Bridge)
  deriving DecidableEq, Repr, Inhabited

namespace JobNode

def decode? (json : Json) : Option JobNode := do
  let fields ← json.asObject?
  let id ← fields.maybeText? "id"
  let name ← fields.maybeText? "name"
  let kind ← fields.maybeText? "kind"
  let status ← fields.maybeText? "status"
  let stage ← Json.optional? fields "stage" decodeName?
  let allowFailure ← Json.defaulted? fields "allowFailure" Json.asBool? false
  let retried ← fields.maybeFlag? "retried"
  let tags ← Json.optional? fields "tags" (Json.asList? Json.asText?)
  let failureMessage ← fields.maybeText? "failureMessage"
  let runner ← Json.optional? fields "runner" decodeRunnerId?
  let createdAt ← fields.maybeInstant? "createdAt"
  let queuedAt ← fields.maybeInstant? "queuedAt"
  let startedAt ← fields.maybeInstant? "startedAt"
  let finishedAt ← fields.maybeInstant? "finishedAt"
  let duration ← fields.maybeSigned? "duration"
  let queuedDuration ← fields.maybeNumber? "queuedDuration"
  let downstream ← Json.optional? fields "downstreamPipeline" PipelineRefNode.decode?
  let artifacts ← Json.optional? fields "artifacts" (Connection.decode? ArtifactNode.decode?)
  pure ⟨id, name, kind, status, stage.join, allowFailure, retried, tags, failureMessage, runner,
    createdAt, queuedAt, startedAt, finishedAt, duration, queuedDuration, downstream, artifacts⟩

/-- The first page of the artifacts of a job. -/
def artifactPage (node : JobNode) : Page ArtifactNode :=
  Connection.pageOf node.artifacts

def isBridge (node : JobNode) : Bool :=
  node.kind == some "BRIDGE"

/-- The number of a job. -/
def number (node : JobNode) : Outcome Int :=
  match node.id with
  | some id => GlobalId.parse id
  | none => .error (.conversion "job without id")

/-- The number of the runner of a job, if it has one. -/
def runnerNumber (node : JobNode) : Outcome (Option Int) :=
  match node.runner with
  | none => .ok none
  | some runner => (GlobalId.parse runner).map some

def toBridge (node : JobNode) (pipeline : Pipeline) (id : Int) : Outcome Bridge := do
  let downstream ← PipelineRefNode.toRef? node.downstream pipeline.projectPath
  pure
    { id
      pipelineId := pipeline.id
      projectId := pipeline.projectId
      name := node.name.getD ""
      stage := node.stage
      status := lowerCase (node.status.getD "")
      allowFailure := node.allowFailure
      createdAt := node.createdAt
      startedAt := node.startedAt
      finishedAt := node.finishedAt
      duration := node.duration.map Binary64.ofInt
      queuedDuration := node.queuedDuration
      downstream }

def toBuild (node : JobNode) (pipeline : Pipeline) (id : Int)
    (artifacts : List ArtifactNode) : Outcome Job := do
  let runnerId ← node.runnerNumber
  pure
    { id
      pipelineId := pipeline.id
      projectId := pipeline.projectId
      name := node.name.getD ""
      stage := node.stage
      status := lowerCase (node.status.getD "")
      tags := node.tags.getD []
      allowFailure := node.allowFailure
      retried := node.retried.getD false
      failureMessage := node.failureMessage
      runnerId
      createdAt := node.createdAt
      queuedAt := node.queuedAt
      startedAt := node.startedAt
      finishedAt := node.finishedAt
      duration := node.duration.map Binary64.ofInt
      queuedDuration := node.queuedDuration
      artifacts := artifacts.map (·.toArtifact) }

/-- The record of a job of `pipeline`, with all of its artifacts. -/
def toCiJob (node : JobNode) (pipeline : Pipeline) (artifacts : List ArtifactNode) :
    Outcome CiJob := do
  let id ← node.number
  if node.isBridge then
    (node.toBridge pipeline id).map .bridge
  else
    (node.toBuild pipeline id artifacts).map .build

end JobNode

end CiTelemetry
