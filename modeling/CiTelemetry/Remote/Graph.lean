/-
This file asks the server with documents. The answer to a document carries data,
or the messages of what went wrong; messages outweigh data, and an answer with
neither is a failure of its own.
-/

import CiTelemetry.Remote.Client
import CiTelemetry.Remote.Document
import CiTelemetry.Remote.Query

namespace CiTelemetry

open Http

/-! ### Answers -/

/-- The answer to a document. -/
structure GraphAnswer (α : Type) where
  data : Option α
  messages : List String
  deriving Repr, Inhabited

namespace GraphAnswer

/-- A whole number of a signed word of 32 bits. -/
def asSigned32? (json : Json) : Option Int :=
  json.asSigned64?.filter fun number => -(twoTo 31 : Int) ≤ number && number < twoTo 31

/-- A place in the document that a message is about. -/
def decodePlace? (json : Json) : Option (Int × Int) := do
  let fields ← json.asObject?
  let line ← Json.required? fields "line" asSigned32?
  let column ← Json.required? fields "column" asSigned32?
  pure (line, column)

/-- A step of a path in the answer that a message is about. -/
def decodeStep? (json : Json) : Option Json :=
  if json.asText?.isSome || (asSigned32? json).isSome then some json else none

/-- An object of any values. -/
def decodeExtensions? (json : Json) : Option Json.Fields :=
  if json.isFinite then json.asObject? else none

def decodeMessage? (json : Json) : Option String := do
  let fields ← json.asObject?
  let message ← fields.text? "message"
  let _ ← Json.optional? fields "locations" (Json.asList? decodePlace?)
  let _ ← Json.optional? fields "path" (Json.asList? decodeStep?)
  let _ ← Json.optional? fields "extensions" decodeExtensions?
  pure message

def decode? {α : Type} (decodeData? : Json → Option α) (json : Json) :
    Option (GraphAnswer α) := do
  let fields ← json.asObject?
  let data ← Json.optional? fields "data" decodeData?
  let messages ← Json.optional? fields "errors" (Json.asList? decodeMessage?)
  let _ ← Json.optional? fields "extensions" decodeExtensions?
  pure ⟨data, messages.getD []⟩

/-- The data of an answer to the question of a name. -/
def outcome {α : Type} (question : String) (answer : GraphAnswer α) : Outcome α :=
  if answer.messages.isEmpty then
    match answer.data with
    | some data => .ok data
    | none => .error .noData
  else .error (.queryErrors question (", ".intercalate answer.messages))

end GraphAnswer

/-! ### Parts of answers -/

/-- A field of the data that may be missing or null. -/
def partOf? {α : Type} (name : String) (decode? : Json → Option α) (json : Json) :
    Option (Option α) :=
  json.asObject?.bind fun fields => Json.optional? fields name decode?

/-- A collection in pages; a missing one is an empty last page. -/
def pageOf? {α : Type} (name : String) (decode? : Json → Option α) (json : Json) :
    Option (Page α) :=
  (partOf? name (Connection.decode? decode?) json).map Connection.pageOf

/-! ### Variables -/

def windowVariables (window : SyncWindow) : List (String × Json) :=
  [("updatedAfter", .str window.start.renderOffset),
    ("updatedBefore", .str window.finish.renderOffset)]

def cursorVariable (cursor : Option String) : String × Json :=
  ("after", .ofOption .str cursor)

/-- The arguments of a question about several projects. -/
def projectsVariables (ids : List Int) (window : SyncWindow) (cursor : Option String) :
    List (String × Json) :=
  [("ids", .ofList (fun id => .str (GlobalId.ofProject id)) ids)] ++ windowVariables window ++
    [cursorVariable cursor]

/-- The arguments of a question about the pages of one project. -/
def projectVariables (path : String) (window : SyncWindow) (cursor : Option String) :
    List (String × Json) :=
  [("fullPath", .str path)] ++ windowVariables window ++ [cursorVariable cursor]

/-! ### Questions -/

namespace Client

variable {α : Type}

/-- Sends a document with arguments, and gives the data of the answer. -/
def graph (client : Client) (name document : String) (arguments : List (String × Json))
    (decodeData? : Json → Option α) : Exchange α := do
  let body : Json :=
    .obj [("variables", .obj arguments), ("query", .str document), ("operationName", .str name)]
  let response ← client.send (client.request .submit client.documentAddress (some body))
  let answer ← bodyValue (GraphAnswer.decode? decodeData?) response
  Attempt.ofOutcome (answer.outcome name)

/-- Asks about several projects. -/
def graphProjects (client : Client) (name document : String) (ids : List Int)
    (window : SyncWindow) (cursor : Option String) (decode? : Json → Option α) :
    Exchange (Page α) :=
  client.graph name document (projectsVariables ids window cursor) (pageOf? "projects" decode?)

/-- Asks about one project, which has to exist. -/
def graphProject (client : Client) (name document path : String)
    (arguments : List (String × Json)) (decode? : Json → Option α) : Exchange α := do
  match ← client.graph name document arguments (partOf? "project" decode?) with
  | some value => pure value
  | none => throw (.projectNotFound path)

def projectChanges (client : Client) (ids : List Int) (window : SyncWindow)
    (cursor : Option String) : Exchange (Page ProjectChangesNode) :=
  client.graphProjects "ProjectChanges" Document.projectChanges ids window cursor
    ProjectChangesNode.decode?

def projectsPipelines (client : Client) (ids : List Int) (window : SyncWindow)
    (cursor : Option String) : Exchange (Page ProjectPipelinesNode) :=
  client.graphProjects "ProjectsPipelines" Document.projectsPipelines ids window cursor
    ProjectPipelinesNode.decode?

def projectPipelines (client : Client) (path : String) (window : SyncWindow)
    (cursor : Option String) : Exchange (Page PipelineNode) :=
  client.graphProject "ProjectPipelines" Document.projectPipelines path
    (projectVariables path window cursor) (pageOf? "pipelines" PipelineNode.decode?)

def pipeline (client : Client) (path iid : String) : Exchange (Option PipelineNode) :=
  client.graphProject "Pipeline" Document.pipeline path
    [("fullPath", .str path), ("iid", .str iid)] (partOf? "pipeline" PipelineNode.decode?)

/-- A page of the jobs of a pipeline; a pipeline that is gone has none. -/
def pipelineJobs (client : Client) (path iid : String) (cursor : Option String) :
    Exchange (Page JobNode) := do
  let found ← client.graphProject "PipelineJobs" Document.pipelineJobs path
    [("fullPath", .str path), ("iid", .str iid), cursorVariable cursor]
    (partOf? "pipeline" PipelineNode.decode?)
  pure (found.elim (Page.last []) PipelineNode.jobPage)

/-- A page of the artifacts of a job; a job that is gone has none. -/
def jobArtifacts (client : Client) (path job : String) (cursor : Option String) :
    Exchange (Page ArtifactNode) := do
  let found ← client.graphProject "JobArtifacts" Document.jobArtifacts path
    [("fullPath", .str path), ("id", .str job), cursorVariable cursor]
    (partOf? "job" JobNode.decode?)
  pure (found.elim (Page.last []) JobNode.artifactPage)

/-- The fields of merge requests that a pass carries. -/
def passFields : MergeRequestPass → String
  | .core => Document.coreFields
  | .extra => Document.extraFields
  | .participants => Document.participantFields

def mergeRequests (client : Client) (ids : List Int) (window : SyncWindow)
    (pass : MergeRequestPass) (cursor : Option String) :
    Exchange (Page ProjectMergeRequestsNode) :=
  client.graphProjects "MergeRequests" (Document.mergeRequests (passFields pass)) ids window
    cursor ProjectMergeRequestsNode.decode?

def projectMergeRequests (client : Client) (path : String) (window : SyncWindow)
    (pass : MergeRequestPass) (cursor : Option String) : Exchange (Page MergeRequestNode) :=
  client.graphProject "ProjectMergeRequests" (Document.projectMergeRequests (passFields pass))
    path (projectVariables path window cursor) (pageOf? "mergeRequests" MergeRequestNode.decode?)

end Client

end CiTelemetry
