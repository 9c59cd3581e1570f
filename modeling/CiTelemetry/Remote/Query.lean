/-
This file holds the questions that are asked of the server, each of which is one
bounded piece of work: one page, one object or one log.
-/

import CiTelemetry.Node.MergeRequest
import CiTelemetry.Node.Pipeline
import CiTelemetry.Record.Deployment
import CiTelemetry.Record.Runner
import CiTelemetry.Record.TestReport
import CiTelemetry.Text.Bytes
import CiTelemetry.Time.Window

namespace CiTelemetry

/-- What an owner of projects is. -/
inductive NamespaceKind where
  | user
  | group
  deriving DecidableEq, Repr, Inhabited

namespace NamespaceKind

def name : NamespaceKind → String
  | user => "user"
  | group => "group"

def ofName? : String → Option NamespaceKind
  | "user" => some user
  | "group" => some group
  | _ => none

end NamespaceKind

/-- A question for the server. A missing cursor asks for the first page. -/
inductive Query where
  /-- What an owner of projects is, given by path or id. -/
  | namespaceKind (owner : String)
  /-- All projects of an owner. -/
  | namespaceProjects (owner : String) (kind : NamespaceKind) (includeSubgroups : Bool)
      (withShared : Bool)
  /-- A project, given by path or id. -/
  | project (name : String)
  /-- Projects with the numbers of their changes. -/
  | projectChanges (ids : List Int) (window : SyncWindow) (cursor : Option String)
  /-- Projects with the first page of the pipelines updated in a window. -/
  | projectsPipelines (ids : List Int) (window : SyncWindow) (cursor : Option String)
  /-- A further page of the pipelines of one project. -/
  | projectPipelines (path : String) (window : SyncWindow) (cursor : Option String)
  /-- A pipeline with the first page of its jobs, if it can be seen. -/
  | pipeline (path : String) (iid : String)
  /-- A further page of the jobs of a pipeline. -/
  | pipelineJobs (path : String) (iid : String) (cursor : Option String)
  /-- A further page of the artifacts of a job. -/
  | jobArtifacts (path : String) (job : String) (cursor : Option String)
  /-- Projects with the first page of the merge requests updated in a window, as
  far as one pass carries them. -/
  | mergeRequests (ids : List Int) (window : SyncWindow) (pass : MergeRequestPass)
      (cursor : Option String)
  /-- A further page of the merge requests of one project. -/
  | projectMergeRequests (path : String) (window : SyncWindow) (pass : MergeRequestPass)
      (cursor : Option String)
  | jobLog (projectId : Int) (jobId : Int)
  | testReport (projectId : Int) (pipelineId : Int)
  /-- The deployments of a project updated in a window. -/
  | deployments (projectId : Int) (window : SyncWindow)
  | runner (id : Int)
  /-- Whether the server answers at all. -/
  | readiness
  deriving DecidableEq, Repr, Inhabited

/-- What the answer to a question is. -/
abbrev Query.Answer : Query → Type
  | namespaceKind .. => NamespaceKind
  | namespaceProjects .. => List Project
  | project .. => Project
  | projectChanges .. => Page ProjectChangesNode
  | projectsPipelines .. => Page ProjectPipelinesNode
  | projectPipelines .. => Page PipelineNode
  | pipeline .. => Option PipelineNode
  | pipelineJobs .. => Page JobNode
  | jobArtifacts .. => Page ArtifactNode
  | mergeRequests .. => Page ProjectMergeRequestsNode
  | projectMergeRequests .. => Page MergeRequestNode
  | jobLog .. => Bytes
  | testReport .. => TestReport
  | deployments .. => List Deployment
  | runner .. => Runner
  | readiness => Unit

namespace Query

/-! ### Labels -/

/-- Ids as they stand in a label. -/
def idList (ids : List Int) : String :=
  ",".intercalate (ids.map toString)

/-- The words of a label: what is asked for and of what, the window left out. A
missing cursor is a dash. -/
def words : Query → List String
  | namespaceKind owner => ["namespace_kind", owner]
  | namespaceProjects owner kind includeSubgroups withShared =>
    ["namespace_projects", owner, kind.name, toString includeSubgroups, toString withShared]
  | project name => ["project", name]
  | projectChanges ids _ cursor => ["project_changes", idList ids, cursor.getD "-"]
  | projectsPipelines ids _ cursor => ["projects_pipelines", idList ids, cursor.getD "-"]
  | projectPipelines path _ cursor => ["project_pipelines", path, cursor.getD "-"]
  | pipeline path iid => ["pipeline", path, iid]
  | pipelineJobs path iid cursor => ["pipeline_jobs", path, iid, cursor.getD "-"]
  | jobArtifacts path job cursor => ["job_artifacts", path, job, cursor.getD "-"]
  | mergeRequests ids _ pass cursor =>
    ["merge_requests", idList ids, pass.name, cursor.getD "-"]
  | projectMergeRequests path _ pass cursor =>
    ["project_merge_requests", path, pass.name, cursor.getD "-"]
  | jobLog projectId jobId => ["job_log", toString projectId, toString jobId]
  | testReport projectId pipelineId => ["test_report", toString projectId, toString pipelineId]
  | deployments projectId _ => ["deployments", toString projectId]
  | runner id => ["runner", toString id]
  | readiness => ["check_readiness"]

/-- A line that names a question for a reader of logs. -/
def label (query : Query) : String :=
  " ".intercalate query.words

/-- The window that a question is about. -/
def window? : Query → Option SyncWindow
  | projectChanges _ window _ => some window
  | projectsPipelines _ window _ => some window
  | projectPipelines _ window _ => some window
  | mergeRequests _ window _ _ => some window
  | projectMergeRequests _ window _ _ => some window
  | deployments _ window => some window
  | _ => none

end Query

end CiTelemetry
