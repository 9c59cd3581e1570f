/-
This file fetches pipelines as hierarchies: each pipeline with its jobs, bridges
and artifacts, and the pipelines that its bridges started. A pipeline that was
started by another fetched pipeline is left to the hierarchy of that one.
-/

import CiTelemetry.Fetch.Changes
import CiTelemetry.Hierarchy

namespace CiTelemetry

/-! ### One pipeline -/

/-- A job of a pipeline with all pages of its artifacts. -/
structure JobWithArtifacts where
  node : JobNode
  artifacts : List ArtifactNode
  deriving DecidableEq, Repr, Inhabited

/-- Fetches the artifacts of jobs, job after job. -/
def fetchArtifacts (allowance : Nat) (path : String) : List JobNode →
    Fetch (List JobWithArtifacts)
  | [] => pure []
  | node :: rest => do
    let artifacts ← drain
      (fun cursor => Fetch.query (.jobArtifacts path (node.id.getD "") cursor))
      allowance node.artifactPage
    let others ← fetchArtifacts allowance path rest
    pure (⟨node, artifacts⟩ :: others)

/-- The build job that a job of a pipeline is, if it is one and can be
converted. -/
def JobWithArtifacts.build? (pipeline : Pipeline) (job : JobWithArtifacts) : Option Job :=
  match job.node.toCiJob pipeline job.artifacts with
  | .ok (.build record) => some record
  | _ => none

/-- The bridge that a job of a pipeline is, if it is one and can be converted. -/
def JobWithArtifacts.bridge? (pipeline : Pipeline) (job : JobWithArtifacts) : Option Bridge :=
  match job.node.toCiJob pipeline job.artifacts with
  | .ok (.bridge record) => some record
  | _ => none

/-- The entry of a pipeline with its jobs. -/
def HierarchyEntry.ofJobs (pipeline : Pipeline) (jobs : List JobWithArtifacts) :
    HierarchyEntry :=
  { HierarchyEntry.ofPipeline pipeline with
    jobs := jobs.filterMap (·.build? pipeline)
    bridges := jobs.filterMap (·.bridge? pipeline) }

/-- Completes the entry of a pipeline. A pipeline that cannot be converted has
none. -/
def fetchEntry (allowance : Nat) (projectId : Int) (path : String) (node : PipelineNode) :
    Fetch (Option HierarchyEntry) :=
  match node.toPipeline projectId path with
  | .error _ => pure none
  | .ok pipeline => do
    let jobs ← drain (fun cursor => Fetch.query (.pipelineJobs path node.iid cursor)) allowance
      node.jobPage
    let complete ← fetchArtifacts allowance path jobs
    pure (some (.ofJobs pipeline complete))

/-! ### The walk over bridges -/

/-- A pipeline to be looked up: the reference of a bridge, and the pipeline and
project that the bridge belongs to. -/
structure PendingPipeline where
  parent : Int
  parentProject : Int
  reference : PipelineRef
  deriving DecidableEq, Repr, Inhabited

/-- The pipelines that the bridges of an entry started. -/
def HierarchyEntry.pending (entry : HierarchyEntry) : List PendingPipeline :=
  entry.bridges.filterMap fun bridge =>
    bridge.downstream.map fun reference => ⟨entry.id, entry.pipeline.projectId, reference⟩

/-- Looks a pipeline up and completes its entry. A reference without a project
stands for the project of the bridge. -/
def fetchPending (allowance : Nat) (pending : PendingPipeline) : Fetch (Option HierarchyEntry) := do
  match ← Fetch.query (.pipeline pending.reference.projectPath pending.reference.iid) with
  | none => pure none
  | some node =>
    fetchEntry allowance (pending.reference.projectId.getD pending.parentProject)
      pending.reference.projectPath node

/-- Follows bridges in the order in which they were found. A pipeline that is
part of the hierarchy is not looked up again; one that fails to load is left out
together with what only it would lead to. Only cancellation ends the walk. -/
def followBridges (steps : Nat) (allowance : Nat) (hierarchy : PipelineHierarchy)
    (errors : List SyncError) (pending : List PendingPipeline) :
    Fetch (PipelineHierarchy × List SyncError) :=
  match steps, pending with
  | _, [] => pure (hierarchy, errors)
  | 0, _ => Attempt.stalled
  | steps + 1, next :: rest =>
    if hierarchy.contains next.reference.id then
      followBridges steps allowance hierarchy errors rest
    else do
      match ← Attempt.outcome (fetchPending allowance next) with
      | .ok none => followBridges steps allowance hierarchy errors rest
      | .ok (some child) =>
        followBridges steps allowance (hierarchy.attach next.parent child) errors
          (rest ++ child.pending)
      | .error error =>
        if error.isCancelled then throw error
        else followBridges steps allowance hierarchy (errors ++ [error]) rest

/-- The hierarchy below a root pipeline, with the failures of what could not be
added. A root that cannot be converted has no hierarchy. -/
def fetchHierarchy (allowance : Nat) (projectId : Int) (path : String) (root : PipelineNode) :
    Fetch (Option PipelineHierarchy × List SyncError) := do
  match ← fetchEntry allowance projectId path root with
  | none => pure (none, [])
  | some entry =>
    let (hierarchy, errors) ←
      followBridges allowance allowance (.ofRoot entry) [] entry.pending
    pure (some hierarchy, errors)

/-! ### All pipelines of a window -/

/-- Whether the pipeline that started a pipeline is itself among the fetched
ones, so that it is found through a bridge. -/
def PipelineNode.isStartedBy (fetched : List Int) (node : PipelineNode) : Bool :=
  node.triggeredBy.any fun trigger =>
    (GlobalId.parse trigger.id).toOption.any fetched.contains

/-- A pipeline that is the root of a hierarchy of its own. -/
structure RootPipeline where
  projectId : Int
  path : String
  node : PipelineNode
  deriving DecidableEq, Repr, Inhabited

/-- The roots among the pipelines of projects. A project whose id cannot be read
is left out. -/
def rootPipelines (projects : List (Nested ProjectPipelinesNode PipelineNode)) :
    List RootPipeline :=
  let fetched := projects.flatMap fun project =>
    converted (fun node : PipelineNode => GlobalId.parse node.id) project.inner
  projects.flatMap fun project =>
    match GlobalId.parse project.parent.id with
    | .error _ => []
    | .ok projectId =>
      (project.inner.filter fun node => !node.isStartedBy fetched).map fun node =>
        ⟨projectId, project.parent.fullPath, node⟩

/-- Fetches the hierarchies of all pipelines of projects that were updated
within a window. A page of projects or pipelines that cannot be fetched ends the
fetch; a failure within one hierarchy is collected. -/
def fetchPipelineHierarchies (allowance : Nat) (ids : List Int) (window : SyncWindow) :
    Fetch (Collected PipelineHierarchy) :=
  if ids.isEmpty then pure .empty
  else do
    let projects ← flattenNested
      (fun cursor => Fetch.query (.projectsPipelines ids window cursor))
      ProjectPipelinesNode.pipelinePage
      (fun project cursor => Fetch.query (.projectPipelines project.fullPath window cursor))
      allowance allowance .start
    let gathered ← runPool ((rootPipelines projects).map fun root =>
      fetchHierarchy allowance root.projectId root.path root.node)
    pure
      { values := gathered.values.filterMap (·.1)
        errors := gathered.errors ++ gathered.values.flatMap (·.2) }

end CiTelemetry
