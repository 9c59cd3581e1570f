/-
This file proves that the fetch of pipelines does not depend on how a server cuts
its collections into pages. Projects, the pipelines of a project, the jobs of a
pipeline and the artifacts of a job are each cut in a way of their own; the first
page stands inside the element that the collection belongs to, and the others are
served one by one.
-/

import CiTelemetry.Proofs.BridgeWalk
import CiTelemetry.Proofs.Gathering
import CiTelemetry.Proofs.PageCuts
import CiTelemetry.Proofs.PipelineCoverage
import Mathlib.Data.List.Flatten
import Mathlib.Data.List.Nodup

namespace CiTelemetry

/-! ### What a server knows -/

/-- A pipeline with all of its jobs. -/
structure PipelineWithJobs where
  node : PipelineNode
  jobs : List JobWithArtifacts

/-- A project with all of its pipelines that were updated within the window. -/
structure ProjectWithPipelines where
  node : ProjectPipelinesNode
  pipelines : List PipelineWithJobs

/-- Everything that a server knows: the projects that it lists, the pipelines that it can find
beside those listed, each with the path of its project, and the pipelines that it fails to look
up. What stands inside the nodes for the collections in them has no meaning here. -/
structure PipelineData where
  projects : List ProjectWithPipelines
  others : List (String × PipelineWithJobs)
  failing : String → String → Option SyncError

/-- The global id of a job as it is asked with. -/
def JobWithArtifacts.globalId (job : JobWithArtifacts) : String :=
  job.node.id.getD ""

namespace PipelineData

/-- All pipelines, each with the path of its project. -/
def located (data : PipelineData) : List (String × PipelineWithJobs) :=
  (data.projects.flatMap fun project => project.pipelines.map (project.node.fullPath, ·)) ++
    data.others

/-- The pipelines of a project, listed or not. -/
def pipelinesAt (data : PipelineData) (path : String) : List PipelineWithJobs :=
  (data.located.filter (·.1 == path)).map (·.2)

def pipeline? (data : PipelineData) (path iid : String) : Option PipelineWithJobs :=
  (data.pipelinesAt path).find? (·.node.iid == iid)

/-- The jobs of a project. -/
def jobsAt (data : PipelineData) (path : String) : List JobWithArtifacts :=
  (data.pipelinesAt path).flatMap (·.jobs)

def job? (data : PipelineData) (path job : String) : Option JobWithArtifacts :=
  (data.jobsAt path).find? (·.globalId == job)

/-- Data in which everything can be told apart by what it is asked for with. -/
structure WellFormed (data : PipelineData) : Prop where
  paths : (data.projects.map (·.node.fullPath)).Nodup
  numbers : ∀ path, ((data.pipelinesAt path).map (·.node.iid)).Nodup
  jobs : ∀ path, ((data.jobsAt path).map (·.globalId)).Nodup

/-- Data is well formed in particular where no two jobs of any projects have one global id. -/
theorem WellFormed.of_distinct {data : PipelineData}
    (paths : (data.projects.map (·.node.fullPath)).Nodup)
    (numbers : (data.located.map fun located => (located.1, located.2.node.iid)).Nodup)
    (jobs : ((data.located.flatMap (·.2.jobs)).map (·.globalId)).Nodup) : data.WellFormed where
  paths := paths
  numbers := by
    intro path
    have inside := (List.filter_sublist (p := (·.1 == path)) (l := data.located)).map
      fun located => (located.1, located.2.node.iid)
    have here : (data.located.filter (·.1 == path)).map
        (fun located => (located.1, located.2.node.iid)) =
          ((data.pipelinesAt path).map (·.node.iid)).map (path, ·) := by
      unfold pipelinesAt
      rw [List.map_map, List.map_map]
      refine List.map_congr_left fun located member => ?_
      have same : located.1 = path := eq_of_beq (List.mem_filter.mp member).2
      rw [same]
      rfl
    rw [here] at inside
    exact List.Nodup.of_map _ (inside.nodup numbers)
  jobs := by
    intro path
    have inside : (data.jobsAt path).Sublist (data.located.flatMap (·.2.jobs)) := by
      unfold jobsAt pipelinesAt
      rw [List.flatMap_map]
      exact List.filter_sublist.flatMap _
    exact (inside.map _).nodup jobs

end PipelineData

/-! ### Cutting it into pages -/

/-- A collection that is served in pages. -/
inductive Collection where
  | projects
  | pipelines (path : String)
  | jobs (path iid : String)
  | artifacts (path job : String)

/-- A way of cutting every collection, in which no two pages of a collection have one cursor. -/
structure Cutting where
  cut : Collection → Cut
  distinct : ∀ collection, (cut collection).cursors.Nodup

namespace Cutting

variable (cutting : Cutting)

/-- A job with the first page of its artifacts inside. -/
def jobNode (path : String) (job : JobWithArtifacts) : JobNode :=
  { job.node with
    artifacts := (cutting.cut (.artifacts path job.globalId)).inline job.artifacts }

/-- A pipeline with the first page of its jobs inside. -/
def pipelineNode (path : String) (pipeline : PipelineWithJobs) : PipelineNode :=
  { pipeline.node with
    jobs := (cutting.cut (.jobs path pipeline.node.iid)).inline
      (pipeline.jobs.map (cutting.jobNode path)) }

/-- A project with the first page of its pipelines inside. -/
def projectNode (project : ProjectWithPipelines) : ProjectPipelinesNode :=
  { project.node with
    pipelines := (cutting.cut (.pipelines project.node.fullPath)).inline
      (project.pipelines.map (cutting.pipelineNode project.node.fullPath)) }

/-- A server that serves data in pages. -/
def serve (data : PipelineData) : FixedReplies
  | .query (.projectsPipelines _ _ cursor) =>
    (cutting.cut .projects).answer (data.projects.map cutting.projectNode) cursor
  | .query (.projectPipelines path _ cursor) =>
    match data.projects.find? (·.node.fullPath == path) with
    | some project =>
      (cutting.cut (.pipelines path)).answer
        (project.pipelines.map (cutting.pipelineNode path)) cursor
    | none => .error .noData
  | .query (.pipeline path iid) =>
    match data.failing path iid with
    | some error => .error error
    | none => .ok ((data.pipeline? path iid).map (cutting.pipelineNode path))
  | .query (.pipelineJobs path iid cursor) =>
    match data.pipeline? path iid with
    | some pipeline =>
      (cutting.cut (.jobs path iid)).answer (pipeline.jobs.map (cutting.jobNode path)) cursor
    | none => .error .noData
  | .query (.jobArtifacts path job cursor) =>
    match data.job? path job with
    | some found => (cutting.cut (.artifacts path job)).answer found.artifacts cursor
    | none => .error .noData
  | .query _ => .error .noData
  | .isCancelled => false
  | .send .. => .ok ()
  | .now => default
  | .waitUntil _ => ()

end Cutting

/-! ### Finding what is asked for -/

/-- What is found among items that can be told apart is the item that was meant. -/
theorem find?_eq_of_nodup {α : Type} {items : List α} {key : α → String}
    (distinct : (items.map key).Nodup) {item : α} (member : item ∈ items) :
    items.find? (key · == key item) = some item := by
  induction items with
  | nil => cases member
  | cons first rest inductionHypothesis =>
    obtain ⟨fresh, distinctRest⟩ := List.nodup_cons.mp distinct
    rcases List.mem_cons.mp member with rfl | later
    · rw [List.find?_cons, beq_self_eq_true]
    · have different : (key first == key item) = false := by
        rw [beq_eq_false_iff_ne]
        intro same
        rw [same] at fresh
        exact fresh (List.mem_map_of_mem later)
      rw [List.find?_cons, different]
      exact inductionHypothesis distinctRest later

namespace PipelineData

variable {data : PipelineData} {path : String} {pipeline : PipelineWithJobs}
  {job : JobWithArtifacts} {project : ProjectWithPipelines}

theorem mem_of_pipeline? {iid : String} (found : data.pipeline? path iid = some pipeline) :
    pipeline ∈ data.pipelinesAt path ∧ pipeline.node.iid = iid := by
  unfold pipeline? at found
  have same := List.find?_some found
  exact ⟨List.mem_of_find?_eq_some found, eq_of_beq same⟩

theorem mem_pipelinesAt : pipeline ∈ data.pipelinesAt path ↔ (path, pipeline) ∈ data.located := by
  unfold pipelinesAt
  rw [List.mem_map]
  constructor
  · rintro ⟨⟨path', pipeline'⟩, member, rfl⟩
    obtain ⟨inside, same⟩ := List.mem_filter.mp member
    cases (eq_of_beq same : path' = path)
    exact inside
  · intro inside
    exact ⟨(path, pipeline), List.mem_filter.mpr ⟨inside, beq_self_eq_true _⟩, rfl⟩

theorem mem_located (listed : project ∈ data.projects) (member : pipeline ∈ project.pipelines) :
    (project.node.fullPath, pipeline) ∈ data.located :=
  List.mem_append_left _
    (List.mem_flatMap.mpr ⟨project, listed, List.mem_map_of_mem member⟩)

theorem mem_jobsAt (known : (path, pipeline) ∈ data.located) (member : job ∈ pipeline.jobs) :
    job ∈ data.jobsAt path :=
  List.mem_flatMap.mpr ⟨pipeline, mem_pipelinesAt.mpr known, member⟩

end PipelineData

/-! ### How much of it there is -/

/-- What one item contributes is no longer than what all of them do. -/
theorem length_le_flatMap {α β : Type} {items : List α} {item : α} (member : item ∈ items)
    (parts : α → List β) : (parts item).length ≤ (items.flatMap parts).length := by
  rw [List.flatMap_def]
  exact (List.sublist_flatten_of_mem (List.mem_map_of_mem member)).length_le

namespace PipelineData

/-- The collections of a located pipeline: its jobs, and the artifacts of each of them. -/
def collectionsOf (located : String × PipelineWithJobs) : List Collection :=
  .jobs located.1 located.2.node.iid ::
    located.2.jobs.map fun job => .artifacts located.1 job.globalId

/-- All collections that the data is made of. -/
def collections (data : PipelineData) : List Collection :=
  .projects :: (data.projects.map fun project => .pipelines project.node.fullPath) ++
    data.located.flatMap collectionsOf

/-- How many jobs there are, which is at least the number of all bridges. -/
def jobCount (data : PipelineData) : Nat :=
  (data.located.flatMap (·.2.jobs)).length

end PipelineData

/-- An allowance that suffices for every collection of the data. -/
def Cutting.allowance (cutting : Cutting) (data : PipelineData) : Nat :=
  (data.collections.flatMap fun collection => (cutting.cut collection).sizes).length + 2

section Serving

variable {data : PipelineData} {cutting : Cutting} {allowance : Nat} {path : String}
  {pipeline : PipelineWithJobs} {job : JobWithArtifacts} {project : ProjectWithPipelines}

theorem sizes_lt {collection : Collection} (member : collection ∈ data.collections)
    (enough : cutting.allowance data ≤ allowance) :
    (cutting.cut collection).sizes.length + 1 < allowance := by
  have one := length_le_flatMap member fun collection => (cutting.cut collection).sizes
  unfold Cutting.allowance at enough
  omega

theorem jobs_mem_collections (known : (path, pipeline) ∈ data.located) :
    .jobs path pipeline.node.iid ∈ data.collections :=
  List.mem_append_right _ (List.mem_flatMap.mpr ⟨_, known, List.mem_cons_self⟩)

theorem artifacts_mem_collections (known : (path, pipeline) ∈ data.located)
    (member : job ∈ pipeline.jobs) : .artifacts path job.globalId ∈ data.collections :=
  List.mem_append_right _ (List.mem_flatMap.mpr
    ⟨_, known, List.mem_cons_of_mem _ (List.mem_map.mpr ⟨job, member, rfl⟩)⟩)

theorem pipelines_mem_collections (listed : project ∈ data.projects) :
    .pipelines project.node.fullPath ∈ data.collections :=
  List.mem_append_left _ (List.mem_cons_of_mem _ (List.mem_map.mpr ⟨project, listed, rfl⟩))

/-! ### Completing a pipeline that is served in pages -/

variable (wellFormed : data.WellFormed) (enough : cutting.allowance data ≤ allowance)

include wellFormed enough

theorem drain_artifacts (known : (path, pipeline) ∈ data.located) (member : job ∈ pipeline.jobs) :
    Attempt.value? (cutting.serve data)
        (drain (fun cursor => Fetch.query (.jobArtifacts path job.globalId cursor)) allowance
          (cutting.jobNode path job).artifactPage) = some (.ok job.artifacts) := by
  have found : data.job? path job.globalId = some job :=
    find?_eq_of_nodup (wellFormed.jobs path) (PipelineData.mem_jobsAt known member)
  have served : Answers (cutting.serve data)
      (fun cursor => Fetch.query (.jobArtifacts path job.globalId cursor))
      ((cutting.cut (.artifacts path job.globalId)).answer job.artifacts) := by
    intro cursor
    rw [Fetch.value?_query, Cutting.serve, found]
  have first : (cutting.jobNode path job).artifactPage =
      (cutting.cut (.artifacts path job.globalId)).firstPage job.artifacts := Cut.pageOf_inline _ _
  have size := sizes_lt (artifacts_mem_collections known member) enough
  rw [first, Cut.drain_eq _ (cutting.distinct _) _ served (by omega)]

/-- The artifacts of jobs are completed in the order of the jobs. -/
theorem fetchArtifacts_eq (known : (path, pipeline) ∈ data.located)
    {jobs : List JobWithArtifacts} (members : ∀ job ∈ jobs, job ∈ pipeline.jobs) :
    Attempt.value? (cutting.serve data)
        (fetchArtifacts allowance path (jobs.map (cutting.jobNode path))) =
      some (.ok (jobs.map fun job => ⟨cutting.jobNode path job, job.artifacts⟩)) := by
  induction jobs with
  | nil => rfl
  | cons job rest inductionHypothesis =>
    have one := drain_artifacts wellFormed enough known (members job List.mem_cons_self)
    have others := inductionHypothesis fun other member =>
      members other (List.mem_cons_of_mem _ member)
    have asked : (cutting.jobNode path job).id.getD "" = job.globalId := rfl
    rw [List.map_cons, fetchArtifacts, asked, Attempt.value?_bind_ok one,
      Attempt.value?_bind_ok others]
    rfl

theorem drain_jobs (known : (path, pipeline) ∈ data.located) :
    Attempt.value? (cutting.serve data)
        (drain (fun cursor => Fetch.query (.pipelineJobs path pipeline.node.iid cursor)) allowance
          (cutting.pipelineNode path pipeline).jobPage) =
      some (.ok (pipeline.jobs.map (cutting.jobNode path))) := by
  have found : data.pipeline? path pipeline.node.iid = some pipeline :=
    find?_eq_of_nodup (wellFormed.numbers path) (PipelineData.mem_pipelinesAt.mpr known)
  have served : Answers (cutting.serve data)
      (fun cursor => Fetch.query (.pipelineJobs path pipeline.node.iid cursor))
      ((cutting.cut (.jobs path pipeline.node.iid)).answer
        (pipeline.jobs.map (cutting.jobNode path))) := by
    intro cursor
    rw [Fetch.value?_query, Cutting.serve, found]
  have first : (cutting.pipelineNode path pipeline).jobPage =
      (cutting.cut (.jobs path pipeline.node.iid)).firstPage
        (pipeline.jobs.map (cutting.jobNode path)) := Cut.pageOf_inline _ _
  have size := sizes_lt (jobs_mem_collections known) enough
  rw [first, Cut.drain_eq _ (cutting.distinct _) _ served (by omega)]

omit wellFormed enough in
/-- What stands inside the nodes for their collections has no part in the entry. -/
theorem ofJobs_jobNode (record : Pipeline) (jobs : List JobWithArtifacts) :
    HierarchyEntry.ofJobs record
        (jobs.map fun job => ⟨cutting.jobNode path job, job.artifacts⟩) =
      .ofJobs record jobs := by
  unfold HierarchyEntry.ofJobs
  rw [List.filterMap_map, List.filterMap_map]
  rfl

/-- The entry of a pipeline that can be converted. -/
def PipelineWithJobs.complete? (pipeline : PipelineWithJobs) (projectId : Int) (path : String) :
    Option HierarchyEntry :=
  match pipeline.node.toPipeline projectId path with
  | .error _ => none
  | .ok record => some (.ofJobs record pipeline.jobs)

/-- Completing a pipeline returns its entry, however its collections are cut. -/
theorem fetchEntry_eq (known : (path, pipeline) ∈ data.located) (projectId : Int) :
    Attempt.value? (cutting.serve data)
        (fetchEntry allowance projectId path (cutting.pipelineNode path pipeline)) =
      some (.ok (pipeline.complete? projectId path)) := by
  have same : (cutting.pipelineNode path pipeline).toPipeline projectId path =
      pipeline.node.toPipeline projectId path := rfl
  have asked : (cutting.pipelineNode path pipeline).iid = pipeline.node.iid := rfl
  rw [fetchEntry, PipelineWithJobs.complete?, same]
  cases pipeline.node.toPipeline projectId path with
  | error error => rfl
  | ok record =>
    simp only
    rw [asked, Attempt.value?_bind_ok (drain_jobs wellFormed enough known),
      Attempt.value?_bind_ok (fetchArtifacts_eq wellFormed enough known fun _ member => member),
      ofJobs_jobNode]
    rfl

/-- What looking up a reference comes to. -/
def PipelineData.lookUp (data : PipelineData) (pending : PendingPipeline) :
    Outcome (Option HierarchyEntry) :=
  match data.failing pending.reference.projectPath pending.reference.iid with
  | some error => .error error
  | none =>
    .ok ((data.pipeline? pending.reference.projectPath pending.reference.iid).bind fun pipeline =>
      pipeline.complete? (pending.reference.projectId.getD pending.parentProject)
        pending.reference.projectPath)

theorem fetchPending_eq (pending : PendingPipeline) :
    Attempt.value? (cutting.serve data) (fetchPending allowance pending) =
      some (data.lookUp pending) := by
  rw [fetchPending, Attempt.value?_bind, Fetch.value?_query, Cutting.serve, PipelineData.lookUp]
  cases data.failing pending.reference.projectPath pending.reference.iid with
  | some error => rfl
  | none =>
    cases found : data.pipeline? pending.reference.projectPath pending.reference.iid with
    | none => rfl
    | some pipeline =>
      obtain ⟨member, _⟩ := PipelineData.mem_of_pipeline? found
      exact fetchEntry_eq wellFormed enough (PipelineData.mem_pipelinesAt.mp member) _

/-! ### Listing projects that are served in pages -/

theorem drain_pipelines (listed : project ∈ data.projects) (window : SyncWindow) :
    Attempt.value? (cutting.serve data)
        (drain
          (fun cursor =>
            Fetch.query (.projectPipelines (cutting.projectNode project).fullPath window cursor))
          allowance (cutting.projectNode project).pipelinePage) =
      some (.ok (project.pipelines.map (cutting.pipelineNode project.node.fullPath))) := by
  have found : data.projects.find? (·.node.fullPath == project.node.fullPath) = some project :=
    find?_eq_of_nodup wellFormed.paths listed
  have served : Answers (cutting.serve data)
      (fun cursor => Fetch.query (.projectPipelines project.node.fullPath window cursor))
      ((cutting.cut (.pipelines project.node.fullPath)).answer
        (project.pipelines.map (cutting.pipelineNode project.node.fullPath))) := by
    intro cursor
    rw [Fetch.value?_query, Cutting.serve, found]
  have first : (cutting.projectNode project).pipelinePage =
      (cutting.cut (.pipelines project.node.fullPath)).firstPage
        (project.pipelines.map (cutting.pipelineNode project.node.fullPath)) :=
    Cut.pageOf_inline _ _
  have size := sizes_lt (pipelines_mem_collections listed) enough
  rw [first]
  exact Cut.drain_eq _ (cutting.distinct _) _ served (by omega)

/-- The pipelines of a listed project, found by the path of the project. -/
def Cutting.pipelinesOf (cutting : Cutting) (data : PipelineData) (node : ProjectPipelinesNode) :
    List PipelineNode :=
  match data.projects.find? (·.node.fullPath == node.fullPath) with
  | some project => project.pipelines.map (cutting.pipelineNode project.node.fullPath)
  | none => []

omit enough in
theorem pipelinesOf_eq (listed : project ∈ data.projects) :
    cutting.pipelinesOf data (cutting.projectNode project) =
      project.pipelines.map (cutting.pipelineNode project.node.fullPath) := by
  have found : data.projects.find? (·.node.fullPath == (cutting.projectNode project).fullPath) =
      some project := find?_eq_of_nodup wellFormed.paths listed
  rw [Cutting.pipelinesOf, found]

/-- The projects as they are listed, each with all of its pipelines. -/
def Cutting.listing (cutting : Cutting) (data : PipelineData) :
    List (Nested ProjectPipelinesNode PipelineNode) :=
  data.projects.map fun project =>
    ⟨cutting.projectNode project,
      project.pipelines.map (cutting.pipelineNode project.node.fullPath)⟩

/-- The listing holds all projects with all of their pipelines, however these are cut. -/
theorem flattenNested_eq (ids : List Int) (window : SyncWindow) :
    Attempt.value? (cutting.serve data)
        (flattenNested (fun cursor => Fetch.query (.projectsPipelines ids window cursor))
          ProjectPipelinesNode.pipelinePage
          (fun project cursor => Fetch.query (.projectPipelines project.fullPath window cursor))
          allowance allowance .start) = some (.ok (cutting.listing data)) := by
  obtain ⟨pages, chain, length, all⟩ := (cutting.cut .projects).chain_eq (cutting.distinct _)
    (data.projects.map cutting.projectNode)
  have size := sizes_lt (List.mem_append_left _ List.mem_cons_self :
    Collection.projects ∈ data.collections) enough
  have enoughPages : pages.length < allowance := by omega
  have answered : Answers (cutting.serve data)
      (fun cursor => Fetch.query (.projectsPipelines ids window cursor))
      ((cutting.cut .projects).answer (data.projects.map cutting.projectNode)) := fun _ => rfl
  have each : ∀ parent ∈ allItems pages, Attempt.value? (cutting.serve data)
      (drain (fun cursor => Fetch.query (.projectPipelines parent.fullPath window cursor))
        allowance parent.pipelinePage) = some (.ok (cutting.pipelinesOf data parent)) := by
    intro parent member
    rw [all] at member
    obtain ⟨project, listed, rfl⟩ := List.mem_map.mp member
    rw [pipelinesOf_eq wellFormed listed]
    exact drain_pipelines wellFormed enough listed window
  have nested : (data.projects.map cutting.projectNode).map
      (fun parent => (⟨parent, cutting.pipelinesOf data parent⟩ : Nested _ _)) =
        cutting.listing data := by
    rw [List.map_map, Cutting.listing]
    exact List.map_congr_left fun project listed =>
      congrArg (Nested.mk (cutting.projectNode project)) (pipelinesOf_eq wellFormed listed)
  rw [Paginator.start, flattenNested_of_chain answered chain enoughPages each, all, nested]

end Serving

end CiTelemetry
