/-
This file proves that the hierarchies do not depend on how a server cuts its
collections into pages. The roots are the same pipelines for every way of cutting,
and each has the same hierarchy, of whole entries only. Where references name what
they lead to the walk over bridges comes to an end.
-/

import CiTelemetry.Proofs.PipelineCuts

namespace CiTelemetry

/-! ### The roots -/

namespace PipelineData

/-- The ids of all listed pipelines. -/
def fetched (data : PipelineData) : List Int :=
  data.projects.flatMap fun project =>
    converted (fun pipeline : PipelineWithJobs => GlobalId.parse pipeline.node.id) project.pipelines

/-- The pipelines of a project that no listed pipeline started, each with the number and the path
of the project. -/
def rootsOf (data : PipelineData) (project : ProjectWithPipelines) :
    List (Int × String × PipelineWithJobs) :=
  match GlobalId.parse project.node.id with
  | .error _ => []
  | .ok projectId =>
    (project.pipelines.filter fun pipeline => !pipeline.node.isStartedBy data.fetched).map
      fun pipeline => (projectId, project.node.fullPath, pipeline)

def roots (data : PipelineData) : List (Int × String × PipelineWithJobs) :=
  data.projects.flatMap data.rootsOf

theorem located_of_mem_roots {data : PipelineData} {root : Int × String × PipelineWithJobs}
    (isRoot : root ∈ data.roots) : root.2 ∈ data.located := by
  obtain ⟨project, listed, member⟩ := List.mem_flatMap.mp isRoot
  unfold rootsOf at member
  split at member
  · cases member
  · obtain ⟨pipeline, kept, rfl⟩ := List.mem_map.mp member
    exact mem_located listed (List.mem_of_mem_filter kept)

end PipelineData

/-- A root as it is served. -/
def Cutting.rootPipeline (cutting : Cutting) (root : Int × String × PipelineWithJobs) :
    RootPipeline :=
  ⟨root.1, root.2.1, cutting.pipelineNode root.2.1 root.2.2⟩

theorem fetchedIds_listing (data : PipelineData) (cutting : Cutting) :
    fetchedIds (cutting.listing data) = data.fetched := by
  unfold fetchedIds Cutting.listing PipelineData.fetched converted
  rw [List.flatMap_map]
  congr 1
  funext project
  simp only [List.filterMap_map]
  rfl

/-- The roots are the same pipelines, however the listing is cut. -/
theorem rootPipelines_listing (data : PipelineData) (cutting : Cutting) :
    rootPipelines (cutting.listing data) = data.roots.map cutting.rootPipeline := by
  have same := fetchedIds_listing data cutting
  unfold fetchedIds at same
  unfold rootPipelines
  simp only [same]
  unfold Cutting.listing PipelineData.roots
  rw [List.flatMap_map, List.map_flatMap]
  congr 1
  funext project
  unfold PipelineData.rootsOf
  show (match GlobalId.parse project.node.id with | .error _ => [] | .ok projectId => _) = _
  split
  · rfl
  · rw [List.filter_map, List.map_map, List.map_map]
    rfl

/-! ### One hierarchy -/

section Hierarchies

variable {data : PipelineData} {first second : Cutting} {allowance : Nat}

/-- The hierarchy of a root is the same for two ways of cutting. -/
theorem fetchHierarchy_eq_of_cuttings (wellFormed : data.WellFormed)
    (enough : first.allowance data ≤ allowance) (enough' : second.allowance data ≤ allowance)
    {path : String} {pipeline : PipelineWithJobs} (known : (path, pipeline) ∈ data.located)
    (projectId : Int) :
    Attempt.value? (first.serve data)
        (fetchHierarchy allowance projectId path (first.pipelineNode path pipeline)) =
      Attempt.value? (second.serve data)
        (fetchHierarchy allowance projectId path (second.pipelineNode path pipeline)) := by
  have looked : ∀ pending, Attempt.value? (first.serve data) (fetchPending allowance pending) =
      Attempt.value? (second.serve data) (fetchPending allowance pending) := by
    intro pending
    rw [fetchPending_eq wellFormed enough, fetchPending_eq wellFormed enough']
  unfold fetchHierarchy
  refine Attempt.value?_bind_congr ?_ fun found => ?_
  · rw [fetchEntry_eq wellFormed enough known, fetchEntry_eq wellFormed enough' known]
  · cases found with
    | none => rw [Attempt.value?_pure, Attempt.value?_pure]
    | some entry =>
      refine Attempt.value?_bind_congr (followBridges_congr looked _ _ _ _) fun final => ?_
      rw [Attempt.value?_pure, Attempt.value?_pure]

/-! ### Whole entries -/

namespace PipelineData

/-- The entry of a pipeline that there is, with all of its jobs and artifacts. -/
def IsEntry (data : PipelineData) (entry : HierarchyEntry) : Prop :=
  ∃ path pipeline projectId, (path, pipeline) ∈ data.located ∧
    PipelineWithJobs.complete? pipeline projectId path = some entry

/-- Hierarchies in which nothing was lost: every root that can be converted has one, and every
entry has all jobs and artifacts of its pipeline. -/
structure IsFoundIn (data : PipelineData) (collected : Collected PipelineHierarchy) : Prop where
  roots : ∀ root ∈ data.roots, ∀ entry, root.2.2.complete? root.1 root.2.1 = some entry →
    ∃ hierarchy ∈ collected.values, hierarchy.root = entry.id ∧
      hierarchy.contains entry.id = true
  entries : ∀ hierarchy ∈ collected.values, ∀ entry ∈ hierarchy.entries, data.IsEntry entry.bare

end PipelineData

/-- The entry that a server gives for a pipeline is the whole one. -/
theorem loads_iff_complete? (wellFormed : data.WellFormed) {path : String}
    {pipeline : PipelineWithJobs} (known : (path, pipeline) ∈ data.located) (projectId : Int)
    (entry : HierarchyEntry) :
    Loads (first.serve data) projectId path (first.pipelineNode path pipeline) entry ↔
      pipeline.complete? projectId path = some entry :=
  loads_iff_of_fetchEntry (fetchEntry_eq wellFormed (Nat.le_refl _) known projectId) entry

theorem isEntry_of_leads (wellFormed : data.WellFormed) {pending : PendingPipeline}
    {entry : HierarchyEntry} (leads : Leads (first.serve data) pending entry) :
    data.IsEntry entry := by
  obtain ⟨node, answered, loads⟩ := leads
  rw [Cutting.serve] at answered
  split at answered
  · cases answered
  · obtain ⟨pipeline, found, rfl⟩ := Option.map_eq_some_iff.mp (Except.ok.inj answered)
    obtain ⟨member, _⟩ := PipelineData.mem_of_pipeline? found
    have known := PipelineData.mem_pipelinesAt.mp member
    exact ⟨_, pipeline, _, known, (loads_iff_complete? wellFormed known _ entry).mp loads⟩

/-- The hierarchy of a root has the entry of the root, and whole entries only. -/
theorem entries_of_fetchHierarchy (wellFormed : data.WellFormed) {path : String}
    {pipeline : PipelineWithJobs} (known : (path, pipeline) ∈ data.located) {projectId : Int}
    {found : Option PipelineHierarchy} {failures : List SyncError}
    (fetched : Attempt.value? (first.serve data)
        (fetchHierarchy allowance projectId path (first.pipelineNode path pipeline)) =
      some (.ok (found, failures))) :
    (∀ entry, pipeline.complete? projectId path = some entry → ∃ hierarchy, found = some hierarchy ∧
        hierarchy.root = entry.id ∧ hierarchy.contains entry.id = true) ∧
      ∀ hierarchy, found = some hierarchy → ∀ entry ∈ hierarchy.entries,
        data.IsEntry entry.bare := by
  have rootSound : ∀ entry,
      Loads (first.serve data) projectId path (first.pipelineNode path pipeline) entry →
        data.IsEntry entry := by
    intro entry loads
    have whole := (loads_iff_complete? wellFormed known projectId entry).mp loads
    exact ⟨path, pipeline, projectId, known, whole⟩
  rcases covers_of_fetchHierarchy
      (fun _ _ _ _ _ leads => isEntry_of_leads wellFormed leads) rootSound fetched with
    ⟨rfl, none⟩ | ⟨hierarchy, entry, rfl, loads, covers⟩
  · refine ⟨fun entry whole => absurd ?_ (none entry), fun _ impossible => nomatch impossible⟩
    exact (loads_iff_complete? wellFormed known projectId entry).mpr whole
  · have whole := (loads_iff_complete? wellFormed known projectId entry).mp loads
    constructor
    · intro other whole'
      cases Option.some.inj (whole.symm.trans whole')
      exact ⟨hierarchy, rfl, covers.root⟩
    · rintro _ ⟨⟩
      exact covers.entries

/-! ### The end of the walk -/

namespace PipelineData

/-- Data whose references can be relied on: what a job names as started by it has the number that
it names, if it can be found at all, and looking it up is not what cancels the fetch. -/
structure Truthful (data : PipelineData) : Prop where
  references : ∀ path pipeline, (path, pipeline) ∈ data.located → ∀ job ∈ pipeline.jobs,
    ∀ node, job.node.downstream = some node → ∀ reference, node.toRef path = .ok reference →
      ∀ started, data.pipeline? reference.projectPath reference.iid = some started →
        GlobalId.parse started.node.id = .ok reference.id
  failures : ∀ path iid error, data.failing path iid = some error → error.isCancelled = false

/-- A reference that leads to the pipeline which it names, if it leads to one. -/
def Faithful (data : PipelineData) (pending : PendingPipeline) : Prop :=
  ∀ started,
    data.pipeline? pending.reference.projectPath pending.reference.iid = some started →
      GlobalId.parse started.node.id = .ok pending.reference.id

/-- The pipelines that there are, each with a bound on its bridges. -/
def bridgeBounds (data : PipelineData) : List (Int × Nat) :=
  data.located.map fun located =>
    ((GlobalId.parse located.2.node.id).toOption.getD 0, located.2.jobs.length)

theorem bridgesAhead_le_jobCount (data : PipelineData) (hierarchy : PipelineHierarchy) :
    bridgesAhead hierarchy data.bridgeBounds ≤ data.jobCount := by
  unfold bridgeBounds jobCount
  induction data.located with
  | nil => exact Nat.le_refl _
  | cons located rest inductionHypothesis =>
    rw [List.map_cons, bridgesAhead, List.flatMap_cons, List.length_append]
    refine Nat.add_le_add ?_ inductionHypothesis
    split
    · exact Nat.zero_le _
    · exact Nat.le_refl _

theorem length_jobs_le_jobCount {path : String} {pipeline : PipelineWithJobs}
    (known : (path, pipeline) ∈ data.located) : pipeline.jobs.length ≤ data.jobCount :=
  length_le_flatMap known (·.2.jobs)

end PipelineData

/-- The entry of a known pipeline is among the bounds, and its references are faithful. -/
theorem complete?_eq_some (truthful : data.Truthful) {path : String} {pipeline : PipelineWithJobs}
    (known : (path, pipeline) ∈ data.located) {projectId : Int} {entry : HierarchyEntry}
    (loaded : pipeline.complete? projectId path = some entry) :
    GlobalId.parse pipeline.node.id = .ok entry.id ∧
      (entry.id, pipeline.jobs.length) ∈ data.bridgeBounds ∧
      entry.pending.length ≤ pipeline.jobs.length ∧
      ∀ pending ∈ entry.pending, data.Faithful pending := by
  unfold PipelineWithJobs.complete? at loaded
  split at loaded
  · cases loaded
  · next record converts =>
    cases loaded
    obtain ⟨parsed, same⟩ := toPipeline_eq_ok converts
    refine ⟨parsed, ?_, length_pending_le _ _, ?_⟩
    · refine List.mem_map.mpr ⟨_, known, ?_⟩
      simp only [parsed]
      rfl
    · intro pending member
      obtain ⟨job, isJob, node, started, converted⟩ := exists_of_mem_pending member
      rw [same] at converted
      exact truthful.references path pipeline known job isJob node started _ converted

/-- A walk over references that can be relied on comes to an end. -/
theorem walkEnds_of_truthful (wellFormed : data.WellFormed) (truthful : data.Truthful)
    (enough : first.allowance data ≤ allowance) :
    WalkEnds (first.serve data) allowance data.bridgeBounds data.Faithful where
  returns := by
    intro pending _
    refine ⟨_, fetchPending_eq wellFormed enough pending, ?_⟩
    intro error failed
    unfold PipelineData.lookUp at failed
    split at failed
    · next found fails =>
      cases failed
      exact truthful.failures _ _ _ fails
    · cases failed
  found := by
    intro pending child faithful looked
    rw [fetchPending_eq wellFormed enough, Option.some.injEq] at looked
    unfold PipelineData.lookUp at looked
    split at looked
    · cases looked
    · obtain ⟨pipeline, found, loaded⟩ := Option.bind_eq_some_iff.mp (Except.ok.inj looked)
      obtain ⟨member, _⟩ := PipelineData.mem_of_pipeline? found
      obtain ⟨parsed, bounded, length, below⟩ :=
        complete?_eq_some truthful (PipelineData.mem_pipelinesAt.mp member) loaded
      have named := faithful pipeline found
      rw [parsed] at named
      exact ⟨Except.ok.inj named, ⟨_, bounded, length⟩, below⟩

/-- The hierarchy of every root is returned. -/
theorem fetchHierarchy_returns (wellFormed : data.WellFormed) (truthful : data.Truthful)
    (enough : first.allowance data + 2 * data.jobCount ≤ allowance)
    {path : String} {pipeline : PipelineWithJobs} (known : (path, pipeline) ∈ data.located)
    (projectId : Int) :
    ∃ value, Returns (first.serve data)
      (fetchHierarchy allowance projectId path (first.pipelineNode path pipeline)) value := by
  have enoughPages : first.allowance data ≤ allowance := by omega
  have entry := fetchEntry_eq wellFormed enoughPages known projectId
  unfold Returns fetchHierarchy
  rw [Attempt.value?_bind_ok entry]
  cases loaded : pipeline.complete? projectId path with
  | none => exact ⟨_, rfl⟩
  | some root =>
    obtain ⟨_, _, length, below⟩ := complete?_eq_some truthful known loaded
    have ahead := data.bridgesAhead_le_jobCount (.ofRoot root)
    have jobs := PipelineData.length_jobs_le_jobCount known
    have present : (PipelineHierarchy.ofRoot root).contains root.id = true :=
      PipelineHierarchy.contains_of_mem List.mem_cons_self
    have all : ∀ next ∈ root.pending, data.Faithful next ∧
        (PipelineHierarchy.ofRoot root).contains next.parent = true := by
      intro next member
      rw [HierarchyEntry.parent_of_mem_pending member]
      exact ⟨below next member, present⟩
    have steps : root.pending.length + bridgesAhead (.ofRoot root) data.bridgeBounds ≤ allowance :=
      by omega
    obtain ⟨final, walked⟩ := followBridges_returns
      (walkEnds_of_truthful wellFormed truthful enoughPages) all steps
    simp only
    rw [Attempt.value?_bind_ok walked]
    exact ⟨_, rfl⟩

/-! ### All hierarchies -/

/-- The fetch of all hierarchies where the roots finish in some other order. -/
def fetchInOrder (order : List RootPipeline → List RootPipeline) (allowance : Nat)
    (ids : List Int) (window : SyncWindow) : Fetch (Collected PipelineHierarchy) :=
  if ids.isEmpty then pure .empty
  else do
    let projects ← flattenNested
      (fun cursor => Fetch.query (.projectsPipelines ids window cursor))
      ProjectPipelinesNode.pipelinePage
      (fun project cursor => Fetch.query (.projectPipelines project.fullPath window cursor))
      allowance allowance .start
    let gathered ← runPool ((order (rootPipelines projects)).map fun root =>
      fetchHierarchy allowance root.projectId root.path root.node)
    pure
      { values := gathered.values.filterMap (·.1)
        errors := gathered.errors ++ gathered.values.flatMap (·.2) }

theorem fetchInOrder_id (allowance : Nat) (ids : List Int) (window : SyncWindow) :
    fetchInOrder id allowance ids window = fetchPipelineHierarchies allowance ids window := rfl

theorem fetchInOrder_nil (order : List RootPipeline → List RootPipeline) (allowance : Nat)
    (window : SyncWindow) : fetchInOrder order allowance [] window = pure .empty := rfl

/-- The hierarchies of roots and the failures, those within hierarchies last. -/
def gatherRoots (allowance : Nat) (roots : List RootPipeline) :
    Fetch (Collected PipelineHierarchy) := do
  let gathered ← runTasks .empty (roots.map fun root =>
    fetchHierarchy allowance root.projectId root.path root.node)
  pure
    { values := gathered.values.filterMap (·.1)
      errors := gathered.errors ++ gathered.values.flatMap (·.2) }

/-- What is left of the fetch once the projects are listed. -/
theorem fetchInOrder_eq (wellFormed : data.WellFormed) (enough : first.allowance data ≤ allowance)
    (order : List RootPipeline → List RootPipeline) {ids : List Int} (some : ids ≠ [])
    (window : SyncWindow) :
    Attempt.value? (first.serve data) (fetchInOrder order allowance ids window) =
      Attempt.value? (first.serve data)
        (gatherRoots allowance (order (data.roots.map first.rootPipeline))) := by
  unfold fetchInOrder gatherRoots
  rw [if_neg (by simpa using some),
    Attempt.value?_bind_ok (flattenNested_eq wellFormed enough ids window), rootPipelines_listing]
  refine Attempt.value?_bind_congr ?_ fun gathered => rfl
  rw [value?_runPool]
  exact if_neg Bool.false_ne_true

/-- What is gathered from the roots is the same for two ways of cutting. -/
theorem gatherRoots_eq_of_cuttings (wellFormed : data.WellFormed)
    (enough : first.allowance data ≤ allowance) (enough' : second.allowance data ≤ allowance) :
    Attempt.value? (first.serve data)
        (gatherRoots allowance (data.roots.map first.rootPipeline)) =
      Attempt.value? (second.serve data)
        (gatherRoots allowance (data.roots.map second.rootPipeline)) := by
  unfold gatherRoots
  rw [List.map_map, List.map_map]
  refine Attempt.value?_bind_congr (runTasks_congr ?_ .empty) fun gathered => ?_
  · intro root isRoot
    exact fetchHierarchy_eq_of_cuttings wellFormed enough enough'
      (PipelineData.located_of_mem_roots isRoot) root.1
  · rw [Attempt.value?_pure, Attempt.value?_pure]

/-- Roots that finish in another order give the hierarchies in another order. -/
theorem gatherRoots_perm {answers : FixedReplies} {roots order : List RootPipeline}
    (perm : order.Perm roots) {collected : Collected PipelineHierarchy}
    (returned : Attempt.value? answers (gatherRoots allowance roots) = some (.ok collected)) :
    ∃ collected', Attempt.value? answers (gatherRoots allowance order) = some (.ok collected') ∧
      collected'.values.Perm collected.values ∧ collected'.errors.Perm collected.errors := by
  obtain ⟨gathered, ran, same⟩ := Attempt.ok_of_value?_bind returned
  obtain ⟨gathered', ran', values, errors⟩ := runTasks_perm (perm.map _) ran
  cases same
  unfold gatherRoots
  rw [Attempt.value?_bind_ok ran']
  exact ⟨_, rfl, values.filterMap _, errors.append (values.flatMap_right _)⟩

/-- The roots of data that can be relied on are gathered, and nothing of them is lost. -/
theorem gatherRoots_returns (wellFormed : data.WellFormed) (truthful : data.Truthful)
    (enough : first.allowance data + 2 * data.jobCount ≤ allowance) :
    ∃ collected, Attempt.value? (first.serve data)
        (gatherRoots allowance (data.roots.map first.rootPipeline)) = some (.ok collected) ∧
      data.IsFoundIn collected := by
  have returns : ∀ root ∈ data.roots, ∃ value, Returns (first.serve data)
      (fetchHierarchy allowance root.1 root.2.1 (first.pipelineNode root.2.1 root.2.2)) value :=
    fun root isRoot => fetchHierarchy_returns wellFormed truthful enough
      (PipelineData.located_of_mem_roots isRoot) root.1
  unfold gatherRoots
  rw [List.map_map]
  have finish : ∀ task ∈ data.roots.map ((fun root : RootPipeline =>
      fetchHierarchy allowance root.projectId root.path root.node) ∘ first.rootPipeline),
        Finishes (first.serve data) task := by
    intro task member
    obtain ⟨root, isRoot, rfl⟩ := List.mem_map.mp member
    obtain ⟨value, returned⟩ := returns root isRoot
    exact returned.finishes
  rw [Attempt.value?_bind_ok (runTasks_eq_ok_iff.mpr ⟨finish, rfl⟩)]
  refine ⟨_, rfl, ?_, ?_⟩
  · intro root isRoot entry whole
    obtain ⟨⟨found, failures⟩, returned⟩ := returns root isRoot
    obtain ⟨hierarchy, rfl, isRooted⟩ := (entries_of_fetchHierarchy wellFormed
      (PipelineData.located_of_mem_roots isRoot) returned).1 entry whole
    refine ⟨hierarchy, List.mem_filterMap.mpr ⟨(some hierarchy, failures), ?_, rfl⟩, isRooted⟩
    exact List.mem_filterMap.mpr ⟨_, List.mem_map_of_mem isRoot, returned.returned?_eq⟩
  · intro hierarchy member
    obtain ⟨⟨_, failures⟩, gathered, rfl⟩ := List.mem_filterMap.mp member
    obtain ⟨task, isTask, found⟩ := List.mem_filterMap.mp gathered
    obtain ⟨root, isRoot, rfl⟩ := List.mem_map.mp isTask
    exact (entries_of_fetchHierarchy wellFormed (PipelineData.located_of_mem_roots isRoot)
      (returns_of_returned? found)).2 hierarchy rfl

/-- How the collections are cut into pages does not matter. Given an allowance for all pages, the
fetches from two servers that cut the same data in different ways have the same outcome. Where the
data can be relied on they return, with an allowance for all bridges, and nothing is lost. And where
the roots finish in another order, what is returned is the same up to its order. -/
theorem fetch_eq_of_cuttings (wellFormed : data.WellFormed) (first second : Cutting)
    (ids : List Int) (window : SyncWindow) :
    ∃ bound, ∀ allowance, bound ≤ allowance →
      Attempt.value? (first.serve data) (fetchPipelineHierarchies allowance ids window) =
          Attempt.value? (second.serve data) (fetchPipelineHierarchies allowance ids window) ∧
        (data.Truthful → ∃ collected, Attempt.value? (first.serve data)
              (fetchPipelineHierarchies allowance ids window) = some (.ok collected) ∧
            (ids ≠ [] → data.IsFoundIn collected)) ∧
        ∀ order, (∀ roots : List RootPipeline, (order roots).Perm roots) → ∀ collected,
          Attempt.value? (first.serve data) (fetchPipelineHierarchies allowance ids window) =
              some (.ok collected) →
            ∃ collected', Attempt.value? (second.serve data)
                (fetchInOrder order allowance ids window) = some (.ok collected') ∧
              collected'.values.Perm collected.values ∧
              collected'.errors.Perm collected.errors := by
  refine ⟨first.allowance data + second.allowance data + 2 * data.jobCount,
    fun allowance enough => ?_⟩
  have enoughFirst : first.allowance data ≤ allowance := by omega
  have enoughSecond : second.allowance data ≤ allowance := by omega
  by_cases some : ids = []
  · subst some
    rw [← fetchInOrder_id, fetchInOrder_nil, Attempt.value?_pure, Attempt.value?_pure]
    refine ⟨rfl, fun _ => ⟨_, rfl, fun asked => absurd rfl asked⟩, ?_⟩
    intro order _ collected returned
    rw [fetchInOrder_nil, Attempt.value?_pure]
    exact ⟨_, returned, .refl _, .refl _⟩
  · have same := gatherRoots_eq_of_cuttings wellFormed enoughFirst enoughSecond
    have ofFirst := fetchInOrder_eq wellFormed enoughFirst id some window
    have ofSecond := fetchInOrder_eq wellFormed enoughSecond id some window
    rw [fetchInOrder_id, id_eq] at ofFirst ofSecond
    rw [ofFirst, ofSecond]
    refine ⟨same, ?_, ?_⟩
    · intro truthful
      have enoughSteps : first.allowance data + 2 * data.jobCount ≤ allowance := by omega
      obtain ⟨collected, returned, found⟩ := gatherRoots_returns wellFormed truthful enoughSteps
      exact ⟨collected, returned, fun _ => found⟩
    · intro order permutes collected returned
      rw [fetchInOrder_eq wellFormed enoughSecond order some window]
      rw [same] at returned
      exact gatherRoots_perm (permutes _) returned

end Hierarchies

/-! ### Two ways of cutting the same data -/

namespace CutIndependence

/-- A bridge that started a pipeline of another project. -/
def bridge : JobWithArtifacts :=
  ⟨{ (default : JobNode) with
      id := some "gid://gitlab/Ci::Bridge/11"
      kind := some "BRIDGE"
      downstream := some ⟨"gid://gitlab/Ci::Pipeline/200", "2",
        some ⟨some "gid://gitlab/Project/2", "g/lib"⟩⟩ }, []⟩

/-- A job with two artifacts. -/
def build : JobWithArtifacts :=
  ⟨{ (default : JobNode) with id := some "gid://gitlab/Ci::Build/12" },
    [{ (default : ArtifactNode) with name := some "first" },
      { (default : ArtifactNode) with name := some "second" }]⟩

/-- A listed pipeline with a bridge, and the pipeline that it leads to. -/
def data : PipelineData where
  projects := [⟨⟨"gid://gitlab/Project/1", "g/app", none⟩,
    [⟨PipelineCoverage.pipelineNode "gid://gitlab/Ci::Pipeline/100" "1" none [], [bridge, build]⟩]⟩]
  others := [("g/lib",
    ⟨PipelineCoverage.pipelineNode "gid://gitlab/Ci::Pipeline/200" "2" none [], []⟩)]
  failing := fun _ _ => none

/-- Every collection on one page. -/
def whole : Cutting where
  cut := fun _ => ⟨[], none⟩
  distinct := fun _ => List.nodup_nil

/-- One item on the first page of every collection and none on the second. -/
def pieces : Cutting where
  cut := fun _ => ⟨[(1, "b"), (0, "c")], some "d"⟩
  distinct := fun _ => by decide

theorem wellFormed : data.WellFormed :=
  .of_distinct (by decide) (by decide) (by decide)

theorem truthful : data.Truthful where
  references := by
    intro path pipeline known job isJob node started reference converted target found
    rcases List.mem_cons.mp known with same | other
    · cases same
      rcases List.mem_cons.mp isJob with rfl | later
      · cases started
        have named : PipelineRefNode.toRef
            ⟨"gid://gitlab/Ci::Pipeline/200", "2",
              some ⟨some "gid://gitlab/Project/2", "g/lib"⟩⟩ "g/app" =
                .ok ⟨200, "2", some 2, "g/lib"⟩ := by rfl
        cases named.symm.trans converted
        have leads : data.pipeline? "g/lib" "2" = some
            ⟨PipelineCoverage.pipelineNode "gid://gitlab/Ci::Pipeline/200" "2" none [], []⟩ := by
          rfl
        cases leads.symm.trans found
        rfl
      · cases List.mem_singleton.mp later
        cases started
    · cases List.mem_singleton.mp other
      cases isJob
  failures := fun _ _ _ failed => nomatch failed

/-- The pieces are put together again, and the bridge is followed. -/
example :
    (Attempt.value? (pieces.serve data) (fetchPipelineHierarchies 4 [1] default)).map
        (·.map (·.values.map (·.entries.map (·.id)))) =
      some (.ok [[100, 200]]) := by rfl

end CutIndependence

open CutIndependence

/-- Both servers give the same hierarchies. -/
theorem fetch_whole_eq_pieces :
    data.WellFormed ∧ data.Truthful ∧ ∃ bound, ∀ allowance, bound ≤ allowance → ∃ collected,
      Attempt.value? (whole.serve data) (fetchPipelineHierarchies allowance [1] default) =
          some (.ok collected) ∧
        Attempt.value? (pieces.serve data) (fetchPipelineHierarchies allowance [1] default) =
          some (.ok collected) ∧
        data.IsFoundIn collected := by
  obtain ⟨bound, same⟩ := fetch_eq_of_cuttings wellFormed whole pieces [1] default
  refine ⟨wellFormed, truthful, bound, fun allowance enough => ?_⟩
  obtain ⟨equal, returns, _⟩ := same allowance enough
  obtain ⟨collected, returned, found⟩ := returns truthful
  exact ⟨collected, returned, by rw [← equal, returned], found (List.cons_ne_nil _ _)⟩

end CiTelemetry
