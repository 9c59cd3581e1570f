/-
This file proves which of the listed pipelines are found again in the returned
hierarchies. A pipeline that no other fetched pipeline started is a root. One
that is left to the pipeline which started it is found if and only if bridges
lead to it from some root, which nothing about the list guarantees: the other
pipeline may be one that cannot be converted, that belongs to a project which is
left out, or that is itself left to a third.
-/

import CiTelemetry.Proofs.BridgeWalk
import CiTelemetry.Proofs.Gathering

namespace CiTelemetry

/-! ### What the server lists -/

/-- The pages of projects with the first page of their pipelines. -/
abbrev projectTable (answers : FixedReplies) (ids : List Int) (window : SyncWindow) :
    PageTable ProjectPipelinesNode :=
  fun cursor => answers (.query (.projectsPipelines ids window cursor))

/-- The further pages of the pipelines of a project. -/
abbrev pipelineTable (answers : FixedReplies) (window : SyncWindow)
    (project : ProjectPipelinesNode) : PageTable PipelineNode :=
  fun cursor => answers (.query (.projectPipelines project.fullPath window cursor))

/-- The projects that are listed for ids, each with all of its pipelines. -/
def Lists (answers : FixedReplies) (ids : List Int) (window : SyncWindow)
    (projects : List (Nested ProjectPipelinesNode PipelineNode)) : Prop :=
  ids ≠ [] ∧ ∃ pages, PageChain (projectTable answers ids window) none pages ∧
    CompletesEach (pipelineTable answers window) ProjectPipelinesNode.pipelinePage
      (allItems pages) projects

/-- A pipeline of a listed project whose id can be read. -/
def Listed (projects : List (Nested ProjectPipelinesNode PipelineNode)) (root : RootPipeline) :
    Prop :=
  ∃ project ∈ projects, GlobalId.parse project.parent.id = .ok root.projectId ∧
    root.path = project.parent.fullPath ∧ root.node ∈ project.inner

/-- The ids of all listed pipelines, be they of a project that is left out. -/
def fetchedIds (projects : List (Nested ProjectPipelinesNode PipelineNode)) : List Int :=
  projects.flatMap fun project =>
    converted (fun node : PipelineNode => GlobalId.parse node.id) project.inner

/-- An entry that the fetch can come to: that of a listed pipeline which no listed pipeline
started, or one that a bridge leads to from such an entry. -/
inductive Reached (answers : FixedReplies) (ids : List Int) (window : SyncWindow) :
    HierarchyEntry → Prop
  | root {projects : List (Nested ProjectPipelinesNode PipelineNode)} {root : RootPipeline}
      {entry : HierarchyEntry} (lists : Lists answers ids window projects)
      (listed : Listed projects root) (own : root.node.isStartedBy (fetchedIds projects) = false)
      (loads : Loads answers root.projectId root.path root.node entry) :
      Reached answers ids window entry
  | bridge {entry child : HierarchyEntry} {pending : PendingPipeline}
      (parent : Reached answers ids window entry) (started : pending ∈ entry.pending)
      (leads : Leads answers pending child) : Reached answers ids window child

/-- Answers that do not contradict one another: a reference leads to the pipeline that it names,
and a pipeline has the same bridges wherever it is come upon. -/
structure Coherent (answers : FixedReplies) (ids : List Int) (window : SyncWindow) : Prop where
  named : ∀ entry, Reached answers ids window entry → ∀ pending ∈ entry.pending, ∀ child,
    Leads answers pending child → child.id = pending.reference.id
  same : ∀ entry other, Reached answers ids window entry → Reached answers ids window other →
    entry.id = other.id → ∀ pending ∈ entry.pending, ∃ pending' ∈ other.pending,
      pending'.reference = pending.reference

section Coverage

variable {answers : FixedReplies} {allowance : Nat} {ids : List Int} {window : SyncWindow}
  {projects : List (Nested ProjectPipelinesNode PipelineNode)}

/-- The answers list one sequence of projects. -/
theorem Lists.unique {others : List (Nested ProjectPipelinesNode PipelineNode)}
    (left : Lists answers ids window projects) (right : Lists answers ids window others) :
    projects = others := by
  obtain ⟨_, pages, chain, complete⟩ := left
  obtain ⟨_, pages', chain', complete'⟩ := right
  rw [chain.unique chain'] at complete
  exact complete.unique complete'

theorem mem_rootPipelines {root : RootPipeline} :
    root ∈ rootPipelines projects ↔
      Listed projects root ∧ root.node.isStartedBy (fetchedIds projects) = false := by
  unfold rootPipelines fetchedIds
  simp only [List.mem_flatMap]
  constructor
  · rintro ⟨project, inside, member⟩
    split at member
    · cases member
    · next projectId parsed =>
      obtain ⟨node, kept, rfl⟩ := List.mem_map.mp member
      obtain ⟨listed, own⟩ := List.mem_filter.mp kept
      exact ⟨⟨project, inside, parsed, rfl, listed⟩, by simpa using own⟩
  · rintro ⟨⟨project, inside, parsed, path, listed⟩, own⟩
    refine ⟨project, inside, ?_⟩
    rw [parsed]
    refine List.mem_map.mpr ⟨root.node, List.mem_filter.mpr ⟨listed, ?_⟩, ?_⟩
    · simpa using own
    · rw [← path]

/-! ### The entries of the returned hierarchies -/

/-- What a fetch returns is gathered from the hierarchies of the roots. -/
theorem gathered_of_fetch {collected : Collected PipelineHierarchy}
    (returned : Attempt.value? answers (fetchPipelineHierarchies allowance ids window) =
      some (.ok collected))
    (lists : Lists answers ids window projects) :
    ∃ gathered,
      Attempt.value? answers (runTasks .empty ((rootPipelines projects).map fun root =>
        fetchHierarchy allowance root.projectId root.path root.node)) = some (.ok gathered) ∧
      collected = ⟨gathered.values.filterMap (·.1),
        gathered.errors ++ gathered.values.flatMap (·.2)⟩ := by
  unfold fetchPipelineHierarchies at returned
  rw [if_neg (by simpa using lists.1)] at returned
  obtain ⟨found, flattened, returned⟩ := Attempt.ok_of_value?_bind returned
  obtain ⟨pages, chain, complete⟩ :=
    chain_of_flattenNested (fun _ => rfl) (fun _ _ => rfl) flattened
  have same : found = projects := by
    have listed : Lists answers ids window found := ⟨lists.1, pages, chain, complete⟩
    exact listed.unique lists
  subst same
  obtain ⟨gathered, ran, returned⟩ := Attempt.ok_of_value?_bind returned
  rw [value?_runPool] at ran
  split at ran
  · cases ran
  · cases returned
    exact ⟨gathered, ran, rfl⟩

/-- A fetch without failures has returned for every root, and its hierarchies are those that were
returned for roots. -/
theorem roots_of_fetch {collected : Collected PipelineHierarchy}
    (returned : Attempt.value? answers (fetchPipelineHierarchies allowance ids window) =
      some (.ok collected))
    (noErrors : collected.errors = []) (lists : Lists answers ids window projects) :
    (∀ root ∈ rootPipelines projects, ∃ found,
      Returns answers (fetchHierarchy allowance root.projectId root.path root.node) (found, []) ∧
        ∀ hierarchy ∈ found, hierarchy ∈ collected.values) ∧
      ∀ hierarchy ∈ collected.values, ∃ root ∈ rootPipelines projects,
        Returns answers (fetchHierarchy allowance root.projectId root.path root.node)
          (some hierarchy, []) := by
  obtain ⟨gathered, ran, rfl⟩ := gathered_of_fetch returned lists
  obtain ⟨noFailures, noneInside⟩ := List.append_eq_nil_iff.mp noErrors
  obtain ⟨_, values, same, all⟩ := returns_of_runTasks ran noFailures
  cases (same.trans (List.nil_append _) : gathered.values = values)
  rw [List.forall₂_map_left_iff] at all
  have noneFor : ∀ value ∈ gathered.values, value.2 = [] := List.flatMap_eq_nil_iff.mp noneInside
  constructor
  · intro root member
    obtain ⟨⟨result, failures⟩, inside, returns⟩ := exists_of_forall₂ all member
    cases (noneFor _ inside : failures = [])
    refine ⟨result, returns, fun hierarchy some => ?_⟩
    exact List.mem_filterMap.mpr ⟨_, inside, some⟩
  · intro hierarchy member
    obtain ⟨⟨result, failures⟩, inside, some⟩ := List.mem_filterMap.mp member
    cases (noneFor _ inside : failures = [])
    cases (some : result = _)
    obtain ⟨root, isRoot, returns⟩ := exists_of_forall₂ all.flip inside
    exact ⟨root, isRoot, returns⟩

/-- What bridges lead to from a reached entry is reached. -/
theorem reached_closed (entry : HierarchyEntry) (reached : Reached answers ids window entry) :
    ∀ pending ∈ entry.pending, ∀ child, Leads answers pending child →
      Reached answers ids window child :=
  fun _ started _ leads => .bridge reached started leads

/-- A fetch without failures has a hierarchy for every root that can be converted, and its
hierarchies cover what bridges lead to. -/
theorem hierarchies_of_fetch {collected : Collected PipelineHierarchy}
    (returned : Attempt.value? answers (fetchPipelineHierarchies allowance ids window) =
      some (.ok collected))
    (noErrors : collected.errors = []) (lists : Lists answers ids window projects) :
    (∀ root, Listed projects root → root.node.isStartedBy (fetchedIds projects) = false →
      ∀ entry, Loads answers root.projectId root.path root.node entry →
        ∃ hierarchy ∈ collected.values,
          Covers answers (Reached answers ids window) entry.id ⟨hierarchy, [], []⟩) ∧
      ∀ hierarchy ∈ collected.values, ∃ root,
        Covers answers (Reached answers ids window) root ⟨hierarchy, [], []⟩ := by
  obtain ⟨eachRoot, eachHierarchy⟩ := roots_of_fetch returned noErrors lists
  have rootSound : ∀ root ∈ rootPipelines projects, ∀ entry,
      Loads answers root.projectId root.path root.node entry →
        Reached answers ids window entry := by
    intro root isRoot entry loads
    obtain ⟨listed, own⟩ := mem_rootPipelines.mp isRoot
    exact .root lists listed own loads
  constructor
  · intro root listed own entry loads
    have isRoot := mem_rootPipelines.mpr ⟨listed, own⟩
    obtain ⟨found, returns, inside⟩ := eachRoot root isRoot
    rcases covers_of_fetchHierarchy reached_closed (rootSound root isRoot) returns with
      ⟨_, none⟩ | ⟨hierarchy, other, rfl, loads', covers⟩
    · exact absurd loads (none entry)
    · rw [loads.unique loads']
      exact ⟨hierarchy, inside hierarchy rfl, covers⟩
  · intro hierarchy member
    obtain ⟨root, isRoot, returns⟩ := eachHierarchy hierarchy member
    rcases covers_of_fetchHierarchy reached_closed (rootSound root isRoot) returns with
      ⟨impossible, _⟩ | ⟨_, entry, same, _, covers⟩
    · cases impossible
    · cases same
      exact ⟨entry.id, covers⟩

theorem Reached.exists_lists {entry : HierarchyEntry} (reached : Reached answers ids window entry) :
    ∃ projects, Lists answers ids window projects := by
  induction reached with
  | root lists _ _ _ => exact ⟨_, lists⟩
  | bridge _ _ _ inductionHypothesis => exact inductionHypothesis

/-- Among answers that do not contradict one another every reached pipeline is found again. -/
theorem contains_of_reached (coherent : Coherent answers ids window)
    {collected : Collected PipelineHierarchy}
    (returned : Attempt.value? answers (fetchPipelineHierarchies allowance ids window) =
      some (.ok collected))
    (noErrors : collected.errors = []) {entry : HierarchyEntry}
    (reached : Reached answers ids window entry) :
    ∃ hierarchy ∈ collected.values, hierarchy.contains entry.id = true := by
  induction reached with
  | root lists listed own loads =>
    obtain ⟨eachRoot, _⟩ := hierarchies_of_fetch returned noErrors lists
    obtain ⟨hierarchy, member, covers⟩ := eachRoot _ listed own _ loads
    exact ⟨hierarchy, member, covers.root.2⟩
  | @bridge entry child pending parent started leads inductionHypothesis =>
    obtain ⟨hierarchy, member, present⟩ := inductionHypothesis
    refine ⟨hierarchy, member, ?_⟩
    obtain ⟨projects, lists⟩ := parent.exists_lists
    obtain ⟨_, eachHierarchy⟩ := hierarchies_of_fetch returned noErrors lists
    obtain ⟨root, covers⟩ := eachHierarchy hierarchy member
    obtain ⟨held, inside, same⟩ := PipelineHierarchy.contains_iff.mp present
    have heldReached := covers.entries held inside
    -- The hierarchy may have come to the parent another way, for another number of its project.
    obtain ⟨pending', started', reference⟩ :=
      coherent.same entry held.bare parent heldReached same.symm pending started
    rw [coherent.named entry parent pending started child leads, ← reference]
    rcases covers.settled rfl held inside pending' started' with queued | known | led
    · cases queued
    · exact known
    · obtain ⟨child', leads'⟩ := leads.of_reference reference
      rw [← coherent.named held.bare heldReached pending' started' child' leads']
      exact led child' leads'

/-- Which of the listed pipelines are found again. A pipeline that no listed pipeline started is the
root of a hierarchy. Every other one is in a hierarchy only if the fetch can come to it, and it
is in one if it can, as long as the answers do not contradict one another. -/
theorem contains_iff_reached {collected : Collected PipelineHierarchy}
    (returned : Attempt.value? answers (fetchPipelineHierarchies allowance ids window) =
      some (.ok collected))
    (noErrors : collected.errors = []) (lists : Lists answers ids window projects)
    {listing : RootPipeline} (listed : Listed projects listing) {pipeline : Pipeline}
    (converts : listing.node.toPipeline listing.projectId listing.path = .ok pipeline) :
    (listing.node.isStartedBy (fetchedIds projects) = false →
        ∃ hierarchy ∈ collected.values, hierarchy.root = pipeline.id ∧
          hierarchy.contains pipeline.id = true) ∧
      ((∃ hierarchy ∈ collected.values, hierarchy.contains pipeline.id = true) →
        ∃ entry, Reached answers ids window entry ∧ entry.id = pipeline.id) ∧
      (Coherent answers ids window →
        (∃ entry, Reached answers ids window entry ∧ entry.id = pipeline.id) →
          ∃ hierarchy ∈ collected.values, hierarchy.contains pipeline.id = true) := by
  obtain ⟨eachRoot, eachHierarchy⟩ := hierarchies_of_fetch returned noErrors lists
  refine ⟨?_, ?_, ?_⟩
  · intro own
    obtain ⟨_, returns, _⟩ :=
      (roots_of_fetch returned noErrors lists).1 listing (mem_rootPipelines.mpr ⟨listed, own⟩)
    obtain ⟨entry, loads⟩ := exists_loads_of_fetchHierarchy returns converts
    obtain ⟨hierarchy, member, covers⟩ := eachRoot listing listed own entry loads
    rw [← loads.id_eq converts]
    exact ⟨hierarchy, member, covers.root.1, covers.root.2⟩
  · rintro ⟨hierarchy, member, present⟩
    obtain ⟨root, covers⟩ := eachHierarchy hierarchy member
    obtain ⟨entry, inside, same⟩ := PipelineHierarchy.contains_iff.mp present
    exact ⟨entry.bare, covers.entries entry inside, same⟩
  · rintro coherent ⟨entry, reached, same⟩
    rw [← same]
    exact contains_of_reached coherent returned noErrors reached

end Coverage

/-! ### A pipeline and the one that it started -/

namespace PipelineCoverage

/-- A pipeline about which nothing is known but its ids, what started it and its jobs. -/
def pipelineNode (id iid : String) (triggeredBy : Option PipelineRefNode) (jobs : List JobNode) :
    PipelineNode :=
  { (default : PipelineNode) with
    id, iid, triggeredBy, jobs := some ⟨jobs.map some, ⟨none, false⟩⟩ }

/-- A bridge that started the second pipeline. -/
def bridgeNode : JobNode :=
  { (default : JobNode) with
    id := some "gid://gitlab/Ci::Bridge/11"
    kind := some "BRIDGE"
    downstream := some ⟨"gid://gitlab/Ci::Pipeline/200", "2", none⟩ }

/-- The second pipeline, which the first one started. -/
def startedNode : PipelineNode :=
  pipelineNode "gid://gitlab/Ci::Pipeline/200" "2"
    (some ⟨"gid://gitlab/Ci::Pipeline/100", "1", none⟩) []

/-- The first pipeline, with what started it in turn. -/
def startingNode (triggeredBy : Option PipelineRefNode) : PipelineNode :=
  pipelineNode "gid://gitlab/Ci::Pipeline/100" "1" triggeredBy [bridgeNode]

/-- The project with both pipelines. -/
def projectNode (first : PipelineNode) : ProjectPipelinesNode :=
  ⟨"gid://gitlab/Project/1", "g/app", some ⟨[some first, some startedNode], ⟨none, false⟩⟩⟩

/-- A server that lists both pipelines and finds each of them. -/
def replies (first : PipelineNode) : FixedReplies
  | .query (.projectsPipelines _ _ _) => .ok (.last [projectNode first])
  | .query (.pipeline _ iid) => .ok ([first, startedNode].find? (·.iid == iid))
  | .query _ => .error .noData
  | .isCancelled => false
  | .send .. => .ok ()
  | .now => default
  | .waitUntil _ => ()

/-- What the server lists. -/
def projects (first : PipelineNode) : List (Nested ProjectPipelinesNode PipelineNode) :=
  [⟨projectNode first, [first, startedNode]⟩]

theorem lists (first : PipelineNode) : Lists (replies first) [1] default (projects first) := by
  refine ⟨List.cons_ne_nil _ _, [.last [projectNode first]], .last rfl rfl, ?_⟩
  exact .cons ⟨rfl, [], .none rfl, rfl⟩ .nil

theorem parse_project : GlobalId.parse "gid://gitlab/Project/1" = .ok 1 := by rfl

theorem listed (first : PipelineNode) : Listed (projects first) ⟨1, "g/app", startedNode⟩ :=
  ⟨_, List.mem_cons_self, parse_project, rfl, List.mem_cons_of_mem _ List.mem_cons_self⟩

end PipelineCoverage

open PipelineCoverage

/-- A pipeline that is lost. It is left to the pipeline that started it, but this one cannot be
converted, since it names a malformed id as what started it in turn; and nothing fails. -/
theorem started_pipeline_lost :
    ∃ collected pipeline,
      Attempt.value?
          (replies (startingNode (some ⟨"gid://gitlab/Ci::Pipeline/none", "7", none⟩)))
          (fetchPipelineHierarchies 2 [1] default) = some (.ok collected) ∧
        collected.errors = [] ∧
        Lists (replies (startingNode (some ⟨"gid://gitlab/Ci::Pipeline/none", "7", none⟩))) [1]
          default (projects (startingNode (some ⟨"gid://gitlab/Ci::Pipeline/none", "7", none⟩))) ∧
        Listed (projects (startingNode (some ⟨"gid://gitlab/Ci::Pipeline/none", "7", none⟩)))
          ⟨1, "g/app", startedNode⟩ ∧
        startedNode.toPipeline 1 "g/app" = .ok pipeline ∧
        ∀ hierarchy ∈ collected.values, hierarchy.contains pipeline.id = false :=
  ⟨⟨[], []⟩, _, rfl, rfl, lists _, listed _, rfl, fun _ member => nomatch member⟩

namespace PipelineCoverage

/-- The entries of the two pipelines where nothing is wrong with the first. -/
def startingEntry : HierarchyEntry :=
  .ofJobs
    { (default : Pipeline) with
      id := 100, iid := "1", projectId := 1, projectPath := "g/app" } [⟨bridgeNode, []⟩]

def startedEntry : HierarchyEntry :=
  .ofJobs
    { (default : Pipeline) with
      id := 200, iid := "2", projectId := 1, projectPath := "g/app"
      triggeredBy := some ⟨100, "1", none, "g/app"⟩ } []

/-- The reference from the first pipeline to the second. -/
def started : PendingPipeline :=
  ⟨100, 1, ⟨200, "2", none, "g/app"⟩⟩

theorem pending_startingEntry : startingEntry.pending = [started] := by
  decide +kernel

theorem loads_starting (answers : FixedReplies) :
    Loads answers 1 "g/app" (startingNode none) startingEntry :=
  .intro (by rfl) ⟨[], .none rfl, rfl⟩ (.cons ⟨rfl, [], .none rfl, rfl⟩ .nil)

theorem leads_started : Leads (replies (startingNode none)) started startedEntry :=
  ⟨startedNode, by rfl, .intro (by rfl) ⟨[], .none rfl, rfl⟩ .nil⟩

theorem reached_starting : Reached (replies (startingNode none)) [1] default startingEntry := by
  have isListed : Listed (projects (startingNode none)) ⟨1, "g/app", startingNode none⟩ :=
    ⟨_, List.mem_cons_self, parse_project, rfl, List.mem_cons_self⟩
  exact .root (lists _) isListed rfl (loads_starting _)

/-- The fetch can come to no other entries than these two. -/
theorem eq_of_reached {entry : HierarchyEntry}
    (reached : Reached (replies (startingNode none)) [1] default entry) :
    entry = startingEntry ∨ entry = startedEntry := by
  induction reached with
  | @root found root entry listed isListed own loads =>
    left
    rw [listed.unique (lists _)] at isListed own
    obtain ⟨project, inside, parsed, path, member⟩ := isListed
    rw [List.mem_singleton.mp inside] at parsed path member
    obtain ⟨projectId, _, node⟩ := root
    cases parse_project.symm.trans parsed
    cases path
    rcases List.mem_cons.mp member with same | other
    · cases (same : node = _)
      exact loads.unique (loads_starting _)
    · cases (List.mem_singleton.mp other : node = _)
      have left : startedNode.isStartedBy (fetchedIds (projects (startingNode none))) = true := by
        rfl
      exact absurd (left.symm.trans own) (by decide)
  | @bridge entry child pending _ isStarted leads inductionHypothesis =>
    rcases inductionHypothesis with rfl | rfl
    · rw [pending_startingEntry, List.mem_singleton] at isStarted
      subst isStarted
      exact .inr (leads.unique leads_started)
    · cases isStarted

theorem coherent : Coherent (replies (startingNode none)) [1] default where
  named := by
    intro entry reached pending isStarted child leads
    rcases eq_of_reached reached with rfl | rfl
    · rw [pending_startingEntry, List.mem_singleton] at isStarted
      subst isStarted
      rw [leads.unique leads_started]
      rfl
    · cases isStarted
  same := by
    intro entry other reached reached' same pending isStarted
    rcases eq_of_reached reached with rfl | rfl
    · rcases eq_of_reached reached' with rfl | rfl
      · exact ⟨pending, isStarted, rfl⟩
      · cases same
    · cases isStarted

end PipelineCoverage

/-- The second pipeline is found again where nothing is wrong with the first. -/
theorem started_pipeline_found :
    ∃ collected,
      Attempt.value? (replies (startingNode none)) (fetchPipelineHierarchies 2 [1] default) =
          some (.ok collected) ∧
        collected.errors = [] ∧
        ∃ hierarchy ∈ collected.values, hierarchy.contains 200 = true := by
  obtain ⟨collected, returned, noErrors⟩ : ∃ collected,
      Attempt.value? (replies (startingNode none)) (fetchPipelineHierarchies 2 [1] default) =
        some (.ok collected) ∧ collected.errors = [] := ⟨_, by rfl, rfl⟩
  refine ⟨collected, returned, noErrors, ?_⟩
  exact (contains_iff_reached returned noErrors (lists _) (listed _) (by rfl)).2.2 coherent
    ⟨startedEntry, reached_starting.bridge (by rw [pending_startingEntry]; exact List.mem_cons_self)
      leads_started, rfl⟩

end CiTelemetry
