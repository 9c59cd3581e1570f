/-
This file proves which pipelines are part of two hierarchies. Every pipeline of a
hierarchy hangs in it from the root by a row of bridges. The rows by which a
pipeline hangs in two hierarchies can be followed upwards together, until they
part or until one of them is at its root. So two hierarchies share a pipeline
only where bridges of different pipelines meet, or where bridges lead from one of
them to the root of the other; the latter is a root because the pipeline that
started it is not among those that were listed.
-/

import CiTelemetry.Proofs.PipelineCoverage

namespace CiTelemetry

/-! ### What hangs in a hierarchy -/

namespace PipelineHierarchy

/-- A pipeline that hangs in a hierarchy: the root, or one that is named by a bridge of an entry
which hangs in it. -/
inductive Hangs (hierarchy : PipelineHierarchy) : Int → Prop
  | root : Hangs hierarchy hierarchy.root
  | bridge {entry : HierarchyEntry} {pending : PendingPipeline}
      (member : entry ∈ hierarchy.entries) (above : Hangs hierarchy entry.id)
      (started : pending ∈ entry.pending) : Hangs hierarchy pending.reference.id

/-- What hangs in a hierarchy hangs in one that has the same entries and more. -/
theorem Hangs.mono {before after : PipelineHierarchy} (keeps : after.Keeps before) {id : Int}
    (hangs : before.Hangs id) : after.Hangs id := by
  induction hangs with
  | root =>
    rw [← keeps.1]
    exact .root
  | bridge member _ started inductionHypothesis =>
    obtain ⟨later, inside, sameId, isPending⟩ := keeps.exists_mem_pending member started
    rw [← sameId] at inductionHypothesis
    exact .bridge inside inductionHypothesis isPending

end PipelineHierarchy

/-- A walk whose entries hang in the hierarchy, and whose references are those of entries. -/
structure Hanging (state : WalkState) : Prop where
  entries : ∀ entry ∈ state.hierarchy.entries, state.hierarchy.Hangs entry.id
  origins : ∀ pending ∈ state.pending, ∃ entry ∈ state.hierarchy.entries, pending ∈ entry.pending

section Walk

variable {answers : FixedReplies} {allowance : Nat} {sound : HierarchyEntry → Prop} {root : Int}

theorem Hanging.start (entry : HierarchyEntry) :
    Hanging ⟨.ofRoot entry, [], entry.pending⟩ where
  entries := by
    intro other member
    cases List.mem_singleton.mp member
    exact .root
  origins := fun pending started => ⟨entry, List.mem_cons_self, started⟩

theorem Hanging.pop {hierarchy : PipelineHierarchy} {errors errors' : List SyncError}
    {next : PendingPipeline} {rest : List PendingPipeline}
    (hanging : Hanging ⟨hierarchy, errors, next :: rest⟩) :
    Hanging ⟨hierarchy, errors', rest⟩ :=
  ⟨hanging.entries, fun pending member => hanging.origins pending (List.mem_cons_of_mem _ member)⟩

/-- A pipeline with the id that its reference names can be attached. -/
theorem Hanging.accepts {hierarchy : PipelineHierarchy} {errors : List SyncError}
    {next : PendingPipeline} {rest : List PendingPipeline} {child : HierarchyEntry}
    (hanging : Hanging ⟨hierarchy, errors, next :: rest⟩)
    (absent : hierarchy.contains next.reference.id = false) (named : child.id = next.reference.id) :
    hierarchy.accepts next.parent child = true := by
  obtain ⟨above, inside, started⟩ := hanging.origins next List.mem_cons_self
  exact PipelineHierarchy.accepts_of_pending (PipelineHierarchy.contains_of_mem inside) started
    absent named

/-- A pipeline that is attached under the id that its reference names hangs in the hierarchy. -/
theorem Hanging.attach {hierarchy : PipelineHierarchy} {errors : List SyncError}
    {next : PendingPipeline} {rest : List PendingPipeline} {child : HierarchyEntry}
    (hanging : Hanging ⟨hierarchy, errors, next :: rest⟩)
    (absent : hierarchy.contains next.reference.id = false) (named : child.id = next.reference.id) :
    Hanging ⟨hierarchy.attach next.parent child, errors, rest ++ child.pending⟩ := by
  obtain ⟨above, inside, started⟩ := hanging.origins next List.mem_cons_self
  have accepted := hanging.accepts absent named
  have keeps := PipelineHierarchy.keeps_attach hierarchy next.parent child
  constructor
  · intro entry member
    rcases PipelineHierarchy.mem_attach member with ⟨former, isFormer, same⟩ | rfl
    · rw [(HierarchyEntry.same_of_bare same).1]
      exact (hanging.entries former isFormer).mono keeps
    · obtain ⟨later, isLater, sameId, isPending⟩ := keeps.exists_mem_pending inside started
      have hangs := (hanging.entries above inside).mono keeps
      rw [← sameId] at hangs
      rw [named]
      exact .bridge isLater hangs isPending
  · intro pending member
    rcases List.mem_append.mp member with later | own
    · obtain ⟨entry, isEntry, isPending⟩ :=
        hanging.origins pending (List.mem_cons_of_mem _ later)
      obtain ⟨kept, isKept, _, isPending⟩ := keeps.exists_mem_pending isEntry isPending
      exact ⟨kept, isKept, isPending⟩
    · exact ⟨child, PipelineHierarchy.mem_attach_of_accepts accepted, own⟩

/-- Every step of the walk keeps its entries hanging where references lead to what they name. -/
theorem Hanging.step
    (named : ∀ entry, sound entry → ∀ pending ∈ entry.pending, ∀ child,
      Leads answers pending child → child.id = pending.reference.id)
    {state after : WalkState} (step : WalkStep answers allowance state after)
    (covers : Covers answers sound root state) (hanging : Hanging state) : Hanging after := by
  cases step with
  | known | missing | failed => exact hanging.pop
  | found absent looked =>
    have leads := (leads_iff_of_fetchPending looked _).mpr rfl
    obtain ⟨entry, isSound, started, _⟩ := covers.origins _ List.mem_cons_self
    exact hanging.attach absent (named entry isSound _ started _ leads)

theorem covers_and_hanging_of_steps
    (closed : ∀ entry, sound entry → ∀ pending ∈ entry.pending, ∀ child,
      Leads answers pending child → sound child)
    (named : ∀ entry, sound entry → ∀ pending ∈ entry.pending, ∀ child,
      Leads answers pending child → child.id = pending.reference.id)
    {state final : WalkState} (steps : Relation.ReflTransGen (WalkStep answers allowance) state final)
    (covers : Covers answers sound root state) (hanging : Hanging state) :
    Covers answers sound root final ∧ Hanging final := by
  induction steps with
  | refl => exact ⟨covers, hanging⟩
  | tail _ step inductionHypothesis =>
    obtain ⟨covers, hanging⟩ := inductionHypothesis
    exact ⟨covers.step closed step, hanging.step named step covers⟩

end Walk

/-! ### The roots of the hierarchies -/

section Roots

variable {answers : FixedReplies} {allowance : Nat} {ids : List Int} {window : SyncWindow}
  {projects : List (Nested ProjectPipelinesNode PipelineNode)}
  {collected : Collected PipelineHierarchy}

/-- The hierarchy that was returned for a root. -/
def returnedHierarchy? (answers : FixedReplies) (allowance : Nat) (root : RootPipeline) :
    Option PipelineHierarchy :=
  (returned? answers (fetchHierarchy allowance root.projectId root.path root.node)).bind (·.1)

theorem values_of_fetch
    (returned : Attempt.value? answers (fetchPipelineHierarchies allowance ids window) =
      some (.ok collected))
    (lists : Lists answers ids window projects) :
    collected.values = (rootPipelines projects).filterMap (returnedHierarchy? answers allowance) := by
  obtain ⟨gathered, ran, rfl⟩ := gathered_of_fetch returned lists
  obtain ⟨_, rfl⟩ := runTasks_eq_ok_iff.mp ran
  simp only [Collected.empty, List.nil_append, List.filterMap_map, List.filterMap_filterMap]
  rfl

/-- A hierarchy that was returned has come to the end of the walk from its root. -/
theorem steps_of_returnedHierarchy {root : RootPipeline} {hierarchy : PipelineHierarchy}
    (found : returnedHierarchy? answers allowance root = some hierarchy) :
    ∃ entry failures, Loads answers root.projectId root.path root.node entry ∧
      Relation.ReflTransGen (WalkStep answers allowance) ⟨.ofRoot entry, [], entry.pending⟩
        ⟨hierarchy, failures, []⟩ := by
  obtain ⟨⟨result, failures⟩, ended, same⟩ := Option.bind_eq_some_iff.mp found
  cases (same : result = _)
  rcases steps_of_fetchHierarchy (returns_of_returned? ended) with
    ⟨impossible, _⟩ | ⟨_, entry, same, loads, steps⟩
  · cases impossible
  · cases same
    exact ⟨entry, failures, loads, steps⟩

/-- The root of a hierarchy that was returned is the pipeline that it was returned for. -/
theorem root_of_returnedHierarchy {root : RootPipeline} {hierarchy : PipelineHierarchy}
    (found : returnedHierarchy? answers allowance root = some hierarchy) :
    GlobalId.parse root.node.id = .ok hierarchy.root := by
  obtain ⟨entry, failures, loads, steps⟩ := steps_of_returnedHierarchy found
  have covers : Covers answers (fun _ => True) entry.id ⟨hierarchy, failures, []⟩ :=
    invariant_of_steps (fun _ _ step covers => covers.step (fun _ _ _ _ _ _ => trivial) step) steps
      (Covers.start loads.bare_eq trivial)
  rw [covers.root.1]
  cases loads with
  | intro converts _ _ => exact (toPipeline_eq_ok converts).1

/-- The roots are some of the listed pipelines, in the order of the list. -/
theorem rootIds_sublist (projects : List (Nested ProjectPipelinesNode PipelineNode)) :
    ((rootPipelines projects).filterMap fun root =>
      (GlobalId.parse root.node.id).toOption).Sublist (fetchedIds projects) := by
  unfold rootPipelines
  generalize (projects.flatMap fun project =>
    converted (fun node : PipelineNode => GlobalId.parse node.id) project.inner) = fetched
  induction projects with
  | nil => exact .slnil
  | cons project rest inductionHypothesis =>
    rw [fetchedIds, List.flatMap_cons, List.flatMap_cons, List.filterMap_append]
    refine .append ?_ inductionHypothesis
    split
    · exact List.nil_sublist _
    · rw [List.filterMap_map]
      exact List.filter_sublist.filterMap _

/-- Where every pipeline is listed once, no two hierarchies have the same root. -/
theorem nodup_roots
    (returned : Attempt.value? answers (fetchPipelineHierarchies allowance ids window) =
      some (.ok collected))
    (lists : Lists answers ids window projects) (once : (fetchedIds projects).Nodup) :
    (collected.values.map (·.root)).Nodup := by
  have apart := List.pairwise_filterMap.mp ((rootIds_sublist projects).nodup once)
  have parsed : ∀ root id, (returnedHierarchy? answers allowance root).map (·.root) = some id →
      (GlobalId.parse root.node.id).toOption = some id := by
    intro root id found
    obtain ⟨hierarchy, isReturned, rfl⟩ := Option.map_eq_some_iff.mp found
    rw [root_of_returnedHierarchy isReturned]
    rfl
  rw [values_of_fetch returned lists, List.map_filterMap]
  exact List.pairwise_filterMap.mpr (apart.imp fun differ id found id' found' =>
    differ id (parsed _ _ found) id' (parsed _ _ found'))

/-- A hierarchy that was returned has the root of a listed pipeline that no listed pipeline started,
and where references lead to what they name, all of its entries hang in it. -/
theorem hanging_of_fetch
    (returned : Attempt.value? answers (fetchPipelineHierarchies allowance ids window) =
      some (.ok collected))
    (lists : Lists answers ids window projects)
    (named : ∀ entry, Reached answers ids window entry → ∀ pending ∈ entry.pending, ∀ child,
      Leads answers pending child → child.id = pending.reference.id)
    {hierarchy : PipelineHierarchy} (member : hierarchy ∈ collected.values) :
    (∃ listing, Listed projects listing ∧ GlobalId.parse listing.node.id = .ok hierarchy.root ∧
        listing.node.isStartedBy (fetchedIds projects) = false) ∧
      hierarchy.contains hierarchy.root = true ∧
      ∀ id, hierarchy.contains id = true → hierarchy.Hangs id := by
  rw [values_of_fetch returned lists] at member
  obtain ⟨root, isRoot, found⟩ := List.mem_filterMap.mp member
  obtain ⟨listed, own⟩ := mem_rootPipelines.mp isRoot
  obtain ⟨entry, failures, loads, steps⟩ := steps_of_returnedHierarchy found
  have reached : Reached answers ids window entry := .root lists listed own loads
  obtain ⟨covers, hanging⟩ := covers_and_hanging_of_steps reached_closed named steps
    (Covers.start loads.bare_eq reached) (Hanging.start entry)
  refine ⟨⟨root, listed, root_of_returnedHierarchy found, own⟩, ?_, fun id present => ?_⟩
  · rw [covers.root.1]
    exact covers.root.2
  · obtain ⟨other, inside, rfl⟩ := PipelineHierarchy.contains_iff.mp present
    exact hanging.entries other inside

end Roots

/-! ### Hierarchies with a pipeline in common -/

/-- Bridges of a hierarchy lead to the root of another one. That root is a listed pipeline, and no
listed pipeline started it. -/
structure LeadsToRoot (projects : List (Nested ProjectPipelinesNode PipelineNode))
    (hierarchy other : PipelineHierarchy) : Prop where
  present : hierarchy.contains other.root = true
  started : ∃ entry ∈ hierarchy.entries, ∃ pending ∈ entry.pending,
    pending.reference.id = other.root
  own : ∃ listing, Listed projects listing ∧ GlobalId.parse listing.node.id = .ok other.root ∧
    listing.node.isStartedBy (fetchedIds projects) = false

/-- Bridges of two different pipelines, one in each of two hierarchies, name one pipeline that is
part of both. -/
def BridgesMeet (hierarchy other : PipelineHierarchy) : Prop :=
  ∃ entry ∈ hierarchy.entries, ∃ entry' ∈ other.entries, entry.id ≠ entry'.id ∧
    ∃ pending ∈ entry.pending, ∃ pending' ∈ entry'.pending,
      pending'.reference.id = pending.reference.id ∧
        hierarchy.contains pending.reference.id = true ∧
        other.contains pending.reference.id = true

/-- A pipeline that hangs in two hierarchies is followed upwards in both, as long as it hangs below
the same pipeline in them. -/
theorem roots_or_bridgesMeet {hierarchy other : PipelineHierarchy}
    (hangsOther : ∀ id, other.contains id = true → other.Hangs id) {id : Int}
    (hangs : hierarchy.Hangs id) (inHierarchy : hierarchy.contains id = true)
    (inOther : other.contains id = true) :
    other.contains hierarchy.root = true ∨ hierarchy.contains other.root = true ∨
      BridgesMeet hierarchy other := by
  induction hangs with
  | root => exact .inl inOther
  | @bridge entry pending member _ started inductionHypothesis =>
    -- The row in the other hierarchy is not followed by an induction of its own: it is asked for
    -- its last bridge only, which belongs to the same pipeline or to another one.
    generalize sameId : pending.reference.id = id at inHierarchy inOther
    cases hangsOther id inOther with
    | root => exact .inr (.inl inHierarchy)
    | @bridge entry' pending' member' _ started' =>
      by_cases same : entry.id = entry'.id
      · refine inductionHypothesis (PipelineHierarchy.contains_of_mem member) ?_
        rw [same]
        exact PipelineHierarchy.contains_of_mem member'
      · rw [← sameId] at inHierarchy inOther
        exact .inr (.inr ⟨entry, member, entry', member', same, pending, started, pending',
          started', sameId.symm, inHierarchy, inOther⟩)

/-- A root that is part of another hierarchy was started by a bridge there. -/
theorem PipelineHierarchy.Hangs.started {hierarchy : PipelineHierarchy} {id : Int}
    (hangs : hierarchy.Hangs id) (other : hierarchy.root ≠ id) :
    ∃ entry ∈ hierarchy.entries, ∃ pending ∈ entry.pending, pending.reference.id = id := by
  cases hangs with
  | root => exact absurd rfl other
  | bridge member _ started => exact ⟨_, member, _, started, rfl⟩

/-- Which of the returned hierarchies share a pipeline, where every pipeline is listed once and
every reference leads to the pipeline that it names. No two of them have the same root. Two of them
share a pipeline if and only if bridges of one lead to the root of the other, which is a root
because the pipeline that started it is not listed, or bridges of different pipelines meet in one
pipeline. -/
theorem share_iff {answers : FixedReplies} {allowance : Nat} {ids : List Int} {window : SyncWindow}
    {projects : List (Nested ProjectPipelinesNode PipelineNode)}
    {collected : Collected PipelineHierarchy}
    (returned : Attempt.value? answers (fetchPipelineHierarchies allowance ids window) =
      some (.ok collected))
    (lists : Lists answers ids window projects) (once : (fetchedIds projects).Nodup)
    (named : ∀ entry, Reached answers ids window entry → ∀ pending ∈ entry.pending, ∀ child,
      Leads answers pending child → child.id = pending.reference.id) :
    (collected.values.map (·.root)).Nodup ∧
      ∀ hierarchy ∈ collected.values, ∀ other ∈ collected.values, hierarchy.root ≠ other.root →
        ((∃ id, hierarchy.contains id = true ∧ other.contains id = true) ↔
          LeadsToRoot projects hierarchy other ∨ LeadsToRoot projects other hierarchy ∨
            BridgesMeet hierarchy other) := by
  refine ⟨nodup_roots returned lists once, fun hierarchy member other member' apart => ?_⟩
  obtain ⟨own, present, hangs⟩ := hanging_of_fetch returned lists named member
  obtain ⟨own', present', hangs'⟩ := hanging_of_fetch returned lists named member'
  constructor
  · rintro ⟨id, inHierarchy, inOther⟩
    rcases roots_or_bridgesMeet hangs' (hangs id inHierarchy) inHierarchy inOther with
      inside | inside | meet
    · exact .inr (.inl ⟨inside, (hangs' _ inside).started apart.symm, own⟩)
    · exact .inl ⟨inside, (hangs _ inside).started apart, own'⟩
    · exact .inr (.inr meet)
  · rintro (leads | leads | ⟨_, _, _, _, _, pending, _, _, _, _, inHierarchy, inOther⟩)
    · exact ⟨other.root, leads.present, present'⟩
    · exact ⟨hierarchy.root, present, leads.present⟩
    · exact ⟨pending.reference.id, inHierarchy, inOther⟩

/-! ### A row of three pipelines -/

namespace SharedPipelines

open PipelineCoverage

/-- A bridge of the second pipeline, which started the third one. -/
def nextBridge : JobNode :=
  { (default : JobNode) with
    id := some "gid://gitlab/Ci::Bridge/21"
    kind := some "BRIDGE"
    downstream := some ⟨"gid://gitlab/Ci::Pipeline/300", "3", none⟩ }

def middleNode : PipelineNode :=
  pipelineNode "gid://gitlab/Ci::Pipeline/200" "2"
    (some ⟨"gid://gitlab/Ci::Pipeline/100", "1", none⟩) [nextBridge]

def lastNode : PipelineNode :=
  pipelineNode "gid://gitlab/Ci::Pipeline/300" "3"
    (some ⟨"gid://gitlab/Ci::Pipeline/200", "2", none⟩) []

/-- The project with the first and the last pipeline. -/
def rowProject : ProjectPipelinesNode :=
  ⟨"gid://gitlab/Project/1", "g/app",
    some ⟨[some (startingNode none), some lastNode], ⟨none, false⟩⟩⟩

/-- A server that finds all three pipelines, but does not list the second. -/
def rowReplies : FixedReplies
  | .query (.projectsPipelines _ _ _) => .ok (.last [rowProject])
  | .query (.pipeline _ iid) =>
    .ok ([startingNode none, middleNode, lastNode].find? (·.iid == iid))
  | .query _ => .error .noData
  | .isCancelled => false
  | .send .. => .ok ()
  | .now => default
  | .waitUntil _ => ()

def rowProjects : List (Nested ProjectPipelinesNode PipelineNode) :=
  [⟨rowProject, [startingNode none, lastNode]⟩]

theorem row_lists : Lists rowReplies [1] default rowProjects := by
  refine ⟨List.cons_ne_nil _ _, [.last [rowProject]], .last rfl rfl, ?_⟩
  exact .cons ⟨rfl, [], .none rfl, rfl⟩ .nil

theorem row_once : (fetchedIds rowProjects).Nodup := by
  have ids : fetchedIds rowProjects = [100, 300] := by rfl
  rw [ids]
  decide

/-- The entries of the second and the third pipeline. -/
def middleEntry : HierarchyEntry :=
  .ofJobs
    { (default : Pipeline) with
      id := 200, iid := "2", projectId := 1, projectPath := "g/app"
      triggeredBy := some ⟨100, "1", none, "g/app"⟩ } [⟨nextBridge, []⟩]

def lastEntry : HierarchyEntry :=
  .ofJobs
    { (default : Pipeline) with
      id := 300, iid := "3", projectId := 1, projectPath := "g/app"
      triggeredBy := some ⟨200, "2", none, "g/app"⟩ } []

/-- The reference from the second pipeline to the third. -/
def nextReference : PendingPipeline :=
  ⟨200, 1, ⟨300, "3", none, "g/app"⟩⟩

theorem pending_middleEntry : middleEntry.pending = [nextReference] := by
  decide +kernel

theorem loads_last : Loads rowReplies 1 "g/app" lastNode lastEntry :=
  .intro (by rfl) ⟨[], .none rfl, rfl⟩ .nil

theorem leads_middle : Leads rowReplies started middleEntry :=
  ⟨middleNode, by rfl, .intro (by rfl) ⟨[], .none rfl, rfl⟩ (.cons ⟨rfl, [], .none rfl, rfl⟩ .nil)⟩

theorem leads_last : Leads rowReplies nextReference lastEntry :=
  ⟨lastNode, by rfl, loads_last⟩

/-- The fetch can come to no other entries than these three. -/
theorem mem_of_reached {entry : HierarchyEntry} (reached : Reached rowReplies [1] default entry) :
    entry = startingEntry ∨ entry = middleEntry ∨ entry = lastEntry := by
  induction reached with
  | @root found root entry listed isListed own loads =>
    rw [listed.unique row_lists] at isListed
    obtain ⟨project, inside, parsed, path, member⟩ := isListed
    rw [List.mem_singleton.mp inside] at parsed path member
    obtain ⟨projectId, _, node⟩ := root
    cases parse_project.symm.trans parsed
    cases path
    rcases List.mem_cons.mp member with same | other
    · cases (same : node = _)
      exact .inl (loads.unique (loads_starting _))
    · cases (List.mem_singleton.mp other : node = _)
      exact .inr (.inr (loads.unique loads_last))
  | @bridge entry child pending _ isStarted leads inductionHypothesis =>
    rcases inductionHypothesis with rfl | rfl | rfl
    · rw [pending_startingEntry, List.mem_singleton] at isStarted
      subst isStarted
      exact .inr (.inl (leads.unique leads_middle))
    · rw [pending_middleEntry, List.mem_singleton] at isStarted
      subst isStarted
      exact .inr (.inr (leads.unique leads_last))
    · cases isStarted

theorem row_named : ∀ entry, Reached rowReplies [1] default entry → ∀ pending ∈ entry.pending,
    ∀ child, Leads rowReplies pending child → child.id = pending.reference.id := by
  intro entry reached pending isStarted child leads
  rcases mem_of_reached reached with rfl | rfl | rfl
  · rw [pending_startingEntry, List.mem_singleton] at isStarted
    subst isStarted
    rw [leads.unique leads_middle]
    rfl
  · rw [pending_middleEntry, List.mem_singleton] at isStarted
    subst isStarted
    rw [leads.unique leads_last]
    rfl
  · cases isStarted

end SharedPipelines

open SharedPipelines

/-- Bridges of the first hierarchy lead to the root of the second. -/
theorem row_shared :
    ∃ collected,
      Attempt.value? rowReplies (fetchPipelineHierarchies 3 [1] default) = some (.ok collected) ∧
        (collected.values.map (·.root)).Nodup ∧
        ∃ hierarchy ∈ collected.values, ∃ other ∈ collected.values,
          LeadsToRoot rowProjects hierarchy other ∨ LeadsToRoot rowProjects other hierarchy ∨
            BridgesMeet hierarchy other := by
  obtain ⟨collected, returned, first, second, same, apart, inFirst, inSecond⟩ :
      ∃ collected,
        Attempt.value? rowReplies (fetchPipelineHierarchies 3 [1] default) =
            some (.ok collected) ∧
          ∃ first second, collected.values = [first, second] ∧ first.root ≠ second.root ∧
            first.contains 300 = true ∧ second.contains 300 = true :=
    ⟨_, rfl, _, _, rfl, by decide +kernel, rfl, rfl⟩
  have shared := share_iff returned row_lists row_once row_named
  have isFirst : first ∈ collected.values := by
    rw [same]
    exact List.mem_cons_self
  have isSecond : second ∈ collected.values := by
    rw [same]
    exact List.mem_cons_of_mem _ List.mem_cons_self
  exact ⟨collected, returned, shared.1, first, isFirst, second, isSecond,
    (shared.2 first isFirst second isSecond apart).mp ⟨300, inFirst, inSecond⟩⟩

/-- A pipeline that is part of two hierarchies. The pipeline that started it is not listed, so it is
a root; but this one was started by the first pipeline, whose hierarchy comes to both. -/
theorem row_fetched_twice :
    ∃ collected,
      Attempt.value? rowReplies (fetchPipelineHierarchies 3 [1] default) = some (.ok collected) ∧
        Lists rowReplies [1] default rowProjects ∧ (fetchedIds rowProjects).Nodup ∧
        (∀ entry, Reached rowReplies [1] default entry → ∀ pending ∈ entry.pending, ∀ child,
          Leads rowReplies pending child → child.id = pending.reference.id) ∧
        ∃ hierarchy ∈ collected.values, ∃ other ∈ collected.values,
          hierarchy.root ≠ other.root ∧ hierarchy.contains 300 = true ∧
            other.contains 300 = true := by
  refine ⟨_, rfl, row_lists, row_once, row_named, _, List.mem_cons_self, _,
    List.mem_cons_of_mem _ List.mem_cons_self, ?_, rfl, rfl⟩
  decide +kernel

end CiTelemetry
