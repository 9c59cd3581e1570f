/-
This file says which entry the answers of a server give for a pipeline, and
proves that completing a pipeline returns that entry. Which pages the jobs and
artifacts were cut into has no part in it beyond the items on them.
-/

import CiTelemetry.Fetch.Pipelines
import CiTelemetry.Proofs.PageChains

namespace CiTelemetry

/-! ### Outcomes -/

namespace Outcome

variable {α β : Type}

/-- A composed outcome that is a value is one in both of its parts. -/
theorem ok_of_bind {first : Outcome α} {next : α → Outcome β} {value : β}
    (returned : (first >>= next) = .ok value) :
    ∃ found, first = .ok found ∧ next found = .ok value := by
  cases first with
  | error error => cases returned
  | ok found => exact ⟨found, rfl, returned⟩

theorem ok_of_map {first : Outcome α} {change : α → β} {value : β}
    (returned : first.map change = .ok value) :
    ∃ found, first = .ok found ∧ change found = value := by
  cases first with
  | error error => cases returned
  | ok found =>
    cases returned
    exact ⟨found, rfl, rfl⟩

end Outcome

/-! ### The entry of a pipeline -/

/-- The further pages of the jobs of a pipeline. -/
abbrev jobTable (answers : FixedReplies) (path iid : String) : PageTable JobNode :=
  fun cursor => answers (.query (.pipelineJobs path iid cursor))

/-- The further pages of the artifacts of a job. -/
abbrev artifactTable (answers : FixedReplies) (path : String) (job : JobNode) :
    PageTable ArtifactNode :=
  fun cursor => answers (.query (.jobArtifacts path (job.id.getD "") cursor))

/-- A job with the artifacts that the answers give for it. -/
def IsComplete (answers : FixedReplies) (path : String) (job : JobNode)
    (whole : JobWithArtifacts) : Prop :=
  whole.node = job ∧ Completes (artifactTable answers path job) job.artifactPage whole.artifacts

/-- The entry that the answers give for a pipeline which can be converted. -/
inductive Loads (answers : FixedReplies) (projectId : Int) (path : String) (node : PipelineNode) :
    HierarchyEntry → Prop
  | intro {pipeline : Pipeline} {jobs : List JobNode} {complete : List JobWithArtifacts}
      (converts : node.toPipeline projectId path = .ok pipeline)
      (drained : Completes (jobTable answers path node.iid) node.jobPage jobs)
      (completed : List.Forall₂ (IsComplete answers path) jobs complete) :
      Loads answers projectId path node (.ofJobs pipeline complete)

/-- The entry of the pipeline that a reference leads to. -/
def Leads (answers : FixedReplies) (pending : PendingPipeline) (entry : HierarchyEntry) : Prop :=
  ∃ node,
    answers (.query (.pipeline pending.reference.projectPath pending.reference.iid)) =
        .ok (some node) ∧
      Loads answers (pending.reference.projectId.getD pending.parentProject)
        pending.reference.projectPath node entry

section Entries

variable {answers : FixedReplies} {projectId : Int} {path : String} {node : PipelineNode}
  {entry other : HierarchyEntry}

theorem isComplete_unique : Relator.RightUnique (IsComplete answers path) := by
  rintro job ⟨node, artifacts⟩ ⟨node', artifacts'⟩ ⟨rfl, drained⟩ ⟨rfl, drained'⟩
  cases drained.unique drained'
  rfl

/-- The answers give a pipeline at most one entry. -/
theorem Loads.unique (left : Loads answers projectId path node entry)
    (right : Loads answers projectId path node other) : entry = other := by
  cases left with
  | intro converts drained completed =>
    cases right with
    | intro converts' drained' completed' =>
      rw [converts] at converts'
      cases converts'
      cases drained.unique drained'
      rw [isComplete_unique.forall₂ completed completed']

theorem Loads.id_eq (loads : Loads answers projectId path node entry) {pipeline : Pipeline}
    (converts : node.toPipeline projectId path = .ok pipeline) : entry.id = pipeline.id := by
  cases loads with
  | intro converts' _ _ =>
    rw [converts] at converts'
    cases converts'
    rfl

/-- The number of a project has no part in whether its pipelines can be converted. -/
theorem toPipeline_ofProject {pipeline : Pipeline}
    (converts : node.toPipeline projectId path = .ok pipeline) (otherId : Int) :
    node.toPipeline otherId path = .ok { pipeline with projectId := otherId } := by
  obtain ⟨triggeredBy, started, converts⟩ := Outcome.ok_of_bind converts
  obtain ⟨id, parsed, converts⟩ := Outcome.ok_of_bind converts
  cases converts
  rw [PipelineNode.toPipeline, started, parsed]
  rfl

/-- That a pipeline has an entry does not depend on the number of its project. -/
theorem Loads.ofProject (loads : Loads answers projectId path node entry) (otherId : Int) :
    ∃ entry', Loads answers otherId path node entry' := by
  cases loads with
  | @intro pipeline _ complete converts drained completed =>
    exact ⟨_, .intro (toPipeline_ofProject converts otherId) drained completed⟩

/-- What a reference leads to does not depend on the bridge that it belongs to. -/
theorem Leads.of_reference {pending pending' : PendingPipeline}
    (leads : Leads answers pending entry) (same : pending'.reference = pending.reference) :
    ∃ entry', Leads answers pending' entry' := by
  obtain ⟨node, answered, loads⟩ := leads
  obtain ⟨entry', loads'⟩ :=
    loads.ofProject (pending'.reference.projectId.getD pending'.parentProject)
  rw [← same] at answered loads'
  exact ⟨entry', node, answered, loads'⟩

theorem Leads.unique {pending : PendingPipeline} (left : Leads answers pending entry)
    (right : Leads answers pending other) : entry = other := by
  obtain ⟨node, answered, loads⟩ := left
  obtain ⟨node', answered', loads'⟩ := right
  rw [answered] at answered'
  cases answered'
  exact loads.unique loads'

/-! ### The references of an entry -/

/-- The record of a pipeline has the number of its node and the path of its project. -/
theorem toPipeline_eq_ok {record : Pipeline}
    (converts : node.toPipeline projectId path = .ok record) :
    GlobalId.parse node.id = .ok record.id ∧ record.projectPath = path := by
  obtain ⟨triggeredBy, _, converts⟩ := Outcome.ok_of_bind converts
  obtain ⟨id, parsed, converts⟩ := Outcome.ok_of_bind converts
  cases converts
  exact ⟨parsed, rfl⟩

theorem projectId_of_toPipeline {record : Pipeline}
    (converts : node.toPipeline projectId path = .ok record) : record.projectId = projectId := by
  obtain ⟨triggeredBy, _, converts⟩ := Outcome.ok_of_bind converts
  obtain ⟨id, _, converts⟩ := Outcome.ok_of_bind converts
  cases converts
  rfl

theorem downstream_of_bridge? {record : Pipeline} {job : JobWithArtifacts} {bridge : Bridge}
    (isBridge : job.bridge? record = some bridge) :
    PipelineRefNode.toRef? job.node.downstream record.projectPath = .ok bridge.downstream := by
  unfold JobWithArtifacts.bridge? at isBridge
  split at isBridge
  · next found converts =>
    cases isBridge
    obtain ⟨id, _, converts⟩ := Outcome.ok_of_bind converts
    split at converts
    · obtain ⟨same, converted, equal⟩ := Outcome.ok_of_map converts
      cases equal
      obtain ⟨downstream, referred, converted⟩ := Outcome.ok_of_bind converted
      cases converted
      exact referred
    · obtain ⟨_, _, different⟩ := Outcome.ok_of_map converts
      cases different
  · cases isBridge

/-- Every reference of an entry is what a job of the pipeline names as started by it. -/
theorem exists_of_mem_pending {record : Pipeline} {jobs : List JobWithArtifacts}
    {pending : PendingPipeline} (member : pending ∈ (HierarchyEntry.ofJobs record jobs).pending) :
    ∃ job ∈ jobs, ∃ started, job.node.downstream = some started ∧
      started.toRef record.projectPath = .ok pending.reference := by
  obtain ⟨bridge, inside, started⟩ := List.mem_filterMap.mp member
  obtain ⟨reference, named, rfl⟩ := Option.map_eq_some_iff.mp started
  obtain ⟨job, isJob, isBridge⟩ := List.mem_filterMap.mp inside
  have referred := downstream_of_bridge? isBridge
  rw [named] at referred
  refine ⟨job, isJob, ?_⟩
  cases downstream : job.node.downstream with
  | none =>
    rw [downstream] at referred
    cases referred
  | some node =>
    rw [downstream] at referred
    obtain ⟨found, converted, same⟩ := Outcome.ok_of_map referred
    cases same
    exact ⟨node, rfl, converted⟩

/-- A pipeline has at most as many references as it has jobs. -/
theorem length_pending_le (record : Pipeline) (jobs : List JobWithArtifacts) :
    (HierarchyEntry.ofJobs record jobs).pending.length ≤ jobs.length :=
  Nat.le_trans (List.length_filterMap_le _ _) (List.length_filterMap_le _ _)

/-! ### Completing a pipeline -/

theorem jobTable_answers (answers : FixedReplies) (path iid : String) :
    Answers answers (fun cursor => Fetch.query (.pipelineJobs path iid cursor))
      (jobTable answers path iid) :=
  fun _ => rfl

theorem artifactTable_answers (answers : FixedReplies) (path : String) (job : JobNode) :
    Answers answers (fun cursor => Fetch.query (.jobArtifacts path (job.id.getD "") cursor))
      (artifactTable answers path job) :=
  fun _ => rfl

theorem complete_of_fetchArtifacts {allowance : Nat} {jobs : List JobNode}
    {complete : List JobWithArtifacts}
    (fetched : Attempt.value? answers (fetchArtifacts allowance path jobs) = some (.ok complete)) :
    List.Forall₂ (IsComplete answers path) jobs complete := by
  induction jobs generalizing complete with
  | nil =>
    cases fetched
    exact List.Forall₂.nil
  | cons job rest inductionHypothesis =>
    obtain ⟨artifacts, drained, returned⟩ := Attempt.ok_of_value?_bind fetched
    obtain ⟨others, all, returned⟩ := Attempt.ok_of_value?_bind returned
    cases returned
    have complete := completes_of_drain (artifactTable_answers answers path job) drained
    exact List.Forall₂.cons ⟨rfl, complete⟩ (inductionHypothesis all)

/-- What completing a pipeline returns is the entry that the answers give for it, if they give
one. -/
theorem loads_iff_of_fetchEntry {allowance : Nat} {found : Option HierarchyEntry}
    (fetched : Attempt.value? answers (fetchEntry allowance projectId path node) =
      some (.ok found)) (entry : HierarchyEntry) :
    Loads answers projectId path node entry ↔ found = some entry := by
  unfold fetchEntry at fetched
  split at fetched
  · next failed =>
    cases fetched
    constructor
    · rintro ⟨converts, _, _⟩
      rw [failed] at converts
      cases converts
    · rintro ⟨⟩
  · next pipeline converts =>
    obtain ⟨jobs, drained, returned⟩ := Attempt.ok_of_value?_bind fetched
    obtain ⟨complete, all, returned⟩ := Attempt.ok_of_value?_bind returned
    cases returned
    have loads := Loads.intro converts
      (completes_of_drain (jobTable_answers answers path node.iid) drained)
      (complete_of_fetchArtifacts all)
    constructor
    · intro loads'
      rw [loads.unique loads']
    · rintro ⟨⟩
      exact loads

/-- A pipeline that was completed and can be converted has an entry. -/
theorem exists_loads_of_fetchEntry {allowance : Nat} {found : Option HierarchyEntry}
    (fetched : Attempt.value? answers (fetchEntry allowance projectId path node) =
      some (.ok found)) {pipeline : Pipeline}
    (converts : node.toPipeline projectId path = .ok pipeline) :
    ∃ entry, Loads answers projectId path node entry := by
  have loads := loads_iff_of_fetchEntry fetched
  unfold fetchEntry at fetched
  rw [converts] at fetched
  obtain ⟨jobs, _, returned⟩ := Attempt.ok_of_value?_bind fetched
  obtain ⟨complete, _, returned⟩ := Attempt.ok_of_value?_bind returned
  cases returned
  exact ⟨_, (loads _).mpr rfl⟩

/-- What looking up a reference returns is the entry that it leads to, if it leads to one. -/
theorem leads_iff_of_fetchPending {allowance : Nat} {pending : PendingPipeline}
    {found : Option HierarchyEntry}
    (fetched : Attempt.value? answers (fetchPending allowance pending) = some (.ok found))
    (entry : HierarchyEntry) : Leads answers pending entry ↔ found = some entry := by
  obtain ⟨answer, answered, returned⟩ := Attempt.ok_of_value?_bind fetched
  rw [Fetch.value?_query, Option.some.injEq] at answered
  cases answer with
  | none =>
    cases returned
    constructor
    · rintro ⟨node, answered', _⟩
      rw [answered] at answered'
      cases answered'
    · rintro ⟨⟩
  | some node =>
    rw [← loads_iff_of_fetchEntry returned]
    constructor
    · rintro ⟨node', answered', loads⟩
      rw [answered] at answered'
      cases answered'
      exact loads
    · intro loads
      exact ⟨node, answered, loads⟩

end Entries

end CiTelemetry
