/-
This file proves what the spans of a hierarchy rest on. Jobs and bridges know the
pipeline that they belong to, what an entry lists was started by one of its
bridges, and a section belongs to a job of its entry. The first is so of every
pipeline that is fetched; the second is kept by the walk over bridges where every
reference is answered with the pipeline that it names, whatever else the server
answers; and the third is kept when job logs are attached.
-/

import CiTelemetry.Fetch.JobLogs
import CiTelemetry.Proofs.HierarchyTrees
import CiTelemetry.Proofs.Processing
import CiTelemetry.Proofs.SharedPipelines

namespace CiTelemetry

open Dialogue

/-! ### Entries whose records belong together -/

/-- A bridge that started the pipeline of an id. -/
def Bridge.Started (bridge : Bridge) (id : Int) : Prop :=
  ∃ reference, bridge.downstream = some reference ∧ reference.id = id

/-- An entry whose records refer to one another. -/
structure HierarchyEntry.IsConsistent (entry : HierarchyEntry) : Prop where
  jobs : ∀ job ∈ entry.jobs, job.pipelineId = entry.id
  bridges : ∀ bridge ∈ entry.bridges, bridge.pipelineId = entry.id
  started : ∀ id ∈ entry.downstream, ∃ bridge ∈ entry.bridges, bridge.Started id
  sections : ∀ part ∈ entry.sections, ∃ job ∈ entry.jobs, part.jobId = job.id

/-- A tree of such entries. -/
structure PipelineHierarchy.IsTraceable (hierarchy : PipelineHierarchy) : Prop where
  tree : hierarchy.IsTree
  consistent : ∀ entry ∈ hierarchy.entries, entry.IsConsistent

/-! ### Fetched pipelines -/

section Fetched

variable {pipeline : Pipeline}

/-- The pipeline that the record of a job belongs to. -/
def CiJob.pipelineId : CiJob → Int
  | build record => record.pipelineId
  | bridge record => record.pipelineId

theorem pipelineId_of_toCiJob {node : JobNode} {artifacts : List ArtifactNode} {record : CiJob}
    (converts : node.toCiJob pipeline artifacts = .ok record) :
    record.pipelineId = pipeline.id := by
  obtain ⟨id, _, converts⟩ := Outcome.ok_of_bind converts
  split at converts
  · obtain ⟨bridge, converted, rfl⟩ := Outcome.ok_of_map converts
    obtain ⟨downstream, _, made⟩ := Outcome.ok_of_bind converted
    cases made
    rfl
  · obtain ⟨build, converted, rfl⟩ := Outcome.ok_of_map converts
    obtain ⟨runner, _, made⟩ := Outcome.ok_of_bind converted
    cases made
    rfl

/-- The jobs and bridges of a completed pipeline belong to it. -/
theorem isConsistent_ofJobs (pipeline : Pipeline) (jobs : List JobWithArtifacts) :
    (HierarchyEntry.ofJobs pipeline jobs).IsConsistent where
  jobs record member := by
    obtain ⟨job, _, isBuild⟩ := List.mem_filterMap.mp member
    rw [JobWithArtifacts.build?] at isBuild
    split at isBuild <;> cases isBuild
    next converts => exact pipelineId_of_toCiJob converts
  bridges record member := by
    obtain ⟨job, _, isBridge⟩ := List.mem_filterMap.mp member
    rw [JobWithArtifacts.bridge?] at isBridge
    split at isBridge <;> cases isBridge
    next converts => exact pipelineId_of_toCiJob converts
  started _ listed := nomatch listed
  sections _ member := nomatch member

variable {turns : Turns} {allowance : Nat} {entry : HierarchyEntry}

/-- What is fetched of a pipeline is an entry of its record with jobs. -/
theorem exists_of_fetchEntry {projectId : Int} {path : String} {node : PipelineNode}
    (held : Held (fetchEntry allowance projectId path node).run turns (some (.ok (some entry)))) :
    ∃ pipeline jobs, node.toPipeline projectId path = .ok pipeline ∧
      entry = .ofJobs pipeline jobs := by
  rw [fetchEntry] at held
  split at held
  · cases held
  · next pipeline converts =>
    obtain ⟨_, _, _, rfl, _, held⟩ := Attempt.held_bind_ok held
    obtain ⟨jobs, _, _, rfl, _, ended⟩ := Attempt.held_bind_ok held
    cases ended
    exact ⟨pipeline, jobs, converts, rfl⟩

/-- What a look-up returns is the entry of the pipeline that it was answered with. -/
theorem exists_of_fetchPending {pending : PendingPipeline}
    (held : Held (fetchPending allowance pending).run turns (some (.ok (some entry)))) :
    ∃ node pipeline jobs,
      (⟨.query (.pipeline pending.reference.projectPath pending.reference.iid), .ok (some node)⟩ :
        Turn Action Action.Reply) ∈ turns ∧
      node.toPipeline (pending.reference.projectId.getD pending.parentProject)
        pending.reference.projectPath = .ok pipeline ∧
      entry = .ofJobs pipeline jobs := by
  obtain ⟨found, front, back, rfl, asked, latter⟩ := Attempt.held_bind_ok held
  obtain ⟨_, rfl, same⟩ := Held.of_question asked
  cases same
  cases found with
  | none => cases latter
  | some node =>
    obtain ⟨pipeline, jobs, converts, rfl⟩ := exists_of_fetchEntry latter
    exact ⟨node, pipeline, jobs, List.mem_append_left _ List.mem_cons_self, converts, rfl⟩

end Fetched

/-! ### The walk over bridges -/

/-- Every pipeline that references of a hierarchy were answered with has the id that they name. -/
def AnsweredByName (turns : Turns) (hierarchy : PipelineHierarchy) : Prop :=
  ∀ entry ∈ hierarchy.entries, ∀ pending ∈ entry.pending, ∀ node id,
    (⟨.query (.pipeline pending.reference.projectPath pending.reference.iid), .ok (some node)⟩ :
      Turn Action Action.Reply) ∈ turns →
    GlobalId.parse node.id = .ok id → id = pending.reference.id

theorem AnsweredByName.of_subset {turns fewer : Turns} {hierarchy : PipelineHierarchy}
    (named : AnsweredByName turns hierarchy) (subset : fewer ⊆ turns) :
    AnsweredByName fewer hierarchy :=
  fun entry member pending isPending node id answered =>
    named entry member pending isPending node id (subset answered)

section Walk

variable {hierarchy final : PipelineHierarchy} {turns : Turns} {allowance : Nat}
  {errors failures : List SyncError}

/-- A pending pipeline of an entry was started by a bridge of the entry. -/
theorem exists_started_of_mem_pending {entry : HierarchyEntry} {pending : PendingPipeline}
    (member : pending ∈ entry.pending) :
    ∃ bridge ∈ entry.bridges, bridge.Started pending.reference.id := by
  obtain ⟨bridge, inside, started⟩ := List.mem_filterMap.mp member
  obtain ⟨reference, named, rfl⟩ := Option.map_eq_some_iff.mp started
  exact ⟨bridge, inside, reference, named, rfl⟩

/-- Attaching keeps a traceable hierarchy where the parent has a bridge that started the child. -/
theorem PipelineHierarchy.IsTraceable.attach (traceable : hierarchy.IsTraceable) {parent : Int}
    {child : HierarchyEntry} (consistent : child.IsConsistent) (bare : child.downstream = [])
    (started : ∀ entry ∈ hierarchy.entries, entry.id = parent →
      ∃ bridge ∈ entry.bridges, bridge.Started child.id) :
    (hierarchy.attach parent child).IsTraceable := by
  refine ⟨traceable.tree.attach parent bare, fun entry member => ?_⟩
  cases accepted : hierarchy.accepts parent child with
  | false =>
    rw [attach_of_not_accepts accepted] at member
    exact traceable.consistent entry member
  | true =>
    rw [attach_of_accepts accepted, List.mem_append, List.mem_singleton] at member
    rcases member with linked | rfl
    · obtain ⟨former, inside, rfl⟩ := List.mem_map.mp linked
      have before := traceable.consistent former inside
      split
      · next isParent =>
        refine ⟨before.jobs, before.bridges, fun id listed => ?_, before.sections⟩
        rcases List.mem_append.mp listed with earlier | attached
        · exact before.started id earlier
        · rw [List.mem_singleton.mp attached]
          exact started former inside (beq_iff_eq.mp isParent)
      · exact before
    · exact consistent

/-- A walk over bridges keeps the root and, up to their links, all entries. -/
theorem kept_of_followBridges {steps : Nat} {pending : List PendingPipeline}
    (held : Held (followBridges steps allowance hierarchy errors pending).run turns
      (some (.ok (final, failures)))) : final.Keeps hierarchy := by
  induction steps generalizing turns hierarchy errors pending with
  | zero =>
    cases pending with
    | nil =>
      cases held
      exact .refl _
    | cons next rest => cases held
  | succ steps inductionHypothesis =>
    cases pending with
    | nil =>
      cases held
      exact .refl _
    | cons next rest =>
      rw [followBridges] at held
      split at held
      · exact inductionHypothesis held
      · rcases Attempt.held_outcome_bind held with
          ⟨stopped, _⟩ | ⟨outcome, front, back, rfl, _, latter⟩
        · cases stopped
        · rcases outcome with error | _ | child
          · dsimp only at latter
            split at latter
            · cases latter
            · exact inductionHypothesis latter
          · exact inductionHypothesis latter
          · exact (inductionHypothesis latter).trans (PipelineHierarchy.keeps_attach ..)

/-- What every step of a walk over bridges keeps holds of the hierarchy that it ends with. A step
drops a reference or attaches what its look-up brought, and no step takes back what was attached. -/
theorem holds_of_followBridges (invariant : PipelineHierarchy → List PendingPipeline → Prop)
    (dropped : ∀ hierarchy next rest, invariant hierarchy (next :: rest) →
      invariant hierarchy rest)
    (attached : ∀ hierarchy next rest child part, invariant hierarchy (next :: rest) →
      hierarchy.contains next.reference.id = false → part <:+: turns →
      Held (fetchPending allowance next).run part (some (.ok (some child))) →
      final.Keeps (hierarchy.attach next.parent child) →
      invariant (hierarchy.attach next.parent child) (rest ++ child.pending))
    {steps : Nat} {pending : List PendingPipeline}
    (held : Held (followBridges steps allowance hierarchy errors pending).run turns
      (some (.ok (final, failures))))
    (start : invariant hierarchy pending) : invariant final [] := by
  induction steps generalizing turns hierarchy errors pending with
  | zero =>
    cases pending with
    | nil =>
      cases held
      exact start
    | cons next rest => cases held
  | succ steps inductionHypothesis =>
    cases pending with
    | nil =>
      cases held
      exact start
    | cons next rest =>
      rw [followBridges] at held
      split at held
      · exact inductionHypothesis attached held (dropped _ _ _ start)
      · next unknown =>
        rcases Attempt.held_outcome_bind held with
          ⟨stopped, _⟩ | ⟨outcome, front, back, rfl, lookedUp, latter⟩
        · cases stopped
        · have attachedLater := fun hierarchy next rest child part holds absent within =>
            attached hierarchy next rest child part holds absent
              (List.IsInfix.trans within (List.suffix_append front back).isInfix)
          rcases outcome with error | _ | child
          · dsimp only at latter
            split at latter
            · cases latter
            · exact inductionHypothesis attachedLater latter (dropped _ _ _ start)
          · exact inductionHypothesis attachedLater latter (dropped _ _ _ start)
          · exact inductionHypothesis attachedLater latter
              (attached _ _ _ _ _ start (Bool.eq_false_iff.mpr unknown)
                (List.prefix_append front back).isInfix lookedUp (kept_of_followBridges latter))

/-- A pipeline that a reference names is attached below a bridge that started it. -/
theorem PipelineHierarchy.IsTraceable.attach_found {next : PendingPipeline}
    {rest : List PendingPipeline} {pipeline : Pipeline} (traceable : hierarchy.IsTraceable)
    (hanging : Hanging ⟨hierarchy, errors, next :: rest⟩) (jobs : List JobWithArtifacts)
    (named : pipeline.id = next.reference.id) :
    (hierarchy.attach next.parent (.ofJobs pipeline jobs)).IsTraceable := by
  obtain ⟨above, inside, isPending⟩ := hanging.origins next List.mem_cons_self
  refine traceable.attach (isConsistent_ofJobs pipeline jobs) rfl fun entry member same => ?_
  rw [HierarchyEntry.parent_of_mem_pending isPending] at same
  rw [traceable.tree.eq_of_id member inside same]
  have started := exists_started_of_mem_pending isPending
  rwa [← named] at started

/-- A walk over bridges keeps a traceable hierarchy where references are answered by name. -/
theorem isTraceable_of_followBridges {steps : Nat} {pending : List PendingPipeline}
    (held : Held (followBridges steps allowance hierarchy errors pending).run turns
      (some (.ok (final, failures))))
    (named : AnsweredByName turns final) (traceable : hierarchy.IsTraceable)
    (hanging : Hanging ⟨hierarchy, [], pending⟩) : final.IsTraceable := by
  refine (holds_of_followBridges (fun hierarchy pending =>
    hierarchy.IsTraceable ∧ Hanging ⟨hierarchy, [], pending⟩) ?_ ?_ held ⟨traceable, hanging⟩).1
  · rintro hierarchy next rest ⟨traceable, hanging⟩
    exact ⟨traceable, hanging.pop⟩
  · rintro hierarchy next rest _ part ⟨traceable, hanging⟩ absent within lookedUp keeps
    obtain ⟨node, pipeline, jobs, answered, converts, rfl⟩ := exists_of_fetchPending lookedUp
    have parsed := (toPipeline_eq_ok converts).1
    -- The reference is still one of the hierarchy at the end, so its answer is named.
    have isNamed : pipeline.id = next.reference.id := by
      obtain ⟨above, inside, isPending⟩ := hanging.origins next List.mem_cons_self
      have keepsBefore := keeps.trans (PipelineHierarchy.keeps_attach ..)
      obtain ⟨later, isLater, _, isPending⟩ := keepsBefore.exists_mem_pending inside isPending
      exact named later isLater next isPending node pipeline.id (within.subset answered) parsed
    exact ⟨traceable.attach_found hanging jobs isNamed, hanging.attach absent isNamed⟩

/-- A hierarchy that was fetched is traceable where references were answered by name. -/
theorem isTraceable_of_fetchHierarchy {projectId : Int} {path : String} {node : PipelineNode}
    (held : Held (fetchHierarchy allowance projectId path node).run turns
      (some (.ok (some hierarchy, failures))))
    (named : AnsweredByName turns hierarchy) :
    hierarchy.IsTraceable ∧ GlobalId.parse node.id = .ok hierarchy.root := by
  obtain ⟨found, front, back, rfl, fetched, held⟩ := Attempt.held_bind_ok held
  cases found with
  | none => cases held
  | some entry =>
    obtain ⟨⟨complete, errors⟩, walking, _, rfl, walked, ended⟩ := Attempt.held_bind_ok held
    cases ended
    obtain ⟨pipeline, jobs, converts, rfl⟩ := exists_of_fetchEntry fetched
    have start : (PipelineHierarchy.ofRoot (.ofJobs pipeline jobs)).IsTraceable := by
      refine ⟨.ofRoot rfl, fun entry member => ?_⟩
      rw [List.mem_singleton.mp member]
      exact isConsistent_ofJobs pipeline jobs
    have namedWalk : AnsweredByName walking hierarchy :=
      named.of_subset fun _ inside => List.mem_append_right _ (List.mem_append_left _ inside)
    refine ⟨isTraceable_of_followBridges walked namedWalk start (Hanging.start _), ?_⟩
    rw [(kept_of_followBridges walked).1]
    exact (toPipeline_eq_ok converts).1

end Walk

/-! ### Job logs -/

section Logs

variable {hierarchy : PipelineHierarchy} {entry : HierarchyEntry} {logs : List JobLog}

/-- A hierarchy with the same ids and links is as much of a tree. -/
theorem PipelineHierarchy.IsTree.congr {other : PipelineHierarchy} (tree : hierarchy.IsTree)
    (sameRoot : other.root = hierarchy.root)
    (same : other.entries.map (fun entry => (entry.id, entry.downstream)) =
      hierarchy.entries.map fun entry => (entry.id, entry.downstream)) : other.IsTree := by
  have ids : other.entries.map (·.id) = hierarchy.entries.map (·.id) := by
    have first := congrArg (List.map Prod.fst) same
    rwa [List.map_map, List.map_map] at first
  have links : other.entries.flatMap (·.downstream) = hierarchy.entries.flatMap (·.downstream) := by
    have second := congrArg (List.flatMap Prod.snd) same
    rwa [List.flatMap_map, List.flatMap_map] at second
  have descends : ∀ id, hierarchy.Descends id → other.Descends id := by
    intro id descends
    induction descends with
    | root =>
      rw [← sameRoot]
      exact .root
    | link member _ listed inductionHypothesis =>
      have there := List.mem_map_of_mem (f := fun entry => (entry.id, entry.downstream)) member
      rw [← same] at there
      obtain ⟨later, isLater, equal⟩ := List.mem_map.mp there
      obtain ⟨sameId, sameLinks⟩ := Prod.mk.inj equal
      exact .link isLater (sameId ▸ inductionHypothesis) (sameLinks ▸ listed)
  refine ⟨ids ▸ tree.distinct, ?_, fun entry member => descends _ ?_⟩
  · rw [sameRoot, ids, links]
    exact tree.links
  · have there := List.mem_map_of_mem (f := fun entry => entry.id) member
    rw [ids] at there
    obtain ⟨former, isFormer, equal⟩ := List.mem_map.mp there
    rw [← equal]
    exact tree.connected former isFormer

/-- The log of a job of an entry. -/
def HierarchyEntry.IsOwnLog (entry : HierarchyEntry) (log : JobLog) : Prop :=
  ∃ job ∈ entry.jobs, ∃ text, log = JobLog.ofLog job text

/-- Logs of its own jobs keep an entry consistent. -/
theorem HierarchyEntry.IsConsistent.addLogs (consistent : entry.IsConsistent)
    (own : ∀ log ∈ logs, entry.IsOwnLog log) : (entry.addLogs logs).IsConsistent := by
  refine ⟨consistent.jobs, consistent.bridges, consistent.started, fun part member => ?_⟩
  rcases List.mem_append.mp member with before | added
  · exact consistent.sections part before
  · obtain ⟨log, inside, isPart⟩ := List.mem_flatMap.mp added
    obtain ⟨job, isJob, text, rfl⟩ := own log inside
    obtain ⟨_, _, rfl⟩ := List.mem_map.mp isPart
    exact ⟨job, isJob, rfl⟩

/-- Every entry gets logs of its pipeline, and what is left over are some of the logs. -/
theorem attachToEntries_spec (logs : List JobLog) (entries : List HierarchyEntry) :
    List.Forall₂ (fun entry later => ∃ own : List JobLog, later = entry.addLogs own ∧
        ∀ log ∈ own, log ∈ logs ∧ log.pipelineId = entry.id)
      entries (attachToEntries logs entries).1 ∧
    ∀ log ∈ (attachToEntries logs entries).2, log ∈ logs := by
  induction entries generalizing logs with
  | nil => exact ⟨.nil, fun _ => id⟩
  | cons entry rest inductionHypothesis =>
    obtain ⟨each, left⟩ := inductionHypothesis (logs.filter (·.pipelineId != entry.id))
    rw [attachToEntries]
    refine ⟨.cons ⟨_, rfl, fun log member => ?_⟩ (each.imp ?_), fun log member => ?_⟩
    · obtain ⟨inside, same⟩ := List.mem_filter.mp member
      exact ⟨inside, beq_iff_eq.mp same⟩
    · rintro _ _ ⟨own, rfl, all⟩
      exact ⟨own, rfl, fun log member => ⟨List.mem_of_mem_filter (all log member).1,
        (all log member).2⟩⟩
    · exact List.mem_of_mem_filter (left log member)

/-- A hierarchy among others gets its share of some of the logs. -/
theorem exists_attachJobLogs (logs : List JobLog) {hierarchies : List PipelineHierarchy}
    {place : Nat} (placed : hierarchies[place]? = some hierarchy) :
    ∃ left : List JobLog, (∀ log ∈ left, log ∈ logs) ∧
      (attachJobLogs logs hierarchies)[place]? =
        some { hierarchy with entries := (attachToEntries left hierarchy.entries).1 } := by
  induction hierarchies generalizing logs place with
  | nil => cases placed
  | cons first rest inductionHypothesis =>
    rw [attachJobLogs]
    cases place with
    | zero =>
      cases placed
      exact ⟨logs, fun _ => id, rfl⟩
    | succ place =>
      obtain ⟨left, some, attached⟩ := inductionHypothesis _ placed
      exact ⟨left, fun log member => (attachToEntries_spec logs first.entries).2 log
        (some log member), attached⟩

/-- Attaching logs keeps a traceable hierarchy where those of its pipelines are of its jobs. -/
theorem PipelineHierarchy.IsTraceable.attachToEntries (traceable : hierarchy.IsTraceable)
    (own : ∀ log ∈ logs, hierarchy.contains log.pipelineId = true →
      ∃ entry ∈ hierarchy.entries, entry.IsOwnLog log) :
    IsTraceable
      { hierarchy with entries := (CiTelemetry.attachToEntries logs hierarchy.entries).1 } := by
  have each := (attachToEntries_spec logs hierarchy.entries).1
  have same : List.Forall₂ (· = ·)
      (hierarchy.entries.map fun entry => (entry.id, entry.downstream))
      ((CiTelemetry.attachToEntries logs hierarchy.entries).1.map fun entry =>
        (entry.id, entry.downstream)) := by
    rw [List.forall₂_map_left_iff, List.forall₂_map_right_iff]
    refine each.imp ?_
    rintro entry _ ⟨added, rfl, _⟩
    rfl
  rw [List.forall₂_eq_eq_eq] at same
  refine ⟨traceable.tree.congr rfl same.symm, fun later member => ?_⟩
  obtain ⟨entry, inside, added, rfl, ofPipeline⟩ := exists_of_forall₂ each.flip member
  refine (traceable.consistent entry inside).addLogs fun log isAdded => ?_
  obtain ⟨isLog, isOfPipeline⟩ := ofPipeline log isAdded
  have known := PipelineHierarchy.contains_of_mem inside
  rw [← isOfPipeline] at known
  -- The log is of a job of some entry, and only this one has the id that the job names.
  obtain ⟨other, isOther, job, isJob, text, rfl⟩ := own log isLog known
  have belongs : job.pipelineId = other.id := (traceable.consistent other isOther).jobs job isJob
  have sameEntry := traceable.tree.eq_of_id isOther inside (belongs.symm.trans isOfPipeline)
  exact ⟨job, sameEntry ▸ isJob, text, rfl⟩

end Logs

end CiTelemetry
