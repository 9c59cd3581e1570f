/-
This file proves which records are asked for one by one. Job logs, test reports,
deployments and runners each have a pool with one call for each of them, and
unless the run is cancelled every call of a pool is made, whatever the others are
answered. The fetch of hierarchies asks for none of these; what it brings are
trees of pipelines that no log has been attached to yet.
-/

import CiTelemetry.Proofs.Cancellation
import CiTelemetry.Proofs.FirstOccurrences
import CiTelemetry.Proofs.TraceableHierarchies
import Mathlib.Data.List.Perm.Basic

namespace CiTelemetry

open Dialogue

variable {α β : Type} {turns turns' : Turns}

/-! ### Details -/

/-- What is asked for one by one. -/
inductive Detail where
  | jobLog (projectId jobId : Int)
  | testReport (projectId pipelineId : Int)
  | deployments (projectId : Int) (window : SyncWindow)
  | runner (id : Int)
  deriving DecidableEq, Repr

/-- The question for a detail. -/
def Detail.query : Detail → Query
  | jobLog projectId jobId => .jobLog projectId jobId
  | testReport projectId pipelineId => .testReport projectId pipelineId
  | deployments projectId window => .deployments projectId window
  | runner id => .runner id

/-- The detail that a question asks for, if it asks for one. -/
def Action.detail? : Action → Option Detail
  | query (.jobLog projectId jobId) => some (.jobLog projectId jobId)
  | query (.testReport projectId pipelineId) => some (.testReport projectId pipelineId)
  | query (.deployments projectId window) => some (.deployments projectId window)
  | query (.runner id) => some (.runner id)
  | _ => none

theorem detail?_query (detail : Detail) : (Action.query detail.query).detail? = some detail := by
  cases detail <;> rfl

/-- Details belong to pipelines. -/
theorem detail?_of_subject {asked : Action} (other : asked.subject ≠ .ci) :
    asked.detail? = none := by
  cases asked with
  | query asked =>
    cases asked with
    | jobLog | testReport | deployments | runner => exact absurd rfl other
    | _ => rfl
  | _ => rfl

namespace Turns

/-- The details that are asked for in a run, call after call. -/
def details (turns : Turns) : List Detail :=
  (turns.map (·.asked)).filterMap (·.detail?)

theorem details_append : details (turns ++ turns') = details turns ++ details turns' := by
  rw [details, List.map_append, List.filterMap_append, details, details]

/-- What never asks for details asks for none. -/
theorem details_of_asks {dialogue : Sync α} {result : Option α}
    (asks : dialogue.Asks (·.detail? = none)) (held : Held dialogue turns result) :
    details turns = [] := by
  rw [details, List.filterMap_map]
  exact List.filterMap_eq_nil_iff.mpr (asks.asked held)

theorem details_of_keepsTo {dialogue : Sync α} {result : Option α} {subject : Subject}
    (about : KeepsTo subject dialogue) (other : subject ≠ .ci) (held : Held dialogue turns result) :
    details turns = [] := by
  rw [details, List.filterMap_map]
  refine List.filterMap_eq_nil_iff.mpr fun turn member => detail?_of_subject ?_
  rw [about.asked held turn member]
  exact other

/-- Nothing in a run says that it has been cancelled. -/
def Uncancelled (turns : Turns) : Prop :=
  ∀ turn ∈ turns, turn ≠ ⟨.isCancelled, true⟩ ∧ turn.isCancelledCall = false

theorem uncancelled_append :
    Uncancelled (turns ++ turns') ↔ Uncancelled turns ∧ Uncancelled turns' :=
  List.forall_mem_append

end Turns

/-! ### Pools of calls -/

/-- A task that is one call and fails as the call does. -/
def IsOneCall (asked : Query) (task : Fetch α) : Prop :=
  ∀ ⦃turns : Turns⦄ ⦃result : Option (Outcome α)⦄, Held task.run turns result →
    ∃ reply outcome, turns = [⟨.query asked, reply⟩] ∧ result = some outcome ∧
      ∀ error, outcome = .error error → reply = .error error

theorem isOneCall_query (asked : Query) : IsOneCall asked (Fetch.query asked) := by
  intro turns result held
  obtain ⟨reply, rfl, rfl⟩ := Held.of_question held
  exact ⟨reply, reply, rfl, rfl, fun _ => id⟩

theorem isOneCall_map (asked : Query) (change : asked.Answer → α) :
    IsOneCall asked (Fetch.query asked >>= fun answer => pure (change answer)) := by
  intro turns result held
  rcases Attempt.held_bind held with
    ⟨_, stopped⟩ | ⟨error, rfl, failed⟩ | ⟨value, front, back, rfl, former, latter⟩
  · obtain ⟨_, _, same⟩ := Held.of_question stopped
    cases same
  · obtain ⟨reply, rfl, same⟩ := Held.of_question failed
    cases same
    refine ⟨.error error, .error error, rfl, rfl, fun other same => ?_⟩
    cases same
    rfl
  · obtain ⟨reply, rfl, same⟩ := Held.of_question former
    cases same
    cases latter
    exact ⟨.ok value, .ok (change value), rfl, rfl, fun _ same => nomatch same⟩

section Pools

variable {items : List β} (detail : β → Detail) {task : β → Fetch α}
  (each : ∀ item, IsOneCall (detail item).query (task item))

include each

/-- Every task of a gathering makes its call. -/
theorem details_runTasks {gathered : Collected α} {result : Option (Outcome (Collected α))}
    (held : Held (runTasks gathered (items.map task)).run turns result)
    (goesOn : turns.Uncancelled) :
    turns.details = items.map detail ∧ ∃ collected, result = some (.ok collected) := by
  induction items generalizing gathered turns with
  | nil =>
    cases held
    exact ⟨rfl, gathered, rfl⟩
  | cons item rest inductionHypothesis =>
    rcases Attempt.held_outcome_bind held with
      ⟨_, stopped⟩ | ⟨outcome, front, back, rfl, called, latter⟩
    · obtain ⟨_, _, _, same, _⟩ := each item stopped
      cases same
    · obtain ⟨reply, _, rfl, same, fails⟩ := each item called
      cases same
      obtain ⟨inCall, inRest⟩ := Turns.uncancelled_append.mp goesOn
      -- Only a cancelled call keeps a pool from its other tasks.
      have further : ∃ known, Held (runTasks known (rest.map task)).run back result := by
        cases outcome with
        | ok value => exact ⟨_, latter⟩
        | error error =>
          have isFailure := fails error rfl
          subst isFailure
          have real : error.isCancelled = false := by
            have notCancelled := (inCall _ (List.mem_singleton_self _)).2
            cases error <;> first | rfl | cases notCancelled
          dsimp only at latter
          rw [real] at latter
          exact ⟨_, latter⟩
      obtain ⟨known, latter⟩ := further
      obtain ⟨others, ended⟩ := inductionHypothesis latter inRest
      refine ⟨?_, ended⟩
      rw [Turns.details_append, others, List.map_cons, Turns.details, List.map_singleton,
        List.filterMap_cons_some (detail?_query (detail item)), List.filterMap_nil]
      rfl

/-- Every task of a pool makes its call. -/
theorem details_runPool {result : Option (Outcome (Collected α))}
    (held : Held (runPool (items.map task)).run turns result) (goesOn : turns.Uncancelled) :
    turns.details = items.map detail ∧ ∃ collected, result = some (.ok collected) := by
  rcases Attempt.held_lift_bind held with
    ⟨_, stopped⟩ | ⟨isCancelled, front, back, rfl, asked, latter⟩
  · obtain ⟨_, _, same⟩ := Held.of_question stopped
    cases same
  · obtain ⟨inQuestion, inTasks⟩ := Turns.uncancelled_append.mp goesOn
    obtain ⟨reply, rfl, same⟩ := Held.of_question asked
    cases same
    cases isCancelled with
    | true => exact absurd rfl (inQuestion _ (List.mem_singleton_self _)).1
    | false =>
      have tasksHeld : Held (runTasks .empty (items.map task)).run back result := latter
      obtain ⟨called, ended⟩ := details_runTasks detail each tasksHeld inTasks
      rw [Turns.details_append, called]
      exact ⟨rfl, ended⟩

end Pools

/-- What was gathered was there before or is the value of a task. -/
theorem held_of_mem_runTasks {tasks : List (Fetch α)} {gathered collected : Collected α}
    (held : Held (runTasks gathered tasks).run turns (some (.ok collected))) :
    ∀ value ∈ collected.values, value ∈ gathered.values ∨
      ∃ task ∈ tasks, ∃ part : Turns, part ⊆ turns ∧ Held task.run part (some (.ok value)) := by
  induction tasks generalizing gathered turns with
  | nil =>
    cases held
    exact fun value member => .inl member
  | cons task rest inductionHypothesis =>
    rcases Attempt.held_outcome_bind held with
      ⟨stopped, _⟩ | ⟨outcome, front, back, rfl, ended, latter⟩
    · cases stopped
    · intro value member
      have later : (∃ task' ∈ rest, ∃ part : Turns, part ⊆ back ∧
          Held task'.run part (some (.ok value))) → ∃ task' ∈ task :: rest, ∃ part : Turns,
            part ⊆ front ++ back ∧ Held task'.run part (some (.ok value)) := by
        rintro ⟨other, isTask, part, inside, otherHeld⟩
        exact ⟨other, List.mem_cons_of_mem _ isTask, part,
          List.Subset.trans inside (List.subset_append_right front back), otherHeld⟩
      cases outcome with
      | ok own =>
        rcases inductionHypothesis latter value member with known | found
        · rcases List.mem_append.mp known with before | isOwn
          · exact .inl before
          · rw [List.mem_singleton.mp isOwn]
            exact .inr ⟨task, List.mem_cons_self, front, List.subset_append_left front back, ended⟩
        · exact .inr (later found)
      | error error =>
        dsimp only at latter
        split at latter
        · cases latter
        · exact (inductionHypothesis latter value member).imp id later

theorem held_of_mem_runPool {tasks : List (Fetch α)} {collected : Collected α}
    (held : Held (runPool tasks).run turns (some (.ok collected))) :
    ∀ value ∈ collected.values,
      ∃ task ∈ tasks, ∃ part : Turns, part ⊆ turns ∧ Held task.run part (some (.ok value)) := by
  rcases Attempt.held_lift_bind held with
    ⟨stopped, _⟩ | ⟨isCancelled, front, back, rfl, _, latter⟩
  · cases stopped
  · cases isCancelled with
    | true => cases latter
    | false =>
      intro value member
      rcases held_of_mem_runTasks latter value member with before | found
      · cases before
      · obtain ⟨task, isTask, part, inside, taskHeld⟩ := found
        exact ⟨task, isTask, part,
          List.Subset.trans inside (List.subset_append_right front back), taskHeld⟩

/-! ### Distinct numbers -/

theorem mem_insertRising {number other : Int} {numbers : List Int} :
    other ∈ insertRising number numbers ↔ other = number ∨ other ∈ numbers := by
  induction numbers with
  | nil => rw [insertRising, List.mem_singleton, or_iff_left List.not_mem_nil]
  | cons first rest inductionHypothesis =>
    rw [insertRising]
    split
    · exact List.mem_cons
    · split
      · next same =>
        subst same
        exact ⟨.inr, fun found => found.elim (fun same => same ▸ List.mem_cons_self) id⟩
      · rw [List.mem_cons, inductionHypothesis, List.mem_cons, or_left_comm]

/-- Rising numbers stay so. -/
theorem pairwise_insertRising {number : Int} {numbers : List Int}
    (rising : numbers.Pairwise (· < ·)) : (insertRising number numbers).Pairwise (· < ·) := by
  induction numbers with
  | nil => exact List.pairwise_singleton ..
  | cons first rest inductionHypothesis =>
    obtain ⟨above, restRising⟩ := List.pairwise_cons.mp rising
    rw [insertRising]
    split
    · next less =>
      refine List.pairwise_cons.mpr ⟨fun other member => ?_, rising⟩
      rcases List.mem_cons.mp member with rfl | later
      · exact less
      · exact less.trans (above other later)
    · split
      · exact rising
      · refine List.pairwise_cons.mpr ⟨fun other member => ?_, inductionHypothesis restRising⟩
        rcases mem_insertRising.mp member with rfl | later
        · omega
        · exact above other later

/-- The numbers of a list, each once. -/
theorem distinctRising_perm (numbers : List Int) :
    (distinctRising numbers).Perm numbers.eraseDups := by
  have rising : (distinctRising numbers).Pairwise (· < ·) ∧
      ∀ number, number ∈ distinctRising numbers ↔ number ∈ numbers := by
    induction numbers with
    | nil => exact ⟨.nil, fun _ => .rfl⟩
    | cons first rest inductionHypothesis =>
      obtain ⟨rising, same⟩ := inductionHypothesis
      refine ⟨pairwise_insertRising rising, fun number => ?_⟩
      rw [List.mem_cons, ← same]
      exact mem_insertRising
  have distinct : (distinctRising numbers).Nodup := rising.1.imp fun less => Int.ne_of_lt less
  rw [List.perm_ext_iff_of_nodup distinct (nodup_eraseDups numbers)]
  intro number
  rw [rising.2, List.mem_eraseDups]

/-! ### The fetches of details -/

section Details

variable {result : Option (Outcome (Collected α))} {window : SyncWindow}

/-- A fetch that only changes the value of another one takes its turns. -/
theorem held_of_held_map {fetch : Fetch α} {change : α → β} {result : Option (Outcome β)}
    (held : Held (fetch >>= fun value => pure (change value)).run turns result) :
    ∃ before, Held fetch.run turns before := by
  rcases Attempt.held_bind held with
    ⟨_, stopped⟩ | ⟨error, _, failed⟩ | ⟨value, front, back, rfl, former, latter⟩
  · exact ⟨none, stopped⟩
  · exact ⟨some (.error error), failed⟩
  · cases latter
    rw [List.append_nil]
    exact ⟨some (.ok value), former⟩

/-- The logs of all jobs that have started are asked for. -/
theorem details_fetchJobLogs {jobs : List Job} {result : Option (Outcome (Collected JobLog))}
    (held : Held (fetchJobLogs jobs).run turns result) (goesOn : turns.Uncancelled) :
    turns.details = (jobs.filter (·.startedAt.isSome)).map fun job =>
      .jobLog job.projectId job.id :=
  (details_runPool (fun job : Job => .jobLog job.projectId job.id)
    (fun job => isOneCall_map (.jobLog job.projectId job.id) _) held goesOn).1

/-- The reports of all pipelines that have finished are asked for. -/
theorem details_fetchTestReports {pipelines : List Pipeline}
    {result : Option (Outcome (Collected TestReport))}
    (held : Held (fetchTestReports pipelines).run turns result) (goesOn : turns.Uncancelled) :
    turns.details = (pipelines.filter (·.finishedAt.isSome)).map fun pipeline =>
      .testReport pipeline.projectId pipeline.id := by
  obtain ⟨_, pool⟩ := held_of_held_map held
  exact (details_runPool
    (fun pipeline : Pipeline => .testReport pipeline.projectId pipeline.id)
    (fun pipeline => isOneCall_query (.testReport pipeline.projectId pipeline.id)) pool goesOn).1

theorem details_fetchDeployments {ids : List Int}
    {result : Option (Outcome (Collected Deployment))}
    (held : Held (fetchDeployments ids window).run turns result) (goesOn : turns.Uncancelled) :
    turns.details = ids.map (.deployments · window) := by
  obtain ⟨_, pool⟩ := held_of_held_map held
  exact (details_runPool (fun id : Int => .deployments id window)
    (fun id => isOneCall_query (.deployments id window)) pool goesOn).1

/-- Every runner is asked for once. -/
theorem details_fetchRunners {ids : List Int} {result : Option (Outcome (Collected Runner))}
    (held : Held (fetchRunners ids).run turns result) (goesOn : turns.Uncancelled) :
    turns.details.Perm (ids.eraseDups.map .runner) := by
  rw [(details_runPool (fun id : Int => .runner id)
    (fun id => isOneCall_query (.runner id)) held goesOn).1]
  exact (distinctRising_perm ids).map _

/-- A log that was fetched is that of a job that has started, as it was answered. -/
theorem answered_of_mem_fetchJobLogs {jobs : List Job} {collected : Collected JobLog}
    (held : Held (fetchJobLogs jobs).run turns (some (.ok collected))) :
    ∀ log ∈ collected.values, ∃ job ∈ jobs, job.startedAt.isSome ∧ ∃ text,
      (⟨.query (.jobLog job.projectId job.id), .ok text⟩ : Turn Action Action.Reply) ∈ turns ∧
        log = .ofLog job text := by
  intro log member
  obtain ⟨task, isTask, part, inside, taskHeld⟩ := held_of_mem_runPool held log member
  obtain ⟨job, isJob, rfl⟩ := List.mem_map.mp isTask
  obtain ⟨isListed, hasStarted⟩ := List.mem_filter.mp isJob
  obtain ⟨text, front, back, rfl, asked, ended⟩ := Attempt.held_bind_ok taskHeld
  obtain ⟨_, rfl, same⟩ := Held.of_question asked
  cases same
  cases ended
  exact ⟨job, isListed, hasStarted, text, inside List.mem_cons_self, rfl⟩

end Details

/-! ### The fetch of hierarchies -/

/-- The fetch of hierarchies asks for no details. -/
theorem details_fetchPipelineHierarchies {allowance : Nat} {ids : List Int} {window : SyncWindow}
    {result : Option (Outcome (Collected PipelineHierarchy))}
    (held : Held (fetchPipelineHierarchies allowance ids window).run turns result) :
    turns.details = [] := by
  refine Turns.details_of_asks ?_ held
  refine (Asks.fetchPipelineHierarchies allowance ids window).mono fun asked isAsked => ?_
  cases asked with
  | query asked => cases asked <;> first | rfl | cases isAsked
  | _ => rfl

/-- A tree of pipelines without anything of their logs. -/
structure PipelineHierarchy.IsFresh (hierarchy : PipelineHierarchy) : Prop where
  tree : hierarchy.IsTree
  sections : ∀ entry ∈ hierarchy.entries, entry.sections = []
  metrics : ∀ entry ∈ hierarchy.entries, entry.metrics = []

section Fresh

variable {hierarchy final : PipelineHierarchy} {allowance : Nat} {errors failures : List SyncError}

theorem PipelineHierarchy.IsFresh.ofRoot (pipeline : Pipeline) (jobs : List JobWithArtifacts) :
    (PipelineHierarchy.ofRoot (.ofJobs pipeline jobs)).IsFresh where
  tree := .ofRoot rfl
  sections _ member := by
    rw [List.mem_singleton.mp member]
    rfl
  metrics _ member := by
    rw [List.mem_singleton.mp member]
    rfl

theorem PipelineHierarchy.IsFresh.attach (fresh : hierarchy.IsFresh) (parent : Int)
    (pipeline : Pipeline) (jobs : List JobWithArtifacts) :
    (hierarchy.attach parent (.ofJobs pipeline jobs)).IsFresh := by
  refine ⟨fresh.tree.attach parent rfl, fun entry member => ?_, fun entry member => ?_⟩
  · rcases PipelineHierarchy.mem_attach member with ⟨former, inside, same⟩ | rfl
    · have kept : entry.sections = former.sections := congrArg (·.sections) same
      rw [kept, fresh.sections former inside]
    · rfl
  · rcases PipelineHierarchy.mem_attach member with ⟨former, inside, same⟩ | rfl
    · have kept : entry.metrics = former.metrics := congrArg (·.metrics) same
      rw [kept, fresh.metrics former inside]
    · rfl

/-- A walk over bridges keeps a fresh hierarchy, whatever the references are answered with. -/
theorem isFresh_of_followBridges {steps : Nat} {pending : List PendingPipeline}
    (held : Held (followBridges steps allowance hierarchy errors pending).run turns
      (some (.ok (final, failures))))
    (fresh : hierarchy.IsFresh) : final.IsFresh := by
  refine holds_of_followBridges (fun hierarchy _ => hierarchy.IsFresh) (fun _ _ _ fresh => fresh)
    ?_ held fresh
  intro hierarchy next rest child part fresh _ _ lookedUp _
  obtain ⟨_, pipeline, jobs, _, _, rfl⟩ := exists_of_fetchPending lookedUp
  exact fresh.attach next.parent pipeline jobs

theorem isFresh_of_fetchHierarchy {projectId : Int} {path : String} {node : PipelineNode}
    (held : Held (fetchHierarchy allowance projectId path node).run turns
      (some (.ok (some hierarchy, failures)))) : hierarchy.IsFresh := by
  obtain ⟨found, front, back, rfl, fetched, held⟩ := Attempt.held_bind_ok held
  cases found with
  | none => cases held
  | some entry =>
    obtain ⟨⟨complete, errors⟩, walking, _, rfl, walked, ended⟩ := Attempt.held_bind_ok held
    cases ended
    obtain ⟨pipeline, jobs, _, rfl⟩ := exists_of_fetchEntry fetched
    exact isFresh_of_followBridges walked (.ofRoot pipeline jobs)

/-- Every hierarchy that is fetched is fresh. -/
theorem isFresh_of_fetchPipelineHierarchies {ids : List Int} {window : SyncWindow}
    {outcome : Outcome (Collected PipelineHierarchy)}
    (held : Held (fetchPipelineHierarchies allowance ids window).run turns (some outcome)) :
    ∀ hierarchy ∈ (settle outcome).1, hierarchy.IsFresh := by
  cases outcome with
  | error error =>
    intro hierarchy member
    cases member
  | ok collected =>
    rw [fetchPipelineHierarchies] at held
    split at held
    · cases held
      intro hierarchy member
      cases member
    · obtain ⟨projects, _, _, rfl, _, held⟩ := Attempt.held_bind_ok held
      obtain ⟨gathered, pool, _, rfl, gathering, ended⟩ := Attempt.held_bind_ok held
      cases ended
      intro hierarchy member
      obtain ⟨⟨found, failures⟩, isValue, rfl⟩ := List.mem_filterMap.mp member
      obtain ⟨task, isTask, part, _, taskHeld⟩ := held_of_mem_runPool gathering _ isValue
      obtain ⟨root, _, rfl⟩ := List.mem_map.mp isTask
      exact isFresh_of_fetchHierarchy taskHeld

end Fresh

end CiTelemetry
