/-
This file tells what each part of a synchronization asks about. The fetch of
changes, the fetches of pipelines and what belongs to them, the fetch of merge
requests and the exporter each keep to questions of their own, whatever the
replies are.
-/

import CiTelemetry.Proofs.Conversations
import CiTelemetry.Sync.Process

namespace CiTelemetry

open Dialogue

/-! ### Pages -/

namespace Dialogue.Asks

variable {Op : Type} {Reply : Op → Type} {α β : Type} {allowed : Op → Prop}

section Pages

variable {source : PageSource Op Reply α} (asks : ∀ cursor, (source cursor).run.Asks allowed)

include asks

theorem next? (paginator : Paginator) : (Paginator.next? source paginator).run.Asks allowed := by
  rw [Paginator.next?]
  split
  · trivial
  · exact Attempt.asks_bind (asks _) fun _ => trivial

theorem collect (allowance : Nat) (paginator : Paginator) :
    (Paginator.collect source allowance paginator).run.Asks allowed := by
  induction allowance generalizing paginator with
  | zero => trivial
  | succ allowance inductionHypothesis =>
    refine Attempt.asks_bind (next? asks paginator) fun page => ?_
    cases page with
    | none => trivial
    | some page => exact Attempt.asks_bind (inductionHypothesis page.2) fun _ => trivial

theorem drain (allowance : Nat) (first : Page α) :
    (CiTelemetry.drain source allowance first).run.Asks allowed := by
  rw [CiTelemetry.drain]
  split
  · trivial
  · exact Attempt.asks_bind (collect asks allowance _) fun _ => trivial

end Pages

section NestedPages

variable {inside : α → Page β} {outer : PageSource Op Reply α} {source : α → PageSource Op Reply β}
  (asksInside : ∀ parent cursor, (source parent cursor).run.Asks allowed)

include asksInside

theorem drainEach (allowance : Nat) (parents : List α) :
    (CiTelemetry.drainEach inside source allowance parents).run.Asks allowed := by
  induction parents with
  | nil => trivial
  | cons parent rest inductionHypothesis =>
    refine Attempt.asks_bind (drain (asksInside parent) allowance _) fun _ => ?_
    exact Attempt.asks_bind inductionHypothesis fun _ => trivial

theorem flattenNested (asks : ∀ cursor, (outer cursor).run.Asks allowed)
    (allowance innerAllowance : Nat) (paginator : Paginator) :
    (CiTelemetry.flattenNested outer inside source allowance innerAllowance
      paginator).run.Asks allowed := by
  induction allowance generalizing paginator with
  | zero => trivial
  | succ allowance inductionHypothesis =>
    refine Attempt.asks_bind (next? asks paginator) fun page => ?_
    cases page with
    | none => trivial
    | some page =>
      refine Attempt.asks_bind (drainEach asksInside innerAllowance page.1) fun _ => ?_
      exact Attempt.asks_bind (inductionHypothesis page.2) fun _ => trivial

end NestedPages

/-! ### Tasks -/

section Tasks

variable {allowed : Action → Prop}

theorem query {asked : Query} (isAllowed : allowed (.query asked)) :
    (Fetch.query asked).run.Asks allowed :=
  Asks.question isAllowed

theorem runTasks {tasks : List (Fetch α)} (asks : ∀ task ∈ tasks, task.run.Asks allowed)
    (gathered : Collected α) : (CiTelemetry.runTasks gathered tasks).run.Asks allowed := by
  induction tasks generalizing gathered with
  | nil => trivial
  | cons task rest inductionHypothesis =>
    have others := fun gathered => inductionHypothesis
      (fun task member => asks task (List.mem_cons_of_mem _ member)) gathered
    refine Attempt.asks_bind (Attempt.asks_outcome (asks task List.mem_cons_self)) fun result => ?_
    cases result with
    | ok value => exact others _
    | error error =>
      dsimp only
      split
      · trivial
      · exact others _

/-- A pool with one task for each element of a list. -/
theorem runPool_map {items : List β} {task : β → Fetch α} (mayAsk : allowed .isCancelled)
    (asks : ∀ item, (task item).run.Asks allowed) :
    (runPool (items.map task)).run.Asks allowed := by
  refine Attempt.asks_bind (Asks.bind (Asks.question mayAsk) fun _ => trivial)
    fun isCancelled => ?_
  cases isCancelled with
  | true => trivial
  | false =>
    refine runTasks (fun _ member => ?_) .empty
    obtain ⟨item, _, rfl⟩ := List.mem_map.mp member
    exact asks item

end Tasks

end Dialogue.Asks

/-! ### The fetch of hierarchies -/

/-- The questions of the fetch of hierarchies. -/
def Action.IsOfHierarchies : Action → Prop
  | query (.projectsPipelines ..) | query (.projectPipelines ..) | query (.pipeline ..)
  | query (.pipelineJobs ..) | query (.jobArtifacts ..) | isCancelled => True
  | _ => False

namespace Dialogue.Asks

theorem fetchArtifacts (allowance : Nat) (path : String) (nodes : List JobNode) :
    (CiTelemetry.fetchArtifacts allowance path nodes).run.Asks Action.IsOfHierarchies := by
  induction nodes with
  | nil => trivial
  | cons node rest inductionHypothesis =>
    refine Attempt.asks_bind (Asks.drain (fun _ => query trivial) allowance _) fun _ => ?_
    exact Attempt.asks_bind inductionHypothesis fun _ => trivial

theorem fetchEntry (allowance : Nat) (projectId : Int) (path : String) (node : PipelineNode) :
    (CiTelemetry.fetchEntry allowance projectId path node).run.Asks Action.IsOfHierarchies := by
  rw [CiTelemetry.fetchEntry]
  split
  · trivial
  · refine Attempt.asks_bind (Asks.drain (fun _ => query trivial) allowance _) fun jobs => ?_
    exact Attempt.asks_bind (fetchArtifacts allowance path jobs) fun _ => trivial

theorem fetchPending (allowance : Nat) (pending : PendingPipeline) :
    (CiTelemetry.fetchPending allowance pending).run.Asks Action.IsOfHierarchies := by
  refine Attempt.asks_bind (query trivial) fun found => ?_
  cases found with
  | none => trivial
  | some node => exact fetchEntry allowance _ _ node

theorem followBridges (steps allowance : Nat) (hierarchy : PipelineHierarchy)
    (errors : List SyncError) (pending : List PendingPipeline) :
    (CiTelemetry.followBridges steps allowance hierarchy errors pending).run.Asks
      Action.IsOfHierarchies := by
  induction steps generalizing hierarchy errors pending with
  | zero => cases pending <;> trivial
  | succ steps inductionHypothesis =>
    cases pending with
    | nil => trivial
    | cons next rest =>
      rw [CiTelemetry.followBridges]
      split
      · exact inductionHypothesis _ _ _
      · have fetching := fetchPending allowance next
        refine Attempt.asks_bind (Attempt.asks_outcome fetching) fun found => ?_
        rcases found with error | _ | child
        · dsimp only
          split
          · trivial
          · exact inductionHypothesis _ _ _
        · exact inductionHypothesis _ _ _
        · exact inductionHypothesis _ _ _

theorem fetchHierarchy (allowance : Nat) (projectId : Int) (path : String) (root : PipelineNode) :
    (CiTelemetry.fetchHierarchy allowance projectId path root).run.Asks
      Action.IsOfHierarchies := by
  refine Attempt.asks_bind (fetchEntry allowance projectId path root) fun entry => ?_
  cases entry with
  | none => trivial
  | some entry => exact Attempt.asks_bind (followBridges _ _ _ _ _) fun _ => trivial

theorem fetchPipelineHierarchies (allowance : Nat) (ids : List Int) (window : SyncWindow) :
    (CiTelemetry.fetchPipelineHierarchies allowance ids window).run.Asks
      Action.IsOfHierarchies := by
  rw [CiTelemetry.fetchPipelineHierarchies]
  split
  · trivial
  · refine Attempt.asks_bind
      (Asks.flattenNested (fun _ _ => query trivial) (fun _ => query trivial) _ _ _)
      fun projects => ?_
    refine Attempt.asks_bind ?_ fun _ => trivial
    exact runPool_map trivial fun root => fetchHierarchy allowance _ _ _

end Dialogue.Asks

/-! ### Subjects -/

/-- What a question of a synchronization is about. -/
inductive Subject where
  | changes
  /-- Pipelines with everything that belongs to them. Only their fetches ask whether the
  synchronization was cancelled while a batch is processed. -/
  | ci
  | mergeRequests
  | delivery
  /-- What the processing of a batch never asks. -/
  | surroundings
  deriving DecidableEq, Repr

def Query.subject : Query → Subject
  | projectChanges .. => .changes
  | projectsPipelines .. | projectPipelines .. | pipeline .. | pipelineJobs .. | jobArtifacts ..
  | jobLog .. | testReport .. | deployments .. | runner .. => .ci
  | mergeRequests .. | projectMergeRequests .. => .mergeRequests
  | namespaceKind .. | namespaceProjects .. | project .. | readiness => .surroundings

def Action.subject : Action → Subject
  | query asked => asked.subject
  | isCancelled => .ci
  | send .. => .delivery
  | now | waitUntil _ => .surroundings

/-- A dialogue keeps to questions about one subject. -/
abbrev KeepsTo {α : Type} (subject : Subject) (dialogue : Sync α) : Prop :=
  dialogue.Asks (·.subject = subject)

namespace KeepsTo

variable {α β : Type} {subject : Subject}

theorem query {asked : Query} (about : asked.subject = subject) :
    KeepsTo subject (Fetch.query asked).run :=
  Asks.question about

theorem runPool_map {items : List β} {task : β → Fetch α}
    (about : ∀ item, KeepsTo .ci (task item).run) :
    KeepsTo .ci (runPool (items.map task)).run :=
  Asks.runPool_map rfl about

/-! ### The fetches -/

theorem fetchProjectChanges (allowance : Nat) (ids : List Int) (window : SyncWindow) :
    KeepsTo .changes (CiTelemetry.fetchProjectChanges allowance ids window).run := by
  rw [CiTelemetry.fetchProjectChanges]
  split
  · trivial
  · exact Attempt.asks_bind (Asks.collect (fun _ => query rfl) allowance _) fun _ => trivial

theorem fetchPipelineHierarchies (allowance : Nat) (ids : List Int) (window : SyncWindow) :
    KeepsTo .ci (CiTelemetry.fetchPipelineHierarchies allowance ids window).run := by
  refine (Asks.fetchPipelineHierarchies allowance ids window).mono fun asked isAsked => ?_
  cases asked with
  | query asked => cases asked <;> first | rfl | cases isAsked
  | isCancelled => rfl
  | _ => cases isAsked

theorem fetchCi (context : SyncContext) (projects : List ProjectSettings) (window : SyncWindow) :
    KeepsTo .ci (CiTelemetry.fetchCi context projects window) := by
  refine Asks.bind (fetchPipelineHierarchies _ _ _) fun hierarchies => ?_
  refine Asks.bind (runPool_map fun job => Attempt.asks_bind (query rfl) fun _ => trivial)
    fun logs => ?_
  refine Asks.bind (Attempt.asks_bind (runPool_map fun pipeline => query rfl) fun _ => trivial)
    fun reports => ?_
  refine Asks.bind (Attempt.asks_bind (runPool_map fun id => query rfl) fun _ => trivial)
    fun deployments => ?_
  exact Asks.bind (runPool_map fun id => query rfl) fun _ => trivial

theorem fetchMergeRequests (allowance : Nat) (ids : List Int) (window : SyncWindow) :
    KeepsTo .mergeRequests (CiTelemetry.fetchMergeRequests allowance ids window).run := by
  have pass : ∀ pass : MergeRequestPass,
      KeepsTo .mergeRequests (fetchMergeRequestPass allowance ids window pass).run :=
    fun pass => Asks.flattenNested (fun _ _ => query rfl) (fun _ => query rfl) _ _ _
  rw [CiTelemetry.fetchMergeRequests]
  split
  · trivial
  · refine Attempt.asks_bind (pass .core) fun core => ?_
    refine Attempt.asks_bind (pass .extra) fun extra => ?_
    exact Attempt.asks_bind (pass .participants) fun participants => trivial

/-! ### The exporter -/

theorem sendToEach (kind : EntityKind) (values : List Json) (sinks : List Nat) :
    KeepsTo .delivery (Exporter.sendToEach kind values sinks) := by
  induction sinks with
  | nil => trivial
  | cons sink rest inductionHypothesis =>
    refine Asks.bind (Asks.question rfl) fun outcome => ?_
    refine Asks.bind inductionHypothesis fun refusals => ?_
    cases outcome <;> trivial

theorem send (exporter : Exporter) (kind : EntityKind) (values : List Json) :
    KeepsTo .delivery (exporter.send kind values) := by
  rw [Exporter.send]
  split
  · trivial
  · exact Asks.bind (sendToEach kind values _) fun _ => trivial

theorem exportBatch (exporter : Exporter) (batch : ExportBatch) :
    KeepsTo .delivery (exporter.exportBatch batch) := by
  have kinds : KeepsTo .delivery (exporter.sendKinds batch) := by
    induction batch with
    | nil => trivial
    | cons part rest inductionHypothesis =>
      refine Asks.bind (send exporter part.1 part.2) fun outcome => ?_
      refine Asks.bind inductionHypothesis fun failures => ?_
      cases outcome <;> trivial
  exact Asks.bind kinds fun _ => trivial

end KeepsTo

end CiTelemetry
