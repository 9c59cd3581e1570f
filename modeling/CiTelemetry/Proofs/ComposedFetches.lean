/-
This file proves, once for all, what can be proved of fetches from their parts.
A property that every call has, and that a fetch has whenever the calls it is
made of have it, is a property of the walks over pages and of the fetches that
end with their first failure.
-/

import CiTelemetry.Fetch.MergeRequests
import CiTelemetry.Fetch.Pipelines

namespace CiTelemetry

/-- A property of every call that is passed on to the fetches made of calls. -/
structure Composes (Holds : ∀ α : Type, Fetch α → Prop) : Prop where
  pure : ∀ {α : Type} (value : α), Holds α (Pure.pure value)
  stalled : ∀ α : Type, Holds α Attempt.stalled
  query : ∀ asked, Holds _ (Fetch.query asked)
  bind : ∀ {α β : Type} {fetch : Fetch α} {next : α → Fetch β}, Holds α fetch →
    (∀ value, Holds β (next value)) → Holds β (fetch >>= next)

namespace Composes

variable {Holds : ∀ α : Type, Fetch α → Prop} {α β : Type} (composes : Composes Holds)

include composes

/-- A fetch that only changes the value of another one. -/
theorem map {fetch : Fetch α} (change : α → β) (first : Holds α fetch) :
    Holds β (fetch >>= fun value => Pure.pure (change value)) :=
  composes.bind first fun value => composes.pure (change value)

/-! ### Pages -/

section Pages

variable {source : PageSource Action Action.Reply α} (calls : ∀ cursor, Holds _ (source cursor))

include calls

theorem next? (paginator : Paginator) : Holds _ (Paginator.next? source paginator) := by
  rw [Paginator.next?]
  split
  · exact composes.pure none
  · exact composes.map _ (calls _)

theorem collect (allowance : Nat) (paginator : Paginator) :
    Holds _ (Paginator.collect source allowance paginator) := by
  induction allowance generalizing paginator with
  | zero => exact composes.stalled _
  | succ allowance inductionHypothesis =>
    refine composes.bind (next? composes calls paginator) fun page => ?_
    cases page with
    | none => exact composes.pure []
    | some page => exact composes.map _ (inductionHypothesis page.2)

theorem drain (allowance : Nat) (first : Page α) :
    Holds _ (CiTelemetry.drain source allowance first) := by
  rw [CiTelemetry.drain]
  split
  · exact composes.pure first.items
  · exact composes.map _ (collect composes calls allowance _)

end Pages

section NestedPages

variable {inside : α → Page β} {outer : PageSource Action Action.Reply α}
  {source : α → PageSource Action Action.Reply β}
  (innerCalls : ∀ parent cursor, Holds _ (source parent cursor))

include innerCalls

theorem drainEach (allowance : Nat) (parents : List α) :
    Holds _ (CiTelemetry.drainEach inside source allowance parents) := by
  induction parents with
  | nil => exact composes.pure []
  | cons parent rest inductionHypothesis =>
    refine composes.bind (drain composes (innerCalls parent) allowance _) fun _ => ?_
    exact composes.map _ inductionHypothesis

theorem flattenNested (calls : ∀ cursor, Holds _ (outer cursor)) (allowance innerAllowance : Nat)
    (paginator : Paginator) :
    Holds _
      (CiTelemetry.flattenNested outer inside source allowance innerAllowance paginator) := by
  induction allowance generalizing paginator with
  | zero => exact composes.stalled _
  | succ allowance inductionHypothesis =>
    refine composes.bind (next? composes calls paginator) fun page => ?_
    cases page with
    | none => exact composes.pure []
    | some page =>
      refine composes.bind (drainEach composes innerCalls innerAllowance page.1) fun _ => ?_
      exact composes.map _ (inductionHypothesis page.2)

end NestedPages

/-! ### Fetches that end with their first failure -/

theorem fetchArtifacts (allowance : Nat) (path : String) (nodes : List JobNode) :
    Holds _ (CiTelemetry.fetchArtifacts allowance path nodes) := by
  induction nodes with
  | nil => exact composes.pure []
  | cons node rest inductionHypothesis =>
    have calls := fun cursor => composes.query (.jobArtifacts path (node.id.getD "") cursor)
    refine composes.bind (drain composes calls allowance _) fun _ => ?_
    exact composes.map _ inductionHypothesis

theorem fetchEntry (allowance : Nat) (projectId : Int) (path : String) (node : PipelineNode) :
    Holds _ (CiTelemetry.fetchEntry allowance projectId path node) := by
  rw [CiTelemetry.fetchEntry]
  split
  · exact composes.pure none
  · have calls := fun cursor => composes.query (.pipelineJobs path node.iid cursor)
    refine composes.bind (drain composes calls allowance _) fun jobs => ?_
    exact composes.map _ (fetchArtifacts composes allowance path jobs)

theorem fetchPending (allowance : Nat) (pending : PendingPipeline) :
    Holds _ (CiTelemetry.fetchPending allowance pending) := by
  refine composes.bind (composes.query (.pipeline ..)) fun found => ?_
  cases found with
  | none => exact composes.pure none
  | some node => exact fetchEntry composes allowance _ _ node

theorem fetchProjectChanges (allowance : Nat) (ids : List Int) (window : SyncWindow) :
    Holds _ (CiTelemetry.fetchProjectChanges allowance ids window) := by
  rw [CiTelemetry.fetchProjectChanges]
  split
  · exact composes.pure _
  · have calls := fun cursor => composes.query (.projectChanges ids window cursor)
    exact composes.map _ (collect composes calls allowance _)

theorem fetchMergeRequestPass (allowance : Nat) (ids : List Int) (window : SyncWindow)
    (pass : MergeRequestPass) :
    Holds _ (CiTelemetry.fetchMergeRequestPass allowance ids window pass) :=
  flattenNested composes (fun _ _ => composes.query (.projectMergeRequests ..))
    (fun _ => composes.query (.mergeRequests ..)) _ _ _

theorem fetchMergeRequests (allowance : Nat) (ids : List Int) (window : SyncWindow) :
    Holds _ (CiTelemetry.fetchMergeRequests allowance ids window) := by
  rw [CiTelemetry.fetchMergeRequests]
  split
  · exact composes.pure _
  · refine composes.bind (fetchMergeRequestPass composes allowance ids window .core) fun _ => ?_
    refine composes.bind (fetchMergeRequestPass composes allowance ids window .extra) fun _ => ?_
    exact composes.map _ (fetchMergeRequestPass composes allowance ids window .participants)

end Composes

end CiTelemetry
