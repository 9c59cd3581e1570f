/-
This file proves when looking up a pipeline fails. It does not fail if the pipeline
can be loaded, with its jobs and their artifacts, however far the pages are
followed. And where it does fail, it does so with what the server answered to one
of its questions; so nothing is cancelled unless the server says so, and the walk
over bridges comes to the end of what it can reach.
-/

import CiTelemetry.Proofs.BridgeWalk
import CiTelemetry.Proofs.ComposedFetches

namespace CiTelemetry

/-! ### Attempts that do not fail -/

/-- An attempt that does not end with a failure. It need not end at all. -/
def NeverFails {Op : Type} {Reply : Op → Type} {α : Type} (answers : (op : Op) → Reply op)
    (attempt : Attempt Op Reply α) : Prop :=
  ∀ error, attempt.value? answers ≠ some (.error error)

namespace NeverFails

variable {Op : Type} {Reply : Op → Type} {α β : Type} {answers : (op : Op) → Reply op}
  {attempt : Attempt Op Reply α}

theorem pure (value : α) : NeverFails answers (Pure.pure value : Attempt Op Reply α) := by
  intro error failed
  cases failed

theorem stalled : NeverFails answers (Attempt.stalled : Attempt Op Reply α) := by
  intro error failed
  cases failed

/-- Taking the outcome of an attempt does not fail, whatever the outcome is. -/
theorem outcome (attempt : Attempt Op Reply α) : NeverFails answers attempt.outcome := by
  intro error failed
  rw [Attempt.value?_outcome] at failed
  obtain ⟨_, _, different⟩ := Option.map_eq_some_iff.mp failed
  cases different

theorem bind {next : α → Attempt Op Reply β} (first : NeverFails answers attempt)
    (second : ∀ value, attempt.value? answers = some (.ok value) →
      NeverFails answers (next value)) : NeverFails answers (attempt >>= next) := by
  intro error failed
  rw [Attempt.value?_bind] at failed
  split at failed
  · cases failed
  · next returned => exact first _ returned
  · next value returned => exact second value returned error failed

/-- An attempt whose last part only changes the value. -/
theorem map (first : NeverFails answers attempt) (change : α → β) :
    NeverFails answers (attempt >>= fun value => Pure.pure (change value)) :=
  first.bind fun value _ => pure (change value)

end NeverFails

/-! ### Pages that are followed to their end -/

section Pages

variable {Op : Type} {Reply : Op → Type} {α : Type} {answers : (op : Op) → Reply op}
  {source : PageSource Op Reply α} {table : PageTable α}

/-- A walk over pages that have an end does not fail, although its allowance may be too small for
it. -/
theorem PageChain.neverFails {cursor : Option String} {pages : List (Page α)}
    (chain : PageChain table cursor pages) (answered : Answers answers source table)
    (allowance : Nat) :
    NeverFails answers (Paginator.collect source allowance ⟨cursor, false⟩) := by
  induction chain generalizing allowance with
  | last found ends =>
    cases allowance with
    | zero => exact .stalled
    | succ allowance =>
      intro error failed
      rw [Paginator.value?_collect_step answered found, Paginator.after_none ends] at failed
      cases allowance with
      | zero => cases failed
      | succ allowance => cases failed
  | more found continues _ inductionHypothesis =>
    cases allowance with
    | zero => exact .stalled
    | succ allowance =>
      intro error failed
      rw [Paginator.value?_collect_step answered found, Paginator.after_some continues] at failed
      obtain ⟨outcome, collected, changed⟩ := Option.map_eq_some_iff.mp failed
      cases outcome with
      | error error' => exact inductionHypothesis allowance error' collected
      | ok items => cases changed

theorem Completes.neverFails {first : Page α} {items : List α}
    (completes : Completes table first items) (answered : Answers answers source table)
    (allowance : Nat) : NeverFails answers (drain source allowance first) := by
  obtain ⟨rest, after, _⟩ := completes
  unfold drain
  cases after with
  | none ends =>
    rw [ends]
    exact .pure _
  | some continues chain =>
    rw [continues]
    exact (chain.neverFails answered allowance).map _

end Pages

/-! ### Pipelines that can be loaded -/

section Entries

variable {answers : FixedReplies} {projectId : Int} {path : String} {node : PipelineNode}
  {entry : HierarchyEntry}

theorem neverFails_fetchArtifacts {jobs : List JobNode} {complete : List JobWithArtifacts}
    (completed : List.Forall₂ (IsComplete answers path) jobs complete) (allowance : Nat) :
    NeverFails answers (fetchArtifacts allowance path jobs) := by
  induction completed with
  | nil => exact .pure []
  | @cons job whole jobs complete first _ inductionHypothesis =>
    have own := first.2.neverFails (artifactTable_answers answers path job) allowance
    exact own.bind fun _ _ => inductionHypothesis.map _

/-- Loading a pipeline that has an entry does not fail. -/
theorem Loads.neverFails (loads : Loads answers projectId path node entry) (allowance : Nat) :
    NeverFails answers (fetchEntry allowance projectId path node) := by
  cases loads with
  | intro converts drained completed =>
    have table := jobTable_answers answers path node.iid
    unfold fetchEntry
    rw [converts]
    refine (drained.neverFails table allowance).bind fun jobs returned => ?_
    rw [← drained.unique (completes_of_drain table returned)]
    exact (neverFails_fetchArtifacts completed allowance).map _

/-- Looking up a reference that leads to a pipeline does not fail. -/
theorem Leads.neverFails {pending : PendingPipeline} (leads : Leads answers pending entry)
    (allowance : Nat) : NeverFails answers (fetchPending allowance pending) := by
  obtain ⟨node, answered, loads⟩ := leads
  have asked : Attempt.value? answers
      (Fetch.query (.pipeline pending.reference.projectPath pending.reference.iid)) =
        some (.ok (some node)) :=
    congrArg some answered
  intro error failed
  unfold fetchPending at failed
  rw [Attempt.value?_bind_ok asked] at failed
  exact loads.neverFails allowance error failed

/-- If looking up such a reference ends, it ends with the pipeline. -/
theorem Leads.outcome_eq {pending : PendingPipeline} (leads : Leads answers pending entry)
    {allowance : Nat} {outcome : Outcome (Option HierarchyEntry)}
    (ended : Attempt.value? answers (fetchPending allowance pending) = some outcome) :
    outcome = .ok (some entry) := by
  cases outcome with
  | error error => exact absurd ended (leads.neverFails allowance error)
  | ok found => rw [(leads_iff_of_fetchPending ended entry).mp leads]

end Entries

/-! ### Failures that the server answers with -/

/-- A fetch that fails only with what the server answers to a question. -/
def FailsAsAnswered (answers : FixedReplies) {α : Type} (fetch : Fetch α) : Prop :=
  ∀ error, Attempt.value? answers fetch = some (.error error) →
    ∃ asked, answers (.query asked) = .error error

theorem failsAsAnswered_composes (answers : FixedReplies) :
    Composes fun _ => FailsAsAnswered answers where
  pure _ := fun _ failed => nomatch failed
  stalled _ := fun _ failed => nomatch failed
  query asked := fun _ failed => ⟨asked, Option.some.inj failed⟩
  bind first second := by
    intro error failed
    rw [Attempt.value?_bind] at failed
    split at failed
    · cases failed
    · next returned =>
      cases failed
      exact first _ returned
    · next value returned => exact second value error failed

/-- A server that never says that the fetch was cancelled. -/
def Uncancelled (answers : FixedReplies) : Prop :=
  ∀ asked error, answers (.query asked) = .error error → error.isCancelled = false

section Walk

variable {answers : FixedReplies} {allowance : Nat}

/-- The walk over bridges does not fail unless it is cancelled. -/
theorem neverFails_followBridges (uncancelled : Uncancelled answers) (steps : Nat)
    (hierarchy : PipelineHierarchy) (errors : List SyncError) (pending : List PendingPipeline) :
    NeverFails answers (followBridges steps allowance hierarchy errors pending) := by
  induction steps generalizing hierarchy errors pending with
  | zero =>
    cases pending with
    | nil => exact .pure _
    | cons next rest => exact .stalled
  | succ steps inductionHypothesis =>
    cases pending with
    | nil => exact .pure _
    | cons next rest =>
      rw [followBridges]
      split
      · exact inductionHypothesis hierarchy errors rest
      · refine (NeverFails.outcome _).bind fun looked returned => ?_
        rcases looked with error | _ | child
        · rw [Attempt.value?_outcome] at returned
          obtain ⟨_, failed, same⟩ := Option.map_eq_some_iff.mp returned
          cases same
          have fails := (failsAsAnswered_composes answers).fetchPending allowance next
          obtain ⟨asked, answered⟩ := fails error failed
          dsimp only
          rw [uncancelled asked error answered, if_neg Bool.false_ne_true]
          exact inductionHypothesis hierarchy (errors ++ [error]) rest
        · exact inductionHypothesis hierarchy errors rest
        · exact inductionHypothesis (hierarchy.attach next.parent child) errors
            (rest ++ child.pending)

/-- The hierarchy of a pipeline that can be loaded is fetched unless the fetch is cancelled. -/
theorem Loads.neverFails_fetchHierarchy {projectId : Int} {path : String} {node : PipelineNode}
    {root : HierarchyEntry} (loads : Loads answers projectId path node root)
    (uncancelled : Uncancelled answers) (allowance : Nat) :
    NeverFails answers (fetchHierarchy allowance projectId path node) := by
  refine (loads.neverFails allowance).bind fun found _ => ?_
  cases found with
  | none => exact .pure _
  | some entry => exact (neverFails_followBridges uncancelled allowance _ _ _).map _

end Walk

end CiTelemetry
