/-
This file holds the single failures that a failure stands for, however deeply it
joins others, and proves that joining neither loses nor adds any. Whether
something failed is then a matter of these single failures: a failure that joins
none at all is not told apart from success.
-/

import CiTelemetry.Error
import Mathlib.Data.List.Basic

namespace CiTelemetry

namespace SyncError

/-! ### Single failures -/

mutual

/-- The single failures inside a failure. -/
def leaves : SyncError → List SyncError
  | several errors => leavesOfAll errors
  | error => [error]

def leavesOfAll : List SyncError → List SyncError
  | [] => []
  | error :: rest => leaves error ++ leavesOfAll rest

end

theorem leavesOfAll_eq (errors : List SyncError) : leavesOfAll errors = errors.flatMap leaves := by
  induction errors with
  | nil => rw [leavesOfAll, List.flatMap_nil]
  | cons error rest inductionHypothesis =>
    rw [leavesOfAll, inductionHypothesis, List.flatMap_cons]

/-- What a failure joins has the same single failures. -/
theorem flatMap_leaves_parts (error : SyncError) : error.parts.flatMap leaves = error.leaves := by
  cases error with
  | several errors => rw [parts, leaves, leavesOfAll_eq]
  | _ => exact List.flatMap_singleton ..

/-- A failure that is one: it stands for some single failure, and none of these is cancellation. -/
def IsReal (error : SyncError) : Prop :=
  error.leaves ≠ [] ∧ cancelled ∉ error.leaves

/-- A failure that joins no others is one unless it is cancellation. -/
theorem IsReal.of_leaves {error : SyncError} (single : error.leaves = [error])
    (other : error ≠ cancelled) : error.IsReal := by
  rw [IsReal, single, List.mem_singleton]
  exact ⟨List.cons_ne_nil _ _, other.symm⟩

theorem IsReal.isCancelled_eq_false {error : SyncError} (real : error.IsReal) :
    error.isCancelled = false := by
  cases error with
  | cancelled => exact absurd (List.mem_singleton_self _) real.2
  | _ => rfl

/-! ### Joining -/

/-- Joined failures have the single failures that they had apart, unless cancellation outweighs
them. -/
theorem flatMap_leaves_join {errors : List SyncError} (goesOn : errors.any isCancelled = false) :
    (join errors).toList.flatMap leaves = errors.flatMap leaves := by
  have same : (errors.flatMap parts).flatMap leaves = errors.flatMap leaves := by
    rw [List.flatMap_assoc]
    exact List.flatMap_congr fun error _ => flatMap_leaves_parts error
  rw [join, goesOn, if_neg Bool.false_ne_true, ← same]
  generalize errors.flatMap parts = singles
  rcases singles with _ | ⟨first, _ | ⟨second, rest⟩⟩
  · rfl
  · rfl
  · rw [Option.toList_some, List.flatMap_singleton, leaves, leavesOfAll_eq]

/-- Failures that stand for single ones have none of these only if there are no failures. -/
theorem eq_nil_of_flatMap_leaves {errors : List SyncError}
    (solid : ∀ error ∈ errors, error.leaves ≠ []) (noLeaf : errors.flatMap leaves = []) :
    errors = [] :=
  List.eq_nil_iff_forall_not_mem.mpr fun error member =>
    solid error member (List.flatMap_eq_nil_iff.mp noLeaf error member)

/-- Joined, nothing is left of such failures only if there are none. -/
theorem join_eq_none_iff {errors : List SyncError} (solid : ∀ error ∈ errors, error.leaves ≠ []) :
    join errors = none ↔ errors = [] := by
  refine ⟨fun nothing => ?_, fun none => none ▸ rfl⟩
  cases goesOn : errors.any isCancelled with
  | true =>
    rw [join, if_pos goesOn] at nothing
    cases nothing
  | false =>
    have same := flatMap_leaves_join goesOn
    rw [nothing, Option.toList_none, List.flatMap_nil] at same
    exact eq_nil_of_flatMap_leaves solid same.symm

/-- Joined, such failures are one that stands for single ones. -/
theorem leaves_join_ne_nil {errors : List SyncError} (solid : ∀ error ∈ errors, error.leaves ≠ [])
    {error : SyncError} (joined : join errors = some error) : error.leaves ≠ [] := by
  cases goesOn : errors.any isCancelled with
  | true =>
    rw [join, if_pos goesOn] at joined
    cases joined
    exact List.cons_ne_nil _ _
  | false =>
    intro noLeaf
    have same := flatMap_leaves_join goesOn
    rw [joined, Option.toList_some, List.flatMap_singleton, noLeaf] at same
    rw [eq_nil_of_flatMap_leaves solid same.symm] at joined
    cases joined

/-- Failures stand for others if they are real and have the same single failures. -/
def StandFor (errors causes : List SyncError) : Prop :=
  (∀ error ∈ errors, error.IsReal) ∧ (errors.flatMap leaves).Perm (causes.flatMap leaves)

namespace StandFor

variable {errors errors' causes causes' : List SyncError}

theorem nothing : StandFor [] [] :=
  ⟨fun _ member => (nomatch member), .refl _⟩

theorem refl (real : ∀ error ∈ errors, error.IsReal) : StandFor errors errors :=
  ⟨real, .refl _⟩

theorem single {error : SyncError} (real : error.IsReal) : StandFor [error] [error] :=
  refl fun _ member => List.mem_singleton.mp member ▸ real

theorem append (first : StandFor errors causes) (second : StandFor errors' causes') :
    StandFor (errors ++ errors') (causes ++ causes') := by
  constructor
  · intro error member
    exact (List.mem_append.mp member).elim (first.1 error) (second.1 error)
  · rw [List.flatMap_append, List.flatMap_append]
    exact first.2.append second.2

theorem perm (stand : StandFor errors causes) (same : errors.Perm errors') :
    StandFor errors' causes :=
  ⟨fun error member => stand.1 error (same.mem_iff.mpr member),
    (same.flatMap_right leaves).symm.trans stand.2⟩

theorem perm_causes (stand : StandFor errors causes) (same : causes.Perm causes') :
    StandFor errors causes' :=
  ⟨stand.1, stand.2.trans (same.flatMap_right leaves)⟩

/-- Joined failures are what they were apart. -/
theorem join (stand : StandFor errors causes) : StandFor (SyncError.join errors).toList causes := by
  have goesOn : errors.any isCancelled = false := by
    rw [List.any_eq_false]
    intro error member
    rw [(stand.1 error member).isCancelled_eq_false]
    exact Bool.false_ne_true
  have same := flatMap_leaves_join goesOn
  refine ⟨fun error member => ⟨?_, ?_⟩, same ▸ stand.2⟩
  · exact leaves_join_ne_nil (fun cause isCause => (stand.1 cause isCause).1)
      (Option.mem_toList.mp member)
  · intro isLeaf
    have among := List.mem_flatMap.mpr ⟨error, member, isLeaf⟩
    rw [same] at among
    obtain ⟨cause, inside, isLeaf'⟩ := List.mem_flatMap.mp among
    exact (stand.1 cause inside).2 isLeaf'

end StandFor

end SyncError

end CiTelemetry
