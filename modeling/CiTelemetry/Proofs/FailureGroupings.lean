/-
This file proves that failures may be joined in any grouping. Tasks join their
failures, batches those of their tasks and windows those of their batches; what
comes out of it is what joining all single failures at once would have given, in
the same order. Joining takes apart only what was joined directly before, so the
proof rests on what every joined failure looks like: it is cancellation, or all
of its parts are single failures and none of them is cancellation.
-/

import CiTelemetry.Error
import Mathlib.Data.List.Basic

namespace CiTelemetry

namespace SyncError

/-! ### Single failures -/

/-- Whether a failure joins no others. -/
def isSingle : SyncError → Bool
  | several _ => false
  | _ => true

theorem parts_of_isSingle {error : SyncError} (single : error.isSingle = true) :
    error.parts = [error] := by
  cases error with
  | several => cases single
  | _ => rfl

theorem isCancelled_iff {error : SyncError} : error.isCancelled = true ↔ error = cancelled := by
  cases error <;> simp [isCancelled]

theorem any_isCancelled_iff {errors : List SyncError} :
    errors.any isCancelled = true ↔ cancelled ∈ errors := by
  simp [List.any_eq_true, isCancelled_iff]

/-! ### What failures are joined from -/

/-- The single failures that failures are joined from, or none where cancellation outweighs them. -/
def joinedFrom? (errors : List SyncError) : Option (List SyncError) :=
  if errors.any isCancelled then none else some (errors.flatMap parts)

/-- One failure for all of its single ones. -/
def ofParts : List SyncError → Option SyncError
  | [] => none
  | [error] => some error
  | errors => some (several errors)

theorem join_eq (errors : List SyncError) :
    join errors = (joinedFrom? errors).elim (some cancelled) ofParts := by
  rw [join, joinedFrom?]
  split
  · rfl
  · rw [Option.elim_some]
    generalize errors.flatMap parts = single
    rcases single with _ | ⟨first, _ | ⟨second, rest⟩⟩ <;> rfl

theorem joinedFrom?_append (errors errors' : List SyncError) :
    joinedFrom? (errors ++ errors') =
      (joinedFrom? errors).bind fun first => (joinedFrom? errors').map (first ++ ·) := by
  rw [joinedFrom?, joinedFrom?, joinedFrom?, List.any_append, List.flatMap_append]
  cases errors.any isCancelled <;> cases errors'.any isCancelled <;> rfl

theorem join_of_cancelled {errors : List SyncError} (inside : cancelled ∈ errors) :
    join errors = some cancelled := by
  rw [join_eq, joinedFrom?, if_pos (any_isCancelled_iff.mpr inside), Option.elim_none]

/-- Single failures without cancellation are joined from themselves. -/
theorem joinedFrom?_of_single {errors : List SyncError}
    (single : ∀ error ∈ errors, error.isSingle = true) (goesOn : cancelled ∉ errors) :
    joinedFrom? errors = some errors := by
  rw [joinedFrom?, if_neg (any_isCancelled_iff.not.mpr goesOn)]
  refine congrArg some ((List.flatMap_congr fun error member => ?_).trans
    (List.flatMap_singleton' errors))
  exact parts_of_isSingle (single error member)

theorem join_of_single {errors : List SyncError}
    (single : ∀ error ∈ errors, error.isSingle = true) (goesOn : cancelled ∉ errors) :
    join errors = ofParts errors := by
  rw [join_eq, joinedFrom?_of_single single goesOn, Option.elim_some]

/-- A single failure on its own is joined to itself. -/
theorem join_singleton {error : SyncError} (single : error.isSingle = true) :
    join [error] = some error := by
  by_cases isCancelled : cancelled ∈ [error]
  · rw [join_of_cancelled isCancelled, List.mem_singleton.mp isCancelled]
  · rw [join_of_single (List.forall_mem_singleton.mpr single) isCancelled, ofParts]

/-! ### Joined failures -/

/-- What joining gives: every part is a single failure, and only cancellation has it as a part. -/
def IsFlat (error : SyncError) : Prop :=
  ∀ part ∈ error.parts, part.isSingle = true ∧ (part = cancelled → error = cancelled)

theorem IsFlat.of_isSingle {error : SyncError} (single : error.isSingle = true) :
    error.IsFlat := by
  intro part member
  rw [parts_of_isSingle single, List.mem_singleton] at member
  subst member
  exact ⟨single, id⟩

/-- The parts of joined failures are single, and none is cancellation unless a failure is. -/
theorem single_of_flat {errors : List SyncError} (flat : ∀ error ∈ errors, error.IsFlat)
    (goesOn : cancelled ∉ errors) :
    ∀ part ∈ errors.flatMap parts, part.isSingle = true ∧ part ≠ cancelled := by
  intro part member
  obtain ⟨error, inside, isPart⟩ := List.mem_flatMap.mp member
  obtain ⟨single, onlyCancelled⟩ := flat error inside part isPart
  exact ⟨single, fun same => goesOn (onlyCancelled same ▸ inside)⟩

/-- One failure made of single ones is flat, and it is joined from those it was made of. -/
theorem ofParts_spec {errors : List SyncError}
    (single : ∀ error ∈ errors, error.isSingle = true ∧ error ≠ cancelled) :
    (∀ error ∈ (ofParts errors).toList, error.IsFlat) ∧
      joinedFrom? (ofParts errors).toList = some errors := by
  rcases errors with _ | ⟨first, _ | ⟨second, rest⟩⟩
  · exact ⟨fun _ member => (nomatch member), rfl⟩
  · obtain ⟨isSingle, other⟩ := single first List.mem_cons_self
    constructor
    · intro error member
      rw [List.mem_singleton.mp member]
      exact .of_isSingle isSingle
    · exact joinedFrom?_of_single (fun error member => (single error member).1)
        fun member => (single cancelled member).2 rfl
  · refine ⟨fun error member => ?_, ?_⟩
    · rw [List.mem_singleton.mp member]
      intro part isPart
      obtain ⟨isSingle, other⟩ := single part isPart
      exact ⟨isSingle, fun same => absurd same other⟩
    · simp [ofParts, joinedFrom?, isCancelled, parts]

/-- Joined again, a joined failure stands for all that it was joined from. -/
theorem join_spec {errors : List SyncError} (flat : ∀ error ∈ errors, error.IsFlat) :
    (∀ error ∈ (join errors).toList, error.IsFlat) ∧
      joinedFrom? (join errors).toList = joinedFrom? errors := by
  rw [join_eq]
  by_cases isCancelled : errors.any SyncError.isCancelled = true
  · rw [joinedFrom?, if_pos isCancelled]
    refine ⟨fun error member => ?_, rfl⟩
    rw [List.mem_singleton.mp member]
    exact .of_isSingle rfl
  · rw [joinedFrom?, if_neg isCancelled]
    rw [any_isCancelled_iff] at isCancelled
    exact ofParts_spec (single_of_flat flat isCancelled)

/-! ### Groupings -/

/-- Single failures in groups, these in larger groups and so on; each group is joined when all that
is in it has been. -/
inductive Grouping where
  | single (error : SyncError) (isSingle : error.isSingle = true)
  | joined (groups : List Grouping)

namespace Grouping

mutual

/-- The single failures of a grouping, from left to right. -/
def failures : Grouping → List SyncError
  | single error _ => [error]
  | joined groups => failuresOfAll groups

def failuresOfAll : List Grouping → List SyncError
  | [] => []
  | first :: rest => failures first ++ failuresOfAll rest

end

mutual

/-- What a grouping comes to. A group that comes to no failure adds nothing to the one around it. -/
def result : Grouping → Option SyncError
  | single error _ => some error
  | joined groups => join (resultsOfAll groups)

def resultsOfAll : List Grouping → List SyncError
  | [] => []
  | first :: rest => (result first).toList ++ resultsOfAll rest

end

mutual

/-- What a grouping comes to is flat, and it is joined from the single failures of the grouping. -/
theorem result_spec (grouping : Grouping) :
    (∀ error ∈ grouping.result.toList, error.IsFlat) ∧
      joinedFrom? grouping.result.toList = joinedFrom? grouping.failures := by
  cases grouping with
  | single error isSingle =>
    rw [result, failures]
    refine ⟨fun other member => ?_, rfl⟩
    rw [List.mem_singleton.mp member]
    exact .of_isSingle isSingle
  | joined groups =>
    obtain ⟨flat, same⟩ := resultsOfAll_spec groups
    obtain ⟨joinedFlat, joinedSame⟩ := join_spec flat
    rw [result, failures]
    exact ⟨joinedFlat, joinedSame.trans same⟩

theorem resultsOfAll_spec (groups : List Grouping) :
    (∀ error ∈ resultsOfAll groups, error.IsFlat) ∧
      joinedFrom? (resultsOfAll groups) = joinedFrom? (failuresOfAll groups) := by
  cases groups with
  | nil => exact ⟨fun _ member => (nomatch member), rfl⟩
  | cons first rest =>
    obtain ⟨flat, same⟩ := result_spec first
    obtain ⟨restFlat, restSame⟩ := resultsOfAll_spec rest
    rw [resultsOfAll, failuresOfAll, joinedFrom?_append, joinedFrom?_append, same, restSame]
    exact ⟨List.forall_mem_append.mpr ⟨flat, restFlat⟩, rfl⟩

end

mutual

theorem isSingle_of_mem_failures (grouping : Grouping) :
    ∀ error ∈ grouping.failures, error.isSingle = true := by
  cases grouping with
  | single error isSingle =>
    rw [failures]
    intro other member
    rwa [List.mem_singleton.mp member]
  | joined groups =>
    rw [failures]
    exact isSingle_of_mem_failuresOfAll groups

theorem isSingle_of_mem_failuresOfAll (groups : List Grouping) :
    ∀ error ∈ failuresOfAll groups, error.isSingle = true := by
  cases groups with
  | nil => exact fun _ member => nomatch member
  | cons first rest =>
    rw [failuresOfAll]
    exact List.forall_mem_append.mpr
      ⟨isSingle_of_mem_failures first, isSingle_of_mem_failuresOfAll rest⟩

end

/-- A grouping comes to what joining its single failures at once does. -/
theorem result_eq (grouping : Grouping) : grouping.result = join grouping.failures := by
  cases grouping with
  | single error isSingle =>
    rw [result, failures, join_singleton isSingle]
  | joined groups => rw [result, failures, join_eq, join_eq, (resultsOfAll_spec groups).2]

/-- Failures may be joined in any grouping. What a grouping comes to is what joining its single
failures at once does: nothing where there is none, cancellation where one of them is cancellation,
a failure on its own as it is, and otherwise one failure that joins them all in their order. -/
theorem result_eq_join (grouping : Grouping) :
    grouping.result = join grouping.failures ∧
      (grouping.failures = [] → grouping.result = none) ∧
      (cancelled ∈ grouping.failures → grouping.result = some cancelled) ∧
      (∀ error, grouping.failures = [error] → grouping.result = some error) ∧
      (cancelled ∉ grouping.failures → 2 ≤ grouping.failures.length →
        grouping.result = some (several grouping.failures) ∧
          ∀ error ∈ grouping.failures, error ≠ cancelled ∧ error.isSingle = true) := by
  have single := isSingle_of_mem_failures grouping
  rw [result_eq]
  generalize grouping.failures = errors at single ⊢
  refine ⟨rfl, ?_, join_of_cancelled, ?_, fun goesOn atLeastTwo => ⟨?_, fun error member => ?_⟩⟩
  · rintro rfl
    rfl
  · rintro error rfl
    exact join_singleton (single error List.mem_cons_self)
  · rw [join_of_single single goesOn]
    rcases errors with _ | ⟨first, _ | ⟨second, rest⟩⟩
    · cases atLeastTwo
    · exact absurd atLeastTwo (Nat.not_succ_le_self 1)
    · rfl
  · exact ⟨fun same => goesOn (same ▸ member), single error member⟩

/-- Two tasks whose failures were joined, next to a group that came to nothing and a failure on its
own. -/
def taskFailures : Grouping :=
  .joined
    [.joined [.single .noData rfl, .single .network rfl], .joined [.joined []],
      .joined [.joined [.single .malformedJson rfl]]]

/-- The three failures come out side by side. -/
theorem result_taskFailures :
    cancelled ∉ taskFailures.failures ∧ 2 ≤ taskFailures.failures.length ∧
      taskFailures.result = some (several [.noData, .network, .malformedJson]) := by
  have goesOn : cancelled ∉ taskFailures.failures := by
    simp [taskFailures, failures, failuresOfAll]
  have atLeastTwo : 2 ≤ taskFailures.failures.length := by decide
  exact ⟨goesOn, atLeastTwo, ((result_eq_join taskFailures).2.2.2.2 goesOn atLeastTwo).1⟩

end Grouping

end SyncError

end CiTelemetry
