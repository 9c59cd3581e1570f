/-
This file proves what is gathered from tasks. Where no failure was gathered,
every task has returned and the values stand in the order of the tasks; and what
is gathered depends on nothing but the outcomes of the tasks, up to their order.
-/

import CiTelemetry.Proofs.FixedAnswers
import CiTelemetry.Sync.Pool
import Mathlib.Data.List.Forall2

namespace CiTelemetry

variable {α : Type} {answers answers' : FixedReplies}

/-- A task that returned a value. -/
def Returns (answers : FixedReplies) (task : Fetch α) (value : α) : Prop :=
  Attempt.value? answers task = some (.ok value)

/-- One step of the gathering. -/
theorem value?_runTasks_cons (gathered : Collected α) (task : Fetch α) (rest : List (Fetch α)) :
    Attempt.value? answers (runTasks gathered (task :: rest)) =
      match Attempt.value? answers task with
      | none => none
      | some (.ok value) =>
        Attempt.value? answers (runTasks ⟨gathered.values ++ [value], gathered.errors⟩ rest)
      | some (.error error) =>
        if error.isCancelled then some (.error .cancelled)
        else
          Attempt.value? answers (runTasks ⟨gathered.values, gathered.errors ++ [error]⟩ rest) := by
  rw [runTasks, Attempt.value?_bind, Attempt.value?_outcome]
  cases Attempt.value? answers task with
  | none => rfl
  | some outcome =>
    cases outcome with
    | ok value => rfl
    | error error =>
      simp only [Option.map_some]
      split <;> rfl

/-- Lists whose elements are related in pairs have a partner for each element. -/
theorem exists_of_forall₂ {β γ : Type} {relation : β → γ → Prop} {left : List β} {right : List γ}
    (all : List.Forall₂ relation left right) {first : β} (member : first ∈ left) :
    ∃ second ∈ right, relation first second := by
  induction all with
  | nil => cases member
  | cons related _ inductionHypothesis =>
    rcases List.mem_cons.mp member with rfl | later
    · exact ⟨_, List.mem_cons_self, related⟩
    · obtain ⟨second, inside, found⟩ := inductionHypothesis later
      exact ⟨second, List.mem_cons_of_mem _ inside, found⟩

/-- A pool that returned was not cancelled, and its gathering is that of its tasks. -/
theorem value?_runPool (tasks : List (Fetch α)) :
    Attempt.value? answers (runPool tasks) =
      if answers .isCancelled then some (.error .cancelled)
      else Attempt.value? answers (runTasks .empty tasks) := by
  have asked : Attempt.value? answers (liftM Sync.isCancelled : Fetch Bool) =
      some (.ok (answers .isCancelled)) := by
    rw [Attempt.value?_lift]
    rfl
  rw [runPool, Attempt.value?_bind_ok asked]
  split <;> rfl

/-- What is gathered depends on nothing but the outcomes of the tasks. -/
theorem runTasks_congr {β : Type} {items : List β} {task task' : β → Fetch α}
    (same : ∀ item ∈ items,
      Attempt.value? answers (task item) = Attempt.value? answers' (task' item))
    (gathered : Collected α) :
    Attempt.value? answers (runTasks gathered (items.map task)) =
      Attempt.value? answers' (runTasks gathered (items.map task')) := by
  induction items generalizing gathered with
  | nil => rfl
  | cons item rest inductionHypothesis =>
    have others := inductionHypothesis fun other member =>
      same other (List.mem_cons_of_mem _ member)
    rw [List.map_cons, List.map_cons, value?_runTasks_cons, value?_runTasks_cons,
      same item List.mem_cons_self]
    split
    · rfl
    · exact others _
    · split
      · rfl
      · exact others _

/-! ### The outcomes of tasks -/

/-- A task that came to an end without being cancelled. -/
def Finishes (answers : FixedReplies) (task : Fetch α) : Prop :=
  ∃ outcome, Attempt.value? answers task = some outcome ∧
    ∀ error, outcome = .error error → error.isCancelled = false

/-- The value of a task that returned one. -/
def returned? (answers : FixedReplies) (task : Fetch α) : Option α :=
  match Attempt.value? answers task with
  | some (.ok value) => some value
  | _ => none

/-- The failure of a task that failed. -/
def failed? (answers : FixedReplies) (task : Fetch α) : Option SyncError :=
  match Attempt.value? answers task with
  | some (.error error) => some error
  | _ => none

theorem Returns.finishes {task : Fetch α} {value : α} (returns : Returns answers task value) :
    Finishes answers task :=
  ⟨_, returns, fun _ failed => nomatch failed⟩

theorem Returns.returned?_eq {task : Fetch α} {value : α} (returns : Returns answers task value) :
    returned? answers task = some value := by
  rw [returned?, (returns : Attempt.value? answers task = _)]

theorem returns_of_returned? {task : Fetch α} {value : α}
    (found : returned? answers task = some value) : Returns answers task value := by
  unfold returned? at found
  split at found
  · next ended =>
    cases found
    exact ended
  · cases found

theorem not_finishes_of_none {task : Fetch α} (ended : Attempt.value? answers task = none) :
    ¬ Finishes answers task := by
  rintro ⟨outcome, same, _⟩
  rw [ended] at same
  cases same

/-- A task that failed has come to an end unless it was cancelled. -/
theorem finishes_iff_of_error {task : Fetch α} {error : SyncError}
    (ended : Attempt.value? answers task = some (.error error)) :
    Finishes answers task ↔ error.isCancelled = false := by
  constructor
  · rintro ⟨outcome, same, goesOn⟩
    rw [ended] at same
    cases same
    exact goesOn error rfl
  · intro goesOn
    refine ⟨_, ended, ?_⟩
    rintro _ ⟨⟩
    exact goesOn

/-- A gathering that returned holds the values and the failures of its tasks, and it returns where
all of them come to an end. -/
theorem runTasks_eq_ok_iff {tasks : List (Fetch α)} {gathered final : Collected α} :
    Attempt.value? answers (runTasks gathered tasks) = some (.ok final) ↔
      (∀ task ∈ tasks, Finishes answers task) ∧
        final = ⟨gathered.values ++ tasks.filterMap (returned? answers),
          gathered.errors ++ tasks.filterMap (failed? answers)⟩ := by
  induction tasks generalizing gathered with
  | nil =>
    rw [runTasks, Attempt.value?_pure, List.filterMap_nil, List.filterMap_nil, List.append_nil,
      List.append_nil]
    constructor
    · rintro ⟨⟩
      exact ⟨fun _ member => (nomatch member), rfl⟩
    · rintro ⟨_, rfl⟩
      rfl
  | cons task rest inductionHypothesis =>
    rw [value?_runTasks_cons, List.forall_mem_cons]
    cases ended : Attempt.value? answers task with
    | none =>
      constructor
      · rintro ⟨⟩
      · rintro ⟨⟨finishes, _⟩, _⟩
        exact absurd finishes (not_finishes_of_none ended)
    | some outcome =>
      cases outcome with
      | ok value =>
        have returns : Returns answers task value := ended
        have noFailure : failed? answers task = none := by rw [failed?, ended]
        rw [List.filterMap_cons_some returns.returned?_eq, List.filterMap_cons_none noFailure]
        simp only [inductionHypothesis, returns.finishes, true_and, List.append_assoc,
          List.singleton_append]
      | error error =>
        have noValue : returned? answers task = none := by rw [returned?, ended]
        have failure : failed? answers task = some error := by rw [failed?, ended]
        rw [List.filterMap_cons_none noValue, List.filterMap_cons_some failure,
          finishes_iff_of_error ended]
        simp only
        cases error.isCancelled with
        | true =>
          rw [if_pos rfl]
          constructor
          · rintro ⟨⟩
          · rintro ⟨⟨impossible, _⟩, _⟩
            cases impossible
        | false =>
          rw [if_neg Bool.false_ne_true]
          simp only [inductionHypothesis, true_and, List.append_assoc, List.singleton_append]

/-- Tasks that all returned have their values in their order. -/
theorem forall₂_returned? {tasks : List (Fetch α)}
    (all : ∀ task ∈ tasks, ∃ value, Returns answers task value) :
    List.Forall₂ (Returns answers) tasks (tasks.filterMap (returned? answers)) := by
  induction tasks with
  | nil => exact .nil
  | cons task rest inductionHypothesis =>
    obtain ⟨⟨value, returns⟩, others⟩ := List.forall_mem_cons.mp all
    rw [List.filterMap_cons_some returns.returned?_eq]
    exact .cons returns (inductionHypothesis others)

/-- Failures are never taken out of a gathering, so a gathering without failures has the values of
all tasks in their order. -/
theorem returns_of_runTasks {tasks : List (Fetch α)} {gathered final : Collected α}
    (ran : Attempt.value? answers (runTasks gathered tasks) = some (.ok final))
    (noErrors : final.errors = []) :
    gathered.errors = [] ∧
      ∃ values, final.values = gathered.values ++ values ∧
        List.Forall₂ (Returns answers) tasks values := by
  obtain ⟨finish, rfl⟩ := runTasks_eq_ok_iff.mp ran
  obtain ⟨before, noFailures⟩ := List.append_eq_nil_iff.mp noErrors
  refine ⟨before, _, rfl, forall₂_returned? fun task member => ?_⟩
  obtain ⟨outcome, ended, _⟩ := finish task member
  cases outcome with
  | ok value => exact ⟨value, ended⟩
  | error error =>
    have failure : failed? answers task = some error := by rw [failed?, ended]
    have none := List.filterMap_eq_nil_iff.mp noFailures task member
    rw [failure] at none
    cases none

/-- Tasks that finish in another order are gathered in another order, and nothing else. -/
theorem runTasks_perm {tasks order : List (Fetch α)} (perm : order.Perm tasks)
    {gathered final : Collected α}
    (ran : Attempt.value? answers (runTasks gathered tasks) = some (.ok final)) :
    ∃ final', Attempt.value? answers (runTasks gathered order) = some (.ok final') ∧
      final'.values.Perm final.values ∧ final'.errors.Perm final.errors := by
  obtain ⟨finish, rfl⟩ := runTasks_eq_ok_iff.mp ran
  have others : ∀ task ∈ order, Finishes answers task := fun task member =>
    finish task (perm.mem_iff.mp member)
  refine ⟨_, runTasks_eq_ok_iff.mpr ⟨others, rfl⟩, ?_, ?_⟩
  · exact (perm.filterMap _).append_left _
  · exact (perm.filterMap _).append_left _

end CiTelemetry
