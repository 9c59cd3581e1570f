/-
This file proves that gathering loses no outcome and invents none. Whatever has
left a task is in the queue or was gathered, every move keeps it so, and when
the receiver returns what it gathered, it has taken note of every task. A
cancellation that the receiver learns of while it gathers is the whole result.
-/

import CiTelemetry.Sync.FanIn
import Mathlib.Data.List.Perm.Basic

namespace CiTelemetry

variable {α : Type}

/-! ### What was gathered -/

namespace Collected

/-- What was gathered as a list of outcomes. -/
def outcomes (collected : Collected α) : List (Outcome α) :=
  collected.values.map .ok ++ collected.errors.map .error

theorem outcomes_add (collected : Collected α) (outcome : Outcome α) :
    (collected.add outcome).outcomes.Perm (outcome :: collected.outcomes) := by
  cases outcome with
  | ok value =>
    rw [outcomes, add, List.map_append, List.append_assoc]
    exact List.perm_middle
  | error error =>
    rw [outcomes, add, List.map_append, ← List.append_assoc]
    exact List.perm_append_singleton _ _

end Collected

/-- The outcome that has left a task: it was put into the queue, or the receiver has taken note of
the task. -/
def PoolTask.left? (task : PoolTask α) : Option (Outcome α) :=
  match task.stage with
  | .running | .ended => none
  | .reported | .reaped => task.finish.map (·.outcome)

/-! ### Changing one task -/

section OneChange

variable {β γ : Type} {items : List β} {index : Nat} {former latter : β}

theorem map_set_of_eq (found : items[index]? = some former) (latter : β) {view : β → γ}
    (same : view latter = view former) : (items.set index latter).map view = items.map view := by
  obtain ⟨inside, rfl⟩ := List.getElem?_eq_some_iff.mp found
  have inMap : index < (items.map view).length := by rwa [List.length_map]
  have kept : view items[index] = (items.map view)[index] := (List.getElem_map view).symm
  rw [List.map_set, same, kept, List.set_getElem_self inMap]

theorem filterMap_cons_toList (view : β → Option γ) (item : β) (rest : List β) :
    (item :: rest).filterMap view = (view item).toList ++ rest.filterMap view := by
  cases shown : view item with
  | none => rw [List.filterMap_cons_none shown, Option.toList_none, List.nil_append]
  | some value => rw [List.filterMap_cons_some shown, Option.toList_some, List.singleton_append]

theorem forall_mem_set {property : β → Prop} (all : ∀ item ∈ items, property item)
    (holds : property latter) : ∀ item ∈ items.set index latter, property item := by
  intro item member
  rcases List.mem_or_eq_of_mem_set member with other | rfl
  · exact all item other
  · exact holds

end OneChange

/-- What has left the tasks grows by what leaves the one that moves on. -/
theorem left_set_perm {tasks : List (PoolTask α)} {index : Nat} {former : PoolTask α}
    (found : tasks[index]? = some former) (latter : PoolTask α) (added : List (Outcome α))
    (grows : latter.left?.toList = added ++ former.left?.toList) :
    ((tasks.set index latter).filterMap (·.left?)).Perm (added ++ tasks.filterMap (·.left?)) := by
  obtain ⟨inside, rfl⟩ := List.getElem?_eq_some_iff.mp found
  have after := (List.set_perm_cons_eraseIdx inside latter).filterMap (·.left?)
  have before := (List.getElem_cons_eraseIdx_perm inside).filterMap (·.left?)
  rw [filterMap_cons_toList] at after before
  rw [grows, List.append_assoc] at after
  exact after.trans (before.append_left added)

namespace FanIn

variable {fanIn after : FanIn α} {move : Move}

/-! ### What a move can do -/

/-- The moves of a gathering without a verdict, each with what it needs and what it does. -/
inductive Moves (fanIn : FanIn α) : Move → FanIn α → Prop
  | finish {index : Nat} {finish : TaskEnd α}
      (found : fanIn.tasks[index]? = some ⟨some finish, .running⟩) :
      Moves fanIn (.finish index) (fanIn.withStage index ⟨some finish, .running⟩ .ended)
  | report {index : Nat} {outcome : Outcome α}
      (found : fanIn.tasks[index]? = some ⟨some (.finished outcome), .ended⟩)
      (room : fanIn.queue.length < queueLimit) :
      Moves fanIn (.report index)
        { fanIn.withStage index ⟨some (.finished outcome), .ended⟩ .reported with
          queue := fanIn.queue ++ [outcome] }
  | giveUp (gathering : fanIn.isReaping = false)
      (informed : fanIn.isCancelled = true ∨
        ∃ outcome, fanIn.queue.head? = some outcome ∧ reportsCancellation outcome = true) :
      Moves fanIn .receive { fanIn with verdict := some (.error .cancelled) }
  | take {outcome : Outcome α} {rest : List (Outcome α)} (gathering : fanIn.isReaping = false)
      (goesOn : fanIn.isCancelled = false) (waiting : fanIn.queue = outcome :: rest)
      (counts : reportsCancellation outcome = false) :
      Moves fanIn .receive { fanIn.gather outcome with queue := rest }
  | turn (gathering : fanIn.isReaping = false) (goesOn : fanIn.isCancelled = false)
      (empty : fanIn.queue = []) (silent : ∀ task ∈ fanIn.tasks, task.isSilent = true) :
      Moves fanIn .receive { fanIn with isReaping := true }
  | reap {index : Nat} {outcome : Outcome α} (reaping : fanIn.isReaping = true)
      (found : fanIn.tasks[index]? = some ⟨some (.finished outcome), .reported⟩) :
      Moves fanIn (.reap index)
        (fanIn.withStage index ⟨some (.finished outcome), .reported⟩ .reaped)
  | reapPanicked {index : Nat} (reaping : fanIn.isReaping = true)
      (found : fanIn.tasks[index]? = some ⟨some .panicked, .ended⟩) :
      Moves fanIn (.reap index)
        ((fanIn.withStage index ⟨some .panicked, .ended⟩ .reaped).gather (.error .taskPanicked))
  | conclude (reaping : fanIn.isReaping = true)
      (all : ∀ task ∈ fanIn.tasks, task.stage = .reaped) :
      Moves fanIn .conclude { fanIn with verdict := some (.ok fanIn.gathered) }
  | cancel : Moves fanIn .cancel { fanIn with isCancelled := true }

theorem moves_of_receive? (moved : fanIn.receive? = some after) : Moves fanIn .receive after := by
  unfold receive? at moved
  split at moved
  · cases moved
  · next gathering =>
    have gathering := Bool.eq_false_iff.mpr gathering
    split at moved
    · next fired =>
      cases moved
      exact .giveUp gathering (.inl fired)
    · next goesOn =>
      have goesOn := Bool.eq_false_iff.mpr goesOn
      split at moved
      · next outcome rest waiting =>
        split at moved
        · next reports =>
          cases moved
          exact .giveUp gathering (.inr ⟨outcome, by rw [waiting, List.head?_cons], reports⟩)
        · next counts =>
          cases moved
          exact .take gathering goesOn waiting (Bool.eq_false_iff.mpr counts)
      · next empty =>
        split at moved
        · next silent =>
          cases moved
          exact .turn gathering goesOn empty (List.all_eq_true.mp silent)
        · cases moved

theorem moves_of_reap? {index : Nat} (moved : fanIn.reap? index = some after) :
    Moves fanIn (.reap index) after := by
  unfold reap? at moved
  split at moved
  · next reaping =>
    split at moved
    · next outcome found =>
      cases moved
      exact .reap reaping found
    · next found =>
      cases moved
      exact .reapPanicked reaping found
    · cases moved
  · cases moved

/-- A move that is possible is one of these, and there is no verdict before it. -/
theorem moves_of_move? (moved : fanIn.move? move = some after) :
    fanIn.verdict = none ∧ Moves fanIn move after := by
  unfold move? at moved
  split at moved
  · cases moved
  · next undecided =>
    refine ⟨by simpa using undecided, ?_⟩
    cases move with
    | finish index =>
      simp only [finish?] at moved
      split at moved
      · next found =>
        cases moved
        exact .finish found
      · cases moved
    | report index =>
      simp only [report?] at moved
      split at moved
      · next outcome found =>
        split at moved
        · next room =>
          cases moved
          exact .report found room
        · cases moved
      · cases moved
    | receive => exact moves_of_receive? moved
    | reap index => exact moves_of_reap? moved
    | conclude =>
      simp only [conclude?] at moved
      split at moved
      · next all =>
        cases moved
        rw [Bool.and_eq_true, List.all_eq_true] at all
        exact .conclude all.1 fun task member => by simpa using all.2 task member
      · cases moved
    | cancel =>
      cases moved
      exact .cancel

/-! ### Nothing is lost -/

/-- What holds of a gathering throughout: its tasks are those that it began with, whatever has left
them is in the queue or was gathered, and the receiver goes over the tasks only after they have
fallen silent. -/
structure Accounts (finishes : List (Option (TaskEnd α))) (fanIn : FanIn α) : Prop where
  finishes : fanIn.tasks.map (·.finish) = finishes
  outcomes : (fanIn.tasks.filterMap (·.left?)).Perm (fanIn.gathered.outcomes ++ fanIn.queue)
  ended : ∀ task ∈ fanIn.tasks, task.stage ≠ .running → task.finish.isSome = true
  reaping : fanIn.isReaping = true → fanIn.queue = [] ∧
    ∀ task ∈ fanIn.tasks, task.isSilent = true ∨ task.stage = .reaped
  verdict : ∀ result, fanIn.verdict = some result → result = .error .cancelled ∨
    result = .ok fanIn.gathered ∧ fanIn.queue = [] ∧ ∀ task ∈ fanIn.tasks, task.stage = .reaped

variable {finishes : List (Option (TaskEnd α))}

theorem accounts_ofTasks (isCancelled : Bool) (finishes : List (Option (TaskEnd α))) :
    Accounts finishes (ofTasks isCancelled finishes) where
  finishes := by
    rw [ofTasks, List.map_map]
    exact List.map_id' finishes
  outcomes := by
    have none : (ofTasks isCancelled finishes).tasks.filterMap (·.left?) = [] := by
      rw [ofTasks, List.filterMap_map]
      exact List.filterMap_eq_nil_iff.mpr fun _ _ => rfl
    rw [none]
    exact .nil
  ended := by
    intro task member started
    obtain ⟨finish, _, rfl⟩ := List.mem_map.mp member
    exact absurd rfl started
  reaping := nofun
  verdict := nofun

/-- A task that moves on changes nothing about how the tasks end. -/
theorem Accounts.advance (accounts : Accounts finishes fanIn) {index : Nat} {finish : TaskEnd α}
    {stage : TaskStage} (found : fanIn.tasks[index]? = some ⟨some finish, stage⟩)
    (next : TaskStage) :
    (fanIn.tasks.set index ⟨some finish, next⟩).map (·.finish) = finishes ∧
      ∀ task ∈ fanIn.tasks.set index ⟨some finish, next⟩,
        task.stage ≠ .running → task.finish.isSome = true :=
  ⟨(map_set_of_eq found ⟨some finish, next⟩ rfl).trans accounts.finishes,
    forall_mem_set accounts.ended fun _ => rfl⟩

/-- A task that can still move on by itself has not fallen silent. -/
theorem Accounts.not_reaping (accounts : Accounts finishes fanIn) {index : Nat}
    {task : PoolTask α} (found : fanIn.tasks[index]? = some task) (loud : task.isSilent = false)
    (unnoted : task.stage ≠ .reaped) : fanIn.isReaping = false := by
  refine Bool.eq_false_iff.mpr fun reaping => ?_
  rcases (accounts.reaping reaping).2 task (List.mem_of_getElem? found) with silent | noted
  · rw [loud] at silent
    cases silent
  · exact unnoted noted

/-- Every move keeps account of every task. -/
theorem Accounts.step (accounts : Accounts finishes fanIn) (undecided : fanIn.verdict = none)
    (moves : Moves fanIn move after) : Accounts finishes after := by
  have unfinished : ∀ result, fanIn.verdict ≠ some result := by
    rw [undecided]
    exact fun _ => nofun
  cases moves with
  | @finish index finish found =>
    have early : fanIn.isReaping = false :=
      accounts.not_reaping found (by cases finish <;> rfl) nofun
    obtain ⟨finishes, ended⟩ := accounts.advance found .ended
    have same := left_set_perm found ⟨some finish, .ended⟩ [] rfl
    exact ⟨finishes, same.trans accounts.outcomes, ended,
      fun reaping => absurd (early.symm.trans reaping) nofun,
      fun _ done => absurd done (unfinished _)⟩
  | @report index outcome found room =>
    have early : fanIn.isReaping = false := accounts.not_reaping found rfl nofun
    obtain ⟨finishes, ended⟩ := accounts.advance found .reported
    have grown := left_set_perm found ⟨some (.finished outcome), .reported⟩ [outcome] rfl
    refine ⟨finishes, grown.trans ?_, ended, fun reaping => absurd (early.symm.trans reaping) nofun,
      fun _ done => absurd done (unfinished _)⟩
    rw [← List.append_assoc]
    exact (accounts.outcomes.append_left [outcome]).trans (List.perm_append_singleton _ _).symm
  | giveUp gathering informed =>
    refine ⟨accounts.finishes, accounts.outcomes, accounts.ended, accounts.reaping, ?_⟩
    rintro result same
    cases same
    exact .inl rfl
  | @take outcome rest gathering goesOn waiting counts =>
    refine ⟨accounts.finishes, accounts.outcomes.trans ?_, accounts.ended,
      fun reaping => absurd (gathering.symm.trans reaping) nofun,
      fun _ done => absurd done (unfinished _)⟩
    rw [waiting]
    exact List.perm_middle.trans ((Collected.outcomes_add _ _).symm.append_right rest)
  | turn gathering goesOn empty silent =>
    exact ⟨accounts.finishes, accounts.outcomes, accounts.ended,
      fun _ => ⟨empty, fun task member => .inl (silent task member)⟩,
      fun _ done => absurd done (unfinished _)⟩
  | @reap index outcome reaping found =>
    obtain ⟨finishes, ended⟩ := accounts.advance found .reaped
    have same := left_set_perm found ⟨some (.finished outcome), .reaped⟩ [] rfl
    obtain ⟨empty, reported⟩ := accounts.reaping reaping
    exact ⟨finishes, same.trans accounts.outcomes, ended,
      fun _ => ⟨empty, forall_mem_set reported (.inr rfl)⟩,
      fun _ done => absurd done (unfinished _)⟩
  | @reapPanicked index reaping found =>
    obtain ⟨finishes, ended⟩ := accounts.advance found .reaped
    have grown := left_set_perm found ⟨some .panicked, .reaped⟩ [.error .taskPanicked] rfl
    obtain ⟨empty, reported⟩ := accounts.reaping reaping
    refine ⟨finishes, grown.trans ?_, ended, fun _ => ⟨empty, forall_mem_set reported (.inr rfl)⟩,
      fun _ done => absurd done (unfinished _)⟩
    exact (accounts.outcomes.append_left _).trans
      ((Collected.outcomes_add _ _).symm.append_right fanIn.queue)
  | conclude reaping all =>
    obtain ⟨empty, _⟩ := accounts.reaping reaping
    refine ⟨accounts.finishes, accounts.outcomes, accounts.ended, accounts.reaping, ?_⟩
    rintro result same
    cases same
    exact .inr ⟨rfl, empty, all⟩
  | cancel =>
    exact ⟨accounts.finishes, accounts.outcomes, accounts.ended, accounts.reaping,
      accounts.verdict⟩

theorem step_eq_of_verdict (decided : fanIn.verdict ≠ none) (move : Move) :
    fanIn.step move = fanIn := by
  unfold FanIn.step move?
  rw [if_pos (Option.isSome_iff_ne_none.mpr decided)]
  rfl

/-- After the receiver has ended nothing changes. -/
theorem run_eq_of_verdict (decided : fanIn.verdict ≠ none) (moves : List Move) :
    fanIn.run moves = fanIn := by
  induction moves with
  | nil => rfl
  | cons move rest inductionHypothesis =>
    show (fanIn.step move).run rest = fanIn
    rw [step_eq_of_verdict decided, inductionHypothesis]

theorem Accounts.run (accounts : Accounts finishes fanIn) (moves : List Move) :
    Accounts finishes (fanIn.run moves) := by
  induction moves generalizing fanIn with
  | nil => exact accounts
  | cons move rest inductionHypothesis =>
    show Accounts finishes ((fanIn.step move).run rest)
    refine inductionHypothesis ?_
    unfold FanIn.step
    cases moved : fanIn.move? move with
    | none => exact accounts
    | some after =>
      obtain ⟨undecided, moves⟩ := moves_of_move? moved
      exact accounts.step undecided moves

/-! ### What the receiver takes -/

/-- Whether the receiver is still gathering. -/
def isGathering (fanIn : FanIn α) : Bool :=
  fanIn.verdict.isNone && !fanIn.isReaping

/-- The outcome that the receiver takes in a move. -/
def taken? (fanIn : FanIn α) (move : Move) : Option (Outcome α) :=
  if move = .receive ∧ fanIn.isGathering = true ∧ fanIn.isCancelled = false then
    fanIn.queue.head?
  else none

/-- The outcomes that the receiver takes during moves, the one by which it learns of cancellation
among them. -/
def received (fanIn : FanIn α) : List Move → List (Outcome α)
  | [] => []
  | move :: rest => (fanIn.taken? move).toList ++ (fanIn.step move).received rest

theorem isGathering_iff :
    fanIn.isGathering = true ↔ fanIn.verdict = none ∧ fanIn.isReaping = false := by
  rw [isGathering, Bool.and_eq_true, Option.isNone_iff_eq_none, Bool.not_eq_true']

/-- A receiver that has a reason to give up does so when it moves. -/
theorem step_receive_of_informed (gathering : fanIn.isGathering = true)
    (informed : fanIn.isCancelled = true ∨
      ∃ outcome, fanIn.queue.head? = some outcome ∧ reportsCancellation outcome = true) :
    fanIn.step .receive = { fanIn with verdict := some (.error .cancelled) } := by
  obtain ⟨undecided, early⟩ := isGathering_iff.mp gathering
  unfold FanIn.step move? receive?
  rw [undecided, early, if_neg (by simp), if_neg Bool.false_ne_true]
  cases fired : fanIn.isCancelled with
  | true => rfl
  | false =>
    rw [fired] at informed
    obtain ⟨outcome, waiting, reports⟩ := informed.resolve_left Bool.false_ne_true
    obtain ⟨rest, queue⟩ := List.head?_eq_some_iff.mp waiting
    simp only [queue, reports, Bool.false_eq_true, if_false, if_true, Option.getD_some]

/-- Whatever does not concern the receiver leaves it gathering, and nobody takes a cancellation
back. -/
theorem step_gathering (gathering : fanIn.isGathering = true) (fired : fanIn.isCancelled = true)
    (other : move ≠ .receive) :
    (fanIn.step move).isGathering = true ∧ (fanIn.step move).isCancelled = true := by
  unfold FanIn.step
  cases moved : fanIn.move? move with
  | none => exact ⟨gathering, fired⟩
  | some after =>
    obtain ⟨_, early⟩ := isGathering_iff.mp gathering
    obtain ⟨_, moves⟩ := moves_of_move? moved
    cases moves with
    | finish | report => exact ⟨gathering, fired⟩
    | giveUp | take | turn => exact absurd rfl other
    | reap reaping | reapPanicked reaping | conclude reaping =>
      exact absurd (early.symm.trans reaping) Bool.false_ne_true
    | cancel => exact ⟨gathering, rfl⟩

/-- The receiver ends with cancellation as soon as it moves after the token has fired while it was
gathering, and until then it has not ended. -/
theorem verdict_of_fired (gathering : fanIn.isGathering = true)
    (fired : fanIn.isCancelled = true) (moves : List Move) :
    (fanIn.run moves).verdict = if .receive ∈ moves then some (.error .cancelled) else none := by
  induction moves generalizing fanIn with
  | nil => exact (isGathering_iff.mp gathering).1
  | cons move rest inductionHypothesis =>
    show ((fanIn.step move).run rest).verdict = _
    by_cases receives : move = .receive
    · rw [receives, step_receive_of_informed gathering (.inl fired),
        run_eq_of_verdict (Option.some_ne_none _), if_pos List.mem_cons_self]
    · obtain ⟨gathering, fired⟩ := step_gathering gathering fired receives
      rw [inductionHypothesis gathering fired]
      simp only [List.mem_cons, Ne.symm receives, false_or]

/-- A received cancellation is the whole result. -/
theorem verdict_of_received {moves : List Move} {outcome : Outcome α}
    (member : outcome ∈ fanIn.received moves) (reports : reportsCancellation outcome = true) :
    (fanIn.run moves).verdict = some (.error .cancelled) := by
  induction moves generalizing fanIn with
  | nil => cases member
  | cons move rest inductionHypothesis =>
    show ((fanIn.step move).run rest).verdict = _
    rcases List.mem_append.mp member with now | later
    · rw [Option.mem_toList, taken?] at now
      split at now
      · next taking =>
        obtain ⟨rfl, gathering, _⟩ := taking
        rw [step_receive_of_informed gathering (.inr ⟨outcome, now, reports⟩),
          run_eq_of_verdict (Option.some_ne_none _)]
      · cases now
    · exact inductionHypothesis later

/-! ### What gathering returns -/

/-- Tasks that the receiver has taken note of have all ended, and each of them has left its
outcome. -/
theorem left_of_reaped {tasks : List (PoolTask α)}
    (reaped : ∀ task ∈ tasks, task.stage = .reaped)
    (ended : ∀ task ∈ tasks, task.finish.isSome = true) :
    ∃ ends : List (TaskEnd α), tasks.map (·.finish) = ends.map some ∧
      tasks.filterMap (·.left?) = ends.map TaskEnd.outcome := by
  induction tasks with
  | nil => exact ⟨[], rfl, rfl⟩
  | cons task rest inductionHypothesis =>
    obtain ⟨isReaped, othersReaped⟩ := List.forall_mem_cons.mp reaped
    obtain ⟨isEnded, othersEnded⟩ := List.forall_mem_cons.mp ended
    obtain ⟨finish, known⟩ := Option.isSome_iff_exists.mp isEnded
    obtain ⟨ends, finishes, left⟩ := inductionHypothesis othersReaped othersEnded
    have own : task.left? = some finish.outcome := by
      rw [PoolTask.left?, isReaped, known]
      rfl
    refine ⟨finish :: ends, ?_, ?_⟩
    · rw [List.map_cons, List.map_cons, known, finishes]
    · rw [List.filterMap_cons_some own, left, List.map_cons]

/-- What gathering returns, for any number of tasks, any way in which they end and any order of the
moves. If it returns what was gathered, every task has ended, the outcomes gathered are those of the
tasks, each of them once, and none that was received reports cancellation. If a cancellation is
received, or the token has fired while the receiver gathers and it moves again, cancellation is the
whole result. There are no other results. -/
theorem gathered_once (isCancelled : Bool) (finishes : List (Option (TaskEnd α)))
    (moves : List Move) :
    (∀ collected, ((ofTasks isCancelled finishes).run moves).verdict = some (.ok collected) →
      (∃ ends : List (TaskEnd α), finishes = ends.map some ∧
        collected.outcomes.Perm (ends.map TaskEnd.outcome)) ∧
      ∀ outcome ∈ (ofTasks isCancelled finishes).received moves,
        reportsCancellation outcome = false) ∧
    (∀ outcome ∈ (ofTasks isCancelled finishes).received moves,
      reportsCancellation outcome = true →
        ((ofTasks isCancelled finishes).run moves).verdict = some (.error .cancelled)) ∧
    (∀ before after, moves = before ++ after →
      ((ofTasks isCancelled finishes).run before).isGathering = true →
      ((ofTasks isCancelled finishes).run before).isCancelled = true →
        ((ofTasks isCancelled finishes).run moves).verdict =
          if .receive ∈ after then some (.error .cancelled) else none) ∧
    ∀ error, ((ofTasks isCancelled finishes).run moves).verdict = some (.error error) →
      error = .cancelled := by
  have accounts := (accounts_ofTasks isCancelled finishes).run moves
  refine ⟨fun collected returned => ⟨?_, fun outcome member => ?_⟩,
    fun outcome member reports => verdict_of_received member reports, ?_, fun error failed => ?_⟩
  · rcases accounts.verdict _ returned with impossible | ⟨same, empty, reaped⟩
    · cases impossible
    · cases same
      have ended := fun task member =>
        accounts.ended task member (by rw [reaped task member]; nofun)
      obtain ⟨ends, all, left⟩ := left_of_reaped reaped ended
      refine ⟨ends, accounts.finishes.symm.trans all, ?_⟩
      have outcomes := accounts.outcomes
      rw [empty, List.append_nil, left] at outcomes
      exact outcomes.symm
  · refine Bool.eq_false_iff.mpr fun reports => ?_
    rw [verdict_of_received member reports] at returned
    cases returned
  · rintro before after rfl gathering fired
    rw [run_append, verdict_of_fired gathering fired]
  · rcases accounts.verdict _ failed with same | ⟨impossible, _⟩
    · cases same
      rfl
    · cases impossible

/-! ### A value, a failure and a breakdown -/

/-- Three tasks that end in the three possible ways. -/
def mixedTasks : List (Option (TaskEnd Nat)) :=
  [some (.finished (.ok 1)), some (.finished (.error .noData)), some .panicked]

/-- The outcomes of the three tasks are gathered, and where the token fires first, cancellation is
all that is returned. -/
theorem mixedTasks_gathered :
    (∃ collected, ((ofTasks false mixedTasks).run (inTurn 3)).verdict = some (.ok collected) ∧
      ∃ ends : List (TaskEnd Nat), mixedTasks = ends.map some ∧
        collected.outcomes.Perm (ends.map TaskEnd.outcome)) ∧
    ((ofTasks false mixedTasks).run (.cancel :: inTurn 3)).verdict = some (.error .cancelled) := by
  have returned : ((ofTasks false mixedTasks).run (inTurn 3)).verdict =
      some (.ok ⟨[1], [.noData, .taskPanicked]⟩) := by rfl
  have gathered := (gathered_once false mixedTasks (inTurn 3)).1 _ returned
  have cancelled := (gathered_once false mixedTasks (.cancel :: inTurn 3)).2.2.1 [.cancel]
    (inTurn 3) rfl rfl rfl
  exact ⟨⟨_, returned, gathered.1⟩, cancelled.trans (if_pos (by decide))⟩

end FanIn

end CiTelemetry
