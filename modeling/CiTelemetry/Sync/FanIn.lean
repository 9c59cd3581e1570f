/-
This file gathers the outcomes of tasks that run at the same time. A task that
has ended puts its outcome into a queue of limited length, and one receiver takes
the outcomes out again. Once no task has anything left to report, the receiver
goes over the tasks themselves, to learn which of them broke down, and returns.
It returns before that as soon as it learns of cancellation, which is then the
whole result. The moves of the tasks and of the receiver may follow one another
in any order that `move?` allows.
-/

import CiTelemetry.Sync.Pool

namespace CiTelemetry

variable {α : Type}

/-! ### Tasks -/

/-- How a task ends. -/
inductive TaskEnd (α : Type) where
  | finished (outcome : Outcome α)
  /-- The task breaks down without an outcome. -/
  | panicked
  deriving Repr, Inhabited

/-- The outcome that a task counts with. A task that broke down is one failure. -/
def TaskEnd.outcome : TaskEnd α → Outcome α
  | finished outcome => outcome
  | panicked => .error .taskPanicked

/-- How far a task has come. -/
inductive TaskStage where
  | running
  | ended
  /-- The outcome is in the queue, or was received. -/
  | reported
  /-- The receiver has taken note that the task is over. -/
  | reaped
  deriving DecidableEq, Repr, Inhabited

/-- A task of which it is known how it ends, if it ever does. -/
structure PoolTask (α : Type) where
  finish : Option (TaskEnd α)
  stage : TaskStage
  deriving Repr, Inhabited

namespace PoolTask

/-- Whether a task broke down. -/
def hasPanicked : PoolTask α → Bool
  | ⟨some .panicked, .ended⟩ => true
  | _ => false

/-- Whether a task has nothing left to report. -/
def isSilent (task : PoolTask α) : Bool :=
  task.stage == .reported || task.hasPanicked

end PoolTask

/-! ### Outcomes -/

/-- Whether an outcome reports cancellation. -/
def reportsCancellation : Outcome α → Bool
  | .ok _ => false
  | .error error => error.isCancelled

/-- Adds an outcome to those gathered before. -/
def Collected.add (collected : Collected α) : Outcome α → Collected α
  | .ok value => { collected with values := collected.values ++ [value] }
  | .error error => { collected with errors := collected.errors ++ [error] }

/-! ### The gathering -/

/-- A gathering of outcomes. -/
structure FanIn (α : Type) where
  tasks : List (PoolTask α)
  /-- The outcomes that wait to be received, the first one in front. -/
  queue : List (Outcome α)
  gathered : Collected α
  isCancelled : Bool
  /-- Whether the receiver has learnt that nothing more will be reported. -/
  isReaping : Bool
  /-- What the receiver ended with. -/
  verdict : Option (Outcome (Collected α))
  deriving Repr, Inhabited

namespace FanIn

/-- How many outcomes may wait to be received. -/
def queueLimit : Nat := 64

/-- A gathering at its beginning. -/
def ofTasks (isCancelled : Bool) (finishes : List (Option (TaskEnd α))) : FanIn α :=
  { tasks := finishes.map fun finish => ⟨finish, .running⟩
    queue := []
    gathered := .empty
    isCancelled
    isReaping := false
    verdict := none }

/-- What may happen next. -/
inductive Move where
  /-- A task ends. -/
  | finish (index : Nat)
  /-- A task puts its outcome into the queue. -/
  | report (index : Nat)
  /-- The receiver takes the next outcome, or learns that there will be none. -/
  | receive
  /-- The receiver takes note of a task that is over. -/
  | reap (index : Nat)
  /-- The receiver returns what was gathered. -/
  | conclude
  | cancel
  deriving DecidableEq, Repr, Inhabited

/-- Sets how far a task has come. -/
def withStage (fanIn : FanIn α) (index : Nat) (task : PoolTask α) (stage : TaskStage) :
    FanIn α :=
  { fanIn with tasks := fanIn.tasks.set index { task with stage } }

/-- Adds an outcome to what was gathered. -/
def gather (fanIn : FanIn α) (outcome : Outcome α) : FanIn α :=
  { fanIn with gathered := fanIn.gathered.add outcome }

def finish? (fanIn : FanIn α) (index : Nat) : Option (FanIn α) :=
  match fanIn.tasks[index]? with
  | some ⟨some finish, .running⟩ =>
    some (fanIn.withStage index ⟨some finish, .running⟩ .ended)
  | _ => none

/-- A task that broke down reports nothing, and a full queue lets nobody in. -/
def report? (fanIn : FanIn α) (index : Nat) : Option (FanIn α) :=
  match fanIn.tasks[index]? with
  | some ⟨some (.finished outcome), .ended⟩ =>
    if fanIn.queue.length < queueLimit then
      some { fanIn.withStage index ⟨some (.finished outcome), .ended⟩ .reported with
        queue := fanIn.queue ++ [outcome] }
    else none
  | _ => none

/-- The receiver looks for cancellation first, then at the queue. -/
def receive? (fanIn : FanIn α) : Option (FanIn α) :=
  if fanIn.isReaping then none
  else if fanIn.isCancelled then some { fanIn with verdict := some (.error .cancelled) }
  else
    match fanIn.queue with
    | outcome :: rest =>
      if reportsCancellation outcome then some { fanIn with verdict := some (.error .cancelled) }
      else some { fanIn.gather outcome with queue := rest }
    | [] => if fanIn.tasks.all (·.isSilent) then some { fanIn with isReaping := true } else none

/-- A task that broke down is gathered when the receiver takes note of it. The receiver does not
look for cancellation any more. -/
def reap? (fanIn : FanIn α) (index : Nat) : Option (FanIn α) :=
  if fanIn.isReaping then
    match fanIn.tasks[index]? with
    | some ⟨some (.finished outcome), .reported⟩ =>
      some (fanIn.withStage index ⟨some (.finished outcome), .reported⟩ .reaped)
    | some ⟨some .panicked, .ended⟩ =>
      some ((fanIn.withStage index ⟨some .panicked, .ended⟩ .reaped).gather
        (.error .taskPanicked))
    | _ => none
  else none

def conclude? (fanIn : FanIn α) : Option (FanIn α) :=
  if fanIn.isReaping && fanIn.tasks.all (·.stage == .reaped) then
    some { fanIn with verdict := some (.ok fanIn.gathered) }
  else none

/-- One move, where it is possible. After the receiver has ended none is. -/
def move? (fanIn : FanIn α) (move : Move) : Option (FanIn α) :=
  if fanIn.verdict.isSome then none
  else
    match move with
    | .finish index => fanIn.finish? index
    | .report index => fanIn.report? index
    | .receive => fanIn.receive?
    | .reap index => fanIn.reap? index
    | .conclude => fanIn.conclude?
    | .cancel => some { fanIn with isCancelled := true }

/-- A move, or nothing where it is not possible. -/
def step (fanIn : FanIn α) (move : Move) : FanIn α :=
  (fanIn.move? move).getD fanIn

/-- Makes moves one after another and passes over those that are not possible. -/
def run (fanIn : FanIn α) (moves : List Move) : FanIn α :=
  moves.foldl step fanIn

theorem run_append (fanIn : FanIn α) (first second : List Move) :
    fanIn.run (first ++ second) = (fanIn.run first).run second :=
  List.foldl_append

/-- An order of moves that leads to an end: first the tasks end, then their outcomes are reported
and received one by one, and last the receiver goes over the tasks. -/
def inTurn (count : Nat) : List Move :=
  (List.range count).map .finish ++
    (List.range count).flatMap (fun index => [.report index, .receive]) ++ [.receive] ++
    (List.range count).map .reap ++ [.conclude]

end FanIn

end CiTelemetry
