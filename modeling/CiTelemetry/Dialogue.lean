/-
This file holds dialogues with the outside: computations that ask for what they
cannot know, go on with the reply, and end in a value. What they do is therefore
plain data, and running one is a recursion over it with any source of replies.
A loop that has no bound of its own is given an allowance of steps; a dialogue
whose allowance is used up stalls, which is neither a value nor a failure.
-/

import CiTelemetry.Error

namespace CiTelemetry

/-- A computation that asks questions of type `Op`; the reply to `op` has type
`Reply op`. -/
inductive Dialogue (Op : Type) (Reply : Op → Type) (α : Type) : Type where
  | done (value : α)
  | stalled
  | ask (op : Op) (next : Reply op → Dialogue Op Reply α)

namespace Dialogue

variable {Op : Type} {Reply : Op → Type} {α β γ : Type}

/-- Goes on with the value of a dialogue. -/
def bind (dialogue : Dialogue Op Reply α) (next : α → Dialogue Op Reply β) :
    Dialogue Op Reply β :=
  match dialogue with
  | done value => next value
  | stalled => stalled
  | ask op rest => ask op fun reply => (rest reply).bind next

instance : Monad (Dialogue Op Reply) where
  pure := done
  bind := bind

/-- Holds two dialogues that do not wait for one another, and gives both values.
The second one is held even where the first one stalls, and then there is no
value. -/
def beside (dialogue : Dialogue Op Reply α) (other : Dialogue Op Reply β) :
    Dialogue Op Reply (α × β) :=
  match dialogue with
  | done value => other.bind fun second => done (value, second)
  | stalled => other.bind fun _ => stalled
  | ask op rest => ask op fun reply => (rest reply).beside other

/-- Asks one question. -/
def question (op : Op) : Dialogue Op Reply (Reply op) :=
  ask op done

/-! ### Laws -/

@[simp]
theorem done_bind (value : α) (next : α → Dialogue Op Reply β) :
    (done value).bind next = next value := rfl

@[simp]
theorem bind_done (dialogue : Dialogue Op Reply α) : dialogue.bind done = dialogue := by
  induction dialogue with
  | done => rfl
  | stalled => rfl
  | ask op next inductionHypothesis =>
    exact congrArg (ask op) (funext inductionHypothesis)

theorem bind_bind (dialogue : Dialogue Op Reply α) (first : α → Dialogue Op Reply β)
    (second : β → Dialogue Op Reply γ) :
    (dialogue.bind first).bind second = dialogue.bind fun value => (first value).bind second := by
  induction dialogue with
  | done => rfl
  | stalled => rfl
  | ask op next inductionHypothesis =>
    exact congrArg (ask op) (funext inductionHypothesis)

instance : LawfulMonad (Dialogue Op Reply) :=
  LawfulMonad.mk' (Dialogue Op Reply) bind_done (fun _ _ => rfl) bind_bind

/-! ### Running -/

/-- Runs a dialogue against replies that may depend on a state. A stalled
dialogue has no value. -/
def run {σ : Type} (reply : (op : Op) → σ → Reply op × σ) :
    Dialogue Op Reply α → σ → Option α × σ
  | done value, state => (some value, state)
  | stalled, state => (none, state)
  | ask op next, state => run reply (next (reply op state).1) (reply op state).2

/-- Replaces every question by a dialogue of another kind that finds the
reply. -/
def expand {Op' : Type} {Reply' : Op' → Type}
    (reply : (op : Op) → Dialogue Op' Reply' (Reply op)) :
    Dialogue Op Reply α → Dialogue Op' Reply' α
  | done value => done value
  | stalled => stalled
  | ask op next => (reply op).bind fun answer => expand reply (next answer)

@[simp]
theorem run_done {σ : Type} (reply : (op : Op) → σ → Reply op × σ) (value : α) (state : σ) :
    (done value).run reply state = (some value, state) := rfl

/-- Running one dialogue after another goes on from the state that the first one
left. -/
theorem run_bind {σ : Type} (reply : (op : Op) → σ → Reply op × σ)
    (dialogue : Dialogue Op Reply α) (next : α → Dialogue Op Reply β) (state : σ) :
    (dialogue.bind next).run reply state =
      match dialogue.run reply state with
      | (some value, after) => (next value).run reply after
      | (none, after) => (none, after) := by
  induction dialogue generalizing state with
  | done => rfl
  | stalled => rfl
  | ask op rest inductionHypothesis => exact inductionHypothesis _ _

end Dialogue

/-- A dialogue that may fail; the first failure ends it. -/
abbrev Attempt (Op : Type) (Reply : Op → Type) (α : Type) :=
  ExceptT SyncError (Dialogue Op Reply) α

namespace Attempt

variable {Op : Type} {Reply : Op → Type} {α : Type}

/-- The attempt whose allowance is used up. -/
def stalled : Attempt Op Reply α :=
  ExceptT.mk Dialogue.stalled

/-- An outcome as an attempt. -/
def ofOutcome (outcome : Outcome α) : Attempt Op Reply α :=
  ExceptT.mk (Dialogue.done outcome)

/-- The outcome of an attempt, whatever it is; this does not fail. -/
def outcome (attempt : Attempt Op Reply α) : Attempt Op Reply (Outcome α) :=
  ExceptT.mk (attempt.run.bind fun result => Dialogue.done (.ok result))

end Attempt

end CiTelemetry
