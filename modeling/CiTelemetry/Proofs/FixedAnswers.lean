/-
This file gives the value of a dialogue in a world whose replies do not change:
each question has one reply, however often and in whatever order it is asked.
The value of a composed dialogue is put together from the values of its parts,
so that what a fetch returns can be told without following its questions.
-/

import CiTelemetry.Proofs.Conversations
import CiTelemetry.Sync.Action

namespace CiTelemetry

variable {Op : Type} {Reply : Op → Type} {α β : Type}

namespace Dialogue

variable (answers : (op : Op) → Reply op)

/-- The value of a dialogue with fixed replies, if it ends. -/
def value? : Dialogue Op Reply α → Option α
  | done value => some value
  | stalled => none
  | ask op next => (next (answers op)).value?

/-- The value is what running the dialogue gives, whatever state is carried along. -/
theorem value?_eq_run {σ : Type} (dialogue : Dialogue Op Reply α) (state : σ) :
    dialogue.value? answers = (dialogue.run (fun op kept => (answers op, kept)) state).1 := by
  induction dialogue with
  | done => rfl
  | stalled => rfl
  | ask op next inductionHypothesis => exact inductionHypothesis (answers op)

theorem value?_bind (dialogue : Dialogue Op Reply α) (next : α → Dialogue Op Reply β) :
    (dialogue.bind next).value? answers =
      (dialogue.value? answers).bind fun value => (next value).value? answers := by
  induction dialogue with
  | done => rfl
  | stalled => rfl
  | ask op rest inductionHypothesis => exact inductionHypothesis (answers op)

variable {answers}

/-- What is held with fixed replies ends in the value that the dialogue has with them. -/
theorem value?_of_held {dialogue : Dialogue Op Reply α}
    {turns : List (Turn Op Reply)} {result : Option α} (held : Held dialogue turns result)
    (fixed : ∀ turn ∈ turns, turn.reply = answers turn.asked) :
    dialogue.value? answers = result := by
  induction held with
  | done => rfl
  | stalled => rfl
  | @ask op next reply rest result _ inductionHypothesis =>
    obtain ⟨same, others⟩ := List.forall_mem_cons.mp fixed
    dsimp only at same
    subst same
    exact inductionHypothesis others

end Dialogue

namespace Attempt

variable (answers : (op : Op) → Reply op)

/-- The outcome of an attempt with fixed replies, if it ends. -/
def value? (attempt : Attempt Op Reply α) : Option (Outcome α) :=
  Dialogue.value? answers attempt.run

/-! ### The parts of attempts -/

theorem value?_pure (value : α) :
    value? answers (pure value : Attempt Op Reply α) = some (.ok value) := rfl

theorem value?_throw (error : SyncError) :
    value? answers (throw error : Attempt Op Reply α) = some (.error error) := rfl

theorem value?_stalled : value? answers (stalled : Attempt Op Reply α) = none := rfl

theorem value?_lift (dialogue : Dialogue Op Reply α) :
    value? answers (liftM dialogue : Attempt Op Reply α) =
      (dialogue.value? answers).map .ok := by
  show Dialogue.value? answers (dialogue.bind fun value => Dialogue.done (Except.ok value)) = _
  rw [Dialogue.value?_bind]
  cases dialogue.value? answers <;> rfl

theorem value?_outcome (attempt : Attempt Op Reply α) :
    value? answers attempt.outcome = (value? answers attempt).map .ok := by
  show Dialogue.value? answers
    (attempt.run.bind fun result => Dialogue.done (Except.ok result)) = _
  rw [Dialogue.value?_bind, ← value?]
  cases value? answers attempt <;> rfl

/-- A composed attempt fails where its first part fails. -/
theorem value?_bind (attempt : Attempt Op Reply α) (next : α → Attempt Op Reply β) :
    value? answers (attempt >>= next) =
      match value? answers attempt with
      | none => none
      | some (.error error) => some (.error error)
      | some (.ok value) => value? answers (next value) := by
  show Dialogue.value? answers (attempt.run.bind (ExceptT.bindCont next)) = _
  rw [Dialogue.value?_bind, ← value?]
  cases value? answers attempt with
  | none => rfl
  | some outcome => cases outcome <;> rfl

/-- An attempt that only changes what its first part returned. -/
theorem value?_bind_pure (attempt : Attempt Op Reply α) (change : α → β) :
    value? answers (attempt >>= fun value => pure (change value)) =
      (value? answers attempt).map (Except.map change) := by
  rw [value?_bind]
  cases value? answers attempt with
  | none => rfl
  | some outcome => cases outcome <;> rfl

variable {answers}

/-- A composed attempt goes on with what its first part returned. -/
theorem value?_bind_ok {attempt : Attempt Op Reply α} {value : α}
    (returned : value? answers attempt = some (.ok value)) (next : α → Attempt Op Reply β) :
    value? answers (attempt >>= next) = value? answers (next value) := by
  rw [value?_bind, returned]

/-- A composed attempt that returned has returned in both of its parts. -/
theorem ok_of_value?_bind {attempt : Attempt Op Reply α} {next : α → Attempt Op Reply β} {value : β}
    (returned : value? answers (attempt >>= next) = some (.ok value)) :
    ∃ first, value? answers attempt = some (.ok first) ∧
      value? answers (next first) = some (.ok value) := by
  rw [value?_bind] at returned
  split at returned
  · cases returned
  · cases returned
  · next first found => exact ⟨first, found, returned⟩

/-- Attempts whose parts have the same outcome in two worlds have the same outcome. -/
theorem value?_bind_congr {answers' : (op : Op) → Reply op} {attempt attempt' : Attempt Op Reply α}
    {next next' : α → Attempt Op Reply β}
    (first : value? answers attempt = value? answers' attempt')
    (second : ∀ value, value? answers (next value) = value? answers' (next' value)) :
    value? answers (attempt >>= next) = value? answers' (attempt' >>= next') := by
  rw [value?_bind, value?_bind, first]
  split
  · rfl
  · rfl
  · exact second _

end Attempt

/-! ### Questions of a synchronization -/

/-- Fixed replies to everything that a synchronization asks of the outside. -/
abbrev FixedReplies := (action : Action) → action.Reply

/-- A world in which nothing is found, nothing is refused, and no one cancels. -/
def FixedReplies.nothing : FixedReplies
  | .query _ => .error .noData
  | .isCancelled => false
  | .send .. => .ok ()
  | .now => default
  | .waitUntil _ => ()

theorem Fetch.value?_query (answers : FixedReplies) (asked : Query) :
    Attempt.value? answers (Fetch.query asked) = some (answers (.query asked)) := rfl

end CiTelemetry
