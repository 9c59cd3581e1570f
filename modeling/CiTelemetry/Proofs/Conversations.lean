/-
This file holds what happens when a dialogue is held: its questions in turn, each
with the reply it got, and the value at the end. Nothing is assumed of the
replies. What became of a composed dialogue is told from what became of its
parts, and two conversations in which the same questions got the same replies
are one and the same.
-/

import CiTelemetry.Dialogue

namespace CiTelemetry

variable {Op : Type} {Reply : Op → Type} {α β : Type}

/-- A question with the reply it got. -/
structure Turn (Op : Type) (Reply : Op → Type) where
  asked : Op
  reply : Reply asked

namespace Dialogue

/-- A dialogue was held with these turns and came to this value, or to none where it stalled. -/
inductive Held : Dialogue Op Reply α → List (Turn Op Reply) → Option α → Prop
  | done (value : α) : Held (done value) [] (some value)
  | stalled : Held stalled [] none
  | ask {op : Op} {next : Reply op → Dialogue Op Reply α} (reply : Reply op)
      {rest : List (Turn Op Reply)} {result : Option α} (after : Held (next reply) rest result) :
    Held (ask op next) (⟨op, reply⟩ :: rest) result

variable {turns rest turns' rest' : List (Turn Op Reply)}

/-! ### Composed dialogues -/

/-- One question is one turn. -/
theorem Held.of_question {op : Op} {result : Option (Reply op)}
    (held : Held (question op) turns result) :
    ∃ reply, turns = [⟨op, reply⟩] ∧ result = some reply := by
  cases held with
  | ask reply after =>
    cases after
    exact ⟨reply, rfl, rfl⟩

/-- A dialogue that has come to a value is gone on with. -/
theorem Held.bind {dialogue : Dialogue Op Reply α} {next : α → Dialogue Op Reply β} {value : α}
    {result : Option β} (held : Held dialogue turns (some value))
    (after : Held (next value) rest result) :
    Held (dialogue.bind next) (turns ++ rest) result := by
  induction dialogue generalizing turns with
  | done known =>
    cases held
    exact after
  | stalled => cases held
  | ask op following inductionHypothesis =>
    cases held with
    | ask reply later => exact .ask reply (inductionHypothesis reply later)

/-- What became of a dialogue that goes on with the value of another one. -/
theorem Held.of_bind {dialogue : Dialogue Op Reply α} {next : α → Dialogue Op Reply β}
    {result : Option β} (held : Held (dialogue.bind next) turns result) :
    (result = none ∧ Held dialogue turns none) ∨
      ∃ value first second, turns = first ++ second ∧ Held dialogue first (some value) ∧
        Held (next value) second result := by
  induction dialogue generalizing turns with
  | done value => exact .inr ⟨value, [], turns, rfl, .done value, held⟩
  | stalled =>
    cases held
    exact .inl ⟨rfl, .stalled⟩
  | ask op following inductionHypothesis =>
    cases held with
    | ask reply after =>
      rcases inductionHypothesis reply after with
        ⟨ended, stopped⟩ | ⟨value, first, second, rfl, former, latter⟩
      · exact .inl ⟨ended, .ask reply stopped⟩
      · exact .inr ⟨value, ⟨op, reply⟩ :: first, second, rfl, .ask reply former, latter⟩

/-- A dialogue that came to a value has come to one in both of its parts. -/
theorem Held.of_bind_some {dialogue : Dialogue Op Reply α} {next : α → Dialogue Op Reply β}
    {value : β} (held : Held (dialogue.bind next) turns (some value)) :
    ∃ between first second, turns = first ++ second ∧ Held dialogue first (some between) ∧
      Held (next between) second (some value) := by
  rcases held.of_bind with ⟨ended, _⟩ | parts
  · cases ended
  · exact parts

/-- What became of a dialogue that only changes the value of another one. -/
theorem Held.of_bind_done {dialogue : Dialogue Op Reply α} (change : α → β) {result : Option β}
    (held : Held (dialogue.bind fun value => .done (change value)) turns result) :
    ∃ before, Held dialogue turns before ∧ result = before.map change := by
  rcases held.of_bind with ⟨rfl, stopped⟩ | ⟨value, first, second, rfl, former, latter⟩
  · exact ⟨none, stopped, rfl⟩
  · cases latter
    rw [List.append_nil]
    exact ⟨some value, former, rfl⟩

/-- Of two dialogues that do not wait for one another both are held. -/
theorem Held.of_beside {dialogue : Dialogue Op Reply α} {other : Dialogue Op Reply β}
    {result : Option (α × β)} (held : Held (dialogue.beside other) turns result) :
    ∃ former latter first second, turns = first ++ second ∧ Held dialogue first former ∧
      Held other second latter ∧
      result = former.bind fun value => latter.map fun value' => (value, value') := by
  induction dialogue generalizing turns with
  | done value =>
    obtain ⟨latter, after, rfl⟩ := Held.of_bind_done _ held
    exact ⟨some value, latter, [], turns, rfl, .done value, after, rfl⟩
  | stalled =>
    rcases Held.of_bind held with ⟨rfl, stopped⟩ | ⟨value, first, second, rfl, after, ended⟩
    · exact ⟨none, none, [], turns, rfl, .stalled, stopped, rfl⟩
    · cases ended
      exact ⟨none, some value, [], first, List.append_nil first, .stalled, after, rfl⟩
  | ask op following inductionHypothesis =>
    cases held with
    | ask reply after =>
      obtain ⟨former, latter, first, second, rfl, isFirst, isSecond, same⟩ :=
        inductionHypothesis reply after
      exact ⟨former, latter, ⟨op, reply⟩ :: first, second, rfl, .ask reply isFirst, isSecond, same⟩

/-! ### Which questions are asked -/

/-- Whatever the replies are, only questions that are allowed are asked. -/
def Asks (allowed : Op → Prop) : Dialogue Op Reply α → Prop
  | done _ => True
  | stalled => True
  | ask op next => allowed op ∧ ∀ reply, (next reply).Asks allowed

variable {allowed : Op → Prop}

theorem Asks.question {op : Op} (isAllowed : allowed op) :
    (question op : Dialogue Op Reply (Reply op)).Asks allowed :=
  ⟨isAllowed, fun _ => trivial⟩

theorem Asks.bind {dialogue : Dialogue Op Reply α} {next : α → Dialogue Op Reply β}
    (first : dialogue.Asks allowed) (second : ∀ value, (next value).Asks allowed) :
    (dialogue.bind next).Asks allowed := by
  induction dialogue with
  | done value => exact second value
  | stalled => trivial
  | ask op following inductionHypothesis =>
    exact ⟨first.1, fun reply => inductionHypothesis reply (first.2 reply)⟩

/-- Where fewer questions are allowed, more are allowed as well. -/
theorem Asks.mono {dialogue : Dialogue Op Reply α} (asks : dialogue.Asks allowed)
    {more : Op → Prop} (weaker : ∀ op, allowed op → more op) : dialogue.Asks more := by
  induction dialogue with
  | done => trivial
  | stalled => trivial
  | ask op next inductionHypothesis =>
    exact ⟨weaker op asks.1, fun reply => inductionHypothesis reply (asks.2 reply)⟩

theorem Asks.asked {dialogue : Dialogue Op Reply α} (asks : dialogue.Asks allowed)
    {result : Option α} (held : Held dialogue turns result) :
    ∀ turn ∈ turns, allowed turn.asked := by
  induction held with
  | done => exact fun _ member => nomatch member
  | stalled => exact fun _ member => nomatch member
  | ask reply _ inductionHypothesis =>
    intro turn member
    rcases List.mem_cons.mp member with rfl | later
    · exact asks.1
    · exact inductionHypothesis (asks.2 reply) turn later

/-- The turns of a dialogue whose questions agree in something are all kept or all left out by it.
-/
theorem Asks.filter_turns {γ : Type} {feature : Op → γ} {common : γ}
    {dialogue : Dialogue Op Reply α} (asks : dialogue.Asks (feature · = common))
    {result : Option α} (held : Held dialogue turns result) (kept : γ → Prop) [DecidablePred kept] :
    turns.filter (fun turn => kept (feature turn.asked)) = if kept common then turns else [] := by
  have agree := asks.asked held
  split
  · next isKept =>
    refine List.filter_eq_self.mpr fun turn member => decide_eq_true ?_
    rwa [agree turn member]
  · next isLeftOut =>
    refine List.filter_eq_nil_iff.mpr fun turn member => ?_
    rwa [decide_eq_true_eq, agree turn member]

/-! ### Two conversations -/

/-- As long as two conversations agree, the next question has the same reply in both, if it is the
same question. -/
def SameReplies (turns turns' : List (Turn Op Reply)) : Prop :=
  ∀ shared turn rest turn' rest', turns = shared ++ turn :: rest →
    turns' = shared ++ turn' :: rest' → turn.asked = turn'.asked → turn = turn'

theorem SameReplies.of_append {shared : List (Turn Op Reply)}
    (same : SameReplies (shared ++ turns) (shared ++ turns')) : SameReplies turns turns' := by
  intro more turn rest turn' rest' found found'
  refine same (shared ++ more) turn rest turn' rest' ?_ ?_
  · rw [found, List.append_assoc]
  · rw [found', List.append_assoc]

/-- The same dialogue with the same replies takes the same turns and comes to the same value,
whatever follows it. -/
theorem Held.eq_of_sameReplies {dialogue : Dialogue Op Reply α} {result result' : Option α}
    (held : Held dialogue turns result) (held' : Held dialogue turns' result')
    (same : SameReplies (turns ++ rest) (turns' ++ rest')) :
    turns = turns' ∧ result = result' := by
  induction held generalizing turns' with
  | done value =>
    cases held'
    exact ⟨rfl, rfl⟩
  | stalled =>
    cases held'
    exact ⟨rfl, rfl⟩
  | @ask op next reply turns result _ inductionHypothesis =>
    cases held' with
    | @ask _ _ reply' turns' _ after' =>
      have first := same [] ⟨op, reply⟩ (turns ++ rest) ⟨op, reply'⟩ (turns' ++ rest') rfl rfl rfl
      cases first
      have later : SameReplies ([⟨op, reply⟩] ++ (turns ++ rest)) ([⟨op, reply⟩] ++ _) := same
      obtain ⟨sameTurns, sameResult⟩ := inductionHypothesis after' later.of_append
      exact ⟨congrArg _ sameTurns, sameResult⟩

/-! ### Replies with a source -/

/-- The turns that a dialogue takes against replies that may depend on a state. -/
def transcript {σ : Type} (reply : (op : Op) → σ → Reply op × σ) :
    Dialogue Op Reply α → σ → List (Turn Op Reply)
  | done _, _ => []
  | stalled, _ => []
  | ask op next, state =>
    ⟨op, (reply op state).1⟩ :: (next (reply op state).1).transcript reply (reply op state).2

/-- Running a dialogue is one way of holding it. -/
theorem held_transcript {σ : Type} (reply : (op : Op) → σ → Reply op × σ)
    (dialogue : Dialogue Op Reply α) (state : σ) :
    Held dialogue (dialogue.transcript reply state) (dialogue.run reply state).1 := by
  induction dialogue generalizing state with
  | done value => exact .done value
  | stalled => exact .stalled
  | ask op next inductionHypothesis => exact .ask _ (inductionHypothesis _ _)

/-- In a world whose replies do not change every turn has the reply that its question has there. -/
theorem reply_of_mem_transcript {answers : (op : Op) → Reply op} {dialogue : Dialogue Op Reply α}
    {turn : Turn Op Reply}
    (member : turn ∈ dialogue.transcript (fun op (_ : Unit) => (answers op, ())) ()) :
    turn.reply = answers turn.asked := by
  induction dialogue with
  | done => cases member
  | stalled => cases member
  | ask op next inductionHypothesis =>
    rcases List.mem_cons.mp member with rfl | later
    · rfl
    · exact inductionHypothesis _ later

/-- Two worlds whose replies do not change and which agree on what is asked give the same replies.
-/
theorem SameReplies.of_fixed {answers answers' : (op : Op) → Reply op}
    (fixed : ∀ turn ∈ turns, turn.reply = answers turn.asked)
    (fixed' : ∀ turn ∈ turns', turn.reply = answers' turn.asked)
    (agree : ∀ turn ∈ turns, answers turn.asked = answers' turn.asked) :
    SameReplies turns turns' := by
  rintro shared ⟨asked, reply⟩ rest ⟨_, reply'⟩ rest' rfl rfl rfl
  have member : (⟨asked, reply⟩ : Turn Op Reply) ∈ shared ++ ⟨asked, reply⟩ :: rest :=
    List.mem_append_right _ List.mem_cons_self
  have member' : (⟨asked, reply'⟩ : Turn Op Reply) ∈ shared ++ ⟨asked, reply'⟩ :: rest' :=
    List.mem_append_right _ List.mem_cons_self
  have same : reply = reply' :=
    (fixed _ member).trans ((agree _ member).trans (fixed' _ member').symm)
  rw [same]

end Dialogue

namespace Attempt

open Dialogue

variable {turns : List (Turn Op Reply)} {allowed : Op → Prop}

/-- An attempt that has returned is gone on with. -/
theorem held_ok_bind {attempt : Attempt Op Reply α} {next : α → Attempt Op Reply β} {value : α}
    {rest : List (Turn Op Reply)} {result : Option (Outcome β)}
    (held : Held attempt.run turns (some (.ok value))) (after : Held (next value).run rest result) :
    Held (attempt >>= next).run (turns ++ rest) result :=
  Held.bind held after

/-- What became of an attempt that goes on with the value of another one. -/
theorem held_bind {attempt : Attempt Op Reply α} {next : α → Attempt Op Reply β}
    {result : Option (Outcome β)} (held : Held (attempt >>= next).run turns result) :
    (result = none ∧ Held attempt.run turns none) ∨
      (∃ error, result = some (.error error) ∧ Held attempt.run turns (some (.error error))) ∨
      ∃ value first second, turns = first ++ second ∧ Held attempt.run first (some (.ok value)) ∧
        Held (next value).run second result := by
  rcases Held.of_bind held with stopped | ⟨outcome, first, second, rfl, former, latter⟩
  · exact .inl stopped
  · cases outcome with
    | error error =>
      cases latter
      rw [List.append_nil]
      exact .inr (.inl ⟨error, rfl, former⟩)
    | ok value => exact .inr (.inr ⟨value, first, second, rfl, former, latter⟩)

/-- An attempt that returned has returned in both of its parts. -/
theorem held_bind_ok {attempt : Attempt Op Reply α} {next : α → Attempt Op Reply β} {value : β}
    (held : Held (attempt >>= next).run turns (some (.ok value))) :
    ∃ between first second, turns = first ++ second ∧
      Held attempt.run first (some (.ok between)) ∧
      Held (next between).run second (some (.ok value)) := by
  rcases held_bind held with ⟨same, _⟩ | ⟨_, same, _⟩ | parts
  · cases same
  · cases same
  · exact parts

/-- An attempt that stalled has stalled in one of its parts. -/
theorem held_bind_stalled {attempt : Attempt Op Reply α} {next : α → Attempt Op Reply β}
    (held : Held (attempt >>= next).run turns none) :
    Held attempt.run turns none ∨
      ∃ between first second, turns = first ++ second ∧
        Held attempt.run first (some (.ok between)) ∧ Held (next between).run second none := by
  rcases held_bind held with ⟨_, stopped⟩ | ⟨_, same, _⟩ | parts
  · exact .inl stopped
  · cases same
  · exact .inr parts

/-- What became of an attempt that goes on with the value of a dialogue, which cannot fail. -/
theorem held_lift_bind {dialogue : Dialogue Op Reply α} {next : α → Attempt Op Reply β}
    {result : Option (Outcome β)}
    (held : Held ((liftM dialogue : Attempt Op Reply α) >>= next).run turns result) :
    (result = none ∧ Held dialogue turns none) ∨
      ∃ value first second, turns = first ++ second ∧ Held dialogue first (some value) ∧
        Held (next value).run second result := by
  have direct : ((liftM dialogue : Attempt Op Reply α) >>= next).run =
      dialogue.bind fun value => (next value).run :=
    bind_bind dialogue (fun value => done (Except.ok value)) (ExceptT.bindCont next)
  rw [direct] at held
  exact held.of_bind

/-- What became of an attempt that goes on with the outcome of another one, whatever it is. -/
theorem held_outcome_bind {attempt : Attempt Op Reply α} {next : Outcome α → Attempt Op Reply β}
    {result : Option (Outcome β)} (held : Held (attempt.outcome >>= next).run turns result) :
    (result = none ∧ Held attempt.run turns none) ∨
      ∃ outcome first second, turns = first ++ second ∧
        Held attempt.run first (some outcome) ∧ Held (next outcome).run second result :=
  held_lift_bind held

theorem asks_bind {attempt : Attempt Op Reply α} {next : α → Attempt Op Reply β}
    (first : attempt.run.Asks allowed) (second : ∀ value, (next value).run.Asks allowed) :
    (attempt >>= next).run.Asks allowed := by
  refine Asks.bind first fun outcome => ?_
  cases outcome with
  | error => trivial
  | ok value => exact second value

theorem asks_outcome {attempt : Attempt Op Reply α} (first : attempt.run.Asks allowed) :
    attempt.outcome.run.Asks allowed :=
  Asks.bind first fun _ => trivial

end Attempt

end CiTelemetry
