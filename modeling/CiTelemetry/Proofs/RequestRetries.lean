/-
This file proves which requests are sent, and after which pauses, whatever the
server answers to each of them. Breakdowns that may pass and statuses that ask
for another attempt count together. The first answer that is neither decides; if
there is none within the retries that are allowed, the last one does. The retries
are counted in a word of 32 bits, which does not overflow.
-/

import CiTelemetry.Proofs.Conversations
import CiTelemetry.Remote.Client

namespace CiTelemetry

open Http

/-! ### Scripts -/

/-- What comes back for a request. -/
abbrev Http.Answer := Except Breakdown Response

/-- Whether an answer is worth another attempt. -/
def Http.Answer.asksAgain : Answer → Bool
  | .error breakdown => breakdown.allowsRetry
  | .ok response => response.asksForRetry

/-- A server that answers the requests one after another from a script. The state counts the
requests. -/
def scripted (script : Nat → Answer) : (action : Http.Action) → Nat → action.Reply × Nat
  | .send _, sent => (script sent, sent + 1)
  | .pause _, sent => ((), sent)

/-- An exchange against a script, from where so many requests have been sent: what it asks of the
outside, what it comes to, and how many requests have been sent at the end. -/
structure PlaysFrom {α : Type} (script : Nat → Answer) (sent : Nat) (exchange : Exchange α)
    (actions : List Http.Action) (outcome : Outcome α) (after : Nat) : Prop where
  actions : (exchange.run.transcript (scripted script) sent).map (·.asked) = actions
  run : exchange.run.run (scripted script) sent = (some outcome, after)

namespace PlaysFrom

variable {α : Type} {script : Nat → Answer} {sent after : Nat} {actions : List Http.Action}
  {outcome : Outcome α}

/-- An outcome that is known asks for nothing. -/
theorem known (script : Nat → Answer) (sent : Nat) (outcome : Outcome α) :
    PlaysFrom script sent (Attempt.ofOutcome outcome) [] outcome sent :=
  ⟨rfl, rfl⟩

/-- A request gets the next answer of the script. -/
theorem send {request : Request} {next : Answer → Exchange α}
    (later : PlaysFrom script (sent + 1) (next (script sent)) actions outcome after) :
    PlaysFrom script sent (Exchange.send request >>= next) (.send request :: actions) outcome
      after :=
  ⟨congrArg (Http.Action.send request :: ·) later.actions, later.run⟩

/-- A pause does not change what comes next. -/
theorem pause {millis : Nat} {next : Unit → Exchange α}
    (later : PlaysFrom script sent (next ()) actions outcome after) :
    PlaysFrom script sent (Exchange.pause millis >>= next) (.pause millis :: actions) outcome
      after :=
  ⟨congrArg (Http.Action.pause millis :: ·) later.actions, later.run⟩

end PlaysFrom

namespace Client

variable {policy : RetryPolicy} {request : Request} {script : Nat → Answer}

/-- A request and its retries, from the one with a number on, each after its pause. -/
def attempts (policy : RetryPolicy) (request : Request) : Nat → Nat → List Http.Action
  | _, 0 => [.send request]
  | number, retries + 1 =>
    .send request :: .pause (policy.delay number) :: attempts policy request (number + 1) retries

/-! ### One attempt -/

/-- What a request comes to in the end if the answer to it is always the same. -/
def settled (policy : RetryPolicy) : Except Breakdown Response → Outcome Response
  | .error breakdown => .error (.network breakdown)
  | .ok response =>
    if response.asksForRetry then .error (.retriesExhausted response.status policy.maxRetries)
    else if response.isSuccess then .ok response
    else .error (.apiStatus response.status (refusalText response))

/-- Without retries left every answer decides. -/
theorem sendAgain_zero (policy : RetryPolicy) (request : Request) :
    sendAgain policy request 0 = (do
      let answer ← Exchange.send request
      Attempt.ofOutcome (settled policy answer)) := by
  rw [sendAgain]
  refine congrArg (Exchange.send request >>= ·) (funext fun answer => ?_)
  cases answer with
  | error breakdown => exact ite_self _
  | ok response =>
    dsimp only [settled]
    split
    · rfl
    · split <;> rfl

/-- With retries left an answer that asks for it leads to another attempt, after the pause of its
number; any other answer decides. -/
theorem sendAgain_succ (policy : RetryPolicy) (request : Request) (left : Nat) :
    sendAgain policy request (left + 1) = (do
      let answer ← Exchange.send request
      if Answer.asksAgain answer then
        Exchange.pause (policy.delay (policy.maxRetries - (left + 1)))
        sendAgain policy request left
      else Attempt.ofOutcome (settled policy answer)) := by
  rw [sendAgain]
  refine congrArg (Exchange.send request >>= ·) (funext fun answer => ?_)
  cases answer with
  | error breakdown => rfl
  | ok response =>
    dsimp only [settled, Answer.asksAgain]
    split
    · rfl
    · split <;> rfl

/-! ### A run of attempts -/

/-- The attempts of which the first ones are asked to be made again, until an answer decides or no
retries are left. -/
theorem playsFrom_sendAgain (request : Request) (sent : Nat) {left retries : Nat}
    (within : retries ≤ left) (fits : left ≤ policy.maxRetries)
    (again : ∀ earlier < retries, (script (sent + earlier)).asksAgain)
    (last : ¬ (script (sent + retries)).asksAgain ∨ retries = left) :
    PlaysFrom script sent (sendAgain policy request left)
      (attempts policy request (policy.maxRetries - left) retries)
      (settled policy (script (sent + retries))) (sent + retries + 1) := by
  induction retries generalizing sent left with
  | zero =>
    have ends := PlaysFrom.known script (sent + 1) (settled policy (script sent))
    cases left with
    | zero =>
      rw [sendAgain_zero]
      exact .send ends
    | succ left =>
      have decides : ¬ (script sent).asksAgain := last.resolve_right (Nat.succ_ne_zero left).symm
      rw [sendAgain_succ]
      refine .send ?_
      rwa [if_neg decides]
  | succ retries inductionHypothesis =>
    obtain ⟨left, rfl⟩ : ∃ fewer, left = fewer + 1 := ⟨left - 1, by omega⟩
    have shifted (number : Nat) : sent + 1 + number = sent + (number + 1) := by omega
    have later := inductionHypothesis (sent + 1) (Nat.le_of_succ_le_succ within)
      (Nat.le_of_succ_le fits)
      (fun earlier isEarlier => shifted earlier ▸ again (earlier + 1) (Nat.succ_lt_succ isEarlier))
      (by rw [shifted]; exact last.imp_right Nat.succ.inj)
    have next : policy.maxRetries - left = policy.maxRetries - (left + 1) + 1 := by omega
    have asks : (script sent).asksAgain := again 0 (Nat.succ_pos retries)
    rw [shifted, next] at later
    rw [sendAgain_succ]
    refine .send ?_
    rw [if_pos asks]
    exact .pause later

/-! ### The count -/

/-- Whether a word of 32 bits is full. -/
def isFull (count : UInt32) : Bool :=
  count.toNat == maxUnsigned32

theorem toNat_add_one {count : UInt32} (hasRoom : ¬ isFull count) :
    (count + 1).toNat = count.toNat + 1 := by
  have bound := count.toNat_lt
  have notFull : count.toNat ≠ 2 ^ 32 - 1 := fun same => hasRoom (beq_iff_eq.mpr same)
  rw [UInt32.toNat_add]
  exact Nat.mod_eq_of_lt (show count.toNat + 1 < 2 ^ 32 by omega)

/-- Sends a request until it is answered, and counts the retries in a word of 32 bits. A word that
overflows leaves nothing to go on with. -/
def sendCounting (policy : RetryPolicy) (request : Request) (count : UInt32) :
    Exchange Response := do
  let answer ← Exchange.send request
  if Answer.asksAgain answer ∧ count < UInt32.ofNat policy.maxRetries then
    Exchange.pause (policy.delay count.toNat)
    if isFull count then Attempt.stalled else sendCounting policy request (count + 1)
  else Attempt.ofOutcome (settled policy answer)
termination_by UInt32.size - count.toNat
decreasing_by
  next hasRoom =>
    have bound : count.toNat < UInt32.size := count.toNat_lt
    rw [toNat_add_one hasRoom]
    omega

/-- The count is the number of the retry, and it does not overflow. -/
theorem sendCounting_eq_sendAgain {count : UInt32} {left : Nat}
    (fits : policy.maxRetries ≤ maxUnsigned32) (counted : count.toNat + left = policy.maxRetries) :
    sendCounting policy request count = sendAgain policy request left := by
  have limit : (UInt32.ofNat policy.maxRetries).toNat = policy.maxRetries :=
    UInt32.toNat_ofNat_of_lt (Nat.lt_succ_of_le fits)
  induction left generalizing count with
  | zero =>
    have noneLeft : ¬ count < UInt32.ofNat policy.maxRetries := by
      rw [UInt32.lt_iff_toNat_lt, limit]
      omega
    rw [sendCounting, sendAgain_zero]
    refine congrArg (Exchange.send request >>= ·) (funext fun answer => ?_)
    exact if_neg fun both => noneLeft both.2
  | succ left inductionHypothesis =>
    have someLeft : count < UInt32.ofNat policy.maxRetries := by
      rw [UInt32.lt_iff_toNat_lt, limit]
      omega
    have hasRoom : ¬ isFull count := by
      intro full
      have same : count.toNat = maxUnsigned32 := beq_iff_eq.mp full
      omega
    have number : policy.maxRetries - (left + 1) = count.toNat := by omega
    have next : (count + 1).toNat + left = policy.maxRetries := by
      rw [toNat_add_one hasRoom]
      omega
    rw [sendCounting, sendAgain_succ, number]
    refine congrArg (Exchange.send request >>= ·) (funext fun answer => ?_)
    by_cases asks : Answer.asksAgain answer
    · rw [if_pos ⟨asks, someLeft⟩, if_pos asks, if_neg hasRoom, inductionHypothesis next]
    · rw [if_neg fun both => asks both.1, if_neg asks]

/-! ### What a request comes to -/

/-- What an answer comes to that does not ask for another attempt. -/
def decided : Answer → Outcome Response
  | .error breakdown => .error (.network breakdown)
  | .ok response =>
    if response.isSuccess then .ok response
    else .error (.apiStatus response.status (refusalText response))

/-- What an answer comes to that asks for another attempt after so many of them. -/
def givenUp (retries : Nat) : Answer → Outcome Response
  | .error breakdown => .error (.network breakdown)
  | .ok response => .error (.retriesExhausted response.status retries)

theorem settled_of_decides {answer : Answer} (decides : ¬ answer.asksAgain) :
    settled policy answer = decided answer := by
  cases answer with
  | error => rfl
  | ok response => exact if_neg decides

theorem settled_of_asksAgain {answer : Answer} (asks : answer.asksAgain) :
    settled policy answer = givenUp policy.maxRetries answer := by
  cases answer with
  | error => rfl
  | ok response => exact if_pos asks

/-- Which requests are sent and what they come to, whatever the server answers. The first answer
that does not ask for another attempt decides, if it comes within the retries that are allowed; else
the request is given up after the last of them. All requests are the same one, the pauses between
them are numbered from zero on, and counting them in a word does not overflow. A request that cannot
be sent is not. -/
theorem send_follows_script (client : Client) (request : Request) (script : Nat → Answer)
    (fits : client.retry.maxRetries ≤ maxUnsigned32) :
    (request.isSendable →
      (∀ first ≤ client.retry.maxRetries, (∀ earlier < first, (script earlier).asksAgain) →
        ¬ (script first).asksAgain →
        PlaysFrom script 0 (client.send request) (attempts client.retry request 0 first)
          (decided (script first)) (first + 1)) ∧
      ((∀ number ≤ client.retry.maxRetries, (script number).asksAgain) →
        PlaysFrom script 0 (client.send request)
          (attempts client.retry request 0 client.retry.maxRetries)
          (givenUp client.retry.maxRetries (script client.retry.maxRetries))
          (client.retry.maxRetries + 1)) ∧
      client.send request = sendCounting client.retry request 0) ∧
    (¬ request.isSendable → PlaysFrom script 0 (client.send request) [] (.error .network) 0) := by
  refine ⟨fun sendable => ?_, fun unsendable => ?_⟩
  · have sends : client.send request =
        sendAgain client.retry request client.retry.maxRetries := if_pos sendable
    rw [sends]
    refine ⟨fun first within again decides => ?_, fun again => ?_, ?_⟩
    · have plays := playsFrom_sendAgain request 0 within (Nat.le_refl client.retry.maxRetries)
        (fun earlier isEarlier => (Nat.zero_add earlier).symm ▸ again earlier isEarlier)
        (.inl ((Nat.zero_add first).symm ▸ decides))
      rwa [Nat.sub_self, Nat.zero_add, settled_of_decides decides] at plays
    · have plays := playsFrom_sendAgain request 0 (Nat.le_refl client.retry.maxRetries) (Nat.le_refl _)
        (fun earlier isEarlier => (Nat.zero_add earlier).symm ▸ again earlier (Nat.le_of_lt isEarlier))
        (.inr rfl)
      rwa [Nat.sub_self, Nat.zero_add, settled_of_asksAgain (again _ (Nat.le_refl _))] at plays
    · exact (sendCounting_eq_sendAgain fits (Nat.zero_add _)).symm
  · have refuses : client.send request = throw .network := if_neg unsendable
    rw [refuses]
    exact ⟨rfl, rfl⟩

end Client

/-! ### A mixed script -/

namespace MixedScript

/-- A client that pauses for a second at first. -/
def client (retries : Nat) : Client :=
  ⟨default, default, none, ⟨retries, 1000, 60000⟩⟩

def errand : Request :=
  ⟨.fetch, ⟨"http", "", "", none, none, .levels [], none, none⟩, none, none, none⟩

/-- The server limits the rate, does not answer in time, is overloaded, and answers. -/
def script : Nat → Answer
  | 0 => .ok ⟨429, [], none⟩
  | 1 => .error .timedOut
  | 2 => .ok ⟨503, [], none⟩
  | _ => .ok ⟨200, [], some []⟩

theorem asksAgain_script : ∀ number < 3, (script number).asksAgain := by
  decide

end MixedScript

open MixedScript Client in
/-- Three retries lead to the answer, two do not; both kinds of failure count. -/
theorem two_clients_follow_script :
    PlaysFrom script 0 ((client 3).send errand)
      [.send errand, .pause 1000, .send errand, .pause 2000, .send errand, .pause 4000,
        .send errand] (.ok ⟨200, [], some []⟩) 4 ∧
    PlaysFrom script 0 ((client 2).send errand)
      [.send errand, .pause 1000, .send errand, .pause 2000, .send errand]
      (.error (.retriesExhausted 503 2)) 3 ∧
    (client 2).send errand = sendCounting (client 2).retry errand 0 := by
  have sendable : errand.isSendable := by decide
  have three := (send_follows_script (client 3) errand script (by decide)).1 sendable
  have two := (send_follows_script (client 2) errand script (by decide)).1 sendable
  exact ⟨three.1 3 (Nat.le_refl 3) asksAgain_script (by decide),
    two.2.1 (fun number within => asksAgain_script number (Nat.lt_succ_of_le within)), two.2.2⟩

end CiTelemetry
