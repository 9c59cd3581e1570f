/-
This file holds the limit on calls that run at the same time. A call waits for a
permit, works while it holds one, and gives the permit back however it ends.
Waiting and working both end early once the calls are cancelled. The moves of the
calls may follow one another in any order that `move?` allows.
-/

import CiTelemetry.Number.Power

namespace CiTelemetry

/-! ### Calls -/

/-- How a call ended. -/
inductive CallEnd where
  | succeeded
  | failed
  | gaveUp
  deriving DecidableEq, Repr, Inhabited

/-- How far a call has come. -/
inductive CallStage where
  | waiting
  /-- The call holds a permit and has worked for some turns. -/
  | working (turns : Nat)
  | returned (finish : CallEnd)
  deriving DecidableEq, Repr, Inhabited

namespace CallStage

def isWorking : CallStage → Bool
  | working _ => true
  | _ => false

def hasReturned : CallStage → Bool
  | returned _ => true
  | _ => false

end CallStage

/-- What a call may do next. -/
inductive CallMove where
  /-- To take a permit and begin. -/
  | acquire
  /-- To work for a turn. -/
  | work
  | succeed
  | fail
  /-- To return because the calls are cancelled. -/
  | giveUp
  deriving DecidableEq, Repr, Inhabited

/-- One move of a call, where it is possible, with the free permits before and
after it. -/
def CallStage.move? (free : Nat) (isCancelled : Bool) :
    CallStage → CallMove → Option (Nat × CallStage)
  | .waiting, .acquire => if 0 < free then some (free - 1, .working 0) else none
  | .waiting, .giveUp => if isCancelled then some (free, .returned .gaveUp) else none
  | .working turns, .work => some (free, .working (turns + 1))
  | .working _, .succeed => some (free + 1, .returned .succeeded)
  | .working _, .fail => some (free + 1, .returned .failed)
  | .working _, .giveUp => if isCancelled then some (free + 1, .returned .gaveUp) else none
  | _, _ => none

/-! ### Calls that share permits -/

/-- Calls that share permits. -/
structure Limiter where
  free : Nat
  calls : List CallStage
  isCancelled : Bool
  /-- The largest number of calls that worked at the same time so far. -/
  peak : Nat
  deriving DecidableEq, Repr, Inhabited

namespace Limiter

/-- There is always at least one permit. -/
def permitsFor (concurrency : Nat) : Nat :=
  max concurrency 1

/-- The most permits that can be counted; three bits of a word of 64 bits serve other ends. -/
def maxPermits : Nat := twoTo 61 - 1

/-- The permits for calls, if they can be counted. -/
def permits? (concurrency : Nat) : Option Nat :=
  if permitsFor concurrency ≤ maxPermits then some (permitsFor concurrency) else none

/-- A number of calls that have not begun. -/
def ofCalls (concurrency count : Nat) : Limiter :=
  ⟨permitsFor concurrency, List.replicate count .waiting, false, 0⟩

/-- How many calls hold a permit. -/
def active (limiter : Limiter) : Nat :=
  limiter.calls.countP CallStage.isWorking

/-- What may happen next. -/
inductive Move where
  | call (index : Nat) (move : CallMove)
  | cancel
  deriving DecidableEq, Repr, Inhabited

/-- Takes the number of active calls into account. -/
def noted (limiter : Limiter) : Limiter :=
  { limiter with peak := max limiter.peak limiter.active }

/-- One move of a call, where it is possible. -/
def callMove? (limiter : Limiter) (index : Nat) (move : CallMove) : Option Limiter := do
  let call ← limiter.calls[index]?
  let (free, next) ← call.move? limiter.free limiter.isCancelled move
  pure { limiter with free, calls := limiter.calls.set index next }.noted

/-- One move, where it is possible. -/
def move? (limiter : Limiter) : Move → Option Limiter
  | .call index move => limiter.callMove? index move
  | .cancel => some { limiter with isCancelled := true }

/-- Makes moves one after another and passes over those that are not possible. -/
def run (limiter : Limiter) (moves : List Move) : Limiter :=
  moves.foldl (fun limiter move => (limiter.move? move).getD limiter) limiter

theorem run_append (limiter : Limiter) (first second : List Move) :
    limiter.run (first ++ second) = (limiter.run first).run second :=
  List.foldl_append

/-! ### An order of moves -/

/-- The moves of a call that holds a permit and succeeds after some turns. -/
def finishing (turns index : Nat) : List Move :=
  List.replicate turns (.call index .work) ++ [.call index .succeed]

/-- An order of moves in which every call succeeds: the calls begin one after
another, and once the permits are taken the call that began first returns before
the next one begins. -/
def inTurn (turns permits count : Nat) : List Move :=
  (List.range (count + permits)).flatMap fun index =>
    (if permits ≤ index then finishing turns (index - permits) else []) ++
      (if index < count then [.call index .acquire] else [])

end Limiter

end CiTelemetry
