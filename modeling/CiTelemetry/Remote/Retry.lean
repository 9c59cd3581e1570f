/-
This file holds the pauses between the attempts of a request: each pause is
twice the one before, up to a limit.
-/

import CiTelemetry.Number.Power

namespace CiTelemetry

/-- The largest number of an unsigned word of 32 bits. -/
def maxUnsigned32 : Nat := twoTo 32 - 1

/-- The longest span that a pause can be computed as, in milliseconds: a word of
64 bits full of seconds. -/
def longestPause : Nat := twoTo 64 * 1000 - 1

/-- How often a request is repeated, and after which pauses. -/
structure RetryPolicy where
  maxRetries : Nat
  baseDelay : Nat
  maxDelay : Nat
  deriving DecidableEq, Repr, Inhabited

namespace RetryPolicy

/-- The factor of a pause; it doubles sixteen times at most. -/
def factor (attempt : Nat) : Nat :=
  min (twoTo (min attempt 16)) maxUnsigned32

/-- The pause in milliseconds before the retry with a number, counted from
zero. -/
def delay (policy : RetryPolicy) (attempt : Nat) : Nat :=
  min (min (policy.baseDelay * factor attempt) longestPause) policy.maxDelay

end RetryPolicy

end CiTelemetry
