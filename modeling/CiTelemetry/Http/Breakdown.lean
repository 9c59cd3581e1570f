/-
This file holds the ways in which an exchange with a web server ends without an
answer. Most of them may pass, so that the request is worth another attempt.
-/

namespace CiTelemetry

namespace Http

/-- How an exchange breaks down without an answer. -/
inductive Breakdown where
  /-- No connection came about. -/
  | unconnected
  /-- The connection was closed before an answer. -/
  | dropped
  /-- No answer came in time. -/
  | timedOut
  /-- The server led from one address to the next too often. -/
  | redirected
  deriving DecidableEq, Repr, Inhabited

/-- Whether another attempt may get an answer. -/
def Breakdown.allowsRetry : Breakdown → Bool
  | unconnected | dropped | timedOut => true
  | redirected => false

end Http

end CiTelemetry
