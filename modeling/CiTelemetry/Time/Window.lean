/-
This file holds the time ranges that fetches cover: the live ranges, which
follow one another without a gap, and the ranges of the walk back through
history, which tile everything from a floor up to the present.
-/

import CiTelemetry.Json.Fields

namespace CiTelemetry

/-- The half-open range of time from `start` up to, and not including, `finish`. -/
structure SyncWindow where
  start : Instant
  finish : Instant
  deriving DecidableEq, Repr, Inhabited

namespace SyncWindow

/-- The window that ends at `now` and reaches `span` nanoseconds back. -/
def trailing (now : Instant) (span : Int) : SyncWindow :=
  ⟨now.back span, now⟩

/-- The next live window. It begins where this one ended and never runs
backward, whatever the clock does. -/
def advance (window : SyncWindow) (now : Instant) : SyncWindow :=
  ⟨window.finish, Instant.latest now window.finish⟩

def contains (window : SyncWindow) (instant : Instant) : Bool :=
  window.start.notAfter instant && instant.before window.finish

/-- Whether a range meets this window. A missing bound leaves the range open on
that side. -/
def overlaps (window : SyncWindow) (start finish : Option Instant) : Bool :=
  start.all (·.before window.finish) && finish.all (window.start.before ·)

def encode (window : SyncWindow) : Json :=
  .obj [("after", .ofInstant window.start), ("before", .ofInstant window.finish)]

end SyncWindow

/-! ### The walk back -/

/-- The window of the walk back that ends at `finish`: one interval long, cut at
the floor, and none once the floor is reached. Going back is not bounded here;
`catchUpWindows?` says which walks can be computed. -/
def catchUpWindow? (interval : Int) (floor finish : Instant) : Option SyncWindow :=
  if finish.notAfter floor || interval ≤ 0 then none
  else some ⟨Instant.latest (finish.back interval) floor, finish⟩

/-- The first `limit` windows of the walk back from `now` down to `floor`. -/
def catchUpWindows (limit : Nat) (now : Instant) (interval : Int) (floor : Instant) :
    List SyncWindow :=
  match limit with
  | 0 => []
  | limit + 1 =>
    match catchUpWindow? interval floor now with
    | none => []
    | some window => window :: catchUpWindows limit window.start interval floor

end CiTelemetry
