/-
This file holds the windows that can be computed within the bounds of time. Going
back past the first instant breaks the computation down, so that there is no
window; within the bounds the windows are those of instants that have none.
-/

import CiTelemetry.Time.Text
import CiTelemetry.Time.Window

namespace CiTelemetry

/-- Whether an instant lies within the bounds of time. -/
def Instant.isInBounds (instant : Instant) : Bool :=
  secondBounds.1 ≤ instant.seconds && instant.seconds ≤ secondBounds.2

/-- The instant `span` nanoseconds earlier, if it can be computed. -/
def Instant.back? (instant : Instant) (span : Int) : Option Instant :=
  if (instant.back span).isInBounds then some (instant.back span) else none

/-- The window that ends at `now` and reaches `span` nanoseconds back, if it can
be computed. -/
def SyncWindow.trailing? (now : Instant) (span : Int) : Option SyncWindow :=
  (now.back? span).map (⟨·, now⟩)

/-- The first `limit` windows of the walk back from `now` down to `floor`, if all
of them can be computed: each one takes going back by a whole interval, even
where it is cut at the floor. -/
def catchUpWindows? (limit : Nat) (now : Instant) (interval : Int) (floor : Instant) :
    Option (List SyncWindow) :=
  match limit with
  | 0 => some []
  | limit + 1 =>
    match catchUpWindow? interval floor now with
    | none => some []
    | some window => do
      let _ ← now.back? interval
      let rest ← catchUpWindows? limit window.start interval floor
      pure (window :: rest)

end CiTelemetry
