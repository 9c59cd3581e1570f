/-
This file holds the two ways through time: the live loop, whose windows follow
the clock, and the walk back through the history of projects. While the live loop
goes on, the registry may be resolved anew between its turns.
-/

import CiTelemetry.Sync.Process
import CiTelemetry.Sync.Resolve
import CiTelemetry.Sync.Settings

namespace CiTelemetry

/-! ### The live loop -/

/-- The window of a turn of the live loop: the first one reaches one interval
back, and every other one begins where the one before ended. -/
def liveWindow (settings : SyncSettings) (previous : Option SyncWindow) (now : Instant) :
    SyncWindow :=
  match previous with
  | none => .trailing now (spanOfMillis settings.interval)
  | some window => window.advance now

/-- One turn: all projects are processed for the next window, which is the result
unless the synchronization was cancelled. A turn that fails otherwise counts. -/
def liveTurn (context : SyncContext) (settings : SyncSettings) (registry : Registry)
    (previous : Option SyncWindow) (now : Instant) : Sync (Option SyncWindow) := do
  let window := liveWindow settings previous now
  let batches := registry.batches settings.batchSize fun _ => true
  match ← processBatches context batches window previous.isNone with
  | .error .cancelled => pure none
  | _ => pure (some window)

/-- Processes all projects turn after turn until the synchronization is
cancelled. A turn begins one interval after the one before, or at once where that
took longer. -/
def runLive (context : SyncContext) (settings : SyncSettings) (registry : Registry)
    (allowance : Nat) (previous : Option SyncWindow) : Sync Unit :=
  match allowance with
  | 0 => .stalled
  | allowance + 1 => do
    if ← Sync.isCancelled then pure ()
    else
      let now ← Sync.now
      match ← liveTurn context settings registry previous now with
      | none => pure ()
      | some window =>
        Sync.waitUntil (now.add (spanOfMillis settings.interval))
        runLive context settings registry allowance (some window)

/-- The live loop with a registry that is resolved anew before a turn whenever
that is due, which is `span` nanoseconds after the last time. -/
def runRefreshed (context : SyncContext) (settings : SyncSettings) (span : Int)
    (registry : Registry) (due : Instant) (allowance : Nat) (previous : Option SyncWindow) :
    Sync Unit :=
  match allowance with
  | 0 => .stalled
  | allowance + 1 => do
    if ← Sync.isCancelled then pure ()
    else
      let now ← Sync.now
      let isDue := due.notAfter now
      let current ← if isDue then Prod.snd <$> resolveProjects settings registry else pure registry
      let nextDue := if isDue then now.add span else due
      match ← liveTurn context settings current previous now with
      | none => pure ()
      | some window =>
        Sync.waitUntil (now.add (spanOfMillis settings.interval))
        runRefreshed context settings span current nextDue allowance (some window)

/-! ### The walk back -/

/-- The earliest instant of a list. -/
def earliest? : List Instant → Option Instant
  | [] => none
  | first :: rest => some (rest.foldl Instant.earliest first)

/-- How far back the walk goes: to the earliest lower bound of the projects that
take part. -/
def catchUpFloor? (registry : Registry) : Option Instant :=
  earliest? ((registry.filter (·.catchUp.enabled)).filterMap (·.catchUp.updatedAfter))

/-- Walks back from `finish`, after the failures of the windows before. A window
that no project takes part in is passed over. This is what the walk does as long
as its windows can be computed, as `catchUpWindows?` computes them. -/
def catchUpFrom (context : SyncContext) (settings : SyncSettings) (registry : Registry)
    (floor : Instant) (allowance : Nat) (errors : List SyncError) (finish : Instant) :
    Sync (Outcome Unit) :=
  match catchUpWindow? (spanOfMillis settings.catchUpInterval) floor finish with
  | none => pure (SyncError.joinResult errors)
  | some window =>
    match allowance with
    | 0 => .stalled
    | allowance + 1 => do
      if ← Sync.isCancelled then pure (.error .cancelled)
      else
        let batches := registry.batches settings.batchSize (·.catchesUpIn window)
        if batches.isEmpty then
          catchUpFrom context settings registry floor allowance errors window.start
        else
          match ← processBatches context batches window false with
          | .ok () => catchUpFrom context settings registry floor allowance errors window.start
          | .error error =>
            if error.isCancelled then pure (.error error)
            else
              catchUpFrom context settings registry floor allowance (errors ++ [error])
                window.start

/-- Walks back over the history of all projects that take part. -/
def catchUp (context : SyncContext) (settings : SyncSettings) (registry : Registry)
    (allowance : Nat) : Sync (Outcome Unit) :=
  match catchUpFloor? registry with
  | none => pure (.ok ())
  | some floor => do
    let now ← Sync.now
    catchUpFrom context settings registry floor allowance [] now

/-- Asks whether the server answers at all, cancelled or not. -/
def probeReadiness : Sync (Outcome Unit) :=
  (Fetch.query .readiness).run

end CiTelemetry
