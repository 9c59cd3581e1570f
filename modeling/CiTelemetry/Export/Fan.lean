/-
This file sends records to all sinks. Every sink is tried, whatever the others
answer, and every kind of a batch is sent, whatever became of the kinds before
it; the refusals are joined at the end.
-/

import CiTelemetry.Sync.Action

namespace CiTelemetry

/-- The sinks that records go to: their number, each being known by its place. -/
structure Exporter where
  sinkCount : Nat
  deriving DecidableEq, Repr, Inhabited

namespace Exporter

/-- Sends records of one kind to sinks, and gives the refusals in their order. -/
def sendToEach (kind : EntityKind) (values : List Json) : List Nat → Sync (List SyncError)
  | [] => pure []
  | sink :: rest => do
    let outcome ← Sync.send sink kind values
    let refusals ← sendToEach kind values rest
    match outcome with
    | .ok () => pure refusals
    | .error refusal => pure (refusal :: refusals)

/-- Sends records of one kind to all sinks. No records are sent to no sink. -/
def send (exporter : Exporter) (kind : EntityKind) (values : List Json) : Sync (Outcome Unit) :=
  if values.isEmpty then pure (.ok ())
  else do
    let refusals ← sendToEach kind values (List.range exporter.sinkCount)
    pure (SyncError.joinResult refusals)

/-- Exports records of one kind; a record without an encoding is left out. -/
def exportRecords {α : Type} (exporter : Exporter) (kind : EntityKind) (encode? : α → Option Json)
    (records : List α) : Sync (Outcome Unit) :=
  exporter.send kind (records.filterMap encode?)

/-- Sends the kinds of a batch one after another, and gives their failures. -/
def sendKinds (exporter : Exporter) : ExportBatch → Sync (List SyncError)
  | [] => pure []
  | (kind, values) :: rest => do
    let outcome ← exporter.send kind values
    let failures ← exporter.sendKinds rest
    match outcome with
    | .ok () => pure failures
    | .error failure => pure (failure :: failures)

/-- Exports all kinds of a batch. -/
def exportBatch (exporter : Exporter) (batch : ExportBatch) : Sync (Outcome Unit) := do
  let failures ← exporter.sendKinds batch
  pure (SyncError.joinResult failures)

end Exporter

end CiTelemetry
