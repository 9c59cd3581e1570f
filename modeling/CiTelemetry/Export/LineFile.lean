/-
This file writes records as lines, one line of JSON for each record with its
kind. JSON without spaces has no end of a line inside, so that the lines of a
file are the records that were sent.
-/

import CiTelemetry.Export.Kind
import CiTelemetry.Outside.Action

namespace CiTelemetry

namespace LineFile

/-- A record with its kind. -/
def envelope (kind : EntityKind) (record : Json) : Json :=
  .obj [("kind", .str kind.name), ("record", record)]

def line (kind : EntityKind) (record : Json) : String :=
  (envelope kind record).render ++ "\n"

def lines (kind : EntityKind) (records : List Json) : String :=
  String.join (records.map (line kind))

/-- The path that stands for the standard output. -/
def standardOutput : String := "-"

/-- Sends records to the end of a file, all in one piece. -/
def send (path : String) (kind : EntityKind) (records : List Json) : Program (Outcome Unit) :=
  if path = standardOutput then do
    Program.request (.print (lines kind records))
    pure (.ok ())
  else do
    match ← Program.request (.append path (lines kind records)) with
    | .ok () => pure (.ok ())
    | .error fault =>
      let reason := (SyncError.inputOutput fault.message).message?.getD ""
      pure (.error (.sinkRefused path kind.name reason))

end LineFile

end CiTelemetry
