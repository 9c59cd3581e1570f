/-
This file holds everything that a synchronization asks of the outside: the
server, the sinks, the clock, and whether it has been cancelled. The dialogues
over these questions are the synchronization itself.
-/

import CiTelemetry.Dialogue
import CiTelemetry.Export.Kind
import CiTelemetry.Remote.Query

namespace CiTelemetry

/-- A question of a synchronization to the outside. -/
inductive Action where
  /-- A question for the server. -/
  | query (asked : Query)
  /-- Whether the synchronization has been cancelled. -/
  | isCancelled
  /-- Records of one kind for the sink at a place in the list of sinks. -/
  | send (sink : Nat) (kind : EntityKind) (records : List Json)
  /-- The present instant. -/
  | now
  /-- To wait until an instant, or until the synchronization is cancelled. -/
  | waitUntil (instant : Instant)

/-- What the reply to a question is. -/
abbrev Action.Reply : Action → Type
  | query asked => Outcome asked.Answer
  | isCancelled => Bool
  | send .. => Outcome Unit
  | now => Instant
  | waitUntil _ => Unit

/-- A part of a synchronization that does not fail. -/
abbrev Sync (α : Type) := Dialogue Action Action.Reply α

/-- A part of a synchronization that may fail. -/
abbrev Fetch (α : Type) := Attempt Action Action.Reply α

/-- Asks the server. -/
def Fetch.query (asked : Query) : Fetch asked.Answer :=
  ExceptT.mk (Dialogue.question (Action.query asked))

/-- Asks whether the synchronization has been cancelled. -/
def Sync.isCancelled : Sync Bool :=
  Dialogue.question Action.isCancelled

/-- Asks the clock. -/
def Sync.now : Sync Instant :=
  Dialogue.question Action.now

/-- Waits until an instant, or until the synchronization is cancelled. -/
def Sync.waitUntil (instant : Instant) : Sync Unit :=
  Dialogue.question (Action.waitUntil instant)

/-- Sends records of one kind to one sink. -/
def Sync.send (sink : Nat) (kind : EntityKind) (records : List Json) : Sync (Outcome Unit) :=
  Dialogue.question (Action.send sink kind records)

end CiTelemetry
