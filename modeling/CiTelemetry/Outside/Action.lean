/-
This file holds everything that the program asks of the outside when it runs:
the web, files, the standard output, the clock, and whether it was interrupted.
-/

import CiTelemetry.Http.Message
import CiTelemetry.Outside.File
import CiTelemetry.Time.Instant

namespace CiTelemetry

namespace Outside

/-- A request to the outside. -/
inductive Action where
  | web (action : Http.Action)
  | read (path : String)
  /-- Whether there is anything at a path. -/
  | find (path : String)
  | write (path : String) (text : String)
  | append (path : String) (text : String)
  | print (text : String)
  | isInterrupted
  | now
  /-- To wait until an instant or an interruption. -/
  | waitUntil (instant : Instant)

abbrev Action.Reply : Action → Type
  | web action => action.Reply
  | read _ => Except FileFault Bytes
  | find _ => Bool
  | write .. => Except FileFault Unit
  | append .. => Except FileFault Unit
  | print _ => Unit
  | isInterrupted => Bool
  | now => Instant
  | waitUntil _ => Unit

end Outside

/-- What the program does. -/
abbrev Program (α : Type) := Dialogue Outside.Action Outside.Action.Reply α

namespace Program

/-- Asks one thing of the outside. -/
def request (action : Outside.Action) : Program action.Reply :=
  Dialogue.question action

/-- An exchange with the web as a part of the program. -/
def ofExchange {α : Type} (exchange : Http.Exchange α) : Program (Outcome α) :=
  exchange.run.expand fun action => request (.web action)

end Program

end CiTelemetry
