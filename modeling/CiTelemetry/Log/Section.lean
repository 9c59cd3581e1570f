/-
This file holds the sections of a job log: the stack that opens and closes them
as markers arrive, and the two ways of ending a section that the log left open.
An end marker closes the innermost section of its name together with every
section opened inside it, so mismatched markers heal by themselves.
-/

namespace CiTelemetry

/-- A named stretch of a job log, in unix seconds as the runner wrote them. A
section without an end was still open when the log ended. -/
structure Section where
  name : String
  start : Int
  finish : Option Int
  deriving DecidableEq, Repr, Inhabited

/-- What the end of the log means for the sections still open. -/
inductive EndOfLog where
  /-- They stay without an end. -/
  | leaveOpen
  /-- They end at the given time. -/
  | closeAt (time : Int)
  deriving DecidableEq, Repr, Inhabited

/-- The end that a section gets when the log is over. -/
def EndOfLog.finish? : EndOfLog → Option Int
  | leaveOpen => none
  | closeAt time => some time

/-- A marker found in a log. -/
inductive SectionEvent where
  | opens (name : String) (time : Int)
  | closes (name : String) (time : Int)
  deriving DecidableEq, Repr, Inhabited

/-- A section that has begun and not ended. -/
structure OpenSection where
  name : String
  start : Int
  deriving DecidableEq, Repr, Inhabited

/-- The section that an open one becomes. -/
def OpenSection.ended (opened : OpenSection) (finish : Option Int) : Section :=
  ⟨opened.name, opened.start, finish⟩

/-- The open sections, innermost first, and the closed ones in the order in
which they closed. -/
structure SectionStack where
  opened : List OpenSection
  closed : List Section
  deriving DecidableEq, Repr, Inhabited

namespace SectionStack

def empty : SectionStack := ⟨[], []⟩

/-! ### Markers -/

def start (stack : SectionStack) (name : String) (time : Int) : SectionStack :=
  { stack with opened := ⟨name, time⟩ :: stack.opened }

/-- The open sections down to the innermost one called `name`, and those below
it. -/
def splitAt (name : String) (opened : List OpenSection) : List OpenSection × List OpenSection :=
  match opened with
  | [] => ([], [])
  | innermost :: below =>
    if innermost.name = name then ([innermost], below)
    else
      let (inside, outside) := splitAt name below
      (innermost :: inside, outside)

/-- Closes the innermost section called `name` and every section opened after
it, innermost first. A name that no open section has changes nothing. -/
def close (stack : SectionStack) (name : String) (time : Int) : SectionStack :=
  if stack.opened.any (·.name = name) then
    let (inside, outside) := splitAt name stack.opened
    ⟨outside, stack.closed ++ inside.map (·.ended (some time))⟩
  else stack

/-- What one marker does. -/
def apply (stack : SectionStack) : SectionEvent → SectionStack
  | .opens name time => stack.start name time
  | .closes name time => stack.close name time

def applyAll (stack : SectionStack) (events : List SectionEvent) : SectionStack :=
  events.foldl apply stack

/-- The closed sections in the order in which they closed, and then those still
open, innermost first. -/
def finish (stack : SectionStack) (endOfLog : EndOfLog) : List Section :=
  stack.closed ++ stack.opened.map (·.ended endOfLog.finish?)

end SectionStack

/-- A section without an end gets one that is never before its start. -/
def Section.backfill (part : Section) (time : Int) : Section :=
  match part.finish with
  | some _ => part
  | none => { part with finish := some (max time part.start) }

def backfillOpen (sections : List Section) (time : Int) : List Section :=
  sections.map (·.backfill time)

end CiTelemetry
