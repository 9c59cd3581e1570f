/-
This file holds a file of lines to which many calls send records at the same
time. A call waits for the lock of the file, writes its lines in as many pieces
as the outside takes them, and gives the lock back once all of them are written
or one of them is refused. The moves of the calls may follow one another in any
order that `move?` allows.
-/

import CiTelemetry.Export.LineFile

namespace CiTelemetry

/-! ### Calls -/

/-- A call that sends records of one kind. -/
structure SendCall where
  kind : EntityKind
  records : List Json
  deriving Repr, Inhabited

namespace SendCall

/-- What a call writes. -/
def block (call : SendCall) : Bytes :=
  Utf8.encode (LineFile.lines call.kind call.records)

/-- What a call does when it is alone. -/
def program (path : String) (call : SendCall) : Program (Outcome Unit) :=
  LineFile.send path call.kind call.records

end SendCall

/-- How far a call has come. -/
inductive SendStage where
  | waiting
  /-- The call holds the lock and has written so many bytes. -/
  | writing (count : Nat)
  | sent
  /-- The call was refused after so many bytes. -/
  | refused (count : Nat)
  deriving DecidableEq, Repr, Inhabited

/-- A call with how far it has come. -/
structure Sender where
  call : SendCall
  stage : SendStage
  deriving Repr, Inhabited

/-- What a call may do next. -/
inductive SendMove where
  /-- To take the lock. -/
  | acquire
  /-- To write some of the bytes that are left. -/
  | write (count : Nat)
  /-- To give the lock back after everything is written. -/
  | finish
  /-- To give the lock back because the outside refuses to go on. -/
  | fail
  deriving DecidableEq, Repr, Inhabited

/-! ### Calls that share a file -/

/-- A file with the calls that send to it. -/
structure SharedFile where
  contents : Bytes
  isLocked : Bool
  senders : List Sender
  /-- The places of the calls that took the lock so far, one after another. -/
  turns : List Nat
  deriving Repr, Inhabited

namespace SharedFile

/-- Calls that have not begun, for a file that may have contents already. -/
def ofCalls (contents : Bytes) (calls : List SendCall) : SharedFile :=
  ⟨contents, false, calls.map (⟨·, .waiting⟩), []⟩

/-- The move of one of the calls. -/
structure Move where
  index : Nat
  move : SendMove
  deriving DecidableEq, Repr, Inhabited

/-- Sets how far a call has come. -/
def withStage (file : SharedFile) (index : Nat) (call : SendCall) (stage : SendStage) :
    SharedFile :=
  { file with senders := file.senders.set index ⟨call, stage⟩ }

/-- One move, where it is possible. Writing goes to the end of the file. -/
def move? (file : SharedFile) : Move → Option SharedFile
  | ⟨index, move⟩ => do
    let ⟨call, stage⟩ ← file.senders[index]?
    match stage, move with
    | .waiting, .acquire =>
      if file.isLocked then none
      else
        some { file.withStage index call (.writing 0) with
          isLocked := true, turns := file.turns ++ [index] }
    | .writing done, .write count =>
      if done + count ≤ call.block.length then
        some { file.withStage index call (.writing (done + count)) with
          contents := file.contents ++ (call.block.drop done).take count }
      else none
    | .writing done, .finish =>
      if done = call.block.length then
        some { file.withStage index call .sent with isLocked := false }
      else none
    | .writing done, .fail =>
      some { file.withStage index call (.refused done) with isLocked := false }
    | _, _ => none

/-- Makes moves one after another and passes over those that are not possible. -/
def run (file : SharedFile) (moves : List Move) : SharedFile :=
  moves.foldl (fun file move => (file.move? move).getD file) file

/-- The calls that took the lock so far, one after another. -/
def order (file : SharedFile) : List SendCall :=
  file.turns.filterMap fun index => file.senders[index]?.map Sender.call

/-- Whether every call has sent its records. -/
def isSent (file : SharedFile) : Bool :=
  file.senders.all (·.stage == .sent)

end SharedFile

end CiTelemetry
