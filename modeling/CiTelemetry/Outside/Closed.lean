/-
This file holds a world in memory that a program can run in: it has a folder of
files and a standard output, its clock stands still, and nothing interrupts the
program. It is closed, so that no connection to the web comes about.
-/

import CiTelemetry.Outside.Action

namespace CiTelemetry

/-- A world without a web. -/
structure ClosedWorld where
  folder : Folder
  /-- What was printed. -/
  printed : String
  clock : Instant
  deriving DecidableEq, Repr, Inhabited

namespace ClosedWorld

/-- The world in which nothing happened yet. -/
def fresh (folder : Folder) (clock : Instant) : ClosedWorld :=
  ⟨folder, "", clock⟩

/-- The world after a change of its folder, if that came about. -/
def change (world : ClosedWorld) :
    Except FileFault Folder → Except FileFault Unit × ClosedWorld
  | .ok folder => (.ok (), { world with folder })
  | .error fault => (.error fault, world)

/-- What the world replies. -/
def reply : (action : Outside.Action) → ClosedWorld → action.Reply × ClosedWorld
  | .web (.send _), world => (.error .unconnected, world)
  | .web (.pause _), world => ((), world)
  | .read path, world => (world.folder.read path, world)
  | .find path, world => (world.folder.contains path, world)
  | .write path text, world => world.change (world.folder.write path (Utf8.encode text))
  | .append path text, world => world.change (world.folder.append path (Utf8.encode text))
  | .print text, world => ((), { world with printed := world.printed ++ text })
  | .isInterrupted, world => (false, world)
  | .now, world => (world.clock, world)
  | .waitUntil _, world => ((), world)

/-- Runs a program. -/
def run {α : Type} (world : ClosedWorld) (program : Program α) : Option α × ClosedWorld :=
  program.run reply world

/-- Runs programs one after another. -/
def runEach {α : Type} (world : ClosedWorld) : List (Program α) → List (Option α) × ClosedWorld
  | [] => ([], world)
  | program :: rest =>
    let (result, after) := world.run program
    let (results, final) := runEach after rest
    (result :: results, final)

end ClosedWorld

end CiTelemetry
