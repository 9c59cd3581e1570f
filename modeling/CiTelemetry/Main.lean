/-
This file is the program as it runs: it asks the outside for real what the
program asks for, and reports how it ended. Connections are plain, so that a
server behind a secured one cannot be reached.
-/

import CiTelemetry.Command.Run
import CiTelemetry.Http.Wire
import Std.Async.DNS
import Std.Async.Signal
import Std.Async.TCP

namespace CiTelemetry

namespace Main

open Std.Async Std.Net

/-- How many steps the walks and loops of one run may take. -/
def allowance : Nat := twoTo 62

/-! ### Files and the clock -/

/-- Tries to use a file. -/
def trying {α : Type} (action : IO α) : IO (Except FileFault α) := do
  match ← action.toBaseIO with
  | .ok value => pure (.ok value)
  | .error (.noFileOrDirectory ..) => pure (.error .notFound)
  | .error fault => pure (.error (.other (toString fault)))

def readFrom (path : String) : IO Bytes := do
  let content ← IO.FS.readBinFile path
  pure content.toList

def appendTo (path text : String) : IO Unit := do
  let handle ← IO.FS.Handle.mk path .append
  handle.putStr text

def now : IO Instant := do
  let since := (← Std.Time.Timestamp.now).toNanosecondsSinceUnixEpoch.val
  pure (.carried 0 since)

/-- Waits until something holds or an instant is reached. -/
partial def waitUntil (holds : IO Bool) (deadline : Option Instant) : IO Unit := do
  let present ← now
  unless (← holds) || deadline.any (·.notAfter present) do
    IO.sleep 20
    waitUntil holds deadline

/-! ### Connections -/

/-- Everything that comes until the other side ends the connection. -/
partial def receiveAll (socket : TCP.Socket.Client) (known : ByteArray) : Async ByteArray := do
  match ← socket.recv? 65536 with
  | some piece => receiveAll socket (known ++ piece)
  | none => pure known

/-- The place that a request goes to. -/
def placeOf (address : Address) : Async SocketAddress := do
  let isBracket (char : Char) : Bool := char == '[' || char == ']'
  let written := ((address.host.map Host.render).getD "").toList
  let port := UInt16.ofNat (address.port.getD 80)
  match (← DNS.getAddrInfo (String.ofList (written.filter (!isBracket ·))) "").toList with
  | [] => throw (IO.userError "no such host")
  | .v4 number :: _ => pure (.v4 ⟨number, port⟩)
  | .v6 number :: _ => pure (.v6 ⟨number, port⟩)

/-- Sends a request on a connection of its own. -/
def exchange (request : Http.Request) : Async ByteArray := do
  let socket ← TCP.Socket.Client.mk
  socket.connect (← placeOf request.address)
  socket.send (ByteArray.mk request.encode.toArray)
  receiveAll socket ByteArray.empty

/-- Sends a request and waits for the answer as long as it may take. -/
def send (isInterrupted : IO Bool) (timeout : Option Nat) (request : Http.Request) :
    IO (Except Http.Breakdown Http.Response) := do
  if request.address.scheme != "http" then pure (.error .unconnected)
  else
    let task ← (exchange request).toIO
    let present ← now
    let deadline := timeout.map fun seconds => present.add (spanOfMillis (seconds * 1000))
    let isOver : IO Bool := do pure ((← IO.hasFinished task) || (← isInterrupted))
    waitUntil isOver deadline
    if !(← IO.hasFinished task) then pure (.error .timedOut)
    else
      match ← (task.block).toBaseIO with
      | .error _ => pure (.error .unconnected)
      | .ok content =>
        match Http.Response.read? content.toList with
        | some response => pure (.ok response)
        | none => pure (.error .dropped)

/-! ### Running -/

/-- Does what is asked of the outside. -/
def reply (isInterrupted : IO Bool) (timeout : Option Nat) :
    (action : Outside.Action) → IO action.Reply
  | .web (.send request) => send isInterrupted timeout request
  | .web (.pause millis) => do
    waitUntil isInterrupted (some ((← now).add (spanOfMillis millis)))
  | .read path => trying (readFrom path)
  | .find path => do pure (← trying (readFrom path)).toBool
  | .write path text => trying (IO.FS.writeFile path text)
  | .append path text => trying (appendTo path text)
  | .print text => IO.print text
  | .isInterrupted => isInterrupted
  | .now => now
  | .waitUntil instant => waitUntil isInterrupted (some instant)

/-- Runs a program. -/
def perform {α : Type} (reply : (action : Outside.Action) → IO action.Reply) :
    Program α → IO (Option α)
  | .done value => pure (some value)
  | .stalled => pure none
  | .ask action next => do perform reply (next (← reply action))

/-- What the arguments of the command line may be. -/
def usage : String :=
  String.join (List.map (· ++ "\n")
    ["Usage: cisync [OPTIONS] <COMMAND>",
      "",
      "Commands:",
      "  run [--catch-up]                    Sync continuously until interrupted",
      "  resolve                             Resolve and print the project registry",
      "  parse-log <FILE> [--close-at <T>]   Print the sections and metrics of a job log",
      "  check                               Check that the server is reachable",
      "",
      "Options:",
      "  -c, --config <FILE>    Configuration file",
      "  -t, --token <TOKEN>    Token of the server",
      "  -u, --url <URL>        Address of the server",
      "  -o, --output <FILE>    File for the result",
      "  -p, --pretty           Spread the result over lines",
      "  -h, --help",
      "  -V, --version"])

/-- Reports that the arguments are not carried out. -/
def reportUsage : Command.UsageFault → IO UInt32
  | .helpAsked => do
    IO.print usage
    pure 0
  | .versionAsked => do
    IO.println "cisync 0.1.0"
    pure 0
  | _ => do
    IO.eprint usage
    pure 2

/-- Reports how the program ended. -/
def reportEnd (result : Option (Except Command.Failure Unit)) : IO UInt32 := do
  match result with
  | some (.ok ()) => pure 0
  | none =>
    IO.eprintln "Error: too many steps"
    pure 1
  | some (.error failure) =>
    let reason := match failure.reason? with
      | some text => "\n\nCaused by:\n    " ++ text
      | none => ""
    IO.eprintln ("Error: " ++ failure.message ++ reason)
    pure (if failure.isBreakdown then 101 else 1)

/-- Carries an invocation out. The first interruption ends a synchronization in an
orderly way. -/
def carryOut (invocation : Command.Invocation) : IO UInt32 := do
  let token ← IO.getEnv "GITLAB_TOKEN"
  let invocation := { invocation with token := invocation.token.or token }
  let loaded : Option (Except Command.Failure Config) ←
    perform (reply (pure false) none) invocation.loadConfig.run
  match loaded with
  | none => reportEnd none
  | some (.error failure) => reportEnd (some (.error failure))
  | some (.ok config) =>
    let waiter ← Signal.Waiter.mk .sigint false
    let signal ← waiter.wait
    let world := reply (IO.hasFinished signal) config.server.client.timeout
    reportEnd (← perform world (invocation.execute config allowance).run)

end Main

end CiTelemetry

/-- The program. -/
def main (arguments : List String) : IO UInt32 :=
  match CiTelemetry.Command.Invocation.read arguments with
  | .error fault => CiTelemetry.Main.reportUsage fault
  | .ok invocation => CiTelemetry.Main.carryOut invocation
