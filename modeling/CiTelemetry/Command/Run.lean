/-
This file carries out what the command line asks for. A configuration comes from
the file that is named, or else from one of the usual names, or else it is the
default; flags of the command line outweigh it. What fails is reported with the
step that it happened in.
-/

import CiTelemetry.Command.Arguments
import CiTelemetry.Export.Delivery
import CiTelemetry.Log.Encoding
import CiTelemetry.Remote.Answer
import CiTelemetry.Sync.Loop

namespace CiTelemetry

namespace Command

/-! ### Failures -/

/-- The step that failed, with what made it fail. -/
inductive Failure where
  | unreadableConfig (path : String) (reason : String)
  | invalidConfigFile (path : String) (fault : ConfigFault)
  /-- The flags of the command line make the configuration invalid. -/
  | invalidConfig (fault : ConfigFault)
  | noClient (cause : SyncError)
  /-- More calls may run at the same time than can be counted; the program breaks down. -/
  | uncountedCalls
  | unresolved (cause : SyncError)
  | notReady (url : String) (cause : SyncError)
  | unreadableLog (path : String) (fault : FileFault)
  | unwritable (path : String) (fault : FileFault)
  deriving Repr, Inhabited

namespace Failure

/-- What could not be done. -/
def message : Failure → String
  | unreadableConfig path _ => "Failed to read config file: " ++ path
  | invalidConfigFile path _ => "Invalid config file: " ++ path
  | invalidConfig _ => "Invalid configuration"
  | noClient _ => "Failed to create GitLab client"
  | uncountedCalls => "Too many concurrent calls"
  | unresolved _ => "Failed to resolve projects"
  | notReady url _ => "GitLab at " ++ url ++ " is not ready"
  | unreadableLog path _ => "Failed to read log file: " ++ path
  | unwritable path _ => "Failed to write " ++ path

/-- The failure of the synchronization behind it, if it is one. -/
def cause? : Failure → Option SyncError
  | noClient cause | unresolved cause | notReady _ cause => some cause
  | _ => none

/-- Whether the program broke down. -/
def isBreakdown : Failure → Bool
  | uncountedCalls => true
  | _ => false

/-- Why it could not be done; `none` where the wording is not this program's
own. -/
def reason? : Failure → Option String
  | unreadableConfig _ reason => some reason
  | invalidConfigFile _ fault | invalidConfig fault => some fault.message
  | noClient cause | unresolved cause | notReady _ cause => cause.message?
  | unreadableLog _ fault | unwritable _ fault => some fault.message
  | uncountedCalls => none

end Failure

/-- A part of the program that may fail. -/
abbrev Step (α : Type) := ExceptT Failure (Dialogue Outside.Action Outside.Action.Reply) α

namespace Step

/-- Asks one thing of the outside. -/
def request (action : Outside.Action) : Step action.Reply :=
  ExceptT.lift (Program.request action)

/-- A part of the program whose failure is that of a step. -/
def ofProgram {ε α : Type} (failure : ε → Failure) (program : Program (Except ε α)) : Step α :=
  ExceptT.mk (program.bind fun outcome => Dialogue.done (outcome.mapError failure))

end Step

/-! ### The configuration -/

/-- The names that a configuration is looked for under. -/
def configNames : List String := ["cisync.yaml", "cisync.yml"]

/-- Reads the configuration in a file. -/
def readConfig (path : String) : Step Config := do
  let bytes ← Step.ofProgram (fun fault => .unreadableConfig path (FileFault.message fault))
    (Program.request (.read path))
  match Utf8.decode? bytes with
  | none => throw (.unreadableConfig path "stream did not contain valid UTF-8")
  | some text =>
    match Config.ofText text with
    | .ok config => pure config
    | .error fault => throw (.invalidConfigFile path fault)

/-- Reads the first configuration that there is under one of the names. -/
def findConfig : List String → Step Config
  | [] => pure default
  | name :: rest => do
    if ← Step.request (.find name) then readConfig name else findConfig rest

/-- The configuration of an invocation. -/
def Invocation.loadConfig (invocation : Invocation) : Step Config := do
  let config ← match invocation.config with
    | some path => readConfig path
    | none => findConfig configNames
  let server : ServerConfig :=
    { config.server with
      token := invocation.token.or config.server.token
      url := invocation.url.getD config.server.url }
  match ({ config with server } : Config).checked with
  | .ok checked => pure checked
  | .error fault => throw (.invalidConfig fault)

/-! ### Synchronization -/

/-- What a synchronization speaks to. -/
structure Session where
  client : Client
  endpoints : List Endpoint
  /-- Whether an interruption ends the synchronization in an orderly way. -/
  isInterruptible : Bool
  deriving Inhabited

namespace Session

/-- The session that a configuration asks for. -/
def ofConfig (config : Config) (isInterruptible : Bool) : Except Failure Session := do
  let server := config.server
  let client ← (Client.ofAddress server.url (server.token.map Token.mk)
    server.client.retryPolicy).mapError .noClient
  match Limiter.permits? config.schedule.concurrency with
  | some _ => pure ⟨client, config.endpoints, isInterruptible⟩
  | none => throw .uncountedCalls

def isInterrupted (session : Session) : Program Bool :=
  if session.isInterruptible then Program.request .isInterrupted else pure false

/-- Asks the server. A question that is interrupted has no answer. -/
def ask (session : Session) (allowance : Nat) (asked : Query) :
    Program (Outcome asked.Answer) := do
  if ← session.isInterrupted then pure (.error .cancelled)
  else
    let answer ← Program.ofExchange (session.client.answer allowance asked)
    if ← session.isInterrupted then pure (.error .cancelled) else pure answer

/-- How the questions of a synchronization are answered. -/
def reply (session : Session) (allowance : Nat) : (action : Action) → Program action.Reply
  | .query asked => session.ask allowance asked
  | .isCancelled => session.isInterrupted
  | .send sink kind records =>
    match session.endpoints[sink]? with
    | some endpoint => endpoint.send kind records
    | none => pure (.ok ())
  | .now => Program.request .now
  | .waitUntil instant => Program.request (.waitUntil instant)

/-- A synchronization as a part of the program. -/
def perform {α : Type} (session : Session) (allowance : Nat) (work : Sync α) : Program α :=
  work.expand (session.reply allowance)

end Session

/-! ### The tasks -/

/-- Writes a result, to the standard output or to the file that is named. -/
def Invocation.writeResult (invocation : Invocation) (result : Json) : Step Unit :=
  let text := if invocation.pretty then result.renderSpread else result.render
  match invocation.output with
  | none => Step.request (.print (text ++ "\n"))
  | some path => Step.ofProgram (.unwritable path) (Program.request (.write path text))

/-- Resolves the configured projects. -/
def resolveConfigured (config : Config) (session : Session) (allowance : Nat) : Step Registry :=
  Step.ofProgram .unresolved
    (session.perform allowance (resolveRegistry config.syncSettings).run)

/-- Synchronizes until it is interrupted: first back through history, if that is
asked for, and then on with the clock. -/
def synchronize (config : Config) (catchesUp : Bool) (allowance : Nat) : Step Unit := do
  let session ← (Session.ofConfig config true : Except Failure Session)
  let registry ← resolveConfigured config session allowance
  let settings := config.syncSettings
  let context : SyncContext := ⟨⟨config.endpoints.length⟩, allowance⟩
  let span := spanOfMillis (config.schedule.refreshInterval * 1000)
  let work : Sync Unit := do
    if catchesUp then
      let _ ← catchUp context settings registry allowance
    let due := (← Sync.now).add span
    runRefreshed context settings span registry due allowance none
  ExceptT.lift (session.perform allowance work)

/-- Carries an invocation out. -/
def Invocation.execute (invocation : Invocation) (config : Config) (allowance : Nat) :
    Step Unit := do
  match invocation.task with
  | .run catchesUp => synchronize config catchesUp allowance
  | .resolve =>
    let session ← (Session.ofConfig config false : Except Failure Session)
    let registry ← resolveConfigured config session allowance
    invocation.writeResult (.ofList ProjectSettings.encode registry)
  | .parseLog file closeAt =>
    let log ← Step.ofProgram (.unreadableLog file) (Program.request (.read file))
    let ending := match closeAt with
      | some time => .closeAt time
      | none => .leaveOpen
    invocation.writeResult (Log.parseWith log ending).encode
  | .check =>
    let session ← (Session.ofConfig config false : Except Failure Session)
    Step.ofProgram (.notReady config.server.url) (session.perform allowance probeReadiness)

end Command

end CiTelemetry
