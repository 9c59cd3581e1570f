/-
This file holds the configuration: where the server is, where records go, what is
covered and how often. Every setting has a default, so that an empty text is a
configuration as well; it covers nothing.
-/

import CiTelemetry.Remote.Retry
import CiTelemetry.Sync.Limiter
import CiTelemetry.Sync.Settings
import CiTelemetry.Text.Blank
import CiTelemetry.Yaml.Typed

namespace CiTelemetry

/-! ### Settings -/

/-- How requests are sent. -/
structure ClientConfig where
  maxRetries : Nat
  /-- The pause before the first retry, in milliseconds. -/
  retryDelay : Nat
  /-- How long an answer may take, in seconds. -/
  timeout : Option Nat
  deriving DecidableEq, Repr

instance : Inhabited ClientConfig := ⟨5, 1000, none⟩

/-- The retries that a configuration asks for. No pause is longer than a
minute. -/
def ClientConfig.retryPolicy (config : ClientConfig) : RetryPolicy :=
  ⟨config.maxRetries, config.retryDelay, 60000⟩

/-- The server that records come from. -/
structure ServerConfig where
  url : String
  token : Option String
  client : ClientConfig
  deriving DecidableEq, Repr

instance : Inhabited ServerConfig := ⟨"https://gitlab.com", none, default⟩

/-- Where records go. -/
inductive Endpoint where
  /-- A web server that takes batches of records. -/
  | http (address : String)
  /-- A file that gets one line for each record; a dash is the standard output. -/
  | file (path : String)
  deriving DecidableEq, Repr, Inhabited

/-- How often and in which portions the work is done; spans are in seconds. -/
structure ScheduleConfig where
  interval : Nat
  catchUpInterval : Nat
  batchSize : Nat
  concurrency : Nat
  refreshInterval : Nat
  deriving DecidableEq, Repr

instance : Inhabited ScheduleConfig := ⟨60, 86400, 100, 42, 3600⟩

/-- A configuration. -/
structure Config where
  server : ServerConfig
  endpoints : List Endpoint
  defaults : ProjectDefaults
  namespaces : List NamespaceSource
  projects : List ProjectSource
  schedule : ScheduleConfig
  logLevel : String
  deriving DecidableEq, Repr

instance : Inhabited Config := ⟨default, [], default, [], [], default, "info"⟩

/-- What a synchronization is set up with. -/
def Config.syncSettings (config : Config) : SyncSettings :=
  { interval := config.schedule.interval * 1000
    catchUpInterval := config.schedule.catchUpInterval * 1000
    batchSize := config.schedule.batchSize
    concurrency := config.schedule.concurrency
    defaults := config.defaults
    namespaces := config.namespaces
    projects := config.projects }

/-! ### Faults -/

/-- Why a text is no configuration. -/
inductive ConfigFault where
  /-- The text is not well formed, or a setting is not of its kind. -/
  | malformed
  | emptyUrl
  /-- A number that has to be positive is zero. -/
  | zero (name : String)
  | endpointWithoutAddress (place : Nat)
  | endpointWithoutPath (place : Nat)
  deriving DecidableEq, Repr, Inhabited

def ConfigFault.message : ConfigFault → String
  | malformed => "Failed to parse YAML"
  | emptyUrl => "gitlab.url must not be empty"
  | zero name => "controller." ++ name ++ " must be at least 1"
  | endpointWithoutAddress place =>
    "endpoints[" ++ toString place ++ "]: http sink needs an address"
  | endpointWithoutPath place => "endpoints[" ++ toString place ++ "]: file sink needs a path"

/-- Whether text is nothing but blanks. -/
def isBlankText (text : String) : Bool :=
  text.toList.all isBlank

/-- What is wrong with an endpoint at a place in the list. -/
def Endpoint.fault? (place : Nat) : Endpoint → Option ConfigFault
  | http address => if isBlankText address then some (.endpointWithoutAddress place) else none
  | file path => if isBlankText path then some (.endpointWithoutPath place) else none

/-- The settings that have to be positive, in the order in which they are looked
at. -/
def ScheduleConfig.positive (schedule : ScheduleConfig) : List (String × Nat) :=
  [("batch_size", schedule.batchSize), ("concurrency", schedule.concurrency),
    ("interval_secs", schedule.interval), ("catch_up_interval_secs", schedule.catchUpInterval),
    ("refresh_interval_secs", schedule.refreshInterval)]

/-- The first thing that is wrong with a configuration. -/
def Config.fault? (config : Config) : Option ConfigFault :=
  let url := if isBlankText config.server.url then some .emptyUrl else none
  let number := (config.schedule.positive.find? (·.2 == 0)).map fun (name, _) => .zero name
  let endpoint := config.endpoints.zipIdx.findSome? fun (endpoint, place) => endpoint.fault? place
  (url.or number).or endpoint

/-! ### Reading -/

open Yaml ConfigValue

/-- A whole number of an unsigned word of 32 bits. -/
def unsigned32? (node : Node) : Option Nat :=
  node.asUnsigned?.filter (· ≤ maxUnsigned32)

def ClientConfig.decode? (node : Node) : Option ClientConfig := do
  let fields ← node.asFields?
  let maxRetries ← fields.defaulted? "max_retries" unsigned32? 5
  let retryDelay ← fields.defaulted? "retry_delay_ms" Node.asUnsigned? 1000
  let timeout ← optional? fields "timeout_secs" Node.asUnsigned?
  pure ⟨maxRetries, retryDelay, timeout⟩

def ServerConfig.decode? (node : Node) : Option ServerConfig := do
  let fields ← node.asFields?
  let url ← fields.defaulted? "url" Node.asText? "https://gitlab.com"
  let token ← optional? fields "token" Node.asText?
  let client ← fields.defaulted? "client" ClientConfig.decode? default
  pure ⟨url, token, client⟩

/-- An endpoint of a type, whose one setting is read from a field. -/
def Endpoint.ofType? (type : String) (setting : String → Option String) : Option Endpoint :=
  match type with
  | "http" => (setting "address").map http
  | "file" => (setting "path").map file
  | _ => none

/-- Reads an endpoint. It may be a list of its type and its one setting. -/
def Endpoint.decode? : Node → Option Endpoint
  | .mapping fields => do
    let fields ← (Node.mapping fields).asFields?
    let type ← fields.required? "type" Node.asText?
    ofType? type fun name => fields.required? name Node.asOwnText?
  | .list [type, setting] => type.asText?.bind fun type => ofType? type fun _ => setting.asOwnText?
  | _ => none

def ScheduleConfig.decode? (node : Node) : Option ScheduleConfig := do
  let fields ← node.asFields?
  let interval ← fields.defaulted? "interval_secs" Node.asUnsigned? 60
  let catchUpInterval ← fields.defaulted? "catch_up_interval_secs" Node.asUnsigned? 86400
  let batchSize ← fields.defaulted? "batch_size" Node.asUnsigned? 100
  let concurrency ← fields.defaulted? "concurrency" Node.asUnsigned? 42
  let refreshInterval ← fields.defaulted? "refresh_interval_secs" Node.asUnsigned? 3600
  pure ⟨interval, catchUpInterval, batchSize, concurrency, refreshInterval⟩

def decodeLogLevel? (node : Node) : Option String :=
  node.asFields?.bind fun fields => fields.defaulted? "level" Node.asText? "info"

def Config.decode? (node : Node) : Option Config := do
  let fields ← node.asFields?
  let server ← fields.defaulted? "gitlab" ServerConfig.decode? default
  let endpoints ← fields.defaulted? "endpoints" (list? Endpoint.decode?) []
  let defaults ← fields.defaulted? "project_defaults" ProjectDefaults.decode? default
  let namespaces ← fields.defaulted? "namespaces" (list? NamespaceSource.decode?) []
  let projects ← fields.defaulted? "projects" (list? ProjectSource.decode?) []
  let schedule ← fields.defaulted? "controller" ScheduleConfig.decode? default
  let logLevel ← fields.defaulted? "log" decodeLogLevel? "info"
  pure ⟨server, endpoints, defaults, namespaces, projects, schedule, logLevel⟩

/-- A configuration in which nothing is wrong. -/
def Config.checked (config : Config) : Except ConfigFault Config :=
  match config.fault? with
  | some fault => .error fault
  | none => .ok config

/-- Reads a configuration. -/
def Config.ofText (text : String) : Except ConfigFault Config :=
  if isBlankText text then .ok default
  else
    match (Node.read? text).bind Config.decode? with
    | some config => config.checked
    | none => .error .malformed

/-! ### Writing -/

def NamespaceSource.encode (source : NamespaceSource) : Json :=
  .obj
    [("id", .str source.id),
      ("kind", .ofOption (fun kind => .str kind.name) source.kind),
      ("include_subgroups", .bool source.includeSubgroups),
      ("with_shared", .bool source.withShared),
      ("exclude", .ofList .str source.exclude),
      ("export", .ofOption ExportFlags.encode source.exportFlags),
      ("catch_up", .ofOption CatchUp.encode source.catchUp)]

def ProjectSource.encode (source : ProjectSource) : Json :=
  .obj
    [("id", .str source.id),
      ("export", .ofOption ExportFlags.encode source.exportFlags),
      ("catch_up", .ofOption CatchUp.encode source.catchUp)]

def ProjectDefaults.encode (defaults : ProjectDefaults) : Json :=
  .obj [("export", defaults.exportFlags.encode), ("catch_up", defaults.catchUp.encode)]

def Endpoint.encode : Endpoint → Json
  | http address => .obj [("type", .str "http"), ("address", .str address)]
  | file path => .obj [("type", .str "file"), ("path", .str path)]

def RetryPolicy.encode (policy : RetryPolicy) : Json :=
  .obj
    [("max_retries", .ofNat policy.maxRetries),
      ("base_ms", .ofNat policy.baseDelay),
      ("max_ms", .ofNat policy.maxDelay)]

/-- Everything that a configuration settles, with defaults filled in. -/
def Config.encode (config : Config) : Json :=
  .obj
    [("url", .str config.server.url),
      ("token", .ofOption .str config.server.token),
      ("retry", config.server.client.retryPolicy.encode),
      ("timeout_secs", .ofOption .ofNat config.server.client.timeout),
      ("endpoints", .ofList Endpoint.encode config.endpoints),
      ("defaults", config.defaults.encode),
      ("namespaces", .ofList NamespaceSource.encode config.namespaces),
      ("projects", .ofList ProjectSource.encode config.projects),
      ("interval_secs", .ofNat config.schedule.interval),
      ("catch_up_interval_secs", .ofNat config.schedule.catchUpInterval),
      ("batch_size", .ofNat config.schedule.batchSize),
      ("concurrency", .ofNat config.schedule.concurrency),
      ("refresh_interval_secs", .ofNat config.schedule.refreshInterval),
      ("log_level", .str config.logLevel)]

end CiTelemetry
