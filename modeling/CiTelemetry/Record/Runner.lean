/-
This file holds the record of a runner, the machine that jobs run on.
-/

import CiTelemetry.Json.Fields

namespace CiTelemetry

/-- A runner. Its tags are read under another name than they are written. -/
structure Runner where
  id : Int
  description : Option String
  name : Option String
  runnerType : Option String
  isShared : Bool
  paused : Bool
  online : Option Bool
  status : Option String
  ipAddress : Option String
  version : Option String
  tags : List String
  deriving DecidableEq, Repr, Inhabited

def Runner.encode (runner : Runner) : Json :=
  .obj
    [("id", .int runner.id),
      ("description", .ofOption .str runner.description),
      ("name", .ofOption .str runner.name),
      ("runner_type", .ofOption .str runner.runnerType),
      ("is_shared", .bool runner.isShared),
      ("paused", .bool runner.paused),
      ("online", .ofOption .bool runner.online),
      ("status", .ofOption .str runner.status),
      ("ip_address", .ofOption .str runner.ipAddress),
      ("version", .ofOption .str runner.version),
      ("tags", .ofList .str runner.tags)]

def Runner.decode? (json : Json) : Option Runner := do
  let fields ← json.asObject?
  let id ← fields.signed? "id"
  let description ← fields.maybeText? "description"
  let name ← fields.maybeText? "name"
  let runnerType ← fields.maybeText? "runner_type"
  let isShared ← Json.defaulted? fields "is_shared" Json.asBool? false
  let paused ← Json.defaulted? fields "paused" Json.asBool? false
  let online ← fields.maybeFlag? "online"
  let status ← fields.maybeText? "status"
  let ipAddress ← fields.maybeText? "ip_address"
  let version ← fields.maybeText? "version"
  let tags ← Json.defaulted? fields "tag_list" (Json.asList? Json.asText?) []
  pure ⟨id, description, name, runnerType, isShared, paused, online, status, ipAddress,
    version, tags⟩

end CiTelemetry
