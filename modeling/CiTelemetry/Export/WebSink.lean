/-
This file sends records to a web server, each batch as one request to the path
of its kind.
-/

import CiTelemetry.Export.Kind
import CiTelemetry.Http.Message
import CiTelemetry.Http.Status

namespace CiTelemetry

open Http

/-- A web server that takes records, by its address without slashes at the
end. -/
structure WebSink where
  name : String
  deriving DecidableEq, Repr, Inhabited

namespace WebSink

def ofAddress (address : String) : WebSink :=
  ⟨String.ofList (address.toList.reverse.dropWhile (· == '/')).reverse⟩

def refusal (sink : WebSink) (kind : EntityKind) (reason : String) : SyncError :=
  .sinkRefused sink.name kind.name reason

/-- The request with a batch of records; an address that requests cannot go to
is a refusal. -/
def request (sink : WebSink) (kind : EntityKind) (records : List Json) : Outcome Request :=
  match Address.read none (sink.name ++ "/v1/" ++ kind.name) with
  | .error _ => .error (sink.refusal kind "builder error")
  | .ok address =>
    let request : Request :=
      { method := .submit
        address
        authorization := none
        userAgent := none
        body := some (.obj [("kind", .str kind.name), ("records", .arr records)]) }
    if request.isSendable then .ok request
    else .error (sink.refusal kind ("builder error for url (" ++ address.render ++ ")"))

/-- Sends a batch of records, once. -/
def send (sink : WebSink) (kind : EntityKind) (records : List Json) : Exchange Unit := do
  let request ← Attempt.ofOutcome (sink.request kind records)
  match ← Exchange.send request with
  | .error _ => throw (.sinkUnreachable sink.name kind.name)
  | .ok response =>
    if response.isSuccess then pure ()
    else
      let body := Utf8.decodeLenient (response.body.getD [])
      throw (sink.refusal kind ("status " ++ renderStatus response.status ++ ": " ++ body))

end WebSink

end CiTelemetry
