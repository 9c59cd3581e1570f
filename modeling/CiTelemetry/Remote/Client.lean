/-
This file holds the client of the server: where the server's interfaces are, how
a request proves who asks, and how often it is repeated. A request is repeated
unchanged while the exchange breaks down in a way that may pass or the server
asks for a later attempt; the pauses between the attempts are those of the
policy, whatever made each of them fail.
-/

import CiTelemetry.Http.Message
import CiTelemetry.Identity
import CiTelemetry.Json.Decode
import CiTelemetry.Json.Parser
import CiTelemetry.Remote.Retry

namespace CiTelemetry

open Http

/-- A client of the server. -/
structure Client where
  /-- Where documents are sent. -/
  documentAddress : Address
  /-- What the paths of single things are below. -/
  pathAddress : Address
  token : Option Token
  retry : RetryPolicy
  deriving Inhabited

namespace Client

/-- The name that the client goes by. -/
def userAgent : String := "cisync/0.1.0"

/-- An address, or the configuration at fault for it. -/
def addressOr (what : String) (address : Except AddressFault Address) : Outcome Address :=
  address.mapError fun fault => .invalidConfig ("Invalid " ++ what ++ ": " ++ fault.message)

/-- The client of the server at an address, which may lie below a path. -/
def ofAddress (address : String) (token : Option Token) (retry : RetryPolicy) :
    Outcome Client := do
  let server ← addressOr "base URL" (Address.read none address)
  let base := server.asFolder
  let documents ← addressOr "GraphQL URL" (base.join "api/graphql")
  let paths ← addressOr "API base URL" (base.join "api/v4/")
  pure ⟨documents, paths, token, retry⟩

/-- The address of a path. -/
def addressOf (client : Client) (path : String) : Outcome Address :=
  addressOr ("API URL '" ++ path ++ "'") (client.pathAddress.join path)

/-! ### Requests -/

def request (client : Client) (method : Method) (address : Address) (body : Option Json) :
    Request :=
  { method
    address
    authorization := client.token.map fun token => "Bearer " ++ token.text
    userAgent := some userAgent
    body }

/-- What the text of a refusal is; a body that broke off has none. -/
def refusalText (response : Response) : String :=
  match response.body with
  | some bytes => Utf8.decodeLenient bytes
  | none => "Unable to read error response"

/-- Sends a request until it is answered, `left` times at most after the first
one. -/
def sendAgain (policy : RetryPolicy) (request : Request) (left : Nat) : Exchange Response := do
  match ← Exchange.send request with
  | .error breakdown =>
    if breakdown.allowsRetry then
      match left with
      | 0 => throw (.network breakdown)
      | left + 1 =>
        Exchange.pause (policy.delay (policy.maxRetries - (left + 1)))
        sendAgain policy request left
    else throw (.network breakdown)
  | .ok response =>
    if response.asksForRetry then
      match left with
      | 0 => throw (.retriesExhausted response.status policy.maxRetries)
      | left + 1 =>
        Exchange.pause (policy.delay (policy.maxRetries - (left + 1)))
        sendAgain policy request left
    else if response.isSuccess then pure response
    else throw (.apiStatus response.status (refusalText response))

/-- Sends a request and gives the answer of success. -/
def send (client : Client) (request : Request) : Exchange Response :=
  if request.isSendable then sendAgain client.retry request client.retry.maxRetries
  else throw .network

/-! ### Bodies -/

def bodyBytes (response : Response) : Exchange Bytes :=
  match response.body with
  | some bytes => pure bytes
  | none => throw .network

/-- What the JSON body of an answer stands for. -/
def bodyValue {α : Type} (decode? : Json → Option α) (response : Response) : Exchange α := do
  match (Json.ofBytes? (← bodyBytes response)).bind decode? with
  | some value => pure value
  | none => throw .network

end Client

end CiTelemetry
