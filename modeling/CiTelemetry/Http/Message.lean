/-
This file holds requests to web servers and what comes back: a response, or the
way in which the exchange broke down. The dialogues over requests and pauses are
what a client does.
-/

import CiTelemetry.Dialogue
import CiTelemetry.Http.Address
import CiTelemetry.Http.Breakdown
import CiTelemetry.Json.Printer

namespace CiTelemetry

namespace Http

inductive Method where
  | fetch
  | submit
  deriving DecidableEq, Repr, Inhabited

def Method.name : Method → String
  | fetch => "GET"
  | submit => "POST"

/-- A request to a web server. -/
structure Request where
  method : Method
  address : Address
  /-- The proof of who asks. -/
  authorization : Option String
  /-- The name that the client goes by. -/
  userAgent : Option String
  body : Option Json
  deriving Repr, Inhabited

/-- What a server answers. The body is missing where it broke off. -/
structure Response where
  status : Nat
  headers : List (String × Bytes)
  body : Option Bytes
  deriving DecidableEq, Repr, Inhabited

namespace Request

/-- What may stand in a header: no control but the tab. -/
def isHeaderText (text : String) : Bool :=
  text.toList.all fun char => char == '\t' || (0x20 ≤ char.toNat && char.toNat != 0x7F)

/-- Whether a request can be sent at all. -/
def isSendable (request : Request) : Bool :=
  (request.address.scheme == "http" || request.address.scheme == "https") &&
    request.authorization.all isHeaderText

end Request

namespace Response

def isSuccess (response : Response) : Bool :=
  200 ≤ response.status && response.status < 300

/-- Whether the server did not get to the request: it limits the rate or has a
failure of its own. -/
def asksForRetry (response : Response) : Bool :=
  response.status == 429 || (500 ≤ response.status && response.status < 600)

/-- The first header of a name, which is written in small letters. -/
def header? (response : Response) (name : String) : Option Bytes :=
  (response.headers.find? fun header => header.1.toList.map Char.toLower == name.toList).map (·.2)

/-- The text of a header, if it is ASCII without controls. -/
def headerText? (response : Response) (name : String) : Option String :=
  (response.header? name).bind fun bytes =>
    if bytes.all fun byte => byte == 9 || (0x20 ≤ byte && byte < 0x7F) then
      some (Utf8.decodeLenient bytes)
    else none

end Response

/-- What a client asks of the outside. -/
inductive Action where
  | send (request : Request)
  /-- Lets a number of milliseconds pass. -/
  | pause (millis : Nat)

abbrev Action.Reply : Action → Type
  | send _ => Except Breakdown Response
  | pause _ => Unit

/-- A part of an exchange that may fail. -/
abbrev Exchange (α : Type) := Attempt Action Action.Reply α

/-- Sends one request. -/
def Exchange.send (request : Request) : Exchange (Except Breakdown Response) :=
  ExceptT.lift (Dialogue.question (Action.send request))

/-- Lets time pass. -/
def Exchange.pause (millis : Nat) : Exchange Unit :=
  ExceptT.lift (Dialogue.question (Action.pause millis))

end Http

end CiTelemetry
