/-
This file holds how a request and its answer stand on a connection that carries
nothing else: lines of text, an empty line, and a body. An answer is read from
everything that came before the connection ended, so that a body without a
length reaches up to the end.
-/

import CiTelemetry.Http.Message
import CiTelemetry.Json.Printer
import CiTelemetry.Number.Decimal

namespace CiTelemetry

namespace Http

/-! ### Lines -/

/-- What ends a line. -/
def lineEnd : String := "\r\n"

/-- The first line and what is behind it. -/
def splitLine? : Bytes → Option (Bytes × Bytes)
  | 13 :: 10 :: rest => some ([], rest)
  | byte :: rest => (splitLine? rest).map fun (line, after) => (byte :: line, after)
  | [] => none

/-- What is behind a line is shorter than the whole. -/
theorem length_lt_of_splitLine? {bytes line after : Bytes}
    (split : splitLine? bytes = some (line, after)) : after.length < bytes.length := by
  induction bytes using splitLine?.induct generalizing line with
  | case1 rest =>
    simp only [splitLine?, Option.some.injEq, Prod.mk.injEq] at split
    rw [← split.2, List.length_cons, List.length_cons]
    omega
  | case2 byte rest notEnd inductionHypothesis =>
    rw [splitLine?] at split
    · obtain ⟨⟨inner, behind⟩, found, equal⟩ := Option.map_eq_some_iff.1 split
      obtain ⟨-, rfl⟩ := Prod.mk.injEq .. ▸ equal
      exact Nat.lt_succ_of_lt (inductionHypothesis found)
    · exact notEnd
  | case3 => simp [splitLine?] at split

/-- Splits a header line into name and value; the blanks around the value do not
belong to it. -/
def header (line : Bytes) : String × Bytes :=
  let isEdge (byte : UInt8) : Bool := byte == 32 || byte == 9
  let value := (line.dropWhile (· != 58)).drop 1
  (Utf8.decodeLenient (line.takeWhile (· != 58)),
    ((value.dropWhile isEdge).reverse.dropWhile isEdge).reverse)

/-- The headers up to the empty line, and the body. -/
def splitHeaders? (bytes : Bytes) : Option (List (String × Bytes) × Bytes) :=
  match _split : splitLine? bytes with
  | none => none
  | some ([], body) => some ([], body)
  | some (line, after) =>
    (splitHeaders? after).map fun (headers, body) => (header line :: headers, body)
termination_by bytes.length
decreasing_by exact length_lt_of_splitLine? _split

/-! ### Requests -/

/-- The headers of a request. -/
def requestHeaders (request : Request) (body : Bytes) : List (String × String) :=
  let host := (request.address.host.map Host.render).getD ""
  let port := match request.address.port with
    | some port => ":" ++ toString port
    | none => ""
  let described :=
    if request.body.isSome then
      [("Content-Type", "application/json"), ("Content-Length", toString body.length)]
    else []
  [("Host", host ++ port), ("Accept", "*/*"), ("Connection", "close")] ++
    (request.authorization.toList.map fun text => ("Authorization", text)) ++
    (request.userAgent.toList.map fun text => ("User-Agent", text)) ++ described

/-- A request as it is sent. -/
def Request.encode (request : Request) : Bytes :=
  let body := match request.body with
    | some value => Utf8.encode value.render
    | none => []
  let first := request.method.name ++ " " ++ request.address.target ++ " HTTP/1.1" ++ lineEnd
  let headers := (requestHeaders request body).map fun (name, text) =>
    name ++ ": " ++ text ++ lineEnd
  Utf8.encode (first ++ String.join headers ++ lineEnd) ++ body

/-! ### Answers -/

/-- The number in hexadecimal digits at the front. -/
def leadingHex (bytes : Bytes) : Nat :=
  let digits := bytes.map fun byte => hexValue? (Char.ofNat byte.toNat)
  (digits.takeWhile Option.isSome).foldl (fun number digit => number * 16 + digit.getD 0) 0

/-- The content of a body in chunks; none if it broke off. -/
def joinChunks? (bytes : Bytes) : Option Bytes :=
  match _split : splitLine? bytes with
  | none => none
  | some (line, after) =>
    let size := leadingHex line
    if size = 0 then some []
    else if after.length < size + 2 then none
    else (joinChunks? (after.drop (size + 2))).map (after.take size ++ ·)
termination_by bytes.length
decreasing_by
  have := length_lt_of_splitLine? _split
  simp only [List.length_drop]
  omega

/-- Whether an answer has no body, whatever its headers say. -/
def isBodiless (status : Nat) : Bool :=
  status == 204 || status == 304

/-- The body of an answer as its headers frame it; none if it broke off. -/
def framedBody (response : Response) (rest : Bytes) : Option Bytes :=
  let isChunked := (response.headerText? "transfer-encoding").any fun text =>
    text.toList.map Char.toLower == "chunked".toList
  let length? := (response.headerText? "content-length").bind fun text =>
    integer64? text.toList
  if isBodiless response.status then some []
  else if isChunked then joinChunks? rest
  else
    match length? with
    | none => some rest
    | some length => if rest.length < length.toNat then none else some (rest.take length.toNat)

/-- The status in the first line of an answer. -/
def status? (line : Bytes) : Option Nat :=
  let digits := ((line.dropWhile (· != 32)).drop 1).takeWhile (· != 32)
  (integer64? (Utf8.decodeLenient digits).toList).bind fun number =>
    if 100 ≤ number && number < 1000 then some number.toNat else none

/-- Reads an answer from all that came; what only announces an answer is passed
over. -/
def Response.read? (bytes : Bytes) : Option Response :=
  match _split : splitLine? bytes with
  | none => none
  | some (line, after) =>
    match status? line, _headers : splitHeaders? after with
    | some status, some (headers, rest) =>
      if status < 200 then
        if rest.length < bytes.length then Response.read? rest else none
      else
        let head : Response := ⟨status, headers, none⟩
        some { head with body := framedBody head rest }
    | _, _ => none
termination_by bytes.length

end Http

end CiTelemetry
