/-
This file holds addresses of the web: reading one, by itself or relative to
another, and writing it. Reading is lenient about blanks around an address and
about slashes the wrong way round, and it takes dots out of paths, so that a
path of an address never leads above its root.
-/

import CiTelemetry.Http.Host

namespace CiTelemetry

/-- The path of an address. -/
inductive AddressPath where
  /-- Text that has no levels, as in addresses of mail. -/
  | opaqueText (text : String)
  /-- Levels, each after a slash. -/
  | levels (segments : List String)
  deriving DecidableEq, Repr, Inhabited

namespace AddressPath

def isOpaque : AddressPath → Bool
  | opaqueText _ => true
  | levels _ => false

def render : AddressPath → String
  | opaqueText text => text
  | levels segments => String.join (segments.map ("/" ++ ·))

end AddressPath

/-- An address; a missing port is that of the scheme. -/
structure Address where
  scheme : String
  username : String
  password : String
  host : Option Host
  port : Option Nat
  path : AddressPath
  query : Option String
  fragment : Option String
  deriving DecidableEq, Repr, Inhabited

namespace Address

/-! ### Schemes -/

/-- The schemes that are read as web addresses, with their ports. -/
def webPorts : List (String × Option Nat) :=
  [("http", some 80), ("https", some 443), ("ws", some 80), ("wss", some 443),
    ("ftp", some 21), ("file", none)]

def isWeb (scheme : String) : Bool :=
  webPorts.any (·.1 == scheme)

def defaultPort? (scheme : String) : Option Nat :=
  (webPorts.find? (·.1 == scheme)).bind (·.2)

/-- A slash; in a web address the other way round as well. -/
def isSlash (web : Bool) (char : Char) : Bool :=
  char == '/' || (web && char == '\\')

def isSchemeChar (char : Char) : Bool :=
  char.isAlphanum || char == '+' || char == '-' || char == '.'

/-- Splits off the scheme of an address that has one. -/
def splitScheme? (text : List Char) : Option (String × List Char) :=
  match text.takeWhile isSchemeChar, text.dropWhile isSchemeChar with
  | first :: name, ':' :: rest =>
    if first.isAlpha then some (String.ofList ((first :: name).map Char.toLower), rest) else none
  | _, _ => none

/-! ### Pieces -/

/-- What an address is read from: blanks and controls around it and breaks of
lines inside it do not count. -/
def strip (text : List Char) : List Char :=
  let isEdge (char : Char) : Bool := char.toNat ≤ 0x20
  let inner := ((text.dropWhile isEdge).reverse.dropWhile isEdge).reverse
  inner.filter fun char => !(char == '\t' || char == '\n' || char == '\r')

/-- The text before and after the first of a character; no second part where
there is none. -/
def splitAtFirst (mark : Char) (text : List Char) : List Char × Option (List Char) :=
  match text.dropWhile (· != mark) with
  | [] => (text, none)
  | _ :: rest => (text.takeWhile (· != mark), some rest)

/-- The text before and after the last of a character; no first part where there
is none. -/
def splitAtLast (mark : Char) (text : List Char) : Option (List Char) × List Char :=
  let after := (text.reverse.takeWhile (· != mark)).reverse
  if after.length = text.length then (none, text)
  else (some (text.take (text.length - after.length - 1)), after)

def isSingleDot (segment : List Char) : Bool :=
  ["." , "%2e"].contains (String.ofList (segment.map Char.toLower))

def isDoubleDot (segment : List Char) : Bool :=
  ["..", ".%2e", "%2e.", "%2e%2e"].contains (String.ofList (segment.map Char.toLower))

/-- Takes the segments of a path one after another below the levels known: a
double dot goes up a level, a single dot stays, and where either is the last one
an empty segment keeps the slash. -/
def walk (known : List String) : List (List Char) → List String
  | [] => known
  | segment :: rest =>
    if isDoubleDot segment then
      walk (if rest.isEmpty then known.dropLast ++ [""] else known.dropLast) rest
    else if isSingleDot segment then
      walk (if rest.isEmpty then known ++ [""] else known) rest
    else walk (known ++ [String.ofList (Percent.escape Percent.inPath segment)]) rest

/-- The path that text leads to, starting from levels known. -/
def walkText (web : Bool) (known : List String) (text : List Char) : AddressPath :=
  .levels (walk known (splitWhere (isSlash web) text))

/-- The path after a host. -/
def rootPath (web : Bool) (text : List Char) : AddressPath :=
  match text with
  | [] => if web then .levels [""] else .levels []
  | char :: rest => walkText web [] (if isSlash web char then rest else char :: rest)

/-! ### Authorities -/

/-- The user, host and port of an address. -/
structure Authority where
  username : String
  password : String
  host : Host
  port : Option Nat
  deriving DecidableEq, Repr, Inhabited

/-- The host in front of a port; colons in square brackets belong to it. -/
def hostText (isInside : Bool) : List Char → List Char
  | [] => []
  | char :: rest =>
    if char = ':' && !isInside then []
    else char :: hostText (if char = '[' then true else if char = ']' then false else isInside) rest

def readPort (scheme : String) (digits : List Char) : Except AddressFault (Option Nat) :=
  if digits.isEmpty then .ok none
  else if !digits.all Char.isDigit || 65535 < digitsValue digits then .error .invalidPort
  else if defaultPort? scheme == some (digitsValue digits) then .ok none
  else .ok (some (digitsValue digits))

def readAuthority (scheme : String) (text : List Char) : Except AddressFault Authority := do
  let web := isWeb scheme
  let (user, place) := splitAtLast '@' text
  if user.isSome && place.isEmpty then throw .emptyHost
  let (name, password) := splitAtFirst ':' (user.getD [])
  let hostPart := hostText false place
  if hostPart.isEmpty && web && scheme != "file" then throw .emptyHost
  let host ← if !web then Host.readOther hostPart
    else if hostPart.isEmpty then pure (.named "") else Host.readWeb hostPart
  let after := place.drop hostPart.length
  if host.isEmpty && (!after.isEmpty || user.any fun user => !user.isEmpty) then throw .emptyHost
  let port ← readPort scheme (after.drop 1)
  let written (part : List Char) := String.ofList (Percent.escape Percent.inUserInfo part)
  pure ⟨written name, written (password.getD []), host, port⟩

/-- The address at an authority, with the path after it. -/
def atAuthority (scheme : String) (text : List Char) : Except AddressFault Address := do
  let web := isWeb scheme
  let authority ← readAuthority scheme (text.takeWhile fun char => !isSlash web char)
  let path := rootPath web (text.dropWhile fun char => !isSlash web char)
  pure ⟨scheme, authority.username, authority.password, some authority.host, authority.port, path,
    none, none⟩

/-! ### Reading -/

/-- The address of text without query and fragment that is relative to a web
address or to any other that has levels. -/
def below (base : Address) (levels : List String) (text : List Char) :
    Except AddressFault Address :=
  let web := isWeb base.scheme
  match text with
  | [] => .ok base
  | first :: rest =>
    if isSlash web first then
      match rest with
      | second :: after =>
        if isSlash web second then
          atAuthority base.scheme
            (if web && base.scheme != "file" then after.dropWhile (isSlash web) else after)
        else .ok { base with path := walkText web [] rest, query := none }
      | [] => .ok { base with path := walkText web [] rest, query := none }
    else .ok { base with path := walkText web levels.dropLast text, query := none }

/-- The address of text without query and fragment. -/
def readPlain (base : Option Address) (text : List Char) : Except AddressFault Address :=
  match splitScheme? text with
  | some (scheme, rest) =>
    let bare : Address := ⟨scheme, "", "", none, none, .levels [], none, none⟩
    let slashes := rest.takeWhile (isSlash (isWeb scheme))
    if scheme == "file" then
      if 2 ≤ slashes.length then atAuthority scheme (rest.drop 2)
      else .ok { bare with host := some (.named ""), path := rootPath true rest }
    else if isWeb scheme then
      match base with
      | some ⟨baseScheme, username, password, host, port, .levels levels, query, fragment⟩ =>
        if baseScheme == scheme && slashes.length < 2 then
          below ⟨baseScheme, username, password, host, port, .levels levels, query, fragment⟩
            levels rest
        else atAuthority scheme (rest.drop slashes.length)
      | _ => atAuthority scheme (rest.drop slashes.length)
    else
      match rest with
      | '/' :: '/' :: after => atAuthority scheme after
      | '/' :: after => .ok { bare with path := walkText false [] after }
      | _ => .ok { bare with
          path := .opaqueText (String.ofList (Percent.escape Percent.inOpaquePath rest)) }
  | none =>
    match base with
    | none => .error .withoutBase
    | some base =>
      match base.path with
      | .opaqueText _ => if text.isEmpty then .ok base else .error .belowOpaque
      | .levels levels => below base levels text

/-- Reads an address, relative to another if there is one. Relative to an opaque
one it can be a fragment at most. -/
def read (base : Option Address) (text : String) : Except AddressFault Address := do
  let (front, fragment) := splitAtFirst '#' (strip text.toList)
  let (plain, query) := splitAtFirst '?' front
  if plain.isEmpty && base.any (·.path.isOpaque) && (query.isSome || fragment.isNone) then
    throw .belowOpaque
  let address ← readPlain base plain
  let inQuery := if isWeb address.scheme then Percent.inWebQuery else Percent.inQuery
  let written (isEscaped : Char → Bool) (part : List Char) : String :=
    String.ofList (Percent.escape isEscaped part)
  pure { address with
    query := (query.map (written inQuery)).or address.query
    fragment := fragment.map (written Percent.inFragment) }

/-- The address of a place below another one. -/
def join (base : Address) (text : String) : Except AddressFault Address :=
  read (some base) text

/-! ### Building -/

/-- The same address as a folder: its path ends with a slash. -/
def asFolder (address : Address) : Address :=
  match address.path with
  | .opaqueText text =>
    if text.endsWith "/" then address else { address with path := .opaqueText (text ++ "/") }
  | .levels segments =>
    if segments.getLast? == some "" then address
    else { address with path := .levels (segments ++ [""]) }

/-- Adds a field to the query. -/
def withField (address : Address) (name value : String) : Address :=
  let field := String.ofList (Percent.form name.toList ++ '=' :: Percent.form value.toList)
  match address.query with
  | none => { address with query := some field }
  | some query =>
    { address with query := some (if query.isEmpty then field else query ++ "&" ++ field) }

/-! ### Writing -/

/-- The path with the query: what a server is asked for. -/
def target (address : Address) : String :=
  address.path.render ++
    match address.query with
    | some query => "?" ++ query
    | none => ""

def renderAuthority (address : Address) : String :=
  match address.host with
  | none => ""
  | some host =>
    let password := if address.password.isEmpty then "" else ":" ++ address.password
    let user := address.username ++ password
    let port := match address.port with
      | some port => ":" ++ toString port
      | none => ""
    "//" ++ (if user.isEmpty then "" else user ++ "@") ++ host.render ++ port

def render (address : Address) : String :=
  address.scheme ++ ":" ++ address.renderAuthority ++ address.target ++
    match address.fragment with
    | some fragment => "#" ++ fragment
    | none => ""

end Address

end CiTelemetry
