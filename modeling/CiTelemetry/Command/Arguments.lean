/-
This file reads the arguments of the command line. Arguments go to the program
or, behind the name of a subcommand, to that; the general flags may stand in
either place, and where one stands in both, the later place counts. The value of
a flag is looked at when the next flag or the end shows that it is complete, so
that of several faults the one that is noticed first is reported.
-/

import CiTelemetry.Number.Decimal

namespace CiTelemetry

namespace Command

/-! ### What can be asked for -/

/-- The flags of the command line. -/
inductive Flag where
  | config
  | token
  | url
  | output
  | pretty
  | catchUp
  | closeAt
  /-- The argument of a subcommand that has no name. -/
  | file
  | help
  | version
  deriving DecidableEq, Repr, Inhabited

namespace Flag

def long : Flag → String
  | config => "config"
  | token => "token"
  | url => "url"
  | output => "output"
  | pretty => "pretty"
  | catchUp => "catch-up"
  | closeAt => "close-at"
  | file => ""
  | help => "help"
  | version => "version"

def short? : Flag → Option Char
  | config => some 'c'
  | token => some 't'
  | url => some 'u'
  | output => some 'o'
  | pretty => some 'p'
  | help => some 'h'
  | version => some 'V'
  | _ => none

def takesValue : Flag → Bool
  | config | token | url | output | closeAt | file => true
  | _ => false

/-- The flags that may stand in either place. -/
def general : List Flag := [config, token, url, output, pretty, help]

end Flag

/-- The subcommands. -/
inductive Subcommand where
  | run
  | resolve
  | parseLog
  | check
  deriving DecidableEq, Repr, Inhabited

namespace Subcommand

def all : List (String × Subcommand) :=
  [("run", run), ("resolve", resolve), ("parse-log", parseLog), ("check", check)]

def ofName? (name : String) : Option Subcommand :=
  all.lookup name

end Subcommand

/-- Where arguments go: to the program itself or to a subcommand. -/
abbrev Level := Option Subcommand

def flagsAt : Level → List Flag
  | none => .version :: Flag.general
  | some .run => .catchUp :: Flag.general
  | some .parseLog => .closeAt :: Flag.general
  | some _ => Flag.general

/-- Why arguments are not carried out. To ask for help is one reason. -/
inductive UsageFault where
  | helpAsked
  | versionAsked
  /-- No argument at all, so that help is shown. -/
  | nothingAsked
  | missingSubcommand
  | unknownSubcommand
  | unknownArgument
  | missingArgument
  /-- A flag that takes a value has none, or an empty path. -/
  | missingValue
  | refusedValue
  /-- A flag that takes no value has one. -/
  | unexpectedValue
  | repeatedArgument
  deriving DecidableEq, Repr, Inhabited

/-! ### What is given -/

/-- What is known at a level while its arguments are read. -/
structure Given where
  values : List (Flag × String)
  /-- The flag that is read last, with its value if that is known. -/
  pending : Option (Flag × Option String)
  /-- How many arguments without a name there were. -/
  unnamed : Nat
  deriving Repr, Inhabited

namespace Given

def nothing : Given := ⟨[], none, 0⟩

/-- Whether a value is refused by a flag. -/
def valueFault? (flag : Flag) (value : String) : Option UsageFault :=
  match flag with
  | .config | .output | .file => if value.isEmpty then some .missingValue else none
  | .closeAt => if (integer64? value.toList).isNone then some .refusedValue else none
  | _ => none

/-- Adds a flag with a value. -/
def add (given : Given) (flag : Flag) (value : String) : Except UsageFault Given :=
  if given.values.any (·.1 == flag) then .error .repeatedArgument
  else
    match valueFault? flag value with
    | some fault => .error fault
    | none => .ok { given with values := given.values ++ [(flag, value)] }

/-- Looks at the flag that was read last. -/
def settle (given : Given) : Except UsageFault Given :=
  match given.pending with
  | none => .ok given
  | some (_, none) => .error .missingValue
  | some (flag, some value) => { given with pending := none }.add flag value

/-- Whether the flag that was read last waits for its value. -/
def isWaiting (given : Given) : Bool :=
  given.pending.any (·.2.isNone)

/-- A flag, with its value where that is attached to it. -/
def flag (given : Given) (flag : Flag) (attached : Option String) : Except UsageFault Given := do
  if flag.takesValue then
    let settled ← given.settle
    match attached with
    | some value => settled.add flag value
    | none => pure { settled with pending := some (flag, none) }
  else if attached.isSome then throw .unexpectedValue
  else
    let settled ← given.settle
    match flag with
    | .help => throw .helpAsked
    | .version => throw .versionAsked
    | _ => settled.add flag ""

/-- A flag by its long name. -/
def longFlag (level : Level) (given : Given) (text : List Char) : Except UsageFault Given :=
  let name := String.ofList (text.takeWhile (· != '='))
  let attached := match text.dropWhile (· != '=') with
    | [] => none
    | _ :: value => some (String.ofList value)
  match (flagsAt level).find? (·.long == name) with
  | some found => given.flag found attached
  | none => .error .unknownArgument

/-- Flags by their letters, one after another; the first that takes a value gets
what is behind it. -/
def shortFlags (level : Level) (given : Given) : List Char → Except UsageFault Given
  | [] => .ok given
  | letter :: rest =>
    match (flagsAt level).find? (·.short? == some letter) with
    | none => .error .unknownArgument
    | some found =>
      if found.takesValue then
        let attached := match rest with
          | [] => none
          | '=' :: value => some (String.ofList value)
          | value => some (String.ofList value)
        given.flag found attached
      else do
        let next ← given.flag found none
        shortFlags level next rest

/-- An argument without a name. A subcommand that reads a file takes one. -/
def unnamedArgument (level : Level) (given : Given) (isTrailing : Bool) (text : String) :
    Except UsageFault Given := do
  if level = some .parseLog && given.unnamed = 0 then
    let settled ← given.settle
    pure { settled with pending := some (.file, some text), unnamed := 1 }
  else if level.isSome || (isTrailing && (text == "help" || (Subcommand.ofName? text).isSome)) then
    throw .unknownArgument
  else throw .unknownSubcommand

/-- The last value of a flag at two levels. -/
def value? (outer inner : Given) (flag : Flag) : Option String :=
  (inner.values.lookup flag).or (outer.values.lookup flag)

end Given

/-! ### Reading -/

/-- What help is asked about: nothing or one subcommand. -/
def helpFault : List String → UsageFault
  | [] => .helpAsked
  | [name] =>
    if name == "help" || (Subcommand.ofName? name).isSome then .helpAsked else .unknownSubcommand
  | _ => .unknownSubcommand

/-- Reads the arguments of a level: all of them, or those up to the name of a
subcommand, with what is behind it. -/
def readLevel (level : Level) (isTrailing : Bool) (given : Given) :
    List String → Except UsageFault (Given × Option (Subcommand × List String))
  | [] => .ok (given, none)
  | text :: rest =>
    let isFree := level.isNone && !isTrailing && !given.isWaiting
    match if isFree then Subcommand.ofName? text else none with
    | some found => .ok (given, some (found, rest))
    | none =>
      if isFree && text == "help" then .error (helpFault rest)
      else if isTrailing then do
        readLevel level true (← given.unnamedArgument level true text) rest
      else if text == "--" then readLevel level true given rest
      else
        match text.toList with
        | '-' :: '-' :: name => do readLevel level false (← given.longFlag level name) rest
        | '-' :: letter :: letters => do
          readLevel level false (← given.shortFlags level (letter :: letters)) rest
        | _ =>
          match given.pending with
          | some (flag, none) =>
            readLevel level false { given with pending := some (flag, some text) } rest
          | _ => do readLevel level false (← given.unnamedArgument level false text) rest

/-- What is to be done. -/
inductive Task where
  | run (catchUp : Bool)
  | resolve
  | parseLog (file : String) (closeAt : Option Int)
  | check
  deriving DecidableEq, Repr, Inhabited

/-- Arguments that can be carried out. -/
structure Invocation where
  config : Option String
  token : Option String
  url : Option String
  output : Option String
  pretty : Bool
  task : Task
  deriving DecidableEq, Repr, Inhabited

/-- The task that a subcommand with its flags stands for. -/
def taskOf (outer inner : Given) : Subcommand → Except UsageFault Task
  | .run => .ok (.run (inner.values.any (·.1 == .catchUp)))
  | .resolve => .ok .resolve
  | .check => .ok .check
  | .parseLog =>
    match inner.values.lookup .file with
    | some file =>
      .ok (.parseLog file ((outer.value? inner .closeAt).bind fun text => integer64? text.toList))
    | none => .error .missingArgument

/-- Reads the arguments of the command line. -/
def Invocation.read (arguments : List String) : Except UsageFault Invocation := do
  match ← readLevel none false .nothing arguments with
  | (outer, none) =>
    let settled ← outer.settle
    throw (if settled.values.isEmpty then .nothingAsked else .missingSubcommand)
  | (outer, some (subcommand, rest)) =>
    let (read, _) ← readLevel (some subcommand) false .nothing rest
    let inner ← read.settle
    let task ← taskOf outer inner subcommand
    let settled ← outer.settle
    let value := settled.value? inner
    pure
      { config := value .config
        token := value .token
        url := value .url
        output := value .output
        pretty := (value .pretty).isSome
        task }

end Command

end CiTelemetry
