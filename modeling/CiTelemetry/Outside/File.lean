/-
This file holds the ways in which the use of a file fails, and a folder of files
that is held in memory. Paths are followed name by name: a dot stays, two dots go
up, and every name but the last has to be that of a folder.
-/

import CiTelemetry.Text.Bytes

namespace CiTelemetry

/-- Why a file cannot be used. -/
inductive FileFault where
  | notFound
  | notFolder
  | isFolder
  | nameTooLong
  | other (text : String)
  deriving DecidableEq, Repr, Inhabited

def FileFault.message : FileFault → String
  | notFound => "No such file or directory (os error 2)"
  | notFolder => "Not a directory (os error 20)"
  | isFolder => "Is a directory (os error 21)"
  | nameTooLong => "File name too long (os error 36)"
  | other text => text

/-- The files of a folder, each by its name. -/
structure Folder where
  /-- The path of the folder itself. -/
  path : String
  files : List (String × Bytes)
  deriving DecidableEq, Repr, Inhabited

namespace Folder

/-- The longest name of a file, in bytes. -/
def longestName : Nat := 255

/-- The names of a path below the folder, where the path leads there: it begins
with that of the folder or is relative. -/
def names? (folder : Folder) (path : String) : Option (List String) :=
  let names := path.splitOn "/"
  if path.isEmpty then none
  else if !path.startsWith "/" && !path.startsWith folder.path then some names
  else
    let own := folder.path.splitOn "/"
    if own.isPrefixOf names then some (names.drop own.length) else none

/-- Where a path leads: to the folder itself or to a name in it. Only the folder
itself may be followed by more names. -/
def follow (folder : Folder) (place : Option String) :
    List String → Except FileFault (Option String)
  | [] => .ok place
  | name :: rest =>
    match place with
    | some file =>
      if folder.files.any (·.1 == file) then .error .notFolder
      else if rest.isEmpty && name.isEmpty then .error .isFolder
      else .error .notFound
    | none =>
      if longestName < name.utf8ByteSize then .error .nameTooLong
      else if name.isEmpty || name == "." then follow folder none rest
      else if name == ".." then .error .isFolder
      else follow folder (some name) rest

/-- The name of the file that a path leads to. -/
def file (folder : Folder) (path : String) : Except FileFault String :=
  match folder.names? path with
  | none => .error .notFound
  | some names =>
    match folder.follow none names with
    | .ok (some name) => .ok name
    | .ok none => .error .isFolder
    | .error fault => .error fault

def read (folder : Folder) (path : String) : Except FileFault Bytes := do
  match folder.files.lookup (← folder.file path) with
  | some bytes => pure bytes
  | none => throw .notFound

/-- Whether there is anything at a path. -/
def contains (folder : Folder) (path : String) : Bool :=
  match (folder.names? path).map (folder.follow none) with
  | some (.ok (some name)) => folder.files.any (·.1 == name)
  | some (.ok none) => true
  | _ => false

/-- The folder with other contents of a file. -/
def put (folder : Folder) (name : String) (bytes : Bytes) : Folder :=
  { folder with
    files := folder.files.filter (·.1 != name) ++ [(name, bytes)] }

/-- Writes a file anew. -/
def write (folder : Folder) (path : String) (bytes : Bytes) : Except FileFault Folder := do
  pure (folder.put (← folder.file path) bytes)

/-- Writes behind the contents of a file, which is made if there is none. -/
def append (folder : Folder) (path : String) (bytes : Bytes) : Except FileFault Folder := do
  let name ← folder.file path
  pure (folder.put name ((folder.files.lookup name).getD [] ++ bytes))

end Folder

end CiTelemetry
