/-
This file builds the registry of projects out of what namespaces list and what
is configured explicitly, and cuts it into batches. The first namespace that
lists a project decides about it, an explicit entry outweighs every namespace,
and exclusions outweigh both.
-/

import CiTelemetry.Registry.Settings

namespace CiTelemetry

/-- The settings of the known projects, each id once, in the order in which the
projects became known. -/
abbrev Registry := List ProjectSettings

/-- What has been collected for a registry so far. -/
structure RegistryBuilder where
  entries : Registry
  exclusions : List String
  deriving DecidableEq, Repr, Inhabited

namespace RegistryBuilder

def empty : RegistryBuilder := ⟨[], []⟩

def knows (builder : RegistryBuilder) (id : Int) : Bool :=
  builder.entries.any (·.id == id)

/-- Adds a project that a namespace lists, unless it is known already. -/
def addFromNamespace (builder : RegistryBuilder) (settings : ProjectSettings) :
    RegistryBuilder :=
  if builder.knows settings.id then builder
  else { builder with entries := builder.entries ++ [settings] }

/-- Adds a project that is configured explicitly. A known project keeps its
place and gets the new settings. -/
def addExplicit (builder : RegistryBuilder) (settings : ProjectSettings) : RegistryBuilder :=
  if builder.knows settings.id then
    { builder with
      entries := builder.entries.map fun entry =>
        if entry.id == settings.id then settings else entry }
  else { builder with entries := builder.entries ++ [settings] }

/-- Leaves out every project that a pattern means, whenever it was added. -/
def exclude (builder : RegistryBuilder) (pattern : String) : RegistryBuilder :=
  { builder with exclusions := builder.exclusions ++ [pattern] }

def build (builder : RegistryBuilder) : Registry :=
  builder.entries.filter fun settings => !builder.exclusions.any settings.isMeantBy

end RegistryBuilder

/-! ### Batches -/

/-- The projects that are processed together. -/
abbrev FetchBatch := List ProjectSettings

/-- Cuts a list into pieces of `size` elements, the last of which may be
shorter. -/
def chunks {α : Type} (size : Nat) (items : List α) : List (List α) :=
  match items with
  | [] => []
  | first :: rest => (first :: rest.take (size - 1)) :: chunks size (rest.drop (size - 1))
termination_by items.length
decreasing_by
  simp only [List.length_drop, List.length_cons]
  omega

/-- The projects that a filter accepts, in batches of at most `size` and at
least one project. -/
def Registry.batches (registry : Registry) (size : Nat) (accept : ProjectSettings → Bool) :
    List FetchBatch :=
  chunks (max size 1) (registry.filter accept)

end CiTelemetry
