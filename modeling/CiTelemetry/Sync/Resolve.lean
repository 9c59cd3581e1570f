/-
This file resolves the configured namespaces and projects to a registry. A
lookup that fails gives the whole resolution up, so a registry is either built
from answers to every lookup or not at all.
-/

import CiTelemetry.Registry.Builder
import CiTelemetry.Sync.Action
import CiTelemetry.Sync.Settings

namespace CiTelemetry

namespace RegistryBuilder

/-- Adds the projects of an owner, and what is to be left out. -/
def addNamespace (builder : RegistryBuilder) (defaults : ProjectDefaults)
    (source : NamespaceSource) (projects : List Project) : RegistryBuilder :=
  let flags := source.exportFlags.getD defaults.exportFlags
  let range := source.catchUp.getD defaults.catchUp
  let added := projects.foldl
    (fun known project => known.addFromNamespace (.ofProject project flags range)) builder
  source.exclude.foldl exclude added

/-- Adds a project that is configured by itself. -/
def addProject (builder : RegistryBuilder) (defaults : ProjectDefaults) (source : ProjectSource)
    (project : Project) : RegistryBuilder :=
  builder.addExplicit (.ofProject project (source.exportFlags.getD defaults.exportFlags)
    (source.catchUp.getD defaults.catchUp))

end RegistryBuilder

/-- What an owner is, as configured or as the server says. -/
def resolveKind (source : NamespaceSource) : Fetch NamespaceKind :=
  match source.kind with
  | some kind => pure kind
  | none => Fetch.query (.namespaceKind source.id)

/-- Looks up the projects of owners, owner after owner. -/
def resolveNamespaces (defaults : ProjectDefaults) (builder : RegistryBuilder) :
    List NamespaceSource → Fetch RegistryBuilder
  | [] => pure builder
  | source :: rest => do
    let kind ← resolveKind source
    let projects ← Fetch.query
      (.namespaceProjects source.id kind source.includeSubgroups source.withShared)
    resolveNamespaces defaults (builder.addNamespace defaults source projects) rest

/-- Looks up the projects that are configured by themselves. -/
def resolveExplicit (defaults : ProjectDefaults) (builder : RegistryBuilder) :
    List ProjectSource → Fetch RegistryBuilder
  | [] => pure builder
  | source :: rest => do
    let project ← Fetch.query (.project source.id)
    resolveExplicit defaults (builder.addProject defaults source project) rest

/-- Looks up all configured projects and builds the registry of them. -/
def resolveRegistry (settings : SyncSettings) : Fetch Registry := do
  let listed ← resolveNamespaces settings.defaults .empty settings.namespaces
  let complete ← resolveExplicit settings.defaults listed settings.projects
  pure complete.build

/-- Replaces a registry by a freshly resolved one, and tells how many projects
it has. A resolution that fails leaves the registry as it was. -/
def resolveProjects (settings : SyncSettings) (registry : Registry) :
    Sync (Outcome Nat × Registry) := do
  match ← (resolveRegistry settings).run with
  | .ok resolved => pure (.ok resolved.length, resolved)
  | .error error => pure (.error error, registry)

/-- Resolves the registry anew at `due` and again whenever `span` nanoseconds
have passed, until the synchronization is cancelled. A failed resolution keeps the
registry for the next time. -/
def refreshFrom (settings : SyncSettings) (span : Int) (allowance : Nat) (registry : Registry)
    (due : Instant) : Sync Registry :=
  match allowance with
  | 0 => .stalled
  | allowance + 1 => do
    Sync.waitUntil due
    if ← Sync.isCancelled then pure registry
    else
      let now ← Sync.now
      match ← resolveProjects settings registry with
      | (.error .cancelled, kept) => pure kept
      | (_, next) => refreshFrom settings span allowance next (now.add span)

/-- Resolves the registry anew every `every` milliseconds. -/
def refreshProjects (settings : SyncSettings) (every allowance : Nat) (registry : Registry) :
    Sync Registry := do
  let span := spanOfMillis every
  refreshFrom settings span allowance registry ((← Sync.now).add span)

end CiTelemetry
