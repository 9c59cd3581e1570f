/-
This file fetches which projects changed within a window.
-/

import CiTelemetry.Page.Walk
import CiTelemetry.Sync.Pool

namespace CiTelemetry

/-- The values among outcomes; what could not be converted is left out. -/
def converted {α β : Type} (convert : α → Outcome β) (items : List α) : List β :=
  items.filterMap fun item => (convert item).toOption

namespace ProjectChangesNode

/-- Whether a project was updated, or had any activity, within a window. -/
def wasUpdated (project : Project) (window : SyncWindow) : Bool :=
  [project.updatedAt, project.lastActivityAt].any fun instant => instant.any window.contains

/-- The changes of a project within a window. -/
def toChanges (window : SyncWindow) (node : ProjectChangesNode) : Outcome ProjectChanges :=
  node.toProject.map fun project =>
    ⟨project, wasUpdated project window, node.pipelines, node.mergeRequests⟩

end ProjectChangesNode

/-- Fetches the changes of projects within a window. A page that cannot be
fetched ends the fetch; a project whose id cannot be read is left out. -/
def fetchProjectChanges (allowance : Nat) (ids : List Int) (window : SyncWindow) :
    Fetch (Collected ProjectChanges) :=
  if ids.isEmpty then pure .empty
  else do
    let nodes ← Paginator.collect (fun cursor => Fetch.query (.projectChanges ids window cursor))
      allowance .start
    pure (.ofValues (converted (ProjectChangesNode.toChanges window) nodes))

end CiTelemetry
