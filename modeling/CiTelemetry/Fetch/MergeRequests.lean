/-
This file fetches merge requests in three passes over the same collection. The
core pass gives the records, and the others add to them; what the others tell
about a merge request without a record is reported.
-/

import CiTelemetry.Fetch.Changes
import CiTelemetry.Page.Merge

namespace CiTelemetry

/-- One pass over the merge requests of projects. -/
def fetchMergeRequestPass (allowance : Nat) (ids : List Int) (window : SyncWindow)
    (pass : MergeRequestPass) : Fetch (List (Nested ProjectMergeRequestsNode MergeRequestNode)) :=
  flattenNested
    (fun cursor => Fetch.query (.mergeRequests ids window pass cursor))
    ProjectMergeRequestsNode.mergeRequestPage
    (fun project cursor => Fetch.query (.projectMergeRequests project.fullPath window pass cursor))
    allowance allowance .start

/-- The records of the core pass. A project whose id cannot be read and a merge
request that cannot be converted are left out. -/
def coreRecords (projects : List (Nested ProjectMergeRequestsNode MergeRequestNode)) :
    List MergeRequest :=
  projects.flatMap fun project =>
    match GlobalId.parse project.parent.id with
    | .error _ => []
    | .ok projectId =>
      converted (fun node : MergeRequestNode => node.toMergeRequest projectId) project.inner

/-- What a later pass tells, by the number of the merge request. -/
def numberedPartials (projects : List (Nested ProjectMergeRequestsNode MergeRequestNode)) :
    List (Int × MergeRequestNode) :=
  converted (fun node : MergeRequestNode => node.number.map (·, node))
    (projects.flatMap (·.inner))

/-- The failure that stands for a merge request without a record. -/
def orphanError (pass : MergeRequestPass) (id : Int) : SyncError :=
  .conversion ("merge request " ++ toString id ++ " from the " ++ pass.name ++
    " pass has no core record")

/-- Adds what a later pass tells to the records. -/
def addPass (pass : MergeRequestPass) (collected : Collected MergeRequest)
    (projects : List (Nested ProjectMergeRequestsNode MergeRequestNode)) :
    Collected MergeRequest :=
  let outcome := mergePartials collected.values (numberedPartials projects) (·.id) (·.1)
    fun record numbered => numbered.2.mergeInto record
  ⟨outcome.records, collected.errors ++ outcome.orphans.map (orphanError pass)⟩

/-- Fetches the merge requests of projects that were updated within a window. A
pass that fails ends the fetch. -/
def fetchMergeRequests (allowance : Nat) (ids : List Int) (window : SyncWindow) :
    Fetch (Collected MergeRequest) :=
  if ids.isEmpty then pure .empty
  else do
    let core ← fetchMergeRequestPass allowance ids window .core
    let extra ← fetchMergeRequestPass allowance ids window .extra
    let participants ← fetchMergeRequestPass allowance ids window .participants
    let base := Collected.ofValues (coreRecords core)
    pure (addPass .participants (addPass .extra base extra) participants)

end CiTelemetry
