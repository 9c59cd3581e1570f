/-
This file holds merge requests as the query language answers them. One query
cannot carry all of their fields, so they are fetched in passes: the core pass
gives the record, and the other passes add the fields that they carry.
-/

import CiTelemetry.Node.Project
import CiTelemetry.Record.MergeRequest
import CiTelemetry.Text.LowerCase

namespace CiTelemetry

/-- The fields that one pass fetches. -/
inductive MergeRequestPass where
  | core
  | extra
  | participants
  deriving DecidableEq, Repr, Inhabited

def MergeRequestPass.name : MergeRequestPass → String
  | core => "core"
  | extra => "extra"
  | participants => "participants"

/-- The size of the changes of a merge request. -/
structure DiffStatsNode where
  additions : Option Int
  deletions : Option Int
  fileCount : Option Int
  deriving DecidableEq, Repr, Inhabited

def DiffStatsNode.decode? (json : Json) : Option DiffStatsNode := do
  let fields ← json.asObject?
  let additions ← fields.maybeSigned? "additions"
  let deletions ← fields.maybeSigned? "deletions"
  let fileCount ← fields.maybeSigned? "fileCount"
  pure ⟨additions, deletions, fileCount⟩

/-- The title of a label. -/
def decodeTitle? (json : Json) : Option String := do
  let fields ← json.asObject?
  fields.text? "title"

/-- What any of the passes answers about a merge request; the fields of the other
passes are missing. -/
structure MergeRequestNode where
  id : String
  iid : String
  title : Option String
  state : Option String
  sourceBranch : Option String
  targetBranch : Option String
  author : Option String
  draft : Option Bool
  labels : Option (Connection String)
  webUrl : Option String
  createdAt : Option Instant
  updatedAt : Option Instant
  mergedAt : Option Instant
  closedAt : Option Instant
  diffStats : Option DiffStatsNode
  userNotesCount : Option Int
  approved : Option Bool
  mergeStatus : Option String
  participants : Option (Connection String)
  assignees : Option (Connection String)
  reviewers : Option (Connection String)
  deriving DecidableEq, Repr, Inhabited

namespace MergeRequestNode

def decode? (json : Json) : Option MergeRequestNode := do
  let fields ← json.asObject?
  let id ← fields.text? "id"
  let iid ← fields.text? "iid"
  let title ← fields.maybeText? "title"
  let state ← fields.maybeText? "state"
  let sourceBranch ← fields.maybeText? "sourceBranch"
  let targetBranch ← fields.maybeText? "targetBranch"
  let author ← Json.optional? fields "author" decodeUserName?
  let draft ← fields.maybeFlag? "draft"
  let labels ← Json.optional? fields "labels" (Connection.decode? decodeTitle?)
  let webUrl ← fields.maybeText? "webUrl"
  let createdAt ← fields.maybeInstant? "createdAt"
  let updatedAt ← fields.maybeInstant? "updatedAt"
  let mergedAt ← fields.maybeInstant? "mergedAt"
  let closedAt ← fields.maybeInstant? "closedAt"
  let diffStats ← Json.optional? fields "diffStatsSummary" DiffStatsNode.decode?
  let userNotesCount ← fields.maybeSigned? "userNotesCount"
  let approved ← fields.maybeFlag? "approved"
  let mergeStatus ← fields.maybeText? "mergeStatusEnum"
  let participants ← Json.optional? fields "participants" (Connection.decode? decodeUserName?)
  let assignees ← Json.optional? fields "assignees" (Connection.decode? decodeUserName?)
  let reviewers ← Json.optional? fields "reviewers" (Connection.decode? decodeUserName?)
  pure ⟨id, iid, title, state, sourceBranch, targetBranch, author, draft, labels, webUrl,
    createdAt, updatedAt, mergedAt, closedAt, diffStats, userNotesCount, approved, mergeStatus,
    participants, assignees, reviewers⟩

/-- The number of a merge request. -/
def number (node : MergeRequestNode) : Outcome Int :=
  GlobalId.parse node.id

/-- The record that the core pass gives. -/
def toMergeRequest (node : MergeRequestNode) (projectId : Int) : Outcome MergeRequest := do
  let id ← node.number
  pure
    { (default : MergeRequest) with
      id
      iid := node.iid
      projectId
      title := node.title.getD ""
      state := node.state.getD ""
      sourceBranch := node.sourceBranch
      targetBranch := node.targetBranch
      author := node.author
      draft := node.draft.getD false
      labels := (Connection.pageOf node.labels).items
      webUrl := node.webUrl
      createdAt := node.createdAt
      updatedAt := node.updatedAt
      mergedAt := node.mergedAt
      closedAt := node.closedAt }

/-- The names that a pass carries, or those of the record when it carries none. -/
def namesOr (carried : Option (Connection String)) (known : List String) : List String :=
  match carried with
  | some connection => connection.toPage.items
  | none => known

/-- Adds the fields that a later pass carries to a record. -/
def mergeInto (node : MergeRequestNode) (record : MergeRequest) : MergeRequest :=
  { record with
    additions := match node.diffStats with
      | some stats => stats.additions
      | none => record.additions
    deletions := match node.diffStats with
      | some stats => stats.deletions
      | none => record.deletions
    fileCount := match node.diffStats with
      | some stats => stats.fileCount
      | none => record.fileCount
    userNotesCount := node.userNotesCount.or record.userNotesCount
    approved := node.approved.or record.approved
    mergeStatus := (node.mergeStatus.map lowerCase).or record.mergeStatus
    participants := namesOr node.participants record.participants
    assignees := namesOr node.assignees record.assignees
    reviewers := namesOr node.reviewers record.reviewers }

end MergeRequestNode

/-- A project with the first page of its merge requests. -/
structure ProjectMergeRequestsNode where
  id : String
  fullPath : String
  mergeRequests : Option (Connection MergeRequestNode)
  deriving DecidableEq, Repr, Inhabited

namespace ProjectMergeRequestsNode

def decode? (json : Json) : Option ProjectMergeRequestsNode := do
  let fields ← json.asObject?
  let id ← fields.text? "id"
  let fullPath ← fields.text? "fullPath"
  let mergeRequests ←
    Json.optional? fields "mergeRequests" (Connection.decode? MergeRequestNode.decode?)
  pure ⟨id, fullPath, mergeRequests⟩

def mergeRequestPage (node : ProjectMergeRequestsNode) : Page MergeRequestNode :=
  Connection.pageOf node.mergeRequests

end ProjectMergeRequestsNode

end CiTelemetry
