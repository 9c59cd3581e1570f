/-
This file holds the record of a merge request.
-/

import CiTelemetry.Json.Fields

namespace CiTelemetry

/-- A merge request. -/
structure MergeRequest where
  id : Int
  iid : String
  projectId : Int
  title : String
  state : String
  sourceBranch : Option String
  targetBranch : Option String
  author : Option String
  draft : Bool
  labels : List String
  webUrl : Option String
  createdAt : Option Instant
  updatedAt : Option Instant
  mergedAt : Option Instant
  closedAt : Option Instant
  additions : Option Int
  deletions : Option Int
  fileCount : Option Int
  userNotesCount : Option Int
  approved : Option Bool
  mergeStatus : Option String
  participants : List String
  assignees : List String
  reviewers : List String
  deriving DecidableEq, Repr, Inhabited

def MergeRequest.encode (request : MergeRequest) : Json :=
  .obj
    [("id", .int request.id),
      ("iid", .str request.iid),
      ("project_id", .int request.projectId),
      ("title", .str request.title),
      ("state", .str request.state),
      ("source_branch", .ofOption .str request.sourceBranch),
      ("target_branch", .ofOption .str request.targetBranch),
      ("author", .ofOption .str request.author),
      ("draft", .bool request.draft),
      ("labels", .ofList .str request.labels),
      ("web_url", .ofOption .str request.webUrl),
      ("created_at", .ofOption .ofInstant request.createdAt),
      ("updated_at", .ofOption .ofInstant request.updatedAt),
      ("merged_at", .ofOption .ofInstant request.mergedAt),
      ("closed_at", .ofOption .ofInstant request.closedAt),
      ("additions", .ofOption .int request.additions),
      ("deletions", .ofOption .int request.deletions),
      ("file_count", .ofOption .int request.fileCount),
      ("user_notes_count", .ofOption .int request.userNotesCount),
      ("approved", .ofOption .bool request.approved),
      ("merge_status", .ofOption .str request.mergeStatus),
      ("participants", .ofList .str request.participants),
      ("assignees", .ofList .str request.assignees),
      ("reviewers", .ofList .str request.reviewers)]

def MergeRequest.decode? (json : Json) : Option MergeRequest := do
  let fields ← json.asObject?
  let id ← fields.signed? "id"
  let iid ← fields.text? "iid"
  let projectId ← fields.signed? "project_id"
  let title ← fields.text? "title"
  let state ← fields.text? "state"
  let sourceBranch ← fields.maybeText? "source_branch"
  let targetBranch ← fields.maybeText? "target_branch"
  let author ← fields.maybeText? "author"
  let draft ← fields.flag? "draft"
  let labels ← fields.list? "labels" Json.asText?
  let webUrl ← fields.maybeText? "web_url"
  let createdAt ← fields.maybeInstant? "created_at"
  let updatedAt ← fields.maybeInstant? "updated_at"
  let mergedAt ← fields.maybeInstant? "merged_at"
  let closedAt ← fields.maybeInstant? "closed_at"
  let additions ← fields.maybeSigned? "additions"
  let deletions ← fields.maybeSigned? "deletions"
  let fileCount ← fields.maybeSigned? "file_count"
  let userNotesCount ← fields.maybeSigned? "user_notes_count"
  let approved ← fields.maybeFlag? "approved"
  let mergeStatus ← fields.maybeText? "merge_status"
  let participants ← fields.list? "participants" Json.asText?
  let assignees ← fields.list? "assignees" Json.asText?
  let reviewers ← fields.list? "reviewers" Json.asText?
  pure ⟨id, iid, projectId, title, state, sourceBranch, targetBranch, author, draft, labels,
    webUrl, createdAt, updatedAt, mergedAt, closedAt, additions, deletions, fileCount,
    userNotesCount, approved, mergeStatus, participants, assignees, reviewers⟩

end CiTelemetry
