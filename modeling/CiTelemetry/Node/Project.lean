/-
This file holds projects as the query language answers them, and the record
that such an answer becomes.
-/

import CiTelemetry.Identity
import CiTelemetry.Page
import CiTelemetry.Record.Project

namespace CiTelemetry

/-- A reference to a project, or to the group that holds one. -/
structure ProjectRefNode where
  id : Option String
  fullPath : String
  deriving DecidableEq, Repr, Inhabited

def ProjectRefNode.decode? (json : Json) : Option ProjectRefNode := do
  let fields ← json.asObject?
  let id ← fields.maybeText? "id"
  let fullPath ← fields.text? "fullPath"
  pure ⟨id, fullPath⟩

/-- The user name of a user. -/
def decodeUserName? (json : Json) : Option String := do
  let fields ← json.asObject?
  fields.text? "username"

/-- How many elements a collection has. Its only field has a default, so that an
empty list stands for zero as well. -/
def decodeCount? (json : Json) : Option Int := do
  let fields ← match json with
    | .arr [] => some []
    | _ => json.asObject?
  Json.defaulted? fields "count" Json.asSigned64? 0

/-- The default branch of a repository. -/
def decodeRootRef? (json : Json) : Option (Option String) := do
  let fields ← json.asObject?
  fields.maybeText? "rootRef"

/-- A project with the number of pipelines and of merge requests that changed
within a window. -/
structure ProjectChangesNode where
  id : String
  fullPath : String
  name : String
  description : Option String
  webUrl : Option String
  visibility : Option String
  archived : Bool
  starCount : Int
  forksCount : Int
  createdAt : Option Instant
  updatedAt : Option Instant
  lastActivityAt : Option Instant
  group : Option ProjectRefNode
  defaultBranch : Option String
  pipelines : Int
  mergeRequests : Int
  deriving DecidableEq, Repr, Inhabited

namespace ProjectChangesNode

def decode? (json : Json) : Option ProjectChangesNode := do
  let fields ← json.asObject?
  let id ← fields.text? "id"
  let fullPath ← fields.text? "fullPath"
  let name ← Json.defaulted? fields "name" Json.asText? ""
  let description ← fields.maybeText? "description"
  let webUrl ← fields.maybeText? "webUrl"
  let visibility ← fields.maybeText? "visibility"
  let archived ← Json.defaulted? fields "archived" Json.asBool? false
  let starCount ← Json.defaulted? fields "starCount" Json.asSigned64? 0
  let forksCount ← Json.defaulted? fields "forksCount" Json.asSigned64? 0
  let createdAt ← fields.maybeInstant? "createdAt"
  let updatedAt ← fields.maybeInstant? "updatedAt"
  let lastActivityAt ← fields.maybeInstant? "lastActivityAt"
  let group ← Json.optional? fields "namespace" ProjectRefNode.decode?
  let repository ← Json.optional? fields "repository" decodeRootRef?
  let pipelines ← Json.optional? fields "pipelines" decodeCount?
  let mergeRequests ← Json.optional? fields "mergeRequests" decodeCount?
  pure ⟨id, fullPath, name, description, webUrl, visibility, archived, starCount, forksCount,
    createdAt, updatedAt, lastActivityAt, group, repository.join, pipelines.getD 0,
    mergeRequests.getD 0⟩

/-- A path without its last segment; a path of one segment has nothing left. -/
def parentPath (path : String) : String :=
  String.ofList ((path.toList.reverse.dropWhile (· != '/')).drop 1).reverse

/-- The record of a project. Without a group of its own the project belongs to
the one that its path names. -/
def toProject (node : ProjectChangesNode) : Outcome Project := do
  let id ← GlobalId.parse node.id
  pure
    { id
      fullPath := node.fullPath
      name := node.name
      namespacePath := match node.group with
        | some group => group.fullPath
        | none => parentPath node.fullPath
      description := node.description
      webUrl := node.webUrl
      defaultBranch := node.defaultBranch
      visibility := node.visibility
      archived := node.archived
      starCount := node.starCount
      forksCount := node.forksCount
      createdAt := node.createdAt
      updatedAt := node.updatedAt
      lastActivityAt := node.lastActivityAt }

end ProjectChangesNode

end CiTelemetry
