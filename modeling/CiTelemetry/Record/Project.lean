/-
This file holds the record of a project and what one query tells about its
recent changes.
-/

import CiTelemetry.Json.Fields

namespace CiTelemetry

/-- What is known of a project itself. -/
structure Project where
  id : Int
  /-- The path with that of the namespace in front. -/
  fullPath : String
  name : String
  namespacePath : String
  description : Option String
  webUrl : Option String
  defaultBranch : Option String
  visibility : Option String
  archived : Bool
  starCount : Int
  forksCount : Int
  createdAt : Option Instant
  updatedAt : Option Instant
  lastActivityAt : Option Instant
  deriving DecidableEq, Repr, Inhabited

def Project.encode (project : Project) : Json :=
  .obj
    [("id", .int project.id),
      ("full_path", .str project.fullPath),
      ("name", .str project.name),
      ("namespace_path", .str project.namespacePath),
      ("description", .ofOption .str project.description),
      ("web_url", .ofOption .str project.webUrl),
      ("default_branch", .ofOption .str project.defaultBranch),
      ("visibility", .ofOption .str project.visibility),
      ("archived", .bool project.archived),
      ("star_count", .int project.starCount),
      ("forks_count", .int project.forksCount),
      ("created_at", .ofOption .ofInstant project.createdAt),
      ("updated_at", .ofOption .ofInstant project.updatedAt),
      ("last_activity_at", .ofOption .ofInstant project.lastActivityAt)]

def Project.decode? (json : Json) : Option Project := do
  let fields ← json.asObject?
  let id ← fields.signed? "id"
  let fullPath ← fields.text? "full_path"
  let name ← fields.text? "name"
  let namespacePath ← fields.text? "namespace_path"
  let description ← fields.maybeText? "description"
  let webUrl ← fields.maybeText? "web_url"
  let defaultBranch ← fields.maybeText? "default_branch"
  let visibility ← fields.maybeText? "visibility"
  let archived ← fields.flag? "archived"
  let starCount ← fields.signed? "star_count"
  let forksCount ← fields.signed? "forks_count"
  let createdAt ← fields.maybeInstant? "created_at"
  let updatedAt ← fields.maybeInstant? "updated_at"
  let lastActivityAt ← fields.maybeInstant? "last_activity_at"
  pure ⟨id, fullPath, name, namespacePath, description, webUrl, defaultBranch, visibility,
    archived, starCount, forksCount, createdAt, updatedAt, lastActivityAt⟩

/-- What changed in a project within a window. -/
structure ProjectChanges where
  project : Project
  /-- Whether the project itself was updated within the window. -/
  updated : Bool
  /-- How many pipelines were updated within the window. -/
  pipelines : Int
  /-- How many merge requests were updated within the window. -/
  mergeRequests : Int
  deriving DecidableEq, Repr, Inhabited

def ProjectChanges.encode (changes : ProjectChanges) : Json :=
  .obj
    [("project", changes.project.encode),
      ("updated", .bool changes.updated),
      ("pipelines", .int changes.pipelines),
      ("merge_requests", .int changes.mergeRequests)]

end CiTelemetry
