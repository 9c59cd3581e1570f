/-
This file asks the server for single things by their paths, and for lists that
come in numbered pages. A list names the number of its next page in a header;
the walk ends where it names none or the page just read.
-/

import CiTelemetry.Remote.Client
import CiTelemetry.Remote.Query
import CiTelemetry.Text.Blank

namespace CiTelemetry

open Http

/-! ### What the server writes -/

/-- An owner of projects: what it is. -/
def decodeOwnerKind? (json : Json) : Option String :=
  json.asObject?.bind fun fields => fields.text? "kind"

/-- An owner of projects: its path. -/
def decodeOwnerPath? (json : Json) : Option String :=
  json.asObject?.bind fun fields => fields.text? "full_path"

/-- A project as the server writes it. -/
def Project.ofListing? (json : Json) : Option Project := do
  let fields ← json.asObject?
  let id ← fields.signed? "id"
  let fullPath ← fields.text? "path_with_namespace"
  let name ← Json.defaulted? fields "name" Json.asText? ""
  let namespacePath ← Json.defaulted? fields "namespace" decodeOwnerPath? ""
  let description ← fields.maybeText? "description"
  let webUrl ← fields.maybeText? "web_url"
  let defaultBranch ← fields.maybeText? "default_branch"
  let visibility ← fields.maybeText? "visibility"
  let archived ← Json.defaulted? fields "archived" Json.asBool? false
  let starCount ← Json.defaulted? fields "star_count" Json.asSigned64? 0
  let forksCount ← Json.defaulted? fields "forks_count" Json.asSigned64? 0
  let createdAt ← fields.maybeInstant? "created_at"
  let updatedAt ← fields.maybeInstant? "updated_at"
  let lastActivityAt ← fields.maybeInstant? "last_activity_at"
  pure ⟨id, fullPath, name, namespacePath, description, webUrl, defaultBranch, visibility,
    archived, starCount, forksCount, createdAt, updatedAt, lastActivityAt⟩

/-- A text field of an object inside. -/
def decodeNamed? (name : String) (json : Json) : Option String :=
  json.asObject?.bind fun fields => fields.text? name

/-- The number of an object inside. -/
def decodeNumber? (json : Json) : Option Int :=
  json.asObject?.bind fun fields => fields.signed? "id"

/-- The job that deploys, and the pipeline of it if that is known. -/
def decodeDeployer? (json : Json) : Option (Int × Option Int) := do
  let fields ← json.asObject?
  let job ← fields.signed? "id"
  let pipeline ← Json.optional? fields "pipeline" decodeNumber?
  pure (job, pipeline)

/-- A deployment of a project as the server writes it. -/
def Deployment.ofListing? (projectId : Int) (json : Json) : Option Deployment := do
  let fields ← json.asObject?
  let id ← fields.signed? "id"
  let iid ← fields.signed? "iid"
  let status ← Json.defaulted? fields "status" Json.asText? ""
  let branch ← fields.maybeText? "ref"
  let sha ← fields.maybeText? "sha"
  let user ← Json.optional? fields "user" (decodeNamed? "username")
  let environment ← Json.optional? fields "environment" (decodeNamed? "name")
  let deployer ← Json.optional? fields "deployable" decodeDeployer?
  let createdAt ← fields.maybeInstant? "created_at"
  let updatedAt ← fields.maybeInstant? "updated_at"
  let finishedAt ← fields.maybeInstant? "finished_at"
  pure ⟨id, iid, projectId, environment, status, branch, sha, user, deployer.map (·.1),
    deployer.bind (·.2), createdAt, updatedAt, finishedAt⟩

/-! ### Asking -/

/-- The failure of asking for something by its name: where the server knows of
none, that is the failure. -/
def SyncError.orMissing (error missing : SyncError) : SyncError :=
  match error with
  | apiStatus 404 _ => missing
  | _ => error

/-- A name as one segment of a path. -/
def pathSegment (name : String) : String :=
  String.ofList (Percent.form name.toList)

namespace Client

variable {α : Type}

/-- Asks for what is at an address. -/
def ask (client : Client) (address : Address) : Exchange Response :=
  client.send (client.request .fetch address none)

/-- Asks for a thing by its path. -/
def askPath (client : Client) (path : String) (decode? : Json → Option α) : Exchange α := do
  let address ← Attempt.ofOutcome (client.addressOf path)
  let response ← client.ask address
  bodyValue decode? response

/-- How many items a page has. -/
def pageSize : String := "100"

/-- The number of the page that follows an answer. -/
def nextPage? (response : Response) : Option String :=
  ((response.headerText? "x-next-page").map fun text => String.ofList (trim text.toList)).filter
    fun text => !text.isEmpty

/-- The items of a list from a page on, in at most as many pages as allowed. -/
def listFrom (client : Client) (address : Address) (decode? : Json → Option α) :
    (allowance : Nat) → (page : String) → Exchange (List α)
  | 0, _ => Attempt.stalled
  | allowance + 1, page => do
    let response ← client.ask ((address.withField "per_page" pageSize).withField "page" page)
    let items ← bodyValue (Json.asList? decode?) response
    match nextPage? response with
    | none => pure items
    | some next =>
      if next = page then pure items
      else do
        let others ← client.listFrom address decode? allowance next
        pure (items ++ others)

/-- The items of a list. -/
def list (client : Client) (address : Address) (decode? : Json → Option α) (allowance : Nat) :
    Exchange (List α) :=
  client.listFrom address decode? allowance "1"

/-! ### Questions -/

def namespaceKind (client : Client) (owner : String) : Exchange NamespaceKind := do
  let name ← (client.askPath ("namespaces/" ++ pathSegment owner) decodeOwnerKind?).tryCatch
    fun error => throw (error.orMissing (.namespaceNotFound owner))
  match NamespaceKind.ofName? name with
  | some kind => pure kind
  | none =>
    throw (.conversion ("unknown namespace kind '" ++ name ++ "' for '" ++ owner ++ "'"))

/-- Where the projects of an owner are listed. -/
def ownedProjects (client : Client) (owner : String) (kind : NamespaceKind)
    (includeSubgroups withShared : Bool) : Outcome Address :=
  match kind with
  | .group => do
    let address ← client.addressOf ("groups/" ++ pathSegment owner ++ "/projects")
    pure ((address.withField "include_subgroups" (toString includeSubgroups)).withField
      "with_shared" (toString withShared))
  | .user => client.addressOf ("users/" ++ pathSegment owner ++ "/projects")

def namespaceProjects (client : Client) (allowance : Nat) (owner : String)
    (kind : NamespaceKind) (includeSubgroups withShared : Bool) : Exchange (List Project) := do
  let address ← Attempt.ofOutcome (client.ownedProjects owner kind includeSubgroups withShared)
  (client.list address Project.ofListing? allowance).tryCatch
    fun error => throw (error.orMissing (.namespaceNotFound owner))

def project (client : Client) (name : String) : Exchange Project :=
  (client.askPath ("projects/" ++ pathSegment name) Project.ofListing?).tryCatch
    fun error => throw (error.orMissing (.projectNotFound name))

def jobLog (client : Client) (projectId jobId : Int) : Exchange Bytes := do
  let address ← Attempt.ofOutcome (client.addressOf
    ("projects/" ++ toString projectId ++ "/jobs/" ++ toString jobId ++ "/trace"))
  let response ← client.ask address
  bodyBytes response

def testReport (client : Client) (projectId pipelineId : Int) : Exchange TestReport := do
  let report ← client.askPath
    ("projects/" ++ toString projectId ++ "/pipelines/" ++ toString pipelineId ++ "/test_report")
    TestReport.decode?
  pure { report with projectId, pipelineId }

def deployments (client : Client) (allowance : Nat) (projectId : Int) (window : SyncWindow) :
    Exchange (List Deployment) := do
  let address ← Attempt.ofOutcome (client.addressOf
    ("projects/" ++ toString projectId ++ "/deployments"))
  let within := (((address.withField "updated_after" window.start.renderOffset).withField
    "updated_before" window.finish.renderOffset).withField "order_by" "updated_at")
  client.list within (Deployment.ofListing? projectId) allowance

def runner (client : Client) (id : Int) : Exchange Runner :=
  client.askPath ("runners/" ++ toString id) Runner.decode?

/-- Whether the server answers at all, with any value. -/
def readiness (client : Client) : Exchange Unit :=
  client.askPath "version" fun json => if json.isFinite then some () else none

end Client

end CiTelemetry
