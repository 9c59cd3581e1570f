/-
This file holds the documents in which the server is asked about several
projects at once or about the parts of one. A document names the fields that are
wanted, nested as the answer will be; fields that several documents want are
named once, in a fragment.
-/

namespace CiTelemetry

/-- What is wanted of an object. -/
inductive Selection where
  /-- A field, with arguments and with what is wanted inside it. -/
  | field (name : String) (arguments : List (String × String)) (inside : List Selection)
  /-- The fields that a fragment names. -/
  | fragment (name : String)
  deriving Repr, Inhabited

namespace Selection

/-- A field without parts. -/
def leaf (name : String) : Selection :=
  field name [] []

/-- A field with parts. -/
def within (name : String) (inside : List Selection) : Selection :=
  field name [] inside

/-- A collection in pages: its elements, and whether more follow. -/
def pages (name : String) (arguments : List (String × String)) (inside : List Selection) :
    Selection :=
  field name arguments
    [within "nodes" inside, within "pageInfo" [leaf "endCursor", leaf "hasNextPage"]]

/-! ### Writing -/

/-- Arguments or parameters in parentheses, where there are any. -/
def renderArguments (arguments : List (String × String)) : String :=
  if arguments.isEmpty then ""
  else "(" ++ ", ".intercalate (arguments.map fun (name, value) => name ++ ": " ++ value) ++ ")"

/-- The start of a line, two blanks for each level. -/
def indent (depth : Nat) : String :=
  String.ofList (List.replicate (2 * depth) ' ')

mutual

/-- The lines of a selection. -/
def lines (depth : Nat) : Selection → List String
  | fragment name => [indent depth ++ "..." ++ name]
  | field name arguments [] => [indent depth ++ name ++ renderArguments arguments]
  | field name arguments inside =>
    (indent depth ++ name ++ renderArguments arguments ++ " \x7b") ::
      (linesOfAll (depth + 1) inside ++ [indent depth ++ "\x7d"])

def linesOfAll (depth : Nat) : List Selection → List String
  | [] => []
  | selection :: rest => lines depth selection ++ linesOfAll depth rest

end

/-- A block of selections under a heading. -/
def renderBlock (heading : String) (inside : List Selection) : String :=
  String.join ((lines 0 (within heading inside)).map (· ++ "\n"))

end Selection

/-! ### Fragments -/

namespace Document

open Selection

def fragmentOn (type name : String) (inside : List Selection) : String :=
  renderBlock ("fragment " ++ name ++ " on " ++ type) inside

def artifactFields : String :=
  fragmentOn "CiJobArtifact" "ArtifactFields"
    [leaf "name", leaf "fileType", leaf "size", leaf "downloadPath"]

def pipelineRefFields : String :=
  fragmentOn "Pipeline" "PipelineRefFields"
    [leaf "id", leaf "iid", within "project" [leaf "id", leaf "fullPath"]]

def jobFields : String :=
  pipelineRefFields ++ "\n" ++
    fragmentOn "CiJob" "JobFields"
      [leaf "id", leaf "name", leaf "kind", leaf "status", within "stage" [leaf "name"],
        leaf "allowFailure", leaf "retried", leaf "tags", leaf "failureMessage",
        within "runner" [leaf "id"], leaf "createdAt", leaf "queuedAt", leaf "startedAt",
        leaf "finishedAt", leaf "duration", leaf "queuedDuration",
        within "downstreamPipeline" [fragment "PipelineRefFields"]]

/-- Jobs in pages, each with the first page of its artifacts. -/
def jobPages (arguments : List (String × String)) : Selection :=
  pages "jobs" arguments
    [fragment "JobFields", pages "artifacts" [("first", "20")] [fragment "ArtifactFields"]]

def pipelineFields : String :=
  fragmentOn "Pipeline" "PipelineFields"
    [leaf "id", leaf "iid", leaf "status", leaf "ref", leaf "sha", leaf "source",
      within "user" [leaf "username"], leaf "createdAt", leaf "updatedAt", leaf "startedAt",
      leaf "finishedAt", leaf "duration", leaf "queuedDuration", leaf "coverage",
      within "upstream" [fragment "PipelineRefFields"], jobPages [("first", "50")]]

/-- The fields of a merge request that the first pass carries. -/
def coreFields : String :=
  fragmentOn "MergeRequest" "MergeRequestFields"
    [leaf "title", leaf "state", leaf "sourceBranch", leaf "targetBranch",
      within "author" [leaf "username"], leaf "draft",
      within "labels" [within "nodes" [leaf "title"]], leaf "webUrl", leaf "createdAt",
      leaf "updatedAt", leaf "mergedAt", leaf "closedAt"]

/-- The fields of a merge request that are costly to compute. -/
def extraFields : String :=
  fragmentOn "MergeRequest" "MergeRequestFields"
    [within "diffStatsSummary" [leaf "additions", leaf "deletions", leaf "fileCount"],
      leaf "userNotesCount", leaf "approved", leaf "mergeStatusEnum"]

def people (name : String) : Selection :=
  within name [within "nodes" [leaf "username"]]

/-- The people who take part in a merge request. -/
def participantFields : String :=
  fragmentOn "MergeRequest" "MergeRequestFields"
    [people "participants", people "assignees", people "reviewers"]

/-! ### Documents -/

def question (name : String) (parameters : List (String × String)) (inside : List Selection) :
    String :=
  renderBlock ("query " ++ name ++ renderArguments parameters) inside

def windowParameters : List (String × String) :=
  [("$updatedAfter", "Time"), ("$updatedBefore", "Time")]

def windowArguments : List (String × String) :=
  [("updatedAfter", "$updatedAfter"), ("updatedBefore", "$updatedBefore")]

/-- The parameters of a question about several projects. -/
def projectsParameters : List (String × String) :=
  [("$ids", "[ID!]")] ++ windowParameters ++ [("$after", "String")]

/-- Several projects in pages of a size. -/
def projectPages (size : String) (inside : List Selection) : Selection :=
  pages "projects" [("ids", "$ids"), ("first", size), ("after", "$after")] inside

/-- One project by its path. -/
def oneProject (inside : List Selection) : Selection :=
  field "project" [("fullPath", "$fullPath")] inside

def projectChanges : String :=
  question "ProjectChanges" projectsParameters
    [projectPages "100"
      [leaf "id", leaf "fullPath", leaf "name", leaf "description", leaf "webUrl",
        leaf "visibility", leaf "archived", leaf "starCount", leaf "forksCount",
        leaf "createdAt", leaf "updatedAt", leaf "lastActivityAt",
        within "namespace" [leaf "id", leaf "fullPath"], within "repository" [leaf "rootRef"],
        field "pipelines" windowArguments [leaf "count"],
        field "mergeRequests" windowArguments [leaf "count"]]]

def projectsPipelines : String :=
  artifactFields ++ jobFields ++ pipelineFields ++
    question "ProjectsPipelines" projectsParameters
      [projectPages "20"
        [leaf "id", leaf "fullPath",
          pages "pipelines" (windowArguments ++ [("first", "20")]) [fragment "PipelineFields"]]]

/-- The parameters of a question about the pages of one project. -/
def projectParameters : List (String × String) :=
  [("$fullPath", "ID!")] ++ windowParameters ++ [("$after", "String")]

def projectPipelines : String :=
  artifactFields ++ jobFields ++ pipelineFields ++
    question "ProjectPipelines" projectParameters
      [oneProject
        [pages "pipelines" (windowArguments ++ [("first", "20"), ("after", "$after")])
          [fragment "PipelineFields"]]]

def pipeline : String :=
  artifactFields ++ jobFields ++ pipelineFields ++
    question "Pipeline" [("$fullPath", "ID!"), ("$iid", "ID!")]
      [oneProject [field "pipeline" [("iid", "$iid")] [fragment "PipelineFields"]]]

def pipelineJobs : String :=
  artifactFields ++ jobFields ++
    question "PipelineJobs" [("$fullPath", "ID!"), ("$iid", "ID!"), ("$after", "String")]
      [oneProject
        [field "pipeline" [("iid", "$iid")]
          [leaf "id", leaf "iid", jobPages [("first", "50"), ("after", "$after")]]]]

def jobArtifacts : String :=
  artifactFields ++
    question "JobArtifacts" [("$fullPath", "ID!"), ("$id", "JobID!"), ("$after", "String")]
      [oneProject
        [field "job" [("id", "$id")]
          [leaf "id",
            pages "artifacts" [("first", "100"), ("after", "$after")]
              [fragment "ArtifactFields"]]]]

/-- What is wanted of a merge request, the fields of the pass aside. -/
def mergeRequest : List Selection :=
  [leaf "id", leaf "iid", fragment "MergeRequestFields"]

/-- Merge requests of several projects, with the fields of a pass. -/
def mergeRequests (passFields : String) : String :=
  passFields ++
    question "MergeRequests" projectsParameters
      [projectPages "20"
        [leaf "id", leaf "fullPath",
          pages "mergeRequests" (windowArguments ++ [("first", "50")]) mergeRequest]]

/-- Merge requests of one project, with the fields of a pass. -/
def projectMergeRequests (passFields : String) : String :=
  passFields ++
    question "ProjectMergeRequests" projectParameters
      [oneProject
        [pages "mergeRequests" (windowArguments ++ [("first", "50"), ("after", "$after")])
          mergeRequest]]

end Document

end CiTelemetry
