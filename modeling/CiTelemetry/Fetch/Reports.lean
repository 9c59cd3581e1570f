/-
This file fetches what belongs to a single pipeline, project or runner: test
reports, deployments and runners.
-/

import CiTelemetry.Sync.Pool

namespace CiTelemetry

/-- Fetches the test reports of all finished pipelines; a report without any
test is left out. -/
def fetchTestReports (pipelines : List Pipeline) : Fetch (Collected TestReport) := do
  let gathered ← runPool ((pipelines.filter (·.finishedAt.isSome)).map fun pipeline =>
    Fetch.query (.testReport pipeline.projectId pipeline.id))
  pure (gathered.mapValues (·.filter fun report =>
    !(report.totalCount == 0 && report.testSuites.isEmpty)))

/-- Fetches the deployments of projects that were updated within a window. -/
def fetchDeployments (ids : List Int) (window : SyncWindow) : Fetch (Collected Deployment) := do
  let gathered ← runPool (ids.map fun id => Fetch.query (.deployments id window))
  pure (gathered.mapValues (·.flatten))

/-- Puts a number at its place among rising numbers, unless it is there. -/
def insertRising (number : Int) : List Int → List Int
  | [] => [number]
  | first :: rest =>
    if number < first then number :: first :: rest
    else if number = first then first :: rest
    else first :: insertRising number rest

/-- The numbers of a list, each once and rising. -/
def distinctRising (numbers : List Int) : List Int :=
  numbers.foldr insertRising []

/-- Fetches runners, each once. -/
def fetchRunners (ids : List Int) : Fetch (Collected Runner) :=
  runPool ((distinctRising ids).map fun id => Fetch.query (.runner id))

end CiTelemetry
