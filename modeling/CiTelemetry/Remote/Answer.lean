/-
This file answers the questions of a synchronization by asking the server.
-/

import CiTelemetry.Remote.Graph
import CiTelemetry.Remote.Paths

namespace CiTelemetry

open Http

/-- Answers a question; lists take at most as many pages as allowed. -/
def Client.answer (client : Client) (allowance : Nat) : (asked : Query) → Exchange asked.Answer
  | .namespaceKind owner => client.namespaceKind owner
  | .namespaceProjects owner kind includeSubgroups withShared =>
    client.namespaceProjects allowance owner kind includeSubgroups withShared
  | .project name => client.project name
  | .projectChanges ids window cursor => client.projectChanges ids window cursor
  | .projectsPipelines ids window cursor => client.projectsPipelines ids window cursor
  | .projectPipelines path window cursor => client.projectPipelines path window cursor
  | .pipeline path iid => client.pipeline path iid
  | .pipelineJobs path iid cursor => client.pipelineJobs path iid cursor
  | .jobArtifacts path job cursor => client.jobArtifacts path job cursor
  | .mergeRequests ids window pass cursor => client.mergeRequests ids window pass cursor
  | .projectMergeRequests path window pass cursor =>
    client.projectMergeRequests path window pass cursor
  | .jobLog projectId jobId => client.jobLog projectId jobId
  | .testReport projectId pipelineId => client.testReport projectId pipelineId
  | .deployments projectId window => client.deployments allowance projectId window
  | .runner id => client.runner id
  | .readiness => client.readiness

end CiTelemetry
