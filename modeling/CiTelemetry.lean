import CiTelemetry.Main
import CiTelemetry.Outside.Closed
import CiTelemetry.Proofs.CatchUpCoverage
import CiTelemetry.Proofs.CutIndependence
import CiTelemetry.Proofs.FailureReport
import CiTelemetry.Proofs.MetricRoundTrip
import CiTelemetry.Proofs.SectionNesting
import CiTelemetry.Sync.FanIn
import CiTelemetry.Proofs.TaskOutcomes
import CiTelemetry.Proofs.CallOrder
import CiTelemetry.Proofs.WalkTermination
import CiTelemetry.Proofs.SharedPipelines
import CiTelemetry.Proofs.FailureGroupings
import CiTelemetry.Proofs.Cancellation
import CiTelemetry.Proofs.HierarchyTrees
import CiTelemetry.Proofs.SpanTrees
import CiTelemetry.Proofs.MergedPasses
import CiTelemetry.Proofs.Resolutions
import CiTelemetry.Proofs.WantedBatches
import CiTelemetry.Proofs.LogLines
import CiTelemetry.Proofs.LineIndependence
import CiTelemetry.Proofs.SectionMarkers
import CiTelemetry.Proofs.LiveWindows
import CiTelemetry.Proofs.CallLimit
import CiTelemetry.Proofs.MetricStability
import CiTelemetry.Proofs.CutLogs
import CiTelemetry.Proofs.AttachedPipelines
import CiTelemetry.Proofs.ReachablePipelines
import CiTelemetry.Proofs.DepthFirstSearch
import CiTelemetry.Proofs.WindowTiling
import CiTelemetry.Proofs.ResumedWalks
import CiTelemetry.Proofs.PageCircles
import CiTelemetry.Proofs.SpanIds
import CiTelemetry.Proofs.RegistryRule
import CiTelemetry.Proofs.RequestRetries
import CiTelemetry.Proofs.AcceptedLimits
import CiTelemetry.Proofs.LaminarSections
import CiTelemetry.Proofs.BackfilledSections
import CiTelemetry.Proofs.AttachedLogs
import CiTelemetry.Proofs.RetryPauses
import CiTelemetry.Export.SharedFile
import CiTelemetry.Proofs.GlobalIds
import CiTelemetry.Proofs.KeyedMerges
import CiTelemetry.Proofs.MarkerScan
import CiTelemetry.Proofs.JsonNumbers
import CiTelemetry.Proofs.JsonRoundTrip
import CiTelemetry.Proofs.FileLines
import CiTelemetry.Proofs.SharedFiles
