/-
This file writes what was read from a log as JSON.
-/

import CiTelemetry.Json.Basic
import CiTelemetry.Log.Scan

namespace CiTelemetry

def Section.encode (part : Section) : Json :=
  .obj
    [("name", .str part.name), ("start", .int part.start), ("end", .ofOption .int part.finish)]

def Metric.encode (metric : Metric) : Json :=
  .obj
    [("name", .str metric.name),
      ("labels", .obj (metric.labels.map fun (name, value) => (name, .str value))),
      ("value", .ofNumber metric.value),
      ("timestamp", .ofOption .int metric.timestamp)]

def LineError.encode (refused : LineError) : Json :=
  .obj [("line", .ofNat refused.line), ("kind", .str refused.fault.message)]

def ParsedLog.encode (parsed : ParsedLog) : Json :=
  .obj
    [("sections", .ofList Section.encode parsed.sections),
      ("metrics", .ofList Metric.encode parsed.metrics),
      ("errors", .ofList LineError.encode parsed.errors)]

end CiTelemetry
