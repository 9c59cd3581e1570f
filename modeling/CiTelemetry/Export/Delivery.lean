/-
This file delivers records to the endpoints of a configuration.
-/

import CiTelemetry.Config.Basic
import CiTelemetry.Export.LineFile
import CiTelemetry.Export.WebSink

namespace CiTelemetry

namespace Endpoint

/-- Sends records of one kind to an endpoint. -/
def send (endpoint : Endpoint) (kind : EntityKind) (records : List Json) :
    Program (Outcome Unit) :=
  match endpoint with
  | http address => Program.ofExchange ((WebSink.ofAddress address).send kind records)
  | file path => LineFile.send path kind records

end Endpoint

end CiTelemetry
