/-
This file holds the spans that a pipeline hierarchy turns into. Their ids are
computed from the ids of what they stand for, so the same hierarchy always
gives the same spans.
-/

import CiTelemetry.Hierarchy
import CiTelemetry.Text.Bytes

namespace CiTelemetry

/-- What a span stands for. -/
inductive SpanKind where
  | pipeline
  | job
  | bridge
  | part
  deriving DecidableEq, Repr, Inhabited

namespace SpanKind

def name : SpanKind → String
  | pipeline => "pipeline"
  | job => "job"
  | bridge => "bridge"
  | part => "section"

/-- The top byte of the ids of such spans. -/
def tag : SpanKind → UInt64
  | pipeline => 1
  | job => 2
  | bridge => 3
  | part => 4

end SpanKind

/-! ### Ids -/

/-- The bits of a span id below its tag. -/
def spanIdMask : UInt64 := 0x00FFFFFFFFFFFFFF

/-- The word of a span: its tag in the top byte and an id below. -/
def spanWord (kind : SpanKind) (id : UInt64) : UInt64 :=
  (kind.tag <<< 56) ||| (id &&& spanIdMask)

def spanId (kind : SpanKind) (id : UInt64) : String :=
  hexDigits 16 (spanWord kind id).toNat

/-- The id of the span of a pipeline, a job or a bridge. -/
def recordSpanId (kind : SpanKind) (id : Int) : String :=
  spanId kind (UInt64.ofInt id)

/-- The id of the span of a section: the job above the index of the section. -/
def sectionSpanId (jobId : Int) (index : Nat) : String :=
  spanId .part ((UInt64.ofInt jobId <<< 16) ||| (UInt64.ofNat index &&& 0xFFFF))

/-- The id of a trace is that of its root pipeline. -/
def traceId (rootPipelineId : Int) : String :=
  hexDigits 32 (UInt64.ofInt rootPipelineId).toNat

/-! ### Spans -/

/-- A reference to a span, which may belong to another trace. -/
structure SpanLink where
  traceId : String
  spanId : String
  deriving DecidableEq, Repr, Inhabited

def SpanLink.encode (link : SpanLink) : Json :=
  .obj [("trace_id", .str link.traceId), ("span_id", .str link.spanId)]

structure Span where
  traceId : String
  spanId : String
  parentSpanId : Option String
  kind : SpanKind
  name : String
  start : Option Instant
  finish : Option Instant
  attributes : List (String × Json)
  links : List SpanLink
  deriving Repr, Inhabited

def Span.encode (span : Span) : Json :=
  .obj
    [("trace_id", .str span.traceId),
      ("span_id", .str span.spanId),
      ("parent_span_id", .ofOption .str span.parentSpanId),
      ("kind", .str span.kind.name),
      ("name", .str span.name),
      ("start", .ofOption .ofInstant span.start),
      ("end", .ofOption .ofInstant span.finish),
      ("attributes", .obj span.attributes),
      ("links", .ofList SpanLink.encode span.links)]

end CiTelemetry
