/-
This file assembles the spans of a pipeline hierarchy: one for each pipeline,
job, bridge and section. Inside the hierarchy a pipeline hangs below the bridge
that started it; what leads out of the hierarchy is kept as a link.
-/

import CiTelemetry.Trace.Span

namespace CiTelemetry

/-- The spans of one hierarchy, by what they stand for. -/
structure TraceData where
  pipelines : List Span
  jobs : List Span
  bridges : List Span
  sections : List Span
  deriving Repr, Inhabited

namespace TraceData

/-! ### Attributes -/

/-- An attribute that is left out when its value is missing. -/
def attribute? {α : Type} (name : String) (encode : α → Json) (value : Option α) :
    List (String × Json) :=
  match value with
  | some value => [(name, encode value)]
  | none => []

/-! ### One span for each record -/

/-- The first bridge of an entry that started a pipeline. -/
def triggeringBridge? (parent : HierarchyEntry) (pipelineId : Int) : Option Bridge :=
  parent.bridges.find? fun bridge => bridge.downstream.any (·.id == pipelineId)

/-- The bridge, inside the hierarchy, that started a pipeline. -/
def parentBridge? (hierarchy : PipelineHierarchy) (pipelineId : Int) : Option Bridge :=
  (hierarchy.parentOf? pipelineId).bind fun parent => triggeringBridge? parent pipelineId

/-- The link to the pipeline that a pipeline was started from. -/
def triggerLinks (pipeline : Pipeline) : List SpanLink :=
  match pipeline.triggeredBy with
  | some trigger => [⟨traceId trigger.id, recordSpanId .pipeline trigger.id⟩]
  | none => []

def pipelineSpan (trace : String) (pipeline : Pipeline) (parent : Option Bridge) : Span :=
  { traceId := trace
    spanId := recordSpanId .pipeline pipeline.id
    parentSpanId := parent.map fun bridge => recordSpanId .bridge bridge.id
    kind := .pipeline
    name := "pipeline " ++ pipeline.iid
    start := pipeline.startedAt.or pipeline.createdAt
    finish := pipeline.finishedAt
    attributes :=
      [("project.id", .int pipeline.projectId), ("project.path", .str pipeline.projectPath),
        ("pipeline.iid", .str pipeline.iid), ("pipeline.status", .str pipeline.status)] ++
      attribute? "pipeline.source" .str pipeline.source ++
      attribute? "pipeline.ref" .str pipeline.branch
    links := if parent.isNone then triggerLinks pipeline else [] }

def jobSpan (trace : String) (job : Job) : Span :=
  { traceId := trace
    spanId := recordSpanId .job job.id
    parentSpanId := some (recordSpanId .pipeline job.pipelineId)
    kind := .job
    name := job.name
    start := job.startedAt
    finish := job.finishedAt
    attributes :=
      [("job.status", .str job.status)] ++
      attribute? "job.stage" .str job.stage ++
      attribute? "runner.id" .int job.runnerId ++
      (if job.allowFailure then [("job.allow_failure", .bool true)] else [])
    links := [] }

/-- The link to a pipeline that a bridge started; one inside the hierarchy
belongs to the same trace. -/
def downstreamLink (trace : String) (hierarchy : PipelineHierarchy) (started : PipelineRef) :
    SpanLink :=
  ⟨if hierarchy.contains started.id then trace else traceId started.id,
    recordSpanId .pipeline started.id⟩

def bridgeSpan (trace : String) (hierarchy : PipelineHierarchy) (bridge : Bridge) : Span :=
  { traceId := trace
    spanId := recordSpanId .bridge bridge.id
    parentSpanId := some (recordSpanId .pipeline bridge.pipelineId)
    kind := .bridge
    name := bridge.name
    start := bridge.startedAt.or bridge.createdAt
    finish := bridge.finishedAt
    attributes :=
      [("bridge.status", .str bridge.status)] ++ attribute? "bridge.stage" .str bridge.stage
    links := bridge.downstream.toList.map (downstreamLink trace hierarchy) }

def sectionSpan (trace : String) (part : JobSection) : Span :=
  { traceId := trace
    spanId := sectionSpanId part.jobId part.index
    parentSpanId := some (recordSpanId .job part.jobId)
    kind := .part
    name := part.name
    start := Instant.ofSeconds? part.start
    finish := part.finish.bind Instant.ofSeconds?
    attributes := []
    links := [] }

/-! ### The spans of a hierarchy -/

/-- The spans of all entries, depth first. -/
def ofHierarchy (hierarchy : PipelineHierarchy) : TraceData :=
  let trace := traceId hierarchy.root
  let entries := hierarchy.depthFirst
  { pipelines := entries.map fun entry =>
      pipelineSpan trace entry.pipeline (parentBridge? hierarchy entry.id)
    jobs := entries.flatMap fun entry => entry.jobs.map (jobSpan trace)
    bridges := entries.flatMap fun entry => entry.bridges.map (bridgeSpan trace hierarchy)
    sections := entries.flatMap fun entry => entry.sections.map (sectionSpan trace) }

/-- All spans, those of pipelines first. -/
def spans (trace : TraceData) : List Span :=
  trace.pipelines ++ trace.jobs ++ trace.bridges ++ trace.sections

def size (trace : TraceData) : Nat :=
  trace.spans.length

def isEmpty (trace : TraceData) : Bool :=
  trace.size == 0

def encode (trace : TraceData) : Json :=
  .obj
    [("pipelines", .ofList Span.encode trace.pipelines),
      ("jobs", .ofList Span.encode trace.jobs),
      ("bridges", .ofList Span.encode trace.bridges),
      ("sections", .ofList Span.encode trace.sections)]

end TraceData

end CiTelemetry
