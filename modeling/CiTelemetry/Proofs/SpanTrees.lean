/-
This file proves that the spans of a hierarchy form one tree. A span names its
parent by an id that is found in three ways: jobs, bridges and sections carry the
id of what they belong to, and for a pipeline the bridge is looked up that started
it. In a traceable hierarchy each of them comes to the span of the record that is
meant, and the way up from any span ends at the root pipeline.
-/

import CiTelemetry.Proofs.TraceableHierarchies
import CiTelemetry.Trace.Assembly

namespace CiTelemetry

open Dialogue

/-! ### Records and their spans -/

/-- A record that has a span, with the entry that holds it. -/
inductive TracedRecord where
  | pipeline (entry : HierarchyEntry)
  | job (entry : HierarchyEntry) (job : Job)
  | bridge (entry : HierarchyEntry) (bridge : Bridge)
  | part (entry : HierarchyEntry) (part : JobSection)

namespace TracedRecord

def kind : TracedRecord → SpanKind
  | pipeline _ => .pipeline
  | job _ _ => .job
  | bridge _ _ => .bridge
  | part _ _ => .part

/-- The span of a record in the trace of a hierarchy. -/
def span (hierarchy : PipelineHierarchy) : TracedRecord → Span
  | pipeline entry => TraceData.pipelineSpan (traceId hierarchy.root) entry.pipeline
      (TraceData.parentBridge? hierarchy entry.id)
  | job _ record => TraceData.jobSpan (traceId hierarchy.root) record
  | bridge _ record => TraceData.bridgeSpan (traceId hierarchy.root) hierarchy record
  | part _ record => TraceData.sectionSpan (traceId hierarchy.root) record

end TracedRecord

/-- The records of one kind that an entry holds. -/
def HierarchyEntry.records (entry : HierarchyEntry) : SpanKind → List TracedRecord
  | .pipeline => [.pipeline entry]
  | .job => entry.jobs.map (.job entry)
  | .bridge => entry.bridges.map (.bridge entry)
  | .part => entry.sections.map (.part entry)

/-- The spans that stand for one kind of record. -/
def TraceData.ofKind (trace : TraceData) : SpanKind → List Span
  | .pipeline => trace.pipelines
  | .job => trace.jobs
  | .bridge => trace.bridges
  | .part => trace.sections

namespace PipelineHierarchy

/-- All records of one kind. -/
def records (hierarchy : PipelineHierarchy) (kind : SpanKind) : List TracedRecord :=
  hierarchy.entries.flatMap (·.records kind)

/-- What the span of a record is meant to hang below: that of the pipeline for a job or a bridge,
that of the job for a section, and for a pipeline that of a bridge which started it, in the entry
below which it was attached. -/
inductive Below (hierarchy : PipelineHierarchy) : TracedRecord → TracedRecord → Prop
  | job (entry : HierarchyEntry) (job : Job) : Below hierarchy (.job entry job) (.pipeline entry)
  | bridge (entry : HierarchyEntry) (bridge : Bridge) :
    Below hierarchy (.bridge entry bridge) (.pipeline entry)
  | part {entry : HierarchyEntry} {part : JobSection} {job : Job} (inside : job ∈ entry.jobs)
      (same : part.jobId = job.id) : Below hierarchy (.part entry part) (.job entry job)
  | pipeline {entry parent : HierarchyEntry} {bridge : Bridge}
      (attached : hierarchy.parentOf? entry.id = some parent) (inside : bridge ∈ parent.bridges)
      (started : bridge.Started entry.id) :
    Below hierarchy (.pipeline entry) (.bridge parent bridge)

/-- The parent of a span: it stands for a record of the hierarchy, for the one that is meant, and
its id is the one that the span names. -/
structure IsParent (hierarchy : PipelineHierarchy) (record parent : TracedRecord) : Prop where
  present : parent ∈ hierarchy.records parent.kind
  below : hierarchy.Below record parent
  named : (record.span hierarchy).parentSpanId = some (parent.span hierarchy).spanId

/-- A record from whose span every way up over parents ends at the root pipeline. -/
inductive EndsAtRoot (hierarchy : PipelineHierarchy) : TracedRecord → Prop
  | root {entry : HierarchyEntry} (isRoot : entry.id = hierarchy.root) :
    EndsAtRoot hierarchy (.pipeline entry)
  | up {record parent : TracedRecord} (isParent : hierarchy.IsParent record parent)
      (all : ∀ other, hierarchy.IsParent record other → EndsAtRoot hierarchy other) :
    EndsAtRoot hierarchy record

/-- A record that stands for the root pipeline. -/
def IsRootRecord (hierarchy : PipelineHierarchy) (record : TracedRecord) : Prop :=
  ∃ entry, record = .pipeline entry ∧ entry.id = hierarchy.root

/-- The spans of a hierarchy form one tree. -/
structure IsSpanTree (hierarchy : PipelineHierarchy) : Prop where
  /-- Every record has its span, and there are no others. -/
  complete : ∀ kind, ((TraceData.ofHierarchy hierarchy).ofKind kind).Perm
    ((hierarchy.records kind).map (·.span hierarchy))
  sameTrace : ∀ span ∈ (TraceData.ofHierarchy hierarchy).spans,
    span.traceId = traceId hierarchy.root
  onlyRoot : ∀ kind, ∀ record ∈ hierarchy.records kind,
    (record.span hierarchy).parentSpanId = none ↔ hierarchy.IsRootRecord record
  parents : ∀ kind, ∀ record ∈ hierarchy.records kind, ¬hierarchy.IsRootRecord record →
    ∃ parent, hierarchy.IsParent record parent ∧
      parent.span hierarchy ∈ (TraceData.ofHierarchy hierarchy).spans
  unlinked : ∀ entry ∈ hierarchy.entries, entry.id ≠ hierarchy.root →
    ((TracedRecord.pipeline entry).span hierarchy).links = []
  ends : ∀ kind, ∀ record ∈ hierarchy.records kind, hierarchy.EndsAtRoot record
  /-- Where no two spans have the same id, parents are found by it. -/
  found : ((TraceData.ofHierarchy hierarchy).spans.map (·.spanId)).Nodup →
    ∀ record parent, hierarchy.IsParent record parent →
      ∀ span ∈ (TraceData.ofHierarchy hierarchy).spans,
        (record.span hierarchy).parentSpanId = some span.spanId → span = parent.span hierarchy

end PipelineHierarchy

/-! ### Spans of records -/

section Spans

variable {hierarchy : PipelineHierarchy} {kind : SpanKind} {record : TracedRecord}

theorem mem_spans_iff {trace : TraceData} {span : Span} :
    span ∈ trace.spans ↔ ∃ kind, span ∈ trace.ofKind kind := by
  simp only [TraceData.spans, List.mem_append]
  constructor
  · rintro (((inside | inside) | inside) | inside)
    · exact ⟨.pipeline, inside⟩
    · exact ⟨.job, inside⟩
    · exact ⟨.bridge, inside⟩
    · exact ⟨.part, inside⟩
  · rintro ⟨_ | _ | _ | _, inside⟩
    · exact .inl (.inl (.inl inside))
    · exact .inl (.inl (.inr inside))
    · exact .inl (.inr inside)
    · exact .inr inside

/-- The spans are those of the records of all entries, in the order of the walk. -/
theorem ofKind_ofHierarchy (hierarchy : PipelineHierarchy) (kind : SpanKind) :
    (TraceData.ofHierarchy hierarchy).ofKind kind =
      hierarchy.depthFirst.flatMap fun entry => (entry.records kind).map (·.span hierarchy) := by
  cases kind with
  | pipeline => exact List.map_eq_flatMap
  | job | bridge | part =>
    refine List.flatMap_congr fun entry _ => ?_
    rw [HierarchyEntry.records, List.map_map]
    rfl

/-- In a tree every record has its span. -/
theorem ofKind_perm (tree : hierarchy.IsTree) (kind : SpanKind) :
    ((TraceData.ofHierarchy hierarchy).ofKind kind).Perm
      ((hierarchy.records kind).map (·.span hierarchy)) := by
  rw [ofKind_ofHierarchy, PipelineHierarchy.records, List.map_flatMap]
  exact tree.depthFirst_perm.flatMap_right _

theorem traceId_span (hierarchy : PipelineHierarchy) (record : TracedRecord) :
    (record.span hierarchy).traceId = traceId hierarchy.root := by
  cases record <;> rfl

theorem mem_spans_of_records (tree : hierarchy.IsTree) (member : record ∈ hierarchy.records kind) :
    record.span hierarchy ∈ (TraceData.ofHierarchy hierarchy).spans :=
  mem_spans_iff.mpr ⟨kind, (ofKind_perm tree kind).mem_iff.mpr (List.mem_map_of_mem member)⟩

end Spans

/-! ### Parents -/

namespace PipelineHierarchy

section Parents

variable {hierarchy : PipelineHierarchy} {entry : HierarchyEntry}

theorem mem_records {kind : SpanKind} {record : TracedRecord} (member : entry ∈ hierarchy.entries)
    (inside : record ∈ entry.records kind) : record ∈ hierarchy.records kind :=
  List.mem_flatMap.mpr ⟨entry, member, inside⟩

/-- The span of a job hangs below that of its pipeline. -/
theorem isParent_job (member : entry ∈ hierarchy.entries) (consistent : entry.IsConsistent)
    {job : Job} (inside : job ∈ entry.jobs) :
    hierarchy.IsParent (.job entry job) (.pipeline entry) where
  present := mem_records member List.mem_cons_self
  below := .job entry job
  named := congrArg (fun id => some (recordSpanId .pipeline id)) (consistent.jobs job inside)

/-- The span of a bridge hangs below that of its pipeline. -/
theorem isParent_bridge (member : entry ∈ hierarchy.entries) (consistent : entry.IsConsistent)
    {bridge : Bridge} (inside : bridge ∈ entry.bridges) :
    hierarchy.IsParent (.bridge entry bridge) (.pipeline entry) where
  present := mem_records member List.mem_cons_self
  below := .bridge entry bridge
  named := congrArg (fun id => some (recordSpanId .pipeline id)) (consistent.bridges bridge inside)

/-- The span of a section hangs below that of a job of its entry. -/
theorem exists_isParent_part (member : entry ∈ hierarchy.entries)
    (consistent : entry.IsConsistent) {part : JobSection} (inside : part ∈ entry.sections) :
    ∃ job ∈ entry.jobs, hierarchy.IsParent (.part entry part) (.job entry job) := by
  obtain ⟨job, isJob, same⟩ := consistent.sections part inside
  exact ⟨job, isJob,
    { present := mem_records member (List.mem_map_of_mem isJob)
      below := .part isJob same
      named := congrArg (fun id => some (recordSpanId .job id)) same }⟩

/-- The bridge that is looked up for a pipeline is one of its parent that started it. -/
theorem exists_parentBridge? (traceable : hierarchy.IsTraceable)
    (member : entry ∈ hierarchy.entries) (other : entry.id ≠ hierarchy.root) :
    ∃ parent ∈ hierarchy.entries, ∃ bridge ∈ parent.bridges,
      hierarchy.parentOf? entry.id = some parent ∧ bridge.Started entry.id ∧
        TraceData.parentBridge? hierarchy entry.id = some bridge := by
  obtain ⟨parent, isThere, listed⟩ := traceable.tree.exists_listed member other
  have isParent := traceable.tree.parentOf?_of_listed isThere listed
  obtain ⟨some, isSome, reference, started, named⟩ :=
    (traceable.consistent parent isThere).started entry.id listed
  have found : (TraceData.triggeringBridge? parent entry.id).isSome = true := by
    refine List.find?_isSome.mpr ⟨some, isSome, ?_⟩
    rw [started]
    exact beq_iff_eq.mpr named
  obtain ⟨bridge, isFound⟩ := Option.isSome_iff_exists.mp found
  refine ⟨parent, isThere, bridge, List.mem_of_find?_eq_some isFound, isParent, ?_, ?_⟩
  · have isStarted := List.find?_some isFound
    obtain ⟨reference, has, same⟩ := (Option.any_eq_true ..).mp isStarted
    exact ⟨reference, has, beq_iff_eq.mp same⟩
  · rw [TraceData.parentBridge?, isParent, Option.bind_some, isFound]

/-- The span of a pipeline other than the root hangs below that of a bridge that started it. -/
theorem exists_isParent_pipeline (traceable : hierarchy.IsTraceable)
    (member : entry ∈ hierarchy.entries) (other : entry.id ≠ hierarchy.root) :
    ∃ parent ∈ hierarchy.entries, ∃ bridge ∈ parent.bridges,
      hierarchy.IsParent (.pipeline entry) (.bridge parent bridge) := by
  obtain ⟨parent, isThere, bridge, inside, attached, started, found⟩ :=
    exists_parentBridge? traceable member other
  refine ⟨parent, isThere, bridge, inside, ?_, .pipeline attached inside started, ?_⟩
  · exact mem_records isThere (List.mem_map_of_mem inside)
  · show (TraceData.parentBridge? hierarchy entry.id).map _ = _
    rw [found]
    rfl

theorem exists_isParent (traceable : hierarchy.IsTraceable) {kind : SpanKind}
    {record : TracedRecord} (member : record ∈ hierarchy.records kind)
    (other : ¬hierarchy.IsRootRecord record) : ∃ parent, hierarchy.IsParent record parent := by
  obtain ⟨entry, isThere, inside⟩ := List.mem_flatMap.mp member
  have consistent := traceable.consistent entry isThere
  cases kind with
  | pipeline =>
    cases List.mem_singleton.mp inside
    have notRoot : entry.id ≠ hierarchy.root := fun same => other ⟨entry, rfl, same⟩
    obtain ⟨parent, _, bridge, _, isParent⟩ := exists_isParent_pipeline traceable isThere notRoot
    exact ⟨_, isParent⟩
  | job =>
    obtain ⟨job, isJob, rfl⟩ := List.mem_map.mp inside
    exact ⟨_, isParent_job isThere consistent isJob⟩
  | bridge =>
    obtain ⟨bridge, isBridge, rfl⟩ := List.mem_map.mp inside
    exact ⟨_, isParent_bridge isThere consistent isBridge⟩
  | part =>
    obtain ⟨part, isPart, rfl⟩ := List.mem_map.mp inside
    obtain ⟨job, _, isParent⟩ := exists_isParent_part isThere consistent isPart
    exact ⟨_, isParent⟩

/-- The span of the root pipeline has no parent. -/
theorem parentSpanId_root (tree : hierarchy.IsTree) (isRoot : entry.id = hierarchy.root) :
    ((TracedRecord.pipeline entry).span hierarchy).parentSpanId = none := by
  show (TraceData.parentBridge? hierarchy entry.id).map _ = none
  rw [TraceData.parentBridge?, isRoot, tree.parentOf?_root]
  rfl

/-! ### The way up -/

/-- The way up from a pipeline passes through the entry that lists it. -/
theorem endsAtRoot_pipeline (traceable : hierarchy.IsTraceable)
    (member : entry ∈ hierarchy.entries) : hierarchy.EndsAtRoot (.pipeline entry) := by
  have all : ∀ id, hierarchy.Descends id → ∀ entry ∈ hierarchy.entries, entry.id = id →
      hierarchy.EndsAtRoot (.pipeline entry) := by
    intro id descends
    induction descends with
    | root => exact fun entry _ same => .root same
    | @link above id isThere _ listed inductionHypothesis =>
      rintro entry member rfl
      have aboveEnds := inductionHypothesis above isThere rfl
      have notRoot : entry.id ≠ hierarchy.root := fun same =>
        traceable.tree.root_not_listed isThere (same ▸ listed)
      obtain ⟨_, _, _, _, isParent⟩ := exists_isParent_pipeline traceable member notRoot
      refine .up isParent fun other isOther => ?_
      cases isOther.below with
      | @pipeline _ parent bridge attached inside started =>
        rw [traceable.tree.parentOf?_of_listed isThere listed] at attached
        cases attached
        refine .up (isParent_bridge isThere (traceable.consistent above isThere) inside) ?_
        intro top isTop
        cases isTop.below
        exact aboveEnds
  exact all entry.id (traceable.tree.connected entry member) entry member rfl

theorem endsAtRoot_job (traceable : hierarchy.IsTraceable) (member : entry ∈ hierarchy.entries)
    {job : Job} (inside : job ∈ entry.jobs) : hierarchy.EndsAtRoot (.job entry job) := by
  have consistent := traceable.consistent entry member
  refine .up (isParent_job member consistent inside) fun other isOther => ?_
  cases isOther.below
  exact endsAtRoot_pipeline traceable member

theorem endsAtRoot (traceable : hierarchy.IsTraceable) {kind : SpanKind} {record : TracedRecord}
    (member : record ∈ hierarchy.records kind) : hierarchy.EndsAtRoot record := by
  obtain ⟨entry, isThere, inside⟩ := List.mem_flatMap.mp member
  have consistent := traceable.consistent entry isThere
  cases kind with
  | pipeline =>
    cases List.mem_singleton.mp inside
    exact endsAtRoot_pipeline traceable isThere
  | job =>
    obtain ⟨job, isJob, rfl⟩ := List.mem_map.mp inside
    exact endsAtRoot_job traceable isThere isJob
  | bridge =>
    obtain ⟨bridge, isBridge, rfl⟩ := List.mem_map.mp inside
    refine .up (isParent_bridge isThere consistent isBridge) fun other isOther => ?_
    cases isOther.below
    exact endsAtRoot_pipeline traceable isThere
  | part =>
    obtain ⟨part, isPart, rfl⟩ := List.mem_map.mp inside
    obtain ⟨job, _, isParent⟩ := exists_isParent_part isThere consistent isPart
    refine .up isParent fun other isOther => ?_
    cases isOther.below with
    | part isJob _ => exact endsAtRoot_job traceable isThere isJob

/-! ### The tree of spans -/

theorem IsTraceable.isSpanTree (traceable : hierarchy.IsTraceable) : hierarchy.IsSpanTree where
  complete := ofKind_perm traceable.tree
  sameTrace span member := by
    obtain ⟨kind, inside⟩ := mem_spans_iff.mp member
    obtain ⟨record, _, rfl⟩ :=
      List.mem_map.mp ((ofKind_perm traceable.tree kind).mem_iff.mp inside)
    exact traceId_span hierarchy record
  onlyRoot kind record member := by
    constructor
    · intro none
      by_contra other
      obtain ⟨parent, isParent⟩ := exists_isParent traceable member other
      cases none.symm.trans isParent.named
    · rintro ⟨entry, rfl, isRoot⟩
      exact parentSpanId_root traceable.tree isRoot
  parents kind record member other := by
    obtain ⟨parent, isParent⟩ := exists_isParent traceable member other
    exact ⟨parent, isParent, mem_spans_of_records traceable.tree isParent.present⟩
  unlinked entry member other := by
    obtain ⟨_, _, bridge, _, _, _, found⟩ := exists_parentBridge? traceable member other
    rw [TracedRecord.span, TraceData.pipelineSpan, found]
    rfl
  ends _ _ member := endsAtRoot traceable member
  found distinct record parent isParent span inside named := by
    have present := mem_spans_of_records traceable.tree isParent.present
    exact List.inj_on_of_nodup_map distinct inside present
      (Option.some.inj (named.symm.trans isParent.named))

end Parents

end PipelineHierarchy

/-- The spans of a fetched hierarchy form one tree. Take any hierarchy that the fetch for a pipeline
returned, where references were answered with the pipelines that they name, and attach logs to it
and to any other hierarchies, those for its pipelines being of its own jobs. Then the spans are
those of its records, each once and all in the trace of the root; only the span of the root pipeline
has no parent, the parent of every other one is the span that is meant and is there, and the way up
from any span ends at the root. -/
theorem fetched_spans_tree {allowance place : Nat} {projectId : Int} {path : String}
    {node : PipelineNode} {turns : Turns} {hierarchy : PipelineHierarchy}
    {failures : List SyncError} {hierarchies : List PipelineHierarchy} {logs : List JobLog}
    (held : Held (fetchHierarchy allowance projectId path node).run turns
      (some (.ok (some hierarchy, failures))))
    (named : AnsweredByName turns hierarchy) (placed : hierarchies[place]? = some hierarchy)
    (own : ∀ log ∈ logs, hierarchy.contains log.pipelineId = true →
      ∃ entry ∈ hierarchy.entries, entry.IsOwnLog log) :
    ∃ final, (attachJobLogs logs hierarchies)[place]? = some final ∧
      GlobalId.parse node.id = .ok final.root ∧ final.IsSpanTree := by
  obtain ⟨traceable, isRoot⟩ := isTraceable_of_fetchHierarchy held named
  obtain ⟨left, some, attached⟩ := exists_attachJobLogs logs placed
  refine ⟨_, attached, isRoot, ?_⟩
  exact (traceable.attachToEntries fun log member known =>
    own log (some log member) known).isSpanTree

/-! ### Two pipelines -/

namespace TwoPipelines

open PipelineCoverage

/-- A build job of the second pipeline. -/
def buildNode : JobNode :=
  { (default : JobNode) with id := some "gid://gitlab/Ci::Build/31", kind := some "BUILD" }

def secondNode : PipelineNode :=
  pipelineNode "gid://gitlab/Ci::Pipeline/200" "2" none [buildNode]

/-- A server that finds the second pipeline. -/
def reply (op : Action) (_ : Unit) : op.Reply × Unit :=
  match op with
  | .query (.pipeline ..) => (.ok (some secondNode), ())
  | .query _ => (.error .noData, ())
  | .isCancelled => (false, ())
  | .send .. => (.ok (), ())
  | .now => (default, ())
  | .waitUntil _ => ((), ())

/-- The fetch of the first pipeline, whose bridge started the second one. -/
def fetching : Fetch (Option PipelineHierarchy × List SyncError) :=
  fetchHierarchy 2 1 "g/app" (startingNode none)

def secondEntry : HierarchyEntry :=
  .ofJobs
    { (default : Pipeline) with id := 200, iid := "2", projectId := 1, projectPath := "g/app" }
    [⟨buildNode, []⟩]

def fetched : PipelineHierarchy :=
  ⟨100, [{ startingEntry with downstream := [200] }, secondEntry]⟩

theorem held_fetching :
    Held fetching.run (fetching.run.transcript reply ()) (some (.ok (some fetched, []))) :=
  held_transcript reply fetching.run ()

theorem fetched_named : AnsweredByName (fetching.run.transcript reply ()) fetched := by
  have references : ∀ entry ∈ fetched.entries, ∀ pending ∈ entry.pending,
      pending.reference.id = 200 := by decide +kernel
  intro entry member pending isPending node id answered parsed
  have answer : Except.ok (some node) = (.ok (some secondNode) : Outcome (Option PipelineNode)) :=
    reply_of_mem_transcript answered
  cases answer
  cases parsed
  exact (references entry member pending isPending).symm

/-- The log of the build job, with one section. -/
def sectionLog : JobLog :=
  .ofLog (secondEntry.jobs.headD default) (Utf8.encode "section_start:10:compile\r\n")

/-- Two pipelines, a bridge, a job and a section have five spans, which form one tree. -/
theorem fetched_five_spans :
    ∃ final, (attachJobLogs [sectionLog] [fetched])[0]? = some final ∧ final.IsSpanTree ∧
      ∀ kind, ((TraceData.ofHierarchy final).ofKind kind).length =
        if kind = .pipeline then 2 else 1 := by
  have own : ∀ log ∈ [sectionLog], fetched.contains log.pipelineId = true →
      ∃ entry ∈ fetched.entries, entry.IsOwnLog log := by
    intro log member _
    rw [List.mem_singleton.mp member]
    exact ⟨secondEntry, List.mem_cons_of_mem _ List.mem_cons_self, _, by decide +kernel, _, rfl⟩
  have placed : [fetched][0]? = some fetched := rfl
  obtain ⟨final, attached, _, tree⟩ :=
    fetched_spans_tree held_fetching fetched_named placed own
  refine ⟨final, attached, tree, fun kind => ?_⟩
  cases attached
  refine (tree.complete kind).length_eq.trans ?_
  cases kind <;> decide +kernel

end TwoPipelines

end CiTelemetry
