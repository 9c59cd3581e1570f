/-
This file holds pipeline hierarchies: a root pipeline and the pipelines that its
bridges started, directly or through others. The entries lie side by side and
refer to one another by id only, so a circle of references can be stored but
cannot hold up the walk over them.
-/

import CiTelemetry.Record.Job

namespace CiTelemetry

/-- A pipeline with everything fetched for it. -/
structure HierarchyEntry where
  pipeline : Pipeline
  jobs : List Job
  bridges : List Bridge
  sections : List JobSection
  metrics : List JobMetric
  /-- The ids of the pipelines started by the bridges of this one. -/
  downstream : List Int
  deriving DecidableEq, Repr, Inhabited

/-- The entry of a pipeline for which nothing else was fetched. -/
def HierarchyEntry.ofPipeline (pipeline : Pipeline) : HierarchyEntry :=
  ⟨pipeline, [], [], [], [], []⟩

def HierarchyEntry.id (entry : HierarchyEntry) : Int :=
  entry.pipeline.id

/-- A root pipeline and the entries by id, in the order in which they were
added. -/
structure PipelineHierarchy where
  root : Int
  entries : List HierarchyEntry
  deriving DecidableEq, Repr, Inhabited

namespace PipelineHierarchy

/-- The hierarchy that holds its root only. -/
def ofRoot (root : HierarchyEntry) : PipelineHierarchy :=
  ⟨root.id, [root]⟩

/-! ### Looking up -/

def get? (hierarchy : PipelineHierarchy) (id : Int) : Option HierarchyEntry :=
  hierarchy.entries.find? (·.id == id)

def contains (hierarchy : PipelineHierarchy) (id : Int) : Bool :=
  hierarchy.entries.any (·.id == id)

def size (hierarchy : PipelineHierarchy) : Nat :=
  hierarchy.entries.length

/-- The record of the root pipeline. -/
def rootPipeline (hierarchy : PipelineHierarchy) : Pipeline :=
  match hierarchy.get? hierarchy.root with
  | some entry => entry.pipeline
  | none => default

/-- The first entry that lists a pipeline as started by its bridges. -/
def parentOf? (hierarchy : PipelineHierarchy) (id : Int) : Option HierarchyEntry :=
  hierarchy.entries.find? (·.downstream.contains id)

/-! ### Growing -/

/-- Changes the entry of a pipeline. -/
def modify (hierarchy : PipelineHierarchy) (id : Int) (change : HierarchyEntry → HierarchyEntry) :
    PipelineHierarchy :=
  { hierarchy with
    entries := hierarchy.entries.map fun entry => if entry.id == id then change entry else entry }

/-- Notes that a pipeline was started from an entry. -/
def link (hierarchy : PipelineHierarchy) (parent child : Int) : PipelineHierarchy :=
  hierarchy.modify parent fun entry => { entry with downstream := entry.downstream ++ [child] }

/-- Whether an entry can be attached below a parent: the parent is known, and
the entry is not yet part of the hierarchy. -/
def accepts (hierarchy : PipelineHierarchy) (parent : Int) (child : HierarchyEntry) : Bool :=
  hierarchy.contains parent && !hierarchy.contains child.id

/-- Attaches an entry below a parent. An entry that cannot be attached leaves
the hierarchy as it is. -/
def attach (hierarchy : PipelineHierarchy) (parent : Int) (child : HierarchyEntry) :
    PipelineHierarchy :=
  if hierarchy.accepts parent child then
    let linked := hierarchy.link parent child.id
    { linked with entries := linked.entries ++ [child] }
  else hierarchy

/-! ### The walk -/

/-- The entries other than that of a pipeline. -/
def without (entries : List HierarchyEntry) (id : Int) : List HierarchyEntry :=
  entries.filter (·.id != id)

theorem without_length {entries : List HierarchyEntry} {id : Int} {entry : HierarchyEntry}
    (found : entries.find? (·.id == id) = some entry) :
    (without entries id).length < entries.length := by
  have member := List.mem_of_find?_eq_some found
  have same := List.find?_some found
  refine List.length_filter_lt_length_iff_exists.mpr ⟨entry, member, ?_⟩
  simpa using same

/-- The entries reached from a stack of ids. Each entry found is taken out of
those that remain, so no entry is visited twice; an id that is not among them is
passed over. -/
def walk (remaining : List HierarchyEntry) (stack : List Int) : List HierarchyEntry :=
  match stack with
  | [] => []
  | id :: rest =>
    match _found : remaining.find? (·.id == id) with
    | none => walk remaining rest
    | some entry =>
      entry :: walk (without remaining id) (entry.downstream ++ rest)
termination_by (remaining.length, stack.length)
decreasing_by
  · exact Prod.Lex.right _ (Nat.lt_succ_self _)
  · exact Prod.Lex.left _ _ (without_length _found)

/-- The entries from the root on, each before those that it started and those in
the order in which it lists them. -/
def depthFirst (hierarchy : PipelineHierarchy) : List HierarchyEntry :=
  walk hierarchy.entries [hierarchy.root]

end PipelineHierarchy

/-! ### Writing -/

def HierarchyEntry.encode (entry : HierarchyEntry) : Json :=
  .obj
    [("pipeline", entry.pipeline.encode),
      ("jobs", .ofList Job.encode entry.jobs),
      ("bridges", .ofList Bridge.encode entry.bridges),
      ("sections", .ofList JobSection.encode entry.sections),
      ("metrics", .ofList JobMetric.encode entry.metrics),
      ("downstream", .ofList .int entry.downstream)]

end CiTelemetry
