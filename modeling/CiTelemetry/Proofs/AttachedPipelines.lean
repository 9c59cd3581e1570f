/-
This file proves which bridge a pipeline of a hierarchy was attached for. The
look-up of a reference brings the pipeline that it was answered with, and this
one is attached below the pipeline of the reference, whatever id it has. So each
entry was brought by a bridge of a pipeline with the id of its parent, and this
bridge is one of the parent and names the entry where references are answered
with the pipelines that they name.
-/

import CiTelemetry.Proofs.TraceableHierarchies
import CiTelemetry.Proofs.WalkTermination

namespace CiTelemetry

open Dialogue

/-! ### What a reference brought -/

/-- A pipeline that a look-up of a reference was answered with. -/
def AnsweredWith (turns : Turns) (reference : PipelineRef) (id : Int) : Prop :=
  ∃ node, (⟨.query (.pipeline reference.projectPath reference.iid), .ok (some node)⟩ :
    Turn Action Action.Reply) ∈ turns ∧ GlobalId.parse node.id = .ok id

/-- An entry that a reference brought: a bridge of another entry has the reference, a look-up of it
was answered with the pipeline of the entry, and the entry is of the project of the reference, or of
that of the bridge where the reference names none. -/
structure BroughtBy (turns : Turns) (above entry : HierarchyEntry) (reference : PipelineRef) :
    Prop where
  named : ∃ bridge ∈ above.bridges, bridge.downstream = some reference
  answered : AnsweredWith turns reference entry.id
  path : entry.pipeline.projectPath = reference.projectPath
  project : entry.pipeline.projectId = reference.projectId.getD above.pipeline.projectId

/-- The entries that were completed in a fetch: that of the root, and those that look-ups of
references of completed entries brought. -/
inductive Loaded (turns : Turns) (allowance : Nat) (projectId : Int) (path : String)
    (node : PipelineNode) : HierarchyEntry → Prop
  | root {part : Turns} {entry : HierarchyEntry} (within : part <:+: turns)
      (held : Held (fetchEntry allowance projectId path node).run part (some (.ok (some entry)))) :
      Loaded turns allowance projectId path node entry
  | brought {part : Turns} {above entry : HierarchyEntry} {pending : PendingPipeline}
      (loaded : Loaded turns allowance projectId path node above)
      (started : pending ∈ above.pending) (within : part <:+: turns)
      (held : Held (fetchPending allowance pending).run part (some (.ok (some entry)))) :
      Loaded turns allowance projectId path node entry

variable {turns part : Turns} {allowance : Nat} {above entry child : HierarchyEntry}
  {pending : PendingPipeline}

/-- A reference that is to be looked up is one of a bridge. -/
theorem exists_bridge_of_mem_pending (started : pending ∈ above.pending) :
    (∃ bridge ∈ above.bridges, bridge.downstream = some pending.reference) ∧
      pending.parent = above.id ∧ pending.parentProject = above.pipeline.projectId := by
  obtain ⟨bridge, inside, started⟩ := List.mem_filterMap.mp started
  obtain ⟨reference, named, rfl⟩ := Option.map_eq_some_iff.mp started
  exact ⟨⟨bridge, inside, named⟩, rfl, rfl⟩

theorem broughtBy_of_fetchPending (started : pending ∈ above.pending) (within : part <:+: turns)
    (held : Held (fetchPending allowance pending).run part (some (.ok (some child)))) :
    BroughtBy turns above child pending.reference := by
  obtain ⟨node, pipeline, jobs, answered, converts, rfl⟩ := exists_of_fetchPending held
  obtain ⟨parsed, path⟩ := toPipeline_eq_ok converts
  obtain ⟨named, _, project⟩ := exists_bridge_of_mem_pending started
  refine ⟨named, ⟨node, within.subset answered, parsed⟩, path, ?_⟩
  rw [← project]
  exact projectId_of_toPipeline converts

/-- Links have no part in what a reference brought. -/
theorem BroughtBy.of_bare {above' entry' : HierarchyEntry} {reference : PipelineRef}
    (brought : BroughtBy turns above entry reference) (sameAbove : above'.bare = above.bare)
    (same : entry'.bare = entry.bare) : BroughtBy turns above' entry' reference := by
  have pipeline : entry'.pipeline = entry.pipeline := congrArg (·.pipeline) same
  have id : entry'.id = entry.id := congrArg Pipeline.id pipeline
  have bridges : above'.bridges = above.bridges := congrArg (·.bridges) sameAbove
  have project : above'.pipeline = above.pipeline := congrArg (·.pipeline) sameAbove
  constructor
  · rw [bridges]
    exact brought.named
  · rw [id]
    exact brought.answered
  · rw [pipeline]
    exact brought.path
  · rw [pipeline, project]
    exact brought.project

/-- A reference that is answered by name names what it brought. -/
theorem BroughtBy.id_eq {hierarchy : PipelineHierarchy} {reference : PipelineRef}
    (brought : BroughtBy turns above entry reference) (named : AnsweredByName turns hierarchy)
    (member : above ∈ hierarchy.entries) : entry.id = reference.id := by
  obtain ⟨bridge, inside, started⟩ := brought.named
  obtain ⟨node, answered, parsed⟩ := brought.answered
  have isPending : ⟨above.id, above.pipeline.projectId, reference⟩ ∈ above.pending :=
    List.mem_filterMap.mpr ⟨bridge, inside, by rw [started]; rfl⟩
  exact named above member _ isPending node entry.id answered parsed

/-! ### What was attached -/

/-- A walk whose references are those of sources, and whose links stand for entries that a source
with the id of the parent brought. -/
structure Sourced (source : HierarchyEntry → Prop) (turns : Turns) (hierarchy : PipelineHierarchy)
    (pending : List PendingPipeline) : Prop where
  tree : hierarchy.IsTree
  origins : ∀ next ∈ pending, ∃ above, source above ∧ next ∈ above.pending ∧
    hierarchy.contains above.id = true
  links : ∀ parent ∈ hierarchy.entries, ∀ id ∈ parent.downstream, ∃ entry ∈ hierarchy.entries,
    entry.id = id ∧ ∃ above reference, source above ∧ above.id = parent.id ∧
      BroughtBy turns above entry reference

section Walk

variable {source : HierarchyEntry → Prop} {hierarchy final : PipelineHierarchy}
  {next : PendingPipeline} {rest : List PendingPipeline} {errors failures : List SyncError}

/-- A root that lists nothing stands at the beginning of a walk. -/
theorem Sourced.start (isSource : source entry) (bare : entry.downstream = []) :
    Sourced source turns (.ofRoot entry) entry.pending where
  tree := .ofRoot bare
  origins next started := ⟨entry, isSource, started,
    PipelineHierarchy.contains_of_mem List.mem_cons_self⟩
  links parent member id listed := by
    rw [List.mem_singleton.mp member, bare] at listed
    cases listed

theorem Sourced.drop (sourced : Sourced source turns hierarchy (next :: rest)) :
    Sourced source turns hierarchy rest :=
  ⟨sourced.tree, fun pending member => sourced.origins pending (List.mem_cons_of_mem _ member),
    sourced.links⟩

/-- What is attached is an entry that the reference brought. -/
theorem Sourced.attach (sourced : Sourced source turns hierarchy (next :: rest))
    (within : part <:+: turns)
    (held : Held (fetchPending allowance next).run part (some (.ok (some child))))
    (isSource : source child) :
    Sourced source turns (hierarchy.attach next.parent child) (rest ++ child.pending) := by
  obtain ⟨above, fromSource, started, isKnown⟩ := sourced.origins next List.mem_cons_self
  have brought := broughtBy_of_fetchPending started within held
  have parent := HierarchyEntry.parent_of_mem_pending started
  have bare : child.downstream = [] := by
    obtain ⟨_, _, _, _, _, rfl⟩ := exists_of_fetchPending held
    rfl
  refine ⟨sourced.tree.attach next.parent bare, fun pending member => ?_, ?_⟩
  · rcases List.mem_append.mp member with later | own
    · obtain ⟨above, fromSource, started, isKnown⟩ :=
        sourced.origins pending (List.mem_cons_of_mem _ later)
      exact ⟨above, fromSource, started, PipelineHierarchy.contains_attach_of_contains isKnown⟩
    · -- Also a child that is refused is known, since its parent is.
      rw [← parent] at isKnown
      exact ⟨child, isSource, own, PipelineHierarchy.contains_attach_self child isKnown⟩
  · intro later member id listed
    have kept : ∀ former ∈ hierarchy.entries, ∀ id ∈ former.downstream,
        ∃ entry ∈ (hierarchy.attach next.parent child).entries, entry.id = id ∧
          ∃ above reference, source above ∧ above.id = former.id ∧
            BroughtBy turns above entry reference := by
      intro former inside id listed
      obtain ⟨entry, isEntry, rfl, above, reference, fromSource, same, brought⟩ :=
        sourced.links former inside id listed
      obtain ⟨later, isLater, sameBare⟩ :=
        (PipelineHierarchy.keeps_attach hierarchy next.parent child).2 entry isEntry
      exact ⟨later, isLater, (HierarchyEntry.same_of_bare sameBare).1, above, reference,
        fromSource, same, brought.of_bare rfl sameBare⟩
    cases accepted : hierarchy.accepts next.parent child with
    | false =>
      rw [PipelineHierarchy.attach_of_not_accepts accepted] at member
      exact kept later member id listed
    | true =>
      rw [PipelineHierarchy.attach_of_accepts accepted, List.mem_append, List.mem_singleton] at member
      rcases member with linked | rfl
      · obtain ⟨former, inside, rfl⟩ := List.mem_map.mp linked
        by_cases isParent : (former.id == next.parent) = true
        · rw [if_pos isParent] at listed ⊢
          rcases List.mem_append.mp listed with earlier | attached
          · exact kept former inside id earlier
          · exact ⟨child, PipelineHierarchy.mem_attach_of_accepts accepted,
              (List.mem_singleton.mp attached).symm, above, next.reference, fromSource,
              parent.symm.trans (beq_iff_eq.mp isParent).symm, brought⟩
        · rw [if_neg isParent] at listed ⊢
          exact kept former inside id listed
      · rw [bare] at listed
        cases listed

/-- A walk over bridges keeps what it attaches sourced where what is attached and kept is a
source. -/
theorem sourced_of_followBridges {steps : Nat} {pending : List PendingPipeline} {walking : Turns}
    (inside : walking <:+: turns)
    (held : Held (followBridges steps allowance hierarchy errors pending).run walking
      (some (.ok (final, failures))))
    (closed : ∀ above next child part, source above → next ∈ above.pending → part <:+: turns →
      Held (fetchPending allowance next).run part (some (.ok (some child))) →
      (child.id = next.reference.id → ∃ later ∈ final.entries, later.bare = child.bare) →
      source child)
    (start : Sourced source turns hierarchy pending) : Sourced source turns final [] := by
  refine holds_of_followBridges (Sourced source turns) (fun _ _ _ sourced => sourced.drop) ?_ held
    start
  intro hierarchy next rest child part sourced absent within lookedUp keeps
  have within := within.trans inside
  obtain ⟨above, fromSource, started, isKnown⟩ := sourced.origins next List.mem_cons_self
  refine sourced.attach within lookedUp (closed above next child part fromSource started within
    lookedUp fun named => keeps.2 child ?_)
  exact PipelineHierarchy.mem_attach_of_accepts
    (PipelineHierarchy.accepts_of_pending isKnown started absent named)

end Walk

section Fetch

variable {hierarchy : PipelineHierarchy} {failures : List SyncError} {projectId : Int}
  {path : String} {node : PipelineNode}

/-- A fetched hierarchy is sourced where the root is a source and so is what the look-ups of
sources bring. -/
theorem sourced_of_fetchHierarchy {source : HierarchyEntry → Prop}
    (held : Held (fetchHierarchy allowance projectId path node).run turns
      (some (.ok (some hierarchy, failures))))
    (root : ∀ entry part, part <:+: turns →
      Held (fetchEntry allowance projectId path node).run part (some (.ok (some entry))) →
      (∃ later ∈ hierarchy.entries, later.bare = entry.bare) → source entry)
    (closed : ∀ above next child part, source above → next ∈ above.pending → part <:+: turns →
      Held (fetchPending allowance next).run part (some (.ok (some child))) →
      (child.id = next.reference.id → ∃ later ∈ hierarchy.entries, later.bare = child.bare) →
      source child) : Sourced source turns hierarchy [] := by
  obtain ⟨found, front, back, rfl, fetched, held⟩ := Attempt.held_bind_ok held
  cases found with
  | none => cases held
  | some entry =>
    obtain ⟨⟨complete, errors⟩, walking, last, rfl, walked, ended⟩ := Attempt.held_bind_ok held
    have inside : walking <:+: front ++ (walking ++ last) := by
      rw [← List.append_assoc]
      exact List.infix_append front walking last
    cases ended
    have bare : entry.downstream = [] := by
      obtain ⟨_, _, _, rfl⟩ := exists_of_fetchEntry fetched
      rfl
    have kept := (kept_of_followBridges walked).2 entry List.mem_cons_self
    have isSource := root entry front (List.prefix_append _ _).isInfix fetched kept
    exact sourced_of_followBridges inside walked closed (.start isSource bare)

/-- Every entry of a fetched hierarchy but the root is attached below exactly one other, and a
pipeline with the id of that one has the bridge that brought it. Where references are answered with
the pipelines that they name, this is a bridge of the parent itself, and it names the entry. -/
theorem entries_brought
    (held : Held (fetchHierarchy allowance projectId path node).run turns
      (some (.ok (some hierarchy, failures)))) :
    ∀ entry ∈ hierarchy.entries, entry.id ≠ hierarchy.root → hierarchy.HasOneParent entry ∧
      ∃ parent ∈ hierarchy.entries, entry.id ∈ parent.downstream ∧
        (∃ above reference, Loaded turns allowance projectId path node above ∧
          above.id = parent.id ∧ BroughtBy turns above entry reference) ∧
        (AnsweredByName turns hierarchy → ∃ reference,
          BroughtBy turns parent entry reference ∧ reference.id = entry.id) := by
  have loaded : Sourced (Loaded turns allowance projectId path node) turns hierarchy [] :=
    sourced_of_fetchHierarchy held (fun _ _ within held _ => .root within held)
      fun _ _ _ _ above started within held _ => .brought above started within held
  intro entry member other
  obtain ⟨parent, inside, listed⟩ := loaded.tree.exists_listed member other
  refine ⟨loaded.tree.hasOneParent member other, parent, inside, listed, ?_, fun named => ?_⟩
  · obtain ⟨same, isSame, sameId, brought⟩ := loaded.links parent inside _ listed
    rw [loaded.tree.eq_of_id isSame member sameId] at brought
    exact brought
  · have kept : Sourced (fun above => ∃ later ∈ hierarchy.entries, later.bare = above.bare) turns
        hierarchy [] := by
      refine sourced_of_fetchHierarchy held (fun _ _ _ _ kept => kept) ?_
      intro above next child part ⟨later, isLater, same⟩ started within held kept
      have brought := (broughtBy_of_fetchPending started within held).of_bare same rfl
      exact kept (brought.id_eq named isLater)
    obtain ⟨same, isSame, sameId, above, reference, ⟨later, isLater, sameBare⟩, parentId,
      brought⟩ :=
      kept.links parent inside _ listed
    rw [loaded.tree.eq_of_id isSame member sameId] at brought
    have isParent : later = parent := loaded.tree.eq_of_id isLater inside
      ((HierarchyEntry.same_of_bare sameBare).1.trans parentId)
    have brought := brought.of_bare (isParent ▸ sameBare) rfl
    exact ⟨reference, brought, (brought.id_eq named inside).symm⟩

end Fetch

/-! ### A reference without a project -/

namespace AttachedPipelines

open PipelineCoverage WalkTermination

/-- The fetch of the first pipeline, whose bridge names the second one without its project. -/
def fetching : Fetch (Option PipelineHierarchy × List SyncError) :=
  fetchHierarchy 2 1 "g/app" (startingNode none)

/-- The turns of the fetch where every look-up finds the same pipeline. -/
def turnsWith (found : PipelineNode) : Turns :=
  fetching.run.transcript (fun op (_ : Unit) => (alwaysFinds found op, ())) ()

/-- The first pipeline with another one below it. -/
def fetchedWith (child : HierarchyEntry) : PipelineHierarchy :=
  ⟨100, [{ startingEntry with downstream := [child.id] }, child]⟩

def otherEntry : HierarchyEntry :=
  .ofJobs
    { (default : Pipeline) with id := 300, iid := "2", projectId := 1, projectPath := "g/app" } []

theorem held_started :
    Held fetching.run (turnsWith startedNode) (some (.ok (some (fetchedWith startedEntry), []))) :=
  held_transcript (fun op (_ : Unit) => (alwaysFinds startedNode op, ())) fetching.run ()

theorem held_other :
    Held fetching.run (turnsWith otherNode) (some (.ok (some (fetchedWith otherEntry), []))) :=
  held_transcript (fun op (_ : Unit) => (alwaysFinds otherNode op, ())) fetching.run ()

theorem started_named : AnsweredByName (turnsWith startedNode) (fetchedWith startedEntry) := by
  have references : ∀ entry ∈ (fetchedWith startedEntry).entries, ∀ pending ∈ entry.pending,
      pending.reference.id = 200 := by decide +kernel
  intro entry member pending isPending node id answered parsed
  have answer : Except.ok (some node) = (.ok (some startedNode) : Outcome (Option PipelineNode)) :=
    reply_of_mem_transcript answered
  cases answer
  cases parsed
  exact (references entry member pending isPending).symm

end AttachedPipelines

open PipelineCoverage WalkTermination AttachedPipelines

/-- The second pipeline, which is found in the project of the bridge, was brought by the bridge of
the first one. -/
theorem second_pipeline_brought :
    AnsweredByName (turnsWith startedNode) (fetchedWith startedEntry) ∧
      Held fetching.run (turnsWith startedNode)
        (some (.ok (some (fetchedWith startedEntry), []))) ∧
      ∃ parent ∈ (fetchedWith startedEntry).entries, startedEntry.id ∈ parent.downstream ∧
        ∃ reference, BroughtBy (turnsWith startedNode) parent startedEntry reference ∧
          reference.id = 200 := by
  have member : startedEntry ∈ (fetchedWith startedEntry).entries :=
    List.mem_cons_of_mem _ List.mem_cons_self
  obtain ⟨_, parent, inside, listed, _, named⟩ :=
    entries_brought held_started startedEntry member (by decide)
  exact ⟨started_named, held_started, parent, inside, listed, named started_named⟩

/-- A third pipeline is attached where the look-up of the second one is answered with it, although
no bridge names it. -/
theorem third_pipeline_attached :
    ∃ turns hierarchy, Held fetching.run turns (some (.ok (some hierarchy, []))) ∧
      ∃ entry ∈ hierarchy.entries, entry.id ≠ hierarchy.root ∧
        ∀ parent ∈ hierarchy.entries, ∀ bridge ∈ parent.bridges, ¬ bridge.Started entry.id := by
  refine ⟨_, _, held_other, otherEntry, List.mem_cons_of_mem _ List.mem_cons_self, by decide, ?_⟩
  have references : ∀ parent ∈ (fetchedWith otherEntry).entries, ∀ bridge ∈ parent.bridges,
      ∀ reference ∈ bridge.downstream, reference.id ≠ 300 := by decide +kernel
  rintro parent member bridge inside ⟨reference, started, same⟩
  exact references parent member bridge inside reference started same

end CiTelemetry
