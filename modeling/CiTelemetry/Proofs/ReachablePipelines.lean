/-
This file proves that the walk over bridges finds what can be reached, and nothing
else. The walk keeps a record of the pipelines that it has looked up. Each
reference of an entry is still to be followed, or names an entry, or was looked
up; and each entry but the first is there because of one lookup that found it. So
at the end the entries are those of the least set of pipelines that holds the
first one and whatever a reference of one of them leads to. A pipeline that cannot
be had takes nothing else with it than what can be reached through it alone.
-/

import CiTelemetry.Proofs.LookupFailures
import CiTelemetry.Proofs.TraceableHierarchies
import CiTelemetry.Proofs.WalkTermination
import Mathlib.Order.Bounds.Basic

namespace CiTelemetry

/-! ### Lookups -/

/-- What a walk has done about a reference: what came of looking it up, and the calls for that. -/
structure Lookup where
  pending : PendingPipeline
  outcome : Outcome (Option HierarchyEntry)
  calls : List Action

namespace Lookup

/-- The pipeline that was found. -/
def loaded? (lookup : Lookup) : Option Int :=
  match lookup.outcome with
  | .ok (some child) => some child.id
  | _ => none

/-- The failure, where there was one. -/
def failure? (lookup : Lookup) : Option SyncError :=
  lookup.outcome.failure?

end Lookup

section AfterLookup

variable {hierarchy : PipelineHierarchy} {errors : List SyncError} {next : PendingPipeline}
  {rest : List PendingPipeline} {outcome : Outcome (Option HierarchyEntry)} {calls : List Action}
  {entry : HierarchyEntry}

theorem errors_afterLookup (calls : List Action) :
    (afterLookup hierarchy errors next rest outcome).errors =
      errors ++ (Lookup.mk next outcome calls).failure?.toList := by
  rcases outcome with error | _ | child
  · rfl
  · exact (List.append_nil errors).symm
  · exact (List.append_nil errors).symm

/-- What is found under the id that its reference names stands behind all other entries. -/
theorem ids_afterLookup (hanging : Hanging ⟨hierarchy, errors, next :: rest⟩)
    (absent : hierarchy.contains next.reference.id = false)
    (named : ∀ child, outcome = .ok (some child) → child.id = next.reference.id)
    (calls : List Action) :
    (afterLookup hierarchy errors next rest outcome).hierarchy.entries.map (·.id) =
      hierarchy.entries.map (·.id) ++ (Lookup.mk next outcome calls).loaded?.toList := by
  rcases outcome with error | _ | child
  · exact (List.append_nil _).symm
  · exact (List.append_nil _).symm
  · exact PipelineHierarchy.ids_attach (hanging.accepts absent (named child rfl))

/-- A lookup adds no entry but the one that it finds. -/
theorem mem_afterLookup
    (member : entry ∈ (afterLookup hierarchy errors next rest outcome).hierarchy.entries) :
    (∃ former ∈ hierarchy.entries, entry.bare = former.bare) ∨ outcome = .ok (some entry) := by
  rcases outcome with error | _ | child
  · exact .inl ⟨entry, member, rfl⟩
  · exact .inl ⟨entry, member, rfl⟩
  · rcases PipelineHierarchy.mem_attach member with former | rfl
    · exact .inl former
    · exact .inr rfl

theorem keeps_afterLookup :
    (afterLookup hierarchy errors next rest outcome).hierarchy.Keeps hierarchy := by
  rcases outcome with error | _ | child
  · exact .refl hierarchy
  · exact .refl hierarchy
  · exact hierarchy.keeps_attach next.parent child

theorem distinct_afterLookup (distinct : (hierarchy.entries.map (·.id)).Nodup) :
    ((afterLookup hierarchy errors next rest outcome).hierarchy.entries.map (·.id)).Nodup := by
  rcases outcome with error | _ | child
  · exact distinct
  · exact distinct
  · exact PipelineHierarchy.distinct_attach distinct next.parent child

/-- A lookup takes no pipeline out of the hierarchy. -/
theorem contains_afterLookup {id : Int} (present : hierarchy.contains id = true) :
    (afterLookup hierarchy errors next rest outcome).hierarchy.contains id = true := by
  rcases outcome with error | _ | child
  · exact present
  · exact present
  · exact PipelineHierarchy.contains_attach_of_contains present

theorem subset_pending_afterLookup :
    rest ⊆ (afterLookup hierarchy errors next rest outcome).pending := by
  rcases outcome with error | _ | child
  · exact List.Subset.refl rest
  · exact List.Subset.refl rest
  · exact List.subset_append_left rest child.pending

end AfterLookup

/-! ### The record of a walk -/

/-- References that lead to the pipelines that they name. -/
def LeadByName (answers : FixedReplies) (root : HierarchyEntry) : Prop :=
  ∀ entry, Bridged answers root entry → ∀ pending ∈ entry.pending, ∀ child,
    Leads answers pending child → child.id = pending.reference.id

/-- A set of pipelines that holds, with an entry of a hierarchy, whatever a reference of the entry
leads to. -/
def PipelineHierarchy.Closes (hierarchy : PipelineHierarchy) (answers : FixedReplies)
    (ids : Set Int) : Prop :=
  ∀ entry ∈ hierarchy.entries, entry.id ∈ ids → ∀ pending ∈ entry.pending, ∀ child,
    Leads answers pending child → pending.reference.id ∈ ids

/-- What a hierarchy closes, one with fewer entries closes. -/
theorem PipelineHierarchy.Closes.of_keeps {answers : FixedReplies} {ids : Set Int}
    {final hierarchy : PipelineHierarchy} (closes : final.Closes answers ids)
    (keeps : final.Keeps hierarchy) : hierarchy.Closes answers ids := by
  intro entry member isIn pending started child leads
  obtain ⟨later, inside, sameId, kept⟩ := keeps.exists_mem_pending member started
  rw [← sameId] at isIn
  exact closes later inside isIn pending kept child leads

/-- What holds of a walk and the lookups that it has made so far. -/
structure Explores (answers : FixedReplies) (allowance : Nat) (root : HierarchyEntry)
    (lookups : List Lookup) (state : WalkState) : Prop where
  covers : Covers answers (Bridged answers root) root.id state
  hanging : Hanging state
  made : ∀ lookup ∈ lookups,
    Ends answers (fetchPending allowance lookup.pending) lookup.outcome lookup.calls
  started : ∀ lookup ∈ lookups, ∃ entry ∈ state.hierarchy.entries, lookup.pending ∈ entry.pending
  handled : ∀ entry ∈ state.hierarchy.entries, ∀ pending ∈ entry.pending,
    pending ∈ state.pending ∨ state.hierarchy.contains pending.reference.id = true ∨
      ∃ lookup ∈ lookups, lookup.pending = pending
  once : state.hierarchy.entries.map (·.id) = root.id :: lookups.filterMap (·.loaded?)
  distinct : (state.hierarchy.entries.map (·.id)).Nodup
  errors : state.errors = lookups.filterMap (·.failure?)
  least : ∀ ids : Set Int, root.id ∈ ids → state.hierarchy.Closes answers ids →
    ∀ entry ∈ state.hierarchy.entries, entry.id ∈ ids

section Exploration

variable {answers : FixedReplies} {allowance : Nat} {root : HierarchyEntry}
  {lookups : List Lookup} {hierarchy : PipelineHierarchy} {errors : List SyncError}
  {next : PendingPipeline} {rest : List PendingPipeline}

theorem Explores.start (bare : root.bare = root) :
    Explores answers allowance root [] ⟨.ofRoot root, [], root.pending⟩ where
  covers := Covers.start bare .root
  hanging := Hanging.start root
  made := fun _ member => nomatch member
  started := fun _ member => nomatch member
  handled := by
    intro entry member pending isPending
    rw [List.mem_singleton.mp member] at isPending
    exact .inl isPending
  once := rfl
  distinct := List.nodup_singleton _
  errors := rfl
  least := by
    intro ids isRoot _ entry member
    rw [List.mem_singleton.mp member]
    exact isRoot

/-- A reference that names an entry is done with. -/
theorem Explores.known (explores : Explores answers allowance root lookups
      ⟨hierarchy, errors, next :: rest⟩)
    (present : hierarchy.contains next.reference.id = true) :
    Explores answers allowance root lookups ⟨hierarchy, errors, rest⟩ where
  covers := explores.covers.pop fun before => ⟨before, .inl present⟩
  hanging := explores.hanging.pop
  made := explores.made
  started := explores.started
  handled := by
    intro entry member pending isPending
    rcases explores.handled entry member pending isPending with queued | known | looked
    · rcases List.mem_cons.mp queued with rfl | later
      · exact .inr (.inl present)
      · exact .inl later
    · exact .inr (.inl known)
    · exact .inr (.inr looked)
  once := explores.once
  distinct := explores.distinct
  errors := explores.errors
  least := explores.least

/-- A reference is looked up: what is found becomes an entry, and a failure is kept. -/
theorem Explores.lookup (named : LeadByName answers root)
    (explores : Explores answers allowance root lookups ⟨hierarchy, errors, next :: rest⟩)
    (absent : hierarchy.contains next.reference.id = false)
    {outcome : Outcome (Option HierarchyEntry)} {calls : List Action}
    (ends : Ends answers (fetchPending allowance next) outcome calls)
    (goesOn : ∀ error, outcome = .error error → error.isCancelled = false) :
    Explores answers allowance root (lookups ++ [⟨next, outcome, calls⟩])
      (afterLookup hierarchy errors next rest outcome) := by
  have step : WalkStep answers allowance ⟨hierarchy, errors, next :: rest⟩
      (afterLookup hierarchy errors next rest outcome) :=
    walkStep_afterLookup absent ends.value goesOn
  obtain ⟨parent, inside, isPending⟩ := explores.hanging.origins next List.mem_cons_self
  have leads : ∀ child, outcome = .ok (some child) → Leads answers next child := by
    rintro child rfl
    exact (leads_iff_of_fetchPending ends.value child).mpr rfl
  have isNamed : ∀ child, outcome = .ok (some child) → child.id = next.reference.id := by
    intro child found
    obtain ⟨origin, bridged, started, _⟩ := explores.covers.origins next List.mem_cons_self
    exact named origin bridged next started child (leads child found)
  have ids := ids_afterLookup explores.hanging absent isNamed calls
  have keeps : (afterLookup hierarchy errors next rest outcome).hierarchy.Keeps hierarchy :=
    keeps_afterLookup
  exact {
    covers := explores.covers.step bridged_closed step
    hanging := explores.hanging.step named step explores.covers
    made := List.forall_mem_append.mpr ⟨explores.made, List.forall_mem_singleton.mpr ends⟩
    started := by
      refine List.forall_mem_append.mpr ⟨fun lookup member => ?_, List.forall_mem_singleton.mpr ?_⟩
      · obtain ⟨entry, isEntry, isPending⟩ := explores.started lookup member
        obtain ⟨later, isLater, _, kept⟩ := keeps.exists_mem_pending isEntry isPending
        exact ⟨later, isLater, kept⟩
      · obtain ⟨later, isLater, _, kept⟩ := keeps.exists_mem_pending inside isPending
        exact ⟨later, isLater, kept⟩
    handled := by
      intro entry member pending isPending
      rcases mem_afterLookup member with ⟨former, isFormer, same⟩ | rfl
      · rw [(HierarchyEntry.same_of_bare same).2] at isPending
        rcases explores.handled former isFormer pending isPending with queued | known | looked
        · rcases List.mem_cons.mp queued with rfl | later
          · exact .inr (.inr ⟨_, List.mem_append_right _ List.mem_cons_self, rfl⟩)
          · exact .inl (subset_pending_afterLookup later)
        · exact .inr (.inl (contains_afterLookup known))
        · obtain ⟨lookup, isLookup, same⟩ := looked
          exact .inr (.inr ⟨lookup, List.mem_append_left _ isLookup, same⟩)
      · exact .inl (List.mem_append_right _ isPending)
    once := by
      rw [ids, explores.once, List.filterMap_append]
      rfl
    distinct := distinct_afterLookup explores.distinct
    errors := by
      have before : errors = lookups.filterMap (·.failure?) := explores.errors
      rw [errors_afterLookup calls, before, List.filterMap_append]
      rfl
    least := by
      intro every isRoot closes entry member
      have before := closes.of_keeps keeps
      rcases mem_afterLookup member with ⟨former, isFormer, same⟩ | found
      · rw [(HierarchyEntry.same_of_bare same).1]
        exact explores.least every isRoot before former isFormer
      · rw [isNamed entry found]
        have above := explores.least every isRoot before parent inside
        exact before parent inside above next isPending entry (leads entry found) }

/-- A walk that returns has gone on with its record until nothing was left to be followed, and has
made no other calls than those of its lookups. -/
theorem explores_of_followBridges (named : LeadByName answers root) {steps : Nat}
    {pending : List PendingPipeline} {final : PipelineHierarchy} {failures : List SyncError}
    {calls : List Action}
    (explores : Explores answers allowance root lookups ⟨hierarchy, errors, pending⟩)
    (ends : Ends answers (followBridges steps allowance hierarchy errors pending)
      (.ok (final, failures)) calls) :
    ∃ later, Explores answers allowance root (lookups ++ later) ⟨final, failures, []⟩ ∧
      calls = later.flatMap (·.calls) := by
  induction steps generalizing lookups hierarchy errors pending calls with
  | zero =>
    cases pending with
    | nil =>
      cases ends.value
      refine ⟨[], ?_, ends.made.symm⟩
      rwa [List.append_nil]
    | cons next rest => cases ends.value
  | succ steps inductionHypothesis =>
    cases pending with
    | nil =>
      cases ends.value
      refine ⟨[], ?_, ends.made.symm⟩
      rwa [List.append_nil]
    | cons next rest =>
      cases present : hierarchy.contains next.reference.id with
      | true =>
        rw [followBridges, if_pos present] at ends
        exact inductionHypothesis (explores.known present) ends
      | false =>
        obtain ⟨outcome, front, back, looked, goesOn, after, rfl⟩ :=
          exists_lookup_of_followBridges present ends
        obtain ⟨later, explored, rfl⟩ :=
          inductionHypothesis (explores.lookup named present looked goesOn) after
        refine ⟨⟨next, outcome, front⟩ :: later, ?_, rfl⟩
        rwa [List.append_cons]

end Exploration

/-! ### What can be reached -/

/-- Answers that give a pipeline the same references wherever it is come upon. -/
def SameReferences (answers : FixedReplies) (root : HierarchyEntry) : Prop :=
  ∀ entry other, Bridged answers root entry → Bridged answers root other → entry.id = other.id →
    ∀ pending ∈ entry.pending, ∃ pending' ∈ other.pending, pending'.reference = pending.reference

/-- A hierarchy that holds what can be reached from its root, with the failures and the lookups that
it took. -/
structure Explored (answers : FixedReplies) (allowance : Nat) (root : HierarchyEntry)
    (hierarchy : PipelineHierarchy) (errors : List SyncError) (lookups : List Lookup) : Prop where
  rooted : hierarchy.root = root.id
  /-- The entries are the least set of pipelines that holds the root and whatever a reference of an
  entry leads to. -/
  least : IsLeast {ids : Set Int | root.id ∈ ids ∧ hierarchy.Closes answers ids}
    {id | hierarchy.contains id = true}
  /-- Every entry is what the answers give for a pipeline that bridges lead to. -/
  bridged : ∀ entry ∈ hierarchy.entries, Bridged answers root entry.bare
  /-- Where pipelines do not change their references, everything that bridges lead to is there. -/
  reaches : SameReferences answers root → ∀ id,
    hierarchy.contains id = true ↔ ∃ entry, Bridged answers root entry ∧ entry.id = id
  /-- Nothing is looked up but references of entries. -/
  started : ∀ lookup ∈ lookups, ∃ entry ∈ hierarchy.entries, lookup.pending ∈ entry.pending
  /-- How the lookups ended, and with which calls. -/
  made : ∀ lookup ∈ lookups,
    Ends answers (fetchPending allowance lookup.pending) lookup.outcome lookup.calls
  /-- The entries are the root and what the lookups found, in this order. -/
  once : hierarchy.entries.map (·.id) = root.id :: lookups.filterMap (·.loaded?)
  /-- So none was found twice. -/
  distinct : (hierarchy.entries.map (·.id)).Nodup
  /-- The failures are those of the lookups, one for each that failed. -/
  errors : errors = lookups.filterMap (·.failure?)

section Reach

variable {answers : FixedReplies} {allowance : Nat} {root : HierarchyEntry}
  {lookups : List Lookup} {hierarchy : PipelineHierarchy} {errors : List SyncError}

/-- At the end of a walk, whatever a reference of an entry leads to is an entry. -/
theorem Explores.contains (named : LeadByName answers root)
    (explores : Explores answers allowance root lookups ⟨hierarchy, errors, []⟩)
    {entry child : HierarchyEntry} {pending : PendingPipeline} (member : entry ∈ hierarchy.entries)
    (started : pending ∈ entry.pending) (leads : Leads answers pending child) :
    hierarchy.contains pending.reference.id = true := by
  rcases explores.handled entry member pending started with queued | known | ⟨lookup, looked, rfl⟩
  · cases queued
  · exact known
  · have loaded : lookup.loaded? = some child.id := by
      rw [Lookup.loaded?, leads.outcome_eq (explores.made lookup looked).value]
    have listed : child.id ∈ hierarchy.entries.map (·.id) := by
      rw [explores.once]
      exact List.mem_cons_of_mem _ (List.mem_filterMap.mpr ⟨lookup, looked, loaded⟩)
    rw [← named entry.bare (explores.covers.entries entry member) _ started child leads]
    exact PipelineHierarchy.contains_iff.mpr (List.mem_map.mp listed)

theorem Explores.contains_of_bridged (named : LeadByName answers root)
    (explores : Explores answers allowance root lookups ⟨hierarchy, errors, []⟩)
    (same : SameReferences answers root) {entry : HierarchyEntry}
    (bridged : Bridged answers root entry) : hierarchy.contains entry.id = true := by
  induction bridged with
  | root => exact explores.covers.root.2
  | @bridge entry child pending parent started leads inductionHypothesis =>
    -- The hierarchy may have come to the parent another way, for another number of its project.
    obtain ⟨held, inside, sameId⟩ := PipelineHierarchy.contains_iff.mp inductionHypothesis
    have heldBridged := explores.covers.entries held inside
    obtain ⟨pending', started', reference⟩ :=
      same entry held.bare parent heldBridged sameId.symm pending started
    obtain ⟨child', leads'⟩ := leads.of_reference reference
    rw [named entry parent pending started child leads, ← reference]
    exact explores.contains named inside started' leads'

/-- A walk that has come to its end has reached what can be reached. -/
theorem Explores.explored (named : LeadByName answers root)
    (explores : Explores answers allowance root lookups ⟨hierarchy, errors, []⟩) :
    Explored answers allowance root hierarchy errors lookups where
  rooted := explores.covers.root.1
  least := by
    refine ⟨⟨explores.covers.root.2, ?_⟩, ?_⟩
    · intro entry member _ pending started child leads
      exact explores.contains named member started leads
    · rintro ids ⟨isRoot, closes⟩ id present
      obtain ⟨entry, member, rfl⟩ := PipelineHierarchy.contains_iff.mp present
      exact explores.least ids isRoot closes entry member
  bridged := explores.covers.entries
  reaches := by
    refine fun same id => ⟨fun present => ?_, ?_⟩
    · obtain ⟨entry, member, sameId⟩ := PipelineHierarchy.contains_iff.mp present
      exact ⟨entry.bare, explores.covers.entries entry member, sameId⟩
    · rintro ⟨entry, bridged, rfl⟩
      exact explores.contains_of_bridged named same bridged
  started := explores.started
  made := explores.made
  once := explores.once
  distinct := explores.distinct
  errors := explores.errors

end Reach

/-- What can be reached from an entry if it is finite: pipelines with their jobs and the artifacts
of these. -/
structure FiniteReach (answers : FixedReplies) (root : HierarchyEntry) : Prop where
  pipelines : {id | ∃ entry, Bridged answers root entry ∧ entry.id = id}.Finite
  jobs : ∀ entry, Bridged answers root entry → ∀ pending ∈ entry.pending, ∀ node,
    answers (.query (.pipeline pending.reference.projectPath pending.reference.iid)) =
      .ok (some node) → FiniteJobs answers pending.reference.projectPath node

/-- The walk from an entry ends if what can be reached from it is finite. -/
theorem FiniteReach.terminates {answers : FixedReplies} {root : HierarchyEntry}
    (finite : FiniteReach answers root) (named : LeadByName answers root)
    (bare : root.bare = root) : Terminates answers ⟨.ofRoot root, [], root.pending⟩ := by
  have settles : WellFounded (LeadsAstray answers root) := by
    refine ⟨fun earlier => .intro earlier ?_⟩
    rintro later ⟨entry, child, bridged, started, leads, other, _⟩
    exact absurd (named entry bridged earlier started child leads) other
  have looksUp : ∀ entry, Bridged answers root entry → ∀ pending ∈ entry.pending,
      ∃ outcome calls enough, ∀ allowance, enough ≤ allowance →
        Ends answers (fetchPending allowance pending) outcome calls :=
    fun entry bridged pending started =>
      fetchPending_ends (finite.jobs entry bridged pending started)
  exact terminates_of_covers looksUp finite.pipelines settles (Covers.start bare .root)

/-- The hierarchy of a pipeline that can be converted, where references lead to the pipelines that
they name. If it is returned, it holds what can be reached from the pipeline and nothing else, each
found once, and the failures are those of the lookups, whatever could not be had on the way. And it
is returned if the pipeline can be loaded, what can be reached from it is finite, and nothing is
cancelled. -/
theorem explored_of_fetchHierarchy {answers : FixedReplies} {projectId : Int} {path : String}
    {node : PipelineNode} {pipeline : Pipeline}
    (converts : node.toPipeline projectId path = .ok pipeline)
    (named : ∀ root, Loads answers projectId path node root → LeadByName answers root) :
    (∀ allowance result calls,
      Ends answers (fetchHierarchy allowance projectId path node) (.ok result) calls →
        ∃ root hierarchy rootCalls lookups, Loads answers projectId path node root ∧
          root.id = pipeline.id ∧ result.1 = some hierarchy ∧
          Ends answers (fetchEntry allowance projectId path node) (.ok (some root)) rootCalls ∧
          calls = rootCalls ++ lookups.flatMap (·.calls) ∧
          Explored answers allowance root hierarchy result.2 lookups) ∧
      ∀ root, Loads answers projectId path node root → FiniteReach answers root →
        Uncancelled answers → ∃ result calls enough, ∀ allowance, enough ≤ allowance →
          Ends answers (fetchHierarchy allowance projectId path node) (.ok result) calls := by
  constructor
  · intro allowance result calls ends
    unfold fetchHierarchy at ends
    obtain ⟨found, rootCalls, _, fetched, ends, rfl⟩ := ends.of_bind_ok
    obtain ⟨root, loads⟩ := exists_loads_of_fetchEntry fetched.value converts
    cases (loads_iff_of_fetchEntry fetched.value root).mp loads
    obtain ⟨⟨hierarchy, errors⟩, walkCalls, _, walked, ended, rfl⟩ := ends.of_bind_ok
    cases ended.value
    cases ended.made
    obtain ⟨lookups, explores, rfl⟩ :=
      explores_of_followBridges (named root loads) (Explores.start loads.bare_eq) walked
    refine ⟨root, hierarchy, rootCalls, lookups, loads, loads.id_eq converts, rfl, fetched, ?_, ?_⟩
    · exact congrArg (rootCalls ++ ·) (List.append_nil _)
    · exact explores.explored (named root loads)
  · intro root loads finite uncancelled
    obtain ⟨outcome, calls, enough, ends⟩ :=
      fetchHierarchy_ends_of_walk loads.finiteJobs fun other loads' => by
        rw [← loads.unique loads']
        exact finite.terminates (named root loads) loads.bare_eq
    cases outcome with
    | error error =>
      have failed := (ends enough (Nat.le_refl enough)).value
      exact absurd failed (loads.neverFails_fetchHierarchy uncancelled enough error)
    | ok result => exact ⟨result, calls, enough, ends⟩

/-! ### A circle of pipelines -/

namespace ReachablePipelines

open PipelineCoverage

/-- A bridge that started a pipeline. -/
def bridgeTo (id iid : String) : JobNode :=
  { bridgeNode with downstream := some ⟨id, iid, none⟩ }

/-- A pipeline whose jobs are bridges. -/
def starting (id iid : String) (started : List (String × String)) : PipelineNode :=
  pipelineNode id iid none (started.map fun reference => bridgeTo reference.1 reference.2)

def first : PipelineNode :=
  starting "gid://gitlab/Ci::Pipeline/100" "1"
    [("gid://gitlab/Ci::Pipeline/200", "2"), ("gid://gitlab/Ci::Pipeline/300", "3"),
      ("gid://gitlab/Ci::Pipeline/500", "5")]

/-- Four pipelines. The first starts the second and the third, both of these start the fourth, and
the third names the first again. The first and the third also name a fifth pipeline. -/
def circle : List PipelineNode :=
  [first,
    starting "gid://gitlab/Ci::Pipeline/200" "2" [("gid://gitlab/Ci::Pipeline/400", "4")],
    starting "gid://gitlab/Ci::Pipeline/300" "3"
      [("gid://gitlab/Ci::Pipeline/400", "4"), ("gid://gitlab/Ci::Pipeline/100", "1"),
        ("gid://gitlab/Ci::Pipeline/500", "5")],
    starting "gid://gitlab/Ci::Pipeline/400" "4" []]

def circleAnswer (iid : String) : Outcome (Option PipelineNode) :=
  match circle.find? (·.iid == iid) with
  | some node => .ok (some node)
  | none => .error .noData

theorem circleAnswer_cases (iid : String) :
    (∃ node ∈ circle, circleAnswer iid = .ok (some node)) ∨ circleAnswer iid = .error .noData := by
  unfold circleAnswer
  split
  · next node found => exact .inl ⟨node, List.mem_of_find?_eq_some found, rfl⟩
  · exact .inr rfl

/-- A server that finds these four, but fails to find the fifth. -/
def circleReplies : FixedReplies
  | .query (.pipeline _ iid) => circleAnswer iid
  | .query _ => .error .noData
  | .isCancelled => false
  | .send .. => .ok ()
  | .now => default
  | .waitUntil _ => ()

theorem circle_uncancelled : Uncancelled circleReplies := by
  intro asked error answered
  cases asked with
  | pipeline path iid =>
    rcases circleAnswer_cases iid with ⟨_, _, found⟩ | missed
    · cases found.symm.trans answered
    · cases missed.symm.trans answered
      rfl
  | _ =>
    cases answered
    rfl

/-- The entries of the four. -/
def circleEntries : List HierarchyEntry :=
  circle.filterMap fun node => (returned? circleReplies (fetchEntry 1 1 "g/app" node)).join

/-- Whether looking a reference up ends with the entry that it names, or with none. -/
def namesEntry (pending : PendingPipeline) : Bool :=
  match Attempt.value? circleReplies (fetchPending 1 pending) with
  | some (.ok (some child)) => circleEntries.contains child && child.id == pending.reference.id
  | some _ => true
  | none => false

theorem circle_namesEntry :
    ∀ entry ∈ circleEntries, ∀ pending ∈ entry.pending, namesEntry pending = true := by
  decide +kernel

theorem entry_of_leads {pending : PendingPipeline} {child : HierarchyEntry}
    (names : namesEntry pending = true) (leads : Leads circleReplies pending child) :
    child ∈ circleEntries ∧ child.id = pending.reference.id := by
  unfold namesEntry at names
  cases ended : Attempt.value? circleReplies (fetchPending 1 pending) with
  | none =>
    rw [ended] at names
    cases names
  | some outcome =>
    rw [ended, leads.outcome_eq ended, Bool.and_eq_true] at names
    exact ⟨List.contains_iff_mem.mp names.1, beq_iff_eq.mp names.2⟩

theorem mem_of_bridged {root entry : HierarchyEntry} (member : root ∈ circleEntries)
    (bridged : Bridged circleReplies root entry) : entry ∈ circleEntries := by
  induction bridged with
  | root => exact member
  | bridge _ started leads inductionHypothesis =>
    exact (entry_of_leads (circle_namesEntry _ inductionHypothesis _ started) leads).1

theorem circle_leadByName {root : HierarchyEntry} (member : root ∈ circleEntries) :
    LeadByName circleReplies root :=
  fun entry bridged pending started _ leads =>
    (entry_of_leads (circle_namesEntry entry (mem_of_bridged member bridged) pending started)
      leads).2

theorem fetched_first : Attempt.value? circleReplies (fetchEntry 1 1 "g/app" first) =
    some (.ok circleEntries.head?) := by
  rfl

theorem mem_of_loads {root : HierarchyEntry} (loads : Loads circleReplies 1 "g/app" first root) :
    root ∈ circleEntries :=
  List.mem_of_mem_head? ((loads_iff_of_fetchEntry fetched_first root).mp loads)

theorem items_starting (gid iid : String) (started : List (String × String)) :
    (starting gid iid started).jobPage.items =
      started.map fun reference => bridgeTo reference.1 reference.2 := by
  show ((started.map fun reference => bridgeTo reference.1 reference.2).map some).filterMap id = _
  rw [List.filterMap_map, Function.id_comp, List.filterMap_some]

theorem finiteJobs_starting (answers : FixedReplies) (path gid iid : String)
    (started : List (String × String)) : FiniteJobs answers path (starting gid iid started) := by
  refine ⟨[], .none rfl, fun job member => ⟨[], .none ?_⟩⟩
  rw [allItems_singleton, items_starting] at member
  obtain ⟨reference, _, rfl⟩ := List.mem_map.mp member
  rfl

theorem circle_finiteJobs (path : String) :
    ∀ node ∈ circle, FiniteJobs circleReplies path node := by
  simp only [circle, List.forall_mem_cons]
  refine ⟨?_, ?_, ?_, ?_, fun _ member => nomatch member⟩
  all_goals exact finiteJobs_starting circleReplies path _ _ _

theorem circle_finite {root : HierarchyEntry} (member : root ∈ circleEntries) :
    FiniteReach circleReplies root where
  pipelines := by
    refine (circleEntries.map (·.id)).toFinset.finite_toSet.subset ?_
    rintro _ ⟨entry, bridged, rfl⟩
    rw [List.coe_toFinset]
    exact List.mem_map_of_mem (mem_of_bridged member bridged)
  jobs := by
    intro entry _ pending _ node answered
    rcases circleAnswer_cases pending.reference.iid with ⟨other, inside, found⟩ | missed
    · cases found.symm.trans answered
      exact circle_finiteJobs _ node inside
    · cases missed.symm.trans answered

end ReachablePipelines

open ReachablePipelines

/-- What is reached of the four pipelines. Each is found once, and the fifth is missed twice. -/
theorem circle_explored :
    (∃ hierarchy, Attempt.value? circleReplies (fetchHierarchy 8 1 "g/app" first) =
        some (.ok (some hierarchy, [.noData, .noData])) ∧
      hierarchy.entries.map (·.id) = [100, 200, 300, 400] ∧
      ∃ root lookups, Explored circleReplies 8 root hierarchy [.noData, .noData] lookups) ∧
      ∃ result calls enough, ∀ allowance, enough ≤ allowance →
        Ends circleReplies (fetchHierarchy allowance 1 "g/app" first) (.ok result) calls := by
  have converts : ∃ pipeline, first.toPipeline 1 "g/app" = .ok pipeline := ⟨_, rfl⟩
  obtain ⟨pipeline, converts⟩ := converts
  have explored := explored_of_fetchHierarchy converts
    fun root loads => circle_leadByName (mem_of_loads loads)
  constructor
  · obtain ⟨hierarchy, returned, ids⟩ : ∃ hierarchy,
        Attempt.value? circleReplies (fetchHierarchy 8 1 "g/app" first) =
            some (.ok (some hierarchy, [.noData, .noData])) ∧
          hierarchy.entries.map (·.id) = [100, 200, 300, 400] :=
      ⟨_, rfl, rfl⟩
    obtain ⟨root, found, _, lookups, _, _, same, _, _, reached⟩ :=
      explored.1 8 _ _ ⟨returned, rfl⟩
    cases same
    exact ⟨hierarchy, returned, ids, root, lookups, reached⟩
  · obtain ⟨root, loads⟩ := exists_loads_of_fetchEntry fetched_first converts
    exact explored.2 root loads (circle_finite (mem_of_loads loads)) circle_uncancelled

end CiTelemetry
