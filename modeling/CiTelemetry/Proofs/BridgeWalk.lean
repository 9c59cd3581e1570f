/-
This file proves what the walk over bridges finds. The walk is given as steps
between states, and a statement that every step preserves holds of what the walk
returns. Every entry of the hierarchy is the root or one that a bridge of another
entry leads to; and where nothing failed, every bridge of every entry is settled:
the pipeline that it names or the one that it leads to is in the hierarchy, or it
leads to none.
-/

import CiTelemetry.Proofs.Gathering
import CiTelemetry.Proofs.PipelineEntries
import Mathlib.Logic.Relation

namespace CiTelemetry

/-! ### Entries and links -/

namespace HierarchyEntry

/-- An entry without the links that the hierarchy keeps in it. -/
def bare (entry : HierarchyEntry) : HierarchyEntry :=
  { entry with downstream := [] }

theorem bare_pending (entry : HierarchyEntry) : entry.bare.pending = entry.pending := rfl

/-- An entry has the same id and the same references whatever links the hierarchy keeps in it. -/
theorem same_of_bare {entry other : HierarchyEntry} (same : entry.bare = other.bare) :
    entry.id = other.id ∧ entry.pending = other.pending := by
  show entry.bare.id = other.bare.id ∧ entry.bare.pending = other.bare.pending
  rw [same]
  exact ⟨rfl, rfl⟩

theorem parent_of_mem_pending {entry : HierarchyEntry} {pending : PendingPipeline}
    (member : pending ∈ entry.pending) : pending.parent = entry.id := by
  obtain ⟨bridge, _, started⟩ := List.mem_filterMap.mp member
  obtain ⟨reference, _, rfl⟩ := Option.map_eq_some_iff.mp started
  rfl

end HierarchyEntry

theorem Loads.bare_eq {answers : FixedReplies} {projectId : Int} {path : String}
    {node : PipelineNode} {entry : HierarchyEntry}
    (loads : Loads answers projectId path node entry) : entry.bare = entry := by
  cases loads
  rfl

theorem Leads.bare_eq {answers : FixedReplies} {pending : PendingPipeline} {entry : HierarchyEntry}
    (leads : Leads answers pending entry) : entry.bare = entry := by
  obtain ⟨_, _, loads⟩ := leads
  exact loads.bare_eq

namespace PipelineHierarchy

variable {hierarchy : PipelineHierarchy} {parent id : Int} {child entry : HierarchyEntry}

theorem contains_iff :
    hierarchy.contains id = true ↔ ∃ entry ∈ hierarchy.entries, entry.id = id := by
  simp [contains]

theorem contains_of_mem (member : entry ∈ hierarchy.entries) : hierarchy.contains entry.id = true :=
  contains_iff.mpr ⟨entry, member, rfl⟩

/-- Linking changes no entry but in its links. -/
theorem mem_link (linked : entry ∈ (hierarchy.link parent id).entries) :
    ∃ former ∈ hierarchy.entries, entry.bare = former.bare := by
  obtain ⟨former, member, rfl⟩ := List.mem_map.mp linked
  refine ⟨former, member, ?_⟩
  split <;> rfl

theorem contains_link (hierarchy : PipelineHierarchy) (parent child sought : Int) :
    (hierarchy.link parent child).contains sought = hierarchy.contains sought := by
  unfold contains link modify
  rw [List.any_map]
  congr 1
  funext entry
  simp only [Function.comp_apply]
  split <;> rfl

theorem attach_of_accepts (accepted : hierarchy.accepts parent child = true) :
    (hierarchy.attach parent child).entries =
      (hierarchy.link parent child.id).entries ++ [child] := by
  rw [attach, if_pos accepted]

theorem mem_attach_of_accepts (accepted : hierarchy.accepts parent child = true) :
    child ∈ (hierarchy.attach parent child).entries := by
  rw [attach_of_accepts accepted]
  exact List.mem_append_right _ List.mem_cons_self

/-- What a reference of an entry leads to can be attached if it has the id that the reference names
and is not yet there. -/
theorem accepts_of_pending {pending : PendingPipeline} (known : hierarchy.contains entry.id = true)
    (started : pending ∈ entry.pending)
    (absent : hierarchy.contains pending.reference.id = false)
    (named : child.id = pending.reference.id) :
    hierarchy.accepts pending.parent child = true := by
  rw [accepts, HierarchyEntry.parent_of_mem_pending started, known, named, absent]
  rfl

theorem attach_of_not_accepts (refused : hierarchy.accepts parent child = false) :
    hierarchy.attach parent child = hierarchy := by
  rw [attach, refused, if_neg Bool.false_ne_true]

/-- An entry after attaching is one from before, up to its links, or the attached one. -/
theorem mem_attach (member : entry ∈ (hierarchy.attach parent child).entries) :
    (∃ former ∈ hierarchy.entries, entry.bare = former.bare) ∨ entry = child := by
  cases accepted : hierarchy.accepts parent child with
  | false =>
    rw [attach_of_not_accepts accepted] at member
    exact .inl ⟨entry, member, rfl⟩
  | true =>
    rw [attach_of_accepts accepted, List.mem_append, List.mem_singleton] at member
    rcases member with linked | rfl
    · exact .inl (mem_link linked)
    · exact .inr rfl

theorem root_attach (hierarchy : PipelineHierarchy) (parent : Int) (child : HierarchyEntry) :
    (hierarchy.attach parent child).root = hierarchy.root := by
  rw [attach]
  split <;> rfl

/-- A hierarchy with the same root and, up to their links, all entries of another one. -/
def Keeps (final hierarchy : PipelineHierarchy) : Prop :=
  final.root = hierarchy.root ∧
    ∀ entry ∈ hierarchy.entries, ∃ later ∈ final.entries, later.bare = entry.bare

namespace Keeps

variable {final between : PipelineHierarchy}

theorem refl (hierarchy : PipelineHierarchy) : hierarchy.Keeps hierarchy :=
  ⟨rfl, fun entry member => ⟨entry, member, rfl⟩⟩

theorem trans (later : final.Keeps between) (earlier : between.Keeps hierarchy) :
    final.Keeps hierarchy := by
  refine ⟨later.1.trans earlier.1, fun entry member => ?_⟩
  obtain ⟨midway, inside, same⟩ := earlier.2 entry member
  obtain ⟨last, isLast, same'⟩ := later.2 midway inside
  exact ⟨last, isLast, same'.trans same⟩

/-- No reference is lost. -/
theorem exists_mem_pending (keeps : final.Keeps hierarchy) {pending : PendingPipeline}
    (member : entry ∈ hierarchy.entries) (started : pending ∈ entry.pending) :
    ∃ later ∈ final.entries, later.id = entry.id ∧ pending ∈ later.pending := by
  obtain ⟨later, inside, same⟩ := keeps.2 entry member
  obtain ⟨sameId, samePending⟩ := HierarchyEntry.same_of_bare same
  rw [← samePending] at started
  exact ⟨later, inside, sameId, started⟩

end Keeps

/-- Attaching changes no entry but in its links. -/
theorem keeps_attach (hierarchy : PipelineHierarchy) (parent : Int) (child : HierarchyEntry) :
    (hierarchy.attach parent child).Keeps hierarchy := by
  refine ⟨root_attach hierarchy parent child, fun entry member => ?_⟩
  cases accepted : hierarchy.accepts parent child with
  | false =>
    rw [attach_of_not_accepts accepted]
    exact ⟨entry, member, rfl⟩
  | true =>
    rw [attach_of_accepts accepted]
    refine ⟨_, List.mem_append_left _ (List.mem_map_of_mem member), ?_⟩
    split <;> rfl

/-- Attaching takes no pipeline out of the hierarchy. -/
theorem contains_attach_of_contains (known : hierarchy.contains id = true) :
    (hierarchy.attach parent child).contains id = true := by
  cases accepted : hierarchy.accepts parent child with
  | false => rw [attach_of_not_accepts accepted, known]
  | true =>
    rw [← contains_link hierarchy parent child.id] at known
    obtain ⟨entry, member, same⟩ := contains_iff.mp known
    rw [contains_iff, attach_of_accepts accepted]
    exact ⟨entry, List.mem_append_left _ member, same⟩

/-- Below a known parent an attached pipeline is part of the hierarchy afterwards, be it that it
was part of it before. -/
theorem contains_attach_self (child : HierarchyEntry) (known : hierarchy.contains parent = true) :
    (hierarchy.attach parent child).contains child.id = true := by
  cases present : hierarchy.contains child.id with
  | true => exact contains_attach_of_contains present
  | false =>
    have accepted : hierarchy.accepts parent child = true := by
      rw [accepts, known, present]
      rfl
    exact contains_of_mem (mem_attach_of_accepts accepted)

end PipelineHierarchy

/-! ### The steps of the walk -/

/-- Where the walk over bridges stands. -/
structure WalkState where
  hierarchy : PipelineHierarchy
  errors : List SyncError
  pending : List PendingPipeline

/-- One step of the walk: what becomes of the first of the pipelines to be looked up. -/
inductive WalkStep (answers : FixedReplies) (allowance : Nat) : WalkState → WalkState → Prop
  | known {hierarchy : PipelineHierarchy} {errors : List SyncError} {next : PendingPipeline}
      {rest : List PendingPipeline} (present : hierarchy.contains next.reference.id = true) :
      WalkStep answers allowance ⟨hierarchy, errors, next :: rest⟩ ⟨hierarchy, errors, rest⟩
  | missing {hierarchy : PipelineHierarchy} {errors : List SyncError} {next : PendingPipeline}
      {rest : List PendingPipeline} (absent : hierarchy.contains next.reference.id = false)
      (looked : Attempt.value? answers (fetchPending allowance next) = some (.ok none)) :
      WalkStep answers allowance ⟨hierarchy, errors, next :: rest⟩ ⟨hierarchy, errors, rest⟩
  | found {hierarchy : PipelineHierarchy} {errors : List SyncError} {next : PendingPipeline}
      {rest : List PendingPipeline} {child : HierarchyEntry}
      (absent : hierarchy.contains next.reference.id = false)
      (looked : Attempt.value? answers (fetchPending allowance next) = some (.ok (some child))) :
      WalkStep answers allowance ⟨hierarchy, errors, next :: rest⟩
        ⟨hierarchy.attach next.parent child, errors, rest ++ child.pending⟩
  | failed {hierarchy : PipelineHierarchy} {errors : List SyncError} {next : PendingPipeline}
      {rest : List PendingPipeline} {error : SyncError}
      (absent : hierarchy.contains next.reference.id = false)
      (looked : Attempt.value? answers (fetchPending allowance next) = some (.error error))
      (goesOn : error.isCancelled = false) :
      WalkStep answers allowance ⟨hierarchy, errors, next :: rest⟩
        ⟨hierarchy, errors ++ [error], rest⟩

section Walk

variable {answers : FixedReplies} {allowance : Nat}

/-- A walk that returned has taken steps until nothing was left to be looked up. -/
theorem steps_of_followBridges {steps : Nat} {hierarchy final : PipelineHierarchy}
    {errors failures : List SyncError} {pending : List PendingPipeline}
    (walked : Attempt.value? answers (followBridges steps allowance hierarchy errors pending) =
      some (.ok (final, failures))) :
    Relation.ReflTransGen (WalkStep answers allowance) ⟨hierarchy, errors, pending⟩
      ⟨final, failures, []⟩ := by
  induction steps generalizing hierarchy errors pending with
  | zero =>
    cases pending with
    | nil =>
      cases walked
      exact .refl
    | cons next rest => cases walked
  | succ steps inductionHypothesis =>
    cases pending with
    | nil =>
      cases walked
      exact .refl
    | cons next rest =>
      rw [followBridges] at walked
      split at walked
      · next present => exact .head (.known present) (inductionHypothesis walked)
      · next unknown =>
        have absent := Bool.eq_false_iff.mpr unknown
        obtain ⟨outcome, looked, returned⟩ := Attempt.ok_of_value?_bind walked
        rw [Attempt.value?_outcome] at looked
        obtain ⟨found, lookedUp, same⟩ := Option.map_eq_some_iff.mp looked
        cases same
        split at returned
        · exact .head (.missing absent lookedUp) (inductionHypothesis returned)
        · exact .head (.found absent lookedUp) (inductionHypothesis returned)
        · split at returned
          · cases returned
          · next goesOn =>
            exact .head (.failed absent lookedUp (Bool.eq_false_iff.mpr goesOn))
              (inductionHypothesis returned)

/-- What every step preserves holds of the end of a walk if it holds of its beginning. -/
theorem invariant_of_steps {invariant : WalkState → Prop}
    (preserved : ∀ state after, WalkStep answers allowance state after → invariant state →
      invariant after) {state final : WalkState}
    (steps : Relation.ReflTransGen (WalkStep answers allowance) state final)
    (start : invariant state) : invariant final := by
  induction steps with
  | refl => exact start
  | tail _ step inductionHypothesis => exact preserved _ _ step inductionHypothesis

/-! ### What the walk covers -/

/-- A bridge for which a hierarchy has nothing left to do. -/
def Settled (answers : FixedReplies) (hierarchy : PipelineHierarchy) (pending : PendingPipeline) :
    Prop :=
  hierarchy.contains pending.reference.id = true ∨
    ∀ child, Leads answers pending child → hierarchy.contains child.id = true

theorem Settled.of_contains {before after : PipelineHierarchy} {pending : PendingPipeline}
    (kept : ∀ id, before.contains id = true → after.contains id = true)
    (settled : Settled answers before pending) : Settled answers after pending := by
  rcases settled with present | led
  · exact .inl (kept _ present)
  · exact .inr fun child leads => kept _ (led child leads)

/-- What holds of the hierarchy throughout the walk. Its entries are sound, and so are those that
the bridges still to be followed belong to; and as long as nothing failed, every bridge of an
entry is either still to be followed or settled. -/
structure Covers (answers : FixedReplies) (sound : HierarchyEntry → Prop) (root : Int)
    (state : WalkState) : Prop where
  entries : ∀ entry ∈ state.hierarchy.entries, sound entry.bare
  origins : ∀ pending ∈ state.pending, ∃ entry, sound entry ∧ pending ∈ entry.pending ∧
    state.hierarchy.contains entry.id = true
  settled : state.errors = [] → ∀ entry ∈ state.hierarchy.entries, ∀ pending ∈ entry.pending,
    pending ∈ state.pending ∨ Settled answers state.hierarchy pending
  root : state.hierarchy.root = root ∧ state.hierarchy.contains root = true

variable {sound : HierarchyEntry → Prop} {root : Int}

/-- A step that leaves the hierarchy as it is has to settle the pipeline it is about. -/
theorem Covers.pop {hierarchy : PipelineHierarchy} {errors errors' : List SyncError}
    {next : PendingPipeline} {rest : List PendingPipeline}
    (covers : Covers answers sound root ⟨hierarchy, errors, next :: rest⟩)
    (settles : errors' = [] → errors = [] ∧ Settled answers hierarchy next) :
    Covers answers sound root ⟨hierarchy, errors', rest⟩ where
  entries := covers.entries
  origins := fun pending member => covers.origins pending (List.mem_cons_of_mem _ member)
  settled := by
    intro noErrors entry member pending bridge
    obtain ⟨before, nextSettled⟩ := settles noErrors
    rcases covers.settled before entry member pending bridge with queued | settled
    · rcases List.mem_cons.mp queued with rfl | later
      · exact .inr nextSettled
      · exact .inl later
    · exact .inr settled
  root := covers.root

/-- A step that attaches a pipeline settles the bridge that led to it. -/
theorem Covers.attach {hierarchy : PipelineHierarchy} {errors : List SyncError}
    {next : PendingPipeline} {rest : List PendingPipeline} {child : HierarchyEntry}
    (covers : Covers answers sound root ⟨hierarchy, errors, next :: rest⟩)
    (leads : Leads answers next child) (childSound : sound child) :
    Covers answers sound root
      ⟨hierarchy.attach next.parent child, errors, rest ++ child.pending⟩ := by
  have kept : ∀ id, hierarchy.contains id = true →
      (hierarchy.attach next.parent child).contains id = true :=
    fun _ known => PipelineHierarchy.contains_attach_of_contains known
  obtain ⟨parent, _, origin, present⟩ := covers.origins next List.mem_cons_self
  rw [← HierarchyEntry.parent_of_mem_pending origin] at present
  have attached := PipelineHierarchy.contains_attach_self child present
  have settledNext : Settled answers (hierarchy.attach next.parent child) next :=
    .inr fun other leads' => by rw [← leads.unique leads', attached]
  refine ⟨?_, ?_, ?_, ?_⟩
  · intro entry member
    rcases PipelineHierarchy.mem_attach member with ⟨former, inside, same⟩ | rfl
    · rw [same]
      exact covers.entries former inside
    · rw [leads.bare_eq]
      exact childSound
  · intro pending member
    rcases List.mem_append.mp member with later | own
    · obtain ⟨entry, isSound, bridge, inside⟩ :=
        covers.origins pending (List.mem_cons_of_mem _ later)
      exact ⟨entry, isSound, bridge, kept _ inside⟩
    · exact ⟨child, childSound, own, attached⟩
  · intro noErrors entry member pending bridge
    rcases PipelineHierarchy.mem_attach member with ⟨former, inside, same⟩ | rfl
    · rw [← entry.bare_pending, same, former.bare_pending] at bridge
      rcases covers.settled noErrors former inside pending bridge with queued | settled
      · rcases List.mem_cons.mp queued with rfl | later
        · exact .inr settledNext
        · exact .inl (List.mem_append_left _ later)
      · exact .inr (settled.of_contains kept)
    · exact .inl (List.mem_append_right _ bridge)
  · refine ⟨?_, kept _ covers.root.2⟩
    exact (PipelineHierarchy.root_attach hierarchy next.parent child).trans covers.root.1

/-- Every step of the walk keeps what holds of the hierarchy. -/
theorem Covers.step
    (closed : ∀ entry, sound entry → ∀ pending ∈ entry.pending, ∀ child,
      Leads answers pending child → sound child)
    {state after : WalkState} (step : WalkStep answers allowance state after)
    (covers : Covers answers sound root state) : Covers answers sound root after := by
  cases step with
  | known present => exact covers.pop fun before => ⟨before, .inl present⟩
  | missing _ looked =>
    refine covers.pop fun before => ⟨before, .inr fun child leads => ?_⟩
    cases (leads_iff_of_fetchPending looked child).mp leads
  | found _ looked =>
    have leads := (leads_iff_of_fetchPending looked _).mpr rfl
    obtain ⟨entry, isSound, bridge, _⟩ := covers.origins _ List.mem_cons_self
    exact covers.attach leads (closed entry isSound _ bridge _ leads)
  | failed =>
    refine covers.pop fun noErrors => absurd noErrors ?_
    exact List.append_ne_nil_of_right_ne_nil _ (List.cons_ne_nil _ _)

/-- A hierarchy that holds its root only, with the bridges of the root still to be followed. -/
theorem Covers.start {entry : HierarchyEntry} (isBare : entry.bare = entry)
    (rootSound : sound entry) :
    Covers answers sound entry.id ⟨.ofRoot entry, [], entry.pending⟩ := by
  have present : (PipelineHierarchy.ofRoot entry).contains entry.id = true :=
    PipelineHierarchy.contains_of_mem List.mem_cons_self
  refine ⟨?_, fun pending bridge => ⟨entry, rootSound, bridge, present⟩, ?_, rfl, present⟩
  · intro other member
    rw [List.mem_singleton.mp member, isBare]
    exact rootSound
  · intro _ other member pending bridge
    rw [List.mem_singleton.mp member] at bridge
    exact .inl bridge

/-- A root that was fetched and can be converted has an entry. -/
theorem exists_loads_of_fetchHierarchy {projectId : Int} {path : String} {node : PipelineNode}
    {result : Option PipelineHierarchy × List SyncError}
    (fetched : Attempt.value? answers (fetchHierarchy allowance projectId path node) =
      some (.ok result)) {pipeline : Pipeline}
    (converts : node.toPipeline projectId path = .ok pipeline) :
    ∃ entry, Loads answers projectId path node entry := by
  obtain ⟨_, looked, _⟩ := Attempt.ok_of_value?_bind fetched
  exact exists_loads_of_fetchEntry looked converts

/-- The hierarchy that is returned for a root is what the walk from its bridges comes to, and there
is none only where the root cannot be converted. -/
theorem steps_of_fetchHierarchy {projectId : Int} {path : String} {node : PipelineNode}
    {found : Option PipelineHierarchy} {failures : List SyncError}
    (fetched : Attempt.value? answers (fetchHierarchy allowance projectId path node) =
      some (.ok (found, failures))) :
    (found = none ∧ ∀ entry, ¬ Loads answers projectId path node entry) ∨
      ∃ hierarchy entry, found = some hierarchy ∧ Loads answers projectId path node entry ∧
        Relation.ReflTransGen (WalkStep answers allowance) ⟨.ofRoot entry, [], entry.pending⟩
          ⟨hierarchy, failures, []⟩ := by
  obtain ⟨loaded, looked, returned⟩ := Attempt.ok_of_value?_bind fetched
  have loads := loads_iff_of_fetchEntry looked
  cases loaded with
  | none =>
    cases returned
    exact .inl ⟨rfl, fun entry isLoaded => nomatch (loads entry).mp isLoaded⟩
  | some entry =>
    obtain ⟨⟨hierarchy, errors⟩, walked, returned⟩ := Attempt.ok_of_value?_bind returned
    cases returned
    exact .inr ⟨hierarchy, entry, rfl, (loads entry).mpr rfl, steps_of_followBridges walked⟩

/-- The hierarchy that is returned for a root covers what its bridges lead to. -/
theorem covers_of_fetchHierarchy
    (closed : ∀ entry, sound entry → ∀ pending ∈ entry.pending, ∀ child,
      Leads answers pending child → sound child)
    {projectId : Int} {path : String} {node : PipelineNode}
    (rootSound : ∀ entry, Loads answers projectId path node entry → sound entry)
    {found : Option PipelineHierarchy} {failures : List SyncError}
    (fetched : Attempt.value? answers (fetchHierarchy allowance projectId path node) =
      some (.ok (found, failures))) :
    (found = none ∧ ∀ entry, ¬ Loads answers projectId path node entry) ∨
      ∃ hierarchy entry, found = some hierarchy ∧ Loads answers projectId path node entry ∧
        Covers answers sound entry.id ⟨hierarchy, failures, []⟩ := by
  rcases steps_of_fetchHierarchy fetched with none | ⟨hierarchy, entry, same, loads, steps⟩
  · exact .inl none
  · exact .inr ⟨hierarchy, entry, same, loads, invariant_of_steps
      (fun _ _ step covers => covers.step closed step) steps
      (Covers.start loads.bare_eq (rootSound entry loads))⟩

/-! ### The end of the walk -/

/-- A walk depends on nothing but what looking up its references returns. -/
theorem followBridges_congr {answers' : FixedReplies}
    (same : ∀ pending, Attempt.value? answers (fetchPending allowance pending) =
      Attempt.value? answers' (fetchPending allowance pending))
    (steps : Nat) (hierarchy : PipelineHierarchy) (errors : List SyncError)
    (pending : List PendingPipeline) :
    Attempt.value? answers (followBridges steps allowance hierarchy errors pending) =
      Attempt.value? answers' (followBridges steps allowance hierarchy errors pending) := by
  induction steps generalizing hierarchy errors pending with
  | zero =>
    cases pending with
    | nil => rw [followBridges, Attempt.value?_pure, Attempt.value?_pure]
    | cons next rest =>
      show Attempt.value? answers Attempt.stalled = Attempt.value? answers' Attempt.stalled
      rw [Attempt.value?_stalled, Attempt.value?_stalled]
  | succ steps inductionHypothesis =>
    cases pending with
    | nil => rw [followBridges, Attempt.value?_pure, Attempt.value?_pure]
    | cons next rest =>
      rw [followBridges]
      split
      · exact inductionHypothesis _ _ _
      · refine Attempt.value?_bind_congr ?_ fun outcome => ?_
        · rw [Attempt.value?_outcome, Attempt.value?_outcome, same]
        · split
          · exact inductionHypothesis _ _ _
          · exact inductionHypothesis _ _ _
          · split
            · rw [Attempt.value?_throw, Attempt.value?_throw]
            · exact inductionHypothesis _ _ _

/-- How many bridges the pipelines that are not yet part of a hierarchy can add to the walk. The
pipelines are given by their ids, each with a bound on its bridges. -/
def bridgesAhead (hierarchy : PipelineHierarchy) : List (Int × Nat) → Nat
  | [] => 0
  | pipeline :: known =>
    (if hierarchy.contains pipeline.1 then 0 else pipeline.2) + bridgesAhead hierarchy known

section Ahead

variable {before after : PipelineHierarchy}

/-- A hierarchy that has grown has no more bridges ahead. -/
theorem ahead_le (kept : ∀ id, before.contains id = true → after.contains id = true)
    (pipeline : Int × Nat) :
    (if after.contains pipeline.1 then 0 else pipeline.2) ≤
      if before.contains pipeline.1 then 0 else pipeline.2 := by
  split
  · exact Nat.zero_le _
  · next absent =>
    exact Nat.le_of_eq (if_neg fun present => absent (kept _ present)).symm

theorem bridgesAhead_le (kept : ∀ id, before.contains id = true → after.contains id = true)
    (known : List (Int × Nat)) : bridgesAhead after known ≤ bridgesAhead before known := by
  induction known with
  | nil => exact Nat.le_refl _
  | cons pipeline rest inductionHypothesis =>
    rw [bridgesAhead, bridgesAhead]
    exact Nat.add_le_add (ahead_le kept pipeline) inductionHypothesis

/-- A pipeline that becomes part of the hierarchy cannot add its bridges a second time. -/
theorem bridgesAhead_of_new (kept : ∀ id, before.contains id = true → after.contains id = true)
    {known : List (Int × Nat)} {pipeline : Int × Nat} (member : pipeline ∈ known)
    (absent : before.contains pipeline.1 = false) (present : after.contains pipeline.1 = true) :
    bridgesAhead after known + pipeline.2 ≤ bridgesAhead before known := by
  induction known with
  | nil => cases member
  | cons other rest inductionHypothesis =>
    rw [bridgesAhead, bridgesAhead]
    rcases List.mem_cons.mp member with rfl | later
    · have others := bridgesAhead_le kept rest
      rw [present, absent, if_pos rfl, if_neg Bool.false_ne_true]
      omega
    · have others := inductionHypothesis later
      have first := ahead_le kept other
      omega

end Ahead

/-- What a walk needs in order to come to an end: looking up a reference always returns, what it
returns is the pipeline that the reference names and one of finitely many, and the same holds for
the references of that pipeline. -/
structure WalkEnds (answers : FixedReplies) (allowance : Nat) (known : List (Int × Nat))
    (faithful : PendingPipeline → Prop) : Prop where
  returns : ∀ pending, faithful pending → Finishes answers (fetchPending allowance pending)
  found : ∀ pending child, faithful pending →
    Attempt.value? answers (fetchPending allowance pending) = some (.ok (some child)) →
      child.id = pending.reference.id ∧
        (∃ bridges, (child.id, bridges) ∈ known ∧ child.pending.length ≤ bridges) ∧
        ∀ pending' ∈ child.pending, faithful pending'

section Ending

variable {known : List (Int × Nat)} {faithful : PendingPipeline → Prop}
  {hierarchy : PipelineHierarchy}

/-- A pipeline that is found adds no more bridges to the walk than it takes from those ahead. -/
theorem WalkEnds.attach (ends : WalkEnds answers allowance known faithful)
    {next : PendingPipeline} {rest : List PendingPipeline} {child : HierarchyEntry}
    (absent : hierarchy.contains next.reference.id = false)
    (looked : Attempt.value? answers (fetchPending allowance next) = some (.ok (some child)))
    (all : ∀ later ∈ next :: rest, faithful later ∧ hierarchy.contains later.parent = true) :
    (∀ later ∈ rest ++ child.pending, faithful later ∧
        (hierarchy.attach next.parent child).contains later.parent = true) ∧
      (rest ++ child.pending).length + bridgesAhead (hierarchy.attach next.parent child) known ≤
        rest.length + bridgesAhead hierarchy known := by
  obtain ⟨isFaithful, parentKnown⟩ := all next List.mem_cons_self
  obtain ⟨named, ⟨bridges, member, bound⟩, faithfulBelow⟩ :=
    ends.found next child isFaithful looked
  have kept : ∀ id, hierarchy.contains id = true →
      (hierarchy.attach next.parent child).contains id = true :=
    fun _ present => PipelineHierarchy.contains_attach_of_contains present
  have attached := PipelineHierarchy.contains_attach_self child parentKnown
  constructor
  · intro later inside
    rcases List.mem_append.mp inside with queued | own
    · obtain ⟨laterFaithful, laterKnown⟩ := all later (List.mem_cons_of_mem next queued)
      exact ⟨laterFaithful, kept _ laterKnown⟩
    · rw [HierarchyEntry.parent_of_mem_pending own]
      exact ⟨faithfulBelow later own, attached⟩
  · rw [← named] at absent
    have less := bridgesAhead_of_new kept member absent attached
    rw [List.length_append]
    omega

/-- A walk with enough steps for the bridges it has before it returns. -/
theorem followBridges_returns (ends : WalkEnds answers allowance known faithful) {steps : Nat}
    {errors : List SyncError} {pending : List PendingPipeline}
    (all : ∀ next ∈ pending, faithful next ∧ hierarchy.contains next.parent = true)
    (enough : pending.length + bridgesAhead hierarchy known ≤ steps) :
    ∃ final, Attempt.value? answers (followBridges steps allowance hierarchy errors pending) =
      some (.ok final) := by
  induction steps generalizing hierarchy errors pending with
  | zero =>
    have nothing : pending = [] := List.length_eq_zero_iff.mp (by omega)
    subst nothing
    exact ⟨_, rfl⟩
  | succ steps inductionHypothesis =>
    cases pending with
    | nil => exact ⟨_, rfl⟩
    | cons next rest =>
      rw [List.length_cons] at enough
      obtain ⟨isFaithful, _⟩ := all next List.mem_cons_self
      have others := fun later member => all later (List.mem_cons_of_mem next member)
      rw [followBridges]
      split
      · exact inductionHypothesis others (by omega)
      · next unknown =>
        obtain ⟨outcome, looked, notCancelled⟩ := ends.returns next isFaithful
        have lookedUp : Attempt.value? answers (fetchPending allowance next).outcome =
            some (.ok outcome) := by
          rw [Attempt.value?_outcome, looked]
          rfl
        rw [Attempt.value?_bind_ok lookedUp]
        cases outcome with
        | error error =>
          simp only
          rw [notCancelled error rfl, if_neg Bool.false_ne_true]
          exact inductionHypothesis others (by omega)
        | ok found =>
          cases found with
          | none => exact inductionHypothesis others (by omega)
          | some child =>
            obtain ⟨after, fewer⟩ := ends.attach (Bool.eq_false_iff.mpr unknown) looked all
            exact inductionHypothesis after (by omega)

end Ending

end Walk

end CiTelemetry
