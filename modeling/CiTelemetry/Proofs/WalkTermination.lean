/-
This file proves when the walk over bridges comes to an end. Looking up one
pipeline always does if the jobs of every pipeline and the artifacts of every job
are on finitely many pages. A lookup that finds a new pipeline is one of finitely
many, and one that finds none is done with; but a reference may lead to another
pipeline than the one it names, and where that one is already part of the
hierarchy, nothing is gained and its bridges are followed once more. The walk
ends if one cannot be led astray like this without end, and need not otherwise.
-/

import CiTelemetry.Proofs.BridgeWalk
import CiTelemetry.Proofs.CallOrder
import CiTelemetry.Proofs.PipelineCoverage
import Mathlib.Data.Set.Finite.Basic
import Mathlib.Logic.Hydra

namespace CiTelemetry

/-! ### Attempts that end -/

/-- An attempt that ends with an outcome after some calls. -/
structure Ends {Op : Type} {Reply : Op → Type} {α : Type} (answers : (op : Op) → Reply op)
    (attempt : Attempt Op Reply α) (outcome : Outcome α) (calls : List Op) : Prop where
  value : attempt.value? answers = some outcome
  made : attempt.calls answers = calls

namespace Ends

variable {Op : Type} {Reply : Op → Type} {α β : Type} {answers : (op : Op) → Reply op}
  {attempt : Attempt Op Reply α} {result : Outcome α} {calls more : List Op}

theorem pure (value : α) : Ends answers (Pure.pure value : Attempt Op Reply α) (Except.ok value) [] :=
  ⟨rfl, rfl⟩

theorem throw (error : SyncError) :
    Ends answers (MonadExcept.throw error : Attempt Op Reply α) (Except.error error) [] :=
  ⟨rfl, rfl⟩

theorem bind {value : α} {next : α → Attempt Op Reply β} {result' : Outcome β}
    (first : Ends answers attempt (.ok value) calls)
    (second : Ends answers (next value) result' more) :
    Ends answers (attempt >>= next) result' (calls ++ more) := by
  constructor
  · rw [Attempt.value?_bind_ok first.value, second.value]
  · rw [Attempt.calls_bind_ok first.value, first.made, second.made]

theorem bind_error {error : SyncError} (failed : Ends answers attempt (.error error) calls)
    (next : α → Attempt Op Reply β) : Ends answers (attempt >>= next) (.error error) calls := by
  constructor
  · rw [Attempt.value?_bind, failed.value]
  · rw [Attempt.calls_bind_error failed.value, failed.made]

/-- Taking the outcome of an attempt makes no further calls. -/
theorem outcome (ends : Ends answers attempt result calls) :
    Ends answers attempt.outcome (.ok result) calls := by
  constructor
  · rw [Attempt.value?_outcome, ends.value]
    rfl
  · have whole := Dialogue.asked_bind answers attempt.run fun result =>
      .done (Except.ok result : Outcome (Outcome α))
    rw [← Attempt.value?, ends.value] at whole
    exact (whole.trans (List.append_nil _)).trans ends.made

/-- A composed attempt that returned has returned in both of its parts. -/
theorem of_bind_ok {value : β} {next : α → Attempt Op Reply β}
    (ends : Ends answers (attempt >>= next) (.ok value) calls) :
    ∃ found front back, Ends answers attempt (.ok found) front ∧
      Ends answers (next found) (.ok value) back ∧ calls = front ++ back := by
  obtain ⟨found, first, second⟩ := Attempt.ok_of_value?_bind ends.value
  refine ⟨found, attempt.calls answers, (next found).calls answers, ⟨first, rfl⟩, ⟨second, rfl⟩, ?_⟩
  rw [← ends.made, Attempt.calls_bind_ok first]

/-- An attempt whose outcome was taken has ended with it. -/
theorem of_outcome (ends : Ends answers attempt.outcome (.ok result) calls) :
    Ends answers attempt result calls := by
  have value := ends.value
  rw [Attempt.value?_outcome] at value
  obtain ⟨_, returned, same⟩ := Option.map_eq_some_iff.mp value
  cases same
  have whole : Ends answers attempt result (attempt.calls answers) := ⟨returned, rfl⟩
  rwa [← ends.made, whole.outcome.made]

end Ends

theorem Performs.ends {Op : Type} {Reply : Op → Type} {α : Type} {answers : (op : Op) → Reply op}
    {failure? : Op → Option SyncError} {attempt : Attempt Op Reply α} {calls : List Op} {value : α}
    (performs : Performs answers failure? attempt calls value) :
    Ends answers attempt (resultOfCalls failure? calls value) (upToFailure failure? calls) :=
  ⟨performs.result, performs.made⟩

/-! ### Looking up one pipeline -/

/-- The failure with which the server answers a question, if it does. -/
def serverFailure? (answers : FixedReplies) : Action → Option SyncError
  | .query asked => (answers (.query asked)).failure?
  | _ => none

/-- A pipeline whose jobs are on finitely many pages, and so are the artifacts of each of them. A
page that cannot be had may break off either. -/
def FiniteJobs (answers : FixedReplies) (path : String) (node : PipelineNode) : Prop :=
  ∃ pages, StretchAfter (jobTable answers path node.iid) node.jobPage pages ∧
    ∀ job ∈ allItems (node.jobPage :: pages),
      ∃ pages, StretchAfter (artifactTable answers path job) job.artifactPage pages

theorem PageChain.stretch {α : Type} {table : PageTable α} {cursor : Option String}
    {pages : List (Page α)} (chain : PageChain table cursor pages) :
    PageStretch table cursor pages none := by
  induction chain with
  | last answered ends => exact .last answered ends
  | more answered continues _ inductionHypothesis =>
    exact .more answered continues inductionHypothesis

theorem PagesAfter.stretch {α : Type} {table : PageTable α} {first : Page α} {rest : List (Page α)}
    (after : PagesAfter table first rest) : StretchAfter table first rest := by
  cases after with
  | none ends => exact .none ends
  | some continues chain => exact .some continues chain.stretch

section Lookups

variable {answers : FixedReplies} {path : String} {node : PipelineNode}

/-- A pipeline that can be loaded is on finitely many pages. -/
theorem Loads.finiteJobs {projectId : Int} {entry : HierarchyEntry}
    (loads : Loads answers projectId path node entry) : FiniteJobs answers path node := by
  cases loads with
  | intro _ drained completed =>
    obtain ⟨pages, after, rfl⟩ := drained
    refine ⟨pages, after.stretch, fun job member => ?_⟩
    obtain ⟨whole, _, rfl, others, afterJob, _⟩ := exists_of_forall₂ completed member
    exact ⟨others, afterJob.stretch⟩

theorem oneCall_jobs (answers : FixedReplies) (path iid : String) :
    OneCall answers (serverFailure? answers)
      (fun cursor => Fetch.query (.pipelineJobs path iid cursor))
      (fun cursor => .query (.pipelineJobs path iid cursor)) (jobTable answers path iid) :=
  ⟨fun _ => rfl, fun _ => rfl, fun _ => rfl⟩

theorem oneCall_artifacts (answers : FixedReplies) (path : String) (job : JobNode) :
    OneCall answers (serverFailure? answers)
      (fun cursor => Fetch.query (.jobArtifacts path (job.id.getD "") cursor))
      (fun cursor => .query (.jobArtifacts path (job.id.getD "") cursor))
      (artifactTable answers path job) :=
  ⟨fun _ => rfl, fun _ => rfl, fun _ => rfl⟩

theorem fetchArtifacts_performs {jobs : List JobNode}
    (finite : ∀ job ∈ jobs,
      ∃ pages, StretchAfter (artifactTable answers path job) job.artifactPage pages) :
    ∃ calls complete enough, ∀ allowance, enough ≤ allowance →
      Performs answers (serverFailure? answers) (fetchArtifacts allowance path jobs) calls
        complete := by
  induction jobs with
  | nil => exact ⟨[], [], 0, fun _ _ => Performs.pure []⟩
  | cons job rest inductionHypothesis =>
    obtain ⟨⟨pages, after⟩, others⟩ := List.forall_mem_cons.mp finite
    obtain ⟨calls, complete, enough, performs⟩ := inductionHypothesis others
    refine ⟨(nextCursors (job.artifactPage :: pages)).map (fun cursor =>
        .query (.jobArtifacts path (job.id.getD "") cursor)) ++ calls,
      ⟨job, allItems (job.artifactPage :: pages)⟩ :: complete, max (pages.length + 1) enough,
      fun allowance isEnough => ?_⟩
    obtain ⟨forOwn, forLater⟩ := max_le_iff.mp isEnough
    have own := performs_drain (oneCall_artifacts answers path job) after forOwn
    have later := performs allowance forLater
    exact own.bind (later.map (⟨job, allItems (job.artifactPage :: pages)⟩ :: ·))

theorem fetchEntry_performs (finite : FiniteJobs answers path node) (projectId : Int) :
    ∃ calls found enough, ∀ allowance, enough ≤ allowance →
      Performs answers (serverFailure? answers) (fetchEntry allowance projectId path node) calls
        found := by
  unfold fetchEntry
  split
  · exact ⟨[], none, 0, fun _ _ => Performs.pure none⟩
  · next pipeline _ =>
    obtain ⟨pages, after, finiteArtifacts⟩ := finite
    obtain ⟨calls, complete, enough, performs⟩ := fetchArtifacts_performs finiteArtifacts
    refine ⟨(nextCursors (node.jobPage :: pages)).map (fun cursor =>
        .query (.pipelineJobs path node.iid cursor)) ++ calls,
      some (.ofJobs pipeline complete), max (pages.length + 1) enough,
      fun allowance isEnough => ?_⟩
    obtain ⟨forJobs, forLater⟩ := max_le_iff.mp isEnough
    have drained := performs_drain (oneCall_jobs answers path node.iid) after forJobs
    have later := performs allowance forLater
    exact drained.bind (later.map fun complete => some (HierarchyEntry.ofJobs pipeline complete))

/-- Looking up a pipeline ends in the same way whatever the allowance is, if only it is large
enough. -/
theorem fetchPending_ends {pending : PendingPipeline}
    (finite : ∀ node,
      answers (.query (.pipeline pending.reference.projectPath pending.reference.iid)) =
          .ok (some node) → FiniteJobs answers pending.reference.projectPath node) :
    ∃ outcome calls enough, ∀ allowance, enough ≤ allowance →
      Ends answers (fetchPending allowance pending) outcome calls := by
  have asked : Ends answers
      (Fetch.query (.pipeline pending.reference.projectPath pending.reference.iid))
      (answers (.query (.pipeline pending.reference.projectPath pending.reference.iid)))
      [.query (.pipeline pending.reference.projectPath pending.reference.iid)] := ⟨rfl, rfl⟩
  unfold fetchPending
  cases answered : answers (.query (.pipeline pending.reference.projectPath pending.reference.iid))
    with
  | error error =>
    rw [answered] at asked
    exact ⟨_, _, 0, fun _ _ => asked.bind_error _⟩
  | ok found =>
    rw [answered] at asked
    cases found with
    | none => exact ⟨_, _, 0, fun _ _ => asked.bind (Ends.pure none)⟩
    | some node =>
      obtain ⟨calls, found, enough, performs⟩ := fetchEntry_performs
        (finite node answered) (pending.reference.projectId.getD pending.parentProject)
      exact ⟨_, _, enough, fun allowance isEnough =>
        asked.bind (performs allowance isEnough).ends⟩

end Lookups

/-! ### Walks that end -/

/-- A walk that ends in the same way whatever its steps and its allowance are, if only they are
large enough. -/
def Terminates (answers : FixedReplies) (state : WalkState) : Prop :=
  ∃ outcome calls enough, ∀ steps allowance, enough ≤ steps → enough ≤ allowance →
    Ends answers (followBridges steps allowance state.hierarchy state.errors state.pending)
      outcome calls

/-- Where a walk stands after a lookup that does not end it. -/
def afterLookup (hierarchy : PipelineHierarchy) (errors : List SyncError) (next : PendingPipeline)
    (rest : List PendingPipeline) : Outcome (Option HierarchyEntry) → WalkState
  | .ok none => ⟨hierarchy, errors, rest⟩
  | .ok (some child) => ⟨hierarchy.attach next.parent child, errors, rest ++ child.pending⟩
  | .error error => ⟨hierarchy, errors ++ [error], rest⟩

section Walks

variable {answers : FixedReplies} {hierarchy : PipelineHierarchy} {errors : List SyncError}
  {next : PendingPipeline} {rest : List PendingPipeline} {steps allowance : Nat}
  {looked : Outcome (Option HierarchyEntry)} {calls : List Action}

theorem walkStep_afterLookup (absent : hierarchy.contains next.reference.id = false)
    (value : Attempt.value? answers (fetchPending allowance next) = some looked)
    (goesOn : ∀ error, looked = .error error → error.isCancelled = false) :
    WalkStep answers allowance ⟨hierarchy, errors, next :: rest⟩
      (afterLookup hierarchy errors next rest looked) := by
  cases looked with
  | error error => exact .failed absent value (goesOn error rfl)
  | ok found =>
    cases found with
    | none => exact .missing absent value
    | some child => exact .found absent value

/-- A walk goes on where the lookup of its next reference left it. -/
theorem followBridges_goesOn (absent : hierarchy.contains next.reference.id = false)
    (ends : Ends answers (fetchPending allowance next) looked calls)
    (goesOn : ∀ error, looked = .error error → error.isCancelled = false)
    {outcome : Outcome (PipelineHierarchy × List SyncError)} {later : List Action}
    (after : Ends answers
      (followBridges steps allowance (afterLookup hierarchy errors next rest looked).hierarchy
        (afterLookup hierarchy errors next rest looked).errors
        (afterLookup hierarchy errors next rest looked).pending) outcome later) :
    Ends answers (followBridges (steps + 1) allowance hierarchy errors (next :: rest)) outcome
      (calls ++ later) := by
  rw [followBridges, absent, if_neg Bool.false_ne_true]
  refine ends.outcome.bind ?_
  cases looked with
  | error error =>
    simp only
    rw [goesOn error rfl, if_neg Bool.false_ne_true]
    exact after
  | ok found =>
    cases found with
    | none => exact after
    | some child => exact after

/-- A walk that returned has gone on where the lookup of its next reference left it. -/
theorem exists_lookup_of_followBridges (absent : hierarchy.contains next.reference.id = false)
    {result : PipelineHierarchy × List SyncError}
    (ends : Ends answers (followBridges (steps + 1) allowance hierarchy errors (next :: rest))
      (.ok result) calls) :
    ∃ looked front back, Ends answers (fetchPending allowance next) looked front ∧
      (∀ error, looked = .error error → error.isCancelled = false) ∧
      Ends answers
        (followBridges steps allowance (afterLookup hierarchy errors next rest looked).hierarchy
          (afterLookup hierarchy errors next rest looked).errors
          (afterLookup hierarchy errors next rest looked).pending) (.ok result) back ∧
      calls = front ++ back := by
  rw [followBridges, absent, if_neg Bool.false_ne_true] at ends
  obtain ⟨looked, front, back, lookedUp, after, rfl⟩ := ends.of_bind_ok
  refine ⟨looked, front, back, lookedUp.of_outcome, ?_, ?_, rfl⟩
  · rintro error rfl
    refine Bool.eq_false_iff.mpr fun cancelled => ?_
    simp only at after
    rw [if_pos cancelled] at after
    cases after.value
  · cases looked with
    | error error =>
      simp only at after
      split at after
      · cases after.value
      · exact after
    | ok found =>
      cases found with
      | none => exact after
      | some child => exact after

/-- A lookup that is cancelled ends the walk. -/
theorem followBridges_cancelled (absent : hierarchy.contains next.reference.id = false)
    {error : SyncError} (ends : Ends answers (fetchPending allowance next) (.error error) calls)
    (cancelled : error.isCancelled = true) :
    Ends answers (followBridges (steps + 1) allowance hierarchy errors (next :: rest))
      (.error error) (calls ++ []) := by
  rw [followBridges, absent, if_neg Bool.false_ne_true]
  refine ends.outcome.bind ?_
  simp only
  rw [if_pos cancelled]
  exact Ends.throw error

/-- A walk that takes at least one step. -/
theorem Terminates.of_succ {state : WalkState}
    (outcome : Outcome (PipelineHierarchy × List SyncError)) (calls : List Action) (enough : Nat)
    (ends : ∀ steps allowance, enough ≤ steps → enough ≤ allowance →
      Ends answers (followBridges (steps + 1) allowance state.hierarchy state.errors state.pending)
        outcome calls) : Terminates answers state := by
  refine ⟨outcome, calls, enough + 1, fun steps allowance enoughSteps isEnough => ?_⟩
  obtain ⟨steps, rfl⟩ : ∃ less, steps = less + 1 := ⟨steps - 1, by omega⟩
  exact ends steps allowance (by omega) (by omega)

/-- A walk ends if every step that it can take leads to one that does. -/
theorem Terminates.of_steps {state : WalkState}
    (looksUp : ∀ pending ∈ state.pending, ∃ outcome calls enough, ∀ allowance,
      enough ≤ allowance → Ends answers (fetchPending allowance pending) outcome calls)
    (goesOn : ∀ allowance after, WalkStep answers allowance state after →
      Terminates answers after) : Terminates answers state := by
  obtain ⟨hierarchy, errors, _ | ⟨next, rest⟩⟩ := state
  · refine ⟨.ok (hierarchy, errors), [], 0, fun steps allowance _ _ => ?_⟩
    rw [followBridges]
    exact Ends.pure (hierarchy, errors)
  cases present : hierarchy.contains next.reference.id with
  | true =>
    obtain ⟨outcome, calls, enough, ends⟩ := goesOn 0 _ (.known present)
    refine .of_succ outcome calls enough fun steps allowance enoughSteps isEnough => ?_
    rw [followBridges, if_pos present]
    exact ends steps allowance enoughSteps isEnough
  | false =>
    obtain ⟨looked, calls, enough, ends⟩ := looksUp next List.mem_cons_self
    have value := (ends enough (Nat.le_refl enough)).value
    by_cases cancelled : ∃ error, looked = .error error ∧ error.isCancelled = true
    · obtain ⟨error, rfl, isCancelled⟩ := cancelled
      exact .of_succ (.error error) (calls ++ []) enough fun steps allowance _ isEnough =>
        followBridges_cancelled present (ends allowance isEnough) isCancelled
    · have notCancelled : ∀ error, looked = .error error → error.isCancelled = false :=
        fun error same => Bool.eq_false_iff.mpr fun reports => cancelled ⟨error, same, reports⟩
      obtain ⟨outcome, later, enough', ends'⟩ :=
        goesOn enough _ (walkStep_afterLookup present value notCancelled)
      refine .of_succ outcome (calls ++ later) (max enough enough')
        fun steps allowance enoughSteps isEnough => ?_
      obtain ⟨forLookup, forWalk⟩ := max_le_iff.mp isEnough
      exact followBridges_goesOn present (ends allowance forLookup) notCancelled
        (ends' steps allowance (max_le_iff.mp enoughSteps).2 forWalk)

end Walks

/-! ### References that lead astray -/

/-- An entry that bridges lead to from that of a pipeline. -/
inductive Bridged (answers : FixedReplies) (root : HierarchyEntry) : HierarchyEntry → Prop
  | root : Bridged answers root root
  | bridge {entry child : HierarchyEntry} {pending : PendingPipeline}
      (parent : Bridged answers root entry) (started : pending ∈ entry.pending)
      (leads : Leads answers pending child) : Bridged answers root child

/-- What bridges lead to from such an entry is one as well. -/
theorem bridged_closed {answers : FixedReplies} {root : HierarchyEntry} (entry : HierarchyEntry)
    (bridged : Bridged answers root entry) :
    ∀ pending ∈ entry.pending, ∀ child, Leads answers pending child → Bridged answers root child :=
  fun _ started _ leads => .bridge bridged started leads

/-- A reference that leads to another pipeline than the one it names, and one of the references of
that pipeline. -/
def LeadsAstray (answers : FixedReplies) (root : HierarchyEntry)
    (later earlier : PendingPipeline) : Prop :=
  ∃ entry child, Bridged answers root entry ∧ earlier ∈ entry.pending ∧
    Leads answers earlier child ∧ child.id ≠ earlier.reference.id ∧ later ∈ child.pending

section Astray

variable {answers : FixedReplies} {root : HierarchyEntry} {known : List (Int × Nat)}
  {state after : WalkState} {allowance : Nat}

/-- What is left of a walk: the pipelines that are not yet part of the hierarchy, and the references
that are still to be followed. -/
def walkMeasure (known : List (Int × Nat)) (state : WalkState) :
    Nat × Multiset PendingPipeline :=
  (bridgesAhead state.hierarchy known, (state.pending : Multiset PendingPipeline))

/-- A reference that is done with leaves the others. -/
theorem cutExpand_tail (next : PendingPipeline) (rest : List PendingPipeline) :
    Relation.CutExpand (LeadsAstray answers root) (rest : Multiset PendingPipeline)
      (next :: rest : List PendingPipeline) := by
  refine ⟨0, next, fun _ member => absurd member (Multiset.notMem_zero _), ?_⟩
  rw [add_zero, ← Multiset.cons_coe, ← Multiset.singleton_add, add_comm]

/-- Every step of a walk leaves less of it. A reference is done with, or a pipeline becomes part of
the hierarchy; where neither is the case, the reference has led astray. -/
theorem walkMeasure_of_step
    (found : ∀ entry, Bridged answers root entry → (entry.id, 1) ∈ known)
    (covers : Covers answers (Bridged answers root) root.id state)
    (step : WalkStep answers allowance state after) :
    Prod.Lex (· < ·) (Relation.CutExpand (LeadsAstray answers root)) (walkMeasure known after)
      (walkMeasure known state) := by
  cases step with
  | known present => exact .right _ (cutExpand_tail _ _)
  | missing absent looked => exact .right _ (cutExpand_tail _ _)
  | failed absent looked goesOn => exact .right _ (cutExpand_tail _ _)
  | @found hierarchy errors next rest child absent looked =>
    have leads := (leads_iff_of_fetchPending looked child).mpr rfl
    obtain ⟨parent, isBridged, started, present⟩ := covers.origins next List.mem_cons_self
    rw [← HierarchyEntry.parent_of_mem_pending started] at present
    cases already : hierarchy.contains child.id with
    | true =>
      -- The pipeline that the reference names is absent, so the one that was found is another.
      have refused : hierarchy.accepts next.parent child = false := by
        rw [PipelineHierarchy.accepts, already, Bool.not_true, Bool.and_false]
      have other : child.id ≠ next.reference.id := by
        intro same
        rw [same, absent] at already
        cases already
      rw [PipelineHierarchy.attach_of_not_accepts refused]
      refine .right _ ⟨child.pending, next,
        fun later member => ⟨parent, child, isBridged, started, leads, other, member⟩, ?_⟩
      rw [← Multiset.coe_add, ← Multiset.cons_coe, ← Multiset.singleton_add]
      rw [add_comm, ← add_assoc]
    | false =>
      have fewer := bridgesAhead_of_new
        (fun _ known => PipelineHierarchy.contains_attach_of_contains known)
        (found child (isBridged.bridge started leads)) already
        (PipelineHierarchy.contains_attach_self child present)
      exact .left _ _ fewer

/-- A walk ends if finitely many pipelines can be found and one cannot be led astray without end.
-/
theorem terminates_of_covers
    (looksUp : ∀ entry, Bridged answers root entry → ∀ pending ∈ entry.pending,
      ∃ outcome calls enough, ∀ allowance, enough ≤ allowance →
        Ends answers (fetchPending allowance pending) outcome calls)
    (finite : {id | ∃ entry, Bridged answers root entry ∧ entry.id = id}.Finite)
    (settles : WellFounded (LeadsAstray answers root))
    (covers : Covers answers (Bridged answers root) root.id state) : Terminates answers state := by
  obtain ⟨known, found⟩ : ∃ known : List (Int × Nat), ∀ entry, Bridged answers root entry →
      (entry.id, 1) ∈ known := by
    refine ⟨finite.toFinset.toList.map (·, 1), fun entry isBridged => ?_⟩
    refine List.mem_map_of_mem (Finset.mem_toList.mpr (finite.mem_toFinset.mpr ?_))
    exact ⟨entry, isBridged, rfl⟩
  have measure := InvImage.wf (walkMeasure known)
    (WellFounded.prod_lex Nat.lt_wfRel.wf settles.cutExpand)
  induction state using measure.induction with
  | h state inductionHypothesis =>
    have looksUpNext : ∀ pending ∈ state.pending, ∃ outcome calls enough, ∀ allowance,
        enough ≤ allowance → Ends answers (fetchPending allowance pending) outcome calls := by
      intro pending member
      obtain ⟨entry, isBridged, started, _⟩ := covers.origins pending member
      exact looksUp entry isBridged pending started
    refine Terminates.of_steps looksUpNext fun allowance after step => ?_
    exact inductionHypothesis after (walkMeasure_of_step found covers step)
      (covers.step bridged_closed step)

/-- A server that finds finitely many pipelines, each with its jobs and their artifacts on finitely
many pages. -/
structure FiniteServer (answers : FixedReplies) : Prop where
  pipelines : {node | ∃ path iid, answers (.query (.pipeline path iid)) = .ok (some node)}.Finite
  jobs : ∀ path iid node, answers (.query (.pipeline path iid)) = .ok (some node) →
    FiniteJobs answers path node

/-- Bridges lead to finitely many pipelines of such a server. -/
theorem FiniteServer.finite_bridged (server : FiniteServer answers) (root : HierarchyEntry) :
    {id | ∃ entry, Bridged answers root entry ∧ entry.id = id}.Finite := by
  refine ((server.pipelines.image fun node =>
    (GlobalId.parse node.id).toOption.getD 0).insert root.id).subset ?_
  rintro _ ⟨entry, isBridged, rfl⟩
  cases isBridged with
  | root => exact .inl rfl
  | bridge _ _ leads =>
    obtain ⟨node, answered, converts, _, _⟩ := leads
    refine .inr ⟨node, ⟨_, _, answered⟩, ?_⟩
    dsimp only
    rw [(toPipeline_eq_ok converts).1]
    rfl

/-- A hierarchy is complete after finitely many calls if its root is and the walk ends. -/
theorem fetchHierarchy_ends_of_walk {projectId : Int} {path : String} {node : PipelineNode}
    (rootJobs : FiniteJobs answers path node)
    (walks : ∀ root, Loads answers projectId path node root →
      Terminates answers ⟨.ofRoot root, [], root.pending⟩) :
    ∃ outcome calls enough, ∀ allowance, enough ≤ allowance →
      Ends answers (fetchHierarchy allowance projectId path node) outcome calls := by
  obtain ⟨calls, found, enough, performs⟩ := fetchEntry_performs rootJobs projectId
  have entry := fun allowance isEnough => (performs allowance isEnough).ends
  generalize resultOfCalls (serverFailure? answers) calls found = result at entry
  unfold fetchHierarchy
  cases result with
  | error error =>
    exact ⟨_, _, enough, fun allowance isEnough => (entry allowance isEnough).bind_error _⟩
  | ok loaded =>
    cases loaded with
    | none =>
      exact ⟨_, _, enough, fun allowance isEnough =>
        (entry allowance isEnough).bind (Ends.pure (none, []))⟩
    | some root =>
      have loads : Loads answers projectId path node root :=
        (loads_iff_of_fetchEntry (entry enough (Nat.le_refl enough)).value root).mpr rfl
      obtain ⟨outcome, later, enough', walk⟩ := walks root loads
      cases outcome with
      | error error =>
        refine ⟨.error error, upToFailure (serverFailure? answers) calls ++ later,
          max enough enough', fun allowance isEnough => ?_⟩
        obtain ⟨forEntry, forWalk⟩ := max_le_iff.mp isEnough
        exact (entry allowance forEntry).bind
          ((walk allowance allowance forWalk forWalk).bind_error _)
      | ok final =>
        refine ⟨.ok (some final.1, final.2),
          upToFailure (serverFailure? answers) calls ++ (later ++ []), max enough enough',
          fun allowance isEnough => ?_⟩
        obtain ⟨forEntry, forWalk⟩ := max_le_iff.mp isEnough
        exact (entry allowance forEntry).bind ((walk allowance allowance forWalk forWalk).bind
          (Ends.pure (some final.1, final.2)))

/-- When the hierarchy of a pipeline is complete after finitely many calls. It is for every server
that finds finitely many pipelines with finitely many jobs, whatever the ids in its answers are,
unless references lead astray without end: each to another pipeline than the one it names, which has
the next reference in turn. -/
theorem fetchHierarchy_ends {projectId : Int} {path : String} {node : PipelineNode}
    (server : FiniteServer answers) (rootJobs : FiniteJobs answers path node)
    (settles : ∀ root, Loads answers projectId path node root →
      WellFounded (LeadsAstray answers root)) :
    ∃ outcome calls enough, ∀ allowance, enough ≤ allowance →
      Ends answers (fetchHierarchy allowance projectId path node) outcome calls := by
  refine fetchHierarchy_ends_of_walk rootJobs fun root loads => ?_
  exact terminates_of_covers (fun _ _ _ _ => fetchPending_ends fun node => server.jobs _ _ node)
    (server.finite_bridged root) (settles root loads) (Covers.start loads.bare_eq Bridged.root)

end Astray

/-! ### A server that finds one pipeline only -/

namespace WalkTermination

open PipelineCoverage

/-- A server that finds the same pipeline whatever it is asked for. -/
def alwaysFinds (found : PipelineNode) : FixedReplies
  | .query (.pipeline _ _) => .ok (some found)
  | .query _ => .error .noData
  | .isCancelled => false
  | .send .. => .ok ()
  | .now => default
  | .waitUntil _ => ()

theorem finiteJobs_starting (answers : FixedReplies) (path : String) :
    FiniteJobs answers path (startingNode none) := by
  refine ⟨[], .none rfl, fun job member => ?_⟩
  rw [allItems_singleton] at member
  cases List.mem_singleton.mp member
  exact ⟨[], .none rfl⟩

/-- A third pipeline, which has no jobs. -/
def otherNode : PipelineNode :=
  pipelineNode "gid://gitlab/Ci::Pipeline/300" "2" none []

theorem finiteJobs_other (answers : FixedReplies) (path : String) :
    FiniteJobs answers path otherNode :=
  ⟨[], .none rfl, fun _ member => nomatch member⟩

theorem finiteServer {found : PipelineNode}
    (finiteJobs : ∀ path, FiniteJobs (alwaysFinds found) path found) : FiniteServer (alwaysFinds found) where
  pipelines := by
    refine (Set.finite_singleton found).subset ?_
    rintro node ⟨_, _, answered⟩
    cases (answered : Except.ok (some found) = _)
    rfl
  jobs := by
    intro path iid node answered
    cases (answered : Except.ok (some found) = _)
    exact finiteJobs path

/-! ### Astray once -/

/-- A pipeline without jobs has no references that could lead anywhere. -/
theorem pending_of_leads {pending : PendingPipeline} {child : HierarchyEntry}
    (leads : Leads (alwaysFinds otherNode) pending child) : child.pending = [] := by
  obtain ⟨node, answered, loads⟩ := leads
  cases (answered : Except.ok (some otherNode) = _)
  cases loads with
  | intro _ drained completed =>
    cases drained.unique ⟨[], .none rfl, rfl⟩
    cases completed
    rfl

end WalkTermination

open PipelineCoverage WalkTermination

/-- The first pipeline names a second one, but looking that up brings a third one, which has no
jobs. -/
theorem walk_once_astray :
    FiniteServer (alwaysFinds otherNode) ∧
      ∃ outcome calls enough, ∀ allowance, enough ≤ allowance →
        Ends (alwaysFinds otherNode) (fetchHierarchy allowance 1 "g/app" (startingNode none)) outcome
          calls := by
  have server : FiniteServer (alwaysFinds otherNode) := finiteServer (finiteJobs_other _)
  refine ⟨server, fetchHierarchy_ends server (finiteJobs_starting _ _) fun root _ => ⟨?_⟩⟩
  refine fun earlier => .intro earlier ?_
  rintro later ⟨_, child, _, _, leads, _, member⟩
  rw [pending_of_leads leads] at member
  cases member

/-! ### Astray without end -/

namespace WalkTermination

/-- The first pipeline names a second one, but looking that up brings the first one again. -/
theorem leads_back (allowance : Nat) :
    Ends (alwaysFinds (startingNode none)) (fetchPending allowance started)
      (.ok (some startingEntry)) [.query (.pipeline "g/app" "2")] :=
  ⟨rfl, rfl⟩

/-- The bridge that was followed is followed again. -/
theorem followBridges_back (steps allowance : Nat) :
    Attempt.value? (alwaysFinds (startingNode none))
        (followBridges steps allowance (.ofRoot startingEntry) [] [started]) = none ∧
      (Attempt.calls (alwaysFinds (startingNode none))
        (followBridges steps allowance (.ofRoot startingEntry) [] [started])).length = steps := by
  induction steps with
  | zero => exact ⟨rfl, rfl⟩
  | succ steps inductionHypothesis =>
    have looked := (leads_back allowance).outcome
    have refused : (PipelineHierarchy.ofRoot startingEntry).attach started.parent startingEntry =
        .ofRoot startingEntry :=
      PipelineHierarchy.attach_of_not_accepts rfl
    have absent : (PipelineHierarchy.ofRoot startingEntry).contains started.reference.id = false :=
      rfl
    rw [followBridges, absent, if_neg Bool.false_ne_true, Attempt.value?_bind_ok looked.value,
      Attempt.calls_bind_ok looked.value, looked.made]
    simp only
    rw [refused, pending_startingEntry, List.nil_append, List.length_append,
      inductionHypothesis.2]
    exact ⟨inductionHypothesis.1, Nat.add_comm _ _⟩

end WalkTermination

/-- A walk that does not end, although there is only one pipeline. Its bridge names a second one
without a project, and looking that up in its own project brings the pipeline itself; this is not
attached again, but its bridge is followed again, with one more call each time. -/
theorem walk_astray_without_end :
    FiniteServer (alwaysFinds (startingNode none)) ∧
      FiniteJobs (alwaysFinds (startingNode none)) "g/app" (startingNode none) ∧
      ∀ allowance,
        Attempt.value? (alwaysFinds (startingNode none))
            (fetchHierarchy allowance 1 "g/app" (startingNode none)) = none ∧
          (Attempt.calls (alwaysFinds (startingNode none))
            (fetchHierarchy allowance 1 "g/app" (startingNode none))).length = allowance := by
  refine ⟨finiteServer (finiteJobs_starting _), finiteJobs_starting _ _, fun allowance => ?_⟩
  have entry : Ends (alwaysFinds (startingNode none))
      (fetchEntry allowance 1 "g/app" (startingNode none)) (.ok (some startingEntry)) [] :=
    ⟨rfl, rfl⟩
  have walked := followBridges_back allowance allowance
  unfold fetchHierarchy
  rw [Attempt.value?_bind_ok entry.value, Attempt.calls_bind_ok entry.value, entry.made,
    List.nil_append]
  simp only
  rw [pending_startingEntry, Attempt.value?_bind, walked.1, Attempt.calls_bind_stalled walked.1]
  exact ⟨rfl, walked.2⟩

end CiTelemetry
