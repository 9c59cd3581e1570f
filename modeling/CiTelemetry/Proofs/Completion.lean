/-
This file proves that the processing of a batch comes to an end. It stalls only
when a walk has used up its allowance, and every step of a walk is paid for: by
a page that was asked for, or by a job that the server told of and whose bridge
the walk follows. A run with fewer turns and jobs than its allowance has an
outcome.
-/

import CiTelemetry.Proofs.Deliveries
import Mathlib.Algebra.BigOperators.Group.List.Basic
import Mathlib.Algebra.GroupWithZero.Nat
import Mathlib.Algebra.Order.BigOperators.Group.List
import Mathlib.Algebra.Order.Group.Nat

namespace CiTelemetry

open Dialogue

/-! ### The weight of a run -/

/-- The jobs that come with a pipeline. -/
def PipelineNode.jobCount (node : PipelineNode) : Nat :=
  node.jobPage.items.length

/-- The jobs that come with pipelines. -/
def jobCount (nodes : List PipelineNode) : Nat :=
  (nodes.map (·.jobCount)).sum

/-- The jobs that the reply of a turn tells of. -/
def Turn.jobs : Turn Action Action.Reply → Nat
  | ⟨.query (.projectsPipelines ..), .ok page⟩ =>
    (page.items.map fun project => jobCount project.pipelinePage.items).sum
  | ⟨.query (.projectPipelines ..), .ok page⟩ => jobCount page.items
  | ⟨.query (.pipeline ..), .ok (some node)⟩ => node.jobCount
  | ⟨.query (.pipelineJobs ..), .ok page⟩ => page.items.length
  | _ => 0

namespace Turns

/-- The turns of a run with the jobs that they tell of. -/
def weight (turns : Turns) : Nat :=
  (turns.map fun turn => turn.jobs + 1).sum

variable {turns turns' : Turns}

theorem weight_append : weight (turns ++ turns') = weight turns + weight turns' := by
  rw [weight, List.map_append, List.sum_append, weight, weight]

theorem weight_le_of_infix {part : Turns} (isInfix : part <:+: turns) :
    weight part ≤ weight turns := by
  obtain ⟨before, after, rfl⟩ := isInfix
  rw [weight_append, weight_append]
  omega

theorem weight_single (turn : Turn Action Action.Reply) : weight [turn] = turn.jobs + 1 := by
  rw [weight, List.map_singleton, List.sum_singleton]

end Turns

variable {α β : Type} {turns : Turns}

/-- A dialogue stalls only in runs of at least some weight. -/
def Endures (bound : Nat) (dialogue : Sync α) : Prop :=
  ∀ ⦃turns : Turns⦄, Held dialogue turns none → bound ≤ turns.weight

namespace Endures

variable {bound : Nat} {dialogue : Sync α}

theorem done (value : α) : Endures bound (.done value) := by
  intro turns held
  cases held

theorem question (op : Action) : Endures bound (Dialogue.question op : Sync op.Reply) := by
  intro turns held
  obtain ⟨_, _, same⟩ := Held.of_question held
  cases same

theorem bind {next : α → Sync β} (first : Endures bound dialogue)
    (second : ∀ value, Endures bound (next value)) : Endures bound (dialogue.bind next) := by
  intro turns held
  rcases Held.of_bind held with ⟨_, stopped⟩ | ⟨value, front, back, rfl, _, latter⟩
  · exact first stopped
  · rw [Turns.weight_append]
    exact (second value latter).trans (Nat.le_add_left _ _)

theorem beside {other : Sync β} (first : Endures bound dialogue) (second : Endures bound other) :
    Endures bound (dialogue.beside other) := by
  intro turns held
  obtain ⟨former, latter, front, back, rfl, isFirst, isSecond, same⟩ := Held.of_beside held
  rw [Turns.weight_append]
  cases former with
  | none => exact (first isFirst).trans (Nat.le_add_right _ _)
  | some value =>
    cases latter with
    | none => exact (second isSecond).trans (Nat.le_add_left _ _)
    | some value' => cases same

theorem bind_attempt {attempt : Fetch α} {next : α → Fetch β} (first : Endures bound attempt.run)
    (second : ∀ value, Endures bound (next value).run) : Endures bound (attempt >>= next).run := by
  refine bind first fun outcome => ?_
  cases outcome with
  | error => exact done _
  | ok value => exact second value

end Endures

/-! ### Calls and pages -/

/-- How many jobs the elements of a page bring. -/
def pageSize (size : α → Nat) (page : Page α) : Nat :=
  (page.items.map size).sum

theorem pageSize_zero (page : Page α) : pageSize (fun _ => 0) page = 0 := by
  simp [pageSize]

theorem pageSize_one (page : Page α) : pageSize (fun _ => 1) page = page.items.length := by
  simp [pageSize]

/-- A fetch that is one call: it takes one turn and does not stall. The jobs that it brings are
told of in that turn. -/
def IsCall (size : α → Nat) (fetch : Fetch α) : Prop :=
  ∀ ⦃turns : Turns⦄ ⦃result : Option (Outcome α)⦄, Held fetch.run turns result →
    result ≠ none ∧ ∀ value, result = some (.ok value) → size value < turns.weight

theorem isCall_query (asked : Query) {size : asked.Answer → Nat}
    (told : ∀ value, size value ≤ Turn.jobs ⟨.query asked, .ok value⟩) :
    IsCall size (Fetch.query asked) := by
  intro turns result held
  obtain ⟨reply, rfl, rfl⟩ := Held.of_question held
  refine ⟨Option.some_ne_none reply, fun value same => ?_⟩
  cases same
  rw [Turns.weight_single]
  exact Nat.lt_succ_of_le (told value)

/-- A call whose elements bring no jobs. -/
theorem isCall_query_zero (asked : Query) {size : asked.Answer → Nat}
    (none : ∀ value, size value = 0) : IsCall size (Fetch.query asked) :=
  isCall_query asked fun value => (none value).symm ▸ Nat.zero_le _

section Pages

variable {size : α → Nat} {source : PageSource Action Action.Reply α}
  (calls : ∀ cursor, IsCall (pageSize size) (source cursor))

include calls

/-- A step of a walk over pages asks for a page, unless the walk is over. -/
theorem held_next? {paginator : Paginator} {result : Option (Outcome (Option (List α × Paginator)))}
    (held : Held (Paginator.next? source paginator).run turns result) :
    result ≠ none ∧ ∀ items rest, result = some (.ok (some (items, rest))) →
      (items.map size).sum < turns.weight := by
  rw [Paginator.next?] at held
  split at held
  · cases held
    exact ⟨Option.some_ne_none _, fun items rest same => nomatch same⟩
  · rcases Attempt.held_bind held with
      ⟨_, stopped⟩ | ⟨error, rfl, failed⟩ | ⟨page, front, back, rfl, former, latter⟩
    · exact absurd rfl (calls _ stopped).1
    · exact ⟨Option.some_ne_none _, fun items rest same => nomatch same⟩
    · cases latter
      refine ⟨Option.some_ne_none _, fun items rest same => ?_⟩
      cases same
      rw [List.append_nil]
      exact (calls _ former).2 page rfl

theorem endures_collect (allowance : Nat) (paginator : Paginator) :
    Endures allowance (Paginator.collect source allowance paginator).run := by
  induction allowance generalizing paginator with
  | zero => exact fun _ _ => Nat.zero_le _
  | succ allowance inductionHypothesis =>
    intro turns held
    rcases Attempt.held_bind_stalled held with
      stopped | ⟨page, front, back, rfl, former, latter⟩
    · exact absurd rfl (held_next? calls stopped).1
    · cases page with
      | none => cases latter
      | some page =>
        have paid := (held_next? calls former).2 page.1 page.2 rfl
        rcases Attempt.held_bind_stalled latter with stopped | ⟨others, _, _, rfl, _, ended⟩
        · have left := inductionHypothesis page.2 stopped
          rw [Turns.weight_append]
          omega
        · cases ended

theorem size_collect {allowance : Nat} {paginator : Paginator} {items : List α}
    (held : Held (Paginator.collect source allowance paginator).run turns (some (.ok items))) :
    (items.map size).sum ≤ turns.weight := by
  induction allowance generalizing turns paginator items with
  | zero => cases held
  | succ allowance inductionHypothesis =>
    obtain ⟨page, front, back, rfl, former, latter⟩ := Attempt.held_bind_ok held
    cases page with
    | none =>
      cases latter
      exact Nat.zero_le _
    | some page =>
      have paid := (held_next? calls former).2 page.1 page.2 rfl
      obtain ⟨others, _, _, rfl, rest, ended⟩ := Attempt.held_bind_ok latter
      cases ended
      have left := inductionHypothesis rest
      rw [List.append_nil, Turns.weight_append, List.map_append, List.sum_append]
      omega

theorem endures_drain (allowance : Nat) (first : Page α) :
    Endures allowance (drain source allowance first).run := by
  rw [drain]
  split
  · exact .done _
  · exact .bind_attempt (endures_collect calls allowance _) fun _ => .done _

theorem size_drain {allowance : Nat} {first : Page α} {items : List α}
    (held : Held (drain source allowance first).run turns (some (.ok items))) :
    (items.map size).sum ≤ pageSize size first + turns.weight := by
  rw [drain] at held
  split at held
  · cases held
    exact Nat.le_add_right ..
  · obtain ⟨others, _, _, rfl, former, latter⟩ := Attempt.held_bind_ok held
    cases latter
    have rest := size_collect calls former
    rw [List.append_nil, List.map_append, List.sum_append]
    exact Nat.add_le_add_left rest _

end Pages

section NestedPages

variable {size : β → Nat} {inside : α → Page β} {outer : PageSource Action Action.Reply α}
  {source : α → PageSource Action Action.Reply β}
  (callsInside : ∀ parent cursor, IsCall (pageSize size) (source parent cursor))

include callsInside

theorem endures_drainEach (allowance : Nat) (parents : List α) :
    Endures allowance (drainEach inside source allowance parents).run := by
  induction parents with
  | nil => exact .done _
  | cons parent rest inductionHypothesis =>
    refine .bind_attempt (endures_drain (callsInside parent) allowance _) fun _ => ?_
    exact .bind_attempt inductionHypothesis fun _ => .done _

/-- The jobs that nested elements bring were told of with their parents or in a turn. -/
theorem size_drainEach {allowance : Nat} {parents : List α} {nested : List (Nested α β)}
    (held : Held (drainEach inside source allowance parents).run turns (some (.ok nested))) :
    (nested.map fun element => (element.inner.map size).sum).sum ≤
      (parents.map fun parent => pageSize size (inside parent)).sum + turns.weight := by
  induction parents generalizing turns nested with
  | nil =>
    cases held
    exact Nat.zero_le _
  | cons parent rest inductionHypothesis =>
    obtain ⟨inner, front, back, rfl, former, latter⟩ := Attempt.held_bind_ok held
    obtain ⟨others, _, _, rfl, drained, ended⟩ := Attempt.held_bind_ok latter
    cases ended
    have own := size_drain (callsInside parent) former
    have left := inductionHypothesis drained
    rw [List.append_nil, Turns.weight_append, List.map_cons, List.map_cons, List.sum_cons,
      List.sum_cons]
    dsimp only
    omega

variable (calls : ∀ cursor,
  IsCall (pageSize fun parent => pageSize size (inside parent)) (outer cursor))

include calls

theorem endures_flattenNested {bound : Nat} {allowance innerAllowance : Nat}
    (wide : bound ≤ allowance) (wideInside : bound ≤ innerAllowance) (paginator : Paginator) :
    Endures bound (flattenNested outer inside source allowance innerAllowance paginator).run := by
  induction allowance generalizing bound paginator with
  | zero =>
    intro turns _
    omega
  | succ allowance inductionHypothesis =>
    intro turns held
    rcases Attempt.held_bind_stalled held with
      stopped | ⟨page, front, back, rfl, former, latter⟩
    · exact absurd rfl (held_next? calls stopped).1
    · cases page with
      | none => cases latter
      | some page =>
        have paid := (held_next? calls former).2 page.1 page.2 rfl
        rw [Turns.weight_append]
        rcases Attempt.held_bind_stalled latter with
          stopped | ⟨nested, middle, last, rfl, _, latter⟩
        · have left := endures_drainEach callsInside innerAllowance page.1 stopped
          omega
        · rcases Attempt.held_bind_stalled latter with stopped | ⟨_, _, _, _, _, ended⟩
          · have left : bound - 1 ≤ Turns.weight _ :=
              inductionHypothesis (by omega) (by omega) page.2 stopped
            rw [Turns.weight_append]
            omega
          · cases ended

theorem size_flattenNested {allowance innerAllowance : Nat} {paginator : Paginator}
    {nested : List (Nested α β)}
    (held : Held (flattenNested outer inside source allowance innerAllowance paginator).run turns
      (some (.ok nested))) :
    (nested.map fun element => (element.inner.map size).sum).sum ≤ turns.weight := by
  induction allowance generalizing turns paginator nested with
  | zero => cases held
  | succ allowance inductionHypothesis =>
    obtain ⟨page, front, back, rfl, former, latter⟩ := Attempt.held_bind_ok held
    cases page with
    | none =>
      cases latter
      exact Nat.zero_le _
    | some page =>
      have paid := (held_next? calls former).2 page.1 page.2 rfl
      obtain ⟨own, middle, last, rfl, drained, latter⟩ := Attempt.held_bind_ok latter
      obtain ⟨others, _, _, rfl, rest, ended⟩ := Attempt.held_bind_ok latter
      cases ended
      have first := size_drainEach callsInside drained
      have left := inductionHypothesis rest
      rw [List.append_nil, Turns.weight_append, Turns.weight_append, List.map_append,
        List.sum_append]
      omega

end NestedPages

/-! ### Tasks -/

/-- A gathering stalls only where one of its tasks does. -/
theorem stalled_of_runTasks {tasks : List (Fetch α)} {gathered : Collected α}
    (held : Held (runTasks gathered tasks).run turns none) :
    ∃ task ∈ tasks, ∃ part : Turns, Held task.run part none ∧ part.weight ≤ turns.weight := by
  induction tasks generalizing gathered turns with
  | nil => cases held
  | cons task rest inductionHypothesis =>
    rcases Attempt.held_outcome_bind held with
      ⟨_, stopped⟩ | ⟨outcome, front, back, rfl, _, latter⟩
    · exact ⟨task, List.mem_cons_self, turns, stopped, Nat.le_refl _⟩
    · have later : ∃ gathered, Held (runTasks gathered rest).run back none := by
        cases outcome with
        | ok value => exact ⟨_, latter⟩
        | error error =>
          dsimp only at latter
          split at latter
          · cases latter
          · exact ⟨_, latter⟩
      obtain ⟨_, later⟩ := later
      obtain ⟨other, member, part, otherHeld, lighter⟩ := inductionHypothesis later
      refine ⟨other, List.mem_cons_of_mem _ member, part, otherHeld, lighter.trans ?_⟩
      rw [Turns.weight_append]
      exact Nat.le_add_left _ _

theorem stalled_of_runPool {tasks : List (Fetch α)}
    (held : Held (runPool tasks).run turns none) :
    ∃ task ∈ tasks, ∃ part : Turns, Held task.run part none ∧ part.weight ≤ turns.weight := by
  rcases Attempt.held_lift_bind held with
    ⟨_, stopped⟩ | ⟨isCancelled, front, back, rfl, _, latter⟩
  · obtain ⟨_, _, same⟩ := Held.of_question stopped
    cases same
  · cases isCancelled with
    | true => cases latter
    | false =>
      obtain ⟨task, member, part, taskHeld, lighter⟩ := stalled_of_runTasks latter
      refine ⟨task, member, part, taskHeld, lighter.trans ?_⟩
      rw [Turns.weight_append]
      exact Nat.le_add_left _ _

/-- A pool whose tasks do not stall early. -/
theorem endures_runPool_map {bound : Nat} {items : List β} {task : β → Fetch α}
    (each : ∀ item, Endures bound (task item).run) :
    Endures bound (runPool (items.map task)).run := by
  intro turns held
  obtain ⟨_, member, part, taskHeld, lighter⟩ := stalled_of_runPool held
  obtain ⟨item, _, rfl⟩ := List.mem_map.mp member
  exact (each item taskHeld).trans lighter

theorem endures_query (bound : Nat) (asked : Query) : Endures bound (Fetch.query asked).run :=
  .question _

/-! ### Pipelines -/

theorem isCall_pipelineJobs (path iid : String) (cursor : Option String) :
    IsCall (pageSize fun _ => 1) (Fetch.query (.pipelineJobs path iid cursor)) :=
  isCall_query (.pipelineJobs path iid cursor) fun page => (pageSize_one page).le

theorem isCall_projectPipelines (path : String) (window : SyncWindow) (cursor : Option String) :
    IsCall (pageSize (·.jobCount)) (Fetch.query (.projectPipelines path window cursor)) :=
  isCall_query (.projectPipelines path window cursor) fun _ => Nat.le_refl _

theorem isCall_projectsPipelines (ids : List Int) (window : SyncWindow) (cursor : Option String) :
    IsCall
      (pageSize fun project => pageSize (·.jobCount) (ProjectPipelinesNode.pipelinePage project))
      (Fetch.query (.projectsPipelines ids window cursor)) :=
  isCall_query (.projectsPipelines ids window cursor) fun _ => Nat.le_refl _

theorem endures_fetchArtifacts (allowance : Nat) (path : String) (nodes : List JobNode) :
    Endures allowance (fetchArtifacts allowance path nodes).run := by
  induction nodes with
  | nil => exact .done _
  | cons node rest inductionHypothesis =>
    have calls : ∀ cursor, IsCall (pageSize fun _ => 0)
        (Fetch.query (.jobArtifacts path (node.id.getD "") cursor)) :=
      fun cursor => isCall_query_zero (.jobArtifacts ..) pageSize_zero
    refine .bind_attempt (endures_drain calls allowance _) fun _ => ?_
    exact .bind_attempt inductionHypothesis fun _ => .done _

theorem length_fetchArtifacts {allowance : Nat} {path : String} {nodes : List JobNode}
    {jobs : List JobWithArtifacts}
    (held : Held (fetchArtifacts allowance path nodes).run turns (some (.ok jobs))) :
    jobs.length = nodes.length := by
  induction nodes generalizing turns jobs with
  | nil =>
    cases held
    rfl
  | cons node rest inductionHypothesis =>
    obtain ⟨artifacts, _, _, rfl, _, latter⟩ := Attempt.held_bind_ok held
    obtain ⟨others, _, _, rfl, fetched, ended⟩ := Attempt.held_bind_ok latter
    cases ended
    rw [List.length_cons, List.length_cons, inductionHypothesis fetched]

theorem endures_fetchEntry (allowance : Nat) (projectId : Int) (path : String)
    (node : PipelineNode) : Endures allowance (fetchEntry allowance projectId path node).run := by
  rw [fetchEntry]
  split
  · exact .done _
  · refine .bind_attempt (endures_drain (isCall_pipelineJobs path node.iid) allowance _) fun _ => ?_
    exact .bind_attempt (endures_fetchArtifacts allowance path _) fun _ => .done _

/-- The bridges of an entry are jobs that were told of. -/
theorem pending_fetchEntry {allowance : Nat} {projectId : Int} {path : String} {node : PipelineNode}
    {entry : HierarchyEntry}
    (held : Held (fetchEntry allowance projectId path node).run turns (some (.ok (some entry)))) :
    entry.pending.length ≤ node.jobCount + turns.weight := by
  rw [fetchEntry] at held
  split at held
  · cases held
  · next pipeline _ =>
    obtain ⟨nodes, _, _, rfl, drained, latter⟩ := Attempt.held_bind_ok held
    obtain ⟨jobs, _, _, rfl, fetched, ended⟩ := Attempt.held_bind_ok latter
    cases ended
    have told := size_drain (isCall_pipelineJobs path node.iid) drained
    have same := length_fetchArtifacts fetched
    have bridges : (HierarchyEntry.ofJobs pipeline jobs).pending.length ≤ jobs.length :=
      (List.length_filterMap_le ..).trans (List.length_filterMap_le ..)
    rw [pageSize_one, List.map_const', List.sum_replicate_nat, Nat.mul_one] at told
    rw [Turns.weight_append, PipelineNode.jobCount]
    omega

theorem endures_fetchPending (allowance : Nat) (pending : PendingPipeline) :
    Endures allowance (fetchPending allowance pending).run := by
  refine .bind_attempt (endures_query allowance _) fun found => ?_
  cases found with
  | none => exact .done _
  | some node => exact endures_fetchEntry allowance _ _ node

/-- The bridges of a pipeline that was looked up are jobs that were told of. -/
theorem pending_fetchPending {allowance : Nat} {pending : PendingPipeline} {entry : HierarchyEntry}
    (held : Held (fetchPending allowance pending).run turns (some (.ok (some entry)))) :
    entry.pending.length < turns.weight := by
  obtain ⟨found, _, _, rfl, asked, latter⟩ := Attempt.held_bind_ok held
  obtain ⟨reply, rfl, same⟩ := Held.of_question asked
  cases same
  cases found with
  | none => cases latter
  | some node =>
    have told := pending_fetchEntry latter
    rw [Turns.weight_append, Turns.weight_single]
    have jobs : Turn.jobs ⟨.query (.pipeline pending.reference.projectPath pending.reference.iid),
        .ok (some node)⟩ = node.jobCount := rfl
    omega

/-- A walk over bridges takes no more steps than there are bridges to begin with and jobs that are
told of. -/
theorem stalled_of_followBridges {bound steps allowance : Nat} {hierarchy : PipelineHierarchy}
    {errors : List SyncError} {pending : List PendingPipeline} (wide : bound ≤ steps)
    (wideInside : bound ≤ allowance)
    (held : Held (followBridges steps allowance hierarchy errors pending).run turns none) :
    bound ≤ pending.length + turns.weight := by
  induction steps generalizing turns bound hierarchy errors pending with
  | zero => omega
  | succ steps inductionHypothesis =>
    cases pending with
    | nil => cases held
    | cons next rest =>
      rw [List.length_cons]
      rw [followBridges] at held
      split at held
      · have left : bound - 1 ≤ rest.length + turns.weight :=
          inductionHypothesis (by omega) (by omega) held
        omega
      · rcases Attempt.held_outcome_bind held with
          ⟨_, stopped⟩ | ⟨outcome, front, back, rfl, lookedUp, latter⟩
        · have paid := endures_fetchPending allowance next stopped
          omega
        · rw [Turns.weight_append]
          rcases outcome with error | _ | child
          · dsimp only at latter
            split at latter
            · cases latter
            · have left : bound - 1 ≤ rest.length + Turns.weight back :=
                inductionHypothesis (by omega) (by omega) latter
              omega
          · have left : bound - 1 ≤ rest.length + Turns.weight back :=
              inductionHypothesis (by omega) (by omega) latter
            omega
          · have left : bound - 1 ≤ (rest ++ child.pending).length + Turns.weight back :=
              inductionHypothesis (by omega) (by omega) latter
            have paid := pending_fetchPending lookedUp
            rw [List.length_append] at left
            omega

/-- The fetch of a hierarchy is paid for by what comes with its root, besides its own turns. -/
theorem stalled_of_fetchHierarchy {allowance : Nat} {projectId : Int} {path : String}
    {root : PipelineNode}
    (held : Held (fetchHierarchy allowance projectId path root).run turns none) :
    allowance ≤ root.jobCount + turns.weight := by
  rcases Attempt.held_bind_stalled held with stopped | ⟨found, front, back, rfl, fetched, latter⟩
  · exact (endures_fetchEntry allowance projectId path root stopped).trans (Nat.le_add_left _ _)
  · cases found with
    | none => cases latter
    | some entry =>
      rcases Attempt.held_bind_stalled latter with stopped | ⟨_, _, _, _, _, ended⟩
      · have left := stalled_of_followBridges (Nat.le_refl _) (Nat.le_refl _) stopped
        have told := pending_fetchEntry fetched
        rw [Turns.weight_append]
        omega
      · cases ended

/-- What comes with a root was told of when its projects were fetched. -/
theorem jobCount_root_le {projects : List (Nested ProjectPipelinesNode PipelineNode)}
    {root : RootPipeline} (member : root ∈ rootPipelines projects) :
    root.node.jobCount ≤ (projects.map fun project => jobCount project.inner).sum := by
  obtain ⟨project, isProject, isRoot⟩ := List.mem_flatMap.mp member
  split at isRoot
  · cases isRoot
  · obtain ⟨node, isNode, rfl⟩ := List.mem_map.mp isRoot
    have inside : node ∈ project.inner := (List.mem_filter.mp isNode).1
    have own : node.jobCount ≤ jobCount project.inner :=
      List.le_sum_of_mem (List.mem_map_of_mem inside)
    exact own.trans (List.le_sum_of_mem (List.mem_map.mpr ⟨project, isProject, rfl⟩))

theorem endures_fetchPipelineHierarchies (allowance : Nat) (ids : List Int) (window : SyncWindow) :
    Endures allowance (fetchPipelineHierarchies allowance ids window).run := by
  rw [fetchPipelineHierarchies]
  split
  · exact .done _
  · intro turns held
    have callsInside : ∀ (project : ProjectPipelinesNode) cursor, IsCall (pageSize (·.jobCount))
        (Fetch.query (.projectPipelines project.fullPath window cursor)) :=
      fun project => isCall_projectPipelines project.fullPath window
    rcases Attempt.held_bind_stalled held with
      stopped | ⟨projects, front, back, rfl, fetched, latter⟩
    · exact endures_flattenNested callsInside (isCall_projectsPipelines ids window)
        (Nat.le_refl _) (Nat.le_refl _) _ stopped
    · rcases Attempt.held_bind_stalled latter with stopped | ⟨_, _, _, _, _, ended⟩
      · obtain ⟨_, member, part, taskHeld, lighter⟩ := stalled_of_runPool stopped
        obtain ⟨root, isRoot, rfl⟩ := List.mem_map.mp member
        have paid := stalled_of_fetchHierarchy taskHeld
        have told := size_flattenNested callsInside (isCall_projectsPipelines ids window) fetched
        have own := jobCount_root_le isRoot
        simp only [jobCount] at own
        rw [Turns.weight_append]
        omega
      · cases ended

/-! ### A batch -/

section Batch

variable {context : SyncContext} {window : SyncWindow}

/-- Pools of calls do not stall, so of the fetches for pipelines only the first one does. -/
theorem stalled_of_fetchCi {projects : List ProjectSettings}
    (held : Held (fetchCi context projects window) turns none) :
    Held (fetchPipelineHierarchies context.allowance (projects.map (·.id)) window).run turns
      none := by
  rcases Held.of_bind held with ⟨_, stopped⟩ | ⟨hierarchies, front, back, rfl, _, latter⟩
  · exact stopped
  · refine absurd (?_ : Turns.weight back + 1 ≤ Turns.weight back) (Nat.not_succ_le_self _)
    refine Endures.bind (endures_runPool_map fun job =>
      .bind_attempt (endures_query _ _) fun _ => .done _) (fun logs => ?_) latter
    refine .bind (.bind_attempt (endures_runPool_map fun pipeline => endures_query _ _)
      fun _ => .done _) fun reports => ?_
    refine .bind (.bind_attempt (endures_runPool_map fun id => endures_query _ _) fun _ => .done _)
      fun deployments => ?_
    exact .bind (endures_runPool_map fun id => endures_query _ _) fun _ => .done _

theorem endures_fetchMergeRequests (allowance : Nat) (ids : List Int) :
    Endures allowance (fetchMergeRequests allowance ids window).run := by
  have pass : ∀ pass, Endures allowance (fetchMergeRequestPass allowance ids window pass).run := by
    intro pass
    have callsInside : ∀ (project : ProjectMergeRequestsNode) cursor, IsCall (pageSize fun _ => 0)
        (Fetch.query (.projectMergeRequests project.fullPath window pass cursor)) :=
      fun project cursor => isCall_query_zero (.projectMergeRequests ..) pageSize_zero
    have calls : ∀ cursor, IsCall
        (pageSize fun project => pageSize (fun _ => 0)
          (ProjectMergeRequestsNode.mergeRequestPage project))
        (Fetch.query (.mergeRequests ids window pass cursor)) :=
      fun cursor => isCall_query_zero (.mergeRequests ..) fun page => by simp [pageSize]
    exact endures_flattenNested callsInside calls (Nat.le_refl _) (Nat.le_refl _) _
  rw [fetchMergeRequests]
  split
  · exact .done _
  · refine .bind_attempt (pass .core) fun core => ?_
    refine .bind_attempt (pass .extra) fun extra => ?_
    exact .bind_attempt (pass .participants) fun participants => .done _

theorem endures_fetchProjectChanges (allowance : Nat) (ids : List Int) :
    Endures allowance (fetchProjectChanges allowance ids window).run := by
  rw [fetchProjectChanges]
  split
  · exact .done _
  · have calls : ∀ cursor, IsCall (pageSize fun _ => 0)
        (Fetch.query (.projectChanges ids window cursor)) :=
      fun cursor => isCall_query_zero (.projectChanges ..) pageSize_zero
    exact .bind_attempt (endures_collect calls allowance _) fun _ => .done _

theorem stalled_of_ciSynced {projects : List ProjectSettings} {result : Option (Outcome Unit)}
    (synced : CiSynced context projects window turns result) (stopped : result = none) :
    Held (fetchPipelineHierarchies context.allowance (projects.map (·.id)) window).run turns
      none := by
  cases synced with
  | nothing => cases stopped
  | stalled _ fetched => exact stalled_of_fetchCi fetched
  | fetched _ _ sent =>
    rw [Option.map_eq_none_iff] at stopped
    subst stopped
    exact nomatch (Exporter.asked_exportBatch sent).2

theorem stalled_of_mergeRequestsSynced {ids : List Int} {result : Option (Outcome Unit)}
    (synced : MergeRequestsSynced context ids window turns result) (stopped : result = none) :
    Held (fetchMergeRequests context.allowance ids window).run turns none := by
  cases synced with
  | nothing | failed => cases stopped
  | stalled _ fetched => exact fetched
  | fetched _ _ sent =>
    rw [Option.map_eq_none_iff] at stopped
    subst stopped
    exact nomatch (Exporter.asked_send sent).2

/-- The processing of a batch stalls only where a walk over pages does. -/
theorem stalled_of_process {batch : FetchBatch} {everything : Bool}
    (held : Held (process context batch window everything) turns none) :
    ∃ part, part <:+: turns ∧
      (Held (fetchProjectChanges context.allowance (batch.map (·.id)) window).run part none ∨
        (∃ ids, Held (fetchPipelineHierarchies context.allowance ids window).run part none) ∨
          ∃ ids, Held (fetchMergeRequests context.allowance ids window).run part none) := by
  generalize same : (none : Option (Outcome Unit)) = result at held
  cases processed_of_held held with
  | stalled asked => exact ⟨turns, List.infix_rfl, .inl asked⟩
  | failed => cases same
  | @parted asking exporting aboutCi aboutRequests _ _ exported synced merged _ projects ci
      mergeRequests =>
    cases exported with
    | none => exact nomatch (Exporter.asked_send projects).2
    | some =>
      rw [← List.append_assoc]
      cases synced with
      | none =>
        refine ⟨aboutCi, ?_, .inr (.inl ⟨_, stalled_of_ciSynced ci rfl⟩)⟩
        exact (List.prefix_append ..).isInfix.trans (List.suffix_append ..).isInfix
      | some =>
        cases merged with
        | none =>
          refine ⟨aboutRequests, ?_,
            .inr (.inr ⟨_, stalled_of_mergeRequestsSynced mergeRequests rfl⟩)⟩
          exact ((List.suffix_append ..).trans (List.suffix_append ..)).isInfix
        | some => cases same

/-- The processing of a batch stalls only in a run that weighs no less than the allowance. -/
theorem endures_process (batch : FetchBatch) (everything : Bool) :
    Endures context.allowance (process context batch window everything) := by
  intro turns held
  obtain ⟨part, isInfix, stalled⟩ := stalled_of_process held
  refine le_trans ?_ (Turns.weight_le_of_infix isInfix)
  rcases stalled with asked | ⟨ids, asked⟩ | ⟨ids, asked⟩
  · exact endures_fetchProjectChanges _ _ asked
  · exact endures_fetchPipelineHierarchies _ ids window asked
  · exact endures_fetchMergeRequests _ ids asked

end Batch

end CiTelemetry
