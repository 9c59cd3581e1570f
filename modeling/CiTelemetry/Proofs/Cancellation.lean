/-
This file proves that cancellation always surfaces. Once a call of a batch was
answered by cancellation, the batch has no other outcome, wherever the call stood
and whatever else failed; the walk back through history then ends without another
window. Every step on the way either passes cancellation on or joins it with other
failures, all of which it outweighs.
-/

import CiTelemetry.Proofs.Completion
import CiTelemetry.Proofs.ComposedFetches
import CiTelemetry.Proofs.FailureGroupings
import CiTelemetry.Proofs.Isolation
import CiTelemetry.Sync.Loop

namespace CiTelemetry

open Dialogue SyncError

variable {α β : Type} {turns turns' : Turns}

/-! ### Cancelled calls -/

/-- Whether a turn is a call of the server that was answered by cancellation. -/
def Turn.isCancelledCall : Turn Action Action.Reply → Bool
  | ⟨.query _, .error .cancelled⟩ => true
  | _ => false

namespace Turns

/-- Some call of the server was answered by cancellation. -/
def CallCancelled (turns : Turns) : Prop :=
  ∃ turn ∈ turns, turn.isCancelledCall = true

instance (turns : Turns) : Decidable turns.CallCancelled :=
  inferInstanceAs (Decidable (∃ turn ∈ turns, _))

theorem not_callCancelled_nil : ¬CallCancelled [] :=
  fun ⟨_, member, _⟩ => nomatch member

theorem callCancelled_single {turn : Turn Action Action.Reply} :
    CallCancelled [turn] ↔ turn.isCancelledCall = true := by
  simp only [CallCancelled, List.mem_singleton, exists_eq_left]

theorem callCancelled_append :
    CallCancelled (turns ++ turns') ↔ CallCancelled turns ∨ CallCancelled turns' := by
  simp only [CallCancelled, List.mem_append, or_and_right, exists_or]

/-- Deliveries are no calls of the server. -/
theorem not_callCancelled_of_delivery {dialogue : Sync α} {result : Option α}
    (about : KeepsTo .delivery dialogue) (held : Held dialogue turns result) :
    ¬CallCancelled turns := by
  rintro ⟨⟨asked, reply⟩, member, cancelled⟩
  have isDelivery : asked.subject = .delivery := about.asked held _ member
  cases asked with
  | query asked => cases asked <;> cases isDelivery
  | _ => cases cancelled

end Turns

/-- Where a call of a dialogue is cancelled, the dialogue has no other outcome. -/
def Surfaces (dialogue : Sync (Outcome α)) : Prop :=
  ∀ ⦃turns : Turns⦄ ⦃outcome : Outcome α⦄, Held dialogue turns (some outcome) →
    turns.CallCancelled → outcome = .error .cancelled

/-! ### Fetches -/

namespace Surfaces

theorem done (outcome : Outcome α) : Surfaces (.done outcome) := by
  intro turns _ held call
  cases held
  exact absurd call Turns.not_callCancelled_nil

theorem bind {fetch : Fetch α} {next : α → Fetch β} (first : Surfaces fetch.run)
    (second : ∀ value, Surfaces (next value).run) : Surfaces (fetch >>= next).run := by
  intro turns outcome held call
  rcases Attempt.held_bind held with
    ⟨stopped, _⟩ | ⟨error, same, failed⟩ | ⟨value, front, back, rfl, former, latter⟩
  · cases stopped
  · cases same
    cases first failed call
    rfl
  · rcases Turns.callCancelled_append.mp call with inFront | inBack
    · cases first former inFront
    · exact second value latter inBack

/-- Whatever a fetch makes of the outcome of another one, it passes cancellation on. -/
theorem caught {fetch : Fetch α} {next : Outcome α → Fetch β} (first : Surfaces fetch.run)
    (second : ∀ outcome, Surfaces (next outcome).run)
    (passedOn : (next (.error .cancelled)).run = .done (.error .cancelled)) :
    Surfaces (fetch.outcome >>= next).run := by
  intro turns result held call
  rcases Attempt.held_outcome_bind held with
    ⟨stopped, _⟩ | ⟨outcome, front, back, rfl, former, latter⟩
  · cases stopped
  · rcases Turns.callCancelled_append.mp call with inFront | inBack
    · rw [first former inFront, passedOn] at latter
      cases latter
      rfl
    · exact second outcome latter inBack

theorem composes : Composes fun _ fetch => Surfaces fetch.run where
  pure value := done (.ok value)
  stalled _ := fun _ _ held => nomatch held
  query asked := by
    intro turns outcome held call
    obtain ⟨reply, rfl, same⟩ := Held.of_question held
    cases same
    rw [Turns.callCancelled_single] at call
    cases outcome with
    | ok => cases call
    | error error =>
      cases error with
      | cancelled => rfl
      | _ => cases call
  bind := bind

/-! ### Tasks -/

theorem runTasks {tasks : List (Fetch α)} (each : ∀ task ∈ tasks, Surfaces task.run)
    (gathered : Collected α) : Surfaces (CiTelemetry.runTasks gathered tasks).run := by
  induction tasks generalizing gathered with
  | nil => exact done _
  | cons task rest inductionHypothesis =>
    have others := inductionHypothesis fun task member => each task (List.mem_cons_of_mem _ member)
    refine caught (each task List.mem_cons_self) (fun outcome => ?_) rfl
    cases outcome with
    | ok value => exact others _
    | error error =>
      dsimp only
      split
      · exact done _
      · exact others _

/-- A pool with one task for each element of a list. -/
theorem runPool_map {items : List β} {task : β → Fetch α}
    (each : ∀ item, Surfaces (task item).run) :
    Surfaces (CiTelemetry.runPool (items.map task)).run := by
  have all : ∀ fetch ∈ items.map task, Surfaces fetch.run := by
    intro fetch member
    obtain ⟨item, _, rfl⟩ := List.mem_map.mp member
    exact each item
  intro turns outcome held call
  rcases Attempt.held_lift_bind held with
    ⟨stopped, _⟩ | ⟨isCancelled, front, back, rfl, former, latter⟩
  · cases stopped
  · cases isCancelled with
    | true =>
      cases latter
      rfl
    | false =>
      obtain ⟨_, rfl, _⟩ := Held.of_question former
      rcases Turns.callCancelled_append.mp call with inFront | inBack
      · cases Turns.callCancelled_single.mp inFront
      · exact runTasks all .empty latter inBack

/-! ### Pipelines and what belongs to them -/

/-- A look-up that fails is left out of the walk, unless it was cancelled. -/
theorem followBridges (steps allowance : Nat) (hierarchy : PipelineHierarchy)
    (errors : List SyncError) (pending : List PendingPipeline) :
    Surfaces (CiTelemetry.followBridges steps allowance hierarchy errors pending).run := by
  induction steps generalizing hierarchy errors pending with
  | zero =>
    cases pending with
    | nil => exact done _
    | cons next rest => exact composes.stalled _
  | succ steps inductionHypothesis =>
    cases pending with
    | nil => exact done _
    | cons next rest =>
      rw [CiTelemetry.followBridges]
      split
      · exact inductionHypothesis _ _ _
      · refine caught (composes.fetchPending allowance next) (fun outcome => ?_) rfl
        rcases outcome with error | found
        · dsimp only
          split
          · exact done _
          · exact inductionHypothesis _ _ _
        · cases found with
          | none | some => exact inductionHypothesis _ _ _

theorem fetchHierarchy (allowance : Nat) (projectId : Int) (path : String) (root : PipelineNode) :
    Surfaces (CiTelemetry.fetchHierarchy allowance projectId path root).run := by
  refine bind (composes.fetchEntry allowance projectId path root) fun found => ?_
  cases found with
  | none => exact done _
  | some entry => exact composes.map _ (followBridges allowance allowance _ _ _)

theorem fetchPipelineHierarchies (allowance : Nat) (ids : List Int) (window : SyncWindow) :
    Surfaces (CiTelemetry.fetchPipelineHierarchies allowance ids window).run := by
  rw [CiTelemetry.fetchPipelineHierarchies]
  split
  · exact done _
  · refine bind (composes.flattenNested (fun _ _ => composes.query (.projectPipelines ..))
      (fun _ => composes.query (.projectsPipelines ..)) _ _ _) fun projects => ?_
    exact composes.map _ (runPool_map fun root => fetchHierarchy allowance _ _ _)

theorem fetchJobLogs (jobs : List Job) : Surfaces (CiTelemetry.fetchJobLogs jobs).run :=
  runPool_map fun _ => composes.map _ (composes.query (.jobLog ..))

theorem fetchTestReports (pipelines : List Pipeline) :
    Surfaces (CiTelemetry.fetchTestReports pipelines).run :=
  composes.map _ (runPool_map fun _ => composes.query (.testReport ..))

theorem fetchDeployments (ids : List Int) (window : SyncWindow) :
    Surfaces (CiTelemetry.fetchDeployments ids window).run :=
  composes.map _ (runPool_map fun _ => composes.query (.deployments ..))

theorem fetchRunners (ids : List Int) : Surfaces (CiTelemetry.fetchRunners ids).run :=
  runPool_map fun _ => composes.query (.runner ..)

/-- What is settled of a cancelled fetch is a failure among others. -/
theorem mem_settle {fetch : Fetch (Collected α)} {outcome : Outcome (Collected α)}
    (surfaces : Surfaces fetch.run) (held : Held fetch.run turns (some outcome))
    (call : turns.CallCancelled) : .cancelled ∈ (settle outcome).2 := by
  rw [surfaces held call]
  exact List.mem_singleton_self _

end Surfaces

section Batch

variable {context : SyncContext} {window : SyncWindow}

theorem cancelled_mem_of_fetchCi {projects : List ProjectSettings} {batch : ExportBatch}
    {errors : List SyncError}
    (held : Held (fetchCi context projects window) turns (some (batch, errors)))
    (call : turns.CallCancelled) : .cancelled ∈ errors := by
  obtain ⟨_, _, _, rfl, hierarchies, held⟩ := held.of_bind_some
  obtain ⟨_, _, _, rfl, logs, held⟩ := held.of_bind_some
  obtain ⟨_, _, _, rfl, reports, held⟩ := held.of_bind_some
  obtain ⟨_, _, _, rfl, deployments, held⟩ := held.of_bind_some
  obtain ⟨_, _, _, rfl, runners, held⟩ := held.of_bind_some
  cases held
  simp only [Turns.callCancelled_append] at call
  simp only [List.mem_append, or_assoc]
  rcases call with call | call | call | call | call | call
  · exact .inl ((Surfaces.fetchPipelineHierarchies _ _ _).mem_settle hierarchies call)
  · exact .inr (.inl ((Surfaces.fetchJobLogs _).mem_settle logs call))
  · exact .inr (.inr (.inl ((Surfaces.fetchTestReports _).mem_settle reports call)))
  · exact .inr (.inr (.inr (.inl ((Surfaces.fetchDeployments _ _).mem_settle deployments call))))
  · exact .inr (.inr (.inr (.inr ((Surfaces.fetchRunners _).mem_settle runners call))))
  · exact absurd call Turns.not_callCancelled_nil

/-! ### A batch -/

/-- Cancellation outweighs whatever it is joined with. -/
theorem joinResult_of_cancelled {errors : List SyncError} (inside : .cancelled ∈ errors) :
    joinResult errors = .error .cancelled := by
  rw [joinResult, join_of_cancelled inside]

theorem cancelled_mem_failures {outcomes : List (Outcome Unit)}
    (inside : .error .cancelled ∈ outcomes) : .cancelled ∈ failures outcomes :=
  List.mem_filterMap.mpr ⟨_, inside, rfl⟩

theorem cancelled_of_ciSynced {projects : List ProjectSettings} {outcome : Outcome Unit}
    (synced : CiSynced context projects window turns (some outcome)) (call : turns.CallCancelled) :
    outcome = .error .cancelled := by
  generalize ended : some outcome = result at synced
  cases synced with
  | nothing => exact absurd call Turns.not_callCancelled_nil
  | stalled => cases ended
  | @fetched _ _ _ _ exported _ fetched sent =>
    have notSent := Turns.not_callCancelled_of_delivery (.exportBatch _ _) sent
    have inside := cancelled_mem_of_fetchCi fetched
      ((Turns.callCancelled_append.mp call).resolve_right notSent)
    cases exported with
    | none => cases ended
    | some exported =>
      cases ended
      exact joinResult_of_cancelled (List.mem_append_left _ inside)

theorem cancelled_of_mergeRequestsSynced {ids : List Int} {outcome : Outcome Unit}
    (synced : MergeRequestsSynced context ids window turns (some outcome))
    (call : turns.CallCancelled) : outcome = .error .cancelled := by
  have fetching := Surfaces.composes.fetchMergeRequests context.allowance ids window
  generalize ended : some outcome = result at synced
  cases synced with
  | nothing => exact absurd call Turns.not_callCancelled_nil
  | stalled => cases ended
  | failed _ failed =>
    cases ended
    cases fetching failed call
    rfl
  | fetched _ fetched sent =>
    have notSent := Turns.not_callCancelled_of_delivery (.send _ _ _) sent
    cases fetching fetched ((Turns.callCancelled_append.mp call).resolve_right notSent)

/-- A batch has an outcome once its parts have, and joins what these come to. -/
theorem joinedOutcome_eq_some {errors : List SyncError}
    {exported synced merged : Option (Outcome Unit)} {outcome : Outcome Unit}
    (ended : joinedOutcome errors exported synced merged = some outcome) :
    ∃ first second third, exported = some first ∧ synced = some second ∧ merged = some third ∧
      outcome = joinResult (errors ++ failures [first, second, third]) := by
  cases exported <;> cases synced <;> cases merged <;> cases ended
  exact ⟨_, _, _, rfl, rfl, rfl, rfl⟩

theorem surfaces_process (batch : FetchBatch) (everything : Bool) :
    Surfaces (process context batch window everything) := by
  intro turns outcome held call
  have changes := Surfaces.composes.fetchProjectChanges context.allowance (batch.map (·.id)) window
  have processed := processed_of_held held
  generalize ended : some outcome = result at processed
  cases processed with
  | stalled => cases ended
  | failed asked =>
    cases ended
    cases changes asked call
    rfl
  | parted asked projects ci mergeRequests =>
    obtain ⟨first, second, third, rfl, rfl, rfl, rfl⟩ := joinedOutcome_eq_some ended.symm
    have notSent := Turns.not_callCancelled_of_delivery (.send _ _ _) projects
    refine joinResult_of_cancelled (List.mem_append_right _ (cancelled_mem_failures ?_))
    simp only [Turns.callCancelled_append] at call
    rcases call with inChanges | inProjects | inCi | inMergeRequests
    · cases changes asked inChanges
    · exact absurd inProjects notSent
    · rw [cancelled_of_ciSynced ci inCi]
      exact List.mem_cons_of_mem _ List.mem_cons_self
    · rw [cancelled_of_mergeRequestsSynced mergeRequests inMergeRequests]
      exact List.mem_cons_of_mem _ (List.mem_cons_of_mem _ List.mem_cons_self)

/-! ### All batches of a window -/

theorem cancelled_mem_of_processEach {everything : Bool} {batches : List FetchBatch}
    {errors : List SyncError}
    (held : Held (processEach context window everything batches) turns (some errors))
    (call : turns.CallCancelled) : .cancelled ∈ errors := by
  induction batches generalizing turns errors with
  | nil =>
    cases held
    exact absurd call Turns.not_callCancelled_nil
  | cons batch rest inductionHypothesis =>
    obtain ⟨_, _, _, rfl, both, ended⟩ := held.of_bind_some
    cases ended
    obtain ⟨outcome, others, _, _, rfl, first, second, same⟩ := Held.of_beside both
    cases outcome with
    | none => cases same
    | some outcome =>
      cases others with
      | none => cases same
      | some others =>
        cases same
        rw [List.append_nil, Turns.callCancelled_append] at call
        rcases call with inFirst | inOthers
        · rw [surfaces_process batch everything first inFirst]
          exact List.mem_append_left _ (cancelled_mem_failures List.mem_cons_self)
        · exact List.mem_append_right _ (inductionHypothesis second inOthers)

theorem surfaces_processBatches (batches : List FetchBatch) (everything : Bool) :
    Surfaces (processBatches context batches window everything) := by
  intro turns outcome held call
  obtain ⟨errors, _, _, rfl, each, ended⟩ := held.of_bind_some
  cases ended
  rw [List.append_nil] at call
  exact joinResult_of_cancelled (cancelled_mem_of_processEach each call)

theorem endures_processBatches (batches : List FetchBatch) (everything : Bool) :
    Endures context.allowance (processBatches context batches window everything) := by
  refine .bind ?_ fun _ => .done _
  induction batches with
  | nil => exact .done _
  | cons batch rest inductionHypothesis =>
    exact .bind (.beside (endures_process batch everything) inductionHypothesis) fun _ => .done _

/-! ### Outcomes -/

/-- A run ends with cancellation, unless one of its walks has used up its allowance, and then it
has no outcome. -/
def EndsCancelled (allowance : Nat) (turns : Turns) (result : Option (Outcome Unit)) : Prop :=
  result = some (.error .cancelled) ∨ result = none ∧ allowance ≤ turns.weight

theorem Surfaces.endsCancelled {dialogue : Sync (Outcome Unit)} {allowance : Nat}
    {result : Option (Outcome Unit)} (surfaces : Surfaces dialogue)
    (endures : Endures allowance dialogue) (held : Held dialogue turns result)
    (call : turns.CallCancelled) : EndsCancelled allowance turns result := by
  cases result with
  | none => exact .inr ⟨rfl, endures held⟩
  | some outcome => exact .inl (congrArg some (surfaces held call))

end Batch

/-! ### The walk back -/

section CatchUp

variable {context : SyncContext} {settings : SyncSettings} {registry : Registry}
  {result : Option (Outcome Unit)}

/-- A walk back whose last turns are those of one window, and no call was cancelled before. -/
def EndsInWindow (context : SyncContext) (settings : SyncSettings) (registry : Registry)
    (turns : Turns) (result : Option (Outcome Unit)) : Prop :=
  ∃ window before during, turns = before ++ during ∧ ¬before.CallCancelled ∧
    Held (processBatches context (registry.batches settings.batchSize (·.catchesUpIn window))
      window false) during result

theorem EndsInWindow.after (ends : EndsInWindow context settings registry turns' result)
    (goesOn : ¬turns.CallCancelled) :
    EndsInWindow context settings registry (turns ++ turns') result := by
  obtain ⟨window, before, during, rfl, notBefore, held⟩ := ends
  refine ⟨window, turns ++ before, during, (List.append_assoc ..).symm, ?_, held⟩
  exact fun call => (Turns.callCancelled_append.mp call).elim goesOn notBefore

/-- A walk back with a cancelled call ends in its window. -/
theorem endsInWindow_of_catchUpFrom {floor : Instant} {allowance : Nat} {errors : List SyncError}
    {finish : Instant}
    (held : Held (catchUpFrom context settings registry floor allowance errors finish) turns result)
    (call : turns.CallCancelled) : EndsInWindow context settings registry turns result := by
  induction allowance generalizing turns errors finish with
  | zero =>
    rw [catchUpFrom.eq_def] at held
    split at held <;> cases held <;> exact absurd call Turns.not_callCancelled_nil
  | succ allowance inductionHypothesis =>
    rw [catchUpFrom] at held
    split at held
    · cases held
      exact absurd call Turns.not_callCancelled_nil
    · next window _ =>
      cases held with
      | @ask _ _ isOver back _ latter =>
        have notFront : ¬Turns.CallCancelled [⟨.isCancelled, isOver⟩] :=
          Turns.callCancelled_single.not.mpr Bool.false_ne_true
        have inBack := (Turns.callCancelled_append.mp call).resolve_left notFront
        refine EndsInWindow.after ?_ notFront
        cases isOver with
        | true =>
          cases latter
          exact absurd inBack Turns.not_callCancelled_nil
        | false =>
          simp only [done_bind, if_neg Bool.false_ne_true] at latter
          split at latter
          · exact inductionHypothesis latter inBack
          · rcases Held.of_bind latter with
              ⟨rfl, stopped⟩ | ⟨outcome, during, later, rfl, processed, latter⟩
            · exact ⟨window, [], back, rfl, Turns.not_callCancelled_nil, stopped⟩
            · by_cases inWindow : Turns.CallCancelled during
              · cases surfaces_processBatches _ _ processed inWindow
                cases latter
                rw [List.append_nil]
                exact ⟨window, [], during, rfl, Turns.not_callCancelled_nil, processed⟩
              · have inLater := (Turns.callCancelled_append.mp inBack).resolve_left inWindow
                refine EndsInWindow.after ?_ inWindow
                cases outcome with
                | ok => exact inductionHypothesis latter inLater
                | error error =>
                  dsimp only at latter
                  split at latter
                  · cases latter
                    exact absurd inLater Turns.not_callCancelled_nil
                  · exact inductionHypothesis latter inLater

theorem endsInWindow_of_catchUp {allowance : Nat}
    (held : Held (catchUp context settings registry allowance) turns result)
    (call : turns.CallCancelled) : EndsInWindow context settings registry turns result := by
  rw [catchUp] at held
  split at held
  · cases held
    exact absurd call Turns.not_callCancelled_nil
  · cases held with
    | @ask _ _ now back _ latter =>
      have notFront : ¬Turns.CallCancelled [⟨.now, now⟩] :=
        Turns.callCancelled_single.not.mpr Bool.false_ne_true
      have inBack := (Turns.callCancelled_append.mp call).resolve_left notFront
      exact (endsInWindow_of_catchUpFrom latter inBack).after notFront

/-- A walk back that ends in a window comes to what that window comes to. -/
theorem EndsInWindow.endsCancelled (ends : EndsInWindow context settings registry turns result)
    (call : turns.CallCancelled) : EndsCancelled context.allowance turns result := by
  obtain ⟨window, before, during, rfl, notBefore, held⟩ := ends
  have inWindow := (Turns.callCancelled_append.mp call).resolve_left notBefore
  rcases (surfaces_processBatches _ _).endsCancelled (endures_processBatches _ _) held inWindow with
    cancelled | ⟨stopped, paid⟩
  · exact .inl cancelled
  · rw [EndsCancelled, Turns.weight_append]
    exact .inr ⟨stopped, paid.trans (Nat.le_add_left _ _)⟩

end CatchUp

/-- Cancellation always surfaces. Whatever the server, the sinks and the clock answer: if some call
is answered by cancellation while a batch or any batches are processed, the outcome is cancellation
and nothing else, however much else failed. The walk back through history then has this outcome,
too, and its last turns are those of the window of that call; no further window is processed. -/
theorem cancellation_surfaces (context : SyncContext) :
    (∀ batch window everything (turns : Turns) result,
      Held (process context batch window everything) turns result → turns.CallCancelled →
        EndsCancelled context.allowance turns result) ∧
    (∀ batches window everything (turns : Turns) result,
      Held (processBatches context batches window everything) turns result → turns.CallCancelled →
        EndsCancelled context.allowance turns result) ∧
    ∀ settings registry allowance (turns : Turns) result,
      Held (catchUp context settings registry allowance) turns result → turns.CallCancelled →
        EndsCancelled context.allowance turns result ∧
          EndsInWindow context settings registry turns result := by
  refine ⟨fun batch window everything turns result held call => ?_,
    fun batches window everything turns result held call => ?_,
    fun settings registry allowance turns result held call => ?_⟩
  · exact (surfaces_process batch everything).endsCancelled (endures_process batch everything) held
      call
  · exact (surfaces_processBatches batches everything).endsCancelled
      (endures_processBatches batches everything) held call
  · have ends := endsInWindow_of_catchUp held call
    exact ⟨ends.endsCancelled call, ends⟩

namespace OneProject

/-- The walk back over the last two minutes of the project, a minute at a time. -/
def walkingBack : Sync (Outcome Unit) :=
  catchUp ⟨⟨2⟩, 100⟩ { (default : SyncSettings) with catchUpInterval := 60000 }
    [{ project with catchUp := ⟨true, some ⟨-120, 0⟩, none⟩ }] 5

/-- The fetch of merge requests is cancelled, and the one of deployments fails. -/
def cancelledReplies (op : Action) (_ : Unit) : op.Reply × Unit :=
  (replies (fun _ => .error .cancelled) (.error .network) none op, ())

/-- The failure does not show, and the earlier one of the two minutes is not processed. -/
theorem walkingBack_cancelled :
    let turns := walkingBack.transcript cancelledReplies ()
    let result := (walkingBack.run cancelledReplies ()).1
    Held walkingBack turns result ∧ Turns.CallCancelled turns ∧
      result = some (.error .cancelled) ∧
        EndsInWindow ⟨⟨2⟩, 100⟩ { (default : SyncSettings) with catchUpInterval := 60000 }
          [{ project with catchUp := ⟨true, some ⟨-120, 0⟩, none⟩ }] turns result := by
  intro turns result
  have held : Held walkingBack turns result := held_transcript cancelledReplies walkingBack ()
  have call : Turns.CallCancelled turns := by decide +kernel
  have light : Turns.weight turns < 100 := by decide +kernel
  obtain ⟨cancelled | ⟨_, paid⟩, ends⟩ := (cancellation_surfaces ⟨⟨2⟩, 100⟩).2.2 _ _ _ _ _ held call
  · exact ⟨held, call, cancelled, ends⟩
  · exact absurd paid (Nat.not_le_of_lt light)

end OneProject

end CiTelemetry
