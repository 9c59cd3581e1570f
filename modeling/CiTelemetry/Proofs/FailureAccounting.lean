/-
This file accounts for failures. In a run without cancellation a fetch that ends
its work with the first failure fails with just that one, a fetch that collects
its failures reports all of them and no others, and so do the exports. The
failures of a run are read off its turns, whatever the program makes of them.
-/

import CiTelemetry.Proofs.ComposedFetches
import CiTelemetry.Proofs.FailureLeaves
import CiTelemetry.Proofs.Processing

namespace CiTelemetry

open Dialogue SyncError

/-! ### Failures of a run -/

/-- The failure that the reply of a turn is: a call of the server that failed, or the refusal of a
sink. -/
def Turn.failure? : Turn Action Action.Reply → Option SyncError
  | ⟨.query _, .error error⟩ => some error
  | ⟨.send .., .error error⟩ => some error
  | _ => none

/-- A turn that does not take part in cancellation, and whose failure is one. -/
def Turn.IsCalm (turn : Turn Action Action.Reply) : Prop :=
  turn ≠ ⟨.isCancelled, true⟩ ∧ ∀ error, turn.failure? = some error → error.IsReal

namespace Turns

/-- The failures of a run in their order. -/
def failures (turns : Turns) : List SyncError :=
  turns.filterMap (·.failure?)

/-- A run without cancellation in which every failure stands for some single failure. -/
def Calm (turns : Turns) : Prop :=
  ∀ turn ∈ turns, turn.IsCalm

variable {turns turns' : Turns}

theorem failures_append : failures (turns ++ turns') = failures turns ++ failures turns' :=
  List.filterMap_append

theorem calm_append : Calm (turns ++ turns') ↔ Calm turns ∧ Calm turns' :=
  List.forall_mem_append

end Turns

variable {α β : Type} {turns : Turns}

/-! ### Fetches -/

/-- What the outcome of a fetch says about failures: what its value reports, or the failure that
ended it. -/
def problems (report : α → List SyncError) : Outcome α → List SyncError
  | .ok value => report value
  | .error error => [error]

/-- The value of a fetch that ends with its first failure reports none. -/
def silent (_ : α) : List SyncError := []

/-- A fetch accounts for the failures of its calls. -/
def Accounts (report : α → List SyncError) (fetch : Fetch α) : Prop :=
  ∀ ⦃turns : Turns⦄ ⦃result : Outcome α⦄, Held fetch.run turns (some result) → turns.Calm →
    StandFor (problems report result) turns.failures

namespace Accounts

variable {report : α → List SyncError} {report' : β → List SyncError} {fetch : Fetch α}

theorem pure {value : α} (none : report value = []) :
    Accounts report (Pure.pure value : Fetch α) := by
  intro turns result held _
  cases held
  rw [problems, none]
  exact .nothing

theorem query (asked : Query) : Accounts silent (Fetch.query asked) := by
  intro turns result held calm
  obtain ⟨reply, rfl, same⟩ := Held.of_question held
  cases same
  cases result with
  | ok value => exact .nothing
  | error error => exact .single ((calm _ (List.mem_singleton_self _)).2 error rfl)

theorem bind {next : α → Fetch β} (first : Accounts silent fetch)
    (second : ∀ value, Accounts report' (next value)) : Accounts report' (fetch >>= next) := by
  intro turns result held calm
  rcases Attempt.held_bind held with
    ⟨stopped, _⟩ | ⟨error, same, failed⟩ | ⟨value, front, back, rfl, former, latter⟩
  · cases stopped
  · cases same
    exact first failed calm
  · rw [Turns.calm_append] at calm
    rw [Turns.failures_append]
    exact (first former calm.1).append (second value latter calm.2)

/-- A fetch that only changes the value of another one, and not what it reports. -/
theorem map {change : α → β} (first : Accounts report fetch)
    (same : ∀ value, (report value).Perm (report' (change value))) :
    Accounts report' (fetch >>= fun value => Pure.pure (change value)) := by
  intro turns result held calm
  rcases Attempt.held_bind held with
    ⟨stopped, _⟩ | ⟨error, ended, failed⟩ | ⟨value, front, back, rfl, former, latter⟩
  · cases stopped
  · cases ended
    exact first failed calm
  · cases latter
    rw [List.append_nil] at calm ⊢
    exact (first former calm).perm (same value)

/-- A fetch that ends with its first failure accounts for it. -/
theorem composes : Composes fun _ => Accounts silent where
  pure _ := pure rfl
  stalled _ := fun _ _ held => nomatch held
  query := query
  bind := bind

/-! ### Tasks -/

/-- What a gathering reports: the failures of tasks that failed, and what the values of the others
report. -/
def reportAll (report : α → List SyncError) (collected : Collected α) : List SyncError :=
  collected.errors ++ collected.values.flatMap report

/-- A gathering adds to what it has the failures of its tasks. -/
theorem runTasks {tasks : List (Fetch α)} (each : ∀ task ∈ tasks, Accounts report task)
    {gathered : Collected α} {result : Outcome (Collected α)}
    (held : Held (CiTelemetry.runTasks gathered tasks).run turns (some result))
    (calm : turns.Calm) :
    ∃ collected reported, result = .ok collected ∧ StandFor reported turns.failures ∧
      (reportAll report collected).Perm (reportAll report gathered ++ reported) := by
  induction tasks generalizing gathered turns with
  | nil =>
    cases held
    exact ⟨gathered, [], rfl, .nothing, by rw [List.append_nil]⟩
  | cons task rest inductionHypothesis =>
    have others : ∀ task ∈ rest, Accounts report task :=
      fun task member => each task (List.mem_cons_of_mem _ member)
    rcases Attempt.held_outcome_bind held with
      ⟨stopped, _⟩ | ⟨outcome, front, back, rfl, former, latter⟩
    · cases stopped
    · rw [Turns.calm_append] at calm
      have accounted := each task List.mem_cons_self former calm.1
      rw [Turns.failures_append]
      cases outcome with
      | ok value =>
        obtain ⟨collected, reported, rfl, stand, same⟩ :=
          inductionHypothesis others latter calm.2
        refine ⟨collected, report value ++ reported, rfl, accounted.append stand, ?_⟩
        refine same.trans (.of_eq ?_)
        simp only [reportAll, List.flatMap_append, List.flatMap_singleton, List.append_assoc]
      | error error =>
        have goesOn : error.isCancelled = false :=
          (accounted.1 error (List.mem_singleton_self error)).isCancelled_eq_false
        dsimp only at latter
        rw [goesOn, if_neg Bool.false_ne_true] at latter
        obtain ⟨collected, reported, rfl, stand, same⟩ :=
          inductionHypothesis others latter calm.2
        refine ⟨collected, error :: reported, rfl, accounted.append stand, same.trans ?_⟩
        simp only [reportAll, List.append_assoc, List.singleton_append]
        exact List.perm_middle.symm.append_left _

/-- A pool accounts for the failures of its tasks. -/
theorem runPool {tasks : List (Fetch α)} (each : ∀ task ∈ tasks, Accounts report task) :
    Accounts (reportAll report) (CiTelemetry.runPool tasks) := by
  intro turns result held calm
  rcases Attempt.held_lift_bind held with
    ⟨stopped, _⟩ | ⟨isCancelled, front, back, rfl, former, latter⟩
  · cases stopped
  · obtain ⟨reply, rfl, same⟩ := Held.of_question former
    cases same
    rw [Turns.calm_append] at calm
    cases isCancelled with
    | true => exact absurd rfl (calm.1 _ (List.mem_singleton_self _)).1
    | false =>
      obtain ⟨collected, reported, rfl, stand, same⟩ := runTasks each latter calm.2
      exact stand.perm same.symm

/-- A pool with one task for each element of a list. -/
theorem runPool_map {items : List β} {task : β → Fetch α}
    (each : ∀ item, Accounts report (task item)) :
    Accounts (reportAll report) (CiTelemetry.runPool (items.map task)) :=
  runPool fun _ member => by
    obtain ⟨item, _, rfl⟩ := List.mem_map.mp member
    exact each item

/-- What tasks report whose values report nothing. -/
theorem reportAll_silent (collected : Collected α) :
    reportAll silent collected = collected.errors := by
  rw [reportAll]
  exact (congrArg _ (List.flatMap_eq_nil_iff.mpr fun _ _ => rfl)).trans (List.append_nil _)

/-- A pool whose tasks end with their first failure. -/
theorem runPool_silent {items : List β} {task : β → Fetch α}
    (each : ∀ item, Accounts silent (task item)) :
    Accounts (·.errors) (CiTelemetry.runPool (items.map task)) := by
  rw [← funext reportAll_silent]
  exact runPool_map each

/-! ### Pipelines -/

/-- A walk over bridges adds to the failures that it knows those of its look-ups. -/
theorem followBridges {steps allowance : Nat} {hierarchy : PipelineHierarchy}
    {errors : List SyncError} {pending : List PendingPipeline}
    {result : Outcome (PipelineHierarchy × List SyncError)}
    (held : Held (CiTelemetry.followBridges steps allowance hierarchy errors pending).run turns
      (some result))
    (calm : turns.Calm) :
    ∃ complete reported, result = .ok (complete, errors ++ reported) ∧
      StandFor reported turns.failures := by
  induction steps generalizing turns hierarchy errors pending with
  | zero =>
    cases pending with
    | nil =>
      cases held
      exact ⟨hierarchy, [], by rw [List.append_nil], .nothing⟩
    | cons next rest => cases held
  | succ steps inductionHypothesis =>
    cases pending with
    | nil =>
      cases held
      exact ⟨hierarchy, [], by rw [List.append_nil], .nothing⟩
    | cons next rest =>
      rw [CiTelemetry.followBridges] at held
      split at held
      · exact inductionHypothesis held calm
      · rcases Attempt.held_outcome_bind held with
          ⟨stopped, _⟩ | ⟨outcome, front, back, rfl, lookedUp, latter⟩
        · cases stopped
        · rw [Turns.calm_append] at calm
          have accounted := composes.fetchPending allowance next lookedUp calm.1
          rw [Turns.failures_append]
          rcases outcome with error | found
          · have goesOn : error.isCancelled = false :=
              (accounted.1 error (List.mem_singleton_self error)).isCancelled_eq_false
            dsimp only at latter
            rw [goesOn, if_neg Bool.false_ne_true] at latter
            obtain ⟨complete, reported, rfl, stand⟩ := inductionHypothesis latter calm.2
            refine ⟨complete, error :: reported, ?_, accounted.append stand⟩
            rw [List.append_assoc, List.singleton_append]
          · cases found with
            | none | some =>
              obtain ⟨complete, reported, rfl, stand⟩ := inductionHypothesis latter calm.2
              exact ⟨complete, reported, rfl, accounted.append stand⟩

theorem fetchHierarchy (allowance : Nat) (projectId : Int) (path : String) (root : PipelineNode) :
    Accounts (·.2) (CiTelemetry.fetchHierarchy allowance projectId path root) := by
  refine bind (composes.fetchEntry allowance projectId path root) fun found => ?_
  cases found with
  | none => exact pure rfl
  | some entry =>
    have walk : Accounts (·.2)
        (CiTelemetry.followBridges allowance allowance (.ofRoot entry) [] entry.pending) := by
      intro turns result held calm
      obtain ⟨complete, reported, rfl, stand⟩ := followBridges held calm
      exact stand
    exact map walk fun _ => .refl _

theorem fetchPipelineHierarchies (allowance : Nat) (ids : List Int) (window : SyncWindow) :
    Accounts (·.errors) (CiTelemetry.fetchPipelineHierarchies allowance ids window) := by
  rw [CiTelemetry.fetchPipelineHierarchies]
  split
  · exact pure rfl
  · refine bind (composes.flattenNested (fun _ _ => query (.projectPipelines ..))
      (fun _ => query (.projectsPipelines ..)) _ _ _) fun projects => ?_
    exact map (runPool_map fun root => fetchHierarchy allowance _ _ _) fun _ => .refl _

/-! ### The other fetches -/

theorem fetchProjectChanges (allowance : Nat) (ids : List Int) (window : SyncWindow) :
    Accounts (·.errors) (CiTelemetry.fetchProjectChanges allowance ids window) := by
  rw [CiTelemetry.fetchProjectChanges]
  split
  · exact pure rfl
  · exact map (composes.collect (fun _ => query (.projectChanges ..)) allowance _) fun _ => .refl _

theorem fetchJobLogs (jobs : List Job) : Accounts (·.errors) (CiTelemetry.fetchJobLogs jobs) :=
  runPool_silent fun _ => map (query (.jobLog ..)) fun _ => .refl _

theorem fetchTestReports (pipelines : List Pipeline) :
    Accounts (·.errors) (CiTelemetry.fetchTestReports pipelines) :=
  map (runPool_silent fun _ => query (.testReport ..)) fun _ => .refl _

theorem fetchDeployments (ids : List Int) (window : SyncWindow) :
    Accounts (·.errors) (CiTelemetry.fetchDeployments ids window) :=
  map (runPool_silent fun _ => query (.deployments ..)) fun _ => .refl _

theorem fetchRunners (ids : List Int) : Accounts (·.errors) (CiTelemetry.fetchRunners ids) :=
  runPool_silent fun _ => query (.runner ..)

theorem fetchMergeRequestPass (allowance : Nat) (ids : List Int) (window : SyncWindow)
    (pass : MergeRequestPass) :
    Accounts silent (CiTelemetry.fetchMergeRequestPass allowance ids window pass) :=
  composes.fetchMergeRequestPass allowance ids window pass

end Accounts

/-- What is settled of a fetch are the failures that it reports. -/
theorem settle_errors (result : Outcome (Collected α)) :
    (settle result).2 = problems (·.errors) result := by
  cases result <;> rfl

/-- All fetches for pipelines together account for their failures. -/
theorem standFor_of_fetchCi {context : SyncContext} {projects : List ProjectSettings}
    {window : SyncWindow} {batch : ExportBatch} {errors : List SyncError}
    (held : Held (fetchCi context projects window) turns (some (batch, errors)))
    (calm : turns.Calm) : StandFor errors turns.failures := by
  obtain ⟨_, front, _, rfl, hierarchies, held⟩ := held.of_bind_some
  obtain ⟨_, second, _, rfl, logs, held⟩ := held.of_bind_some
  obtain ⟨_, third, _, rfl, reports, held⟩ := held.of_bind_some
  obtain ⟨_, fourth, _, rfl, deployments, held⟩ := held.of_bind_some
  obtain ⟨_, fifth, _, rfl, runners, held⟩ := held.of_bind_some
  cases held
  simp only [Turns.calm_append] at calm
  obtain ⟨calmFront, calmSecond, calmThird, calmFourth, calmFifth, _⟩ := calm
  have fetched := (Accounts.fetchPipelineHierarchies _ _ window hierarchies calmFront).append
    (Accounts.fetchJobLogs _ logs calmSecond)
  have reported := (fetched.append (Accounts.fetchTestReports _ reports calmThird)).append
    (Accounts.fetchDeployments _ window deployments calmFourth)
  have all := reported.append (Accounts.fetchRunners _ runners calmFifth)
  simp only [← Turns.failures_append, ← settle_errors, List.append_assoc] at all
  rw [List.append_nil, List.append_assoc, List.append_assoc, List.append_assoc]
  exact all

/-! ### Exports -/

/-- The failures of an outcome that joins failures stand for what these do. -/
theorem standFor_joinResult {errors causes : List SyncError} (stand : StandFor errors causes) :
    StandFor (failures [joinResult errors]) causes := by
  have joined := stand.join
  rw [joinResult]
  generalize join errors = whole at joined ⊢
  cases whole <;> exact joined

namespace Exporter

variable {exporter : Exporter}

theorem standFor_of_sendToEach {kind : EntityKind} {values : List Json} {sinks : List Nat}
    {refusals : List SyncError} (held : Held (sendToEach kind values sinks) turns (some refusals))
    (calm : turns.Calm) : StandFor refusals turns.failures := by
  induction sinks generalizing turns refusals with
  | nil =>
    cases held
    exact .nothing
  | cons sink rest inductionHypothesis =>
    obtain ⟨outcome, _, _, rfl, sent, after⟩ := held.of_bind_some
    obtain ⟨others, back, _, rfl, each, ended⟩ := after.of_bind_some
    obtain ⟨reply, rfl, same⟩ := Held.of_question sent
    cases same
    rw [Turns.calm_append, Turns.calm_append] at calm
    have accounted := inductionHypothesis each calm.2.1
    cases outcome with
    | ok =>
      cases ended
      rw [List.append_nil]
      exact accounted
    | error refusal =>
      cases ended
      rw [List.append_nil]
      have real := (calm.1 _ (List.mem_singleton_self _)).2 refusal rfl
      exact (StandFor.single real).append accounted

theorem standFor_of_send {kind : EntityKind} {values : List Json} {outcome : Outcome Unit}
    (held : Held (exporter.send kind values) turns (some outcome)) (calm : turns.Calm) :
    StandFor (CiTelemetry.failures [outcome]) turns.failures := by
  rw [send] at held
  split at held
  · cases held
    exact .nothing
  · obtain ⟨refusals, _, _, rfl, each, ended⟩ := held.of_bind_some
    cases ended
    rw [List.append_nil] at calm ⊢
    exact standFor_joinResult (standFor_of_sendToEach each calm)

theorem standFor_of_sendKinds {batch : ExportBatch} {errors : List SyncError}
    (held : Held (exporter.sendKinds batch) turns (some errors)) (calm : turns.Calm) :
    StandFor errors turns.failures := by
  induction batch generalizing turns errors with
  | nil =>
    cases held
    exact .nothing
  | cons part rest inductionHypothesis =>
    obtain ⟨outcome, _, _, rfl, sent, after⟩ := held.of_bind_some
    obtain ⟨others, back, _, rfl, each, ended⟩ := after.of_bind_some
    rw [Turns.calm_append, Turns.calm_append] at calm
    have accounted := (standFor_of_send sent calm.1).append (inductionHypothesis each calm.2.1)
    rw [Turns.failures_append]
    cases outcome <;> cases ended <;> rw [List.append_nil] <;> exact accounted

theorem standFor_of_exportBatch {batch : ExportBatch} {outcome : Outcome Unit}
    (held : Held (exporter.exportBatch batch) turns (some outcome)) (calm : turns.Calm) :
    StandFor (CiTelemetry.failures [outcome]) turns.failures := by
  obtain ⟨errors, _, _, rfl, each, ended⟩ := held.of_bind_some
  cases ended
  rw [List.append_nil] at calm ⊢
  exact standFor_joinResult (standFor_of_sendKinds each calm)

end Exporter

end CiTelemetry
