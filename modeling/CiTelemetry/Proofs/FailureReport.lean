/-
This file proves that no failure of a batch is swallowed and none is told twice.
A batch without cancellation succeeds if and only if every call of the server
succeeded, no merge request was an orphan and no sink refused anything;
otherwise it fails with exactly the single failures that these are. The one
failure that cannot be told from success is one that joins no failure at all.
-/

import CiTelemetry.Proofs.Completion
import CiTelemetry.Proofs.FailureAccounting
import CiTelemetry.Proofs.Isolation
import CiTelemetry.Proofs.MergeOrphans

namespace CiTelemetry

open Dialogue SyncError

/-! ### Orphans of a run -/

/-- The pass over merge requests that a question belongs to. -/
def Action.pass? : Action → Option MergeRequestPass
  | query (.mergeRequests _ _ pass _) => some pass
  | query (.projectMergeRequests _ _ pass _) => some pass
  | _ => none

namespace Turns

/-- The turns of one pass over merge requests. -/
def ofPass (pass : MergeRequestPass) (turns : Turns) : Turns :=
  turns.filter (·.asked.pass? = some pass)

/-- The turns that are about merge requests. -/
def aboutRequests (turns : Turns) : Turns :=
  turns.filter (·.asked.subject = .mergeRequests)

variable {turns turns' : Turns}

theorem aboutRequests_append :
    aboutRequests (turns ++ turns') = aboutRequests turns ++ aboutRequests turns' :=
  List.filter_append ..

theorem aboutRequests_of_keepsTo {α : Type} {subject : Subject} {dialogue : Sync α}
    {result : Option α} (about : KeepsTo subject dialogue) (held : Held dialogue turns result) :
    aboutRequests turns = if subject = .mergeRequests then turns else [] :=
  about.filter_turns held (· = .mergeRequests)

/-- The turns of a pass are about merge requests. -/
theorem ofPass_aboutRequests (pass : MergeRequestPass) :
    ofPass pass (aboutRequests turns) = ofPass pass turns := by
  rw [ofPass, aboutRequests, List.filter_filter, ofPass]
  refine List.filter_congr fun turn _ => ?_
  obtain ⟨asked, reply⟩ := turn
  cases asked with
  | query asked => cases asked <;> simp [Action.pass?, Action.subject, Query.subject]
  | _ => rfl

end Turns

/-- A pass over merge requests came to its end in a run, and brought these. -/
def Brought (allowance : Nat) (turns : Turns) (pass : MergeRequestPass)
    (projects : List (Nested ProjectMergeRequestsNode MergeRequestNode)) : Prop :=
  ∃ ids window, Held (fetchMergeRequestPass allowance ids window pass).run (turns.ofPass pass)
    (some (.ok projects))

/-- The failures that stand for the orphans of a run: of what its passes brought, or none where a
pass did not come to its end or no merge requests were asked for. -/
inductive Orphans (allowance : Nat) (turns : Turns) : List SyncError → Prop
  | brought {core extra participants : List (Nested ProjectMergeRequestsNode MergeRequestNode)}
      (ofCore : Brought allowance turns .core core) (ofExtra : Brought allowance turns .extra extra)
      (ofParticipants : Brought allowance turns .participants participants) :
    Orphans allowance turns (orphanErrors core extra participants)
  | failed {turn : Turn Action Action.Reply} (member : turn ∈ turns.aboutRequests)
      (failure : turn.failure? ≠ none) : Orphans allowance turns []
  | unasked (none : turns.aboutRequests = []) : Orphans allowance turns []

/-- Orphans are a matter of the turns that are about merge requests. -/
theorem Orphans.of_aboutRequests {allowance : Nat} {turns requests : Turns}
    {orphans : List SyncError} (found : Orphans allowance requests orphans)
    (same : requests.aboutRequests = turns.aboutRequests) : Orphans allowance turns orphans := by
  have samePass : ∀ pass, requests.ofPass pass = turns.ofPass pass := fun pass => by
    rw [← Turns.ofPass_aboutRequests, same, Turns.ofPass_aboutRequests]
  have brings : ∀ {pass projects}, Brought allowance requests pass projects →
      Brought allowance turns pass projects := by
    rintro pass projects ⟨ids, window, held⟩
    rw [samePass] at held
    exact ⟨ids, window, held⟩
  cases found with
  | brought ofCore ofExtra ofParticipants =>
    exact .brought (brings ofCore) (brings ofExtra) (brings ofParticipants)
  | failed member failure => exact .failed (same ▸ member) failure
  | unasked none => exact .unasked (same ▸ none)

/-! ### The fetch of merge requests -/

section MergeRequests

variable {allowance : Nat} {ids : List Int} {window : SyncWindow} {turns : Turns}

/-- A pass asks only its own questions. -/
theorem asks_fetchMergeRequestPass (pass : MergeRequestPass) :
    (fetchMergeRequestPass allowance ids window pass).run.Asks (·.pass? = some pass) :=
  Asks.flattenNested (fun _ _ => Asks.question (by rfl)) (fun _ => Asks.question (by rfl)) _ _ _

theorem ofPass_of_held {pass other : MergeRequestPass}
    {result : Option (Outcome (List (Nested ProjectMergeRequestsNode MergeRequestNode)))}
    (held : Held (fetchMergeRequestPass allowance ids window pass).run turns result) :
    turns.ofPass other = if pass = other then turns else [] := by
  rw [Turns.ofPass, (asks_fetchMergeRequestPass pass).filter_turns held (· = some other)]
  simp only [Option.some_inj]

/-- What a fetch of merge requests reports are the orphans of its run. -/
theorem orphans_of_fetchMergeRequests {collected : Collected MergeRequest} (isSome : ids ≠ [])
    (held : Held (fetchMergeRequests allowance ids window).run turns (some (.ok collected))) :
    Orphans allowance turns collected.errors := by
  rw [fetchMergeRequests, if_neg (by rwa [List.isEmpty_iff])] at held
  obtain ⟨core, ofCore, _, rfl, isCore, held⟩ := Attempt.held_bind_ok held
  obtain ⟨extra, ofExtra, _, rfl, isExtra, held⟩ := Attempt.held_bind_ok held
  obtain ⟨participants, ofParticipants, _, rfl, isParticipants, held⟩ := Attempt.held_bind_ok held
  cases held
  have parts : ∀ pass, Turns.ofPass pass (ofCore ++ (ofExtra ++ (ofParticipants ++ []))) =
      (if .core = pass then ofCore else []) ++ ((if .extra = pass then ofExtra else []) ++
        (if .participants = pass then ofParticipants else [])) := by
    intro pass
    rw [List.append_nil, ← ofPass_of_held isCore, ← ofPass_of_held isExtra,
      ← ofPass_of_held isParticipants, Turns.ofPass, List.filter_append, List.filter_append]
    rfl
  rw [errors_addPass]
  refine .brought ⟨ids, window, ?_⟩ ⟨ids, window, ?_⟩ ⟨ids, window, ?_⟩
  · rw [parts]
    simpa using isCore
  · rw [parts]
    simpa using isExtra
  · rw [parts]
    simpa using isParticipants

/-- A fetch of merge requests that is not given up had no failure. -/
theorem accounts_fetchMergeRequests :
    Accounts silent (fetchMergeRequests allowance ids window) := by
  have pass := Accounts.fetchMergeRequestPass allowance ids window
  rw [fetchMergeRequests]
  split
  · exact .pure rfl
  · refine .bind (pass .core) fun core => ?_
    refine .bind (pass .extra) fun extra => ?_
    exact .bind (pass .participants) fun participants => .pure rfl

end MergeRequests

/-! ### The parts of a batch -/

section Parts

variable {context : SyncContext} {window : SyncWindow} {turns : Turns} {outcome : Outcome Unit}

/-- The export of pipelines accounts for all of its failures. -/
theorem standFor_of_ciSynced {projects : List ProjectSettings}
    (synced : CiSynced context projects window turns (some outcome)) (calm : turns.Calm) :
    StandFor (failures [outcome]) turns.failures := by
  generalize same : some outcome = result at synced
  cases synced with
  | nothing =>
    cases same
    exact .nothing
  | stalled => cases same
  | @fetched _ _ _ _ exported _ fetched sent =>
    cases exported with
    | none => cases same
    | some exported =>
      cases same
      rw [Turns.calm_append] at calm
      rw [Turns.failures_append]
      exact standFor_joinResult ((standFor_of_fetchCi fetched calm.1).append
        (Exporter.standFor_of_exportBatch sent calm.2))

/-- Every orphan is a single failure of its own. -/
theorem conversion_of_orphans {allowance : Nat} {orphans : List SyncError}
    (found : Orphans allowance turns orphans) :
    ∀ error ∈ orphans, ∃ reason, error = .conversion reason := by
  cases found with
  | brought =>
    intro error member
    rcases List.mem_append.mp member with extra | participants
    · obtain ⟨id, _, rfl⟩ := List.mem_map.mp extra
      exact ⟨_, rfl⟩
    · obtain ⟨id, _, rfl⟩ := List.mem_map.mp participants
      exact ⟨_, rfl⟩
  | failed => exact fun _ member => nomatch member
  | unasked => exact fun _ member => nomatch member

theorem isReal_of_orphans {allowance : Nat} {orphans : List SyncError}
    (found : Orphans allowance turns orphans) : ∀ error ∈ orphans, error.IsReal := by
  intro error member
  obtain ⟨reason, rfl⟩ := conversion_of_orphans found error member
  exact .of_leaves rfl fun isCancelled => nomatch isCancelled

/-- Where something failed there is a turn in which it did. -/
theorem exists_failure {errors : List SyncError} (stand : StandFor errors turns.failures)
    (notNone : errors ≠ []) : ∃ turn ∈ turns, turn.failure? ≠ none := by
  obtain ⟨error, member⟩ := List.exists_mem_of_ne_nil errors notNone
  by_contra none
  have nothing : turns.failures = [] := by
    refine List.filterMap_eq_nil_iff.mpr fun turn inside => ?_
    by_contra failed
    exact none ⟨turn, inside, failed⟩
  rw [nothing] at stand
  have empty : errors.flatMap leaves = [] := stand.2.eq_nil
  exact (stand.1 error member).1 (List.flatMap_eq_nil_iff.mp empty error member)

/-- The export of merge requests accounts for all of its failures and for the orphans. -/
theorem standFor_of_mergeRequestsSynced {ids : List Int}
    (synced : MergeRequestsSynced context ids window turns (some outcome)) (calm : turns.Calm) :
    ∃ orphans, Orphans context.allowance turns orphans ∧
      StandFor (failures [outcome]) (turns.failures ++ orphans) := by
  generalize same : some outcome = result at synced
  have about := KeepsTo.fetchMergeRequests context.allowance ids window
  cases synced with
  | nothing =>
    cases same
    exact ⟨[], .unasked rfl, .nothing⟩
  | stalled => cases same
  | @failed _ error _ fetched =>
    cases same
    have accounted := accounts_fetchMergeRequests fetched calm
    obtain ⟨turn, inside, failure⟩ := exists_failure accounted (List.cons_ne_nil _ _)
    refine ⟨[], .failed ?_ failure, ?_⟩
    · rw [Turns.aboutRequests_of_keepsTo about fetched, if_pos rfl]
      exact inside
    · rw [List.append_nil]
      exact accounted
  | @fetched fetching sending collected exported isSome fetched sent =>
    cases exported with
    | none => cases same
    | some exported =>
      cases same
      rw [Turns.calm_append] at calm
      have found := orphans_of_fetchMergeRequests isSome fetched
      refine ⟨collected.errors, found.of_aboutRequests ?_, ?_⟩
      · rw [Turns.aboutRequests_append,
          Turns.aboutRequests_of_keepsTo (.send context.exporter _ _) sent, if_neg (by decide),
          List.append_nil]
      · have told := StandFor.join (.refl (isReal_of_orphans found))
        have joined := told.append (Exporter.standFor_of_send sent calm.2)
        have all := (accounts_fetchMergeRequests fetched calm.1).append joined
        rw [Turns.failures_append, List.append_assoc]
        exact standFor_joinResult (all.perm_causes (List.perm_append_comm.append_left _))

/-- The export of pipelines asks nothing about merge requests. -/
theorem aboutRequests_of_ciSynced {projects : List ProjectSettings}
    {result : Option (Outcome Unit)} (synced : CiSynced context projects window turns result) :
    turns.aboutRequests = [] := by
  have about := KeepsTo.fetchCi context projects window
  cases synced with
  | nothing => rfl
  | stalled _ fetched => rw [Turns.aboutRequests_of_keepsTo about fetched, if_neg (by decide)]
  | fetched _ fetched sent =>
    rw [Turns.aboutRequests_append, Turns.aboutRequests_of_keepsTo about fetched,
      Turns.aboutRequests_of_keepsTo (.exportBatch context.exporter _) sent, if_neg (by decide),
      if_neg (by decide), List.append_nil]

/-- The processing of a batch accounts for all of its failures and for the orphans. -/
theorem standFor_of_processed {batch : FetchBatch} {everything : Bool}
    (processed : Processed context batch window everything turns (some outcome))
    (calm : turns.Calm) :
    ∃ orphans, Orphans context.allowance turns orphans ∧
      StandFor (failures [outcome]) (turns.failures ++ orphans) := by
  have about := KeepsTo.fetchProjectChanges context.allowance (batch.map (·.id)) window
  generalize same : some outcome = result at processed
  cases processed with
  | stalled => cases same
  | @failed _ error asked =>
    cases same
    refine ⟨[], .unasked ?_, ?_⟩
    · rw [Turns.aboutRequests_of_keepsTo about asked, if_neg (by decide)]
    · rw [List.append_nil]
      exact Accounts.fetchProjectChanges _ _ window asked calm
  | @parted asking exporting aboutCi aboutRequests changes errors exported synced merged asked
      projects ci mergeRequests =>
    cases exported with
    | none => cases same
    | some exported =>
      cases synced with
      | none => cases same
      | some synced =>
        cases merged with
        | none => cases same
        | some merged =>
          cases same
          simp only [Turns.calm_append] at calm
          obtain ⟨calmAsking, calmExporting, calmCi, calmRequests⟩ := calm
          obtain ⟨orphans, found, ofRequests⟩ :=
            standFor_of_mergeRequestsSynced mergeRequests calmRequests
          refine ⟨orphans, found.of_aboutRequests ?_, ?_⟩
          · rw [Turns.aboutRequests_append, Turns.aboutRequests_append, Turns.aboutRequests_append,
              Turns.aboutRequests_of_keepsTo about asked,
              Turns.aboutRequests_of_keepsTo (.send context.exporter _ _) projects,
              aboutRequests_of_ciSynced ci, if_neg (by decide), if_neg (by decide),
              List.nil_append, List.nil_append, List.nil_append]
          · have changed : StandFor errors asking.failures :=
              Accounts.fetchProjectChanges _ _ window asked calmAsking
            have exports := changed.append (Exporter.standFor_of_send projects calmExporting)
            have all := (exports.append (standFor_of_ciSynced ci calmCi)).append ofRequests
            simp only [Turns.failures_append, List.append_assoc] at all ⊢
            refine standFor_joinResult ?_
            have split : failures [exported, synced, merged] =
                failures [exported] ++ (failures [synced] ++ failures [merged]) := by
              rw [failures, failures, failures, failures, ← List.filterMap_append,
                ← List.filterMap_append]
              rfl
            rw [split]
            exact all

end Parts

/-- What an outcome says about the failures that it stands for: it is a success if and only if there
are none, and otherwise it holds exactly their single failures. -/
theorem outcome_of_standFor {outcome : Outcome Unit} {causes : List SyncError}
    (stand : StandFor (failures [outcome]) causes) (real : ∀ cause ∈ causes, cause.IsReal) :
    (outcome = .ok () ↔ causes = []) ∧
      ∀ error, outcome = .error error → error.leaves.Perm (causes.flatMap leaves) := by
  cases outcome with
  | ok =>
    refine ⟨⟨fun _ => ?_, fun _ => rfl⟩, fun _ same => nomatch same⟩
    have empty : causes.flatMap leaves = [] := stand.2.symm.eq_nil
    by_contra notNone
    obtain ⟨cause, member⟩ := List.exists_mem_of_ne_nil causes notNone
    exact (real cause member).1 (List.flatMap_eq_nil_iff.mp empty cause member)
  | error error =>
    have same : (failures [.error error]).flatMap leaves = error.leaves := List.flatMap_singleton ..
    refine ⟨⟨fun isOk => (nomatch isOk), fun none => ?_⟩, fun other isError => ?_⟩
    · have empty := stand.2
      rw [same, none] at empty
      exact absurd empty.eq_nil (stand.1 error (List.mem_singleton_self error)).1
    · cases isError
      rw [← same]
      exact stand.2

/-- A batch without cancellation has an outcome unless its run is as heavy as the allowance. The
outcome is a success if and only if nothing failed and no merge request was an orphan; otherwise it
is a failure in which every call that failed, every refusal and every orphan is found exactly once.
-/
theorem process_reports_failures {context : SyncContext} {batch : FetchBatch} {window : SyncWindow}
    {everything : Bool} {turns : Turns} {result : Option (Outcome Unit)}
    (held : Held (process context batch window everything) turns result) (calm : turns.Calm) :
    (result = none → context.allowance ≤ turns.weight) ∧
      ∀ outcome, result = some outcome → ∃ orphans, Orphans context.allowance turns orphans ∧
        (outcome = .ok () ↔ turns.failures = [] ∧ orphans = []) ∧
          ∀ error, outcome = .error error →
            error.leaves.Perm (turns.failures.flatMap leaves ++ orphans) := by
  refine ⟨fun stopped => endures_process batch everything (stopped ▸ held), fun outcome same => ?_⟩
  rw [same] at held
  obtain ⟨orphans, found, stand⟩ := standFor_of_processed (processed_of_held held) calm
  have real : ∀ cause ∈ turns.failures ++ orphans, cause.IsReal := by
    intro cause member
    rcases List.mem_append.mp member with failed | orphan
    · obtain ⟨turn, inside, isFailure⟩ := List.mem_filterMap.mp failed
      exact (calm turn inside).2 cause isFailure
    · exact isReal_of_orphans found cause orphan
  have single : orphans.flatMap leaves = orphans := by
    refine (List.flatMap_congr fun error member => ?_).trans (List.flatMap_singleton' orphans)
    obtain ⟨reason, rfl⟩ := conversion_of_orphans found error member
    rfl
  obtain ⟨succeeds, fails⟩ := outcome_of_standFor stand real
  rw [List.append_eq_nil_iff] at succeeds
  rw [List.flatMap_append, single] at fails
  exact ⟨orphans, found, succeeds, fails⟩

namespace OneProject

/-- A page with one merge request of the project. -/
def pageOf (id : String) : Outcome (Page ProjectMergeRequestsNode) :=
  .ok (Page.last
    [⟨"gid://gitlab/Project/1", "g/app",
      some ⟨[some { (default : MergeRequestNode) with id }], ⟨none, false⟩⟩⟩])

/-- Passes of which the second one tells of a merge request that the first one did not. -/
def orphaning : MergeRequestPass → Outcome (Page ProjectMergeRequestsNode)
  | .core => pageOf "gid://gitlab/MergeRequest/1"
  | .extra => pageOf "gid://gitlab/MergeRequest/2"
  | .participants => .ok (Page.last [])

/-- Nothing is cancelled there, and no failure is made of others unless an answer is. -/
theorem turn_of_turnsWith {requests : MergeRequestPass → Outcome (Page ProjectMergeRequestsNode)}
    {deployments : Outcome (List Deployment)} {refused : Option EntityKind}
    {turn : Turn Action Action.Reply} (member : turn ∈ turnsWith requests deployments refused) :
    turn ≠ ⟨.isCancelled, true⟩ ∧ ∀ error, turn.failure? = some error →
      (∃ pass, requests pass = .error error) ∨ deployments = .error error ∨ error = .network ∨
        ∃ kind, error = .sinkUnreachable "first" kind := by
  obtain ⟨asked, reply⟩ := turn
  have fixed : reply = replies requests deployments refused asked := reply_of_mem_transcript member
  subst fixed
  clear member
  refine ⟨fun same => ?_, fun error failed => ?_⟩
  · cases asked <;> cases same
  · cases asked with
    | query asked =>
      cases asked with
      | mergeRequests ids window pass cursor =>
        cases answer : requests pass with
        | ok => simp only [replies, answer, Turn.failure?, reduceCtorEq] at failed
        | error refusal =>
          simp only [replies, answer, Turn.failure?, Option.some_inj] at failed
          exact .inl ⟨pass, failed ▸ answer⟩
      | deployments =>
        cases deployments with
        | ok => cases failed
        | error refusal => exact .inr (.inl (congrArg _ (Option.some_inj.mp failed)))
      | projectChanges => cases failed
      | projectsPipelines => cases failed
      | _ => exact .inr (.inr (.inl (Option.some_inj.mp failed).symm))
    | send sink kind records =>
      by_cases refuses : sink = 0 ∧ refused = some kind
      · simp only [replies, if_pos refuses, Turn.failure?, Option.some_inj] at failed
        exact .inr (.inr (.inr ⟨kind.name, failed.symm⟩))
      · simp only [replies, if_neg refuses, Turn.failure?, reduceCtorEq] at failed
    | _ => cases failed

/-- A run in which deployments cannot be fetched, a merge request is an orphan, and a sink refuses
the other one. -/
def failingTurns : Turns :=
  turnsWith orphaning (.error .network) (some .mergeRequests)

theorem calm_failingTurns : failingTurns.Calm := by
  intro turn member
  obtain ⟨notCancelled, fails⟩ := turn_of_turnsWith member
  refine ⟨notCancelled, fun error failed => ?_⟩
  obtain ⟨pass, isError⟩ | isError | rfl | ⟨kind, rfl⟩ := fails error failed
  · cases pass <;> cases isError
  · cases isError
    exact .of_leaves rfl fun isCancelled => nomatch isCancelled
  · exact .of_leaves rfl fun isCancelled => nomatch isCancelled
  · exact .of_leaves rfl fun isCancelled => nomatch isCancelled

/-- All three failures are reported. -/
theorem failingTurns_reported :
    failingTurns.failures = [.network, .sinkUnreachable "first" "mergerequests"] ∧
      ∃ orphans, Orphans 10 failingTurns orphans ∧
        [.network, orphanError .extra 2, .sinkUnreachable "first" "mergerequests"].Perm
          (failingTurns.failures.flatMap leaves ++ orphans) := by
  have held : Held processing failingTurns (some (.error (.several
      [.network, orphanError .extra 2, .sinkUnreachable "first" "mergerequests"]))) :=
    held_turnsWith orphaning (.error .network) (some .mergeRequests)
  obtain ⟨orphans, found, _, fails⟩ :=
    (process_reports_failures held calm_failingTurns).2 _ rfl
  exact ⟨rfl, orphans, found, fails _ rfl⟩

/-- A run in which the fetch of deployments fails, with a failure that joins no other. -/
def hollowTurns : Turns :=
  turnsWith (fun _ => .ok (Page.last [])) (.error (.several [])) none

/-- Such a failure is swallowed: the batch succeeds although a call failed. -/
theorem hollowTurns_succeed :
    Held processing hollowTurns (some (.ok ())) ∧ hollowTurns.failures = [.several []] ∧
      ∀ turn ∈ hollowTurns, turn ≠ ⟨.isCancelled, true⟩ ∧
        ∀ error, turn.failure? = some error → .cancelled ∉ error.leaves := by
  refine ⟨held_turnsWith (fun _ => .ok (Page.last [])) (.error (.several [])) none, rfl,
    fun turn member => ?_⟩
  obtain ⟨notCancelled, fails⟩ := turn_of_turnsWith member
  refine ⟨notCancelled, fun error failed => ?_⟩
  obtain ⟨_, isError⟩ | isError | rfl | ⟨kind, rfl⟩ := fails error failed
  · cases isError
  · cases isError
    exact List.not_mem_nil
  · exact fun isLeaf => nomatch List.mem_singleton.mp isLeaf
  · exact fun isLeaf => nomatch List.mem_singleton.mp isLeaf

end OneProject

end CiTelemetry
