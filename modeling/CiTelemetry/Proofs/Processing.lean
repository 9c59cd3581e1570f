/-
This file takes the processing of a batch apart: which parts of it were held,
with which turns, and how its outcome is put together from theirs. Everything
that is proved about a whole batch is proved of these parts.
-/

import CiTelemetry.Proofs.Conversations
import CiTelemetry.Sync.Process

namespace CiTelemetry

open Dialogue

/-- The turns of a synchronization. -/
abbrev Turns := List (Turn Action Action.Reply)

variable {context : SyncContext} {window : SyncWindow} {turns : Turns}
  {result : Option (Outcome Unit)}

/-! ### Pipelines and what belongs to them -/

/-- What became of the export of pipelines and what belongs to them. -/
inductive CiSynced (context : SyncContext) (projects : List ProjectSettings) (window : SyncWindow) :
    Turns → Option (Outcome Unit) → Prop
  | nothing (without : projects = []) : CiSynced context projects window [] (some (.ok ()))
  | stalled {fetching : Turns} (isSome : projects ≠ [])
      (fetched : Held (fetchCi context projects window) fetching none) :
    CiSynced context projects window fetching none
  | fetched {fetching sending : Turns} {batch : ExportBatch} {errors : List SyncError}
      {exported : Option (Outcome Unit)} (isSome : projects ≠ [])
      (fetched : Held (fetchCi context projects window) fetching (some (batch, errors)))
      (sent : Held (context.exporter.exportBatch batch) sending exported) :
    CiSynced context projects window (fetching ++ sending)
      (exported.map fun exported => SyncError.joinResult (errors ++ failures [exported]))

theorem ciSynced_of_held {projects : List ProjectSettings}
    (held : Held (syncCi context projects window) turns result) :
    CiSynced context projects window turns result := by
  rw [syncCi] at held
  split at held
  · next none =>
    cases held
    exact .nothing (List.isEmpty_iff.mp none)
  · next notNone =>
    rw [List.isEmpty_iff] at notNone
    rcases Held.of_bind held with
      ⟨rfl, stopped⟩ | ⟨⟨batch, errors⟩, fetching, rest, rfl, fetched, after⟩
    · exact .stalled notNone stopped
    · obtain ⟨exported, sent, rfl⟩ := Held.of_bind_done _ after
      exact .fetched notNone fetched sent

/-! ### Merge requests -/

/-- What became of the export of merge requests. -/
inductive MergeRequestsSynced (context : SyncContext) (ids : List Int) (window : SyncWindow) :
    Turns → Option (Outcome Unit) → Prop
  | nothing (without : ids = []) : MergeRequestsSynced context ids window [] (some (.ok ()))
  | stalled {fetching : Turns} (isSome : ids ≠ [])
      (fetched : Held (fetchMergeRequests context.allowance ids window).run fetching none) :
    MergeRequestsSynced context ids window fetching none
  | failed {fetching : Turns} {error : SyncError} (isSome : ids ≠ [])
      (fetched : Held (fetchMergeRequests context.allowance ids window).run fetching
        (some (.error error))) :
    MergeRequestsSynced context ids window fetching (some (.error error))
  | fetched {fetching sending : Turns} {collected : Collected MergeRequest}
      {exported : Option (Outcome Unit)} (isSome : ids ≠ [])
      (fetched : Held (fetchMergeRequests context.allowance ids window).run fetching
        (some (.ok collected)))
      (sent : Held (context.exporter.exportRecords .mergeRequests (always MergeRequest.encode)
        collected.values) sending exported) :
    MergeRequestsSynced context ids window (fetching ++ sending)
      (exported.map fun exported =>
        SyncError.joinResult ((SyncError.join collected.errors).toList ++ failures [exported]))

theorem mergeRequestsSynced_of_held {ids : List Int}
    (held : Held (syncMergeRequests context ids window) turns result) :
    MergeRequestsSynced context ids window turns result := by
  rw [syncMergeRequests] at held
  split at held
  · next none =>
    cases held
    exact .nothing (List.isEmpty_iff.mp none)
  · next notNone =>
    rw [List.isEmpty_iff] at notNone
    rcases Held.of_bind held with ⟨rfl, stopped⟩ | ⟨outcome, fetching, rest, rfl, fetched, after⟩
    · exact .stalled notNone stopped
    · cases outcome with
      | error error =>
        cases after
        rw [List.append_nil]
        exact .failed notNone fetched
      | ok collected =>
        obtain ⟨exported, sent, rfl⟩ := Held.of_bind_done _ after
        exact .fetched notNone fetched sent

/-! ### A batch -/

/-- The outcome of a batch whose parts have ended: their failures joined into one. -/
def joinedOutcome (errors : List SyncError) (exported synced merged : Option (Outcome Unit)) :
    Option (Outcome Unit) :=
  exported.bind fun exported => synced.bind fun synced => merged.map fun merged =>
    SyncError.joinResult (errors ++ failures [exported, synced, merged])

/-- What became of the processing of a batch. -/
inductive Processed (context : SyncContext) (batch : FetchBatch) (window : SyncWindow)
    (everything : Bool) : Turns → Option (Outcome Unit) → Prop
  | stalled {asking : Turns}
      (asked : Held (fetchProjectChanges context.allowance (batch.map (·.id)) window).run asking
        none) :
    Processed context batch window everything asking none
  | failed {asking : Turns} {error : SyncError}
      (asked : Held (fetchProjectChanges context.allowance (batch.map (·.id)) window).run asking
        (some (.error error))) :
    Processed context batch window everything asking (some (.error error))
  | parted {asking exporting aboutCi aboutRequests : Turns} {changes : List ProjectChanges}
      {errors : List SyncError} {exported synced merged : Option (Outcome Unit)}
      (asked : Held (fetchProjectChanges context.allowance (batch.map (·.id)) window).run asking
        (some (.ok ⟨changes, errors⟩)))
      (projects : Held (context.exporter.exportRecords .projects (always Project.encode)
        (exportedProjects changes everything)) exporting exported)
      (ci : CiSynced context (projectsWithPipelines batch changes) window aboutCi synced)
      (mergeRequests : MergeRequestsSynced context (projectsWithMergeRequests batch changes) window
        aboutRequests merged) :
    Processed context batch window everything
      (asking ++ (exporting ++ (aboutCi ++ aboutRequests)))
      (joinedOutcome errors exported synced merged)

/-- A batch was processed in three parts, unless it is not even known which projects changed. -/
theorem processed_of_held {batch : FetchBatch} {everything : Bool}
    (held : Held (process context batch window everything) turns result) :
    Processed context batch window everything turns result := by
  rw [process] at held
  rcases Held.of_bind held with ⟨rfl, stopped⟩ | ⟨outcome, asking, second, rfl, asked, rest⟩
  · exact .stalled stopped
  · rcases outcome with error | ⟨changes, errors⟩
    · cases rest
      rw [List.append_nil]
      exact .failed asked
    · obtain ⟨values, parts, rfl⟩ := Held.of_bind_done
        (fun values : Outcome Unit × Outcome Unit × Outcome Unit =>
          SyncError.joinResult (errors ++ failures [values.1, values.2.1, values.2.2])) rest
      obtain ⟨exported, _, exporting, _, rfl, projects, others, rfl⟩ := Held.of_beside parts
      obtain ⟨synced, merged, aboutCi, aboutRequests, rfl, ci, mergeRequests, rfl⟩ :=
        Held.of_beside others
      have processed : Processed context batch window everything _
          (joinedOutcome errors exported synced merged) :=
        .parted asked projects (ciSynced_of_held ci) (mergeRequestsSynced_of_held mergeRequests)
      cases exported <;> cases synced <;> cases merged <;> exact processed

end CiTelemetry
