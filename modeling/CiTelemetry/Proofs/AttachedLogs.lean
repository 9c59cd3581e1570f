/-
This file proves where the records of job logs go when logs are attached to the
hierarchies of their pipelines. The entries of all hierarchies, one hierarchy after
the other, are one list; each log goes to the first entry of its pipeline in that list
and to no other, so that a pipeline that is part of two hierarchies has its logs once.
A log without such an entry is dropped, and nothing else of the hierarchies changes.
-/

import CiTelemetry.Fetch.JobLogs
import Mathlib.Data.List.Nodup

namespace CiTelemetry

/-! ### Whose a log is -/

/-- The place of the first entry of a pipeline. -/
def placeOf? (entries : List HierarchyEntry) (id : Int) : Option Nat :=
  entries.findIdx? (·.id == id)

/-- The logs whose pipeline has its first entry at a place or, for no place, has none. -/
def logsOf (logs : List JobLog) (entries : List HierarchyEntry) (place : Option Nat) :
    List JobLog :=
  logs.filter fun log => placeOf? entries log.pipelineId == place

theorem placeOf?_cons (entry : HierarchyEntry) (rest : List HierarchyEntry) (id : Int) :
    placeOf? (entry :: rest) id =
      if entry.id == id then some 0 else (placeOf? rest id).map (· + 1) :=
  List.findIdx?_cons

theorem logsOf_cons_zero (logs : List JobLog) (entry : HierarchyEntry)
    (rest : List HierarchyEntry) :
    logsOf logs (entry :: rest) (some 0) = logs.filter (·.pipelineId == entry.id) := by
  refine List.filter_congr fun log _ => ?_
  rw [placeOf?_cons]
  by_cases own : entry.id = log.pipelineId
  · simp [own]
  · simp [own, Ne.symm own]

/-- What does not belong to the first entry belongs to the others as if it was not there. -/
theorem logsOf_cons_map (logs : List JobLog) (entry : HierarchyEntry)
    (rest : List HierarchyEntry) (place : Option Nat) :
    logsOf logs (entry :: rest) (place.map (· + 1)) =
      logsOf (logs.filter (·.pipelineId != entry.id)) rest place := by
  rw [logsOf, logsOf, List.filter_filter]
  refine List.filter_congr fun log _ => ?_
  rw [placeOf?_cons]
  by_cases own : entry.id = log.pipelineId
  · cases place <;> simp [own]
  · cases place <;> cases placeOf? rest log.pipelineId <;> simp [own, Ne.symm own]

/-! ### One list of entries -/

theorem attachToEntries_cons (logs : List JobLog) (entry : HierarchyEntry)
    (rest : List HierarchyEntry) :
    attachToEntries logs (entry :: rest) =
      (entry.addLogs (logs.filter (·.pipelineId == entry.id)) ::
          (attachToEntries (logs.filter (·.pipelineId != entry.id)) rest).1,
        (attachToEntries (logs.filter (·.pipelineId != entry.id)) rest).2) :=
  rfl

/-- Each entry gets the logs of which it is the first one. -/
theorem attachToEntries_fst (logs : List JobLog) (entries : List HierarchyEntry) :
    (attachToEntries logs entries).1 =
      entries.mapIdx fun place entry => entry.addLogs (logsOf logs entries (some place)) := by
  induction entries generalizing logs with
  | nil => rfl
  | cons entry rest inductionHypothesis =>
    have later (place : Nat) := logsOf_cons_map logs entry rest (some place)
    simp only [Option.map_some] at later
    simp only [attachToEntries_cons, List.mapIdx_cons, logsOf_cons_zero, later,
      inductionHypothesis]

/-- What is left over are the logs without an entry. -/
theorem attachToEntries_snd (logs : List JobLog) (entries : List HierarchyEntry) :
    (attachToEntries logs entries).2 = logsOf logs entries none := by
  induction entries generalizing logs with
  | nil => exact (List.filter_eq_self.mpr fun _ _ => rfl).symm
  | cons entry rest inductionHypothesis =>
    rw [attachToEntries_cons, inductionHypothesis]
    exact (logsOf_cons_map logs entry rest none).symm

theorem attachToEntries_append (logs : List JobLog) (entries others : List HierarchyEntry) :
    (attachToEntries logs (entries ++ others)).1 =
      (attachToEntries logs entries).1 ++
        (attachToEntries (attachToEntries logs entries).2 others).1 := by
  induction entries generalizing logs with
  | nil => rfl
  | cons entry rest inductionHypothesis =>
    simp only [List.cons_append, attachToEntries_cons, inductionHypothesis]

/-- Hierarchies get their logs as one list of entries does. -/
theorem flatMap_entries_attachJobLogs (logs : List JobLog) (hierarchies : List PipelineHierarchy) :
    (attachJobLogs logs hierarchies).flatMap (·.entries) =
      (attachToEntries logs (hierarchies.flatMap (·.entries))).1 := by
  induction hierarchies generalizing logs with
  | nil => rfl
  | cons hierarchy rest inductionHypothesis =>
    rw [attachJobLogs, List.flatMap_cons, List.flatMap_cons, attachToEntries_append,
      inductionHypothesis]

theorem length_attachToEntries (logs : List JobLog) (entries : List HierarchyEntry) :
    (attachToEntries logs entries).1.length = entries.length := by
  rw [attachToEntries_fst, List.length_mapIdx]

/-- Hierarchies keep their roots and the number of their entries. -/
theorem map_root_attachJobLogs (logs : List JobLog) (hierarchies : List PipelineHierarchy) :
    (attachJobLogs logs hierarchies).map (fun hierarchy =>
        (hierarchy.root, hierarchy.entries.length)) =
      hierarchies.map fun hierarchy => (hierarchy.root, hierarchy.entries.length) := by
  induction hierarchies generalizing logs with
  | nil => rfl
  | cons hierarchy rest inductionHypothesis =>
    rw [attachJobLogs, List.map_cons, List.map_cons, inductionHypothesis, length_attachToEntries]

/-! ### No record is lost -/

/-- What entries hold afterwards, together with what the logs left over hold, is what they held
before together with what all logs hold. -/
theorem flatMap_attachToEntries_perm {α : Type} {held : HierarchyEntry → List α}
    {added : JobLog → List α}
    (held_addLogs : ∀ entry own, held (entry.addLogs own) = held entry ++ own.flatMap added)
    (logs : List JobLog) (entries : List HierarchyEntry) :
    ((attachToEntries logs entries).1.flatMap held ++
        (attachToEntries logs entries).2.flatMap added).Perm
      (entries.flatMap held ++ logs.flatMap added) := by
  induction entries generalizing logs with
  | nil => exact .refl _
  | cons entry rest inductionHypothesis =>
    have others := inductionHypothesis (logs.filter (·.pipelineId != entry.id))
    have split : ((logs.filter (·.pipelineId == entry.id)).flatMap added ++
        (logs.filter (·.pipelineId != entry.id)).flatMap added).Perm (logs.flatMap added) := by
      rw [← List.flatMap_append]
      exact (List.filter_append_perm _ logs).flatMap_right added
    rw [attachToEntries_cons, List.flatMap_cons, List.flatMap_cons, held_addLogs]
    simp only [List.append_assoc]
    refine .append_left _ ((others.append_left _).trans ?_)
    refine (List.perm_append_comm_assoc _ _ _).trans ?_
    exact split.append_left _

/-! ### Distinct pipelines -/

/-- Where no pipeline has two entries, each entry gets all logs of its pipeline. -/
theorem attachToEntries_of_nodup (logs : List JobLog) {entries : List HierarchyEntry}
    (distinct : (entries.map (·.id)).Nodup) :
    (attachToEntries logs entries).1 =
      entries.map fun entry => entry.addLogs (logs.filter (·.pipelineId == entry.id)) := by
  induction entries generalizing logs with
  | nil => rfl
  | cons entry rest inductionHypothesis =>
    obtain ⟨isFirst, distinctRest⟩ := List.nodup_cons.mp distinct
    rw [attachToEntries_cons, inductionHypothesis _ distinctRest, List.map_cons]
    refine congrArg (_ :: ·) (List.map_congr_left fun other member => ?_)
    have apart : other.id ≠ entry.id := by
      intro same
      exact isFirst (List.mem_map.mpr ⟨other, member, same⟩)
    rw [List.filter_filter]
    refine congrArg other.addLogs (List.filter_congr fun log _ => ?_)
    by_cases own : log.pipelineId = other.id
    · simp [own, apart]
    · simp [own]

/-! ### Attaching -/

/-- Attaching logs gives the sections and the samples of each log, in the order of the logs, to the
first entry of its pipeline, and changes nothing else of any hierarchy; the records that hierarchies
hold afterwards and those of logs without an entry are those that there were. Where no pipeline has
two entries, each entry gets the records of all logs of its pipeline. -/
theorem attachJobLogs_first (logs : List JobLog) (hierarchies : List PipelineHierarchy) :
    let entries := hierarchies.flatMap (·.entries)
    let after := attachJobLogs logs hierarchies
    after.map (fun hierarchy => (hierarchy.root, hierarchy.entries.length)) =
        hierarchies.map (fun hierarchy => (hierarchy.root, hierarchy.entries.length)) ∧
      (after.flatMap (·.entries) = entries.mapIdx fun place entry =>
        { entry with
          sections := entry.sections ++ (logsOf logs entries (some place)).flatMap (·.sections)
          metrics := entry.metrics ++ (logsOf logs entries (some place)).flatMap (·.metrics) }) ∧
      ((after.flatMap (·.entries)).flatMap (·.sections) ++
          (logsOf logs entries none).flatMap (·.sections)).Perm
        (entries.flatMap (·.sections) ++ logs.flatMap (·.sections)) ∧
      ((after.flatMap (·.entries)).flatMap (·.metrics) ++
          (logsOf logs entries none).flatMap (·.metrics)).Perm
        (entries.flatMap (·.metrics) ++ logs.flatMap (·.metrics)) ∧
      ((entries.map (·.id)).Nodup → after.flatMap (·.entries) = entries.map fun entry =>
        { entry with
          sections :=
            entry.sections ++ (logs.filter (·.pipelineId == entry.id)).flatMap (·.sections)
          metrics :=
            entry.metrics ++ (logs.filter (·.pipelineId == entry.id)).flatMap (·.metrics) }) := by
  intro entries after
  have attached : after.flatMap (·.entries) = (attachToEntries logs entries).1 :=
    flatMap_entries_attachJobLogs logs hierarchies
  rw [attached, ← attachToEntries_snd]
  refine ⟨map_root_attachJobLogs logs hierarchies, attachToEntries_fst logs entries, ?_, ?_,
    attachToEntries_of_nodup logs⟩
  · exact flatMap_attachToEntries_perm (fun _ _ => rfl) logs entries
  · exact flatMap_attachToEntries_perm (fun _ _ => rfl) logs entries

namespace AttachedLogs

/-- The entry of a pipeline with an id. -/
def pipeline (id : Int) : HierarchyEntry :=
  .ofPipeline { (default : Pipeline) with id }

/-- The log of a job with one section. -/
def jobLog (job pipeline : Int) : JobLog :=
  ⟨job, pipeline, [⟨job, pipeline, 0, 0, "build", 1, some 2⟩], []⟩

def hierarchies : List PipelineHierarchy :=
  [⟨7, [pipeline 7, pipeline 8]⟩, ⟨5, [pipeline 5]⟩]

/-- Logs of two jobs of one pipeline with others between them, the last one of an unknown pipeline. -/
def logs : List JobLog :=
  [jobLog 1 7, jobLog 2 8, jobLog 3 7, jobLog 4 9]

/-- The pipeline with two logs gets both in their order, and the log of the unknown one is
dropped. -/
theorem hierarchies_attached :
    ((hierarchies.flatMap (·.entries)).map (·.id)).Nodup ∧
      ((attachJobLogs logs hierarchies).flatMap (·.entries)).map
          (fun entry => (entry.id, entry.sections.map (·.jobId))) =
        [(7, [1, 3]), (8, [2]), (5, [])] := by
  have distinct : ((hierarchies.flatMap (·.entries)).map (·.id)).Nodup := by decide
  obtain ⟨_, _, _, _, each⟩ := attachJobLogs_first logs hierarchies
  refine ⟨distinct, ?_⟩
  rw [each distinct]
  rfl

end AttachedLogs

end CiTelemetry
