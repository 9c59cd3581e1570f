/-
This file proves what becomes of the sections of a job log when the records of the
job are made. What a marker has ended keeps the time of that marker, and what the log
left open ends when the job finished. The stack could have ended it at that time as
well: the two ways agree unless a section began later than the job finished, as it
may where two clocks differ; such a section ends where it began.
-/

import CiTelemetry.Fetch.JobLogs
import CiTelemetry.Proofs.LaminarSections
import CiTelemetry.Proofs.LineIndependence
import CiTelemetry.Proofs.SectionNesting

namespace CiTelemetry

/-- The section of a log that a record is about. -/
def JobSection.toSection (record : JobSection) : Section :=
  ⟨record.name, record.start, record.finish⟩

namespace SectionNesting

variable {events : List SectionEvent} {moment place : Nat}

/-! ### The ends that markers give -/

/-- Only an end marker ends anything. -/
theorem exists_closes_of_ends (ended : ends events moment place = true) :
    ∃ name time, events[moment]? = some (.closes name time) := by
  unfold ends reaches at ended
  split at ended
  · next name time found => exact ⟨name, time, found⟩
  · cases ended

theorem endTime?_of_closes {name : String} {time : Int}
    (found : events[moment]? = some (.closes name time)) : endTime? events moment = some time := by
  rw [endTime?, found]

theorem endMarker?_of_mem_endedBy (inside : moment < events.length)
    (member : place ∈ endedBy events moment) : endMarker? events place = some moment := by
  rw [endedBy_eq inside] at member
  exact beq_iff_eq.mp (List.mem_filter.mp member).2

theorem endMarker?_of_mem_openPlaces (member : place ∈ openPlaces events events.length) :
    endMarker? events place = none := by
  rw [openPlaces_length] at member
  exact beq_iff_eq.mp (List.mem_filter.mp member).2

/-- The end of a section: the time of its end marker or, without one, what is made of it then. -/
def finishOf (events : List SectionEvent) (ending : OpenSection → Option Int) (place : Nat) :
    Option Int :=
  match endMarker? events place with
  | some moment => endTime? events moment
  | none => ending (openedAt events place)

theorem stackAt_length (events : List SectionEvent) :
    stackAt events events.length = SectionStack.empty.applyAll events := by
  rw [stackAt, List.take_length]

/-- Whatever becomes of the sections that are left open, the sections in the order in which they end
are those that the stack has closed and then those. -/
theorem map_closingOrder (events : List SectionEvent) (ending : OpenSection → Option Int) :
    (closingOrder events).map (fun place =>
        (openedAt events place).ended (finishOf events ending place)) =
      (SectionStack.empty.applyAll events).closed ++
        (SectionStack.empty.applyAll events).opened.map fun opened =>
          opened.ended (ending opened) := by
  have agrees : Agrees events events.length := .of_le (Nat.le_refl _)
  rw [← stackAt_length, agrees.opened, agrees.closed, closingOrder_eq, List.map_append, List.map_flatMap,
    List.map_map]
  congr 1
  · refine List.flatMap_congr fun moment isMoment => List.map_congr_left fun place member => ?_
    rw [finishOf, endMarker?_of_mem_endedBy (List.mem_range.mp isMoment) member]
  · refine List.map_congr_left fun place member => ?_
    rw [finishOf, endMarker?_of_mem_openPlaces member]
    rfl

/-- What the stack has closed has an end. -/
theorem isSome_of_mem_closed (events : List SectionEvent) :
    ∀ part ∈ (SectionStack.empty.applyAll events).closed, part.finish.isSome = true := by
  have agrees : Agrees events events.length := .of_le (Nat.le_refl _)
  intro part member
  rw [← stackAt_length, agrees.closed] at member
  obtain ⟨moment, _, isEnded⟩ := List.mem_flatMap.mp member
  obtain ⟨place, inside, rfl⟩ := List.mem_map.mp isEnded
  obtain ⟨name, time, found⟩ := exists_closes_of_ends (List.mem_filter.mp inside).2
  exact congrArg Option.isSome (endTime?_of_closes found)

/-- The end of a section that begins at a place: the time of its end marker or, without one, that
at which the job finished. A section that begins later than that ends where it begins. -/
def EndsAt (events : List SectionEvent) (finished : Int) (place : Nat) (start finish : Int) : Prop :=
  match endMarker? events place with
  | some moment => ∃ name, events[moment]? = some (.closes name finish)
  | none => finish = if start ≤ finished then finished else start

theorem exists_endsAt (begins : isStart events place = true) (finished : Int) :
    ∃ finish, finishOf events (fun opened => some (max finished opened.start)) place = some finish ∧
      EndsAt events finished place (openedAt events place).start finish := by
  unfold finishOf EndsAt
  cases marked : endMarker? events place with
  | none =>
    refine ⟨_, rfl, ?_⟩
    by_cases early : (openedAt events place).start ≤ finished
    · exact (Int.max_eq_left early).trans (if_pos early).symm
    · exact (Int.max_eq_right (Int.le_of_lt (Int.not_le.mp early))).trans (if_neg early).symm
  | some moment =>
    obtain ⟨_, _, ended⟩ := (endMarker?_eq_some_iff begins).mp marked
    obtain ⟨name, time, found⟩ := exists_closes_of_ends ended
    exact ⟨time, endTime?_of_closes found, name, found⟩

theorem isStart_of_mem_closingOrder (member : place ∈ closingOrder events) :
    isStart events place = true :=
  (List.mem_filter.mp (closingOrder_perm.mem_iff.mp member)).2

end SectionNesting

open SectionNesting

namespace JobLog

/-! ### The records of a log -/

variable {job : Job} {instant : Instant}

theorem map_index_ofLog (job : Job) (log : Bytes) :
    (ofLog job log).sections.map (·.index) =
      List.range (sectionsOf job (Log.parse log)).length := by
  rw [ofLog, List.map_map, List.range_eq_range', ← List.zipIdx_map_snd 0]
  rfl

theorem getElem?_ofLog (job : Job) (log : Bytes) (index : Nat) :
    (ofLog job log).sections[index]? =
      (sectionsOf job (Log.parse log))[index]?.map fun part =>
        ⟨job.id, job.pipelineId, job.projectId, index, part.name, part.start, part.finish⟩ := by
  rw [ofLog, List.getElem?_map, List.getElem?_zipIdx, Option.map_map, Nat.zero_add]
  rfl

theorem map_toSection_ofLog (job : Job) (log : Bytes) :
    (ofLog job log).sections.map (·.toSection) = sectionsOf job (Log.parse log) := by
  rw [ofLog, List.map_map]
  exact List.zipIdx_map_fst 0 _

/-- The sections of a log whose job has finished, in the order in which they end. -/
theorem sectionsOf_finished (finished : job.finishedAt = some instant) (log : Bytes) :
    sectionsOf job (Log.parse log) =
      (closingOrder (Log.events log)).map fun place =>
        (openedAt (Log.events log) place).ended
          (finishOf (Log.events log) (fun opened => some (max instant.seconds opened.start))
            place) := by
  rw [map_closingOrder, ← SectionStack.backfillOpen_finish (isSome_of_mem_closed _), sectionsOf,
    finished]
  rfl

/-- A section left open is one that the log lists without an end. -/
theorem forall_open_iff (log : Bytes) (isEarly : Int → Prop) :
    (∀ part ∈ (Log.parse log).sections, part.finish = none → isEarly part.start) ↔
      ∀ opened ∈ (SectionStack.empty.applyAll (Log.events log)).opened, isEarly opened.start := by
  have sections : (Log.parse log).sections =
      (SectionStack.empty.applyAll (Log.events log)).finish .leaveOpen := rfl
  rw [sections, SectionStack.finish, List.forall_mem_append, List.forall_mem_map]
  constructor
  · exact fun early opened member => early.2 opened member rfl
  · refine fun early => ⟨fun part member isOpen => ?_, fun opened member _ => early opened member⟩
    have ended := isSome_of_mem_closed _ part member
    rw [isOpen] at ended
    cases ended

/-- The sections of the log of a job that has finished: the records are numbered in the order in
which the sections end, what a marker has ended keeps the time of that marker, and what the log left
open ends when the job finished or, if it began later, where it began. The stack would have ended the
same sections at the same times just if none of those left open began later. -/
theorem sections_ofLog (log : Bytes) (finished : job.finishedAt = some instant) :
    let events := Log.events log
    let records : List JobSection := (ofLog job log).sections
    records.map (·.index) = List.range (closingOrder events).length ∧
    (∀ index place : Nat, (closingOrder events)[index]? = some place →
      ∃ name start finish, events[place]? = some (.opens name start) ∧
        records[index]? =
          some ⟨job.id, job.pipelineId, job.projectId, index, name, start, some finish⟩ ∧
        EndsAt events instant.seconds place start finish) ∧
    (records.map (·.toSection) = (Log.parseWith log (.closeAt instant.seconds)).sections ↔
      ∀ part ∈ (Log.parse log).sections, part.finish = none → part.start ≤ instant.seconds) := by
  have parts := sectionsOf_finished finished log
  refine ⟨?_, fun index place placed => ?_, ?_⟩
  · rw [map_index_ofLog, parts, List.length_map]
  · have begins := isStart_of_mem_closingOrder (List.mem_of_getElem? placed)
    obtain ⟨finish, isFinish, endsAt⟩ := exists_endsAt begins instant.seconds
    refine ⟨_, _, finish, openedAt_of_isStart begins, ?_, endsAt⟩
    rw [getElem?_ofLog, parts, List.getElem?_map, placed, ← isFinish]
    rfl
  · rw [map_toSection_ofLog, forall_open_iff log (· ≤ instant.seconds),
      ← SectionStack.backfillOpen_eq_iff (isSome_of_mem_closed _), sectionsOf, finished]
    rfl

/-- A job that finished ten seconds and a half into 1970. -/
def skewedJob : Job :=
  { (default : Job) with id := 3, finishedAt := some ⟨10, 500000000⟩ }

/-- A log of that job with a section that ends and two that do not. The inner one of these begins
after the job has finished, by the clock of the machine that wrote the log. -/
def skewedLog : Bytes :=
  Utf8.encode "section_start:5:a\nsection_start:20:b\nsection_start:7:c section_end:9:c\n"

/-- The section that begins too late is the second one to end, and ends where it begins. The stack
would have ended it before. -/
theorem skewedLog_sections :
    skewedJob.finishedAt = some ⟨10, 500000000⟩ ∧
      (closingOrder (Log.events skewedLog))[1]? = some 1 ∧
      (ofLog skewedJob skewedLog).sections[1]? = some ⟨3, 0, 0, 1, "b", 20, some 20⟩ ∧
      EndsAt (Log.events skewedLog) 10 1 20 20 ∧
      (ofLog skewedJob skewedLog).sections.map (·.toSection) ≠
        (Log.parseWith skewedLog (.closeAt 10)).sections := by
  have finished : skewedJob.finishedAt = some ⟨10, 500000000⟩ := rfl
  have placed : (closingOrder (Log.events skewedLog))[1]? = some 1 := by decide +kernel
  have second : (ofLog skewedJob skewedLog).sections[1]? = some ⟨3, 0, 0, 1, "b", 20, some 20⟩ := by
    decide +kernel
  have leftOpen : ⟨"b", 20, none⟩ ∈ (Log.parse skewedLog).sections := by decide +kernel
  obtain ⟨_, each, agree⟩ := sections_ofLog skewedLog finished
  obtain ⟨name, start, finish, _, record, endsAt⟩ := each 1 1 placed
  rw [second, Option.some.injEq, JobSection.mk.injEq] at record
  obtain ⟨_, _, _, _, _, rfl, isFinish⟩ := record
  rw [← Option.some.inj isFinish] at endsAt
  exact ⟨finished, placed, second, endsAt, fun same => absurd (agree.mp same _ leftOpen rfl) (by decide)⟩

end JobLog

end CiTelemetry
