/-
This file proves that the sections of a log are nested or apart, also where its
markers were mismatched. All that it takes is that the times of the markers do not
decrease: then the open sections stand on the stack in the order in which they
began, an end marker ends the later ones together with the one that it names, and
no open section can end before one that began inside it. Ending what the log left
open, be it by the stack or afterwards, is ending all that is open once more.
-/

import CiTelemetry.Log.Section
import Mathlib.Data.List.Induction

namespace CiTelemetry

/-! ### Markers and sections -/

namespace SectionEvent

/-- The time that a marker gives. -/
def time : SectionEvent → Int
  | opens _ time | closes _ time => time

/-- The section that a marker opens. -/
def opening? : SectionEvent → Option OpenSection
  | opens name time => some ⟨name, time⟩
  | closes .. => none

end SectionEvent

namespace Section

/-- What a section was when it opened. -/
def opening (part : Section) : OpenSection :=
  ⟨part.name, part.start⟩

/-- A section has ended, and not before it began. -/
def IsEnded (part : Section) : Prop :=
  ∃ finish ∈ part.finish, part.start ≤ finish

/-- A section has ended by a time. -/
def IsOver (part : Section) (time : Int) : Prop :=
  ∃ finish ∈ part.finish, finish ≤ time

/-- A section lies inside another one. -/
def IsInside (inner outer : Section) : Prop :=
  outer.start ≤ inner.start ∧ ∃ finish ∈ outer.finish, inner.IsOver finish

/-- A section ends no later than another one starts. -/
def IsBefore (first second : Section) : Prop :=
  first.IsOver second.start

theorem IsOver.later {part : Section} {time later : Int} (passed : part.IsOver time)
    (le : time ≤ later) : part.IsOver later := by
  obtain ⟨finish, ended, early⟩ := passed
  exact ⟨finish, ended, Int.le_trans early le⟩

end Section

open Section

/-- Sections that have all ended, and of any two of which the one that is listed first lies inside
the other one or before it. -/
structure IsLaminar (sections : List Section) : Prop where
  ended : ∀ part ∈ sections, part.IsEnded
  nested : sections.Pairwise fun earlier later => earlier.IsInside later ∨ earlier.IsBefore later

theorem IsLaminar.isSome {sections : List Section} (laminar : IsLaminar sections) :
    ∀ part ∈ sections, part.finish.isSome = true := by
  intro part member
  obtain ⟨finish, ended, _⟩ := laminar.ended part member
  exact Option.isSome_of_mem ended

namespace SectionStack

variable {stack : SectionStack} {time now closing : Int}
  {inside outside : List OpenSection} {closed : List Section}

/-! ### What an end marker does -/

theorem append_of_splitAt (name : String) (opened : List OpenSection) :
    (splitAt name opened).1 ++ (splitAt name opened).2 = opened := by
  induction opened with
  | nil => rfl
  | cons innermost below inductionHypothesis =>
    unfold splitAt
    split
    · rfl
    · exact congrArg (innermost :: ·) inductionHypothesis

/-- An end marker ends some of the open sections, from the innermost one outward. -/
theorem exists_close (stack : SectionStack) (name : String) (time : Int) :
    ∃ inside outside, stack.opened = inside ++ outside ∧
      stack.close name time = ⟨outside, stack.closed ++ inside.map (·.ended (some time))⟩ := by
  unfold close
  split
  · exact ⟨_, _, (append_of_splitAt name stack.opened).symm, rfl⟩
  · refine ⟨[], stack.opened, rfl, ?_⟩
    rw [List.map_nil, List.append_nil]

/-! ### No section is lost -/

/-- All sections that have been opened: first those that are closed. -/
def openings (stack : SectionStack) : List OpenSection :=
  stack.closed.map (·.opening) ++ stack.opened

theorem map_opening_ended (opened : List OpenSection) (finish : Option Int) :
    (opened.map (·.ended finish)).map (·.opening) = opened := by
  rw [List.map_map]
  exact List.map_id opened

theorem openings_apply (stack : SectionStack) (event : SectionEvent) :
    (stack.apply event).openings.Perm (stack.openings ++ event.opening?.toList) := by
  cases event with
  | opens name time =>
    change (stack.closed.map (·.opening) ++ ⟨name, time⟩ :: stack.opened).Perm
      (stack.openings ++ [⟨name, time⟩])
    exact List.perm_middle.trans (List.perm_append_singleton _ _).symm
  | closes name time =>
    obtain ⟨inside, outside, split, closes⟩ := stack.exists_close name time
    have same : (stack.close name time).openings = stack.openings := by
      rw [closes, openings, openings, split, List.map_append, map_opening_ended,
        List.append_assoc]
    rw [apply, same, SectionEvent.opening?, Option.toList_none, List.append_nil]

theorem openings_applyAll (events : List SectionEvent) :
    (empty.applyAll events).openings.Perm (events.filterMap (·.opening?)) := by
  induction events using List.reverseRecOn with
  | nil => exact .nil
  | append_singleton events event inductionHypothesis =>
    have last := openings_apply (empty.applyAll events) event
    rw [applyAll, List.foldl_append, List.filterMap_append]
    refine last.trans ((inductionHypothesis.append_right _).trans ?_)
    cases event <;> exact .refl _

theorem map_opening_finish (stack : SectionStack) (endOfLog : EndOfLog) :
    (stack.finish endOfLog).map (·.opening) = stack.openings := by
  rw [finish, openings, List.map_append, map_opening_ended]

/-! ### The order on the stack -/

/-- At a time the closed sections are laminar and over, the open ones have begun one after the
other, and each of these began no later than a closed one or after its end. -/
structure IsLaminarAt (now : Int) (stack : SectionStack) : Prop where
  closed : IsLaminar stack.closed
  passed : ∀ part ∈ stack.closed, part.IsOver now
  begun : ∀ opened ∈ stack.opened, opened.start ≤ now
  descending : stack.opened.Pairwise fun inner outer => outer.start ≤ inner.start
  apart : ∀ part ∈ stack.closed, ∀ opened ∈ stack.opened,
    opened.start ≤ part.start ∨ part.IsOver opened.start

namespace IsLaminarAt

theorem start (now : Int) : IsLaminarAt now empty where
  closed := ⟨nofun, .nil⟩
  passed := nofun
  begun := nofun
  descending := .nil
  apart := nofun

theorem later (laminar : IsLaminarAt now stack) (le : now ≤ time) : IsLaminarAt time stack where
  closed := laminar.closed
  passed part member := (laminar.passed part member).later le
  begun opened member := Int.le_trans (laminar.begun opened member) le
  descending := laminar.descending
  apart := laminar.apart

/-- A section that begins now begins after all that is closed and inside all that is open. -/
theorem opens (laminar : IsLaminarAt now stack) (name : String) :
    IsLaminarAt now (stack.start name now) where
  closed := laminar.closed
  passed := laminar.passed
  begun := List.forall_mem_cons.mpr ⟨Int.le_refl _, laminar.begun⟩
  descending := List.pairwise_cons.mpr ⟨laminar.begun, laminar.descending⟩
  apart part member :=
    List.forall_mem_cons.mpr ⟨.inr (laminar.passed part member), laminar.apart part member⟩

/-- Sections that end now from the innermost one outward lie inside one another, and each of them
around or behind what was closed before. -/
theorem ending (laminar : IsLaminarAt now ⟨inside ++ outside, closed⟩) :
    IsLaminarAt now ⟨outside, closed ++ inside.map (·.ended (some now))⟩ := by
  obtain ⟨isLaminar, passed, begun, descending, apart⟩ := laminar
  obtain ⟨descendingInside, descendingOutside, across⟩ := List.pairwise_append.mp descending
  have begunInside : ∀ opened ∈ inside, opened.start ≤ now :=
    fun opened member => begun opened (List.mem_append_left _ member)
  have overNow : ∀ opened : OpenSection, (opened.ended (some now)).IsOver now :=
    fun _ => ⟨now, rfl, Int.le_refl _⟩
  constructor
  case closed =>
    refine ⟨List.forall_mem_append.mpr ⟨isLaminar.ended, List.forall_mem_map.mpr ?_⟩,
      List.pairwise_append.mpr ⟨isLaminar.nested, List.pairwise_map.mpr ?_, fun part isClosed => ?_⟩⟩
    · exact fun opened member => ⟨now, rfl, begunInside opened member⟩
    · exact descendingInside.imp fun {inner outer} le => .inl ⟨le, now, rfl, overNow inner⟩
    · refine List.forall_mem_map.mpr fun opened member => ?_
      refine (apart part isClosed opened (List.mem_append_left _ member)).imp_left fun le => ?_
      exact ⟨le, now, rfl, passed part isClosed⟩
  case passed =>
    exact List.forall_mem_append.mpr ⟨passed, List.forall_mem_map.mpr fun opened _ => overNow opened⟩
  case begun => exact fun opened member => begun opened (List.mem_append_right _ member)
  case descending => exact descendingOutside
  case apart =>
    refine List.forall_mem_append.mpr ⟨fun part isClosed opened member => ?_, ?_⟩
    · exact apart part isClosed opened (List.mem_append_right _ member)
    · exact List.forall_mem_map.mpr fun inner isInside outer isOutside =>
        .inl (across inner isInside outer isOutside)

/-- A marker keeps the order on the stack if it comes no earlier than those before it. -/
theorem apply (laminar : IsLaminarAt now stack) {event : SectionEvent} (le : now ≤ event.time) :
    IsLaminarAt event.time (stack.apply event) := by
  have moved := laminar.later le
  cases event with
  | opens name time => exact moved.opens name
  | closes name time =>
    obtain ⟨inside, outside, split, closes⟩ := stack.exists_close name time
    have cut : stack = ⟨inside ++ outside, stack.closed⟩ := by rw [← split]
    rw [cut] at moved
    rw [SectionStack.apply, closes]
    exact moved.ending

/-- Markers whose times do not decrease keep the order on the stack. -/
theorem applyAll {events : List SectionEvent}
    (ordered : (events.map SectionEvent.time ++ [closing]).Pairwise (· ≤ ·)) :
    IsLaminarAt closing (empty.applyAll events) := by
  induction events using List.reverseRecOn generalizing closing with
  | nil => exact start closing
  | append_singleton events event inductionHypothesis =>
    rw [List.map_append, List.map_singleton] at ordered
    obtain ⟨before, _, below⟩ := List.pairwise_append.mp ordered
    have le : event.time ≤ closing :=
      below _ (List.mem_append_right _ List.mem_cons_self) _ List.mem_cons_self
    rw [SectionStack.applyAll, List.foldl_append]
    exact ((inductionHypothesis before).apply (Int.le_refl _)).later le

/-- What is open at the end of a log ends like what an end marker ends. -/
theorem finish (laminar : IsLaminarAt closing stack) :
    IsLaminar (stack.finish (.closeAt closing)) := by
  have all : stack = ⟨stack.opened ++ [], stack.closed⟩ := by rw [List.append_nil]
  rw [all] at laminar
  exact laminar.ending.closed

end IsLaminarAt

/-! ### Ends that are filled in -/

/-- Filling in ends gives one to each section that is open, and leaves the closed ones as they
are. -/
theorem backfillOpen_finish (ended : ∀ part ∈ stack.closed, part.finish.isSome = true)
    (time : Int) :
    backfillOpen (stack.finish .leaveOpen) time =
      stack.closed ++ stack.opened.map fun opened =>
        opened.ended (some (max time opened.start)) := by
  have kept : ∀ part ∈ stack.closed, part.backfill time = part := by
    intro part member
    obtain ⟨finish, isEnded⟩ := Option.isSome_iff_exists.mp (ended part member)
    rw [Section.backfill, isEnded]
  rw [backfillOpen, SectionStack.finish, List.map_append, List.map_map,
    List.map_congr_left kept, List.map_id']
  rfl

/-- Filling in ends comes to ending what is open if no open section has begun later. -/
theorem backfillOpen_eq_iff (ended : ∀ part ∈ stack.closed, part.finish.isSome = true)
    (time : Int) :
    backfillOpen (stack.finish .leaveOpen) time = stack.finish (.closeAt time) ↔
      ∀ opened ∈ stack.opened, opened.start ≤ time := by
  rw [backfillOpen_finish ended, SectionStack.finish, List.append_cancel_left_eq, List.map_inj_left]
  refine forall₂_congr fun opened _ => ?_
  simp only [OpenSection.ended, EndOfLog.finish?, Section.mk.injEq, Option.some.injEq, true_and]
  exact Int.max_eq_left_iff

/-- The sections of markers whose times do not decrease are laminar, however these were mismatched,
and none is lost: whether the stack ends at the closing time what is still open or its end is filled
in afterwards, every section has ended, and not before it began, and of any two the one that is
listed first lies inside the other one or ends no later than that starts. -/
theorem sections_laminar {events : List SectionEvent} {closing : Int}
    (ordered : (events.map SectionEvent.time ++ [closing]).Pairwise (· ≤ ·)) :
    let stack := empty.applyAll events
    ∀ sections ∈ [stack.finish (.closeAt closing),
        backfillOpen (stack.finish .leaveOpen) closing],
      IsLaminar sections ∧
        (sections.map (·.opening)).Perm (events.filterMap (·.opening?)) := by
  intro stack sections either
  have laminar : IsLaminarAt closing stack := .applyAll ordered
  have same : sections = stack.finish (.closeAt closing) := by
    rw [List.mem_cons, List.mem_singleton] at either
    rcases either with closedAt | filledIn
    · exact closedAt
    · rw [filledIn, (backfillOpen_eq_iff laminar.closed.isSome closing).mpr laminar.begun]
  rw [same, map_opening_finish]
  exact ⟨laminar.finish, openings_applyAll events⟩

/-- Two sections of one name begin inside one another, an end marker reaches past the inner one, and
three sections are still open at the end. Some times are the same. -/
def mismatchedMarkers : List SectionEvent :=
  [.opens "a" 1, .opens "b" 2, .opens "a" 2, .closes "c" 3, .closes "b" 4, .opens "c" 4,
    .opens "d" 5]

/-- The inner section of the name ends with the one around it, the outer one with the log. -/
theorem mismatchedMarkers_laminar :
    (mismatchedMarkers.map SectionEvent.time ++ [9]).Pairwise (· ≤ ·) ∧
      backfillOpen ((empty.applyAll mismatchedMarkers).finish .leaveOpen) 9 =
        [⟨"a", 2, some 4⟩, ⟨"b", 2, some 4⟩, ⟨"d", 5, some 9⟩, ⟨"c", 4, some 9⟩,
          ⟨"a", 1, some 9⟩] ∧
      IsLaminar (backfillOpen ((empty.applyAll mismatchedMarkers).finish .leaveOpen) 9) := by
  have ordered : (mismatchedMarkers.map SectionEvent.time ++ [9]).Pairwise (· ≤ ·) := by decide
  have filledIn := sections_laminar ordered _ (List.mem_cons_of_mem _ List.mem_cons_self)
  exact ⟨ordered, by decide, filledIn.1⟩

end SectionStack

end CiTelemetry
