/-
This file tells what becomes of every section that a log starts. An end marker
reaches down to the innermost open section of its name and ends everything from
there inward, so that the end of one section depends on all markers after its
start. Here that is said without a stack, by the places of the markers in the
log, and the stack is shown to find exactly these ends, in exactly this order.
-/

import CiTelemetry.Log.Section
import Mathlib.Data.List.Nodup

namespace CiTelemetry

namespace SectionNesting

variable (events : List SectionEvent)

/-! ### Markers by their places -/

/-- Whether the marker at a place starts a section. -/
def isStart (place : Nat) : Bool :=
  match events[place]? with
  | some (.opens ..) => true
  | _ => false

/-- Whether the marker at a place starts a section of the given name. -/
def starts (name : String) (place : Nat) : Bool :=
  match events[place]? with
  | some (.opens known _) => known == name
  | _ => false

/-- The time of the end marker at a place. -/
def endTime? (moment : Nat) : Option Int :=
  match events[moment]? with
  | some (.closes _ time) => some time
  | _ => none

/-! ### What an end marker reaches -/

/-- The most recently started section of a name among those still open at a moment. -/
def innermost? (isOpen : Nat → Bool) (moment : Nat) (name : String) : Option Nat :=
  (List.range moment).reverse.find? fun place => isOpen place && starts events name place

/-- Whether the marker at a moment is an end marker for whose name the innermost section still open
was started no later than the section of a place. -/
def reaches (isOpen : Nat → Bool) (moment place : Nat) : Bool :=
  match events[moment]? with
  | some (.closes name _) => (innermost? events isOpen moment name).any (· ≤ place)
  | _ => false

/-- Whether the section started at a place is still open just before the marker at a moment. -/
def isOpen : Nat → Nat → Bool
  | 0, _ => false
  | moment + 1, place =>
    if place = moment then isStart events moment
    else isOpen moment place && !reaches events (isOpen moment) moment place

/-- Whether the marker at a moment ends the sections from a place on that are still open. -/
def ends (moment place : Nat) : Bool :=
  reaches events (isOpen events moment) moment place

/-- The first later marker that ends the section started at a place. -/
def endMarker? (place : Nat) : Option Nat :=
  (List.range events.length).find? fun moment => place < moment && ends events moment place

/-! ### What becomes of a section -/

/-- The section started at a place, with the end that its end marker gives it or, without one, that
of the log. -/
def sectionOf? (endOfLog : EndOfLog) (place : Nat) : Option Section :=
  match events[place]? with
  | some (.opens name start) =>
    some ⟨name, start,
      match endMarker? events place with
      | some moment => endTime? events moment
      | none => endOfLog.finish?⟩
  | _ => none

/-- The places of all starts, the innermost first. -/
def startPlaces : List Nat :=
  (List.range events.length).reverse.filter (isStart events)

/-- The starts in the order in which their sections end: marker after marker, the innermost first
where one marker ends several, and last those that no marker ends. -/
def closingOrder : List Nat :=
  (List.range events.length).flatMap
      (fun moment => (startPlaces events).filter (endMarker? events · == some moment)) ++
    (startPlaces events).filter (endMarker? events · == none)

/-! ### When a section is open -/

variable {events}

theorem ends_eq_false_of_isStart {moment : Nat} (start : isStart events moment = true)
    (place : Nat) : ends events moment place = false := by
  unfold isStart at start
  split at start
  · next found => rw [ends, reaches, found]
  · cases start

theorem lt_of_isOpen {moment place : Nat} (opened : isOpen events moment place = true) :
    place < moment := by
  induction moment with
  | zero => cases opened
  | succ moment inductionHypothesis =>
    rw [isOpen] at opened
    split at opened
    · omega
    · rw [Bool.and_eq_true] at opened
      exact Nat.lt_succ_of_lt (inductionHypothesis opened.1)

/-- A section is open from its start on until a marker ends it. -/
theorem isOpen_iff {moment place : Nat} :
    isOpen events moment place = true ↔
      isStart events place = true ∧ place < moment ∧
        ∀ between, place < between → between < moment → ends events between place = false := by
  induction moment with
  | zero => simp [isOpen]
  | succ moment inductionHypothesis =>
    rw [isOpen]
    split
    · next same =>
      subst same
      constructor
      · exact fun start => ⟨start, Nat.lt_succ_self _, fun between _ _ => by omega⟩
      · exact fun opened => opened.1
    · next other =>
      rw [Bool.and_eq_true, inductionHypothesis, Bool.not_eq_true', ← ends]
      constructor
      · rintro ⟨⟨start, before, untouched⟩, last⟩
        refine ⟨start, by omega, fun between later earlier => ?_⟩
        rcases Nat.lt_succ_iff_lt_or_eq.mp earlier with inside | rfl
        · exact untouched between later inside
        · exact last
      · rintro ⟨start, before, untouched⟩
        refine ⟨⟨start, by omega, fun between later earlier => ?_⟩, ?_⟩
        · exact untouched between later (by omega)
        · exact untouched moment (by omega) (by omega)

theorem isStart_of_isOpen {moment place : Nat} (opened : isOpen events moment place = true) :
    isStart events place = true :=
  (isOpen_iff.mp opened).1

/-- The end marker of a section is the one that ends it while it is still open. -/
theorem endMarker?_eq_some_iff {place moment : Nat} (start : isStart events place = true) :
    endMarker? events place = some moment ↔
      moment < events.length ∧ isOpen events moment place = true ∧
        ends events moment place = true := by
  rw [endMarker?, List.find?_range_eq_some, isOpen_iff]
  simp only [Bool.and_eq_true, decide_eq_true_eq, List.mem_range, Bool.not_eq_true',
    Bool.and_eq_false_iff, decide_eq_false_iff_not]
  constructor
  · rintro ⟨⟨later, ended⟩, inside, first⟩
    refine ⟨inside, ⟨start, later, fun between after before => ?_⟩, ended⟩
    exact (first between before).resolve_left (not_not_intro after)
  · rintro ⟨inside, ⟨_, later, first⟩, ended⟩
    refine ⟨⟨later, ended⟩, inside, fun between before => ?_⟩
    by_cases after : place < between
    · exact .inr (first between after before)
    · exact .inl after

/-- A section without an end marker is still open when the log is over. -/
theorem endMarker?_eq_none_iff {place : Nat} (start : isStart events place = true)
    (inside : place < events.length) :
    endMarker? events place = none ↔ isOpen events events.length place = true := by
  rw [endMarker?, List.find?_eq_none, isOpen_iff]
  simp only [List.mem_range, Bool.and_eq_true, decide_eq_true_eq, not_and, Bool.not_eq_true]
  constructor
  · intro untouched
    exact ⟨start, inside, fun between after before => untouched between before after⟩
  · rintro ⟨_, _, untouched⟩ between before after
    exact untouched between after before

/-! ### The stack before a moment -/

variable (events)

/-- The stack that the markers before a moment leave. -/
def stackAt (moment : Nat) : SectionStack :=
  SectionStack.empty.applyAll (events.take moment)

/-- The open section that was started at a place. -/
def openedAt (place : Nat) : OpenSection :=
  match events[place]? with
  | some (.opens name time) => ⟨name, time⟩
  | _ => default

/-- The sections open just before a moment, the innermost first. -/
def openPlaces (moment : Nat) : List Nat :=
  (List.range moment).reverse.filter (isOpen events moment)

/-- The sections that the marker at a moment ends, the innermost first. -/
def endedBy (moment : Nat) : List Nat :=
  (openPlaces events moment).filter (ends events moment)

variable {events}

theorem stackAt_succ {moment : Nat} {event : SectionEvent} (found : events[moment]? = some event) :
    stackAt events (moment + 1) = (stackAt events moment).apply event := by
  rw [stackAt, List.take_add_one, found, SectionStack.applyAll, List.foldl_append]
  rfl

theorem mem_openPlaces {moment place : Nat} :
    place ∈ openPlaces events moment ↔ isOpen events moment place = true := by
  simp only [openPlaces, List.mem_filter, List.mem_reverse, List.mem_range, and_iff_right_iff_imp]
  exact lt_of_isOpen

theorem openPlaces_descending (moment : Nat) : (openPlaces events moment).Pairwise (· > ·) := by
  refine List.Pairwise.filter _ ?_
  rw [List.pairwise_reverse]
  exact List.pairwise_lt_range

theorem range_succ_reverse (moment : Nat) :
    (List.range (moment + 1)).reverse = moment :: (List.range moment).reverse := by
  rw [List.range_succ, List.reverse_append, List.reverse_singleton, List.singleton_append]

/-- Where places descend, those from one of them on are the ones before it and itself. -/
theorem filter_cut {inside outside : List Nat} {innermost : Nat}
    (descending : (inside ++ innermost :: outside).Pairwise (· > ·)) :
    (inside ++ innermost :: outside).filter (fun place => decide (innermost ≤ place)) =
        inside ++ [innermost] ∧
      (inside ++ innermost :: outside).filter (fun place => !decide (innermost ≤ place)) =
        outside := by
  rw [List.pairwise_append, List.pairwise_cons] at descending
  obtain ⟨_, ⟨below, _⟩, above⟩ := descending
  have before : ∀ place ∈ inside, decide (innermost ≤ place) = true := by
    intro place member
    have := above place member innermost List.mem_cons_self
    exact decide_eq_true (by omega)
  have after : ∀ place ∈ outside, decide (innermost ≤ place) = false := by
    intro place member
    have := below place member
    exact decide_eq_false (by omega)
  have itself : decide (innermost ≤ innermost) = true := decide_eq_true (Nat.le_refl _)
  constructor
  · rw [List.filter_append, List.filter_cons, itself, List.filter_eq_self.mpr before,
      List.filter_eq_nil_iff.mpr fun place member => by rw [after place member]; decide]
    rfl
  · rw [List.filter_append, List.filter_cons, itself,
      List.filter_eq_nil_iff.mpr fun place member => by rw [before place member]; decide,
      List.filter_eq_self.mpr fun place member => by rw [after place member]; rfl]
    rfl

/-- A marker leaves open what it does not end. -/
theorem openPlaces_succ (moment : Nat) :
    openPlaces events (moment + 1) =
      (if isStart events moment then [moment] else []) ++
        (openPlaces events moment).filter (!ends events moment ·) := by
  have below : ∀ place ∈ (List.range moment).reverse,
      isOpen events (moment + 1) place =
        (!ends events moment place && isOpen events moment place) := by
    intro place member
    rw [List.mem_reverse, List.mem_range] at member
    rw [isOpen, if_neg (Nat.ne_of_lt member), ends, Bool.and_comm]
  have last : isOpen events (moment + 1) moment = isStart events moment := by
    rw [isOpen, if_pos rfl]
  rw [openPlaces, range_succ_reverse, List.filter_cons, last, List.filter_congr below,
    openPlaces, List.filter_filter]
  split <;> rfl

/-! ### What one marker does to the stack -/

theorem openedAt_of_isStart {place : Nat} (start : isStart events place = true) :
    events[place]? = some (.opens (openedAt events place).name (openedAt events place).start) := by
  unfold isStart at start
  split at start
  · next found => rw [openedAt, found]
  · cases start

theorem starts_iff {name : String} {place : Nat} (start : isStart events place = true) :
    starts events name place = true ↔ (openedAt events place).name = name := by
  rw [starts, openedAt_of_isStart start]
  exact beq_iff_eq

/-- The stack is cut right below the first section of the name. -/
theorem splitAt_append {name : String} {inside : List OpenSection} {innermost : OpenSection}
    (outside : List OpenSection) (others : ∀ opened ∈ inside, opened.name ≠ name)
    (named : innermost.name = name) :
    SectionStack.splitAt name (inside ++ innermost :: outside) =
      (inside ++ [innermost], outside) := by
  induction inside with
  | nil => rw [List.nil_append, SectionStack.splitAt, if_pos named, List.nil_append]
  | cons first rest inductionHypothesis =>
    have inRest := inductionHypothesis fun opened member => others opened (.tail _ member)
    rw [List.cons_append, SectionStack.splitAt, if_neg (others first List.mem_cons_self), inRest]
    rfl

/-- Closing where a section of the name is open. -/
theorem close_append {stack : SectionStack} {name : String} (time : Int)
    {inside outside : List OpenSection} {innermost : OpenSection}
    (opened : stack.opened = inside ++ innermost :: outside)
    (others : ∀ opened ∈ inside, opened.name ≠ name) (named : innermost.name = name) :
    stack.close name time =
      ⟨outside, stack.closed ++ (inside ++ [innermost]).map (·.ended (some time))⟩ := by
  have found : stack.opened.any (·.name = name) = true := by
    rw [opened, List.any_append, List.any_cons, decide_eq_true named, Bool.true_or, Bool.or_true]
  rw [SectionStack.close, if_pos found, opened, splitAt_append outside others named]

/-- Closing where no section of the name is open. -/
theorem close_of_unknown {stack : SectionStack} {name : String} (time : Int)
    (unknown : ∀ opened ∈ stack.opened, opened.name ≠ name) : stack.close name time = stack := by
  rw [SectionStack.close, if_neg]
  rw [List.any_eq_true]
  rintro ⟨opened, member, named⟩
  exact unknown opened member (of_decide_eq_true named)

/-- The innermost open section of a name is the first of that name on the stack. -/
theorem innermost?_eq (moment : Nat) (name : String) :
    innermost? events (isOpen events moment) moment name =
      (openPlaces events moment).find? (starts events name) := by
  rw [innermost?, openPlaces, List.find?_filter]
  simp only [Bool.decide_and, Bool.decide_eq_true]

/-- Where the marker at a moment names no open section it ends nothing. -/
theorem ends_eq_false_of_unknown {moment : Nat} {name : String} {time : Int}
    (found : events[moment]? = some (.closes name time))
    (unknown : innermost? events (isOpen events moment) moment name = none) (place : Nat) :
    ends events moment place = false := by
  rw [ends, reaches, found]
  simp only [unknown, Option.any_none]

/-- The stack agrees with the places before every moment: the sections still open, and those that
each of the markers so far has ended. -/
structure Agrees (events : List SectionEvent) (moment : Nat) : Prop where
  opened : (stackAt events moment).opened = (openPlaces events moment).map (openedAt events)
  closed : (stackAt events moment).closed = (List.range moment).flatMap fun marker =>
    (endedBy events marker).map fun place =>
      (openedAt events place).ended (endTime? events marker)

namespace Agrees

theorem start : Agrees events 0 where
  opened := rfl
  closed := rfl

/-- An end marker that names no open section leaves the stack as it is. -/
theorem close_unknown {moment : Nat} {name : String} (agrees : Agrees events moment) (time : Int)
    (unknown : innermost? events (isOpen events moment) moment name = none) :
    (stackAt events moment).close name time = stackAt events moment := by
  refine close_of_unknown time fun opened member named => ?_
  rw [agrees.opened] at member
  obtain ⟨place, isPlace, rfl⟩ := List.mem_map.mp member
  rw [innermost?_eq, List.find?_eq_none] at unknown
  exact unknown place isPlace
    ((starts_iff (isStart_of_isOpen (mem_openPlaces.mp isPlace))).mpr named)

theorem endedBy_eq_nil {moment : Nat} (untouched : ∀ place, ends events moment place = false) :
    endedBy events moment = [] := by
  rw [endedBy, List.filter_eq_nil_iff]
  intro place _
  rw [untouched]
  exact Bool.false_ne_true

theorem filter_not_ends {moment : Nat} (untouched : ∀ place, ends events moment place = false) :
    (openPlaces events moment).filter (!ends events moment ·) = openPlaces events moment := by
  rw [List.filter_eq_self]
  intro place _
  rw [untouched]
  rfl

/-- A start marker puts its section on the stack. -/
theorem opens {moment : Nat} {name : String} {time : Int} (agrees : Agrees events moment)
    (found : events[moment]? = some (.opens name time)) : Agrees events (moment + 1) := by
  have start : isStart events moment = true := by rw [isStart, found]
  have untouched := ends_eq_false_of_isStart start
  have this : openedAt events moment = ⟨name, time⟩ := by rw [openedAt, found]
  constructor
  · rw [stackAt_succ found, openPlaces_succ, if_pos start, filter_not_ends untouched,
      List.singleton_append, List.map_cons, ← agrees.opened, this]
    rfl
  · rw [stackAt_succ found, List.range_succ, List.flatMap_append, ← agrees.closed,
      List.flatMap_singleton, endedBy_eq_nil untouched, List.map_nil, List.append_nil]
    rfl

/-- An end marker that names no open section changes nothing. -/
theorem closes_unknown {moment : Nat} {name : String} {time : Int} (agrees : Agrees events moment)
    (found : events[moment]? = some (.closes name time))
    (unknown : innermost? events (isOpen events moment) moment name = none) :
    Agrees events (moment + 1) := by
  have noStart : isStart events moment = false := by rw [isStart, found]
  have untouched := ends_eq_false_of_unknown found unknown
  have same : stackAt events (moment + 1) = stackAt events moment :=
    (stackAt_succ found).trans (agrees.close_unknown time unknown)
  constructor
  · rw [same, openPlaces_succ, noStart, filter_not_ends untouched, agrees.opened]
    rfl
  · rw [same, List.range_succ, List.flatMap_append, ← agrees.closed, List.flatMap_singleton,
      endedBy_eq_nil untouched, List.map_nil, List.append_nil]

/-- An end marker cuts the open sections at the innermost one of its name. -/
theorem closes_known {moment innermost : Nat} {name : String} {time : Int}
    (agrees : Agrees events moment) (found : events[moment]? = some (.closes name time))
    (known : innermost? events (isOpen events moment) moment name = some innermost) :
    Agrees events (moment + 1) := by
  have noStart : isStart events moment = false := by rw [isStart, found]
  have reach : ∀ place, ends events moment place = decide (innermost ≤ place) := by
    intro place
    rw [ends, reaches, found]
    simp only [known, Option.any_some]
  rw [innermost?_eq, List.find?_eq_some_iff_append] at known
  obtain ⟨named, inside, outside, split, others⟩ := known
  have descending : (openPlaces events moment).Pairwise (· > ·) := openPlaces_descending moment
  rw [split] at descending
  obtain ⟨fromIt, beforeIt⟩ := filter_cut descending
  -- Everything on the stack above the innermost section of the name was started after it.
  have ended : endedBy events moment = inside ++ [innermost] := by
    rw [endedBy, split, funext reach, fromIt]
  have left : openPlaces events (moment + 1) = outside := by
    rw [openPlaces_succ, noStart, split, funext reach, beforeIt]
    rfl
  have isPlace : ∀ place ∈ inside ++ innermost :: outside, isStart events place = true :=
    fun place member => isStart_of_isOpen (mem_openPlaces.mp (by rw [split]; exact member))
  have isNamed : (openedAt events innermost).name = name :=
    (starts_iff (isPlace _ (List.mem_append_right _ List.mem_cons_self))).mp named
  have isOther : ∀ opened ∈ inside.map (openedAt events), opened.name ≠ name := by
    intro opened member same
    obtain ⟨place, isInside, rfl⟩ := List.mem_map.mp member
    have named' := (starts_iff (isPlace _ (List.mem_append_left _ isInside))).mpr same
    have := others place isInside
    rw [named'] at this
    cases this
  have opened : (stackAt events moment).opened = inside.map (openedAt events) ++
      openedAt events innermost :: outside.map (openedAt events) := by
    rw [agrees.opened, split, List.map_append, List.map_cons]
  have closed := close_append time opened isOther isNamed
  constructor
  · rw [stackAt_succ found, SectionStack.apply, closed, left]
  · have marked : endTime? events moment = some time := by rw [endTime?, found]
    rw [stackAt_succ found, SectionStack.apply, closed, List.range_succ, List.flatMap_append,
      ← agrees.closed, List.flatMap_singleton, ended, marked, List.map_append, List.map_append,
      List.map_map]
    rfl

/-- The stack agrees with the places at every moment of the log. -/
theorem of_le {moment : Nat} (inside : moment ≤ events.length) : Agrees events moment := by
  induction moment with
  | zero => exact start
  | succ moment inductionHypothesis =>
    have agrees := inductionHypothesis (Nat.le_of_succ_le inside)
    have found := List.getElem?_eq_getElem inside
    cases marker : events[moment] with
    | opens name time =>
      rw [marker] at found
      exact agrees.opens found
    | closes name time =>
      rw [marker] at found
      cases known : innermost? events (isOpen events moment) moment name with
      | none => exact agrees.closes_unknown found known
      | some innermost => exact agrees.closes_known found known

end Agrees

/-! ### The order of the ends -/

theorem filter_range_reverse {accept : Nat → Bool} {small large : Nat} (fits : small ≤ large)
    (bounded : ∀ place, accept place = true → place < small) :
    (List.range large).reverse.filter accept = (List.range small).reverse.filter accept := by
  induction fits with
  | refl => rfl
  | @step large fits inductionHypothesis =>
    rw [range_succ_reverse, List.filter_cons_of_neg, inductionHypothesis]
    intro accepted
    exact absurd (bounded large accepted) (Nat.not_lt.mpr fits)

/-- The sections that a marker ends are those that have it as their end marker. -/
theorem endedBy_eq {moment : Nat} (inside : moment < events.length) :
    endedBy events moment =
      (startPlaces events).filter (endMarker? events · == some moment) := by
  have marks : ∀ place, (endMarker? events place == some moment && isStart events place) =
      (ends events moment place && isOpen events moment place) := by
    intro place
    rw [Bool.eq_iff_iff, Bool.and_eq_true, Bool.and_eq_true, beq_iff_eq]
    constructor
    · rintro ⟨marked, start⟩
      obtain ⟨_, opened, ended⟩ := (endMarker?_eq_some_iff start).mp marked
      exact ⟨ended, opened⟩
    · rintro ⟨ended, opened⟩
      have start := isStart_of_isOpen opened
      exact ⟨(endMarker?_eq_some_iff start).mpr ⟨inside, opened, ended⟩, start⟩
  rw [endedBy, openPlaces, startPlaces, List.filter_filter, List.filter_filter,
    funext marks, filter_range_reverse (Nat.le_of_lt inside)]
  intro place accepted
  exact lt_of_isOpen (Bool.and_eq_true _ _ ▸ accepted).2

/-- The sections open at the end of the log are those without an end marker. -/
theorem openPlaces_length :
    openPlaces events events.length =
      (startPlaces events).filter (endMarker? events · == none) := by
  rw [openPlaces, startPlaces, List.filter_filter]
  refine List.filter_congr fun place member => ?_
  rw [List.mem_reverse, List.mem_range] at member
  rw [Bool.eq_iff_iff, Bool.and_eq_true, beq_iff_eq]
  constructor
  · intro opened
    have start := isStart_of_isOpen opened
    exact ⟨(endMarker?_eq_none_iff start member).mpr opened, start⟩
  · rintro ⟨unmarked, start⟩
    exact (endMarker?_eq_none_iff start member).mp unmarked

theorem closingOrder_eq :
    closingOrder events =
      (List.range events.length).flatMap (endedBy events) ++ openPlaces events events.length := by
  rw [closingOrder, openPlaces_length]
  refine congrArg (· ++ _) (List.flatMap_congr fun moment member => ?_)
  exact (endedBy_eq (List.mem_range.mp member)).symm

/-- No start is lost and none is repeated. -/
theorem closingOrder_perm : (closingOrder events).Perm (startPlaces events) := by
  have ordered : (startPlaces events).Nodup :=
    (List.nodup_reverse.mpr List.nodup_range).filter _
  refine (List.perm_ext_iff_of_nodup ?_ ordered).mpr fun place => ?_
  · refine List.Nodup.append ?_ (ordered.filter _) ?_
    · refine List.nodup_flatMap.mpr ⟨fun moment _ => ordered.filter _, ?_⟩
      refine List.nodup_range.imp fun {first second} different place => ?_
      simp only [List.mem_filter, beq_iff_eq]
      rintro ⟨_, marked⟩ ⟨_, marked'⟩
      exact different (Option.some.inj (marked.symm.trans marked'))
    · intro place
      simp only [List.mem_flatMap, List.mem_filter, beq_iff_eq]
      rintro ⟨_, _, _, marked⟩ ⟨_, unmarked⟩
      rw [unmarked] at marked
      cases marked
  · simp only [closingOrder, List.mem_append, List.mem_flatMap, List.mem_filter, beq_iff_eq]
    constructor
    · rintro (⟨_, _, start, _⟩ | ⟨start, _⟩) <;> exact start
    · intro start
      cases marked : endMarker? events place with
      | none => exact .inr ⟨start, rfl⟩
      | some moment =>
        have isStart := (List.mem_filter.mp start).2
        exact .inl ⟨moment, List.mem_range.mpr ((endMarker?_eq_some_iff isStart).mp marked).1,
          start, rfl⟩

/-! ### The sections of a log -/

theorem sectionOf?_endedBy (endOfLog : EndOfLog) {moment place : Nat}
    (inside : moment < events.length) (member : place ∈ endedBy events moment) :
    sectionOf? events endOfLog place =
      some ((openedAt events place).ended (endTime? events moment)) := by
  rw [endedBy_eq inside] at member
  obtain ⟨isPlace, marked⟩ := List.mem_filter.mp member
  rw [sectionOf?, openedAt_of_isStart (List.mem_filter.mp isPlace).2, beq_iff_eq.mp marked]
  rfl

theorem sectionOf?_openPlaces (endOfLog : EndOfLog) {place : Nat}
    (member : place ∈ openPlaces events events.length) :
    sectionOf? events endOfLog place = some ((openedAt events place).ended endOfLog.finish?) := by
  rw [openPlaces_length] at member
  obtain ⟨isPlace, unmarked⟩ := List.mem_filter.mp member
  rw [sectionOf?, openedAt_of_isStart (List.mem_filter.mp isPlace).2, beq_iff_eq.mp unmarked]
  rfl

end SectionNesting

open SectionNesting

/-- What a log with any markers comes to: the sections of its starts, each once and with the end
that the markers after it determine, in the order in which they end. An end marker that names no
open section changes nothing. -/
theorem SectionStack.finish_applyAll (events : List SectionEvent) (endOfLog : EndOfLog) :
    ((SectionStack.empty.applyAll events).finish endOfLog).map some =
        (closingOrder events).map (sectionOf? events endOfLog) ∧
      (closingOrder events).Perm (startPlaces events) ∧
      ∀ moment name time, events[moment]? = some (.closes name time) →
        innermost? events (isOpen events moment) moment name = none →
        SectionStack.empty.applyAll (events.take (moment + 1)) =
          SectionStack.empty.applyAll (events.take moment) := by
  refine ⟨?_, closingOrder_perm, fun moment name time found unknown => ?_⟩
  · have agrees : Agrees events events.length := Agrees.of_le (Nat.le_refl _)
    have all : stackAt events events.length = SectionStack.empty.applyAll events := by
      rw [stackAt, List.take_length]
    rw [← all, SectionStack.finish, agrees.opened, agrees.closed, closingOrder_eq, List.map_append,
      List.map_append, List.map_flatMap, List.map_flatMap, List.map_map, List.map_map]
    congr 1
    · refine List.flatMap_congr fun moment member => ?_
      rw [List.map_map]
      refine List.map_congr_left fun place ended => ?_
      exact (sectionOf?_endedBy endOfLog (List.mem_range.mp member) ended).symm
    · exact List.map_congr_left fun place opened => (sectionOf?_openPlaces endOfLog opened).symm
  · have inside : moment < events.length := (List.getElem?_eq_some_iff.mp found).1
    exact (stackAt_succ found).trans
      ((Agrees.of_le (Nat.le_of_lt inside)).close_unknown time unknown)

namespace SectionNesting

/-- Markers of which some name a section twice, one names none, and one reaches past two others. -/
def markers : List SectionEvent :=
  [.opens "a" 1, .opens "b" 2, .opens "a" 3, .closes "c" 4, .opens "d" 5, .closes "b" 6,
    .closes "a" 7, .opens "a" 8]

/-- The marker of the unknown name changes nothing, that of `b` ends three sections, and that of
`a` the one that was there before them. -/
theorem finish_markers :
    ((SectionStack.empty.applyAll markers).finish (.closeAt 9)).map some =
        [some ⟨"d", 5, some 6⟩, some ⟨"a", 3, some 6⟩, some ⟨"b", 2, some 6⟩,
          some ⟨"a", 1, some 7⟩, some ⟨"a", 8, some 9⟩] ∧
      SectionStack.empty.applyAll (markers.take 4) =
        SectionStack.empty.applyAll (markers.take 3) :=
  ⟨(SectionStack.finish_applyAll markers (.closeAt 9)).1.trans (by decide +kernel),
    (SectionStack.finish_applyAll markers (.closeAt 9)).2.2 3 "c" 4 rfl (by decide +kernel)⟩

end SectionNesting

end CiTelemetry
