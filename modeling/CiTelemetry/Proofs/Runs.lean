/-
This file proves the facts about longest runs that readers of text rest on: a
text that is cut at the first item outside a class falls apart into a run of
the class and a rest that does not begin with it, and there is only one such
cut.
-/

import Mathlib.Data.List.TakeWhile

namespace CiTelemetry

variable {α : Type}

/-- A text that does not begin with an item of a class. -/
def Stops (test : α → Bool) (text : List α) : Prop :=
  ∀ item ∈ text.head?, test item = false

/-- A text whose items all belong to a class. -/
def IsRun (test : α → Bool) (text : List α) : Prop :=
  ∀ item ∈ text, test item = true

namespace IsRun

variable {test : α → Bool} {item : α} {first second : List α}

theorem nil : IsRun test ([] : List α) := by
  intro item member
  cases member

theorem cons (head : test item = true) (tail : IsRun test first) : IsRun test (item :: first) := by
  intro other member
  rcases List.mem_cons.mp member with rfl | inside
  · exact head
  · exact tail other inside

theorem append (left : IsRun test first) (right : IsRun test second) :
    IsRun test (first ++ second) := by
  intro other member
  rcases List.mem_append.mp member with inside | inside
  · exact left other inside
  · exact right other inside

/-- The items of a run that another class shuts out do not begin with that class. -/
theorem stops {other : α → Bool} (run : IsRun test first)
    (disjoint : ∀ item, test item = true → other item = false) : Stops other first := by
  intro item member
  exact disjoint item (run item (List.mem_of_mem_head? member))

end IsRun

theorem isRun_takeWhile (test : α → Bool) (text : List α) : IsRun test (text.takeWhile test) := by
  intro item member
  exact List.mem_takeWhile_imp member

theorem stops_dropWhile (test : α → Bool) (text : List α) : Stops test (text.dropWhile test) := by
  intro item member
  have least := List.head?_dropWhile_not test text
  rw [Option.mem_def.mp member] at least
  exact least

theorem Stops.nil (test : α → Bool) : Stops test ([] : List α) := by
  intro item member
  cases member

theorem Stops.cons {test : α → Bool} {item : α} (outside : test item = false) (text : List α) :
    Stops test (item :: text) := by
  intro other member
  cases member
  exact outside

/-- What stands before the rest decides how a text that is not empty begins. -/
theorem Stops.append {test : α → Bool} {first second : List α} (left : Stops test first)
    (right : first = [] → Stops test second) : Stops test (first ++ second) := by
  cases first with
  | nil => exact right rfl
  | cons item rest => exact Stops.cons (left item rfl) (rest ++ second)

section Cut

variable {test : α → Bool} {run rest : List α}

theorem takeWhile_of_stops (stops : Stops test rest) : rest.takeWhile test = [] := by
  cases rest with
  | nil => rfl
  | cons item after => exact List.takeWhile_cons_of_neg (by rw [stops item rfl]; decide)

theorem dropWhile_of_stops (stops : Stops test rest) : rest.dropWhile test = rest := by
  cases rest with
  | nil => rfl
  | cons item after => exact List.dropWhile_cons_of_neg (by rw [stops item rfl]; decide)

theorem takeWhile_run_append (isRun : IsRun test run) (stops : Stops test rest) :
    (run ++ rest).takeWhile test = run := by
  rw [List.takeWhile_append_of_pos isRun, takeWhile_of_stops stops, List.append_nil]

theorem dropWhile_run_append (isRun : IsRun test run) (stops : Stops test rest) :
    (run ++ rest).dropWhile test = rest := by
  rw [List.dropWhile_append_of_pos isRun, dropWhile_of_stops stops]

/-- What stands behind an item outside the class plays no part in the longest run. -/
theorem takeWhile_append_cons {item : α} (outside : test item = false) (first second : List α) :
    (first ++ item :: second).takeWhile test = first.takeWhile test := by
  induction first with
  | nil => exact takeWhile_of_stops (Stops.cons outside second)
  | cons other more inductionHypothesis =>
    rw [List.cons_append, List.takeWhile_cons, List.takeWhile_cons, inductionHypothesis]

theorem dropWhile_append_cons {item : α} (outside : test item = false) (first second : List α) :
    (first ++ item :: second).dropWhile test = first.dropWhile test ++ item :: second := by
  induction first with
  | nil => exact dropWhile_of_stops (Stops.cons outside second)
  | cons other more inductionHypothesis =>
    rw [List.cons_append, List.dropWhile_cons, List.dropWhile_cons, inductionHypothesis]
    split <;> rfl

end Cut

end CiTelemetry
