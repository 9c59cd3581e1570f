/-
This file tells how a log falls apart into its lines. The first line of a log
ends at its first newline, so a log is its last line or a line before a shorter
log; whatever holds of lines is proved along that cut. A log that ends where a
line ends falls apart by itself, whatever is appended to it.
-/

import CiTelemetry.Log.Scan
import Mathlib.Logic.Basic

namespace CiTelemetry

namespace Log

open MetricLine (newline)

/-! ### The first line -/

theorem splitLine_append {text : Bytes} (clean : newline ∉ text) (rest : Bytes) :
    splitLine (text ++ newline :: rest) = (text ++ [newline], rest) := by
  induction text with
  | nil => rfl
  | cons byte more inductionHypothesis =>
    obtain ⟨different, others⟩ := not_or.mp (List.mem_cons.not.mp clean)
    rw [List.cons_append, splitLine, if_neg (Ne.symm different), inductionHypothesis others]
    rfl

theorem splitLine_clean {text : Bytes} (clean : newline ∉ text) : splitLine text = (text, []) := by
  induction text with
  | nil => rfl
  | cons byte more inductionHypothesis =>
    obtain ⟨different, others⟩ := not_or.mp (List.mem_cons.not.mp clean)
    rw [splitLine, if_neg (Ne.symm different), inductionHypothesis others]

/-- The first line of a log ends at its first newline. -/
theorem lines_append {text : Bytes} (clean : newline ∉ text) (rest : Bytes) :
    lines (text ++ newline :: rest) = (text ++ [newline]) :: lines rest := by
  have first := splitLine_append clean rest
  cases text with
  | nil =>
    rw [List.nil_append] at first ⊢
    rw [lines, first]
  | cons byte more =>
    rw [List.cons_append] at first ⊢
    rw [lines, first]

theorem lines_nil : lines [] = [] := by
  rw [lines]

theorem lines_clean {text : Bytes} (clean : newline ∉ text) (present : text ≠ []) :
    lines text = [text] := by
  obtain ⟨byte, more, rfl⟩ := List.exists_cons_of_ne_nil present
  rw [lines, splitLine_clean clean, lines]

/-- Induction over the lines of a log, of which the last has no newline and may be empty. -/
@[elab_as_elim]
theorem byLines {motive : Bytes → Prop} (last : ∀ text, newline ∉ text → motive text)
    (line : ∀ text rest, newline ∉ text → motive rest → motive (text ++ newline :: rest))
    (log : Bytes) : motive log := by
  by_cases member : newline ∈ log
  · obtain ⟨text, rest, split, clean⟩ := List.eq_append_cons_of_mem member
    rw [split]
    exact line text rest clean (byLines last line rest)
  · exact last log member
termination_by log.length
decreasing_by
  rw [split, List.length_append, List.length_cons]
  omega

/-! ### Logs that end with a line -/

/-- A log that is empty or ends with a newline. -/
def IsWhole (log : Bytes) : Prop :=
  log = [] ∨ log.getLast? = some newline

namespace IsWhole

variable {text rest : Bytes}

/-- A whole log without a newline is empty. -/
theorem eq_nil_of_clean (whole : IsWhole text) (clean : newline ∉ text) : text = [] := by
  rcases whole with empty | ends
  · exact empty
  · exact absurd (List.mem_of_getLast? ends) clean

/-- What follows a line of a whole log is whole. -/
theorem of_line (whole : IsWhole (text ++ newline :: rest)) : IsWhole rest := by
  rcases whole with empty | ends
  · exact absurd empty (List.append_ne_nil_of_right_ne_nil _ (List.cons_ne_nil _ _))
  · cases rest with
    | nil => exact .inl rfl
    | cons byte more =>
      rw [List.getLast?_append, List.getLast?_cons_cons] at ends
      exact .inr (by simpa using ends)

end IsWhole

variable {before : Bytes}

/-- The lines of a log that goes on after a whole one. -/
theorem lines_append_of_whole (whole : IsWhole before) (after : Bytes) :
    lines (before ++ after) = lines before ++ lines after := by
  induction before using byLines with
  | last text clean =>
    rw [whole.eq_nil_of_clean clean, lines_nil, List.nil_append, List.nil_append]
  | line text rest clean inductionHypothesis =>
    rw [List.append_assoc, List.cons_append, lines_append clean, lines_append clean,
      inductionHypothesis whole.of_line, List.cons_append]

/-- A whole log has as many lines as newlines. -/
theorem length_lines (whole : IsWhole before) : (lines before).length = before.count newline := by
  induction before using byLines with
  | last text clean =>
    rw [whole.eq_nil_of_clean clean, lines_nil]
    rfl
  | line text rest clean inductionHypothesis =>
    rw [lines_append clean, List.length_cons, inductionHypothesis whole.of_line,
      List.count_append, List.count_eq_zero_of_not_mem clean, List.count_cons_self, Nat.zero_add]

/-! ### Metric lines -/

theorem metric?_mark (body : Bytes) :
    metric? (Utf8.encode metricMark ++ body) = some (Metric.ofLine? body) := by
  unfold metric?
  dsimp only
  rw [if_pos (List.isPrefixOf_iff_prefix.mpr (List.prefix_append _ _)), List.drop_left]

theorem exists_mark_of_metric? {line : Bytes} {outcome : Except LineFault Metric}
    (read : metric? line = some outcome) :
    ∃ body, line = Utf8.encode metricMark ++ body ∧ Metric.ofLine? body = outcome := by
  unfold metric? at read
  dsimp only at read
  split at read
  · next marked =>
    obtain ⟨body, rfl⟩ := List.isPrefixOf_iff_prefix.mp marked
    rw [List.drop_left, Option.some.injEq] at read
    exact ⟨body, rfl, read⟩
  · cases read

/-- Every refusal but a truncation is a fault of its line. -/
theorem fault?_of_refused {line : Bytes} {fault : LineFault}
    (refused : metric? line = some (.error fault)) (other : fault ≠ .truncated) :
    fault? line = some fault := by
  rw [fault?, refused]
  cases fault with
  | truncated => exact absurd rfl other
  | _ => rfl

theorem fault?_eq_some_iff {line : Bytes} {fault : LineFault} :
    fault? line = some fault ↔ fault ≠ .truncated ∧ ∃ body,
      line = Utf8.encode metricMark ++ body ∧ Metric.ofLine? body = .error fault := by
  constructor
  · intro found
    unfold fault? at found
    split at found
    · cases found
    · next other read =>
      cases found
      exact ⟨other, exists_mark_of_metric? read⟩
    · cases found
  · rintro ⟨other, body, rfl, refused⟩
    exact fault?_of_refused ((metric?_mark body).trans (congrArg some refused)) other

theorem sample?_eq_some_iff {line : Bytes} {metric : Metric} :
    sample? line = some metric ↔ ∃ body,
      line = Utf8.encode metricMark ++ body ∧ Metric.ofLine? body = .ok metric := by
  constructor
  · intro found
    unfold sample? at found
    split at found
    · next read =>
      cases found
      exact exists_mark_of_metric? read
    · cases found
  · rintro ⟨body, rfl, sampled⟩
    rw [sample?, metric?_mark, sampled]

end Log

end CiTelemetry
