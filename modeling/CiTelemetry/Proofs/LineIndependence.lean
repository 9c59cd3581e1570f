/-
This file proves that the lines of a log are read independently of one another.
A reader of a metric line stops at the newline that ends the line, and with a
newline ahead it never takes the line for cut short, however malformed the line
is; so every metric line that has its newline gives either a sample or a fault.
What a log gives is what its lines give, one after the other.
-/

import CiTelemetry.Proofs.LogLines
import CiTelemetry.Proofs.MetricGrammar

namespace CiTelemetry

namespace MetricLine

/-! ### Readers stay on their line -/

/-- What reading comes to when it stays on its line: it did not run out of bytes, and where it
goes on there is still a newline ahead. -/
def InLine {α : Type} (ahead : α → Bytes) (outcome : Except LineFault α) : Prop :=
  outcome ≠ .error .truncated ∧ ∀ value, outcome = .ok value → newline ∈ ahead value

namespace InLine

variable {α β : Type} {ahead : α → Bytes} {ahead' : β → Bytes}

theorem ok {value : α} (member : newline ∈ ahead value) : InLine ahead (.ok value) := by
  refine ⟨nofun, fun other same => ?_⟩
  cases same
  exact member

theorem error {fault : LineFault} (other : fault ≠ .truncated) : InLine ahead (.error fault) := by
  refine ⟨fun same => ?_, nofun⟩
  cases same
  exact other rfl

theorem map {outcome : Except LineFault α} (inLine : InLine ahead outcome) {change : α → β}
    (same : ∀ value, ahead' (change value) = ahead value) :
    InLine ahead' (outcome.map change) := by
  cases outcome with
  | error fault => exact error fun same => inLine.1 (congrArg Except.error same)
  | ok value =>
    refine ok ?_
    rw [same]
    exact inLine.2 value rfl

end InLine

variable {input : Bytes}

theorem newline_mem_dropWhile {test : UInt8 → Bool} (outside : test newline = false)
    (ahead : newline ∈ input) : newline ∈ input.dropWhile test := by
  rw [← List.takeWhile_append_dropWhile (p := test) (l := input), List.mem_append] at ahead
  rcases ahead with inside | behind
  · rw [isRun_takeWhile test input newline inside] at outside
    cases outside
  · exact behind

theorem newline_mem_skipBlanks (ahead : newline ∈ input) : newline ∈ skipBlanks input :=
  newline_mem_dropWhile isBlank_newline ahead

/-- A byte other than the newline does not take the newline away. -/
theorem newline_mem_of_cons {byte : UInt8} {rest : Bytes} (other : byte ≠ newline)
    (ahead : newline ∈ byte :: rest) : newline ∈ rest := by
  rcases List.mem_cons.mp ahead with same | behind
  · exact absurd same.symm other
  · exact behind

theorem metricName_inLine (ahead : newline ∈ input) : InLine Prod.snd (metricName input) := by
  unfold metricName
  split
  · cases ahead
  · split
    · exact .ok (newline_mem_dropWhile (by decide) ahead)
    · exact .error (by simp)

theorem blockOpening_inLine (ahead : newline ∈ input) : InLine Prod.snd (blockOpening input) := by
  have behind := newline_mem_skipBlanks ahead
  unfold blockOpening
  split
  · cases ahead
  · split
    · next opens => exact .ok (newline_mem_of_cons (by rw [opens]; decide) ahead)
    · split
      · split
        · next isOver =>
          rw [isOver] at behind
          cases behind
        · next found =>
          rw [found] at behind
          split
          · next opens => exact .ok (newline_mem_of_cons (by rw [opens]; decide) behind)
          · exact .ok behind
      · split
        · exact .error (by simp)
        · exact .error (by simp)

theorem expect_inLine {byte : UInt8} (mark : LabelMark) (other : byte ≠ newline)
    (ahead : newline ∈ input) : InLine id (expect byte mark input) := by
  have behind := newline_mem_skipBlanks ahead
  unfold expect
  split
  · next isOver =>
    rw [isOver] at behind
    cases behind
  · next found =>
    rw [found] at behind
    split
    · next same => exact .ok (newline_mem_of_cons (same ▸ other) behind)
    · exact .error (by simp)

theorem quoted_inLine (ahead : newline ∈ input) : InLine Prod.snd (quoted input) := by
  fun_induction quoted input with
  | case1 => cases ahead
  | case2 => exact .error (by simp)
  | case3 => exact .ok (newline_mem_of_cons (by decide) ahead)
  | case4 =>
    -- The backslash is the last byte, so that no newline is ahead.
    cases newline_mem_of_cons (by decide) ahead
  | case5 escaped after known _ _ inductionHypothesis =>
    have other : escaped ≠ newline := by
      rintro rfl
      revert known
      decide
    exact .map (inductionHypothesis
      (newline_mem_of_cons other (newline_mem_of_cons (by decide) ahead))) fun _ => rfl
  | case6 after _ _ _ inductionHypothesis =>
    exact .map (inductionHypothesis
      (newline_mem_of_cons (by decide) (newline_mem_of_cons (by decide) ahead))) fun _ => rfl
  | case7 => exact .error (by simp)
  | case8 _ _ notNewline _ _ inductionHypothesis =>
    exact .map (inductionHypothesis (newline_mem_of_cons notNewline ahead)) fun _ => rfl

theorem label_inLine (ahead : newline ∈ input) : InLine Prod.snd (label input) := by
  have afterName : newline ∈ input.dropWhile isLabelByte := newline_mem_dropWhile (by decide) ahead
  have equals := expect_inLine .equalsSign (by decide : equalsSign ≠ newline) afterName
  unfold label
  split
  · cases ahead
  · split
    · exact .error (by simp)
    · split
      · exact .error (by simp)
      · split
        · next failed => exact .error fun same => equals.1 (same ▸ failed)
        · next rest found =>
          have quotes := expect_inLine .openingQuote (by decide : quote ≠ newline)
            (equals.2 rest found)
          split
          · next failed => exact .error fun same => quotes.1 (same ▸ failed)
          · next rest found =>
            have value := quoted_inLine (quotes.2 rest found)
            split
            · next failed => exact .error fun same => value.1 (same ▸ failed)
            · next bytes rest read =>
              split
              · exact .ok (value.2 (bytes, rest) read)
              · exact .error (by simp)

/-- After a label the newline is still ahead, blanks aside. -/
theorem afterLabel_inLine {next : UInt8} {others skipped afterLabel : Bytes}
    {pair : String × String} (ahead : newline ∈ input) (found : skipBlanks input = next :: others)
    (read : label (next :: others) = .ok (pair, afterLabel))
    (foundAfter : skipBlanks afterLabel = skipped) : newline ∈ skipped := by
  have behind := newline_mem_skipBlanks ahead
  rw [found] at behind
  rw [← foundAfter]
  exact newline_mem_skipBlanks ((label_inLine behind).2 (pair, afterLabel) read)

theorem labelBlock_inLine (labels : List (String × String)) (ahead : newline ∈ input) :
    InLine Prod.snd (labelBlock labels input) := by
  fun_induction labelBlock labels input with
  | case1 _ _ isOver =>
    have behind := newline_mem_skipBlanks ahead
    rw [isOver] at behind
    cases behind
  | case2 _ _ rest found =>
    have behind := newline_mem_skipBlanks ahead
    rw [found] at behind
    exact .ok (newline_mem_of_cons (by decide) behind)
  | case3 _ _ next others found _ fault failed =>
    have behind := newline_mem_skipBlanks ahead
    rw [found] at behind
    exact .error fun same => (label_inLine behind).1 (same ▸ failed)
  | case4 => exact .error (by simp)
  | case5 _ _ _ _ found _ _ _ _ read _ isOver =>
    cases afterLabel_inLine ahead found read isOver
  | case6 _ _ _ _ found _ _ _ _ read _ rest foundAfter inductionHypothesis =>
    have behind := afterLabel_inLine ahead found read foundAfter
    exact inductionHypothesis (newline_mem_of_cons (by decide) behind)
  | case7 _ _ _ _ found _ _ _ _ read _ rest foundAfter =>
    have behind := afterLabel_inLine ahead found read foundAfter
    exact .ok (newline_mem_of_cons (by decide) behind)
  | case8 => exact .error (by simp)
  | case9 => exact .error (by simp)

theorem value_inLine (ahead : newline ∈ input) : InLine Prod.snd (value input) := by
  have behind : newline ∈ (skipBlanks input).dropWhile isTokenByte :=
    newline_mem_dropWhile (by decide) (newline_mem_skipBlanks ahead)
  unfold value
  dsimp only
  split
  · split
    · next isOver =>
      rw [List.isEmpty_iff.mp isOver] at behind
      cases behind
    · exact .error (by simp)
  · split
    · exact .ok behind
    · exact .error (by simp)

/-- The timestamp is the last part of a line, so nothing is ahead of it. -/
theorem timestamp_ne_truncated (input : Bytes) : timestamp input ≠ .error .truncated := by
  unfold timestamp
  dsimp only
  split
  · nofun
  · split
    · nofun
    · split <;> nofun

end MetricLine

/-- Reading is not cut short if none of its parts is. -/
theorem bind_ne_truncated {α β : Type} {outcome : Except LineFault α}
    {next : α → Except LineFault β} (first : outcome ≠ .error .truncated)
    (second : ∀ value, outcome = .ok value → next value ≠ .error .truncated) :
    outcome >>= next ≠ .error .truncated := by
  cases outcome with
  | error fault =>
    intro same
    cases same
    exact first rfl
  | ok value => exact second value rfl

open MetricLine in
/-- A metric line with a newline ahead is not taken for cut short. -/
theorem Metric.ofLine?_ne_truncated {input : Bytes} (ahead : newline ∈ input) :
    Metric.ofLine? input ≠ .error .truncated := by
  have named := metricName_inLine ahead
  refine bind_ne_truncated named.1 ?_
  rintro ⟨name, afterName⟩ read
  have opening := blockOpening_inLine (named.2 _ read)
  refine bind_ne_truncated opening.1 ?_
  rintro ⟨hasLabels, afterOpening⟩ read
  have ahead := opening.2 _ read
  have goesOn : ∀ labels afterLabels, newline ∈ afterLabels →
      (MetricLine.value afterLabels >>= fun read => MetricLine.timestamp read.2 >>= fun time =>
        pure ⟨name, labels, read.1, time⟩ : Except LineFault Metric) ≠ .error .truncated := by
    intro labels afterLabels ahead
    have valued := value_inLine ahead
    refine bind_ne_truncated valued.1 ?_
    intro read _
    refine bind_ne_truncated (timestamp_ne_truncated read.2) fun time _ returned => ?_
    cases returned
  dsimp only
  split
  · have labelled := labelBlock_inLine [] ahead
    refine bind_ne_truncated labelled.1 ?_
    rintro ⟨labels, afterLabels⟩ read
    exact goesOn labels afterLabels (labelled.2 _ read)
  · exact goesOn [] afterOpening ahead

/-- A refused line of a log that comes after `count` other lines. -/
def LineError.later (count : Nat) (refused : LineError) : LineError :=
  { refused with line := count + refused.line }

namespace Log

open MetricLine (newline)

/-! ### Logs one after the other -/

/-- The section markers of a log, line after line. -/
def events (log : Bytes) : List SectionEvent :=
  (lines log).flatMap markers

theorem lineErrors_later (count first : Nat) (lines : List Bytes) :
    lineErrors (count + first) lines = (lineErrors first lines).map (·.later count) := by
  induction lines generalizing first with
  | nil => rfl
  | cons line rest inductionHypothesis =>
    rw [lineErrors, lineErrors, Nat.add_assoc, inductionHypothesis]
    split <;> rfl

theorem lineErrors_append (first : Nat) (lines others : List Bytes) :
    lineErrors first (lines ++ others) =
      lineErrors first lines ++ lineErrors (lines.length + first) others := by
  induction lines generalizing first with
  | nil =>
    rw [List.length_nil, Nat.zero_add]
    rfl
  | cons line rest inductionHypothesis =>
    rw [List.cons_append, lineErrors, lineErrors, inductionHypothesis, List.length_cons,
      Nat.add_assoc, Nat.add_comm 1 first]
    split <;> rfl

variable {before : Bytes}

/-- What a log gives that goes on after whole lines: first what those give and then what the rest
gives, with its lines numbered on. The markers of both pass through one stack. -/
theorem parseWith_append (endOfLog : EndOfLog) (whole : IsWhole before) (after : Bytes) :
    parseWith (before ++ after) endOfLog =
      { sections :=
          ((SectionStack.empty.applyAll (events before)).applyAll (events after)).finish endOfLog
        metrics := (parseWith before endOfLog).metrics ++ (parseWith after endOfLog).metrics
        errors := (parseWith before endOfLog).errors ++
          (parseWith after endOfLog).errors.map (·.later (before.count newline)) } := by
  have markersOf : events (before ++ after) = events before ++ events after := by
    rw [events, lines_append_of_whole whole, List.flatMap_append]
    rfl
  have stack : (SectionStack.empty.applyAll (events before)).applyAll (events after) =
      SectionStack.empty.applyAll (events (before ++ after)) := by
    rw [markersOf]
    exact List.foldl_append.symm
  rw [stack]
  unfold parseWith
  dsimp only
  rw [lines_append_of_whole whole, List.filterMap_append, lineErrors_append, lineErrors_later,
    length_lines whole, ← lines_append_of_whole whole]
  rfl

/-! ### What a line adds -/

/-- What a line adds to what stands before and after it in a log: samples between those of the
other lines, and faults under its own number. -/
structure Adds (endOfLog : EndOfLog) (before line after : Bytes) (samples : List Metric)
    (faults : List LineFault) : Prop where
  metrics : (parseWith (before ++ (line ++ after)) endOfLog).metrics =
    (parseWith before endOfLog).metrics ++ (samples ++ (parseWith after endOfLog).metrics)
  errors : (parseWith (before ++ (line ++ after)) endOfLog).errors =
    (parseWith before endOfLog).errors ++ (faults.map (⟨before.count newline + 1, ·⟩) ++
      (parseWith after endOfLog).errors.map (·.later ((before ++ line).count newline)))

/-- How much a line adds can be told from the whole log and what stands around the line. -/
theorem Adds.counts {endOfLog : EndOfLog} {line after : Bytes} {samples : List Metric}
    {faults : List LineFault} (adds : Adds endOfLog before line after samples faults) :
    (parseWith (before ++ (line ++ after)) endOfLog).metrics.length =
        (parseWith before endOfLog).metrics.length +
          (samples.length + (parseWith after endOfLog).metrics.length) ∧
      (parseWith (before ++ (line ++ after)) endOfLog).errors.length =
        (parseWith before endOfLog).errors.length +
          (faults.length + (parseWith after endOfLog).errors.length) := by
  rw [adds.metrics, adds.errors]
  simp only [List.length_append, List.length_map, and_self]

theorem parseWith_nil (endOfLog : EndOfLog) :
    parseWith [] endOfLog = ⟨SectionStack.empty.finish endOfLog, [], []⟩ := by
  rw [parseWith, lines_nil]
  rfl

/-- What a log gives that is a single line. -/
theorem parseWith_single (endOfLog : EndOfLog) {line : Bytes} (single : lines line = [line]) :
    (parseWith line endOfLog).metrics = (sample? line).toList ∧
      (parseWith line endOfLog).errors = (fault? line).toList.map (⟨1, ·⟩) := by
  unfold parseWith
  dsimp only
  rw [single, lineErrors]
  constructor
  · cases found : sample? line with
    | none => exact List.filterMap_cons_none found
    | some sample => exact List.filterMap_cons_some found
  · cases fault? line <;> rfl

/-- What a log gives that begins with a line, of which only the last may lack its newline. -/
theorem parseWith_line (endOfLog : EndOfLog) {line after : Bytes} (single : lines line = [line])
    (ended : IsWhole line ∨ after = []) :
    (parseWith (line ++ after) endOfLog).metrics =
        (sample? line).toList ++ (parseWith after endOfLog).metrics ∧
      (parseWith (line ++ after) endOfLog).errors = (fault? line).toList.map (⟨1, ·⟩) ++
        (parseWith after endOfLog).errors.map (·.later (line.count newline)) := by
  obtain ⟨samples, faults⟩ := parseWith_single endOfLog single
  rcases ended with whole | rfl
  · rw [parseWith_append endOfLog whole, samples, faults]
    exact ⟨rfl, rfl⟩
  · rw [List.append_nil, parseWith_nil, samples, faults, List.append_nil, List.map_nil,
      List.append_nil]
    exact ⟨rfl, rfl⟩

/-- A line adds its own sample and its own fault. -/
theorem adds_of_line (endOfLog : EndOfLog) (whole : IsWhole before) {line after : Bytes}
    (single : lines line = [line]) (ended : IsWhole line ∨ after = []) :
    Adds endOfLog before line after (sample? line).toList (fault? line).toList := by
  obtain ⟨samples, faults⟩ := parseWith_line endOfLog single ended
  constructor
  · rw [parseWith_append endOfLog whole, samples]
  · rw [parseWith_append endOfLog whole, faults, List.map_append, List.map_map, List.map_map,
      List.count_append]
    refine congrArg _ (congrArg _ (List.map_congr_left fun refused _ => ?_))
    exact congrArg (LineError.mk · refused.fault) (Nat.add_assoc _ _ _).symm

/-- The lines of a log are read independently. A log that goes on after whole lines gives what
these give and then what the rest gives, numbered on, with one stack for the sections of both.
A metric line that has its newline adds exactly one sample or exactly one fault, under its own
number; only a last line without a newline may add neither. -/
theorem lines_independent (endOfLog : EndOfLog) (whole : IsWhole before) :
    (∀ after, parseWith (before ++ after) endOfLog =
      { sections :=
          ((SectionStack.empty.applyAll (events before)).applyAll (events after)).finish endOfLog
        metrics := (parseWith before endOfLog).metrics ++ (parseWith after endOfLog).metrics
        errors := (parseWith before endOfLog).errors ++
          (parseWith after endOfLog).errors.map (·.later (before.count newline)) }) ∧
    ∀ text lineEnd after, newline ∉ text → (lineEnd = [newline] ∨ lineEnd = [] ∧ after = []) →
      let line := Utf8.encode metricMark ++ text ++ lineEnd
      (∃ metric, Adds endOfLog before line after [metric] []) ∨
        (∃ fault, fault ≠ .truncated ∧ Adds endOfLog before line after [] [fault]) ∨
        lineEnd = [] ∧ Adds endOfLog before line after [] [] := by
  refine ⟨parseWith_append endOfLog whole, fun text lineEnd after clean ended => ?_⟩
  dsimp only
  have marked := metric?_mark (text ++ lineEnd)
  rw [← List.append_assoc] at marked
  have cleanLine : newline ∉ Utf8.encode metricMark ++ text := by
    rw [List.mem_append, not_or]
    exact ⟨by decide, clean⟩
  have single : lines (Utf8.encode metricMark ++ text ++ lineEnd) =
      [Utf8.encode metricMark ++ text ++ lineEnd] := by
    rcases ended with rfl | ⟨rfl, _⟩
    · rw [lines_append cleanLine, lines_nil]
    · rw [List.append_nil]
      exact lines_clean cleanLine (List.append_ne_nil_of_left_ne_nil (by decide) _)
  have stands : IsWhole (Utf8.encode metricMark ++ text ++ lineEnd) ∨ after = [] := by
    rcases ended with rfl | ⟨_, last⟩
    · exact .inl (.inr List.getLast?_concat)
    · exact .inr last
  have adds := adds_of_line endOfLog whole single stands
  cases read : Metric.ofLine? (text ++ lineEnd) with
  | ok metric =>
    rw [read] at marked
    rw [sample?, fault?, marked] at adds
    exact .inl ⟨metric, adds⟩
  | error fault =>
    rw [read] at marked
    by_cases cut : fault = .truncated
    · subst cut
      rcases ended with rfl | ⟨rfl, _⟩
      · have ahead : newline ∈ text ++ [newline] := List.mem_append_right _ List.mem_cons_self
        exact absurd read (Metric.ofLine?_ne_truncated ahead)
      · rw [sample?, fault?, marked] at adds
        exact .inr (.inr ⟨rfl, adds⟩)
    · rw [sample?, marked, fault?_of_refused marked cut] at adds
      exact .inr (.inl ⟨fault, cut, adds⟩)

/-- A section that stays open, and a sample. -/
def wholeLines : Bytes :=
  Utf8.encode "section_start:1:a\nMETRIC_up 1\n"

/-- The text of a metric line that ends within a quoted label value and in a backslash. -/
def openQuote : Bytes :=
  Utf8.encode "p\x7ba=\"b\\"

/-- With a newline behind it the open quote is a fault of its line, though a whole log follows, and
at the end of the log it is nothing. -/
theorem openQuote_between_lines :
    (∃ fault, Adds .leaveOpen wholeLines (Utf8.encode metricMark ++ openQuote ++ [newline])
        wholeLines [] [fault]) ∧
      Adds .leaveOpen wholeLines (Utf8.encode metricMark ++ openQuote ++ []) [] [] [] := by
  have whole : IsWhole wholeLines := .inr (by decide +kernel)
  have clean : newline ∉ openQuote := by decide +kernel
  obtain ⟨_, adds⟩ := lines_independent .leaveOpen whole
  constructor
  · rcases adds openQuote [newline] wholeLines clean (.inl rfl) with
      ⟨metric, sampled⟩ | ⟨fault, _, refused⟩ | ⟨impossible, _⟩
    · have counted := sampled.counts.1
      rw [List.length_singleton] at counted
      exact absurd counted (by decide +kernel)
    · exact ⟨fault, refused⟩
    · cases impossible
  · rcases adds openQuote [] [] clean (.inr ⟨rfl, rfl⟩) with
      ⟨metric, sampled⟩ | ⟨fault, _, refused⟩ | ⟨_, nothing⟩
    · have counted := sampled.counts.1
      rw [List.length_singleton] at counted
      exact absurd counted (by decide +kernel)
    · have counted := refused.counts.2
      rw [List.length_singleton] at counted
      exact absurd counted (by decide +kernel)
    · exact nothing

end Log

end CiTelemetry
