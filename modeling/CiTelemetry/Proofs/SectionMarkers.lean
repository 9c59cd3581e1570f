/-
This file proves that section markers survive whatever text stands around them.
No keyword overlaps the beginning of another one, so text that holds no keyword
hides none that comes after it, wherever that text breaks off; a newline is part
of no marker, so cutting a log into lines cuts no marker; and the body of a
marker ends with its name if the text behind it begins with another byte.
-/

import CiTelemetry.Proofs.LineIndependence
import CiTelemetry.Proofs.MetricRoundTrip

namespace CiTelemetry

namespace Log

open MetricLine (newline)

/-! ### Text without keywords -/

/-- Whether no keyword begins within the first of two texts that stand one after the other. -/
def Silent : Bytes → Bytes → Prop
  | [], _ => True
  | byte :: more, rest =>
    (∀ keyword : Keyword, ¬ keyword.bytes <+: byte :: (more ++ rest)) ∧ Silent more rest

theorem indexOf?_eq_zero_iff {sought text : Bytes} :
    indexOf? sought text = some 0 ↔ sought <+: text := by
  cases text with
  | nil =>
    rw [indexOf?, List.prefix_nil, ← List.isEmpty_iff]
    cases sought.isEmpty <;> simp
  | cons byte rest =>
    rw [indexOf?, ← List.isPrefixOf_iff_prefix]
    split
    · next begins => exact iff_of_true rfl begins
    · next elsewhere =>
      refine iff_of_false (fun found => ?_) elsewhere
      obtain ⟨_, _, impossible⟩ := Option.map_eq_some_iff.mp found
      exact absurd impossible (Nat.succ_ne_zero _)

theorem indexOf?_append {filler rest : Bytes} (silent : Silent filler rest) (keyword : Keyword) :
    indexOf? keyword.bytes (filler ++ rest) =
      (indexOf? keyword.bytes rest).map (filler.length + ·) := by
  induction filler with
  | nil =>
    rw [List.nil_append]
    cases indexOf? keyword.bytes rest <;> simp
  | cons byte more inductionHypothesis =>
    have elsewhere : ¬ keyword.bytes.isPrefixOf (byte :: (more ++ rest)) = true :=
      fun found => silent.1 keyword (List.isPrefixOf_iff_prefix.mp found)
    rw [List.cons_append, indexOf?, if_neg elsewhere, inductionHypothesis silent.2,
      Option.map_map, List.length_cons]
    congr 1
    funext offset
    exact Nat.add_right_comm _ _ _

/-- The search for a keyword passes over text in which none begins. -/
theorem nextKeyword?_append {filler rest : Bytes} (silent : Silent filler rest) :
    nextKeyword? (filler ++ rest) =
      (nextKeyword? rest).map fun found => (filler.length + found.1, found.2) := by
  rw [nextKeyword?, nextKeyword?, indexOf?_append silent, indexOf?_append silent]
  cases indexOf? Keyword.sectionStart.bytes rest with
  | none => cases indexOf? Keyword.sectionEnd.bytes rest <;> rfl
  | some first =>
    cases indexOf? Keyword.sectionEnd.bytes rest with
    | none => rfl
    | some second =>
      simp only [Option.map_some, Nat.add_le_add_iff_left]
      split <;> rfl

/-- No keyword is found within a keyword, or reaches from within one into another. -/
theorem Keyword.apart (keyword other : Keyword) {shift : Nat} (inside : shift < other.bytes.length)
    (overlap : keyword.bytes <+: other.bytes.drop shift ∨
      other.bytes.drop shift <+: keyword.bytes) :
    shift = 0 ∧ keyword = other := by
  revert shift
  cases keyword <;> cases other <;> decide

/-- No text begins with both keywords. -/
theorem Keyword.unique {text : Bytes} {keyword other : Keyword} (begins : keyword.bytes <+: text)
    (begins' : other.bytes <+: text) : keyword = other :=
  (keyword.apart other other.bytes_length_pos (List.prefix_or_prefix_of_prefix begins begins')).2

theorem Keyword.newline_notMem (keyword : Keyword) : newline ∉ keyword.bytes := by
  cases keyword <;> decide

theorem nextKeyword?_of_starts {text : Bytes} {keyword : Keyword}
    (begins : keyword.bytes <+: text) : nextKeyword? text = some (0, keyword) := by
  have found := indexOf?_eq_zero_iff.mpr begins
  cases keyword with
  | sectionStart =>
    rw [nextKeyword?, found]
    cases indexOf? Keyword.sectionEnd.bytes text <;> rfl
  | sectionEnd =>
    rw [nextKeyword?, found]
    cases other : indexOf? Keyword.sectionStart.bytes text with
    | none => rfl
    | some first =>
      cases first with
      | zero => exact nomatch Keyword.unique begins (indexOf?_eq_zero_iff.mp other)
      | succ first => rfl

/-! ### Scanning -/

theorem markers_of_none {text : Bytes} (none : nextKeyword? text = none) : markers text = [] := by
  rw [markers]
  split
  · rfl
  · next found =>
    rw [none] at found
    cases found

theorem markers_nil : markers [] = [] :=
  markers_of_none rfl

/-- The markers of a text whose next keyword is known. -/
theorem markers_of_some {text : Bytes} {offset : Nat} {keyword : Keyword}
    (found : nextKeyword? text = some (offset, keyword)) :
    markers text =
      match markerBody? (text.drop (offset + keyword.bytes.length)) with
      | some (time, name, consumed) =>
        keyword.event name time :: markers (text.drop (offset + keyword.bytes.length + consumed))
      | none => markers (text.drop (offset + keyword.bytes.length)) := by
  rw [markers]
  split
  · next none =>
    rw [none] at found
    cases found
  · next found' =>
    rw [found'] at found
    cases found
    rfl

/-- Text in which no keyword begins does not matter to the scan. -/
theorem markers_append {filler rest : Bytes} (silent : Silent filler rest) :
    markers (filler ++ rest) = markers rest := by
  have found := nextKeyword?_append silent
  cases next : nextKeyword? rest with
  | none =>
    rw [next] at found
    rw [markers_of_none found, markers_of_none next]
  | some place =>
    obtain ⟨offset, keyword⟩ := place
    rw [next] at found
    rw [markers_of_some found, markers_of_some next]
    simp only [Nat.add_assoc, List.drop_length_add_append]

/-- At a keyword the scan reads a body, and goes on behind it. -/
theorem markers_keyword (keyword : Keyword) (rest : Bytes) :
    markers (keyword.bytes ++ rest) =
      match markerBody? rest with
      | some (time, name, consumed) => keyword.event name time :: markers (rest.drop consumed)
      | none => markers rest := by
  rw [markers_of_some (nextKeyword?_of_starts (List.prefix_append keyword.bytes rest))]
  simp only [Nat.zero_add, List.drop_left, List.drop_length_add_append]

/-! ### Text that breaks off -/

/-- Text that holds no keyword. -/
def IsFiller (filler : Bytes) : Prop :=
  ∀ keyword : Keyword, ¬ keyword.bytes <:+: filler

theorem IsFiller.tail {byte : UInt8} {more : Bytes} (isFiller : IsFiller (byte :: more)) :
    IsFiller more :=
  fun keyword inside => isFiller keyword (inside.trans (List.suffix_cons byte more).isInfix)

namespace Silent

/-- Text without a keyword hides no keyword that comes right after it. -/
theorem before_keyword {filler : Bytes} (isFiller : IsFiller filler) (keyword : Keyword)
    (rest : Bytes) : Silent filler (keyword.bytes ++ rest) := by
  induction filler with
  | nil => trivial
  | cons byte more inductionHypothesis =>
    refine ⟨fun other begins => ?_, inductionHypothesis isFiller.tail⟩
    have cut : (byte :: more) <+: byte :: (more ++ (keyword.bytes ++ rest)) :=
      List.prefix_append (byte :: more) _
    by_cases short : other.bytes.length ≤ (byte :: more).length
    · exact isFiller other (List.prefix_of_prefix_length_le begins cut short).isInfix
    · -- The other keyword begins in the filler and would have to go on with the start of this one.
      obtain ⟨tail, reaches⟩ := List.prefix_of_prefix_length_le cut begins (by omega)
      rw [← reaches, List.cons_append, List.cons_prefix_cons, List.prefix_append_right_inj]
        at begins
      have overlap := List.prefix_or_prefix_of_prefix (List.prefix_append keyword.bytes rest)
        begins.2
      have dropped : other.bytes.drop (byte :: more).length = tail := by
        rw [← reaches, List.drop_left]
      rw [← dropped] at overlap
      exact absurd (keyword.apart other (by omega) overlap).1 (Nat.succ_ne_zero _)

theorem at_end {filler : Bytes} (isFiller : IsFiller filler) : Silent filler [] := by
  induction filler with
  | nil => trivial
  | cons byte more inductionHypothesis =>
    refine ⟨fun keyword begins => ?_, inductionHypothesis isFiller.tail⟩
    rw [List.append_nil] at begins
    exact isFiller keyword begins.isInfix

theorem newline_alone (rest : Bytes) : Silent [newline] rest := by
  refine ⟨fun keyword begins => ?_, trivial⟩
  revert begins
  cases keyword <;> exact fun begins => nomatch (List.cons_prefix_cons.mp begins).1

/-- A newline is part of no keyword, so no keyword that begins before it reaches beyond it. -/
theorem before_newline {filler text : Bytes} (silent : Silent filler text) (rest : Bytes) :
    Silent filler (text ++ newline :: rest) := by
  induction filler with
  | nil => trivial
  | cons byte more inductionHypothesis =>
    refine ⟨fun keyword begins => silent.1 keyword ?_, inductionHypothesis silent.2⟩
    rw [← List.append_assoc, ← List.cons_append] at begins
    rcases List.prefix_or_prefix_of_prefix begins (List.prefix_append _ _) with short | long
    · exact short
    · obtain ⟨tail, reaches⟩ := long
      cases tail with
      | nil =>
        rw [List.append_nil] at reaches
        exact reaches ▸ List.prefix_rfl
      | cons next others =>
        rw [← reaches, List.prefix_append_right_inj, List.cons_prefix_cons] at begins
        have member : newline ∈ keyword.bytes := by
          rw [← reaches, begins.1]
          exact List.mem_append_right _ List.mem_cons_self
        exact absurd member keyword.newline_notMem

end Silent

/-- A text holds no keyword, or it is cut at its first one. -/
theorem silent_or_keyword (text : Bytes) :
    Silent text [] ∨ ∃ (filler more : Bytes) (keyword : Keyword),
      text = filler ++ (keyword.bytes ++ more) ∧ Silent filler (keyword.bytes ++ more) := by
  induction text with
  | nil => exact .inl trivial
  | cons byte rest inductionHypothesis =>
    by_cases begins : ∃ keyword : Keyword, keyword.bytes <+: byte :: rest
    · obtain ⟨keyword, more, same⟩ := begins
      exact .inr ⟨[], more, keyword, same.symm, trivial⟩
    · have elsewhere := not_exists.mp begins
      rcases inductionHypothesis with silent | ⟨filler, more, keyword, rfl, silent⟩
      · rw [← List.append_nil rest] at elsewhere
        exact .inl ⟨elsewhere, silent⟩
      · exact .inr ⟨byte :: filler, more, keyword, rfl, elsewhere, silent⟩

/-! ### Bodies -/

/-- A body is read up to the end of its name. -/
theorem markerBody?_append {digits name rest : Bytes} {time : Int}
    (isNumber : IsRun MetricLine.isDigit digits) (someDigits : digits ≠ [])
    (isName : IsRun isSectionNameByte name) (someName : name ≠ [])
    (ends : Stops isSectionNameByte rest)
    (reads : integer64? (MetricLine.asciiText digits).toList = some time) :
    markerBody? (digits ++ 0x3A :: (name ++ rest)) =
      some (time, MetricLine.asciiText name, digits.length + 1 + name.length) := by
  have colon : Stops MetricLine.isDigit (0x3A :: (name ++ rest)) := Stops.cons (by decide) _
  have present : (digits.isEmpty || (0x3A : UInt8) != 0x3A || name.isEmpty) = false := by
    rw [List.isEmpty_eq_false_iff.mpr someDigits, List.isEmpty_eq_false_iff.mpr someName]
    rfl
  rw [markerBody?, takeWhile_run_append isNumber colon, dropWhile_run_append isNumber colon]
  dsimp only
  rw [takeWhile_run_append isName ends, present, reads]
  rfl

/-- A body does not reach beyond a newline. -/
theorem markerBody?_newline (text rest : Bytes) :
    markerBody? (text ++ newline :: rest) = markerBody? text := by
  rw [markerBody?, markerBody?, takeWhile_append_cons (by decide),
    dropWhile_append_cons (by decide)]
  cases text.dropWhile MetricLine.isDigit with
  | nil =>
    dsimp only [List.nil_append]
    have other : (newline != 0x3A) = true := by decide
    rw [other, Bool.or_true, Bool.true_or, if_pos rfl]
  | cons colon afterColon =>
    dsimp only [List.cons_append]
    rw [takeWhile_append_cons (by decide)]

theorem consumed_le {text : Bytes} {time : Int} {name : String} {consumed : Nat}
    (read : markerBody? text = some (time, name, consumed)) : consumed ≤ text.length := by
  have whole := congrArg List.length
    (List.takeWhile_append_dropWhile (p := MetricLine.isDigit) (l := text))
  rw [List.length_append] at whole
  rw [markerBody?] at read
  split at read
  · cases read
  · next afterColon found =>
    rw [found, List.length_cons] at whole
    dsimp only at read
    split at read
    · cases read
    · obtain ⟨_, _, same⟩ := Option.map_eq_some_iff.mp read
      cases same
      have shorter := (List.takeWhile_sublist isSectionNameByte (l := afterColon)).length_le
      omega

/-! ### Lines -/

/-- No marker reaches beyond a newline. -/
theorem markers_newline (text rest : Bytes) :
    markers (text ++ newline :: rest) = markers text ++ markers rest := by
  rcases silent_or_keyword text with silent | ⟨filler, more, keyword, cut, silent⟩
  · have alone := markers_append (Silent.newline_alone rest)
    have whole := markers_append silent
    rw [List.append_nil, markers_nil] at whole
    rw [whole]
    exact (markers_append (silent.before_newline rest)).trans alone
  · have beyond := silent.before_newline rest
    rw [List.append_assoc] at beyond
    rw [cut, markers_append silent, List.append_assoc, List.append_assoc, markers_append beyond,
      markers_keyword, markers_keyword, markerBody?_newline]
    cases read : markerBody? more with
    | none => exact markers_newline more rest
    | some body =>
      obtain ⟨time, name, consumed⟩ := body
      dsimp only
      rw [List.drop_append_of_le_length (consumed_le read), markers_newline]
      rfl
termination_by text.length
decreasing_by
  all_goals
    have positive := keyword.bytes_length_pos
    simp only [cut, List.length_append, List.length_drop]
    omega

/-- The markers of a log can be scanned without cutting it into lines. -/
theorem events_eq (log : Bytes) : events log = markers log := by
  induction log using byLines with
  | last text clean =>
    by_cases present : text = []
    · rw [present, events, lines_nil, markers_nil]
      rfl
    · rw [events, lines_clean clean present, List.flatMap_singleton]
  | line text rest clean inductionHypothesis =>
    rw [events] at inductionHypothesis
    rw [events, lines_append clean, List.flatMap_cons, inductionHypothesis, markers_newline,
      markers_newline, markers_nil, List.append_nil]

/-! ### Markers between other text -/

/-- A character of a section name. -/
def isSectionNameChar (char : Char) : Bool :=
  char.isAlphanum || char == '_' || char == '-' || char == '.'

/-- What a marker can say: a time from the beginning of 1970 on, and a word as the name. -/
structure IsMarked (name : String) (time : Int) : Prop where
  since : 0 ≤ time
  fits : time < twoTo 63
  present : name ≠ ""
  word : ∀ char ∈ name.toList, isSectionNameChar char = true

end Log

namespace SectionEvent

/-- A marker that can be written. -/
def IsWritable : SectionEvent → Prop
  | opens name time => Log.IsMarked name time
  | closes name time => Log.IsMarked name time

/-- A marker as it is written to a log. -/
def written : SectionEvent → Bytes
  | opens name time => Utf8.encode ("section_start:" ++ toString time ++ ":" ++ name)
  | closes name time => Utf8.encode ("section_end:" ++ toString time ++ ":" ++ name)

end SectionEvent

namespace Log

/-- A log that holds markers in their order, with other text around each of them. That text may
be any bytes that hold no keyword; behind a marker it is the end of the log or begins with a byte
that is none of a name. -/
inductive Carries : List SectionEvent → Bytes → Prop
  | ended {filler : Bytes} (isFiller : IsFiller filler) : Carries [] filler
  | marker {filler rest : Bytes} {event : SectionEvent} {events : List SectionEvent}
      (isFiller : IsFiller filler) (writable : event.IsWritable)
      (apart : Stops isSectionNameByte rest) (others : Carries events rest) :
      Carries (event :: events) (filler ++ (event.written ++ rest))

/-- Text of an ASCII class is written as bytes of the class, one for each character. -/
theorem encode_class {ofChar : Char → Bool} {ofByte : UInt8 → Bool}
    (ascii : ∀ char, ofChar char = true → char.toNat < 0x80)
    (same : ∀ number < 0x80, ofChar (Char.ofNat number) = true →
      ofByte (UInt8.ofNat number) = true)
    {text : String} (inside : ∀ char ∈ text.toList, ofChar char = true) :
    IsRun ofByte (Utf8.encode text) ∧ MetricLine.asciiText (Utf8.encode text) = text := by
  have each : ∀ byte ∈ Utf8.encode text, ¬ 0x80 ≤ byte ∧ ofByte byte = true := by
    intro byte member
    obtain ⟨char, isChar, isByte⟩ := List.mem_flatMap.mp member
    have small := ascii char (inside char isChar)
    rw [Utf8.encodeChar_ascii small, List.mem_singleton] at isByte
    subst isByte
    constructor
    · rw [UInt8.le_iff_toNat_le, Utf8.toNat_ofNat_of_lt (by omega)]
      exact Nat.not_le.mpr small
    · exact same _ small (by rw [Char.ofNat_toNat]; exact inside char isChar)
  exact ⟨fun byte member => (each byte member).2,
    MetricLine.asciiText_encode fun byte member => (each byte member).1⟩

theorem ascii_of_isSectionNameChar {char : Char} (inside : isSectionNameChar char = true) :
    char.toNat < 0x80 := by
  rw [isSectionNameChar, Bool.or_eq_true, Bool.or_eq_true, Bool.or_eq_true, beq_iff_eq, beq_iff_eq,
    beq_iff_eq] at inside
  rcases inside with ((alphanumeric | rfl) | rfl) | rfl
  · delta Char.isAlphanum Char.isAlpha Char.isUpper Char.isLower Char.isDigit at alphanumeric
    simp only [Char.reduceVal, Bool.decide_and, Bool.or_eq_true, Bool.and_eq_true,
      decide_eq_true_eq, ge_iff_le, UInt32.le_iff_toNat_le, UInt32.reduceToNat, Char.toNat_val] at alphanumeric
    omega
  · decide
  · decide
  · decide

theorem encode_name {name : String} {time : Int} (marked : IsMarked name time) :
    IsRun isSectionNameByte (Utf8.encode name) ∧ Utf8.encode name ≠ [] ∧
      MetricLine.asciiText (Utf8.encode name) = name := by
  have same : ∀ number < 0x80, isSectionNameChar (Char.ofNat number) = true →
      isSectionNameByte (UInt8.ofNat number) = true := by decide
  obtain ⟨run, text⟩ := encode_class (fun _ => ascii_of_isSectionNameChar) same marked.word
  refine ⟨run, fun empty => marked.present ?_, text⟩
  rw [← text, empty]
  rfl

theorem encode_time {time : Int} (since : 0 ≤ time) :
    IsRun MetricLine.isDigit (Utf8.encode (toString time)) ∧
      MetricLine.asciiText (Utf8.encode (toString time)) = toString time := by
  have digits : (toString time).toList = Nat.toDigits 10 time.toNat := by
    rw [Int.toString_eq_repr, Int.repr_eq_if, if_pos since, Nat.toList_repr]
  have same : ∀ number < 0x80, (Char.ofNat number).isDigit = true →
      MetricLine.isDigit (UInt8.ofNat number) = true := by decide
  have ascii : ∀ char : Char, char.isDigit = true → char.toNat < 0x80 := by
    intro char isDigit
    have high := (Char.isDigit_iff_toNat.mp isDigit).2
    change char.toNat ≤ 57 at high
    omega
  exact encode_class ascii same (digits ▸ isRun_toDigits time.toNat)

/-- Behind a keyword a written body is read, and the scan goes on behind its name. -/
theorem markers_body (keyword : Keyword) {name : String} {time : Int}
    (marked : IsMarked name time) {rest : Bytes} (apart : Stops isSectionNameByte rest) :
    markers (keyword.bytes ++ (Utf8.encode (toString time ++ ":" ++ name) ++ rest)) =
      keyword.event name time :: markers rest := by
  have colon : Utf8.encode ":" = [0x3A] := rfl
  have body : Utf8.encode (toString time ++ ":" ++ name) ++ rest =
      Utf8.encode (toString time) ++ 0x3A :: (Utf8.encode name ++ rest) := by
    simp only [Utf8.encode_append, colon, List.append_assoc, List.cons_append, List.nil_append]
  obtain ⟨digits, timeText⟩ := encode_time marked.since
  obtain ⟨word, someName, nameText⟩ := encode_name marked
  have fits : fitsSigned64 time = true := by
    have since := marked.since
    have fits := marked.fits
    rw [fitsSigned64, Bool.and_eq_true, decide_eq_true_eq, decide_eq_true_eq]
    omega
  have reads : integer64? (MetricLine.asciiText (Utf8.encode (toString time))).toList =
      some time := by
    rw [timeText]
    exact integer64?_toString fits
  have someDigits : Utf8.encode (toString time) ≠ [] := by
    intro empty
    rw [empty] at reads
    cases reads
  rw [markers_keyword, body, markerBody?_append digits someDigits word someName apart reads,
    nameText]
  dsimp only
  rw [Nat.add_assoc, List.drop_length_add_append, Nat.add_comm 1, List.drop_succ_cons,
    List.drop_left]

/-- A written marker begins with its keyword and is read as itself. -/
theorem markers_written {event : SectionEvent} (writable : event.IsWritable) {rest : Bytes}
    (apart : Stops isSectionNameByte rest) :
    ∃ (keyword : Keyword) (body : Bytes), event.written = keyword.bytes ++ body ∧
      markers (keyword.bytes ++ (body ++ rest)) = event :: markers rest := by
  cases event with
  | opens name time =>
    refine ⟨.sectionStart, Utf8.encode (toString time ++ ":" ++ name), ?_,
      markers_body .sectionStart writable apart⟩
    simp only [SectionEvent.written, String.append_assoc, Utf8.encode_append, Keyword.bytes]
  | closes name time =>
    refine ⟨.sectionEnd, Utf8.encode (toString time ++ ":" ++ name), ?_,
      markers_body .sectionEnd writable apart⟩
    simp only [SectionEvent.written, String.append_assoc, Utf8.encode_append, Keyword.bytes]

/-- The markers of a log are those that were written to it, whatever stands between them. -/
theorem markers_of_carries {events : List SectionEvent} {log : Bytes}
    (carries : Carries events log) : markers log = events := by
  induction carries with
  | ended isFiller =>
    have silent := markers_append (Silent.at_end isFiller)
    rwa [List.append_nil, markers_nil] at silent
  | marker isFiller writable apart _ inductionHypothesis =>
    obtain ⟨keyword, body, written, scanned⟩ := markers_written writable apart
    rw [written, List.append_assoc, markers_append (Silent.before_keyword isFiller keyword _),
      scanned, inductionHypothesis]

/-- Section markers survive any text around them: a log comes to exactly the sections of the
markers that were written to it. -/
theorem sections_of_carries {events : List SectionEvent} {log : Bytes}
    (carries : Carries events log) (endOfLog : EndOfLog) :
    (parseWith log endOfLog).sections =
      (SectionStack.empty.applyAll events).finish endOfLog := by
  have scanned : Log.events log = events := (events_eq log).trans (markers_of_carries carries)
  rw [← scanned]
  rfl

/-- A log in which a keyword breaks off right before a marker, the name of a marker goes on like a
keyword, and the rest is an escape code, a metric line and two markers in one line. -/
def hardLog : Bytes :=
  Utf8.encode ("section_startsection_start:5:section_end:7:x\r\x1b[0K\nMETRIC_up 1\n" ++
    "section_start:9223372036854775807:a.b-c section_section_end:0:section_end\r")

/-- The markers of that log. -/
def hardEvents : List SectionEvent :=
  [.opens "section_end" 5, .opens "a.b-c" 9223372036854775807, .closes "section_end" 0]

/-- The text around those markers. -/
def hardFillers : List String :=
  ["section_start", ":7:x\r\x1b[0K\nMETRIC_up 1\n", " section_", "\r"]

theorem hardLog_carries : Carries hardEvents hardLog := by
  have fillers : ∀ filler ∈ hardFillers, IsFiller (Utf8.encode filler) := by
    intro filler member keyword
    revert filler
    cases keyword <;> decide +kernel
  have split : hardLog = Utf8.encode hardFillers[0] ++ (hardEvents[0].written ++
      (Utf8.encode hardFillers[1] ++ (hardEvents[1].written ++
        (Utf8.encode hardFillers[2] ++ (hardEvents[2].written ++
          Utf8.encode hardFillers[3]))))) := by
    simp only [hardFillers, hardEvents, SectionEvent.written, List.getElem_cons_zero,
      List.getElem_cons_succ, ← Utf8.encode_append]
    exact congrArg Utf8.encode (by decide +kernel)
  rw [split]
  refine .marker (fillers _ (by decide))
    ⟨by decide, by decide, by decide, List.all_eq_true.mp (by decide)⟩
    (Stops.cons (by decide) _) ?_
  refine .marker (fillers _ (by decide))
    ⟨by decide, by decide, by decide, List.all_eq_true.mp (by decide)⟩
    (Stops.cons (by decide) _) ?_
  refine .marker (fillers _ (by decide))
    ⟨by decide, by decide, by decide, List.all_eq_true.mp (by decide)⟩
    (Stops.cons (by decide) _) ?_
  exact .ended (fillers _ (by decide))

/-- The name that reads like a keyword and the keyword that breaks off change nothing. -/
theorem hardLog_sections :
    Carries hardEvents hardLog ∧
      (parseWith hardLog .leaveOpen).sections =
        [⟨"a.b-c", 9223372036854775807, some 0⟩, ⟨"section_end", 5, some 0⟩] :=
  ⟨hardLog_carries, (sections_of_carries hardLog_carries .leaveOpen).trans (by decide +kernel)⟩

end Log

end CiTelemetry
