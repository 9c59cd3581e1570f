/-
This file proves that the search for section markers finds what a reader finds who
goes through a line byte by byte. That reader looks for a keyword where it stands,
takes the marker that begins there or else only the keyword, and moves on by a
single byte where there is no keyword. The search looks ahead for both keywords
instead and goes on behind the nearer one; since text without a keyword holds no
marker, nothing is lost in between, and each turn leaves at least a keyword behind.
-/

import CiTelemetry.Proofs.SectionMarkers

namespace CiTelemetry

/-- Digits alone are an integer of 64 bits unless they are too large. -/
theorem integer64?_digits {digits : List Char} (run : IsRun Char.isDigit digits)
    (present : digits ≠ []) :
    integer64? digits =
      if digitsValue digits < twoTo 63 then some (digitsValue digits : Int) else none := by
  rw [integer64?, (integer?_digits run present).1, Option.filter_some]
  refine if_congr ?_ rfl rfl
  rw [fitsSigned64, Bool.and_eq_true, decide_eq_true_eq, decide_eq_true_eq]
  omega

namespace Log

/-! ### What is written in a line -/

/-- The number that digits write. -/
def digitsNumber (digits : Bytes) : Nat :=
  Nat.ofDigitChars 10 (MetricLine.asciiText digits).toList 0

/-- What makes a keyword a marker: a time in digits that fits a signed word of 64 bits, a colon, and
a name, which goes on as long as it can. The text behind the name is left. -/
inductive HasBody : Bytes → Int → String → Bytes → Prop
  | intro {digits name rest : Bytes} (someDigits : digits ≠ [])
      (isNumber : IsRun MetricLine.isDigit digits) (fits : digitsNumber digits < twoTo 63)
      (someName : name ≠ []) (isName : IsRun isSectionNameByte name)
      (ends : Stops isSectionNameByte rest) :
      HasBody (digits ++ 0x3A :: (name ++ rest)) (digitsNumber digits) (MetricLine.asciiText name)
        rest

/-- The markers that a reader finds who goes through a text byte by byte. -/
inductive Scans : Bytes → List SectionEvent → Prop
  | ended : Scans [] []
  /-- A keyword with a body is a marker, and the reader goes on behind the body. -/
  | marker {keyword : Keyword} {text rest : Bytes} {time : Int} {name : String}
      {events : List SectionEvent} (body : HasBody text time name rest)
      (others : Scans rest events) :
      Scans (keyword.bytes ++ text) (keyword.event name time :: events)
  /-- A keyword without a body is passed over. -/
  | keyword {keyword : Keyword} {text : Bytes} {events : List SectionEvent}
      (noBody : ∀ time name rest, ¬ HasBody text time name rest) (others : Scans text events) :
      Scans (keyword.bytes ++ text) events
  /-- Where no keyword begins, the reader moves on by one byte. -/
  | byte {byte : UInt8} {rest : Bytes} {events : List SectionEvent}
      (elsewhere : ∀ keyword : Keyword, ¬ keyword.bytes <+: byte :: rest)
      (others : Scans rest events) : Scans (byte :: rest) events

/-! ### Bodies -/

theorem isRun_asciiText {digits : Bytes} (isNumber : IsRun MetricLine.isDigit digits) :
    IsRun Char.isDigit (MetricLine.asciiText digits).toList := by
  intro char member
  rw [MetricLine.asciiText, String.toList_ofList] at member
  obtain ⟨byte, isByte, rfl⟩ := List.mem_map.mp member
  have digit := isNumber byte isByte
  rw [MetricLine.isDigit, Bool.and_eq_true, decide_eq_true_eq, decide_eq_true_eq,
    UInt8.le_iff_toNat_le, UInt8.le_iff_toNat_le] at digit
  have same : ∀ number < 58, 48 ≤ number → (Char.ofNat number).isDigit = true := by decide
  exact same byte.toNat (Nat.lt_succ_of_le digit.2) digit.1

/-- The time of a body is read where it fits. -/
theorem integer64?_asciiText {digits : Bytes} (isNumber : IsRun MetricLine.isDigit digits)
    (someDigits : digits ≠ []) :
    integer64? (MetricLine.asciiText digits).toList =
      if digitsNumber digits < twoTo 63 then some (digitsNumber digits : Int) else none := by
  have present : (MetricLine.asciiText digits).toList ≠ [] := by
    rw [MetricLine.asciiText, String.toList_ofList]
    exact fun none => someDigits (List.map_eq_nil_iff.mp none)
  rw [integer64?_digits (isRun_asciiText isNumber) present, digitsValue_eq]
  rfl

/-- What a body takes up, and what is left behind it. -/
theorem drop_body (digits name rest : Bytes) :
    (digits ++ 0x3A :: (name ++ rest)).drop (digits.length + 1 + name.length) = rest := by
  rw [Nat.add_assoc, List.drop_length_add_append, Nat.add_comm 1, List.drop_succ_cons,
    List.drop_left]

theorem HasBody.read {text rest : Bytes} {time : Int} {name : String}
    (body : HasBody text time name rest) :
    ∃ consumed, markerBody? text = some (time, name, consumed) ∧ text.drop consumed = rest := by
  cases body with
  | @intro digits name rest someDigits isNumber fits someName isName ends =>
    refine ⟨_, markerBody?_append isNumber someDigits isName someName ends ?_, drop_body _ _ _⟩
    rw [integer64?_asciiText isNumber someDigits, if_pos fits]

theorem hasBody_of_read {text : Bytes} {time : Int} {name : String} {consumed : Nat}
    (read : markerBody? text = some (time, name, consumed)) :
    HasBody text time name (text.drop consumed) := by
  have whole := List.takeWhile_append_dropWhile (p := MetricLine.isDigit) (l := text)
  have isNumber := isRun_takeWhile MetricLine.isDigit text
  rw [markerBody?] at read
  generalize text.takeWhile MetricLine.isDigit = digits at read whole isNumber
  split at read
  · cases read
  · next colon afterColon found =>
    rw [found, ← List.takeWhile_append_dropWhile (p := isSectionNameByte) (l := afterColon)]
      at whole
    have isName := isRun_takeWhile isSectionNameByte afterColon
    have ends := stops_dropWhile isSectionNameByte afterColon
    dsimp only at read
    generalize afterColon.takeWhile isSectionNameByte = word at read whole isName
    split at read
    · cases read
    · next accepted =>
      rw [Bool.or_eq_true, Bool.or_eq_true, not_or, not_or, List.isEmpty_iff, List.isEmpty_iff,
        bne_iff_ne, not_not] at accepted
      obtain ⟨⟨someDigits, rfl⟩, someName⟩ := accepted
      rw [integer64?_asciiText isNumber someDigits] at read
      split at read
      · next fits =>
        cases read
        rw [← whole, drop_body]
        exact .intro someDigits isNumber fits someName isName ends
      · cases read

theorem markerBody?_eq_none_iff {text : Bytes} :
    markerBody? text = none ↔ ∀ time name rest, ¬ HasBody text time name rest := by
  constructor
  · intro unread time name rest body
    obtain ⟨consumed, read, _⟩ := body.read
    rw [unread] at read
    cases read
  · intro noBody
    rw [Option.eq_none_iff_forall_not_mem]
    rintro ⟨time, name, consumed⟩ read
    exact noBody time name _ (hasBody_of_read read)

/-! ### Byte by byte -/

/-- What holds of text without a keyword, and of text with one as soon as it holds of whatever a
reader may have left behind the first one, holds of every text. -/
theorem keyword_induction {property : Bytes → Prop}
    (none : ∀ text, Silent text [] → property text)
    (found : ∀ (filler more : Bytes) (keyword : Keyword), Silent filler (keyword.bytes ++ more) →
      (∀ consumed, property (more.drop consumed)) → property (filler ++ (keyword.bytes ++ more)))
    (text : Bytes) : property text := by
  rcases silent_or_keyword text with silent | ⟨filler, more, keyword, cut, silent⟩
  · exact none text silent
  · rw [cut]
    exact found filler more keyword silent fun consumed =>
      keyword_induction none found (more.drop consumed)
termination_by text.length
decreasing_by
  have positive := keyword.bytes_length_pos
  simp only [cut, List.length_append, List.length_drop]
  omega

namespace Scans

/-- The reader passes over text in which no keyword begins. -/
theorem append {filler rest : Bytes} {events : List SectionEvent} (silent : Silent filler rest)
    (scans : Scans rest events) : Scans (filler ++ rest) events := by
  induction filler with
  | nil => exact scans
  | cons byte more inductionHypothesis =>
    exact .byte silent.1 (inductionHypothesis silent.2)

/-- The reader finds the markers that the search finds. -/
theorem markers (text : Bytes) : Scans text (markers text) := by
  induction text using keyword_induction with
  | none text silent =>
    have whole := markers_append silent
    have scans := append silent .ended
    rw [List.append_nil, markers_nil] at whole
    rw [List.append_nil] at scans
    rwa [whole]
  | found filler more keyword silent inductionHypothesis =>
    rw [markers_append silent, markers_keyword]
    refine append silent ?_
    cases read : markerBody? more with
    | none => exact .keyword (markerBody?_eq_none_iff.mp read) (inductionHypothesis 0)
    | some body =>
      obtain ⟨time, name, consumed⟩ := body
      exact .marker (hasBody_of_read read) (inductionHypothesis consumed)

/-- The reader finds nothing else. -/
theorem eq_markers {text : Bytes} {events : List SectionEvent} (scans : Scans text events) :
    Log.markers text = events := by
  induction scans with
  | ended => exact markers_nil
  | marker body _ inductionHypothesis =>
    obtain ⟨consumed, read, left⟩ := body.read
    rw [markers_keyword, read]
    dsimp only
    rw [left, inductionHypothesis]
  | keyword noBody _ inductionHypothesis =>
    rw [markers_keyword, markerBody?_eq_none_iff.mpr noBody]
    exact inductionHypothesis
  | @byte byte rest events elsewhere _ inductionHypothesis =>
    have silent : Silent [byte] rest := ⟨elsewhere, trivial⟩
    rw [← inductionHypothesis]
    exact markers_append silent

end Scans

/-! ### Turns of the search -/

/-- One turn of the search: the marker that stands at the next keyword, if it is one, and the text
behind it. -/
def searchTurn? (text : Bytes) : Option (List SectionEvent × Bytes) :=
  (nextKeyword? text).map fun (offset, keyword) =>
    let afterKeyword := text.drop (offset + keyword.bytes.length)
    match markerBody? afterKeyword with
    | some (time, name, consumed) => ([keyword.event name time], afterKeyword.drop consumed)
    | none => ([], afterKeyword)

/-- The turns of the search up to the one that finds no keyword, each with what it performs. -/
inductive SearchTurns : Bytes → List (List SectionEvent) → Prop
  | ended {text : Bytes} (none : searchTurn? text = none) : SearchTurns text []
  | turn {text rest : Bytes} {performed : List SectionEvent} {turns : List (List SectionEvent)}
      (found : searchTurn? text = some (performed, rest)) (others : SearchTurns rest turns) :
      SearchTurns text (performed :: turns)

theorem searchTurn?_silent {text : Bytes} (silent : Silent text []) : searchTurn? text = none := by
  have next := nextKeyword?_append silent
  rw [List.append_nil, show nextKeyword? [] = none from rfl] at next
  rw [searchTurn?, next]
  rfl

theorem searchTurn?_keyword {filler more : Bytes} {keyword : Keyword}
    (silent : Silent filler (keyword.bytes ++ more)) :
    searchTurn? (filler ++ (keyword.bytes ++ more)) =
      match markerBody? more with
      | some (time, name, consumed) => some ([keyword.event name time], more.drop consumed)
      | none => some ([], more) := by
  have next := nextKeyword?_append silent
  rw [nextKeyword?_of_starts (List.prefix_append keyword.bytes more)] at next
  rw [searchTurn?, next]
  simp only [Option.map_some, Nat.add_zero, List.drop_length_add_append, List.drop_left]
  cases markerBody? more <;> rfl

/-- The length of the shorter keyword. -/
theorem Keyword.twelve_le_length (keyword : Keyword) : 12 ≤ keyword.bytes.length := by
  cases keyword <;> decide

/-- The search ends after at most one turn for every twelve bytes, and performs the markers of the
text in its turns. -/
theorem searchTurns_markers (text : Bytes) :
    ∃ turns, SearchTurns text turns ∧ turns.flatten = markers text ∧
      12 * turns.length ≤ text.length := by
  induction text using keyword_induction with
  | none text silent =>
    refine ⟨[], .ended (searchTurn?_silent silent), ?_, Nat.zero_le _⟩
    have whole := markers_append silent
    rw [List.append_nil, markers_nil] at whole
    exact whole.symm
  | found filler more keyword silent inductionHypothesis =>
    have turn := searchTurn?_keyword silent
    have long := keyword.twelve_le_length
    rw [markers_append silent, markers_keyword]
    cases read : markerBody? more with
    | none =>
      obtain ⟨turns, others, performed, few⟩ := inductionHypothesis 0
      rw [read] at turn
      refine ⟨[] :: turns, .turn turn others, performed, ?_⟩
      simp only [List.drop_zero, List.length_append, List.length_cons] at few ⊢
      omega
    | some body =>
      obtain ⟨time, name, consumed⟩ := body
      obtain ⟨turns, others, performed, few⟩ := inductionHypothesis consumed
      rw [read] at turn
      refine ⟨[keyword.event name time] :: turns, .turn turn others, ?_, ?_⟩
      · rw [List.flatten_cons, performed]
        rfl
      · simp only [List.length_append, List.length_cons, List.length_drop] at few ⊢
        omega

/-- The search and the reader who goes byte by byte agree on every line, and both come to an end. -/
theorem markers_scan (text : Bytes) :
    (∀ events, Scans text events ↔ markers text = events) ∧
      ∃ turns, SearchTurns text turns ∧ turns.flatten = markers text ∧
        12 * turns.length ≤ text.length :=
  ⟨fun _ => ⟨Scans.eq_markers, fun same => same ▸ Scans.markers text⟩, searchTurns_markers text⟩

/-- A keyword that breaks off, one without a body, one whose time is too large, one in a name and
one behind it. -/
example : markers (Utf8.encode ("section_section_start:x:y section_end:9223372036854775808:z" ++
    "section_start:5:section_end:7:x")) = [.opens "section_end" 5] := by
  decide +kernel

end Log

end CiTelemetry
