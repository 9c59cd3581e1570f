/-
This file gives the grammar of metric lines, as relations between the bytes of
each part and what the part means, and proves that the reader accepts exactly
the lines of the grammar and reads from each what the grammar says. Every reader
has one lemma that says what it reads with which rest, and the statement about
whole lines is put together from these.
-/

import CiTelemetry.Log.MetricLine
import CiTelemetry.Proofs.Runs
import CiTelemetry.Proofs.Utf8
import Mathlib.Data.List.Nodup

namespace CiTelemetry

namespace MetricLine

/-! ### The grammar -/

/-- A word: one byte of a first class and then any number of bytes of a second. -/
inductive IsWord (begins continues : UInt8 → Bool) : Bytes → Prop
  | intro {first : UInt8} {more : Bytes} (start : begins first = true)
      (rest : IsRun continues more) : IsWord begins continues (first :: more)

/-- The bytes between the quotes of a label value, with the bytes that they stand for. -/
inductive Escapes : Bytes → Bytes → Prop
  | nil : Escapes [] []
  | plain {byte : UInt8} {written meant : Bytes} (notNewline : byte ≠ newline)
      (notQuote : byte ≠ quote) (notBackslash : byte ≠ backslash) (rest : Escapes written meant) :
      Escapes (byte :: written) (byte :: meant)
  | quote {written meant : Bytes} (rest : Escapes written meant) :
      Escapes (backslash :: MetricLine.quote :: written) (MetricLine.quote :: meant)
  | backslash {written meant : Bytes} (rest : Escapes written meant) :
      Escapes (backslash :: MetricLine.backslash :: written) (MetricLine.backslash :: meant)
  | newline {written meant : Bytes} (rest : Escapes written meant) :
      Escapes (backslash :: 0x6E :: written) (MetricLine.newline :: meant)

/-- A label from the first byte of its name to its closing quote. -/
inductive IsLabel : Bytes → String × String → Prop
  | intro {name beforeEquals afterEquals written meant : Bytes} {value : String}
      (word : IsWord isLabelStart isLabelByte name) (left : IsRun isBlank beforeEquals)
      (right : IsRun isBlank afterEquals) (escapes : Escapes written meant)
      (text : Utf8.decode? meant = some value) :
      IsLabel
        (name ++ (beforeEquals ++ equalsSign :: (afterEquals ++ quote :: (written ++ [quote]))))
        (asciiText name, value)

/-- Labels that commas separate, with blanks around each of them. A comma may follow the last
one, and then blanks may follow the comma. -/
inductive AreLabels : Bytes → List (String × String) → Prop
  | one {before written after : Bytes} {pair : String × String} (left : IsRun isBlank before)
      (label : IsLabel written pair) (right : IsRun isBlank after) :
      AreLabels (before ++ (written ++ after)) [pair]
  | trailing {before written after last : Bytes} {pair : String × String}
      (left : IsRun isBlank before) (label : IsLabel written pair) (right : IsRun isBlank after)
      (blanks : IsRun isBlank last) :
      AreLabels (before ++ (written ++ (after ++ comma :: last))) [pair]
  | more {before written after rest : Bytes} {pair : String × String}
      {pairs : List (String × String)} (left : IsRun isBlank before)
      (label : IsLabel written pair) (right : IsRun isBlank after) (others : AreLabels rest pairs) :
      AreLabels (before ++ (written ++ (after ++ comma :: rest))) (pair :: pairs)

/-- What stands between the braces of a label block. -/
inductive IsBlockBody : Bytes → List (String × String) → Prop
  | blank {bytes : Bytes} (blanks : IsRun isBlank bytes) : IsBlockBody bytes []
  | labels {bytes : Bytes} {pairs : List (String × String)} (items : AreLabels bytes pairs) :
      IsBlockBody bytes pairs

/-- What stands between the name and the blanks before the value: blanks alone, or a label block
after any blanks. No label name may occur twice. -/
inductive IsLabelPart : Bytes → List (String × String) → Prop
  | absent {blanks : Bytes} (present : blanks ≠ []) (run : IsRun isBlank blanks) :
      IsLabelPart blanks []
  | block {before body : Bytes} {pairs : List (String × String)} (blanks : IsRun isBlank before)
      (inside : IsBlockBody body pairs) (distinct : (pairs.map (·.1)).Nodup) :
      IsLabelPart (before ++ openBrace :: (body ++ [closeBrace])) pairs

/-- The text of a token, which is not empty. -/
def IsToken (token : Bytes) (text : String) : Prop :=
  token ≠ [] ∧ IsRun isTokenByte token ∧ Utf8.decode? token = some text

/-- The token of a value. -/
def IsValue (token : Bytes) (value : Binary64) : Prop :=
  (∀ byte ∈ token, isForbiddenInValue byte = false) ∧
    ∃ text, IsToken token text ∧ Binary64.read? text.toList = some value

/-- The timestamp with the blanks before it, if there is one. -/
inductive IsTimestampPart : Bytes → Option Int → Prop
  | absent : IsTimestampPart [] none
  | present {gap token : Bytes} {text : String} {time : Int} (apart : gap ≠ [])
      (blanks : IsRun isBlank gap) (isToken : IsToken token text)
      (reads : integer64? text.toList = some time) : IsTimestampPart (gap ++ token) (some time)

/-- The end of a line: its newline, or nothing at the end of the log. -/
def IsLineEnd (bytes : Bytes) : Prop :=
  bytes = [] ∨ bytes = [newline]

/-- A metric line after its mark, with the sample that it denotes. -/
inductive IsLine : Bytes → Metric → Prop
  | intro {name labelPart gap token timestampPart last lineEnd : Bytes}
      {labels : List (String × String)} {value : Binary64} {timestamp : Option Int}
      (word : IsWord isNameStart isNameByte name) (labelled : IsLabelPart labelPart labels)
      (blanks : IsRun isBlank gap) (number : IsValue token value)
      (timed : IsTimestampPart timestampPart timestamp) (trailing : IsRun isBlank last)
      (ended : IsLineEnd lineEnd) :
      IsLine (name ++ (labelPart ++ (gap ++ (token ++ (timestampPart ++ (last ++ lineEnd))))))
        ⟨asciiText name, labels, value, timestamp⟩

/-! ### Byte classes keep apart -/

theorem isBlank_newline : isBlank newline = false := by decide

theorem isLabelByte_of_isLabelStart {byte : UInt8} (start : isLabelStart byte = true) :
    isLabelByte byte = true := by
  rw [isLabelByte, start, Bool.true_or]

theorem isNameByte_of_isNameStart {byte : UInt8} (start : isNameStart byte = true) :
    isNameByte byte = true := by
  rw [isNameByte, start, Bool.true_or]

/-- Whatever separates the parts of a line is none of the bytes of a name. -/
theorem isNameByte_of_isBlank {byte : UInt8} (blank : isBlank byte = true) :
    isNameByte byte = false := by
  simp only [isBlank, Bool.or_eq_true, beq_iff_eq] at blank
  rcases blank with (rfl | rfl) | rfl <;> decide

theorem isLabelByte_of_isBlank {byte : UInt8} (blank : isBlank byte = true) :
    isLabelByte byte = false := by
  simp only [isBlank, Bool.or_eq_true, beq_iff_eq] at blank
  rcases blank with (rfl | rfl) | rfl <;> decide

theorem isTokenByte_of_isBlank {byte : UInt8} (blank : isBlank byte = true) :
    isTokenByte byte = false := by
  rw [isTokenByte, blank, Bool.not_true, Bool.false_and]

theorem isBlank_of_isTokenByte {byte : UInt8} (inside : isTokenByte byte = true) :
    isBlank byte = false := by
  simp only [isTokenByte, Bool.and_eq_true, Bool.not_eq_true'] at inside
  exact inside.1

theorem isBlank_of_isLabelStart {byte : UInt8} (start : isLabelStart byte = true) :
    isBlank byte = false := by
  rw [← Bool.not_eq_true]
  intro blank
  have outside := isLabelByte_of_isBlank blank
  rw [isLabelByte_of_isLabelStart start] at outside
  cases outside

/-! ### Blanks -/

theorem skipBlanks_append {blanks rest : Bytes} (run : IsRun isBlank blanks)
    (stops : Stops isBlank rest) : skipBlanks (blanks ++ rest) = rest :=
  dropWhile_run_append run stops

theorem skipBlanks_eq {input rest : Bytes} (skipped : skipBlanks input = rest) :
    ∃ blanks, IsRun isBlank blanks ∧ input = blanks ++ rest ∧ Stops isBlank rest := by
  subst skipped
  exact ⟨input.takeWhile isBlank, isRun_takeWhile isBlank input,
    List.takeWhile_append_dropWhile.symm, stops_dropWhile isBlank input⟩

/-! ### Words -/

namespace IsWord

variable {begins continues : UInt8 → Bool} {word : Bytes}

theorem isRun (valid : IsWord begins continues word)
    (weaker : ∀ byte, begins byte = true → continues byte = true) : IsRun continues word := by
  cases valid with
  | intro start rest => exact IsRun.cons (weaker _ start) rest

/-- A longest run that begins with a byte of the first class is a word. -/
theorem cons_iff {first : UInt8} {more : Bytes} :
    IsWord begins continues (first :: more) ↔ (begins first && more.all continues) = true := by
  rw [Bool.and_eq_true, List.all_eq_true]
  constructor
  · rintro ⟨start, rest⟩
    exact ⟨start, rest⟩
  · rintro ⟨start, rest⟩
    exact IsWord.intro start rest

theorem of_takeWhile {first : UInt8} {more : Bytes} (start : begins first = true)
    (weaker : ∀ byte, begins byte = true → continues byte = true) :
    IsWord begins continues ((first :: more).takeWhile continues) := by
  rw [List.takeWhile_cons_of_pos (weaker first start)]
  exact IsWord.intro start (isRun_takeWhile continues more)

instance decidableIsWord (begins continues : UInt8 → Bool) :
    (bytes : Bytes) → Decidable (IsWord begins continues bytes)
  | [] => isFalse fun impossible => nomatch impossible
  | first :: more =>
    match both : begins first && more.all continues with
    | true => isTrue (cons_iff.mpr both)
    | false => isFalse fun word => Bool.false_ne_true (both.symm.trans (cons_iff.mp word))

end IsWord

theorem metricName_append {word rest : Bytes} (valid : IsWord isNameStart isNameByte word)
    (stops : Stops isNameByte rest) : metricName (word ++ rest) = .ok (asciiText word, rest) := by
  have run := valid.isRun fun _ => isNameByte_of_isNameStart
  have taken := takeWhile_run_append run stops
  have left := dropWhile_run_append run stops
  cases valid with
  | intro start more =>
    simp only [List.cons_append] at taken left ⊢
    rw [metricName, if_pos start, taken, left]

theorem metricName_ok {input rest : Bytes} {name : String}
    (read : metricName input = .ok (name, rest)) :
    ∃ word, IsWord isNameStart isNameByte word ∧ input = word ++ rest ∧ name = asciiText word := by
  unfold metricName at read
  split at read
  · cases read
  · next first more =>
    split at read
    · next start =>
      cases read
      exact ⟨_, IsWord.of_takeWhile start fun _ => isNameByte_of_isNameStart,
        List.takeWhile_append_dropWhile.symm, rfl⟩
    · cases read

/-! ### The opening of a label block -/

theorem blockOpening_block {blanks : Bytes} (run : IsRun isBlank blanks) (rest : Bytes) :
    blockOpening (blanks ++ openBrace :: rest) = .ok (true, rest) := by
  have skipped := skipBlanks_append run (Stops.cons (by decide : isBlank openBrace = false) rest)
  cases blanks with
  | nil => rw [List.nil_append, blockOpening, if_pos rfl]
  | cons next more =>
    have blank : isBlank next = true := run next List.mem_cons_self
    have other : next ≠ openBrace := by
      rintro rfl
      cases blank
    simp only [List.cons_append] at skipped ⊢
    rw [blockOpening, if_neg other, if_pos blank, skipped]
    simp only [if_true]

theorem blockOpening_blanks {blanks rest : Bytes} (present : blanks ≠ [])
    (run : IsRun isBlank blanks) (stops : Stops isBlank rest)
    (noBlock : ∀ byte ∈ rest.head?, byte ≠ openBrace) :
    blockOpening (blanks ++ rest) = .ok (false, rest) := by
  have skipped := skipBlanks_append run stops
  cases blanks with
  | nil => exact absurd rfl present
  | cons next more =>
    have blank : isBlank next = true := run next List.mem_cons_self
    have other : next ≠ openBrace := by
      rintro rfl
      cases blank
    simp only [List.cons_append] at skipped ⊢
    rw [blockOpening, if_neg other, if_pos blank, skipped]
    cases rest with
    | nil => rfl
    | cons found after => simp only [if_neg (noBlock found rfl)]

/-- What an opening tells: a block opens after blanks, or blanks alone have been skipped. -/
theorem blockOpening_ok {input rest : Bytes} {opens : Bool}
    (read : blockOpening input = .ok (opens, rest)) :
    ∃ blanks, IsRun isBlank blanks ∧
      (opens = true ∧ input = blanks ++ openBrace :: rest ∨
        opens = false ∧ blanks ≠ [] ∧ input = blanks ++ rest) := by
  unfold blockOpening at read
  split at read
  · cases read
  · next next more =>
    split at read
    · next same =>
      cases read
      exact ⟨[], IsRun.nil, .inl ⟨rfl, by rw [same, List.nil_append]⟩⟩
    · split at read
      · next blank =>
        have present : ∀ {blanks after : Bytes}, Stops isBlank after →
            next :: more = blanks ++ after → blanks ≠ [] := by
          rintro _ after stops equal rfl
          rw [List.nil_append] at equal
          subst equal
          rw [stops next rfl] at blank
          cases blank
        split at read
        · next skipped =>
          cases read
          obtain ⟨blanks, run, equal, stops⟩ := skipBlanks_eq skipped
          exact ⟨blanks, run, .inr ⟨rfl, present stops equal, equal⟩⟩
        · next found after skipped =>
          obtain ⟨blanks, run, equal, stops⟩ := skipBlanks_eq skipped
          split at read
          · next same =>
            cases read
            exact ⟨blanks, run, .inl ⟨rfl, by rw [equal, same]⟩⟩
          · cases read
            exact ⟨blanks, run, .inr ⟨rfl, present stops equal, equal⟩⟩
      · split at read <;> cases read

/-! ### Label values -/

theorem quoted_append {written meant : Bytes} (escapes : Escapes written meant) (rest : Bytes) :
    quoted (written ++ quote :: rest) = .ok (meant, rest) := by
  induction escapes with
  | nil =>
    rw [List.nil_append, quoted.eq_def]
    exact (if_neg (by decide)).trans (if_pos rfl)
  | plain notNewline notQuote notBackslash _ inductionHypothesis =>
    rw [List.cons_append, quoted.eq_def]
    simp only [if_neg notNewline, if_neg notQuote, if_neg notBackslash]
    rw [inductionHypothesis]
    rfl
  | quote _ inductionHypothesis =>
    rw [List.cons_append, List.cons_append, quoted]
    rw [if_neg (by decide), if_neg (by decide), if_pos rfl, if_pos (by decide),
      inductionHypothesis]
    rfl
  | backslash _ inductionHypothesis =>
    rw [List.cons_append, List.cons_append, quoted]
    rw [if_neg (by decide), if_neg (by decide), if_pos rfl, if_pos (by decide),
      inductionHypothesis]
    rfl
  | newline _ inductionHypothesis =>
    rw [List.cons_append, List.cons_append, quoted]
    rw [if_neg (by decide), if_neg (by decide), if_pos rfl, if_neg (by decide), if_pos rfl,
      inductionHypothesis]
    rfl

/-- A byte put before a reading of the bytes after it. -/
theorem map_cons_ok {read : Reading Bytes} {byte : UInt8} {meant rest : Bytes}
    (mapped : read.map (fun pair => (byte :: pair.1, pair.2)) = .ok (meant, rest)) :
    ∃ inner, read = .ok (inner, rest) ∧ meant = byte :: inner := by
  match read, mapped with
  | .ok (inner, _), mapped =>
    cases mapped
    exact ⟨inner, rfl, rfl⟩

theorem quoted_ok {input meant rest : Bytes} (read : quoted input = .ok (meant, rest)) :
    ∃ written, Escapes written meant ∧ input = written ++ quote :: rest := by
  fun_induction quoted input generalizing meant rest with
  | case1 => cases read
  | case2 => cases read
  | case3 more =>
    cases read
    exact ⟨[], Escapes.nil, rfl⟩
  | case4 => cases read
  | case5 escaped after known _ _ inductionHypothesis =>
    obtain ⟨inner, innerRead, rfl⟩ := map_cons_ok read
    obtain ⟨written, escapes, rfl⟩ := inductionHypothesis innerRead
    simp only [Bool.or_eq_true, decide_eq_true_eq] at known
    rcases known with rfl | rfl
    · exact ⟨_, Escapes.quote escapes, rfl⟩
    · exact ⟨_, Escapes.backslash escapes, rfl⟩
  | case6 after _ _ _ inductionHypothesis =>
    obtain ⟨inner, innerRead, rfl⟩ := map_cons_ok read
    obtain ⟨written, escapes, rfl⟩ := inductionHypothesis innerRead
    exact ⟨_, Escapes.newline escapes, rfl⟩
  | case7 => cases read
  | case8 byte more notNewline notQuote notBackslash inductionHypothesis =>
    obtain ⟨inner, innerRead, rfl⟩ := map_cons_ok read
    obtain ⟨written, escapes, rfl⟩ := inductionHypothesis innerRead
    exact ⟨_, Escapes.plain notNewline notQuote notBackslash escapes, rfl⟩

/-! ### One label -/

theorem expect_append {byte : UInt8} (mark : LabelMark) {blanks : Bytes}
    (run : IsRun isBlank blanks) (solid : isBlank byte = false) (rest : Bytes) :
    expect byte mark (blanks ++ byte :: rest) = .ok rest := by
  rw [expect, skipBlanks_append run (Stops.cons solid rest)]
  exact if_pos rfl

theorem expect_ok {byte : UInt8} {mark : LabelMark} {input rest : Bytes}
    (read : expect byte mark input = .ok rest) :
    ∃ blanks, IsRun isBlank blanks ∧ input = blanks ++ byte :: rest := by
  unfold expect at read
  split at read
  · cases read
  · next found after skipped =>
    obtain ⟨blanks, run, equal, _⟩ := skipBlanks_eq skipped
    split at read
    · next same =>
      cases read
      exact ⟨blanks, run, by rw [equal, same]⟩
    · cases read

theorem label_append {written : Bytes} {pair : String × String} (isLabel : IsLabel written pair)
    (rest : Bytes) : label (written ++ rest) = .ok (pair, rest) := by
  cases isLabel with
  | @intro name beforeEquals afterEquals written meant value word left right escapes text =>
    have run := word.isRun fun _ => isLabelByte_of_isLabelStart
    have stops : Stops isLabelByte (beforeEquals ++ equalsSign ::
        (afterEquals ++ quote :: (written ++ quote :: rest))) :=
      Stops.append (left.stops fun _ => isLabelByte_of_isBlank) fun _ =>
        Stops.cons (by decide) _
    have taken := takeWhile_run_append run stops
    have dropped := dropWhile_run_append run stops
    have equals := expect_append .equalsSign left (by decide : isBlank equalsSign = false)
      (afterEquals ++ quote :: (written ++ quote :: rest))
    have opened := expect_append .openingQuote right (by decide : isBlank quote = false)
      (written ++ quote :: rest)
    simp only [List.append_assoc, List.cons_append, List.nil_append]
    cases word with
    | @intro first more start _ =>
      have notNewline : first ≠ newline := by
        rintro rfl
        cases start
      simp only [List.cons_append] at taken dropped ⊢
      rw [label, if_neg notNewline, start, dropped, equals]
      simp only [opened, quoted_append escapes, text, taken]
      rfl

/-- The steps that a reading of a label takes. -/
theorem label_steps {input rest : Bytes} {name value : String}
    (read : label input = .ok ((name, value), rest)) :
    ∃ first more afterEquals afterQuote meant, input = first :: more ∧
      isLabelStart first = true ∧
      name = asciiText ((first :: more).takeWhile isLabelByte) ∧
      expect equalsSign .equalsSign ((first :: more).dropWhile isLabelByte) = .ok afterEquals ∧
      expect quote .openingQuote afterEquals = .ok afterQuote ∧
      quoted afterQuote = .ok (meant, rest) ∧ Utf8.decode? meant = some value := by
  unfold label at read
  split at read
  · cases read
  · next first more =>
    split at read
    · cases read
    · split at read
      · cases read
      · next notStart =>
        split at read
        · cases read
        · next afterEquals equalsRead =>
          split at read
          · cases read
          · next afterQuote quoteRead =>
            split at read
            · cases read
            · next meant after valueRead =>
              split at read
              · next text =>
                cases read
                exact ⟨first, more, afterEquals, afterQuote, meant, rfl, by simpa using notStart,
                  rfl, equalsRead, quoteRead, valueRead, text⟩
              · cases read

theorem label_ok {input rest : Bytes} {pair : String × String}
    (read : label input = .ok (pair, rest)) :
    ∃ written, IsLabel written pair ∧ input = written ++ rest := by
  obtain ⟨name, value⟩ := pair
  obtain ⟨first, more, afterEquals, afterQuote, meant, rfl, start, rfl, equalsRead, quoteRead,
    valueRead, text⟩ := label_steps read
  obtain ⟨left, leftRun, leftEqual⟩ := expect_ok equalsRead
  obtain ⟨right, rightRun, rfl⟩ := expect_ok quoteRead
  obtain ⟨written, escapes, rfl⟩ := quoted_ok valueRead
  refine ⟨_, IsLabel.intro (IsWord.of_takeWhile start fun _ => isLabelByte_of_isLabelStart)
    leftRun rightRun escapes text, ?_⟩
  have whole : first :: more = (first :: more).takeWhile isLabelByte ++
      (first :: more).dropWhile isLabelByte := List.takeWhile_append_dropWhile.symm
  rw [leftEqual] at whole
  simpa only [List.append_assoc, List.cons_append, List.nil_append] using whole

/-! ### The label block -/

/-- A label followed by blanks: the step of a block that is common to all of its ways on. -/
theorem label_then_blanks {written after rest : Bytes} {pair : String × String}
    (isLabel : IsLabel written pair) (right : IsRun isBlank after) (stops : Stops isBlank rest) :
    ∃ afterLabel, label (written ++ (after ++ rest)) = .ok (pair, afterLabel) ∧
      skipBlanks afterLabel = rest :=
  ⟨after ++ rest, label_append isLabel (after ++ rest), skipBlanks_append right stops⟩

theorem IsLabel.head {written : Bytes} {pair : String × String} (isLabel : IsLabel written pair) :
    ∃ first more, written = first :: more ∧ isLabelStart first = true := by
  cases isLabel with
  | intro word _ _ _ _ =>
    cases word with
    | intro start _ => exact ⟨_, _, List.cons_append, start⟩

/-- How a block goes on after a label that is new to it. -/
theorem labelBlock_label {labels : List (String × String)} {before written after rest : Bytes}
    {pair : String × String} {mark : UInt8} (left : IsRun isBlank before)
    (isLabel : IsLabel written pair) (right : IsRun isBlank after)
    (solid : isBlank mark = false) (fresh : pair.1 ∉ labels.map (·.1)) :
    labelBlock labels (before ++ (written ++ (after ++ mark :: rest))) =
      if mark = comma then labelBlock (labels ++ [pair]) rest
      else if mark = closeBrace then .ok (labels ++ [pair], rest)
      else if mark = newline then .error .unterminatedLabels
      else .error (.expected .commaOrBrace) := by
  obtain ⟨afterLabel, read, skipped⟩ := label_then_blanks isLabel right (Stops.cons solid rest)
  obtain ⟨first, more, rfl, start⟩ := isLabel.head
  have toLabel := skipBlanks_append left
    (Stops.cons (isBlank_of_isLabelStart start) (more ++ (after ++ mark :: rest)))
  have notBrace : first ≠ closeBrace := by
    rintro rfl
    cases start
  have unknown : labels.any (·.1 = pair.1) = false := by
    rw [List.any_eq_false]
    intro known member same
    exact fresh (List.mem_map.mpr ⟨known, member, of_decide_eq_true same⟩)
  rw [labelBlock]
  simp only [List.cons_append] at toLabel read ⊢
  split
  · next found => rw [toLabel] at found; cases found
  · next next others found =>
    rw [toLabel] at found
    cases found
    rw [if_neg notBrace]
    split
    · next failed => rw [read] at failed; cases failed
    · next given =>
      rw [read] at given
      cases given
      rw [unknown]
      simp only [Bool.false_eq_true, if_false]
      split
      · next found => rw [skipped] at found; cases found
      · next found =>
        rw [skipped] at found
        cases found
        rfl

theorem labelBlock_close {labels : List (String × String)} {blanks : Bytes}
    (run : IsRun isBlank blanks) (rest : Bytes) :
    labelBlock labels (blanks ++ closeBrace :: rest) = .ok (labels, rest) := by
  have skipped := skipBlanks_append run (Stops.cons (by decide : isBlank closeBrace = false) rest)
  rw [labelBlock]
  split
  · next found => rw [skipped] at found; cases found
  · next found =>
    rw [skipped] at found
    cases found
    exact if_pos rfl

theorem labelBlock_comma {labels : List (String × String)} {before written after : Bytes}
    {pair : String × String} (left : IsRun isBlank before) (isLabel : IsLabel written pair)
    (right : IsRun isBlank after) (fresh : pair.1 ∉ labels.map (·.1)) (rest : Bytes) :
    labelBlock labels (before ++ (written ++ (after ++ comma :: rest))) =
      labelBlock (labels ++ [pair]) rest :=
  (labelBlock_label left isLabel right (by decide) fresh).trans (if_pos rfl)

theorem labelBlock_last {labels : List (String × String)} {before written after : Bytes}
    {pair : String × String} (left : IsRun isBlank before) (isLabel : IsLabel written pair)
    (right : IsRun isBlank after) (fresh : pair.1 ∉ labels.map (·.1)) (rest : Bytes) :
    labelBlock labels (before ++ (written ++ (after ++ closeBrace :: rest))) =
      .ok (labels ++ [pair], rest) :=
  (labelBlock_label left isLabel right (by decide) fresh).trans
    ((if_neg (by decide)).trans (if_pos rfl))

/-- Names that stay distinct when labels are added keep the first of these apart from all that
were there before. -/
theorem fresh_of_nodup {labels more : List (String × String)} {pair : String × String}
    (distinct : ((labels ++ pair :: more).map (·.1)).Nodup) : pair.1 ∉ labels.map (·.1) := by
  rw [List.map_append, List.map_cons] at distinct
  intro member
  exact (List.nodup_append.mp distinct).2.2 _ member _ List.mem_cons_self rfl

theorem nodup_snoc {labels : List (String × String)} {pair : String × String}
    (distinct : (labels.map (·.1)).Nodup) (fresh : labels.any (·.1 = pair.1) = false) :
    ((labels ++ [pair]).map (·.1)).Nodup := by
  rw [List.map_append, List.map_singleton]
  refine List.nodup_append.mpr ⟨distinct, List.nodup_singleton _, ?_⟩
  rintro _ member _ last rfl
  obtain ⟨known, inside, same⟩ := List.mem_map.mp member
  exact List.any_eq_false.mp fresh known inside
    (decide_eq_true (same.trans (List.mem_singleton.mp last)))

theorem labelBlock_labels {body : Bytes} {pairs : List (String × String)}
    (items : AreLabels body pairs) (labels : List (String × String))
    (distinct : ((labels ++ pairs).map (·.1)).Nodup) (rest : Bytes) :
    labelBlock labels (body ++ closeBrace :: rest) = .ok (labels ++ pairs, rest) := by
  induction items generalizing labels with
  | one left isLabel right =>
    simp only [List.append_assoc]
    exact labelBlock_last left isLabel right (fresh_of_nodup distinct) rest
  | trailing left isLabel right blanks =>
    simp only [List.append_assoc, List.cons_append]
    rw [labelBlock_comma left isLabel right (fresh_of_nodup distinct), labelBlock_close blanks]
  | more left isLabel right _ inductionHypothesis =>
    have next := labelBlock_comma left isLabel right (fresh_of_nodup distinct)
    rw [List.append_cons] at distinct
    simp only [List.append_assoc, List.cons_append] at next ⊢
    rw [next, inductionHypothesis _ distinct, List.append_assoc, List.singleton_append]

theorem labelBlock_append {body : Bytes} {pairs : List (String × String)}
    (inside : IsBlockBody body pairs) (distinct : (pairs.map (·.1)).Nodup) (rest : Bytes) :
    labelBlock [] (body ++ closeBrace :: rest) = .ok (pairs, rest) := by
  cases inside with
  | blank blanks => exact labelBlock_close blanks rest
  | labels items => exact labelBlock_labels items [] distinct rest

/-- The bytes that a step of a block has taken when it comes to the mark after a label. -/
theorem label_between {input found afterLabel rest : Bytes} {pair : String × String} {mark : UInt8}
    (skipped : skipBlanks input = found) (read : label found = .ok (pair, afterLabel))
    (skippedAfter : skipBlanks afterLabel = mark :: rest) :
    ∃ before written after, IsRun isBlank before ∧ IsLabel written pair ∧ IsRun isBlank after ∧
      input = before ++ (written ++ (after ++ mark :: rest)) := by
  obtain ⟨before, left, rfl, _⟩ := skipBlanks_eq skipped
  obtain ⟨written, isLabel, rfl⟩ := label_ok read
  obtain ⟨after, right, rfl, _⟩ := skipBlanks_eq skippedAfter
  exact ⟨before, written, after, left, isLabel, right, rfl⟩

/-- A block that was read after other labels is a block of the grammar, and its labels are new. -/
theorem labelBlock_ok {labels result : List (String × String)} {input rest : Bytes}
    (read : labelBlock labels input = .ok (result, rest))
    (distinct : (labels.map (·.1)).Nodup) :
    ∃ body added, IsBlockBody body added ∧ input = body ++ closeBrace :: rest ∧
      result = labels ++ added ∧ (result.map (·.1)).Nodup := by
  fun_induction labelBlock labels input generalizing result rest with
  | case1 => cases read
  | case2 labels input after skipped =>
    cases read
    obtain ⟨blanks, run, equal, _⟩ := skipBlanks_eq skipped
    exact ⟨blanks, [], IsBlockBody.blank run, equal, (List.append_nil labels).symm, distinct⟩
  | case3 => cases read
  | case4 => cases read
  | case5 => cases read
  | case6 labels input next others skipped _ name value afterLabel labelRead fresh after
      skippedAfter inductionHypothesis =>
    obtain ⟨before, written, gap, left, isLabel, right, rfl⟩ :=
      label_between skipped labelRead skippedAfter
    obtain ⟨body, added, inside, rfl, rfl, names⟩ :=
      inductionHypothesis read (nodup_snoc distinct (Bool.not_eq_true _ ▸ fresh))
    rw [List.append_assoc, List.singleton_append] at names ⊢
    cases inside with
    | blank blanks =>
      refine ⟨_, _, IsBlockBody.labels (AreLabels.trailing left isLabel right blanks), ?_, rfl,
        names⟩
      simp only [List.append_assoc, List.cons_append]
    | labels items =>
      refine ⟨_, _, IsBlockBody.labels (AreLabels.more left isLabel right items), ?_, rfl, names⟩
      simp only [List.append_assoc, List.cons_append]
  | case7 labels input next others skipped _ name value afterLabel labelRead fresh after
      skippedAfter =>
    cases read
    obtain ⟨before, written, gap, left, isLabel, right, rfl⟩ :=
      label_between skipped labelRead skippedAfter
    refine ⟨_, _, IsBlockBody.labels (AreLabels.one left isLabel right), ?_, rfl,
      nodup_snoc distinct (Bool.not_eq_true _ ▸ fresh)⟩
    simp only [List.append_assoc]
  | case8 => cases read
  | case9 => cases read

/-! ### Value and timestamp -/

theorem number?_eq_some_iff (token : Bytes) (value : Binary64) :
    number? token = some value ↔ (∀ byte ∈ token, isForbiddenInValue byte = false) ∧
      ∃ text, Utf8.decode? token = some text ∧ Binary64.read? text.toList = some value := by
  unfold number?
  split
  · next forbidden =>
    obtain ⟨byte, member, found⟩ := List.any_eq_true.mp forbidden
    constructor
    · intro read
      cases read
    · rintro ⟨allowed, -⟩
      rw [allowed byte member] at found
      cases found
  · next allowed =>
    have clean : ∀ byte ∈ token, isForbiddenInValue byte = false := by
      intro byte member
      rw [← Bool.not_eq_true]
      intro found
      exact allowed (List.any_eq_true.mpr ⟨byte, member, found⟩)
    rw [Option.bind_eq_some_iff]
    exact ⟨fun read => ⟨clean, read⟩, fun read => read.2⟩

theorem IsToken.head {token : Bytes} {text : String} (isToken : IsToken token text) :
    ∃ first more, token = first :: more ∧ isTokenByte first = true := by
  obtain ⟨present, run, _⟩ := isToken
  cases token with
  | nil => exact absurd rfl present
  | cons first more => exact ⟨first, more, rfl, run first List.mem_cons_self⟩

theorem IsToken.stops_blank {token : Bytes} {text : String} (isToken : IsToken token text)
    (rest : Bytes) : Stops isBlank (token ++ rest) := by
  obtain ⟨first, more, rfl, inside⟩ := isToken.head
  exact Stops.cons (isBlank_of_isTokenByte inside) (more ++ rest)

theorem value_append {gap token rest : Bytes} {number : Binary64} (blanks : IsRun isBlank gap)
    (isValue : IsValue token number) (stops : Stops isTokenByte rest) :
    value (gap ++ (token ++ rest)) = .ok (number, rest) := by
  obtain ⟨allowed, text, isToken, reads⟩ := isValue
  have skipped := skipBlanks_append blanks (isToken.stops_blank rest)
  have present : token.isEmpty = false := List.isEmpty_eq_false_iff.mpr isToken.1
  have parsed := (number?_eq_some_iff token number).mpr ⟨allowed, text, isToken.2.2, reads⟩
  simp only [value, skipped, takeWhile_run_append isToken.2.1 stops,
    dropWhile_run_append isToken.2.1 stops, present, parsed]
  rfl

theorem value_ok {input rest : Bytes} {number : Binary64}
    (read : value input = .ok (number, rest)) :
    ∃ gap token, IsRun isBlank gap ∧ IsValue token number ∧ Stops isTokenByte rest ∧
      input = gap ++ (token ++ rest) := by
  obtain ⟨gap, blanks, equal, _⟩ := skipBlanks_eq (rfl : skipBlanks input = _)
  simp only [value] at read
  split at read
  · split at read <;> cases read
  · next present =>
    split at read
    · next found parsed =>
      cases read
      obtain ⟨allowed, text, decoded, reads⟩ := (number?_eq_some_iff _ _).mp parsed
      refine ⟨gap, _, blanks, ⟨allowed, text, ⟨?_, isRun_takeWhile isTokenByte _, decoded⟩, reads⟩,
        stops_dropWhile isTokenByte _, ?_⟩
      · intro empty
        exact present (List.isEmpty_iff.mpr empty)
      · rw [List.takeWhile_append_dropWhile]
        exact equal
    · cases read

theorem isOver_of_isLineEnd {lineEnd : Bytes} (ended : IsLineEnd lineEnd) :
    isOver lineEnd = true := by
  rcases ended with rfl | rfl <;> rfl

theorem isOver_isToken {token rest : Bytes} {text : String} (isToken : IsToken token text) :
    isOver (token ++ rest) = false := by
  obtain ⟨first, more, rfl, inside⟩ := isToken.head
  simp only [isTokenByte, Bool.and_eq_true, bne_iff_ne] at inside
  exact beq_eq_false_iff_ne.mpr inside.2

theorem IsLineEnd.stops {lineEnd : Bytes} (ended : IsLineEnd lineEnd) {test : UInt8 → Bool}
    (outside : test newline = false) : Stops test lineEnd := by
  rcases ended with rfl | rfl
  · exact Stops.nil test
  · exact Stops.cons outside []

/-- What follows a value does not go on with its token. -/
theorem stops_afterValue {timestampPart last lineEnd : Bytes} {time : Option Int}
    (timed : IsTimestampPart timestampPart time) (trailing : IsRun isBlank last)
    (ended : IsLineEnd lineEnd) :
    Stops isTokenByte (timestampPart ++ (last ++ lineEnd)) := by
  have afterTime : Stops isTokenByte (last ++ lineEnd) :=
    Stops.append (trailing.stops fun _ => isTokenByte_of_isBlank) fun _ =>
      ended.stops (by decide)
  cases timed with
  | absent => exact afterTime
  | present apart blanks _ _ =>
    rw [List.append_assoc]
    exact Stops.append (blanks.stops fun _ => isTokenByte_of_isBlank) fun empty =>
      absurd empty apart

theorem timestamp_append {timestampPart last lineEnd : Bytes} {time : Option Int}
    (timed : IsTimestampPart timestampPart time) (trailing : IsRun isBlank last)
    (ended : IsLineEnd lineEnd) :
    timestamp (timestampPart ++ (last ++ lineEnd)) = .ok time := by
  have skippedLast := skipBlanks_append trailing (ended.stops isBlank_newline)
  cases timed with
  | absent =>
    rw [List.nil_append]
    simp only [timestamp, skippedLast, isOver_of_isLineEnd ended, if_true]
  | @present gap token text time apart blanks isToken reads =>
    have stops : Stops isTokenByte (last ++ lineEnd) :=
      stops_afterValue IsTimestampPart.absent trailing ended
    rw [List.append_assoc]
    simp only [timestamp, skipBlanks_append blanks (isToken.stops_blank _), isOver_isToken isToken,
      takeWhile_run_append isToken.2.1 stops, dropWhile_run_append isToken.2.1 stops,
      isToken.2.2, Option.bind_some, reads, skippedLast, isOver_of_isLineEnd ended, if_true]
    rfl

/-- A line that is not over goes on with a token once its blanks are skipped. -/
theorem token_of_not_over {text : Bytes} (notOver : ¬ isOver text = true)
    (stops : Stops isBlank text) :
    ∃ first more, text = first :: more ∧ isTokenByte first = true := by
  cases text with
  | nil => exact absurd rfl notOver
  | cons first more =>
    refine ⟨first, more, rfl, ?_⟩
    rw [isTokenByte, stops first rfl, Bool.not_false, Bool.true_and, bne_iff_ne]
    intro same
    exact notOver (beq_iff_eq.mpr same)

/-- What a timestamp was read from, down to where the line is over. -/
theorem timestamp_ok {input : Bytes} {time : Option Int} (read : timestamp input = .ok time)
    (stops : Stops isTokenByte input) :
    ∃ timestampPart last ending, IsTimestampPart timestampPart time ∧ IsRun isBlank last ∧
      isOver ending = true ∧ input = timestampPart ++ (last ++ ending) := by
  obtain ⟨gap, blanks, equal, gapStops⟩ := skipBlanks_eq (rfl : skipBlanks input = _)
  simp only [timestamp] at read
  split at read
  · next ending =>
    cases read
    exact ⟨[], gap, _, IsTimestampPart.absent, blanks, ending, equal⟩
  · next notOver =>
    obtain ⟨first, more, begins, inside⟩ := token_of_not_over notOver gapStops
    split at read
    · cases read
    · next time parsed =>
      split at read
      · next ending =>
        cases read
        obtain ⟨text, decoded, reads⟩ := Option.bind_eq_some_iff.mp parsed
        obtain ⟨last, trailing, lastEqual, _⟩ := skipBlanks_eq
          (rfl : skipBlanks ((skipBlanks input).dropWhile isTokenByte) = _)
        refine ⟨gap ++ (skipBlanks input).takeWhile isTokenByte, last, _,
          IsTimestampPart.present ?_ blanks ⟨?_, isRun_takeWhile isTokenByte _, decoded⟩ reads,
          trailing, ending, ?_⟩
        · rintro rfl
          rw [List.nil_append, begins] at equal
          rw [equal] at stops
          rw [stops first rfl] at inside
          cases inside
        · rw [begins, List.takeWhile_cons_of_pos inside]
          exact List.cons_ne_nil _ _
        · rw [← lastEqual, List.append_assoc, List.takeWhile_append_dropWhile]
          exact equal
      · cases read

/-! ### Whole lines -/

/-- The labels that are read after a name, with the rest of the line. -/
def ReadsLabels (input : Bytes) (labels : List (String × String)) (rest : Bytes) : Prop :=
  (∃ inside, blockOpening input = .ok (true, inside) ∧ labelBlock [] inside = .ok (labels, rest)) ∨
    (blockOpening input = .ok (false, rest) ∧ labels = [])

/-- The readings that a whole line is put together from. -/
theorem ofLine?_eq_ok_iff_steps (line : Bytes) (metric : Metric) :
    Metric.ofLine? line = .ok metric ↔
      ∃ afterName afterLabels afterValue, metricName line = .ok (metric.name, afterName) ∧
        ReadsLabels afterName metric.labels afterLabels ∧
        value afterLabels = .ok (metric.value, afterValue) ∧
        timestamp afterValue = .ok metric.timestamp := by
  unfold Metric.ofLine?
  simp only [bind, Except.bind, pure, Except.pure]
  constructor
  · intro read
    split at read
    · cases read
    · next named nameRead =>
      split at read
      · cases read
      · next opening openingRead =>
        obtain ⟨opens, inside⟩ := opening
        split at read
        · next isOpen =>
          cases (isOpen : opens = true)
          split at read
          · cases read
          · next labelled labelsRead =>
            split at read
            · cases read
            · next valued valueRead =>
              split at read
              · cases read
              · next timeRead =>
                cases read
                exact ⟨_, _, _, nameRead, .inl ⟨_, openingRead, labelsRead⟩, valueRead, timeRead⟩
        · next isClosed =>
          cases (Bool.not_eq_true _ ▸ isClosed : opens = false)
          split at read
          · cases read
          · next valued valueRead =>
            split at read
            · cases read
            · next timeRead =>
              cases read
              exact ⟨_, _, _, nameRead, .inr ⟨openingRead, rfl⟩, valueRead, timeRead⟩
  · rintro ⟨afterName, afterLabels, afterValue, nameRead, labelsRead, valueRead, timeRead⟩
    obtain ⟨name, labels, number, time⟩ := metric
    rw [nameRead]
    rcases labelsRead with ⟨inside, openingRead, blockRead⟩ | ⟨openingRead, none⟩
    · simp only [openingRead, if_true, blockRead, valueRead, timeRead]
    · have noLabels : labels = [] := none
      simp only [openingRead, Bool.false_eq_true, if_false, valueRead, timeRead, noLabels]

/-- No number begins with a brace. -/
theorem read?_openBrace (more : List Char) : Binary64.read? ('\x7b' :: more) = none := by
  have notWord : ∀ word : String, word.toList.head? ≠ some '\x7b' →
      (Binary64.lowered ('\x7b' :: more) == word) = false := by
    rintro word other
    rw [beq_eq_false_iff_ne]
    rintro rfl
    rw [Binary64.lowered, String.toList_ofList] at other
    exact other rfl
  have noNumeral : Decimal.read? ('\x7b' :: more) = none := rfl
  have unsigned : splitSign ('\x7b' :: more) = (false, '\x7b' :: more) := rfl
  rw [Binary64.read?, unsigned]
  simp only [noNumeral, notWord "inf" (by decide), notWord "infinity" (by decide),
    notWord "nan" (by decide), Bool.or_false, Bool.false_eq_true, if_false]

theorem IsValue.head_ne_openBrace {token : Bytes} {number : Binary64}
    (isValue : IsValue token number) : ∀ byte ∈ token.head?, byte ≠ openBrace := by
  rintro byte member rfl
  obtain ⟨_, text, ⟨_, _, decoded⟩, reads⟩ := isValue
  cases token with
  | nil => cases member
  | cons first more =>
    cases member
    have pieces := (Utf8.decode?_eq_some_iff _ _).mp decoded
    rw [Utf8.pieces_ascii (by decide)] at pieces
    cases chars : text.toList with
    | nil => rw [chars] at pieces; cases pieces
    | cons char others =>
      rw [chars, List.map_cons, List.cons.injEq] at pieces
      have brace : char = '\x7b' := (Option.some.inj pieces.1).symm
      rw [chars, brace, read?_openBrace] at reads
      cases reads

/-- What stands after a name does not go on with it. -/
theorem IsLabelPart.stops {labelPart : Bytes} {labels : List (String × String)}
    (labelled : IsLabelPart labelPart labels) (rest : Bytes) :
    Stops isNameByte (labelPart ++ rest) := by
  cases labelled with
  | absent present run =>
    exact Stops.append (run.stops fun _ => isNameByte_of_isBlank) fun empty =>
      absurd empty present
  | block before _ _ =>
    rw [List.append_assoc]
    exact Stops.append (before.stops fun _ => isNameByte_of_isBlank) fun _ =>
      Stops.cons (by decide) _

/-- A newline that may only be the last byte of a line is followed by nothing. -/
theorem isLineEnd_of_isOver (before : Bytes) {ending : Bytes} (ended : isOver ending = true)
    (single : newline ∉ (before ++ ending).dropLast) : IsLineEnd ending := by
  cases ending with
  | nil => exact .inl rfl
  | cons next after =>
    have same : next = newline := beq_iff_eq.mp ended
    subst same
    cases after with
    | nil => exact .inr rfl
    | cons other others =>
      refine absurd ?_ single
      rw [List.dropLast_append_cons, List.dropLast_cons_cons]
      exact List.mem_append_right before List.mem_cons_self

/-- The part of the grammar between a name and what follows it is read as its labels. -/
theorem readsLabels_append {labelPart gap following : Bytes} {labels : List (String × String)}
    (labelled : IsLabelPart labelPart labels) (blanks : IsRun isBlank gap)
    (stops : Stops isBlank following) (noBlock : ∀ byte ∈ following.head?, byte ≠ openBrace) :
    ∃ before, IsRun isBlank before ∧
      ReadsLabels (labelPart ++ (gap ++ following)) labels (before ++ following) := by
  cases labelled with
  | absent present run =>
    refine ⟨[], IsRun.nil, .inr ⟨?_, rfl⟩⟩
    rw [← List.append_assoc]
    exact blockOpening_blanks (List.append_ne_nil_of_left_ne_nil present gap) (run.append blanks)
      stops noBlock
  | block before inside distinct =>
    refine ⟨gap, blanks, .inl ⟨_, ?_, labelBlock_append inside distinct _⟩⟩
    simp only [List.append_assoc, List.cons_append, List.nil_append]
    exact blockOpening_block before _

theorem readsLabels_ok {input rest : Bytes} {labels : List (String × String)}
    (read : ReadsLabels input labels rest) :
    ∃ labelPart, IsLabelPart labelPart labels ∧ input = labelPart ++ rest := by
  rcases read with ⟨inside, openingRead, blockRead⟩ | ⟨openingRead, rfl⟩
  · obtain ⟨blanks, run, ⟨_, rfl⟩ | ⟨impossible, _⟩⟩ := blockOpening_ok openingRead
    · obtain ⟨body, added, isBody, rfl, rfl, distinct⟩ := labelBlock_ok blockRead List.nodup_nil
      refine ⟨_, IsLabelPart.block run isBody distinct, ?_⟩
      simp only [List.append_assoc, List.cons_append, List.nil_append]
    · cases impossible
  · obtain ⟨blanks, run, ⟨impossible, _⟩ | ⟨_, present, rfl⟩⟩ := blockOpening_ok openingRead
    · cases impossible
    · exact ⟨blanks, IsLabelPart.absent present run, rfl⟩

/-- A line of the grammar is read as what it denotes. -/
theorem ofLine?_of_isLine {line : Bytes} {metric : Metric} (isLine : IsLine line metric) :
    Metric.ofLine? line = .ok metric := by
  cases isLine with
  | @intro name labelPart gap token timestampPart last lineEnd labels number time word labelled
      blanks isValue timed trailing ended =>
    obtain ⟨_, text, isToken, _⟩ := id isValue
    have noBlock := isValue.head_ne_openBrace
    rw [← List.head?_append_of_ne_nil token isToken.1] at noBlock
    obtain ⟨before, beforeBlanks, labelsRead⟩ :=
      readsLabels_append labelled blanks (isToken.stops_blank _) noBlock
    have afterName := labelled.stops (gap ++ (token ++ (timestampPart ++ (last ++ lineEnd))))
    exact (ofLine?_eq_ok_iff_steps _ _).mpr ⟨_, _, _, metricName_append word afterName, labelsRead,
      value_append beforeBlanks isValue (stops_afterValue timed trailing ended),
      timestamp_append timed trailing ended⟩

/-- The reader accepts exactly the lines of the grammar, and reads from each what it denotes.
Only the last byte of a line can be a newline. -/
theorem ofLine?_eq_ok_iff (line : Bytes) (single : newline ∉ line.dropLast) (metric : Metric) :
    Metric.ofLine? line = .ok metric ↔ IsLine line metric := by
  constructor
  · intro read
    obtain ⟨afterName, afterLabels, afterValue, nameRead, labelsRead, valueRead, timeRead⟩ :=
      (ofLine?_eq_ok_iff_steps line metric).mp read
    obtain ⟨word, isWord, rfl, named⟩ := metricName_ok nameRead
    obtain ⟨labelPart, labelled, rfl⟩ := readsLabels_ok labelsRead
    obtain ⟨gap, token, blanks, isValue, stops, rfl⟩ := value_ok valueRead
    obtain ⟨timestampPart, last, ending, timed, trailing, ended, rfl⟩ := timestamp_ok timeRead stops
    obtain ⟨name, labels, number, time⟩ := metric
    cases (named : name = _)
    refine IsLine.intro isWord labelled blanks isValue timed trailing (isLineEnd_of_isOver
      (word ++ (labelPart ++ (gap ++ (token ++ (timestampPart ++ last))))) ended ?_)
    simpa only [List.append_assoc] using single
  · exact ofLine?_of_isLine

/-- A line with blanks in every place, a trailing comma, a value that follows its brace at once
and a carriage return before its newline. -/
theorem isLine_irregular :
    newline ∉ (Utf8.encode "x \t\x7b a = \"q\\\"\" , \x7d7 -3\r\n").dropLast ∧
      IsLine (Utf8.encode "x \t\x7b a = \"q\\\"\" , \x7d7 -3\r\n")
        ⟨"x", [("a", "q\"")], ⟨0x401C000000000000⟩, some (-3)⟩ :=
  ⟨by decide +kernel,
    (ofLine?_eq_ok_iff _ (by decide +kernel) _).mp (by decide +kernel)⟩

end MetricLine

end CiTelemetry
