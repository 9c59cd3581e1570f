/-
This file proves that metrics survive being written to a log. The written form
of a metric is a line of the grammar, so it is read as that metric whichever
line end follows it; it holds no newline, however its label values do; and so
the lines of a log fall apart where they were joined. Only the words that store
what is not a number are not told apart by their text.
-/

import CiTelemetry.Proofs.LogLines
import CiTelemetry.Proofs.MetricGrammar
import CiTelemetry.Proofs.NumberText

namespace CiTelemetry

namespace MetricLine

/-! ### The only newline of a line -/

/-- A class that shuts out the newline keeps it out of its runs. -/
theorem newline_notMem_of_isRun {test : UInt8 → Bool} (outside : test newline = false)
    {run : Bytes} (isRun : IsRun test run) : newline ∉ run := by
  intro member
  rw [isRun newline member] at outside
  cases outside

theorem newline_notMem_blanks {blanks : Bytes} (run : IsRun isBlank blanks) : newline ∉ blanks :=
  newline_notMem_of_isRun (by decide) run

theorem newline_notMem_token {token : Bytes} {text : String} (isToken : IsToken token text) :
    newline ∉ token :=
  newline_notMem_of_isRun (by decide) isToken.2.1

theorem Escapes.newline_notMem {written meant : Bytes} (escapes : Escapes written meant) :
    MetricLine.newline ∉ written := by
  induction escapes with
  | nil => exact List.not_mem_nil
  | plain notNewline _ _ _ inductionHypothesis =>
    exact List.not_mem_cons_of_ne_of_not_mem notNewline.symm inductionHypothesis
  | quote _ inductionHypothesis | backslash _ inductionHypothesis | newline _ inductionHypothesis =>
    refine List.not_mem_cons_of_ne_of_not_mem (by decide) ?_
    exact List.not_mem_cons_of_ne_of_not_mem (by decide) inductionHypothesis

theorem IsLabel.newline_notMem {written : Bytes} {pair : String × String}
    (isLabel : IsLabel written pair) : newline ∉ written := by
  cases isLabel with
  | intro word left right escapes _ =>
    have name := newline_notMem_of_isRun (by decide)
      (word.isRun fun _ => isLabelByte_of_isLabelStart)
    have equals : newline ≠ equalsSign := by decide
    have quotes : newline ≠ quote := by decide
    simp only [List.mem_append, List.mem_cons, List.not_mem_nil, or_false, not_or]
    exact ⟨name, newline_notMem_blanks left, equals, newline_notMem_blanks right, quotes,
      escapes.newline_notMem, quotes⟩

theorem AreLabels.newline_notMem {written : Bytes} {pairs : List (String × String)}
    (items : AreLabels written pairs) : newline ∉ written := by
  have comma : newline ≠ comma := by decide
  induction items with
  | one left label right =>
    simp only [List.mem_append, not_or]
    exact ⟨newline_notMem_blanks left, label.newline_notMem, newline_notMem_blanks right⟩
  | trailing left label right blanks =>
    simp only [List.mem_append, List.mem_cons, not_or]
    exact ⟨newline_notMem_blanks left, label.newline_notMem, newline_notMem_blanks right, comma,
      newline_notMem_blanks blanks⟩
  | more left label right _ inductionHypothesis =>
    simp only [List.mem_append, List.mem_cons, not_or]
    exact ⟨newline_notMem_blanks left, label.newline_notMem, newline_notMem_blanks right, comma,
      inductionHypothesis⟩

theorem IsLabelPart.newline_notMem {labelPart : Bytes} {labels : List (String × String)}
    (labelled : IsLabelPart labelPart labels) : newline ∉ labelPart := by
  cases labelled with
  | absent _ run => exact newline_notMem_blanks run
  | block blanks inside _ =>
    have opening : newline ≠ openBrace := by decide
    have closing : newline ≠ closeBrace := by decide
    simp only [List.mem_append, List.mem_cons, List.not_mem_nil, or_false, not_or]
    refine ⟨newline_notMem_blanks blanks, opening, ?_, closing⟩
    cases inside with
    | blank run => exact newline_notMem_blanks run
    | labels items => exact items.newline_notMem

/-- A line of the grammar has no newline before its end. -/
theorem IsLine.newline_notMem_dropLast {line : Bytes} {metric : Metric}
    (isLine : IsLine line metric) : newline ∉ line.dropLast := by
  cases isLine with
  | @intro name labelPart gap token timestampPart last lineEnd _ _ _ word labelled blanks number
      timed trailing ended =>
    obtain ⟨_, text, isToken, _⟩ := number
    have before : newline ∉ name ++ (labelPart ++ (gap ++ (token ++ (timestampPart ++ last)))) := by
      simp only [List.mem_append, not_or]
      refine ⟨newline_notMem_of_isRun (by decide) (word.isRun fun _ => isNameByte_of_isNameStart),
        labelled.newline_notMem, newline_notMem_blanks blanks, newline_notMem_token isToken, ?_,
        newline_notMem_blanks trailing⟩
      cases timed with
      | absent => exact List.not_mem_nil
      | present _ apart isToken _ =>
        rw [List.mem_append, not_or]
        exact ⟨newline_notMem_blanks apart, newline_notMem_token isToken⟩
    simp only [← List.append_assoc] at before ⊢
    rcases ended with rfl | rfl
    · rw [List.append_nil]
      exact fun member => before ((List.dropLast_sublist _).subset member)
    · rw [List.dropLast_concat]
      exact before

end MetricLine

/-! ### What a writable metric is -/

/-- A metric that has a line, be its value a number or not. -/
structure Metric.IsExpressible (metric : Metric) : Prop where
  name : MetricLine.IsWord MetricLine.isNameStart MetricLine.isNameByte (Utf8.encode metric.name)
  labelNames : ∀ label ∈ metric.labels,
    MetricLine.IsWord MetricLine.isLabelStart MetricLine.isLabelByte (Utf8.encode label.1)
  distinct : (metric.labels.map (·.1)).Nodup
  timestamp : ∀ time ∈ metric.timestamp, fitsSigned64 time = true

/-- A metric that the text form of metrics is made for. Label values are any text, and the value
is any number, infinities and the negative zero included. -/
structure Metric.IsWritable (metric : Metric) : Prop where
  name : MetricLine.IsWord MetricLine.isNameStart MetricLine.isNameByte (Utf8.encode metric.name)
  labelNames : ∀ label ∈ metric.labels,
    MetricLine.IsWord MetricLine.isLabelStart MetricLine.isLabelByte (Utf8.encode label.1)
  distinct : (metric.labels.map (·.1)).Nodup
  value : metric.value.isNaN = false
  timestamp : ∀ time ∈ metric.timestamp, fitsSigned64 time = true

theorem Metric.IsWritable.isExpressible {metric : Metric} (writable : metric.IsWritable) :
    metric.IsExpressible :=
  ⟨writable.name, writable.labelNames, writable.distinct, writable.timestamp⟩

/-- What the text of a number is read as. What is not a number has one text, whatever its word. -/
def Binary64.reread (number : Binary64) : Binary64 :=
  if number.isNaN then Binary64.nan else number

theorem Binary64.read?_render_reread (number : Binary64) :
    Binary64.read? number.render.toList = some number.reread := by
  cases isNaN : number.isNaN with
  | false => rw [reread, isNaN, if_neg Bool.false_ne_true, read?_render isNaN]
  | true =>
    rw [reread, render, isNaN, if_pos rfl, if_pos rfl]
    rfl

/-- What the line of a metric is read as. -/
def Metric.reread (metric : Metric) : Metric :=
  { metric with value := metric.value.reread }

theorem Metric.IsWritable.reread_eq {metric : Metric} (writable : metric.IsWritable) :
    metric.reread = metric := by
  rw [Metric.reread, Binary64.reread, writable.value, if_neg Bool.false_ne_true]

namespace MetricLine

/-! ### Characters as bytes -/

/-- The bytes of a label name are among those of a metric name. -/
theorem isNameByte_of_isLabelByte {byte : UInt8} (inside : isLabelByte byte = true) :
    isNameByte byte = true := by
  rw [isLabelByte, Bool.or_eq_true] at inside
  rcases inside with start | digit
  · rw [isNameByte, isNameStart, start, Bool.true_or, Bool.true_or]
  · rw [isNameByte, digit, Bool.or_true]

/-- A byte that a name may hold is a byte of ASCII. -/
theorem ascii_of_isNameByte {byte : UInt8} (inside : isNameByte byte = true) : ¬ 0x80 ≤ byte := by
  intro beyond
  simp only [isNameByte, isNameStart, isLabelStart, isLetter, isDigit, Bool.or_eq_true,
    Bool.and_eq_true, decide_eq_true_eq, beq_iff_eq, UInt8.le_iff_toNat_le, ← UInt8.toNat_inj]
    at inside beyond
  simp at inside beyond
  omega

/-- The bytes of a text of ASCII are its characters. -/
theorem asciiText_encode {text : String} (ascii : ∀ byte ∈ Utf8.encode text, ¬ 0x80 ≤ byte) :
    asciiText (Utf8.encode text) = text := by
  have chars : ∀ chars : List Char, (∀ byte ∈ Utf8.encodeChars chars, ¬ 0x80 ≤ byte) →
      (Utf8.encodeChars chars).map (fun byte => Char.ofNat byte.toNat) = chars := by
    intro chars
    induction chars with
    | nil => exact fun _ => rfl
    | cons char others inductionHypothesis =>
      intro ascii
      rw [Utf8.encodeChars, List.flatMap_cons] at ascii ⊢
      have head : char.toNat < 0x80 := Utf8.encodeChar_of_ascii_bytes fun byte member =>
        ascii byte (List.mem_append_left _ member)
      have tail := inductionHypothesis fun byte member => ascii byte (List.mem_append_right _ member)
      rw [Utf8.encodeChar_ascii head, List.map_append, List.map_singleton,
        Utf8.toNat_ofNat_of_lt (by omega), Char.ofNat_toNat]
      exact congrArg (char :: ·) tail
  rw [asciiText, Utf8.encode_eq, chars _ ascii, String.ofList_toList]

/-! ### Label values -/

/-- Bytes that need no escape stand for themselves. -/
theorem Escapes.unescaped {bytes written meant : Bytes}
    (harmless : ∀ byte ∈ bytes, byte ≠ MetricLine.newline ∧ byte ≠ MetricLine.quote ∧
      byte ≠ MetricLine.backslash) (rest : Escapes written meant) :
    Escapes (bytes ++ written) (bytes ++ meant) := by
  induction bytes with
  | nil => exact rest
  | cons byte more inductionHypothesis =>
    obtain ⟨notNewline, notQuote, notBackslash⟩ := harmless byte List.mem_cons_self
    exact Escapes.plain notNewline notQuote notBackslash
      (inductionHypothesis fun other member => harmless other (List.mem_cons_of_mem _ member))

/-- What a character is written as stands for the character. -/
theorem escapes_char (char : Char) {written meant : Bytes} (rest : Escapes written meant) :
    Escapes (Utf8.encodeChars (Metric.escapeChar char) ++ written)
      (String.utf8EncodeChar char ++ meant) := by
  unfold Metric.escapeChar
  split
  · next isBackslash =>
    rw [isBackslash]
    exact Escapes.backslash rest
  · next notBackslash =>
    split
    · next isQuote =>
      rw [isQuote]
      exact Escapes.quote rest
    · next notQuote =>
      split
      · next isNewline =>
        rw [isNewline]
        exact Escapes.newline rest
      · next notNewline =>
        have different : ∀ {byte : UInt8} {other : Char}, byte ∈ String.utf8EncodeChar char →
            char ≠ other → ¬ 0x80 ≤ byte → byte.toNat ≠ other.toNat := by
          intro byte other member distinct ascii same
          have number := Utf8.toNat_of_mem_encodeChar ascii member
          exact distinct (Char.toNat_inj.mp (number.symm.trans same))
        rw [Utf8.encodeChars, List.flatMap_singleton]
        refine Escapes.unescaped (fun byte member => ⟨?_, ?_, ?_⟩) rest
        · rintro rfl
          exact different member notNewline (by decide) rfl
        · rintro rfl
          exact different member notQuote (by decide) rfl
        · rintro rfl
          exact different member notBackslash (by decide) rfl

/-- An escaped text stands for the text, whatever its characters are. -/
theorem escapes_escape (text : String) :
    Escapes (Utf8.encode (Metric.escape text)) (Utf8.encode text) := by
  rw [Metric.escape, Utf8.encode_ofList, Utf8.encode_eq]
  induction text.toList with
  | nil => exact Escapes.nil
  | cons char others inductionHypothesis =>
    rw [List.flatMap_cons, Utf8.encodeChars_append]
    exact escapes_char char inductionHypothesis

/-! ### The written label block -/

theorem isLabel_renderLabel {label : String × String}
    (name : IsWord isLabelStart isLabelByte (Utf8.encode label.1)) :
    IsLabel (Utf8.encode (Metric.renderLabel label)) label := by
  have isLabel := IsLabel.intro name IsRun.nil IsRun.nil (escapes_escape label.2)
    (Utf8.decode?_encode label.2)
  have run := name.isRun fun _ => isLabelByte_of_isLabelStart
  rw [asciiText_encode fun byte member =>
    ascii_of_isNameByte (isNameByte_of_isLabelByte (run byte member))] at isLabel
  have opening : Utf8.encode "=\"" = [equalsSign, quote] := rfl
  have closing : Utf8.encode "\"" = [quote] := rfl
  have written : Utf8.encode (Metric.renderLabel label) = Utf8.encode label.1 ++ ([] ++
      equalsSign :: ([] ++ quote :: (Utf8.encode (Metric.escape label.2) ++ [quote]))) := by
    simp only [Metric.renderLabel, Utf8.encode_append, opening, closing, List.append_assoc,
      List.cons_append, List.nil_append]
  rw [written]
  exact isLabel

theorem areLabels_render {labels : List (String × String)} (present : labels ≠ [])
    (names : ∀ label ∈ labels, IsWord isLabelStart isLabelByte (Utf8.encode label.1)) :
    AreLabels (Utf8.encode (",".intercalate (labels.map Metric.renderLabel))) labels := by
  induction labels with
  | nil => exact absurd rfl present
  | cons label others inductionHypothesis =>
    have isLabel := isLabel_renderLabel (names label List.mem_cons_self)
    cases others with
    | nil =>
      have items := AreLabels.one IsRun.nil isLabel IsRun.nil
      rw [List.append_nil, List.nil_append] at items
      rw [List.map_singleton, String.intercalate_singleton]
      exact items
    | cons next more =>
      have rest := inductionHypothesis (List.cons_ne_nil _ _) fun other member =>
        names other (List.mem_cons_of_mem _ member)
      have items := AreLabels.more IsRun.nil isLabel IsRun.nil rest
      rw [List.map_cons, List.map_cons, String.intercalate_cons_cons, ← List.map_cons,
        Utf8.encode_append, Utf8.encode_append, List.append_assoc]
      exact items

/-- A blank after the written labels ends either a label block or the metric name. -/
theorem isLabelPart_render {labels : List (String × String)}
    (names : ∀ label ∈ labels, IsWord isLabelStart isLabelByte (Utf8.encode label.1))
    (distinct : (labels.map (·.1)).Nodup) :
    ∃ labelPart gap, IsLabelPart labelPart labels ∧ IsRun isBlank gap ∧
      Utf8.encode (Metric.renderLabels labels ++ " ") = labelPart ++ gap := by
  have blank : IsRun isBlank (Utf8.encode " ") := List.all_eq_true.mp (by decide)
  cases labels with
  | nil => exact ⟨Utf8.encode " ", [], IsLabelPart.absent (by decide) blank, IsRun.nil, rfl⟩
  | cons label others =>
    refine ⟨_, Utf8.encode " ", IsLabelPart.block IsRun.nil
      (IsBlockBody.labels (areLabels_render (List.cons_ne_nil _ _) names)) distinct, blank, ?_⟩
    have opening : Utf8.encode "\x7b" = [openBrace] := rfl
    have closing : Utf8.encode "\x7d" = [closeBrace] := rfl
    rw [Metric.renderLabels, List.isEmpty_cons, if_neg Bool.false_ne_true]
    simp only [Utf8.encode_append, opening, closing, List.append_assoc, List.cons_append,
      List.nil_append]

/-! ### The written numbers -/

/-- The bytes of numbers are bytes of tokens, and none of them is forbidden in a value. -/
theorem isTokenByte_of_isNumberChar {char : Char} (inside : isNumberChar char = true)
    {byte : UInt8} (member : byte ∈ String.utf8EncodeChar char) :
    isTokenByte byte = true ∧ isForbiddenInValue byte = false := by
  rw [isNumberChar, Bool.or_eq_true] at inside
  rcases inside with digit | listed
  · obtain ⟨low, high⟩ := Char.isDigit_iff_toNat.mp digit
    change 48 ≤ char.toNat at low
    change char.toNat ≤ 57 at high
    rw [Utf8.encodeChar_ascii (by omega), List.mem_singleton] at member
    have number : byte.toNat = char.toNat := by
      rw [member, Utf8.toNat_ofNat_of_lt (by omega)]
    have different : ∀ other : UInt8, other.toNat < 48 ∨ 57 < other.toNat →
        (byte == other) = false := by
      intro other outside
      rw [beq_eq_false_iff_ne]
      rintro rfl
      omega
    constructor
    · rw [isTokenByte, isBlank, bne, different _ (by decide), different _ (by decide),
        different _ (by decide), different _ (by decide)]
      rfl
    · rw [isForbiddenInValue, different _ (by decide), different _ (by decide),
        different _ (by decide)]
      rfl
  · have each : (".-infNa".toList.all fun char => (String.utf8EncodeChar char).all fun byte =>
        isTokenByte byte && !isForbiddenInValue byte) = true := by rfl
    have ofChar := List.all_eq_true.mp each char (List.contains_iff_mem.mp listed)
    have ofByte := List.all_eq_true.mp ofChar byte member
    simpa using ofByte

/-- The text of a number is a token without forbidden bytes. -/
theorem isToken_number {text : String} (run : IsRun isNumberChar text.toList)
    (present : text ≠ "") :
    IsToken (Utf8.encode text) text ∧
      ∀ byte ∈ Utf8.encode text, isForbiddenInValue byte = false := by
  have each : ∀ byte ∈ Utf8.encode text,
      isTokenByte byte = true ∧ isForbiddenInValue byte = false := by
    intro byte member
    obtain ⟨char, inside, within⟩ := List.mem_flatMap.mp member
    exact isTokenByte_of_isNumberChar (run char inside) within
  refine ⟨⟨?_, fun byte member => (each byte member).1, Utf8.decode?_encode text⟩,
    fun byte member => (each byte member).2⟩
  intro empty
  have read := Utf8.decode?_encode text
  rw [empty] at read
  exact present (Option.some.inj read).symm

theorem isValue_render (value : Binary64) : IsValue (Utf8.encode value.render) value.reread := by
  have read := value.read?_render_reread
  have present : value.render ≠ "" := by
    intro empty
    rw [empty] at read
    cases read
  obtain ⟨isToken, allowed⟩ := isToken_number value.isRun_render present
  exact ⟨allowed, value.render, isToken, read⟩

/-- The end of a written line: a timestamp after one blank, if there is one. -/
def timestampText : Option Int → String
  | some timestamp => " " ++ toString timestamp
  | none => ""

theorem isTimestampPart_text {timestamp : Option Int}
    (fits : ∀ time ∈ timestamp, fitsSigned64 time = true) :
    IsTimestampPart (Utf8.encode (timestampText timestamp)) timestamp := by
  cases timestamp with
  | none => exact IsTimestampPart.absent
  | some time =>
    have read := integer64?_toString (fits time rfl)
    have present : toString time ≠ "" := by
      intro empty
      rw [empty] at read
      cases read
    rw [timestampText, Utf8.encode_append]
    exact IsTimestampPart.present (by decide) (List.all_eq_true.mp (by decide))
      (isToken_number (isRun_toString time) present).1 read

end MetricLine

namespace Metric

open MetricLine

/-! ### The written line -/

/-- The written form of a metric after its mark. -/
def body (metric : Metric) : Bytes :=
  (Utf8.encode metric.render).drop (Utf8.encode metricMark).length

theorem body_eq (metric : Metric) :
    metric.body = Utf8.encode metric.name ++ (Utf8.encode (renderLabels metric.labels ++ " ") ++
      (Utf8.encode metric.value.render ++ Utf8.encode (timestampText metric.timestamp))) := by
  have whole : metric.render = metricMark ++ metric.name ++ renderLabels metric.labels ++ " " ++
      metric.value.render ++ timestampText metric.timestamp := rfl
  rw [body, whole]
  simp only [Utf8.encode_append, List.append_assoc, List.drop_left]

theorem encode_render (metric : Metric) :
    Utf8.encode metric.render = Utf8.encode metricMark ++ metric.body := by
  have marked : Utf8.encode metricMark <+: Utf8.encode metric.render := by
    unfold render
    simp only [Utf8.encode_append, List.append_assoc]
    exact List.prefix_append _ _
  exact (List.prefix_iff_eq_append.mp marked).symm

/-- The written form of a metric is a line of the grammar that denotes the metric, whichever line
end follows it. -/
theorem isLine_body {metric : Metric} (expressible : metric.IsExpressible) (lineEnd : Bytes)
    (ended : IsLineEnd lineEnd) : IsLine (metric.body ++ lineEnd) metric.reread := by
  obtain ⟨labelPart, gap, labelled, blanks, cut⟩ :=
    isLabelPart_render expressible.labelNames expressible.distinct
  have isLine := IsLine.intro expressible.name labelled blanks (isValue_render metric.value)
    (isTimestampPart_text expressible.timestamp) IsRun.nil ended
  have run := expressible.name.isRun fun _ => isNameByte_of_isNameStart
  rw [asciiText_encode fun byte member => ascii_of_isNameByte (run byte member)] at isLine
  rw [body_eq, cut, reread]
  simpa only [List.append_assoc, List.nil_append] using isLine

/-- No label value puts a newline into the written form. -/
theorem newline_notMem_render {metric : Metric} (expressible : metric.IsExpressible) :
    newline ∉ Utf8.encode metric.render := by
  have single := (isLine_body expressible [newline] (Or.inr rfl)).newline_notMem_dropLast
  rw [List.dropLast_concat] at single
  rw [encode_render, List.mem_append, not_or]
  exact ⟨by decide, single⟩

end Metric

namespace Log

/-! ### Whole logs -/

/-- A written line is read as its metric, whichever line end follows it. -/
theorem metric?_render {metric : Metric} (expressible : metric.IsExpressible) (lineEnd : Bytes)
    (ended : MetricLine.IsLineEnd lineEnd) :
    metric? (Utf8.encode metric.render ++ lineEnd) = some (.ok metric.reread) := by
  rw [Metric.encode_render, List.append_assoc, metric?_mark,
    MetricLine.ofLine?_of_isLine (Metric.isLine_body expressible lineEnd ended)]

theorem sample?_of_metric? {line : Bytes} {metric : Metric}
    (read : metric? line = some (.ok metric)) : sample? line = some metric := by
  rw [sample?, read]

theorem fault?_of_metric? {line : Bytes} {metric : Metric}
    (read : metric? line = some (.ok metric)) : fault? line = none := by
  rw [fault?, read]

/-- The bytes of a log to which metrics were written, one line each. -/
def written (metrics : List Metric) (lineEnd : String) : Bytes :=
  Utf8.encode ("\n".intercalate (metrics.map Metric.render) ++ lineEnd)

/-- The log falls apart into its first line and the log of the other metrics. -/
theorem written_cons_cons (metric next : Metric) (rest : List Metric) (lineEnd : String) :
    written (metric :: next :: rest) lineEnd =
      Utf8.encode metric.render ++ MetricLine.newline :: written (next :: rest) lineEnd := by
  unfold written
  have separator : Utf8.encode "\n" = [MetricLine.newline] := rfl
  rw [List.map_cons, List.map_cons, String.intercalate_cons_cons, ← List.map_cons]
  simp only [Utf8.encode_append, separator, List.append_assoc, List.cons_append, List.nil_append]

/-- The log of one metric is one line, with its line end. -/
theorem lines_written_one {metric : Metric} (expressible : metric.IsExpressible) {lineEnd : String}
    (ended : lineEnd = "" ∨ lineEnd = "\n") :
    lines (written [metric] lineEnd) = [Utf8.encode metric.render ++ Utf8.encode lineEnd] := by
  have clean := Metric.newline_notMem_render expressible
  rw [written, List.map_singleton, String.intercalate_singleton, Utf8.encode_append]
  rcases ended with rfl | rfl
  · have nothing : Utf8.encode "" = [] := rfl
    have present : Utf8.encode metric.render ≠ [] := by
      rw [Metric.encode_render]
      exact List.append_ne_nil_of_left_ne_nil (by decide) _
    rw [nothing, List.append_nil, lines_clean clean present]
  · exact (lines_append clean []).trans (congrArg _ lines_nil)

/-- Every line of the log gives what its metric is read as and no fault. -/
theorem reads_expressible (metrics : List Metric)
    (expressible : ∀ metric ∈ metrics, metric.IsExpressible) {lineEnd : String}
    (ended : lineEnd = "" ∨ lineEnd = "\n") (first : Nat) :
    (lines (written metrics lineEnd)).filterMap sample? = metrics.map Metric.reread ∧
      lineErrors first (lines (written metrics lineEnd)) = [] := by
  induction metrics generalizing first with
  | nil =>
    rcases ended with rfl | rfl
    · have nothing : lines (written [] "") = [] := lines_nil
      rw [nothing]
      exact ⟨rfl, rfl⟩
    · have newlineAlone : lines (written [] "\n") = [[MetricLine.newline]] :=
        (lines_append List.not_mem_nil []).trans (congrArg _ lines_nil)
      rw [newlineAlone]
      exact ⟨rfl, rfl⟩
  | cons metric others inductionHypothesis =>
    have isExpressible := expressible metric List.mem_cons_self
    cases others with
    | nil =>
      have lineEnded : MetricLine.IsLineEnd (Utf8.encode lineEnd) := by
        rcases ended with rfl | rfl
        · exact Or.inl rfl
        · exact Or.inr rfl
      have read := metric?_render isExpressible _ lineEnded
      rw [lines_written_one isExpressible ended, List.filterMap_cons, sample?_of_metric? read,
        lineErrors, fault?_of_metric? read]
      exact ⟨rfl, rfl⟩
    | cons next rest =>
      have read := metric?_render isExpressible [MetricLine.newline] (Or.inr rfl)
      obtain ⟨samples, faults⟩ := inductionHypothesis
        (fun other member => expressible other (List.mem_cons_of_mem _ member)) (first + 1)
      rw [written_cons_cons, lines_append (Metric.newline_notMem_render isExpressible),
        List.filterMap_cons, sample?_of_metric? read, lineErrors, fault?_of_metric? read]
      exact ⟨congrArg (metric.reread :: ·) samples, faults⟩

/-- A log of writable metrics gives the metrics themselves. -/
theorem reads_written (metrics : List Metric) (writable : ∀ metric ∈ metrics, metric.IsWritable)
    {lineEnd : String} (ended : lineEnd = "" ∨ lineEnd = "\n") (first : Nat) :
    (lines (written metrics lineEnd)).filterMap sample? = metrics ∧
      lineErrors first (lines (written metrics lineEnd)) = [] := by
  obtain ⟨samples, faults⟩ := reads_expressible metrics
    (fun metric member => (writable metric member).isExpressible) ended first
  have same : metrics.map Metric.reread = metrics.map id :=
    List.map_congr_left fun metric member => (writable metric member).reread_eq
  rw [same, List.map_id] at samples
  exact ⟨samples, faults⟩

/-- Metrics that are written to a log, one line each, are read from it in their order and without
an error, whether or not a newline follows the last of them. -/
theorem parse_written (metrics : List Metric) (writable : ∀ metric ∈ metrics, metric.IsWritable)
    (lineEnd : String) (ended : lineEnd = "" ∨ lineEnd = "\n") :
    (parse (Utf8.encode ("\n".intercalate (metrics.map Metric.render) ++ lineEnd))).metrics =
        metrics ∧
      (parse (Utf8.encode ("\n".intercalate (metrics.map Metric.render) ++ lineEnd))).errors =
        [] :=
  reads_written metrics writable ended 1

/-- Two metrics with what is hard to write: quotes, backslashes, line ends and letters beyond ASCII
in a label value, a value whose shortest numeral is not exact, an infinity and the least time. -/
def hardMetrics : List Metric :=
  [⟨"build:seconds", [("path", "C:\\n\"\r\nü"), ("empty", "")], ⟨0x3FB999999999999A⟩,
      some (-(twoTo 63 : Int))⟩,
    ⟨":up", [], Binary64.negativeInfinity, none⟩]

theorem hardMetrics_writable : ∀ metric ∈ hardMetrics, metric.IsWritable := by
  intro metric member
  rcases List.mem_cons.mp member with rfl | member
  · exact ⟨by decide +kernel, by decide +kernel, by decide, by decide, by decide⟩
  · rcases List.mem_singleton.mp member with rfl
    exact ⟨by decide +kernel, by decide +kernel, by decide, by decide, by decide⟩

theorem parse_written_hardMetrics :
    (parse (Utf8.encode ("\n".intercalate (hardMetrics.map Metric.render) ++ "\n"))).metrics =
        hardMetrics ∧
      (parse (Utf8.encode ("\n".intercalate (hardMetrics.map Metric.render) ++ "\n"))).errors =
        [] :=
  parse_written hardMetrics hardMetrics_writable "\n" (Or.inr rfl)

end Log

end CiTelemetry
