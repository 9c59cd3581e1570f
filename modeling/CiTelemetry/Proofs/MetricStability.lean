/-
This file proves that what a log gives does not change any more when it is
written out and read again. Every metric that a line denotes is one that has a
line: its names were read from bytes of their classes, its label names were told
apart, its timestamp was kept within its range, and any text can be escaped.
Nothing is assumed of the log that the metrics came from.
-/

import CiTelemetry.Proofs.MetricRoundTrip

namespace CiTelemetry

/-! ### Metrics that are the same up to what is not a number -/

/-- The same word, or two words that both store what is not a number. -/
def Binary64.Same (first second : Binary64) : Prop :=
  first = second ∨ first.isNaN = true ∧ second.isNaN = true

/-- Metrics that differ at most in the words that store what is not a number. -/
structure Metric.Same (first second : Metric) : Prop where
  name : first.name = second.name
  labels : first.labels = second.labels
  value : first.value.Same second.value
  timestamp : first.timestamp = second.timestamp

theorem Binary64.same_reread (number : Binary64) : number.Same number.reread := by
  unfold reread
  split
  · next isNaN => exact .inr ⟨isNaN, by decide⟩
  · exact .inl rfl

theorem Metric.same_reread (metric : Metric) : metric.Same metric.reread :=
  ⟨rfl, rfl, metric.value.same_reread, rfl⟩

namespace MetricLine

/-! ### What a line denotes has a line -/

/-- Bytes of ASCII are the bytes of their text. -/
theorem encode_asciiText {bytes : Bytes} (ascii : ∀ byte ∈ bytes, ¬ 0x80 ≤ byte) :
    Utf8.encode (asciiText bytes) = bytes := by
  rw [asciiText, Utf8.encode_ofList, Utf8.encodeChars]
  induction bytes with
  | nil => rfl
  | cons byte others inductionHypothesis =>
    obtain ⟨head, tail⟩ := List.forall_mem_cons.mp ascii
    have small : byte.toNat < 0x80 := by
      rw [UInt8.le_iff_toNat_le] at head
      exact Nat.lt_of_not_le head
    have number : (Char.ofNat byte.toNat).toNat = byte.toNat := by
      have valid : byte.toNat.isValidChar := .inl (by omega)
      rw [Char.ofNat, dif_pos valid]
      rfl
    rw [List.map_cons, List.flatMap_cons, inductionHypothesis tail,
      Utf8.encodeChar_ascii (number.symm ▸ small), number, UInt8.ofNat_toNat]
    rfl

theorem IsLabel.isWord {written : Bytes} {pair : String × String} (isLabel : IsLabel written pair) :
    IsWord isLabelStart isLabelByte (Utf8.encode pair.1) := by
  cases isLabel with
  | intro word _ _ _ _ =>
    have run := word.isRun fun _ => isLabelByte_of_isLabelStart
    rw [encode_asciiText fun byte member =>
      ascii_of_isNameByte (isNameByte_of_isLabelByte (run byte member))]
    exact word

theorem AreLabels.isWord {written : Bytes} {pairs : List (String × String)}
    (items : AreLabels written pairs) :
    ∀ pair ∈ pairs, IsWord isLabelStart isLabelByte (Utf8.encode pair.1) := by
  induction items with
  | one _ isLabel _ => exact List.forall_mem_singleton.mpr isLabel.isWord
  | trailing _ isLabel _ _ => exact List.forall_mem_singleton.mpr isLabel.isWord
  | more _ isLabel _ _ inductionHypothesis =>
    exact List.forall_mem_cons.mpr ⟨isLabel.isWord, inductionHypothesis⟩

theorem IsLabelPart.isWord {labelPart : Bytes} {labels : List (String × String)}
    (labelled : IsLabelPart labelPart labels) :
    ∀ label ∈ labels, IsWord isLabelStart isLabelByte (Utf8.encode label.1) := by
  cases labelled with
  | absent => exact List.forall_mem_nil _
  | block _ inside _ =>
    cases inside with
    | blank => exact List.forall_mem_nil _
    | labels items => exact items.isWord

theorem IsLabelPart.nodup {labelPart : Bytes} {labels : List (String × String)}
    (labelled : IsLabelPart labelPart labels) : (labels.map (·.1)).Nodup := by
  cases labelled with
  | absent => exact List.nodup_nil
  | block _ _ distinct => exact distinct

/-- A whole number that was read fits its word. -/
theorem fits_of_integer64? {text : List Char} {time : Int} (reads : integer64? text = some time) :
    fitsSigned64 time = true :=
  (Option.filter_eq_some_iff.mp reads).2

theorem IsTimestampPart.fits {timestampPart : Bytes} {timestamp : Option Int}
    (timed : IsTimestampPart timestampPart timestamp) :
    ∀ time ∈ timestamp, fitsSigned64 time = true := by
  cases timed with
  | absent => exact nofun
  | present _ _ _ reads =>
    rintro _ ⟨⟩
    exact fits_of_integer64? reads

/-- Every metric that a line denotes has a line, also where the line it was read from is written
differently. -/
theorem IsLine.isExpressible {line : Bytes} {metric : Metric} (isLine : IsLine line metric) :
    metric.IsExpressible := by
  cases isLine with
  | intro word labelled _ _ timed _ _ =>
    refine ⟨?_, labelled.isWord, labelled.nodup, timed.fits⟩
    have run := word.isRun fun _ => isNameByte_of_isNameStart
    rw [encode_asciiText fun byte member => ascii_of_isNameByte (run byte member)]
    exact word

end MetricLine

namespace Log

open MetricLine (newline)

/-! ### Whole logs -/

/-- The newline of a line is its last byte. -/
theorem newline_notMem_dropLast_of_mem_lines {log line : Bytes} (member : line ∈ lines log) :
    newline ∉ line.dropLast := by
  induction log using byLines with
  | last text clean =>
    by_cases present : text = []
    · rw [present, lines_nil] at member
      cases member
    · rw [lines_clean clean present, List.mem_singleton] at member
      rw [member]
      exact fun inside => clean (List.dropLast_subset _ inside)
  | line text rest clean inductionHypothesis =>
    rw [lines_append clean, List.mem_cons] at member
    rcases member with rfl | later
    · rw [List.dropLast_concat]
      exact clean
    · exact inductionHypothesis later

/-- Every metric that a log gives was read from a line of the grammar. -/
theorem exists_isLine_of_mem_metrics {log : Bytes} {metric : Metric}
    (member : metric ∈ (parse log).metrics) : ∃ line, MetricLine.IsLine line metric := by
  obtain ⟨line, inside, sampled⟩ := List.mem_filterMap.mp member
  obtain ⟨body, rfl, read⟩ := sample?_eq_some_iff.mp sampled
  have single := newline_notMem_dropLast_of_mem_lines inside
  refine ⟨body, (MetricLine.ofLine?_eq_ok_iff body (fun early => single ?_) metric).mp read⟩
  rw [List.dropLast_append_of_ne_nil (List.ne_nil_of_mem (List.dropLast_subset _ early))]
  exact List.mem_append_right _ early

/-- What a log gives, written out one line each, is read again as what it was, and without an
error. -/
theorem parse_rewritten (log : Bytes) (lineEnd : String) (ended : lineEnd = "" ∨ lineEnd = "\n") :
    (∀ metric ∈ (parse log).metrics, metric.IsExpressible ∧ ∀ label ∈ metric.labels,
      MetricLine.Escapes (Utf8.encode (Metric.escape label.2)) (Utf8.encode label.2)) ∧
    List.Forall₂ Metric.Same (parse log).metrics
      (parse (Utf8.encode ("\n".intercalate ((parse log).metrics.map Metric.render) ++
        lineEnd))).metrics ∧
    (parse (Utf8.encode ("\n".intercalate ((parse log).metrics.map Metric.render) ++
      lineEnd))).errors = [] := by
  have expressible : ∀ metric ∈ (parse log).metrics, metric.IsExpressible := by
    intro metric member
    obtain ⟨_, isLine⟩ := exists_isLine_of_mem_metrics member
    exact isLine.isExpressible
  obtain ⟨samples, faults⟩ := reads_expressible _ expressible ended 1
  refine ⟨fun metric member => ⟨expressible metric member, fun label _ =>
    MetricLine.escapes_escape label.2⟩, ?_, faults⟩
  have reread : (parse (written (parse log).metrics lineEnd)).metrics =
      (parse log).metrics.map Metric.reread := samples
  rw [written] at reread
  rw [reread, List.forall₂_map_right_iff]
  exact List.forall₂_same.mpr fun metric _ => metric.same_reread

/-- Lines with what a reader has to let pass: raw control bytes and letters beyond ASCII in a label
value, a trailing comma, a sign before what is not a number, and a value beyond every finite one.
Between them stand a line without a name and one that is no text. -/
def strangeLog : Bytes :=
  Utf8.encode "METRIC_a\x7bx=\"\r\tü\\n\\\"\", y = \"\",\x7d -nan +5\r\nMETRIC_9\nMETRIC_b\x7bc=\"" ++
    0xFF :: Utf8.encode "\"\x7d 1\nMETRIC_:c 1e400"

theorem parse_rewritten_strangeLog :
    (parse strangeLog).metrics =
        [⟨"a", [("x", "\r\tü\n\""), ("y", "")], ⟨0xFFF8000000000000⟩, some 5⟩,
          ⟨":c", [], Binary64.infinity, none⟩] ∧
      List.Forall₂ Metric.Same (parse strangeLog).metrics
        (parse (Utf8.encode ("\n".intercalate ((parse strangeLog).metrics.map Metric.render) ++
          "\n"))).metrics ∧
      (parse (Utf8.encode ("\n".intercalate ((parse strangeLog).metrics.map Metric.render) ++
        "\n"))).errors = [] :=
  ⟨by decide +kernel, (parse_rewritten strangeLog "\n" (.inr rfl)).2⟩

end Log

end CiTelemetry
