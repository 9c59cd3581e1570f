/-
This file proves what the beginning of a metric line tells about the whole line.
What a reader comes to with some of the bytes at hand stands however the bytes
go on, unless it has run out of them, and then the line counts as cut short.
Only a name, blanks and a number are taken to end where the bytes end.
-/

import CiTelemetry.Proofs.LineIndependence

namespace CiTelemetry

namespace MetricLine

/-! ### Readings of bytes that go on -/

/-- How what is read from some bytes relates to what is read when the bytes go on. A refusal and a
value stand; only a truncation is still open. -/
inductive Extends {α : Type} (further : α → α) : Except LineFault α → Except LineFault α → Prop
  | truncated (after : Except LineFault α) : Extends further (.error .truncated) after
  | refused (fault : LineFault) : Extends further (.error fault) (.error fault)
  | goesOn (value : α) : Extends further (.ok value) (.ok (further value))

/-- A value with bytes after it, and with further bytes behind those. -/
def behind {α : Type} (more : Bytes) (pair : α × Bytes) : α × Bytes :=
  (pair.1, pair.2 ++ more)

namespace Extends

variable {α β : Type} {further : α → α} {further' : β → β} {before after : Except LineFault α}

/-- Readers one after the other, each of which stands by what it read. -/
theorem bind (first : Extends further before after) {next : α → Except LineFault β}
    (second : ∀ value, before = .ok value →
      Extends further' (next value) (next (further value))) :
    Extends further' (before >>= next) (after >>= next) := by
  cases first with
  | truncated => exact .truncated _
  | refused fault => exact .refused fault
  | goesOn value => exact second value rfl

theorem map (first : Extends further before after) {change : α → β}
    (commutes : ∀ value, change (further value) = further' (change value)) :
    Extends further' (before.map change) (after.map change) := by
  cases first with
  | truncated => exact .truncated _
  | refused fault => exact .refused fault
  | goesOn value =>
    show Extends further' (.ok (change value)) (.ok (change (further value)))
    rw [commutes]
    exact .goesOn _

end Extends

variable {input : Bytes} (more : Bytes)

/-- A longest run that ends before the bytes do is the same when they go on. -/
theorem run_append {test : UInt8 → Bool} (ends : input.dropWhile test ≠ []) :
    (input ++ more).dropWhile test = input.dropWhile test ++ more ∧
      (input ++ more).takeWhile test = input.takeWhile test := by
  have run := isRun_takeWhile test input
  have stops : Stops test (input.dropWhile test ++ more) :=
    Stops.append (stops_dropWhile test input) fun empty => absurd empty ends
  have whole : input ++ more = input.takeWhile test ++ (input.dropWhile test ++ more) := by
    rw [← List.append_assoc, List.takeWhile_append_dropWhile]
  rw [whole]
  exact ⟨dropWhile_run_append run stops, takeWhile_run_append run stops⟩

/-- Blanks that end before the bytes do are the same when they go on. -/
theorem skipBlanks_append_more {next : UInt8} {rest : Bytes}
    (found : skipBlanks input = next :: rest) :
    skipBlanks (input ++ more) = next :: (rest ++ more) := by
  have ends : input.dropWhile isBlank ≠ [] := by
    rw [show input.dropWhile isBlank = next :: rest from found]
    exact List.cons_ne_nil _ _
  exact (run_append more ends).1.trans (congrArg (· ++ more) found)

/-! ### The parts of a line -/

/-- A name stands unless it reaches the end of the bytes. -/
theorem metricName_extends (input : Bytes) :
    Extends (behind more) (metricName input) (metricName (input ++ more)) ∨
      ∃ name, metricName input = .ok (name, []) := by
  cases input with
  | nil => exact .inl (.truncated _)
  | cons first others =>
    rw [List.cons_append, metricName, metricName, ← List.cons_append]
    split
    · by_cases ends : (first :: others).dropWhile isNameByte = []
      · rw [ends]
        exact .inr ⟨_, rfl⟩
      · obtain ⟨left, taken⟩ := run_append more ends
        rw [left, taken]
        exact .inl (.goesOn (_, (first :: others).dropWhile isNameByte))
    · exact .inl (.refused _)

/-- What follows a name stands unless blanks alone do. -/
theorem blockOpening_extends (input : Bytes) :
    Extends (behind more) (blockOpening input) (blockOpening (input ++ more)) ∨
      blockOpening input = .ok (false, []) := by
  cases input with
  | nil => exact .inl (.truncated _)
  | cons next rest =>
    rw [List.cons_append, blockOpening, blockOpening]
    split
    · exact .inl (.goesOn (true, rest))
    · split
      · cases found : skipBlanks (next :: rest) with
        | nil => exact .inr rfl
        | cons first others =>
          rw [← List.cons_append, skipBlanks_append_more more found]
          dsimp only
          split
          · exact .inl (.goesOn (true, others))
          · exact .inl (.goesOn (false, first :: others))
      · split <;> exact .inl (.refused _)

theorem expect_extends (byte : UInt8) (mark : LabelMark) (input : Bytes) :
    Extends (· ++ more) (expect byte mark input) (expect byte mark (input ++ more)) := by
  rw [expect, expect]
  cases found : skipBlanks input with
  | nil => exact .truncated _
  | cons next rest =>
    rw [skipBlanks_append_more more found]
    dsimp only
    split
    · exact .goesOn rest
    · exact .refused _

theorem quoted_extends (input : Bytes) :
    Extends (behind more) (quoted input) (quoted (input ++ more)) := by
  fun_induction quoted input with
  | case1 => exact .truncated _
  | case2 rest =>
    rw [List.cons_append, quoted.eq_def (newline :: _)]
    exact .refused .newlineInLabelValue
  | case3 rest =>
    rw [List.cons_append, quoted.eq_def (quote :: _)]
    exact .goesOn ([], rest)
  | case4 => exact .truncated _
  | case5 escaped after known _ _ inductionHypothesis =>
    rw [List.cons_append, List.cons_append, quoted, if_neg (by decide), if_neg (by decide),
      if_pos rfl, if_pos known]
    exact inductionHypothesis.map fun _ => rfl
  | case6 after _ _ other inductionHypothesis =>
    rw [List.cons_append, List.cons_append, quoted, if_neg (by decide), if_neg (by decide),
      if_pos rfl, if_neg other, if_pos rfl]
    exact inductionHypothesis.map fun _ => rfl
  | case7 escaped after known other _ _ =>
    rw [List.cons_append, List.cons_append, quoted, if_neg (by decide), if_neg (by decide),
      if_pos rfl, if_neg known, if_neg other]
    exact .refused _
  | case8 byte rest notNewline notQuote notBackslash inductionHypothesis =>
    rw [List.cons_append, quoted.eq_def (byte :: _)]
    simp only [if_neg notNewline, if_neg notQuote, if_neg notBackslash]
    exact inductionHypothesis.map fun _ => rfl

/-- A label after its name, as its readers one after the other. -/
def labelValue (name : String) (afterName : Bytes) :
    Except LineFault ((String × String) × Bytes) := do
  let afterEquals ← expect equalsSign .equalsSign afterName
  let afterQuote ← expect quote .openingQuote afterEquals
  let written ← quoted afterQuote
  match Utf8.decode? written.1 with
  | some value => .ok ((name, value), written.2)
  | none => .error .invalidUtf8

theorem label_cons (first : UInt8) (others : Bytes) :
    label (first :: others) =
      if first = newline then .error .unterminatedLabels
      else if !isLabelStart first then .error .invalidLabelName
      else labelValue (asciiText ((first :: others).takeWhile isLabelByte))
        ((first :: others).dropWhile isLabelByte) := by
  rw [label, labelValue]
  split
  · rfl
  · split
    · rfl
    · split
      · next failed => rw [failed]; rfl
      · next afterEquals equalsRead =>
        rw [equalsRead]
        show _ = Except.bind (expect quote .openingQuote afterEquals) _
        split
        · next failed => rw [failed]; rfl
        · next afterQuote quoteRead =>
          rw [quoteRead]
          show _ = Except.bind (quoted afterQuote) _
          split
          · next failed => rw [failed]; rfl
          · next valueRead => rw [valueRead]; rfl

theorem labelValue_extends (name : String) (afterName : Bytes) :
    Extends (behind more) (labelValue name afterName) (labelValue name (afterName ++ more)) := by
  unfold labelValue
  refine (expect_extends more _ _ afterName).bind fun afterEquals _ => ?_
  refine (expect_extends more _ _ afterEquals).bind fun afterQuote _ => ?_
  refine (quoted_extends more afterQuote).bind fun (bytes, rest) _ => ?_
  unfold behind
  dsimp only
  cases Utf8.decode? bytes with
  | some value => exact .goesOn ((name, value), rest)
  | none => exact .refused _

theorem label_extends (input : Bytes) :
    Extends (behind more) (label input) (label (input ++ more)) := by
  cases input with
  | nil => exact .truncated _
  | cons first others =>
    rw [List.cons_append, label_cons, label_cons, ← List.cons_append]
    split
    · exact .refused _
    · split
      · exact .refused _
      · by_cases ends : (first :: others).dropWhile isLabelByte = []
        · rw [ends]
          exact .truncated _
        · obtain ⟨left, taken⟩ := run_append more ends
          rw [left, taken]
          exact labelValue_extends more _ _

/-- How a block goes on after a label. -/
def afterLabel (labels : List (String × String)) (label : String × String) (input : Bytes) :
    Except LineFault (List (String × String) × Bytes) :=
  if labels.any (·.1 = label.1) then .error (.duplicateLabel label.1)
  else
    match skipBlanks input with
    | [] => .error .truncated
    | mark :: rest =>
      if mark = comma then labelBlock (labels ++ [label]) rest
      else if mark = closeBrace then .ok (labels ++ [label], rest)
      else if mark = newline then .error .unterminatedLabels
      else .error (.expected .commaOrBrace)

theorem labelBlock_eq (labels : List (String × String)) (input : Bytes) :
    labelBlock labels input = match skipBlanks input with
      | [] => .error .truncated
      | next :: rest =>
        if next = closeBrace then .ok (labels, rest)
        else Except.bind (label (next :: rest)) fun read => afterLabel labels read.1 read.2 := by
  rw [labelBlock]
  split
  · next found => rw [found]
  · next next rest found =>
    rw [found]
    dsimp only
    split
    · rfl
    · split
      · next failed => rw [failed]; rfl
      · next name value rest read =>
        rw [read]
        show _ = afterLabel labels (name, value) rest
        rw [afterLabel]
        split
        · rfl
        · split
          · next skipped => rw [skipped]
          · next skipped => rw [skipped]

theorem labelBlock_extends (labels : List (String × String)) (input : Bytes) :
    Extends (behind more) (labelBlock labels input) (labelBlock labels (input ++ more)) := by
  rw [labelBlock_eq, labelBlock_eq labels (input ++ more)]
  cases found : skipBlanks input with
  | nil => exact .truncated _
  | cons next rest =>
    rw [skipBlanks_append_more more found]
    dsimp only
    split
    · exact .goesOn (labels, rest)
    · refine (label_extends more (next :: rest)).bind fun (pair, rest') read => ?_
      rw [behind]
      unfold afterLabel
      dsimp only
      split
      · exact .refused _
      · cases foundAfter : skipBlanks rest' with
        | nil => exact .truncated _
        | cons mark others =>
          rw [skipBlanks_append_more more foundAfter]
          dsimp only
          split
          · exact labelBlock_extends (labels ++ [pair]) others
          · split
            · exact .goesOn (labels ++ [pair], others)
            · split <;> exact .refused _
termination_by input.length
decreasing_by
  have beforeLabel := dropWhile_length isBlank input
  have consumed := label_length read
  have beforeMark := dropWhile_length isBlank rest'
  unfold skipBlanks at found foundAfter
  rw [found] at beforeLabel
  rw [foundAfter] at beforeMark
  simp only [List.length_cons] at beforeLabel beforeMark consumed
  omega

/-! ### The line before its value -/

/-- The labels of a line from where its block opens, or none without a block. -/
def labelsFrom (opening : Bool × Bytes) : Except LineFault (List (String × String) × Bytes) :=
  if opening.1 then labelBlock [] opening.2 else .ok ([], opening.2)

/-- The name and the labels of a line, with the bytes after them. -/
def lineHead (line : Bytes) : Except LineFault ((String × List (String × String)) × Bytes) := do
  let named ← metricName line
  let opening ← blockOpening named.2
  let labelled ← labelsFrom opening
  pure ((named.1, labelled.1), labelled.2)

/-- The rest of a line whose name and labels are known. -/
def lineTail (head : String × List (String × String)) (afterLabels : Bytes) :
    Except LineFault Metric := do
  let valued ← value afterLabels
  let time ← timestamp valued.2
  pure ⟨head.1, head.2, valued.1, time⟩

theorem ofLine?_eq (line : Bytes) :
    Metric.ofLine? line = lineHead line >>= fun head => lineTail head.1 head.2 := by
  unfold Metric.ofLine? lineHead lineTail labelsFrom
  simp only [bind_assoc, pure_bind]
  refine bind_congr fun named => bind_congr fun opening => ?_
  split <;> rfl

/-- What comes of readers one after the other comes of each of them. -/
theorem ok_bind_iff {α β : Type} {first : Except LineFault α} {next : α → Except LineFault β}
    {value : β} :
    first >>= next = .ok value ↔ ∃ middle, first = .ok middle ∧ next middle = .ok value := by
  cases first with
  | error fault =>
    constructor
    · intro read
      cases read
    · rintro ⟨_, impossible, _⟩
      cases impossible
  | ok middle =>
    constructor
    · intro read
      exact ⟨middle, rfl, read⟩
    · rintro ⟨_, ⟨⟩, read⟩
      exact read

theorem lineHead_ok_iff {line rest : Bytes} {head : String × List (String × String)} :
    lineHead line = .ok (head, rest) ↔
      ∃ afterName, metricName line = .ok (head.1, afterName) ∧
        ReadsLabels afterName head.2 rest := by
  unfold lineHead ReadsLabels
  simp only [ok_bind_iff]
  constructor
  · rintro ⟨⟨name, afterName⟩, nameRead, ⟨opens, inside⟩, openingRead, labelled, labelsRead, ⟨⟩⟩
    refine ⟨afterName, nameRead, ?_⟩
    cases opens with
    | true => exact .inl ⟨inside, openingRead, labelsRead⟩
    | false =>
      cases labelsRead
      exact .inr ⟨openingRead, rfl⟩
  · rintro ⟨afterName, nameRead, ⟨inside, openingRead, labelsRead⟩ | ⟨openingRead, noLabels⟩⟩
    · exact ⟨_, nameRead, _, openingRead, _, labelsRead, rfl⟩
    · refine ⟨_, nameRead, _, openingRead, _, rfl, ?_⟩
      rw [← noLabels]
      rfl

/-- The head of a line stands unless it reaches the end of the bytes. -/
theorem lineHead_extends (line : Bytes) :
    Extends (behind more) (lineHead line) (lineHead (line ++ more)) ∨
      ∃ head, lineHead line = .ok (head, []) := by
  unfold lineHead
  rcases metricName_extends more line with named | ⟨name, named⟩
  · by_cases blank : ∃ name afterName, metricName line = .ok (name, afterName) ∧
      blockOpening afterName = .ok (false, [])
    · obtain ⟨name, afterName, nameRead, openingRead⟩ := blank
      refine .inr ⟨(name, []), ?_⟩
      simp only [nameRead, bind, Except.bind, openingRead]
      rfl
    · refine .inl (named.bind fun (name, afterName) nameRead => ?_)
      rcases blockOpening_extends more afterName with opening | blanks
      · refine opening.bind fun (opens, inside) _ => ?_
        have labelled : Extends (behind more) (labelsFrom (opens, inside))
            (labelsFrom (opens, inside ++ more)) := by
          cases opens with
          | true => exact labelBlock_extends more [] inside
          | false => exact .goesOn ([], inside)
        exact labelled.bind fun read _ => .goesOn ((name, read.1), read.2)
      · exact absurd ⟨name, afterName, nameRead, blanks⟩ blank
  · rw [named]
    exact .inl (.truncated _)

/-! ### Numbers at the end of the bytes -/

/-- The time that a token denotes. -/
def time? (token : Bytes) : Option Int :=
  (Utf8.decode? token).bind fun word => integer64? word.toList

theorem isValue_iff {token : Bytes} (present : token ≠ []) (run : IsRun isTokenByte token)
    (number : Binary64) : IsValue token number ↔ number? token = some number := by
  rw [number?_eq_some_iff]
  constructor
  · rintro ⟨allowed, text, isToken, reads⟩
    exact ⟨allowed, text, isToken.2.2, reads⟩
  · rintro ⟨allowed, text, decoded, reads⟩
    exact ⟨allowed, text, ⟨present, run, decoded⟩, reads⟩

variable {gap token rest : Bytes}

/-- Bytes of a token do not begin with a blank. -/
theorem stops_of_token (present : token ≠ []) (run : IsRun isTokenByte token) (rest : Bytes) :
    Stops isBlank (token ++ rest) :=
  Stops.append (run.stops fun _ => isBlank_of_isTokenByte) fun empty => absurd empty present

/-- What is read where a value should stand and its token is known. -/
theorem value_token (blanks : IsRun isBlank gap) (present : token ≠ [])
    (run : IsRun isTokenByte token) (stops : Stops isTokenByte rest) :
    value (gap ++ (token ++ rest)) = match number? token with
      | some number => .ok (number, rest)
      | none => .error (.invalidValue (Utf8.decodeLenient token)) := by
  have notEmpty : token.isEmpty = false := List.isEmpty_eq_false_iff.mpr present
  cases known : number? token <;>
    simp only [value, skipBlanks_append blanks (stops_of_token present run rest),
      takeWhile_run_append run stops, dropWhile_run_append run stops, notEmpty,
      Bool.false_eq_true, if_false, known]

theorem timestamp_token (blanks : IsRun isBlank gap) (present : token ≠ [])
    (run : IsRun isTokenByte token) (stops : Stops isTokenByte rest) :
    timestamp (gap ++ (token ++ rest)) = match time? token with
      | none => .error (.invalidTimestamp (Utf8.decodeLenient token))
      | some time =>
        if isOver (skipBlanks rest) then .ok (some time) else .error .trailingCharacters := by
  have notOver : isOver (token ++ rest) = false := by
    cases token with
    | nil => exact absurd rfl present
    | cons first others =>
      refine beq_eq_false_iff_ne.mpr ?_
      rintro rfl
      cases run newline List.mem_cons_self
  simp only [timestamp, skipBlanks_append blanks (stops_of_token present run rest), notOver,
    takeWhile_run_append run stops, dropWhile_run_append run stops, Bool.false_eq_true, if_false]
  rfl

/-- A value stands unless its token reaches the end of the bytes. -/
theorem value_extends (input : Bytes) :
    Extends (behind more) (value input) (value (input ++ more)) ∨
      ∃ gap token, IsRun isBlank gap ∧ token ≠ [] ∧ IsRun isTokenByte token ∧
        input = gap ++ token := by
  cases found : skipBlanks input with
  | nil =>
    refine .inl ?_
    have read : value input = .error .truncated := by
      simp only [value, found]
      rfl
    rw [read]
    exact .truncated _
  | cons first others =>
    by_cases ends : (first :: others).dropWhile isTokenByte = []
    · obtain ⟨gap, blanks, equal, _⟩ := skipBlanks_eq found
      have run := isRun_takeWhile isTokenByte (first :: others)
      have whole := List.takeWhile_append_dropWhile (p := isTokenByte) (l := first :: others)
      rw [ends, List.append_nil] at whole
      rw [whole] at run
      exact .inr ⟨gap, first :: others, blanks, List.cons_ne_nil _ _, run, equal⟩
    · obtain ⟨left, taken⟩ := run_append more ends
      refine .inl ?_
      simp only [value, found, skipBlanks_append_more more found]
      rw [← List.cons_append, left, taken]
      split
      · have goesOn : ((first :: others).dropWhile isTokenByte ++ more).isEmpty = false :=
          List.isEmpty_eq_false_iff.mpr (List.append_ne_nil_of_left_ne_nil ends more)
        rw [List.isEmpty_eq_false_iff.mpr ends, goesOn]
        exact .refused _
      · split
        · next number _ => exact .goesOn (number, (first :: others).dropWhile isTokenByte)
        · exact .refused _

/-- A timestamp is no fault or it stands, unless its token reaches the end of the bytes. -/
theorem timestamp_extends (stops : Stops isTokenByte input) :
    (∃ time, timestamp input = .ok time) ∨ timestamp (input ++ more) = timestamp input ∨
      ∃ gap token, gap ≠ [] ∧ IsRun isBlank gap ∧ token ≠ [] ∧ IsRun isTokenByte token ∧
        input = gap ++ token := by
  obtain ⟨gap, blanks, equal, gapStops⟩ := skipBlanks_eq (rfl : skipBlanks input = _)
  by_cases isEnd : isOver (skipBlanks input) = true
  · refine .inl ⟨none, ?_⟩
    simp only [timestamp, isEnd, if_true]
  · obtain ⟨first, others, begins, inside⟩ := token_of_not_over isEnd gapStops
    rw [begins] at equal
    have whole := List.takeWhile_append_dropWhile (p := isTokenByte) (l := first :: others)
    have run := isRun_takeWhile isTokenByte (first :: others)
    have ends := stops_dropWhile isTokenByte (first :: others)
    have present : (first :: others).takeWhile isTokenByte ≠ [] := by
      rw [List.takeWhile_cons_of_pos inside]
      exact List.cons_ne_nil _ _
    rw [← whole] at equal
    generalize (first :: others).takeWhile isTokenByte = token at equal run present whole
    generalize (first :: others).dropWhile isTokenByte = rest at equal ends whole
    subst equal
    by_cases last : rest = []
    · subst last
      refine .inr (.inr ⟨gap, token, ?_, blanks, present, run, by rw [List.append_nil]⟩)
      rintro rfl
      rw [List.nil_append, whole] at stops
      rw [stops first rfl] at inside
      cases inside
    · have stopsOn : Stops isTokenByte (rest ++ more) :=
        Stops.append ends fun empty => absurd empty last
      simp only [List.append_assoc]
      rw [timestamp_token blanks present run ends, timestamp_token blanks present run stopsOn]
      cases time? token with
      | none => exact .inr (.inl rfl)
      | some time =>
        cases found : skipBlanks rest with
        | nil => exact .inl ⟨some time, rfl⟩
        | cons next after =>
          rw [skipBlanks_append_more more found]
          exact .inr (.inl rfl)

end MetricLine

end CiTelemetry
