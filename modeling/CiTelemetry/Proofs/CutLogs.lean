/-
This file proves what becomes of a log without faults when it is cut anywhere.
The readers of a metric line stand by what they read when the bytes go on, and
take the line for cut short when they run out of them; only a number is taken to
end where the bytes end. So the cut is a fault exactly where it leaves a part of
a number that is none.
-/

import CiTelemetry.Proofs.LineBeginnings

namespace CiTelemetry

namespace MetricLine

variable {gap token rest more : Bytes}

/-! ### Lines that are cut -/

/-- What follows the labels of a line that ends within a number: the bytes of its last token are
the beginning of a number and none themselves. -/
inductive BreaksOff : Bytes → LineFault → Prop
  | value {gap token missing : Bytes} {number : Binary64} (blanks : IsRun isBlank gap)
      (present : token ≠ []) (whole : IsValue (token ++ missing) number)
      (broken : number? token = none) :
      BreaksOff (gap ++ token) (.invalidValue (Utf8.decodeLenient token))
  | timestamp {gap token between last missing : Bytes} {number : Binary64} {text : String}
      {time : Int} (blanks : IsRun isBlank gap) (valued : IsValue token number)
      (apart : between ≠ []) (separated : IsRun isBlank between) (present : last ≠ [])
      (whole : IsToken (last ++ missing) text) (reads : integer64? text.toList = some time)
      (broken : time? last = none) :
      BreaksOff (gap ++ (token ++ (between ++ last)))
        (.invalidTimestamp (Utf8.decodeLenient last))

/-- A metric line after its mark that ends within a number. -/
inductive EndsWithinNumber : Bytes → LineFault → Prop
  | intro {name labelPart ending : Bytes} {labels : List (String × String)} {fault : LineFault}
      (word : IsWord isNameStart isNameByte name) (labelled : IsLabelPart labelPart labels)
      (breaksOff : BreaksOff ending fault) :
      EndsWithinNumber (name ++ (labelPart ++ ending)) fault

/-- The bytes of a token that goes on, up to where it ends. -/
theorem exists_token_append (run : IsRun isTokenByte token) (more : Bytes) :
    ∃ missing after, more = missing ++ after ∧ IsRun isTokenByte (token ++ missing) ∧
      Stops isTokenByte after :=
  ⟨more.takeWhile isTokenByte, more.dropWhile isTokenByte,
    List.takeWhile_append_dropWhile.symm, run.append (isRun_takeWhile isTokenByte more),
    stops_dropWhile isTokenByte more⟩

theorem IsToken.of_time? {time : Int} (present : token ≠ []) (run : IsRun isTokenByte token)
    (reads : time? token = some time) :
    ∃ text, IsToken token text ∧ integer64? text.toList = some time := by
  obtain ⟨text, decoded, read⟩ := Option.bind_eq_some_iff.mp reads
  exact ⟨text, ⟨present, run, decoded⟩, read⟩

section Tail

variable {head : String × List (String × String)} {fault : LineFault}

theorem lineTail_of_value {number : Binary64} {afterValue : Bytes}
    (read : value rest = .ok (number, afterValue)) :
    lineTail head rest = .error fault ↔ timestamp afterValue = .error fault := by
  rw [lineTail, read]
  show Except.bind (timestamp afterValue) _ = _ ↔ _
  cases timestamp afterValue with
  | error other =>
    show Except.error other = Except.error fault ↔ _
    rw [Except.error.injEq, Except.error.injEq]
  | ok time => exact ⟨nofun, nofun⟩

theorem lineTail_of_no_value (read : value rest = .error fault) :
    lineTail head rest = .error fault := by
  rw [lineTail, read]
  rfl

theorem lineTail_nil : lineTail head [] = .error .truncated :=
  lineTail_of_no_value rfl

/-- A token that goes on to be a value, where bytes that begin with it are no fault. -/
theorem exists_isValue_of_valid (blanks : IsRun isBlank gap) (present : token ≠ [])
    (run : IsRun isTokenByte token)
    (valid : ∀ fault, lineTail head (gap ++ token ++ more) = .error fault → fault = .truncated) :
    ∃ missing number, IsValue (token ++ missing) number := by
  obtain ⟨missing, after, rfl, longer, stops⟩ := exists_token_append run more
  have nonempty := List.append_ne_nil_of_left_ne_nil present missing
  have read := value_token blanks nonempty longer stops
  cases found : number? (token ++ missing) with
  | some number => exact ⟨missing, number, (isValue_iff nonempty longer number).mpr found⟩
  | none =>
    rw [found] at read
    simp only [List.append_assoc] at read valid
    cases valid _ (lineTail_of_no_value read)

/-- A token that goes on to be a timestamp, where bytes that begin with it are no fault. -/
theorem exists_isToken_of_valid (blanks : IsRun isBlank gap) (present : token ≠ [])
    (run : IsRun isTokenByte token)
    (valid : ∀ fault, timestamp (gap ++ token ++ more) = .error fault → fault = .truncated) :
    ∃ missing text time, IsToken (token ++ missing) text ∧
      integer64? text.toList = some time := by
  obtain ⟨missing, after, rfl, longer, stops⟩ := exists_token_append run more
  have nonempty := List.append_ne_nil_of_left_ne_nil present missing
  have read := timestamp_token blanks nonempty longer stops
  cases found : time? (token ++ missing) with
  | some time =>
    obtain ⟨text, isToken, reads⟩ := IsToken.of_time? nonempty longer found
    exact ⟨missing, text, time, isToken, reads⟩
  | none =>
    rw [found] at read
    simp only [List.append_assoc] at read valid
    cases valid _ read

/-- Where a value was read, more bytes do not leave the line cut short. -/
theorem lineTail_append_ne_truncated {pair : Binary64 × Bytes} (read : value rest = .ok pair) :
    lineTail head (rest ++ more) ≠ .error .truncated := by
  refine bind_ne_truncated ?_ fun valued _ => bind_ne_truncated (timestamp_ne_truncated _) nofun
  rcases value_extends more rest with valued | ⟨gap, token, blanks, present, run, rfl⟩
  · rw [read] at valued
    generalize value (rest ++ more) = after at valued
    cases valued
    nofun
  · obtain ⟨missing, after, rfl, longer, stops⟩ := exists_token_append run more
    have nonempty := List.append_ne_nil_of_left_ne_nil present missing
    have longerRead := value_token blanks nonempty longer stops
    simp only [List.append_assoc] at longerRead ⊢
    rw [longerRead]
    split <;> nofun

theorem lineTail_ok {metric : Metric} (sampled : lineTail head rest = .ok metric) :
    metric.name = head.1 ∧ metric.labels = head.2 ∧ ∃ pair, value rest = .ok pair := by
  obtain ⟨valued, read, sampled⟩ := ok_bind_iff.mp sampled
  obtain ⟨time, _, ⟨⟩⟩ := ok_bind_iff.mp sampled
  exact ⟨rfl, rfl, valued, read⟩

/-- If the bytes after the labels are a fault and no longer one when they go on, they end within a
number. -/
theorem breaksOff_of_refused (refused : lineTail head rest = .error fault)
    (other : fault ≠ .truncated)
    (valid : ∀ fault, lineTail head (rest ++ more) = .error fault → fault = .truncated) :
    BreaksOff rest fault := by
  rcases value_extends more rest with valued | ⟨gap, token, blanks, present, run, rfl⟩
  · generalize valueRead : value rest = before at valued
    generalize longerRead : value (rest ++ more) = after at valued
    cases valued with
    | truncated =>
      rw [lineTail_of_no_value valueRead] at refused
      cases refused
      exact absurd rfl other
    | refused fault =>
      rw [lineTail_of_no_value valueRead] at refused
      cases refused
      exact absurd (valid fault (lineTail_of_no_value longerRead)) other
    | goesOn valued =>
      obtain ⟨number, afterValue⟩ := valued
      simp only [lineTail_of_value longerRead] at valid
      rw [lineTail_of_value valueRead] at refused
      obtain ⟨gap, token, blanks, isValue, stops, rfl⟩ := value_ok valueRead
      rcases timestamp_extends more stops with
        ⟨time, read⟩ | stands | ⟨between, last, apart, separated, present, run, rfl⟩
      · rw [refused] at read
        cases read
      · exact absurd (valid fault (stands.trans refused)) other
      · have read := timestamp_token separated present run (Stops.nil isTokenByte)
        rw [List.append_nil, refused] at read
        cases broken : time? last with
        | some time =>
          rw [broken] at read
          cases read
        | none =>
          rw [broken] at read
          cases read
          obtain ⟨missing, text, time, whole, reads⟩ :=
            exists_isToken_of_valid separated present run valid
          exact .timestamp blanks isValue apart separated present whole reads broken
  · have read := value_token blanks present run (Stops.nil isTokenByte)
    rw [List.append_nil] at read
    cases broken : number? token with
    | some number =>
      rw [broken] at read
      rw [lineTail_of_value read] at refused
      cases refused
    | none =>
      rw [broken] at read
      rw [lineTail_of_no_value read] at refused
      cases refused
      obtain ⟨missing, number, whole⟩ := exists_isValue_of_valid blanks present run valid
      exact .value blanks present whole broken

/-- Bytes that end within a number are a fault, whatever blanks stand before them. -/
theorem refused_of_breaksOff (breaksOff : BreaksOff rest fault) :
    ∃ gap following, rest = gap ++ following ∧ IsRun isBlank gap ∧ Stops isBlank following ∧
      (∀ byte ∈ following.head?, byte ≠ openBrace) ∧
      ∀ before head, IsRun isBlank before →
        lineTail head (before ++ following) = .error fault := by
  cases breaksOff with
  | @value gap token missing number blanks present whole broken =>
    obtain ⟨_, _, isToken, _⟩ := id whole
    have run : IsRun isTokenByte token := fun byte member =>
      isToken.2.1 byte (List.mem_append_left missing member)
    have noBlock := whole.head_ne_openBrace
    rw [List.head?_append_of_ne_nil token present] at noBlock
    have stops := stops_of_token present run []
    rw [List.append_nil] at stops
    refine ⟨gap, token, rfl, blanks, stops, noBlock, fun before head blanks => ?_⟩
    have read := value_token blanks present run (Stops.nil isTokenByte)
    rw [List.append_nil, broken] at read
    exact lineTail_of_no_value read
  | @timestamp gap token between last missing number text time blanks valued apart separated present
      whole reads broken =>
    obtain ⟨_, _, isToken, _⟩ := id valued
    have run : IsRun isTokenByte last := fun byte member =>
      whole.2.1 byte (List.mem_append_left missing member)
    have noBlock := valued.head_ne_openBrace
    rw [← List.head?_append_of_ne_nil token isToken.1] at noBlock
    refine ⟨gap, token ++ (between ++ last), rfl, blanks, isToken.stops_blank _, noBlock,
      fun before head blanks => ?_⟩
    have stops : Stops isTokenByte (between ++ last) :=
      Stops.append (separated.stops fun _ => isTokenByte_of_isBlank) fun empty =>
        absurd empty apart
    have read := timestamp_token separated present run (Stops.nil isTokenByte)
    rw [List.append_nil, broken] at read
    exact (lineTail_of_value (value_append blanks valued stops)).mpr read

end Tail

variable {line : Bytes} {fault : LineFault}

theorem ofLine?_of_head {head : String × List (String × String)}
    (read : lineHead line = .ok (head, rest)) : Metric.ofLine? line = lineTail head rest := by
  rw [ofLine?_eq, read]
  rfl

theorem ofLine?_of_no_head (read : lineHead line = .error fault) :
    Metric.ofLine? line = .error fault := by
  rw [ofLine?_eq, read]
  rfl

/-- A line that ends within a number is refused for that number. -/
theorem ofLine?_of_endsWithinNumber (ends : EndsWithinNumber line fault) :
    Metric.ofLine? line = .error fault := by
  cases ends with
  | @intro name labelPart ending labels _ word labelled breaksOff =>
    obtain ⟨gap, following, rfl, blanks, stops, noBlock, refused⟩ :=
      refused_of_breaksOff breaksOff
    obtain ⟨before, beforeBlanks, labelsRead⟩ :=
      readsLabels_append labelled blanks stops noBlock
    have nameRead := metricName_append word (labelled.stops (gap ++ following))
    have headRead : lineHead (name ++ (labelPart ++ (gap ++ following))) =
        .ok ((asciiText name, labels), before ++ following) :=
      lineHead_ok_iff.mpr ⟨_, nameRead, labelsRead⟩
    rw [ofLine?_of_head headRead]
    exact refused before _ beforeBlanks

/-- If a line is a fault and no longer one when it goes on, it ends within a number. -/
theorem endsWithinNumber_of_refused (refused : Metric.ofLine? line = .error fault)
    (other : fault ≠ .truncated)
    (valid : ∀ fault, Metric.ofLine? (line ++ more) = .error fault → fault = .truncated) :
    EndsWithinNumber line fault := by
  rcases lineHead_extends more line with extends' | ⟨head, read⟩
  · generalize headRead : lineHead line = before at extends'
    generalize longerRead : lineHead (line ++ more) = after at extends'
    cases extends' with
    | truncated =>
      rw [ofLine?_of_no_head headRead] at refused
      cases refused
      exact absurd rfl other
    | refused fault =>
      rw [ofLine?_of_no_head headRead] at refused
      cases refused
      exact absurd (valid fault (ofLine?_of_no_head longerRead)) other
    | goesOn pair =>
      obtain ⟨head, rest⟩ := pair
      rw [ofLine?_of_head headRead] at refused
      rw [ofLine?_of_head longerRead] at valid
      obtain ⟨afterName, nameRead, labelsRead⟩ := lineHead_ok_iff.mp headRead
      obtain ⟨word, isWord, rfl, _⟩ := metricName_ok nameRead
      obtain ⟨labelPart, labelled, rfl⟩ := readsLabels_ok labelsRead
      exact .intro isWord labelled (breaksOff_of_refused refused other valid)
  · rw [ofLine?_of_head read, lineTail_nil] at refused
    cases refused
    exact absurd rfl other

/-- A sample of a line that goes on without a fault has the name and the labels of the sample of
the whole line. -/
theorem same_head_of_ok {metric : Metric} (sampled : Metric.ofLine? line = .ok metric)
    (valid : ∀ fault, Metric.ofLine? (line ++ more) = .error fault → fault = .truncated) :
    ∃ whole, Metric.ofLine? (line ++ more) = .ok whole ∧ whole.name = metric.name ∧
      whole.labels = metric.labels := by
  rcases lineHead_extends more line with extends' | ⟨head, read⟩
  · generalize headRead : lineHead line = before at extends'
    generalize longerRead : lineHead (line ++ more) = after at extends'
    cases extends' with
    | truncated =>
      rw [ofLine?_of_no_head headRead] at sampled
      cases sampled
    | refused fault =>
      rw [ofLine?_of_no_head headRead] at sampled
      cases sampled
    | goesOn pair =>
      obtain ⟨head, rest⟩ := pair
      rw [ofLine?_of_head headRead] at sampled
      obtain ⟨named, labelled, valued, valueRead⟩ := lineTail_ok sampled
      rw [ofLine?_of_head longerRead] at valid ⊢
      cases whole : lineTail head (rest ++ more) with
      | error fault =>
        cases valid fault whole
        exact absurd whole (lineTail_append_ne_truncated valueRead)
      | ok other =>
        obtain ⟨otherNamed, otherLabelled, _⟩ := lineTail_ok whole
        exact ⟨other, rfl, otherNamed.trans named.symm, otherLabelled.trans labelled.symm⟩
  · rw [ofLine?_of_head read, lineTail_nil] at sampled
    cases sampled

end MetricLine

namespace Log

open MetricLine (newline)

/-! ### Logs that are cut -/

/-- The whole lines of a log and the bytes after the last newline. -/
theorem exists_whole_append (log : Bytes) :
    ∃ before rest, log = before ++ rest ∧ IsWhole before ∧ newline ∉ rest := by
  induction log using byLines with
  | last text clean => exact ⟨[], text, rfl, .inl rfl, clean⟩
  | line text log _ inductionHypothesis =>
    obtain ⟨before, rest, rfl, whole, clean⟩ := inductionHypothesis
    refine ⟨text ++ newline :: before, rest, ?_, ?_, clean⟩
    · rw [List.append_assoc, List.cons_append]
    · rcases whole with rfl | ends
      · exact .inr List.getLast?_concat
      · refine .inr ?_
        rw [List.append_cons, List.getLast?_append, ends]
        rfl

variable {rest more : Bytes}

/-- The line that bytes without a newline are the beginning of. -/
theorem exists_line_append (clean : newline ∉ rest) (more : Bytes) (present : rest ≠ []) :
    ∃ missing after, more = missing ++ after ∧ lines (rest ++ missing) = [rest ++ missing] ∧
      (IsWhole (rest ++ missing) ∨ after = []) := by
  by_cases member : newline ∈ more
  · obtain ⟨text, after, rfl, cleanText⟩ := List.eq_append_cons_of_mem member
    have cleanLine : newline ∉ rest ++ text := by
      rw [List.mem_append, not_or]
      exact ⟨clean, cleanText⟩
    refine ⟨text ++ [newline], after, List.append_cons text newline after, ?_, .inl (.inr ?_)⟩
    · rw [← List.append_assoc, lines_append cleanLine, lines_nil]
    · rw [← List.append_assoc]
      exact List.getLast?_concat
  · have cleanLine : newline ∉ rest ++ more := by
      rw [List.mem_append, not_or]
      exact ⟨clean, member⟩
    exact ⟨more, [], (List.append_nil more).symm,
      lines_clean cleanLine (List.append_ne_nil_of_left_ne_nil present more), .inr rfl⟩

/-- What a log gives that is a single line without its newline, or nothing. -/
theorem parse_last (clean : newline ∉ rest) :
    (parse rest).metrics = (sample? rest).toList ∧
      (parse rest).errors = (fault? rest).toList.map (⟨1, ·⟩) := by
  by_cases present : rest = []
  · subst present
    rw [parse, parseWith_nil]
    exact ⟨rfl, rfl⟩
  · exact parseWith_single .leaveOpen (lines_clean clean present)

/-- A metric line with its mark that ends within a number. -/
def EndsWithinNumber (line : Bytes) (fault : LineFault) : Prop :=
  ∃ body, line = Utf8.encode metricMark ++ body ∧ MetricLine.EndsWithinNumber body fault

/-- A sample of a line that was cut has the name and the labels of its metric. -/
def SameSeries (sample whole : Metric) : Prop :=
  whole.name = sample.name ∧ whole.labels = sample.labels

section Cut

variable {missing : Bytes} (valid : fault? (rest ++ missing) = none)

include valid

/-- How the bytes of a metric line go on without a fault. -/
theorem valid_of_fault? {body : Bytes} (marked : rest = Utf8.encode metricMark ++ body) :
    ∀ fault, Metric.ofLine? (body ++ missing) = .error fault → fault = .truncated := by
  intro fault refused
  by_contra other
  have found : fault? (rest ++ missing) = some fault :=
    fault?_eq_some_iff.mpr ⟨other, _, by rw [marked, List.append_assoc], refused⟩
  rw [valid] at found
  cases found

/-- A line that goes on without a fault is one exactly if it ends within a number. -/
theorem fault?_cut_iff (fault : LineFault) :
    fault? rest = some fault ↔ EndsWithinNumber rest fault := by
  rw [fault?_eq_some_iff]
  constructor
  · rintro ⟨other, body, marked, refused⟩
    exact ⟨body, marked, MetricLine.endsWithinNumber_of_refused refused other
      (valid_of_fault? valid marked)⟩
  · rintro ⟨body, marked, ends⟩
    refine ⟨?_, body, marked, MetricLine.ofLine?_of_endsWithinNumber ends⟩
    cases ends with
    | intro _ _ breaksOff => cases breaksOff <;> nofun

theorem sample?_cut :
    ∃ wholes, List.Forall₂ SameSeries (sample? rest).toList wholes ∧
      wholes <+: (sample? (rest ++ missing)).toList := by
  cases sampled : sample? rest with
  | none => exact ⟨[], .nil, List.nil_prefix⟩
  | some sample =>
    obtain ⟨body, marked, read⟩ := sample?_eq_some_iff.mp sampled
    obtain ⟨whole, wholeRead, same⟩ :=
      MetricLine.same_head_of_ok read (valid_of_fault? valid marked)
    have found : sample? (rest ++ missing) = some whole :=
      sample?_eq_some_iff.mpr ⟨_, by rw [marked, List.append_assoc], wholeRead⟩
    rw [found]
    exact ⟨[whole], .cons same .nil, List.prefix_rfl⟩

end Cut

/-- The line of a log without faults that bytes without a newline are the beginning of. -/
theorem exists_valid_line (clean : newline ∉ rest) (valid : (parse (rest ++ more)).errors = []) :
    ∃ missing, fault? (rest ++ missing) = none ∧
      (sample? (rest ++ missing)).toList <+: (parse (rest ++ more)).metrics := by
  by_cases present : rest = []
  · subst present
    exact ⟨[], rfl, List.nil_prefix⟩
  · obtain ⟨missing, after, rfl, single, ended⟩ := exists_line_append clean more present
    obtain ⟨samples, faults⟩ := parseWith_line .leaveOpen single ended
    rw [parse, ← List.append_assoc, faults, List.append_eq_nil_iff, List.map_eq_nil_iff,
      Option.toList_eq_nil_iff] at valid
    refine ⟨missing, valid.1, ?_⟩
    rw [parse, ← List.append_assoc, samples]
    exact List.prefix_append _ _

/-- What a log gives that is cut at a length, as its whole lines and the beginning of the line that
was cut. -/
structure IsCut (log : Bytes) (length : Nat) (before rest : Bytes) : Prop where
  parts : log.take length = before ++ rest
  whole : IsWhole before
  clean : newline ∉ rest
  metrics : (parse (log.take length)).metrics = (parse before).metrics ++ (sample? rest).toList
  /-- The samples are those of the uncut log, up to the value and the timestamp of the last one. -/
  series : ∃ wholes, List.Forall₂ SameSeries (sample? rest).toList wholes ∧
    (parse before).metrics ++ wholes <+: (parse log).metrics
  faults : ∀ fault, (parse (log.take length)).errors = [⟨before.count newline + 1, fault⟩] ↔
    EndsWithinNumber rest fault
  clear : (parse (log.take length)).errors = [] ↔ ∀ fault, ¬ EndsWithinNumber rest fault

/-- A log without faults that is cut anywhere gives the samples of its whole lines and at most one
more, with the name and the labels of the line that was cut. It has a fault exactly where the cut
leaves a part of a number that is none, and only that one. -/
theorem parse_take {log : Bytes} (valid : (parse log).errors = []) (length : Nat) :
    ∃ before rest, IsCut log length before rest := by
  obtain ⟨before, rest, cut, whole, clean⟩ := exists_whole_append (log.take length)
  have parts : log = before ++ (rest ++ log.drop length) := by
    rw [← List.append_assoc, ← cut, List.take_append_drop]
  rw [parts, parse, parseWith_append .leaveOpen whole] at valid
  obtain ⟨noneBefore, noneAfter⟩ := List.append_eq_nil_iff.mp valid
  obtain ⟨missing, noFault, first⟩ := exists_valid_line clean (List.map_eq_nil_iff.mp noneAfter)
  obtain ⟨samples, faults⟩ := parse_last clean
  have errors : (parse (log.take length)).errors =
      (fault? rest).toList.map (⟨before.count newline + 1, ·⟩) := by
    rw [parse] at faults
    rw [cut, parse, parseWith_append .leaveOpen whole, noneBefore, faults, List.map_map]
    rfl
  refine ⟨before, rest, cut, whole, clean, ?_, ?_, fun fault => ?_, ?_⟩
  · rw [cut, parse, parseWith_append .leaveOpen whole, ← samples]
    rfl
  · have metrics : (parse log).metrics =
        (parse before).metrics ++ (parse (rest ++ log.drop length)).metrics := by
      rw [parts, parse, parseWith_append .leaveOpen whole, ← parts]
      rfl
    obtain ⟨wholes, same, start⟩ := sample?_cut noFault
    rw [metrics]
    exact ⟨wholes, same, (List.prefix_append_right_inj _).mpr (start.trans first)⟩
  · rw [errors, ← fault?_cut_iff noFault]
    cases fault? rest with
    | none => exact ⟨nofun, nofun⟩
    | some other => simp only [Option.toList_some, List.map_singleton, List.cons.injEq,
        LineError.mk.injEq, true_and, and_true, Option.some.injEq]
  · rw [errors, List.map_eq_nil_iff, Option.toList_eq_nil_iff, Option.eq_none_iff_forall_ne_some]
    exact forall_congr' fun fault => not_congr (fault?_cut_iff noFault fault)

/-- Two lines, of which the second has every part that a metric line can have. -/
def timedLog : Bytes :=
  Utf8.encode "METRIC_up 12\r\nMETRIC_down\x7ba=\"\\nü\"\x7d 1e5 -7"

/-- The cut after the sign of the timestamp. -/
theorem timedLog_cut_after_sign :
    (parse timedLog).errors = [] ∧ ∃ before rest, IsCut timedLog 41 before rest ∧
      EndsWithinNumber rest (.invalidTimestamp "-") := by
  have valid : (parse timedLog).errors = [] := by decide +kernel
  obtain ⟨before, rest, isCut⟩ := parse_take valid 41
  have errors : (parse (timedLog.take 41)).errors = [⟨2, .invalidTimestamp "-"⟩] := by
    decide +kernel
  obtain ⟨fault, ends⟩ : ∃ fault, EndsWithinNumber rest fault := by
    by_contra silent
    have clear := isCut.clear.mpr (not_exists.mp silent)
    rw [errors] at clear
    cases clear
  have same := (isCut.faults fault).mpr ends
  rw [errors, List.cons.injEq, LineError.mk.injEq] at same
  obtain ⟨⟨_, rfl⟩, _⟩ := same
  exact ⟨valid, before, rest, isCut, ends⟩

/-- A log of one valid line is refused when it is cut after the `e` of its value. -/
theorem value_cut_after_exponent :
    (parse (Utf8.encode "METRIC_up 1e5")).errors = [] ∧
      (parse ((Utf8.encode "METRIC_up 1e5").take 12)).errors = [⟨1, .invalidValue "1e"⟩] := by
  decide +kernel

end Log

end CiTelemetry
