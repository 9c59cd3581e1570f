/-
This file reads one metric line, from the byte after its mark to the end of the
line. Each reader takes the bytes before it and gives what it read with the
bytes after it; running out of bytes means the end of the whole log, so it
counts as a truncation and not as a fault of the line.
-/

import CiTelemetry.Text.Bytes
import CiTelemetry.Log.Metric

namespace CiTelemetry

namespace MetricLine

/-! ### Byte classes -/

def newline : UInt8 := 0x0A
def quote : UInt8 := 0x22
def backslash : UInt8 := 0x5C
def openBrace : UInt8 := 0x7B
def closeBrace : UInt8 := 0x7D
def comma : UInt8 := 0x2C
def equalsSign : UInt8 := 0x3D

def isLetter (byte : UInt8) : Bool :=
  (0x41 ≤ byte && byte ≤ 0x5A) || (0x61 ≤ byte && byte ≤ 0x7A)

def isDigit (byte : UInt8) : Bool :=
  0x30 ≤ byte && byte ≤ 0x39

def isLabelStart (byte : UInt8) : Bool :=
  isLetter byte || byte == 0x5F

def isLabelByte (byte : UInt8) : Bool :=
  isLabelStart byte || isDigit byte

def isNameStart (byte : UInt8) : Bool :=
  isLabelStart byte || byte == 0x3A

def isNameByte (byte : UInt8) : Bool :=
  isNameStart byte || isDigit byte

/-- Space, tab and carriage return separate the parts of a line. -/
def isBlank (byte : UInt8) : Bool :=
  byte == 0x20 || byte == 0x09 || byte == 0x0D

/-- The bytes of a value or a timestamp. -/
def isTokenByte (byte : UInt8) : Bool :=
  !isBlank byte && byte != newline

def skipBlanks (input : Bytes) : Bytes :=
  input.dropWhile isBlank

/-- Bytes of an ASCII class as text. -/
def asciiText (bytes : Bytes) : String :=
  String.ofList (bytes.map fun byte => Char.ofNat byte.toNat)

/-! ### The parts of a line -/

/-- What a part of the line reads, with the bytes after it. -/
abbrev Reading (α : Type) := Except LineFault (α × Bytes)

def metricName (input : Bytes) : Reading String :=
  match input with
  | [] => .error .truncated
  | first :: _ =>
    if isNameStart first then
      .ok (asciiText (input.takeWhile isNameByte), input.dropWhile isNameByte)
    else .error .invalidMetricName

/-- Whether a label block opens after the name. Blanks may stand before its
brace; without a block at least one blank must follow the name. -/
def blockOpening (input : Bytes) : Reading Bool :=
  match input with
  | [] => .error .truncated
  | next :: rest =>
    if next = openBrace then .ok (true, rest)
    else if isBlank next then
      match skipBlanks input with
      | [] => .ok (false, [])
      | found :: after =>
        if found = openBrace then .ok (true, after) else .ok (false, found :: after)
    else if next = newline then .error .missingValue
    else .error .invalidMetricName

/-- A byte that must come next, blanks before it aside. -/
def expect (byte : UInt8) (mark : LabelMark) (input : Bytes) : Except LineFault Bytes :=
  match skipBlanks input with
  | [] => .error .truncated
  | next :: rest => if next = byte then .ok rest else .error (.expected mark)

/-- The bytes of a label value up to its closing quote, with escapes resolved. -/
def quoted : Bytes → Reading Bytes
  | [] => .error .truncated
  | byte :: rest =>
    if byte = newline then .error .newlineInLabelValue
    else if byte = quote then .ok ([], rest)
    else if byte = backslash then
      match rest with
      | [] => .error .truncated
      | escaped :: after =>
        if escaped = quote || escaped = backslash then
          (quoted after).map fun pair => (escaped :: pair.1, pair.2)
        else if escaped = 0x6E then
          (quoted after).map fun pair => (newline :: pair.1, pair.2)
        else .error (.invalidEscape (Char.ofNat escaped.toNat))
    else (quoted rest).map fun pair => (byte :: pair.1, pair.2)

/-- One label: a name, an equals sign and a quoted value. -/
def label (input : Bytes) : Reading (String × String) :=
  match input with
  | [] => .error .truncated
  | first :: _ =>
    if first = newline then .error .unterminatedLabels
    else if !isLabelStart first then .error .invalidLabelName
    else
      match expect equalsSign .equalsSign (input.dropWhile isLabelByte) with
      | .error fault => .error fault
      | .ok afterEquals =>
        match expect quote .openingQuote afterEquals with
        | .error fault => .error fault
        | .ok afterQuote =>
          match quoted afterQuote with
          | .error fault => .error fault
          | .ok (bytes, rest) =>
            match Utf8.decode? bytes with
            | some value => .ok ((asciiText (input.takeWhile isLabelByte), value), rest)
            | none => .error .invalidUtf8

/-! ### Reading consumes -/

theorem dropWhile_length (test : UInt8 → Bool) (input : Bytes) :
    (input.dropWhile test).length ≤ input.length := by
  induction input with
  | nil => exact Nat.le_refl _
  | cons byte rest inductionHypothesis =>
    rw [List.dropWhile_cons]
    split
    · exact Nat.le_succ_of_le inductionHypothesis
    · exact Nat.le_refl _

theorem expect_length {byte : UInt8} {mark : LabelMark} {input rest : Bytes}
    (read : expect byte mark input = .ok rest) : rest.length < input.length := by
  have shorter := dropWhile_length isBlank input
  unfold expect skipBlanks at read
  split at read
  · cases read
  · next next after found =>
    rw [found] at shorter
    split at read
    · cases read
      exact shorter
    · cases read

/-- A reading that adds a byte ends where the reading it adds to ends. -/
theorem ok_of_map_cons {read : Reading Bytes} {byte : UInt8} {bytes rest : Bytes}
    (mapped : read.map (fun pair => (byte :: pair.1, pair.2)) = .ok (bytes, rest)) :
    ∃ inner, read = .ok (inner, rest) := by
  match read, mapped with
  | .ok (inner, _), mapped =>
    cases mapped
    exact ⟨inner, rfl⟩

theorem quoted_length {input bytes rest : Bytes} (read : quoted input = .ok (bytes, rest)) :
    rest.length < input.length := by
  fun_induction quoted input generalizing bytes rest with
  | case1 => cases read
  | case2 => cases read
  | case3 => cases read; simp
  | case4 => cases read
  | case5 _ _ _ _ _ inductionHypothesis =>
    obtain ⟨inner, innerRead⟩ := ok_of_map_cons read
    have shorter := inductionHypothesis innerRead
    simp only [List.length_cons]
    omega
  | case6 _ _ _ _ inductionHypothesis =>
    obtain ⟨inner, innerRead⟩ := ok_of_map_cons read
    have shorter := inductionHypothesis innerRead
    simp only [List.length_cons]
    omega
  | case7 => cases read
  | case8 _ _ _ _ _ inductionHypothesis =>
    obtain ⟨inner, innerRead⟩ := ok_of_map_cons read
    have shorter := inductionHypothesis innerRead
    simp only [List.length_cons]
    omega

theorem label_length {input rest : Bytes} {pair : String × String}
    (read : label input = .ok (pair, rest)) : rest.length < input.length := by
  unfold label at read
  split at read
  · cases read
  · next head tail =>
    split at read
    · cases read
    · split at read
      · cases read
      · split at read
        · cases read
        · next equalsRead =>
          split at read
          · cases read
          · next quoteRead =>
            split at read
            · cases read
            · next valueRead =>
              split at read
              · cases read
                have beforeEquals := expect_length equalsRead
                have beforeQuote := expect_length quoteRead
                have beforeEnd := quoted_length valueRead
                have beforeName := dropWhile_length isLabelByte (head :: tail)
                omega
              · cases read

/-! ### The label block -/

/-- The labels up to the closing brace, after those already read. A comma may
stand before the brace. -/
def labelBlock (labels : List (String × String)) (input : Bytes) :
    Reading (List (String × String)) :=
  match _skipped : skipBlanks input with
  | [] => .error .truncated
  | next :: rest =>
    if next = closeBrace then .ok (labels, rest)
    else
      match _read : label (next :: rest) with
      | .error fault => .error fault
      | .ok ((name, value), afterLabel) =>
        if labels.any (·.1 = name) then .error (.duplicateLabel name)
        else
          match _after : skipBlanks afterLabel with
          | [] => .error .truncated
          | mark :: rest =>
            if mark = comma then labelBlock (labels ++ [(name, value)]) rest
            else if mark = closeBrace then .ok (labels ++ [(name, value)], rest)
            else if mark = newline then .error .unterminatedLabels
            else .error (.expected .commaOrBrace)
termination_by input.length
decreasing_by
  have beforeLabel := dropWhile_length isBlank input
  have consumed := label_length _read
  have beforeMark := dropWhile_length isBlank afterLabel
  unfold skipBlanks at _skipped _after
  rw [_skipped] at beforeLabel
  rw [_after] at beforeMark
  simp only [List.length_cons] at beforeLabel beforeMark consumed
  omega

/-! ### Value and timestamp -/

/-- The bytes `p`, `P` and the underscore rule out hexadecimal numbers and digit
separators. -/
def isForbiddenInValue (byte : UInt8) : Bool :=
  byte == 0x70 || byte == 0x50 || byte == 0x5F

/-- The number that a token denotes. -/
def number? (token : Bytes) : Option Binary64 :=
  if token.any isForbiddenInValue then none
  else (Utf8.decode? token).bind fun text => Binary64.read? text.toList

def value (input : Bytes) : Reading Binary64 :=
  let text := skipBlanks input
  let token := text.takeWhile isTokenByte
  let rest := text.dropWhile isTokenByte
  if token.isEmpty then
    if rest.isEmpty then .error .truncated else .error .missingValue
  else
    match number? token with
    | some number => .ok (number, rest)
    | none => .error (.invalidValue (Utf8.decodeLenient token))

/-- Whether a line is over: at its newline or at the end of the log. -/
def isOver (input : Bytes) : Bool :=
  match input with
  | [] => true
  | next :: _ => next == newline

/-- The optional timestamp, after which the line must be over. -/
def timestamp (input : Bytes) : Except LineFault (Option Int) :=
  let text := skipBlanks input
  if isOver text then .ok none
  else
    let token := text.takeWhile isTokenByte
    match (Utf8.decode? token).bind fun word => integer64? word.toList with
    | none => .error (.invalidTimestamp (Utf8.decodeLenient token))
    | some time =>
      if isOver (skipBlanks (text.dropWhile isTokenByte)) then .ok (some time)
      else .error .trailingCharacters

end MetricLine

/-- Reads a metric line from the byte after its mark. The input includes the
newline that ends the line, if there is one. -/
def Metric.ofLine? (input : Bytes) : Except LineFault Metric := do
  let (name, afterName) ← MetricLine.metricName input
  let (hasLabels, afterOpening) ← MetricLine.blockOpening afterName
  let (labels, afterLabels) ←
    if hasLabels then MetricLine.labelBlock [] afterOpening else .ok ([], afterOpening)
  let (value, afterValue) ← MetricLine.value afterLabels
  let timestamp ← MetricLine.timestamp afterValue
  pure ⟨name, labels, value, timestamp⟩

end CiTelemetry
