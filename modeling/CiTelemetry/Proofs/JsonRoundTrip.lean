/-
This file proves that JSON values survive being written without spaces. Strings are
escaped character by character, and each is read back from what it was written as,
so a text may hold quotes, newlines and all other control characters; numbers are
read back as they were; and arrays and objects, names that occur twice included,
follow by going through their parts. The written text is a single line.
-/

import CiTelemetry.Proofs.JsonNumbers

namespace CiTelemetry

open Json.Parser

namespace Json

/-! ### Values that are written -/

mutual

/-- Whether every number of a value can be stored: whole numbers in words of 64 bits, with a sign
or without, and all others as finite numbers. -/
def isStored : Json → Bool
  | int value => -(twoTo 63 : Int) ≤ value && value < twoTo 64
  | float number => number.isFinite
  | arr items => itemsStored items
  | obj fields => fieldsStored fields
  | _ => true

def itemsStored : List Json → Bool
  | [] => true
  | item :: rest => isStored item && itemsStored rest

def fieldsStored : List (String × Json) → Bool
  | [] => true
  | (_, value) :: rest => isStored value && fieldsStored rest

end

theorem bounds_of_stored {value : Int} (stored : isStored (.int value) = true) :
    -(twoTo 63 : Int) ≤ value ∧ value < twoTo 64 := by
  rw [isStored, Bool.and_eq_true, decide_eq_true_eq, decide_eq_true_eq] at stored
  exact stored

/-! ### Strings -/

theorem hexValue?_hexDigit {digit : Nat} (small : digit < 16) :
    hexValue? (hexDigit digit) = some digit := by
  revert digit
  decide

/-- A control character is read back from its four hexadecimal digits. -/
theorem unicodeEscape?_control {char : Char} (control : char.toNat < 0x20) (rest : List Char) :
    unicodeEscape?
        ('0' :: '0' :: hexDigit (char.toNat / 16) :: hexDigit (char.toNat % 16) :: rest) =
      some (char, rest) := by
  have zero : hexValue? '0' = some 0 := by decide
  have high : hexValue? (hexDigit (char.toNat / 16)) = some (char.toNat / 16) :=
    hexValue?_hexDigit (by omega)
  have low : hexValue? (hexDigit (char.toNat % 16)) = some (char.toNat % 16) :=
    hexValue?_hexDigit (by omega)
  have whole : char.toNat / 16 * 16 + char.toNat % 16 = char.toNat := by omega
  have read :
      unit? ('0' :: '0' :: hexDigit (char.toNat / 16) :: hexDigit (char.toNat % 16) :: rest) =
        some (char.toNat, rest) := by
    rw [unit?]
    simp [zero, high, low, whole]
  have noHigh : ¬ (decide (0xD800 ≤ char.toNat) && decide (char.toNat ≤ 0xDBFF)) = true := by
    rw [Bool.and_eq_true, decide_eq_true_eq, decide_eq_true_eq]
    omega
  have noLow : ¬ (decide (0xDC00 ≤ char.toNat) && decide (char.toNat ≤ 0xDFFF)) = true := by
    rw [Bool.and_eq_true, decide_eq_true_eq, decide_eq_true_eq]
    omega
  rw [unicodeEscape?, read]
  simp only [Option.bind_eq_bind, Option.bind_some, if_neg noHigh, if_neg noLow, Option.pure_def,
    Char.ofNat_toNat]

/-- A character that needs no escape stands for itself. -/
theorem stringBody?_plain {char : Char} (notQuote : char ≠ '"') (notBackslash : char ≠ '\\')
    (noControl : ¬ char.toNat < 0x20) (fuel : Nat) (reversed rest : List Char) :
    stringBody? (fuel + 1) reversed (char :: rest) = stringBody? fuel (char :: reversed) rest := by
  have harmless : ¬ (decide (char.toNat < 0x20) || char == '\\') = true := by
    rw [Bool.or_eq_true, decide_eq_true_eq, beq_iff_eq]
    exact not_or.mpr ⟨noControl, notBackslash⟩
  rw [stringBody?, if_neg harmless]
  · exact notQuote
  · exact fun _ same _ => notBackslash same
  · exact fun _ _ same _ => notBackslash same

/-- A character is read back from what it is written as. -/
theorem stringBody?_escapeChar (char : Char) (fuel : Nat) (reversed rest : List Char) :
    stringBody? (fuel + 1) reversed (escapeChar char ++ rest) =
      stringBody? fuel (char :: reversed) rest := by
  have letters : ∀ known ∈ ['"', '\\', '\n', '\r', '\t', '\x08', '\x0c'],
      stringBody? (fuel + 1) reversed (escapeChar known ++ rest) =
        stringBody? fuel (known :: reversed) rest := by
    intro known member
    simp only [List.mem_cons, List.not_mem_nil, or_false] at member
    rcases member with rfl | rfl | rfl | rfl | rfl | rfl | rfl <;> rfl
  by_cases isLetter : char ∈ ['"', '\\', '\n', '\r', '\t', '\x08', '\x0c']
  · exact letters char isLetter
  · simp only [List.mem_cons, List.not_mem_nil, or_false, not_or] at isLetter
    obtain ⟨notQuote, notBackslash, notNewline, notReturn, notTab, notBackspace, notFeed⟩ :=
      isLetter
    rw [escapeChar, if_neg notQuote, if_neg notBackslash, if_neg notNewline, if_neg notReturn,
      if_neg notTab, if_neg notBackspace, if_neg notFeed]
    split
    · next control =>
      simp only [List.cons_append, List.nil_append]
      rw [stringBody?, unicodeEscape?_control control]
    · next noControl => exact stringBody?_plain notQuote notBackslash noControl fuel reversed rest

/-- A string is read back, whatever its characters are. -/
theorem stringBody?_escaped (chars reversed rest : List Char) {fuel : Nat}
    (enough : chars.length < fuel) :
    stringBody? fuel reversed (chars.flatMap escapeChar ++ '"' :: rest) =
      some (String.ofList (reversed.reverse ++ chars), rest) := by
  induction chars generalizing reversed fuel with
  | nil =>
    obtain ⟨less, rfl⟩ := Nat.exists_eq_succ_of_ne_zero (Nat.ne_of_gt enough)
    rw [List.append_nil]
    rfl
  | cons char more inductionHypothesis =>
    obtain ⟨less, rfl⟩ := Nat.exists_eq_succ_of_ne_zero (Nat.ne_zero_of_lt enough)
    rw [List.flatMap_cons, List.append_assoc, stringBody?_escapeChar,
      inductionHypothesis (char :: reversed) (Nat.lt_of_succ_lt_succ enough), List.reverse_cons,
      List.append_assoc, List.singleton_append]

/-! ### Reading one level -/

theorem skipBlanks_cons {first : Char} (notBlank : Parser.isBlank first = false)
    (more : List Char) : skipBlanks (first :: more) = first :: more :=
  List.dropWhile_cons_of_neg (by rw [notBlank]; exact Bool.false_ne_true)

/-- A number begins with a digit or a minus. -/
theorem begins_of_number? {text rest : List Char} {value : Json}
    (read : number? text = some (value, rest)) :
    ∃ first more, text = first :: more ∧ (first = '-' ∨ first.isDigit = true) := by
  cases text with
  | nil => cases read
  | cons first more =>
    refine ⟨first, more, rfl, ?_⟩
    by_contra neither
    obtain ⟨notMinus, notDigit⟩ := not_or.mp neither
    have nothing : wholePart? (first :: more) = none := by
      rw [wholePart?, List.takeWhile_cons_of_neg notDigit]
    rw [number?] at read
    · simp [nothing] at read
    · exact fun _ same => notMinus (List.cons.inj same).1

theorem notBlank_of_number {first : Char} (starts : first = '-' ∨ first.isDigit = true) :
    Parser.isBlank first = false := by
  rw [Parser.isBlank, Bool.or_eq_false_iff, Bool.or_eq_false_iff, Bool.or_eq_false_iff,
    beq_eq_false_iff_ne, beq_eq_false_iff_ne, beq_eq_false_iff_ne, beq_eq_false_iff_ne]
  refine ⟨⟨⟨?_, ?_⟩, ?_⟩, ?_⟩ <;>
    · rintro rfl
      exact absurd starts (by decide)

section Level

variable {fuel : Nat} {text rest after : List Char}

theorem value?_number {value : Json} (read : number? text = some (value, rest)) (fuel : Nat) :
    value? (fuel + 1) text = some (value, rest) := by
  obtain ⟨first, more, rfl, starts⟩ := begins_of_number? read
  rw [value?, skipBlanks_cons (notBlank_of_number starts)]
  split
  · next empty => cases empty
  · next same => cases same; exact absurd starts (by decide)
  · next same => cases same; exact absurd starts (by decide)
  · next same => cases same; exact absurd starts (by decide)
  · next same => cases same; exact absurd starts (by decide)
  · next same => cases same; exact absurd starts (by decide)
  · next same => cases same; exact absurd starts (by decide)
  · exact read

theorem length_le_escaped (chars : List Char) :
    chars.length ≤ (chars.flatMap escapeChar).length := by
  induction chars with
  | nil => exact Nat.le_refl 0
  | cons char more inductionHypothesis =>
    have some : 1 ≤ (escapeChar char).length := by
      unfold escapeChar
      repeat' split
      all_goals exact Nat.succ_pos _
    rw [List.flatMap_cons, List.length_append, List.length_cons]
    omega

/-- The text between the quotes is read with the fuel that its reader is given. -/
theorem stringBody?_quoted (text : String) (rest : List Char) :
    stringBody? ((text.toList.flatMap escapeChar ++ '"' :: rest).length + 1) []
      (text.toList.flatMap escapeChar ++ '"' :: rest) = some (text, rest) := by
  have shorter := length_le_escaped text.toList
  rw [stringBody?_escaped, List.reverse_nil, List.nil_append, String.ofList_toList]
  rw [List.length_append]
  omega

theorem quote_append (text : String) (rest : List Char) :
    (quote text).toList ++ rest = '"' :: (text.toList.flatMap escapeChar ++ '"' :: rest) := by
  rw [quote, String.toList_ofList, List.cons_append, List.cons_append, List.append_assoc,
    List.singleton_append]

theorem value?_str (text : String) (fuel : Nat) (rest : List Char) :
    value? (fuel + 1) ((quote text).toList ++ rest) = some (.str text, rest) := by
  have mark : Parser.isBlank '"' = false := by decide
  rw [quote_append]
  simp only [value?, skipBlanks_cons mark, stringBody?_quoted, Option.map_some]

theorem value?_arr {items : List Json} (read : items? fuel text = some (items, rest))
    (notClosed : ∀ more, skipBlanks text ≠ ']' :: more) :
    value? (fuel + 1) ('[' :: text) = some (.arr items, rest) := by
  have bracket : Parser.isBlank '[' = false := by decide
  -- The last alternative is taken by `notClosed`.
  simp only [value?, skipBlanks_cons bracket, read, Option.map_some]

theorem value?_obj {fields : List (String × Json)} (read : fields? fuel text = some (fields, rest))
    (notClosed : ∀ more, skipBlanks text ≠ '}' :: more) :
    value? (fuel + 1) ('{' :: text) = some (.obj fields, rest) := by
  have brace : Parser.isBlank '{' = false := by decide
  -- The last alternative is taken by `notClosed`.
  simp only [value?, skipBlanks_cons brace, read, Option.map_some]

theorem items?_last {item : Json} (read : value? fuel text = some (item, ']' :: rest)) :
    items? (fuel + 1) text = some ([item], rest) := by
  rw [items?, read]
  rfl

theorem items?_more {item : Json} {items : List Json}
    (read : value? fuel text = some (item, ',' :: rest))
    (readMore : items? fuel rest = some (items, after)) :
    items? (fuel + 1) text = some (item :: items, after) := by
  have comma : Parser.isBlank ',' = false := by decide
  simp only [items?, read, skipBlanks_cons comma, readMore, Option.map_some]

theorem fields?_last {name : String} {value : Json}
    (read : value? fuel text = some (value, '}' :: rest)) :
    fields? (fuel + 1) ((quote name).toList ++ ':' :: text) = some ([(name, value)], rest) := by
  have mark : Parser.isBlank '"' = false := by decide
  have colon : Parser.isBlank ':' = false := by decide
  have brace : Parser.isBlank '}' = false := by decide
  rw [quote_append]
  simp only [fields?, skipBlanks_cons mark, stringBody?_quoted, skipBlanks_cons colon, read,
    skipBlanks_cons brace]

theorem fields?_more {name : String} {value : Json} {fields : List (String × Json)}
    (read : value? fuel text = some (value, ',' :: rest))
    (readMore : fields? fuel rest = some (fields, after)) :
    fields? (fuel + 1) ((quote name).toList ++ ':' :: text) =
      some ((name, value) :: fields, after) := by
  have mark : Parser.isBlank '"' = false := by decide
  have colon : Parser.isBlank ':' = false := by decide
  have comma : Parser.isBlank ',' = false := by decide
  rw [quote_append]
  simp only [fields?, skipBlanks_cons mark, stringBody?_quoted, skipBlanks_cons colon, read,
    skipBlanks_cons comma, readMore, Option.map_some]

end Level

/-! ### The written text -/

/-- The characters of pieces of text. -/
def spelled (pieces : List String) : List Char :=
  pieces.flatMap String.toList

theorem toList_render (value : Json) : value.render.toList = spelled (pieces value) :=
  String.toList_join

section Spelled

variable (item : Json) (items : List Json) (name : String) (value : Json)
  (fields : List (String × Json))

theorem spelled_arr : spelled (pieces (.arr items)) = '[' :: spelled (itemPieces true items) := by
  simp [spelled, pieces]

theorem spelled_items_nil (first : Bool) : spelled (itemPieces first []) = [']'] := by
  simp [spelled, itemPieces]

theorem spelled_items_cons :
    spelled (itemPieces true (item :: items)) =
      spelled (pieces item) ++ spelled (itemPieces false items) := by
  simp [spelled, itemPieces]

theorem spelled_items_comma :
    spelled (itemPieces false (item :: items)) =
      ',' :: spelled (itemPieces true (item :: items)) := by
  simp [spelled, itemPieces]

theorem spelled_obj :
    spelled (pieces (.obj fields)) = '{' :: spelled (fieldPieces true fields) := by
  simp [spelled, pieces]

theorem spelled_fields_nil (first : Bool) : spelled (fieldPieces first []) = ['}'] := by
  simp [spelled, fieldPieces]

theorem spelled_fields_cons :
    spelled (fieldPieces true ((name, value) :: fields)) =
      (quote name).toList ++
        ':' :: (spelled (pieces value) ++ spelled (fieldPieces false fields)) := by
  simp [spelled, fieldPieces]

theorem spelled_fields_comma :
    spelled (fieldPieces false ((name, value) :: fields)) =
      ',' :: spelled (fieldPieces true ((name, value) :: fields)) := by
  simp [spelled, fieldPieces]

theorem spelled_int (value : Int) : spelled (pieces (.int value)) = (toString value).toList := by
  simp [spelled, pieces, renderLeaf]

theorem spelled_float (number : Binary64) :
    spelled (pieces (.float number)) = number.renderPlain.toList := by
  simp [spelled, pieces, renderLeaf]

theorem spelled_str (text : String) : spelled (pieces (.str text)) = (quote text).toList := by
  simp [spelled, pieces, renderLeaf]

end Spelled

/-! ### Reading values -/

theorem word?_append (word : String) (rest : List Char) :
    word? word (word.toList ++ rest) = some rest := by
  have present : word.toList.isPrefixOf (word.toList ++ rest) = true :=
    List.isPrefixOf_iff_prefix.mpr (List.prefix_append _ _)
  rw [word?, if_pos present, ← String.length_toList, List.drop_left]

/-- A value that is written as a word is read by its first character and the others. -/
theorem value?_word (first : Char) (word : String) {fuel : Nat} {value : Json} {text : List Char}
    (step : ∀ more, value? (fuel + 1) (first :: more) = (word? word more).map (value, ·))
    (letters : text = first :: word.toList) (rest : List Char) :
    value? (fuel + 1) (text ++ rest) = some (value, rest) := by
  rw [letters, List.cons_append, step, word?_append, Option.map_some]

/-- The text of a value begins with neither a blank nor a closing bracket. -/
theorem exists_spelled_eq_cons {value : Json} (stored : isStored value = true) :
    ∃ first more, spelled (pieces value) = first :: more ∧ Parser.isBlank first = false ∧
      first ≠ ']' := by
  have ofNumber {text : List Char} {number : Json}
      (read : number? (text ++ []) = some (number, [])) :
      ∃ first more, text = first :: more ∧ Parser.isBlank first = false ∧ first ≠ ']' := by
    obtain ⟨first, more, begins, starts⟩ := begins_of_number? read
    rw [List.append_nil] at begins
    refine ⟨first, more, begins, notBlank_of_number starts, ?_⟩
    rintro rfl
    exact absurd starts (by decide)
  cases value with
  | null => exact ⟨'n', "ull".toList, by decide, by decide, by decide⟩
  | bool value =>
    cases value with
    | false => exact ⟨'f', "alse".toList, by decide, by decide, by decide⟩
    | true => exact ⟨'t', "rue".toList, by decide, by decide, by decide⟩
  | int value =>
    obtain ⟨above, below⟩ := bounds_of_stored stored
    rw [spelled_int]
    exact ofNumber (number?_toString above below (Stops.nil continuesNumber))
  | float number =>
    rw [isStored] at stored
    rw [spelled_float]
    exact ofNumber (number?_renderPlain stored (Stops.nil continuesNumber))
  | str text => exact ⟨'"', _, (spelled_str text).trans String.toList_ofList, by decide, by decide⟩
  | arr items => exact ⟨'[', _, spelled_arr items, by decide, by decide⟩
  | obj fields => exact ⟨'{', _, spelled_obj fields, by decide, by decide⟩

/-- With so much fuel, every text that is not longer is read back. -/
structure ReadsBack (fuel : Nat) : Prop where
  value {rest : List Char} {value : Json} (stored : isStored value = true)
    (enough : (spelled (pieces value)).length ≤ fuel) (ends : Stops continuesNumber rest) :
    value? fuel (spelled (pieces value) ++ rest) = some (value, rest)
  items {rest : List Char} {item : Json} {items : List Json}
    (stored : itemsStored (item :: items) = true)
    (enough : (spelled (itemPieces true (item :: items))).length ≤ fuel) :
    items? fuel (spelled (itemPieces true (item :: items)) ++ rest) = some (item :: items, rest)
  fields {rest : List Char} {name : String} {value : Json} {fields : List (String × Json)}
    (stored : fieldsStored ((name, value) :: fields) = true)
    (enough : (spelled (fieldPieces true ((name, value) :: fields))).length ≤ fuel) :
    fields? fuel (spelled (fieldPieces true ((name, value) :: fields)) ++ rest) =
      some ((name, value) :: fields, rest)

theorem readsBack_zero : ReadsBack 0 where
  value stored enough _ := by
    obtain ⟨first, more, begins, _⟩ := exists_spelled_eq_cons stored
    rw [begins] at enough
    cases enough
  items stored enough := by
    obtain ⟨first, more, begins, _⟩ := exists_spelled_eq_cons (Bool.and_eq_true_iff.mp stored).1
    rw [spelled_items_cons, begins] at enough
    cases enough
  fields _ enough := by
    rw [spelled_fields_cons, quote_append] at enough
    cases enough

namespace ReadsBack

variable {fuel : Nat} {rest : List Char}

theorem arr_succ (reads : ReadsBack fuel) {items : List Json} (stored : itemsStored items = true)
    (enough : (spelled (pieces (.arr items))).length ≤ fuel + 1) :
    value? (fuel + 1) (spelled (pieces (.arr items)) ++ rest) = some (.arr items, rest) := by
  cases items with
  | nil =>
    rw [spelled_arr, spelled_items_nil]
    rfl
  | cons item items =>
    rw [spelled_arr, List.length_cons] at enough
    rw [spelled_arr, List.cons_append]
    refine value?_arr (reads.items stored (Nat.le_of_succ_le_succ enough)) fun more closed => ?_
    obtain ⟨first, others, begins, notBlank, notClosing⟩ :=
      exists_spelled_eq_cons (Bool.and_eq_true_iff.mp stored).1
    rw [spelled_items_cons, begins, List.cons_append, List.cons_append,
      skipBlanks_cons notBlank] at closed
    exact notClosing (List.cons.inj closed).1

theorem obj_succ (reads : ReadsBack fuel) {fields : List (String × Json)}
    (stored : fieldsStored fields = true)
    (enough : (spelled (pieces (.obj fields))).length ≤ fuel + 1) :
    value? (fuel + 1) (spelled (pieces (.obj fields)) ++ rest) = some (.obj fields, rest) := by
  cases fields with
  | nil =>
    rw [spelled_obj, spelled_fields_nil]
    rfl
  | cons field fields =>
    obtain ⟨name, value⟩ := field
    rw [spelled_obj, List.length_cons] at enough
    rw [spelled_obj, List.cons_append]
    refine value?_obj (reads.fields stored (Nat.le_of_succ_le_succ enough)) fun more closed => ?_
    have notBlank : Parser.isBlank '"' = false := by decide
    rw [spelled_fields_cons, List.append_assoc, quote_append, skipBlanks_cons notBlank] at closed
    exact absurd (List.cons.inj closed).1 (by decide)

theorem value_succ (reads : ReadsBack fuel) {value : Json} (stored : isStored value = true)
    (enough : (spelled (pieces value)).length ≤ fuel + 1) (ends : Stops continuesNumber rest) :
    value? (fuel + 1) (spelled (pieces value) ++ rest) = some (value, rest) := by
  cases value with
  | null => exact value?_word 'n' "ull" (fun _ => rfl) (by decide) rest
  | bool value =>
    cases value with
    | false => exact value?_word 'f' "alse" (fun _ => rfl) (by decide) rest
    | true => exact value?_word 't' "rue" (fun _ => rfl) (by decide) rest
  | int value =>
    obtain ⟨above, below⟩ := bounds_of_stored stored
    rw [spelled_int]
    exact value?_number (number?_toString above below ends) fuel
  | float number =>
    rw [isStored] at stored
    rw [spelled_float]
    exact value?_number (number?_renderPlain stored ends) fuel
  | str text =>
    rw [spelled_str]
    exact value?_str text fuel rest
  | arr items =>
    rw [isStored] at stored
    exact reads.arr_succ stored enough
  | obj fields =>
    rw [isStored] at stored
    exact reads.obj_succ stored enough

theorem items_succ (reads : ReadsBack fuel) {item : Json} {items : List Json}
    (stored : itemsStored (item :: items) = true)
    (enough : (spelled (itemPieces true (item :: items))).length ≤ fuel + 1) :
    items? (fuel + 1) (spelled (itemPieces true (item :: items)) ++ rest) =
      some (item :: items, rest) := by
  obtain ⟨first, others⟩ := Bool.and_eq_true_iff.mp stored
  rw [spelled_items_cons, List.length_append] at enough
  rw [spelled_items_cons, List.append_assoc]
  cases items with
  | nil =>
    rw [spelled_items_nil, List.length_singleton] at enough
    rw [spelled_items_nil, List.singleton_append]
    exact items?_last (reads.value first (Nat.le_of_succ_le_succ enough) (Stops.cons (by decide) _))
  | cons next items =>
    rw [spelled_items_comma, List.length_cons] at enough
    rw [spelled_items_comma, List.cons_append]
    exact items?_more (reads.value first (by omega) (Stops.cons (by decide) _))
      (reads.items others (by omega))

theorem fields_succ (reads : ReadsBack fuel) {name : String} {value : Json}
    {fields : List (String × Json)} (stored : fieldsStored ((name, value) :: fields) = true)
    (enough : (spelled (fieldPieces true ((name, value) :: fields))).length ≤ fuel + 1) :
    fields? (fuel + 1) (spelled (fieldPieces true ((name, value) :: fields)) ++ rest) =
      some ((name, value) :: fields, rest) := by
  obtain ⟨first, others⟩ := Bool.and_eq_true_iff.mp stored
  rw [spelled_fields_cons, List.length_append, List.length_cons, List.length_append] at enough
  rw [spelled_fields_cons, List.append_assoc, List.cons_append, List.append_assoc]
  cases fields with
  | nil =>
    rw [spelled_fields_nil, List.length_singleton] at enough
    rw [spelled_fields_nil, List.singleton_append]
    exact fields?_last (reads.value first (by omega) (Stops.cons (by decide) _))
  | cons next fields =>
    obtain ⟨nextName, nextValue⟩ := next
    rw [spelled_fields_comma, List.length_cons] at enough
    rw [spelled_fields_comma, List.cons_append]
    exact fields?_more (reads.value first (by omega) (Stops.cons (by decide) _))
      (reads.fields others (by omega))

end ReadsBack

-- The readers of values, items and fields hand their fuel on to each other, less one.
theorem readsBack (fuel : Nat) : ReadsBack fuel := by
  induction fuel with
  | zero => exact readsBack_zero
  | succ fuel inductionHypothesis =>
    exact ⟨inductionHypothesis.value_succ, inductionHypothesis.items_succ,
      inductionHypothesis.fields_succ⟩

/-- What was written of a value is read as the value. -/
theorem parse?_render {value : Json} (stored : isStored value = true) :
    parse? value.render.toList = some value := by
  have read := (readsBack ((spelled (pieces value)).length + 1)).value stored (Nat.le_succ _)
    (Stops.nil continuesNumber)
  rw [List.append_nil] at read
  rw [parse?, toList_render, read]
  rfl

/-! ### One line -/

/-- A character that does not end a line, nor has any other effect on how a text is laid out. -/
def isPrinted (char : Char) : Bool :=
  0x20 ≤ char.toNat

theorem isRun_isPrinted {text : List Char} (run : IsRun isNumeralChar text) :
    IsRun isPrinted text := by
  intro char member
  have known := run char member
  rw [isNumeralChar, isNumberChar, Bool.or_eq_true, Bool.or_eq_true] at known
  rcases known with (digit | letter) | mark
  · rw [Char.isDigit, Bool.and_eq_true, decide_eq_true_eq] at digit
    exact decide_eq_true (Nat.le_trans (by decide) (UInt32.le_iff_toNat_le.mp digit.1))
  · exact List.all_eq_true.mp (by decide : ".-infNa".toList.all isPrinted = true) char
      (List.contains_iff_mem.mp letter)
  · rw [beq_iff_eq.mp mark]
    decide

theorem isPrinted_hexDigit {digit : Nat} (small : digit < 16) :
    isPrinted (hexDigit digit) = true := by
  revert digit
  decide

theorem isRun_escapeChar (char : Char) : IsRun isPrinted (escapeChar char) := by
  have letter {mark : Char} (printed : isPrinted mark = true) : IsRun isPrinted ['\\', mark] :=
    .cons (by decide) (.cons printed .nil)
  unfold escapeChar
  iterate 7
    split
    · exact letter (by decide)
  split
  · next control =>
    refine .cons (by decide) (.cons (by decide) (.cons (by decide) (.cons (by decide) ?_)))
    exact .cons (isPrinted_hexDigit (by omega)) (.cons (isPrinted_hexDigit (by omega)) .nil)
  · next noControl => exact .cons (decide_eq_true (Nat.not_lt.mp noControl)) .nil

theorem isRun_quote (text : String) : IsRun isPrinted (quote text).toList := by
  rw [quote, String.toList_ofList]
  refine IsRun.append (.cons (by decide) fun char member => ?_) (.cons (by decide) .nil)
  obtain ⟨original, _, member⟩ := List.mem_flatMap.mp member
  exact isRun_escapeChar original char member

mutual

/-- Nothing that is written of a value ends a line. -/
theorem isRun_pieces : ∀ value : Json, isStored value = true →
    IsRun isPrinted (spelled (pieces value))
  | .null, _ => List.all_eq_true.mp (by decide)
  | .bool false, _ => List.all_eq_true.mp (by decide)
  | .bool true, _ => List.all_eq_true.mp (by decide)
  | .int value, _ => by
    rw [spelled_int]
    exact isRun_isPrinted (isRun_isNumeralChar (isRun_toString value))
  | .float number, stored => by
    rw [isStored] at stored
    rw [spelled_float]
    exact isRun_isPrinted (isRun_renderPlain stored)
  | .str text, _ => by
    rw [spelled_str]
    exact isRun_quote text
  | .arr items, stored => by
    rw [isStored] at stored
    rw [spelled_arr]
    exact .cons (by decide) (isRun_itemPieces items stored true)
  | .obj fields, stored => by
    rw [isStored] at stored
    rw [spelled_obj]
    exact .cons (by decide) (isRun_fieldPieces fields stored true)

theorem isRun_itemPieces : ∀ items : List Json, itemsStored items = true → ∀ first : Bool,
    IsRun isPrinted (spelled (itemPieces first items))
  | [], _, first => by
    rw [spelled_items_nil]
    exact .cons (by decide) .nil
  | item :: items, stored, first => by
    obtain ⟨itemStored, others⟩ := Bool.and_eq_true_iff.mp stored
    have run : IsRun isPrinted (spelled (itemPieces true (item :: items))) := by
      rw [spelled_items_cons]
      exact (isRun_pieces item itemStored).append (isRun_itemPieces items others false)
    cases first with
    | true => exact run
    | false =>
      rw [spelled_items_comma]
      exact .cons (by decide) run

theorem isRun_fieldPieces : ∀ fields : List (String × Json), fieldsStored fields = true →
    ∀ first : Bool, IsRun isPrinted (spelled (fieldPieces first fields))
  | [], _, first => by
    rw [spelled_fields_nil]
    exact .cons (by decide) .nil
  | (name, value) :: fields, stored, first => by
    obtain ⟨valueStored, others⟩ := Bool.and_eq_true_iff.mp stored
    have run : IsRun isPrinted (spelled (fieldPieces true ((name, value) :: fields))) := by
      rw [spelled_fields_cons]
      exact (isRun_quote name).append (.cons (by decide)
        ((isRun_pieces value valueStored).append (isRun_fieldPieces fields others false)))
    cases first with
    | true => exact run
    | false =>
      rw [spelled_fields_comma]
      exact .cons (by decide) run

end

/-- The text of a value is a single line. -/
theorem newline_notMem_render {value : Json} (stored : isStored value = true) :
    '\n' ∉ value.render.toList := by
  intro member
  rw [toList_render] at member
  exact absurd (isRun_pieces value stored '\n' member) (by decide)

end Json

end CiTelemetry
