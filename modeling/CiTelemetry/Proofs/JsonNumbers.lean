/-
This file proves that the numbers of JSON text are read back. A numeral that is
moved to another power of ten keeps its value and therefore its word, since the
nearest number to a ratio does not hang on common factors. So it does not matter
which of its four forms the text of a number takes: each is read as the shortest
numeral of the number, moved by some zeros.
-/

import CiTelemetry.Json.Parser
import CiTelemetry.Json.Printer
import CiTelemetry.Proofs.NumberText

namespace CiTelemetry

namespace Binary64

/-! ### Common factors -/

section Factor

variable {numerator denominator factor : Nat}

theorem roundHalfEven_factor (positive : 0 < factor) :
    roundHalfEven (numerator * factor) (denominator * factor) =
      roundHalfEven numerator denominator := by
  have twice : 2 * (numerator % denominator * factor) =
      2 * (numerator % denominator) * factor := (Nat.mul_assoc _ _ _).symm
  simp only [roundHalfEven, Nat.mul_div_mul_right _ _ positive, Nat.mul_mod_mul_right, twice,
    Nat.mul_lt_mul_right positive]

theorem reaches_factor (positive : 0 < factor) (exponent : Int) :
    Reaches (numerator * factor) (denominator * factor) exponent ↔
      Reaches numerator denominator exponent := by
  unfold Reaches
  rw [Nat.mul_right_comm, Nat.mul_right_comm numerator]
  exact Nat.mul_le_mul_right_iff positive

theorem ratioWord_factor (nonzero : 0 < denominator) (positive : 0 < factor) :
    ratioWord (numerator * factor) (denominator * factor) = ratioWord numerator denominator := by
  rcases Nat.eq_zero_or_pos numerator with rfl | present
  · rw [Nat.zero_mul, ratioWord, ratioWord, if_pos rfl, if_pos rfl]
  · have place : floorLog2 (numerator * factor) (denominator * factor) =
        floorLog2 numerator denominator := by
      obtain ⟨reaches, last⟩ := floorLog2_reaches present nonzero
      refine floorLog2_eq (Nat.mul_pos present positive) (Nat.mul_pos nonzero positive)
        ((reaches_factor positive _).mpr reaches) fun further => last ?_
      exact (reaches_factor positive _).mp further
    unfold ratioWord
    rw [if_neg (Nat.mul_pos present positive).ne', if_neg present.ne']
    simp only [place, Nat.mul_right_comm _ factor, roundHalfEven_factor positive]

end Factor

end Binary64

namespace Decimal

open Binary64

theorem tenTo_add (first second : Nat) : tenTo (first + second) = tenTo first * tenTo second :=
  Nat.pow_add 10 first second

/-- A numeral that is neither too small nor too large to be looked at has the word of its value,
which is a ratio of two whole numbers, one of them a power of ten. -/
theorem word_eq (digits : Nat) (exponent : Int) :
    word ⟨digits, exponent⟩ =
      if digits = 0 || (digitCount digits : Int) + exponent < -330 then 0
      else if 310 < (digitCount digits : Int) + exponent then infinityWord
      else ratioWord (digits * tenTo exponent.toNat) (tenTo (-exponent).toNat) := by
  unfold word
  dsimp only
  split
  · rfl
  · split
    · rfl
    · split
      · next whole =>
        rw [show (-exponent).toNat = 0 by omega]
        rfl
      · next fraction =>
        rw [show exponent.toNat = 0 by omega, show tenTo 0 = 1 from rfl, Nat.mul_one]

/-- Zeros behind the digits and a smaller exponent make up for one another. -/
theorem word_shifted (digits : Nat) (exponent : Int) (places : Nat) :
    word ⟨digits * tenTo places, exponent - places⟩ = word ⟨digits, exponent⟩ := by
  rcases Nat.eq_zero_or_pos digits with rfl | positive
  · simp [word]
  · have larger := Nat.mul_pos positive (tenTo_pos places)
    have size : (digitCount (digits * tenTo places) : Int) + (exponent - places) =
        digitCount digits + exponent := by
      rw [digitCount_mul_tenTo positive]
      omega
    obtain ⟨common, above, below⟩ : ∃ common,
        places + (exponent - places).toNat = exponent.toNat + common ∧
          (-(exponent - places)).toNat = (-exponent).toNat + common :=
      ⟨places + (exponent - places).toNat - exponent.toNat, by omega, by omega⟩
    rw [word_eq, word_eq, size, decide_eq_false larger.ne', decide_eq_false positive.ne',
      Nat.mul_assoc, ← tenTo_add, above, below, tenTo_add, tenTo_add, ← Nat.mul_assoc,
      ratioWord_factor (tenTo_pos _) (tenTo_pos common)]

/-! ### Zeros at either end -/

/-- The digits of a positive number do not begin with a zero. -/
theorem toDigits_eq_cons {number : Nat} (positive : 0 < number) :
    ∃ first more, Nat.toDigits 10 number = first :: more ∧ first ≠ '0' := by
  induction number using Nat.strongRecOn with
  | ind number inductionHypothesis =>
    by_cases small : number < 10
    · have notZero : ∀ digit < 10, 0 < digit → digit.digitChar ≠ '0' := by decide
      exact ⟨_, [], Nat.toDigits_of_lt_base small, notZero number small positive⟩
    · obtain ⟨first, more, digits, notZero⟩ :=
        inductionHypothesis (number / 10) (by omega) (by omega)
      rw [Nat.toDigits_of_base_le (by decide) (by omega), digits]
      exact ⟨first, _, rfl, notZero⟩

/-- Digits without the zeros at their end. -/
def withoutZeros (digits : List Char) : List Char :=
  (digits.reverse.dropWhile (· == '0')).reverse

theorem withoutZeros_append (digits : List Char) :
    digits = withoutZeros digits ++
      List.replicate (digits.length - (withoutZeros digits).length) '0' := by
  have zeros : digits.reverse.takeWhile (· == '0') =
      List.replicate (digits.reverse.takeWhile (· == '0')).length '0' :=
    List.eq_replicate_of_mem fun char member => by simpa using List.mem_takeWhile_imp member
  have whole := List.takeWhile_append_dropWhile (p := (· == '0')) (l := digits.reverse)
  have cut : digits = withoutZeros digits ++ (digits.reverse.takeWhile (· == '0')).reverse := by
    rw [withoutZeros, ← List.reverse_append, whole, List.reverse_reverse]
  rw [zeros, List.reverse_replicate] at cut
  have length := congrArg List.length cut
  rw [List.length_append, List.length_replicate] at length
  rw [length, Nat.add_sub_cancel_left]
  exact cut

/-- Digits that do not begin with a zero. -/
structure IsPlain (digits : List Char) : Prop where
  run : IsRun Char.isDigit digits
  starts : ∃ first more, digits = first :: more ∧ first ≠ '0'

theorem isPlain_withoutZeros {number : Nat} (positive : 0 < number) :
    IsPlain (withoutZeros (Nat.toDigits 10 number)) := by
  obtain ⟨first, more, digits, notZero⟩ := toDigits_eq_cons positive
  have whole := withoutZeros_append (Nat.toDigits 10 number)
  have run := isRun_toDigits number
  generalize withoutZeros (Nat.toDigits 10 number) = shorter at whole
  rw [whole] at run
  refine ⟨fun char member => run char (List.mem_append_left _ member), ?_⟩
  cases shorter with
  | nil =>
    rw [whole, List.nil_append] at digits
    have isFirst := digits ▸ List.mem_cons_self
    exact absurd (List.eq_of_mem_replicate isFirst) notZero
  | cons head tail =>
    rw [whole, List.cons_append] at digits
    exact ⟨head, tail, rfl, (List.cons.inj digits).1 ▸ notZero⟩

theorem digitsValue_zeros (digits : List Char) (count : Nat) :
    digitsValue (digits ++ List.replicate count '0') = digitsValue digits * tenTo count := by
  rw [digitsValue_eq, digitsValue_eq, Nat.ofDigitChars_append, Nat.ofDigitChars_replicate_zero,
    Nat.mul_comm]
  rfl

end Decimal

namespace Json.Parser

/-! ### The parts of a number -/

/-- A character that a number may go on with. -/
def continuesNumber (char : Char) : Bool :=
  char.isDigit || char == '.' || char == 'e' || char == 'E'

theorem stops_isDigit {rest : List Char} (ends : Stops continuesNumber rest) :
    Stops Char.isDigit rest := by
  intro char member
  have outside := ends char member
  rw [continuesNumber, Bool.or_eq_false_iff, Bool.or_eq_false_iff, Bool.or_eq_false_iff] at outside
  exact outside.1.1.1

theorem splitSign_digit {first : Char} (digit : first.isDigit = true) (more : List Char) :
    splitSign (first :: more) = (false, first :: more) := by
  unfold splitSign
  split
  · next minus =>
    cases minus
    exact absurd digit (by decide)
  · next plus =>
    cases plus
    exact absurd digit (by decide)
  · rfl

section Parts

variable {first : Char} {digits more rest : List Char}

theorem wholePart?_run (run : IsRun Char.isDigit (first :: more))
    (notZero : first ≠ '0' ∨ more = []) (ends : Stops Char.isDigit rest) :
    wholePart? (first :: more ++ rest) = some (first :: more, rest) := by
  rw [wholePart?, takeWhile_run_append run ends, dropWhile_run_append run ends]
  split
  · next empty => cases empty
  · next zero =>
    cases zero
    exact absurd rfl (notZero.resolve_right (List.cons_ne_nil _ _))
  · rfl

theorem fractionPart?_point (run : IsRun Char.isDigit digits) (present : digits ≠ [])
    (ends : Stops Char.isDigit rest) :
    fractionPart? ('.' :: (digits ++ rest)) = some (some digits, rest) := by
  rw [fractionPart?]
  simp only [takeWhile_run_append run ends, dropWhile_run_append run ends,
    List.isEmpty_eq_false_iff.mpr present, Bool.false_eq_true, if_false]

theorem fractionPart?_none (noPoint : rest.head? ≠ some '.') :
    fractionPart? rest = some (none, rest) := by
  unfold fractionPart?
  split
  · exact absurd rfl noPoint
  · rfl

theorem exponentPart?_none (ends : Stops continuesNumber rest) :
    exponentPart? rest = some (none, rest) := by
  cases rest with
  | nil => rfl
  | cons char after =>
    have outside := ends char rfl
    rw [continuesNumber, Bool.or_eq_false_iff, Bool.or_eq_false_iff] at outside
    have noMark : ¬ (char == 'e' || char == 'E') = true := by
      rw [outside.1.2, outside.2]
      decide
    rw [exponentPart?, if_neg noMark]

theorem exponentPart?_digits (number : Nat) (negative : Bool) {text : List Char}
    (sign : splitSign text = (negative, Nat.toDigits 10 number ++ rest))
    (ends : Stops Char.isDigit rest) :
    exponentPart? ('e' :: text) =
      some (some (if negative then -(number : Int) else number), rest) := by
  have isMark : (('e' : Char) == 'e' || ('e' : Char) == 'E') = true := by decide
  have present : (Nat.toDigits 10 number).isEmpty = false :=
    List.isEmpty_eq_false_iff.mpr Nat.toDigits_ne_nil
  rw [exponentPart?, if_pos isMark, sign]
  simp only [takeWhile_run_append (isRun_toDigits number) ends,
    dropWhile_run_append (isRun_toDigits number) ends, present, Bool.false_eq_true, if_false,
    digitsValue_toDigits]

/-- An exponent is read as it was written, with its sign. -/
theorem exponentPart?_mark (value : Int) (ends : Stops Char.isDigit rest) :
    exponentPart? ('e' :: ((toString value).toList ++ rest)) = some (some value, rest) := by
  rw [Int.toString_eq_repr, Int.repr_eq_if]
  split
  · next nonnegative =>
    have sign : splitSign (Nat.toDigits 10 value.toNat ++ rest) =
        (false, Nat.toDigits 10 value.toNat ++ rest) := by
      obtain ⟨digit, others, digits⟩ := List.exists_cons_of_ne_nil
        (Nat.toDigits_ne_nil (b := 10) (n := value.toNat))
      have isDigit := isRun_toDigits value.toNat digit (digits ▸ List.mem_cons_self)
      rw [digits]
      exact splitSign_digit isDigit _
    rw [Nat.toList_repr, exponentPart?_digits value.toNat false sign ends,
      if_neg Bool.false_ne_true, Int.toNat_of_nonneg nonnegative]
  · next negative =>
    have sign : splitSign (("-" ++ (-value).toNat.repr).toList ++ rest) =
        (true, Nat.toDigits 10 (-value).toNat ++ rest) := by
      rw [String.toList_append, Nat.toList_repr]
      rfl
    rw [exponentPart?_digits (-value).toNat true sign ends, if_pos rfl,
      Int.toNat_of_nonneg (by omega), Int.neg_neg]

end Parts

/-- A number is read part by part, with a minus before it or without. -/
theorem number?_parts {text afterWhole afterFraction rest whole : List Char}
    {fraction : Option (List Char)} {exponent : Option Int} (unsigned : text.head? ≠ some '-')
    (readWhole : wholePart? text = some (whole, afterWhole))
    (readFraction : fractionPart? afterWhole = some (fraction, afterFraction))
    (readExponent : exponentPart? afterFraction = some (exponent, rest)) (negative : Bool) :
    number? (if negative then '-' :: text else text) =
      some (numberOf negative whole fraction exponent, rest) := by
  cases negative with
  | true =>
    rw [if_pos rfl, number?]
    simp only [readWhole, readFraction, readExponent, Option.pure_def, Option.bind_eq_bind,
      Option.bind_some]
  | false =>
    rw [if_neg Bool.false_ne_true, number?]
    · simp only [readWhole, readFraction, readExponent, Option.pure_def, Option.bind_eq_bind,
        Option.bind_some]
    · rintro more rfl
      exact unsigned rfl

/-- A number with a fraction or an exponent is the one nearest to its numeral. -/
theorem numberOf_eq (negative : Bool) (whole places : List Char) {fraction : Option (List Char)}
    {exponent : Option Int} (parted : fraction ≠ none ∨ exponent ≠ none)
    (isPlaces : fraction.getD [] = places) :
    numberOf negative whole fraction exponent =
      .float (Binary64.ofMagnitude negative
        (Decimal.word ⟨digitsValue (whole ++ places), exponent.getD 0 - places.length⟩)) := by
  have notWhole : (fraction.isNone && exponent.isNone) = false := by
    rw [Bool.and_eq_false_iff, Option.isNone_eq_false_iff, Option.isNone_eq_false_iff,
      Option.isSome_iff_ne_none, Option.isSome_iff_ne_none]
    exact parted
  rw [numberOf]
  simp only [notWhole, isPlaces, Bool.false_and, Bool.false_eq_true, if_false]

/-! ### The four forms -/

/-- The text of a number without its sign, from its digits and their power of ten. -/
def plainText (digits : List Char) (exponent : Int) : List Char :=
  let point : Int := digits.length + exponent
  if 0 ≤ exponent && point ≤ 16 then
    digits ++ List.replicate exponent.toNat '0' ++ ['.', '0']
  else if 0 < point && point ≤ 16 then
    digits.take point.toNat ++ '.' :: digits.drop point.toNat
  else if -5 < point && point ≤ 0 then
    ['0', '.'] ++ List.replicate (-point).toNat '0' ++ digits
  else
    let fraction := digits.drop 1
    let mantissa := digits.take 1 ++ (if fraction.isEmpty then [] else '.' :: fraction)
    mantissa ++ ['e'] ++ (toString (point - 1)).toList

/-- What is read of a text as a number without a sign, be it with a minus before it or not. -/
def ReadsWord (text rest : List Char) (word : Nat) : Prop :=
  ∀ negative : Bool, number? (if negative then '-' :: (text ++ rest) else text ++ rest) =
    some (.float (Binary64.ofMagnitude negative word), rest)

section Forms

variable {first : Char} {more rest : List Char}

theorem isDigit_ne_minus (digit : first.isDigit = true) (text : List Char) :
    (first :: text).head? ≠ some '-' := by
  rintro ⟨⟩
  exact absurd digit (by decide)

/-- A number with a point in it. -/
theorem readsWord_point {places : List Char} (run : IsRun Char.isDigit (first :: more))
    (notZero : first ≠ '0' ∨ more = []) (placesRun : IsRun Char.isDigit places)
    (present : places ≠ []) (ends : Stops continuesNumber rest) :
    ReadsWord (first :: more ++ '.' :: places) rest
      (Decimal.word ⟨digitsValue (first :: more ++ places), -(places.length : Int)⟩) := by
  intro negative
  have point : Stops Char.isDigit ('.' :: (places ++ rest)) := Stops.cons (by decide) _
  have parts := number?_parts (isDigit_ne_minus (run first List.mem_cons_self) _)
    (wholePart?_run run notZero point)
    (fractionPart?_point placesRun present (stops_isDigit ends)) (exponentPart?_none ends) negative
  rw [numberOf_eq negative (first :: more) places (.inl (by simp)) rfl] at parts
  simp only [List.cons_append, List.append_assoc, Option.getD_none, Int.zero_sub] at parts ⊢
  exact parts

/-- A number with an exponent. -/
theorem readsWord_exponent (run : IsRun Char.isDigit (first :: more)) (exponent : Int)
    (ends : Stops continuesNumber rest) :
    ReadsWord
      ([first] ++ (if more.isEmpty then [] else '.' :: more) ++ ['e'] ++ (toString exponent).toList)
      rest (Decimal.word ⟨digitsValue (first :: more), exponent - more.length⟩) := by
  intro negative
  have digit := run first List.mem_cons_self
  have mark := exponentPart?_mark exponent (stops_isDigit ends)
  have stops : ∀ text, Stops Char.isDigit ('e' :: text) := fun text => Stops.cons (by decide) _
  cases more with
  | nil =>
    have parts := number?_parts (isDigit_ne_minus digit _) (wholePart?_run run (.inr rfl) (stops _))
      (fractionPart?_none (by simp)) mark negative
    rw [numberOf_eq negative [first] [] (.inr (by simp)) rfl] at parts
    simpa using parts
  | cons next others =>
    have whole : IsRun Char.isDigit [first] := IsRun.cons digit IsRun.nil
    have places : IsRun Char.isDigit (next :: others) :=
      fun char member => run char (List.mem_cons_of_mem _ member)
    have parts := number?_parts (isDigit_ne_minus digit _)
      (wholePart?_run whole (.inr rfl) (Stops.cons (by decide) _))
      (fractionPart?_point places (List.cons_ne_nil _ _) (stops _)) mark negative
    rw [numberOf_eq negative [first] (next :: others) (.inr (by simp)) rfl] at parts
    simpa using parts

theorem isRun_zeros (count : Nat) : IsRun Char.isDigit (List.replicate count '0') := by
  intro char member
  rw [List.eq_of_mem_replicate member]
  decide

variable {exponent : Int}

/-- All digits stand before the point, with zeros behind them. -/
theorem readsWord_whole (run : IsRun Char.isDigit (first :: more)) (notZero : first ≠ '0')
    (whole : 0 ≤ exponent) (ends : Stops continuesNumber rest) :
    ReadsWord (first :: more ++ List.replicate exponent.toNat '0' ++ ['.', '0']) rest
      (Decimal.word ⟨digitsValue (first :: more), exponent⟩) := by
  have extended : IsRun Char.isDigit (first :: (more ++ List.replicate exponent.toNat '0')) :=
    run.append (isRun_zeros exponent.toNat)
  have reads := readsWord_point extended (.inl notZero) (isRun_zeros 1) (List.cons_ne_nil _ _) ends
  have padded : first :: (more ++ List.replicate exponent.toNat '0') ++ List.replicate 1 '0' =
      first :: more ++ List.replicate (exponent.toNat + 1) '0' := by
    rw [← List.cons_append, List.append_assoc, List.replicate_append_replicate]
  have places : -((List.replicate 1 '0').length : Int) =
      exponent - ((exponent.toNat + 1 : Nat) : Int) := by
    rw [List.length_replicate]
    omega
  rw [padded, Decimal.digitsValue_zeros, places, Decimal.word_shifted] at reads
  exact reads

/-- The point stands between digits. -/
theorem readsWord_between (run : IsRun Char.isDigit (first :: more)) (notZero : first ≠ '0')
    (fraction : exponent < 0) (within : 0 < ((first :: more).length : Int) + exponent)
    (ends : Stops continuesNumber rest) :
    ReadsWord
      ((first :: more).take (((first :: more).length : Int) + exponent).toNat ++
        '.' :: (first :: more).drop (((first :: more).length : Int) + exponent).toNat)
      rest (Decimal.word ⟨digitsValue (first :: more), exponent⟩) := by
  have length : (first :: more).length = more.length + 1 := List.length_cons
  obtain ⟨before, place⟩ : ∃ before : Nat,
      (((first :: more).length : Int) + exponent).toNat = before + 1 :=
    ⟨(((first :: more).length : Int) + exponent).toNat - 1, by omega⟩
  have left : IsRun Char.isDigit (first :: more.take before) := fun char member =>
    run char ((List.cons_sublist_cons.mpr (List.take_sublist _ _)).subset member)
  have right : IsRun Char.isDigit (more.drop before) := fun char member =>
    run char (List.mem_cons_of_mem _ (List.mem_of_mem_drop member))
  have present : more.drop before ≠ [] := by
    rw [Ne, List.drop_eq_nil_iff]
    omega
  have reads := readsWord_point left (.inl notZero) right present ends
  have places : -((more.drop before).length : Int) = exponent := by
    rw [List.length_drop]
    omega
  have whole : first :: more.take before ++ more.drop before = first :: more := by
    rw [List.cons_append, List.take_append_drop]
  rw [whole, places] at reads
  rw [place, List.take_succ_cons, List.drop_succ_cons]
  exact reads

/-- All digits stand behind the point, with zeros before them. -/
theorem readsWord_behind (run : IsRun Char.isDigit (first :: more))
    (small : ((first :: more).length : Int) + exponent ≤ 0) (ends : Stops continuesNumber rest) :
    ReadsWord
      (['0', '.'] ++ List.replicate (-(((first :: more).length : Int) + exponent)).toNat '0' ++
        first :: more)
      rest (Decimal.word ⟨digitsValue (first :: more), exponent⟩) := by
  obtain ⟨count, before⟩ : ∃ count,
      (-(((first :: more).length : Int) + exponent)).toNat = count := ⟨_, rfl⟩
  have zero : IsRun Char.isDigit ['0'] := isRun_zeros 1
  have reads := readsWord_point zero (.inr rfl) ((isRun_zeros count).append run)
    (List.append_ne_nil_of_right_ne_nil _ (List.cons_ne_nil _ _)) ends
  have value : digitsValue (['0'] ++ (List.replicate count '0' ++ first :: more)) =
      digitsValue (first :: more) := digitsValue_padded (count + 1) (first :: more)
  have places : -((List.replicate count '0' ++ first :: more).length : Int) = exponent := by
    rw [List.length_append, List.length_replicate]
    omega
  rw [value, places] at reads
  rw [before, List.append_assoc]
  exact reads

end Forms

/-- Whatever form the text of a number takes, it is read as a numeral of the same word. -/
theorem readsWord_plainText {digits rest : List Char} (isPlain : Decimal.IsPlain digits)
    (exponent : Int) (ends : Stops continuesNumber rest) :
    ReadsWord (plainText digits exponent) rest (Decimal.word ⟨digitsValue digits, exponent⟩) := by
  obtain ⟨run, first, more, rfl, notZero⟩ := isPlain
  rw [plainText]
  dsimp only
  split
  · next whole =>
    rw [Bool.and_eq_true, decide_eq_true_eq, decide_eq_true_eq] at whole
    exact readsWord_whole run notZero whole.1 ends
  · next notWhole =>
    rw [Bool.and_eq_true, decide_eq_true_eq, decide_eq_true_eq] at notWhole
    split
    · next within =>
      rw [Bool.and_eq_true, decide_eq_true_eq, decide_eq_true_eq] at within
      exact readsWord_between run notZero (by omega) within.1 ends
    · split
      · next small =>
        rw [Bool.and_eq_true, decide_eq_true_eq, decide_eq_true_eq] at small
        exact readsWord_behind run small.2 ends
      · have reads := readsWord_exponent run (((first :: more).length : Int) + exponent - 1) ends
        have same : ((first :: more).length : Int) + exponent - 1 - more.length = exponent := by
          rw [List.length_cons]
          omega
        rw [same] at reads
        exact reads

end Json.Parser

namespace Binary64

open Json.Parser (plainText)

/-! ### Numbers -/

/-- The text of a number that is not zero is made of its shortest numeral, without zeros at the end
of its digits. -/
theorem renderPlain_eq {number : Binary64} (nonzero : number.magnitude ≠ 0) :
    ∃ digits exponent, number.renderPlain.toList =
        (if number.isNegative then ['-'] else []) ++ plainText digits exponent ∧
      (number.isFinite = true → Decimal.IsPlain digits ∧
        Decimal.word ⟨digitsValue digits, exponent⟩ = number.magnitude) := by
  refine ⟨Decimal.withoutZeros (Nat.toDigits 10 (Decimal.shortest number).digits),
    (Decimal.shortest number).exponent +
      ((Nat.toDigits 10 (Decimal.shortest number).digits).length -
        (Decimal.withoutZeros (Nat.toDigits 10 (Decimal.shortest number).digits)).length : Nat),
    ?_, fun finite => ?_⟩
  · unfold renderPlain
    rw [if_neg nonzero, String.toList_append, String.toList_ofList]
    cases number.isNegative <;> rfl
  · have word := Decimal.shortest_word finite
    have positive : 0 < (Decimal.shortest number).digits := by
      rw [Nat.pos_iff_ne_zero]
      intro none
      rw [Decimal.word, none] at word
      exact nonzero word.symm
    refine ⟨Decimal.isPlain_withoutZeros positive, ?_⟩
    have whole := Decimal.withoutZeros_append (Nat.toDigits 10 (Decimal.shortest number).digits)
    have value := congrArg digitsValue whole
    rw [digitsValue_toDigits, Decimal.digitsValue_zeros] at value
    rw [← word, ← Decimal.word_shifted, ← value, Int.add_sub_cancel]

end Binary64

namespace Json.Parser

/-- A finite number is read back from its text, down to the sign of a zero. -/
theorem number?_renderPlain {number : Binary64} (finite : number.isFinite = true)
    {rest : List Char} (ends : Stops continuesNumber rest) :
    number? (number.renderPlain.toList ++ rest) = some (.float number, rest) := by
  have whole := Binary64.ofMagnitude_magnitude number
  obtain ⟨text, written, reads⟩ : ∃ text,
      number.renderPlain.toList = (if number.isNegative then ['-'] else []) ++ text ∧
        ReadsWord text rest number.magnitude := by
    by_cases zero : number.magnitude = 0
    · refine ⟨['0', '.', '0'], ?_, ?_⟩
      · unfold Binary64.renderPlain
        rw [if_pos zero, String.toList_append]
        cases number.isNegative <;> rfl
      · have digit : IsRun Char.isDigit ['0'] := IsRun.cons (by decide) IsRun.nil
        rw [zero]
        exact readsWord_point digit (.inr rfl) digit (List.cons_ne_nil _ _) ends
    · obtain ⟨digits, exponent, written, plain⟩ := Binary64.renderPlain_eq zero
      obtain ⟨isPlain, word⟩ := plain finite
      exact ⟨_, written, word ▸ readsWord_plainText isPlain exponent ends⟩
  have read := reads number.isNegative
  rw [whole] at read
  rw [written, ← read]
  cases number.isNegative <;> rfl

/-! ### Whole numbers -/

/-- Digits alone are read as a whole number, as long as it fits. -/
theorem number?_toDigits (number : Nat) {rest : List Char} (ends : Stops continuesNumber rest)
    (negative : Bool) :
    number? (if negative then '-' :: (Nat.toDigits 10 number ++ rest)
        else Nat.toDigits 10 number ++ rest) =
      some (numberOf negative (Nat.toDigits 10 number) none none, rest) := by
  have run := isRun_toDigits number
  have stops := stops_isDigit ends
  have noPoint : rest.head? ≠ some '.' := by
    intro point
    exact absurd (ends '.' (by rw [point]; rfl)) (by decide)
  rcases Nat.eq_zero_or_pos number with rfl | positive
  · have digit : IsRun Char.isDigit ['0'] := IsRun.cons (by decide) IsRun.nil
    exact number?_parts (isDigit_ne_minus (by decide) _) (wholePart?_run digit (.inr rfl) stops)
      (fractionPart?_none noPoint) (exponentPart?_none ends) negative
  · obtain ⟨first, more, digits, notZero⟩ := Decimal.toDigits_eq_cons positive
    rw [digits] at run ⊢
    exact number?_parts (isDigit_ne_minus (run first List.mem_cons_self) _)
      (wholePart?_run run (.inl notZero) stops) (fractionPart?_none noPoint)
      (exponentPart?_none ends) negative

/-- A whole number that fits a word of 64 bits, with a sign or without, is read back. -/
theorem number?_toString {value : Int} (above : -(twoTo 63 : Int) ≤ value)
    (below : value < twoTo 64) {rest : List Char} (ends : Stops continuesNumber rest) :
    number? ((toString value).toList ++ rest) = some (.int value, rest) := by
  rw [Int.toString_eq_repr, Int.repr_eq_if]
  split
  · next nonnegative =>
    have fits : decide (value.toNat < twoTo 64) = true := decide_eq_true (by omega)
    have read := number?_toDigits value.toNat ends false
    rw [if_neg Bool.false_ne_true] at read
    rw [Nat.toList_repr, read, numberOf]
    simp only [digitsValue_toDigits, fits, Option.isNone_none, Bool.and_self, Bool.not_false,
      if_true, Int.toNat_of_nonneg nonnegative]
  · next negative =>
    have fits : decide ((-value).toNat ≤ twoTo 63) = true := decide_eq_true (by omega)
    have nonzero : ((-value).toNat != 0) = true := by
      rw [bne_iff_ne]
      omega
    have read := number?_toDigits (-value).toNat ends true
    have opposite : ((-value).toNat : Int) = -value := Int.toNat_of_nonneg (by omega)
    rw [if_pos rfl] at read
    rw [String.toList_append, Nat.toList_repr]
    refine read.trans ?_
    rw [numberOf]
    simp only [digitsValue_toDigits, fits, nonzero, opposite, Option.isNone_none, Bool.and_self,
      Bool.not_true, Bool.and_false, Bool.false_and, Bool.false_eq_true, if_false, if_true,
      Int.neg_neg]

/-! ### The characters of numbers -/

/-- A character that the text of a number in JSON may hold. -/
def isNumeralChar (char : Char) : Bool :=
  isNumberChar char || char == 'e'

theorem isRun_isNumeralChar {text : List Char} (run : IsRun isNumberChar text) :
    IsRun isNumeralChar text := by
  intro char member
  rw [isNumeralChar, run char member, Bool.true_or]

theorem isRun_plainText {digits : List Char} (run : IsRun Char.isDigit digits) (exponent : Int) :
    IsRun isNumeralChar (plainText digits exponent) := by
  have digit := isRun_isNumeralChar (isRun_isNumberChar run)
  have zeros : ∀ count, IsRun isNumeralChar (List.replicate count '0') :=
    fun count => isRun_isNumeralChar (isRun_isNumberChar (isRun_zeros count))
  have taken : ∀ count, IsRun isNumeralChar (digits.take count) :=
    fun count char member => digit char (List.mem_of_mem_take member)
  have dropped : ∀ count, IsRun isNumeralChar (digits.drop count) :=
    fun count char member => digit char (List.mem_of_mem_drop member)
  have point : isNumeralChar '.' = true := by decide
  have zero : isNumeralChar '0' = true := by decide
  rw [plainText]
  dsimp only
  split
  · exact (digit.append (zeros _)).append (.cons point (.cons zero .nil))
  · split
    · exact (taken _).append (.cons point (dropped _))
    · split
      · exact ((IsRun.cons zero (.cons point .nil)).append (zeros _)).append digit
      · refine (((taken 1).append ?_).append (.cons (by decide) .nil)).append
          (isRun_isNumeralChar (isRun_toString _))
        split
        · exact .nil
        · exact .cons point (dropped 1)

theorem isRun_renderPlain {number : Binary64} (finite : number.isFinite = true) :
    IsRun isNumeralChar number.renderPlain.toList := by
  have sign : IsRun isNumeralChar (if number.isNegative then ['-'] else []) := by
    cases number.isNegative with
    | true => exact .cons (by decide) .nil
    | false => exact .nil
  by_cases zero : number.magnitude = 0
  · unfold Binary64.renderPlain
    rw [if_pos zero, String.toList_append]
    cases number.isNegative <;> exact List.all_eq_true.mp (by decide)
  · obtain ⟨digits, exponent, written, plain⟩ := Binary64.renderPlain_eq zero
    rw [written]
    exact sign.append (isRun_plainText (plain finite).1.run exponent)

end Json.Parser

end CiTelemetry
