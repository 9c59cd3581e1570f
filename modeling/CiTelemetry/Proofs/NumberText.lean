/-
This file proves that written numbers are read back. A run of digits has the
value that it was written from; a numeral that is written out in full is read as
a numeral of the same word; and the shortest numeral of a number reads back to
it, whether one of the seventeen attempts finds it or the exact value has to
stand in. From these every number that is one has a text that is read back.
-/

import CiTelemetry.Proofs.Rounding
import CiTelemetry.Proofs.Runs

namespace CiTelemetry

/-! ### Runs of digits -/

theorem digitsValue_eq (digits : List Char) :
    digitsValue digits = Nat.ofDigitChars 10 digits 0 := by
  unfold digitsValue
  rw [Nat.ofDigitChars_eq_foldl]
  congr 1
  funext value digit
  rw [Nat.mul_comm]
  rfl

theorem digitsValue_toDigits (number : Nat) : digitsValue (Nat.toDigits 10 number) = number := by
  rw [digitsValue_eq, Nat.ofDigitChars_ten_toDigits]

/-- Zeros before digits do not count. -/
theorem digitsValue_padded (count : Nat) (digits : List Char) :
    digitsValue (List.replicate count '0' ++ digits) = digitsValue digits := by
  rw [digitsValue_eq, digitsValue_eq, Nat.ofDigitChars_append, Nat.ofDigitChars_replicate_zero,
    Nat.mul_zero]

theorem isRun_toDigits (number : Nat) : IsRun Char.isDigit (Nat.toDigits 10 number) :=
  fun _ member => Nat.isDigit_of_mem_toDigits (by decide) (by decide) member

/-- Zeros after the digits of a positive number multiply it by a power of ten. -/
theorem toDigits_mul_tenTo {number : Nat} (positive : 0 < number) (exponent : Nat) :
    Nat.toDigits 10 (number * tenTo exponent) =
      Nat.toDigits 10 number ++ List.replicate exponent '0' := by
  induction exponent with
  | zero => rw [show tenTo 0 = 1 from rfl, Nat.mul_one, List.replicate_zero, List.append_nil]
  | succ exponent inductionHypothesis =>
    have step : number * tenTo (exponent + 1) = 10 * (number * tenTo exponent) + 0 := by
      rw [show tenTo (exponent + 1) = tenTo exponent * 10 from rfl]
      ring
    have larger : 0 < number * tenTo exponent := Nat.mul_pos positive (tenTo_pos exponent)
    rw [step, ← Nat.toDigits_append_toDigits (by decide) larger (by decide), inductionHypothesis,
      Nat.toDigits_zero, List.append_assoc, List.replicate_succ']

/-! ### Integers -/

theorem splitSign_of_isRun {text : List Char} (run : IsRun Char.isDigit text) :
    splitSign text = (false, text) := by
  unfold splitSign
  split
  · exact absurd (run '-' List.mem_cons_self) (by decide)
  · exact absurd (run '+' List.mem_cons_self) (by decide)
  · rfl

/-- Digits are an integer, with a minus before them or without. -/
theorem integer?_digits {digits : List Char} (run : IsRun Char.isDigit digits)
    (present : digits ≠ []) :
    integer? digits = some (digitsValue digits : Int) ∧
      integer? ('-' :: digits) = some (-(digitsValue digits : Int)) := by
  have nonempty : digits.isEmpty = false := List.isEmpty_eq_false_iff.mpr present
  have allDigits : digits.all Char.isDigit = true := List.all_eq_true.mpr run
  constructor
  · rw [integer?, splitSign_of_isRun run]
    simp [nonempty, allDigits]
  · rw [integer?, splitSign]
    simp [nonempty, allDigits]

/-- An integer that was written is read back. -/
theorem integer?_toString (value : Int) : integer? (toString value).toList = some value := by
  have digits (number : Nat) := integer?_digits (isRun_toDigits number) Nat.toDigits_ne_nil
  rw [Int.toString_eq_repr, Int.repr_eq_if]
  split
  · next nonnegative =>
    rw [Nat.toList_repr, (digits value.toNat).1, digitsValue_toDigits,
      Int.toNat_of_nonneg nonnegative]
  · next negative =>
    rw [String.toList_append, Nat.toList_repr]
    show integer? ('-' :: Nat.toDigits 10 (-value).toNat) = some value
    rw [(digits (-value).toNat).2, digitsValue_toDigits, Int.toNat_of_nonneg (by omega),
      Int.neg_neg]

theorem integer64?_toString {value : Int} (fits : fitsSigned64 value = true) :
    integer64? (toString value).toList = some value := by
  rw [integer64?, integer?_toString]
  exact if_pos fits

namespace Decimal

/-! ### Reading numerals -/

/-- Digits alone are a whole numeral. -/
theorem read?_digits {digits : List Char} (run : IsRun Char.isDigit digits)
    (present : digits ≠ []) : read? digits = some ⟨digitsValue digits, 0⟩ := by
  have taken := takeWhile_run_append run (Stops.nil Char.isDigit)
  have left := dropWhile_run_append run (Stops.nil Char.isDigit)
  rw [List.append_nil] at taken left
  have nonempty : digits.isEmpty = false := List.isEmpty_eq_false_iff.mpr present
  simp [read?, taken, left, nonempty, exponentPart?]

/-- Digits around a point are a numeral with as many places as digits stand after the point. -/
theorem read?_point {whole fraction : List Char} (left : IsRun Char.isDigit whole)
    (right : IsRun Char.isDigit fraction) (present : whole ≠ []) :
    read? (whole ++ '.' :: fraction) =
      some ⟨digitsValue (whole ++ fraction), -(fraction.length : Int)⟩ := by
  have point : Stops Char.isDigit ('.' :: fraction) := Stops.cons (by decide) fraction
  have taken := takeWhile_run_append right (Stops.nil Char.isDigit)
  have rest := dropWhile_run_append right (Stops.nil Char.isDigit)
  rw [List.append_nil] at taken rest
  have nonempty : whole.isEmpty = false := List.isEmpty_eq_false_iff.mpr present
  simp [read?, takeWhile_run_append left point, dropWhile_run_append left point, taken, rest,
    nonempty, exponentPart?]

/-- A numeral has no sign. -/
theorem splitSign_of_read? {text : List Char} {numeral : Decimal}
    (read : read? text = some numeral) : splitSign text = (false, text) := by
  unfold splitSign
  split
  · exact absurd read (by simp [read?])
  · exact absurd read (by simp [read?])
  · rfl

/-! ### Writing numerals in full -/

/-- The numeral that a numeral is read as once it is written out in full. -/
def inFull (numeral : Decimal) : Decimal :=
  if 0 ≤ numeral.exponent then ⟨numeral.digits * tenTo numeral.exponent.toNat, 0⟩ else numeral

theorem digitCount_mul_tenTo {number : Nat} (positive : 0 < number) (exponent : Nat) :
    digitCount (number * tenTo exponent) = digitCount number + exponent := by
  rw [digitCount, toDigits_mul_tenTo positive, List.length_append, List.length_replicate,
    digitCount]

/-- Writing a numeral out in full does not change its word. -/
theorem word_inFull (numeral : Decimal) : numeral.inFull.word = numeral.word := by
  obtain ⟨digits, exponent⟩ := numeral
  unfold inFull
  split
  · next nonnegative =>
    obtain ⟨places, rfl⟩ := Int.eq_ofNat_of_zero_le nonnegative
    rcases Nat.eq_zero_or_pos digits with rfl | positive
    · simp [word]
    · have larger := Nat.mul_pos positive (tenTo_pos places)
      have size := digitCount_mul_tenTo positive places
      have nothing : tenTo 0 = 1 := rfl
      simp [word, size, positive.ne', larger.ne', nothing]
  · rfl

theorem render_whole {numeral : Decimal} (whole : 0 ≤ numeral.exponent) :
    numeral.render.toList =
      Nat.toDigits 10 (numeral.digits * tenTo numeral.exponent.toNat) := by
  unfold render
  rw [if_pos whole, String.toList_ofList]
  split
  · next zero => rw [zero, Nat.zero_mul]
  · next nonzero => rw [toDigits_mul_tenTo (Nat.pos_of_ne_zero nonzero)]

/-- The digits of a numeral with a fraction, with the zeros before them that the fraction needs
in order to have a digit before its point. -/
def padded (numeral : Decimal) : List Char :=
  List.replicate ((-numeral.exponent).toNat + 1 - digitCount numeral.digits) '0' ++
    Nat.toDigits 10 numeral.digits

theorem isRun_padded (numeral : Decimal) : IsRun Char.isDigit numeral.padded := by
  refine IsRun.append ?_ (isRun_toDigits numeral.digits)
  intro char member
  rw [(List.mem_replicate.mp member).2]
  decide

theorem padded_length (numeral : Decimal) :
    (-numeral.exponent).toNat + 1 ≤ numeral.padded.length := by
  unfold padded
  rw [List.length_append, List.length_replicate, ← digitCount]
  omega

/-- How a numeral with a fraction is cut at its point. -/
theorem render_fraction {numeral : Decimal} (fraction : ¬ 0 ≤ numeral.exponent) :
    ∃ before after, numeral.render.toList = before ++ '.' :: after ∧
      before ++ after = numeral.padded ∧ before ≠ [] ∧
        (after.length : Int) = -numeral.exponent := by
  have long := padded_length numeral
  refine ⟨numeral.padded.take (numeral.padded.length - (-numeral.exponent).toNat),
    numeral.padded.drop (numeral.padded.length - (-numeral.exponent).toNat), ?_,
    List.take_append_drop _ _, ?_, ?_⟩
  · unfold render
    rw [if_neg fraction, String.toList_ofList]
    rfl
  · rw [← List.length_pos_iff, List.length_take]
    omega
  · rw [List.length_drop]
    omega

/-- A numeral that was written is read back as a numeral of the same value. -/
theorem read?_render (numeral : Decimal) :
    read? numeral.render.toList = some numeral.inFull := by
  unfold inFull
  split
  · next whole =>
    rw [render_whole whole, read?_digits (isRun_toDigits _) Nat.toDigits_ne_nil,
      digitsValue_toDigits]
  · next fraction =>
    obtain ⟨before, after, written, cut, present, places⟩ := render_fraction fraction
    have run := isRun_padded numeral
    rw [← cut] at run
    have left : IsRun Char.isDigit before := fun _ member => run _ (List.mem_append_left _ member)
    have right : IsRun Char.isDigit after := fun _ member => run _ (List.mem_append_right _ member)
    rw [written, read?_point left right present, cut, padded, digitsValue_padded,
      digitsValue_toDigits, places, Int.neg_neg]

/-! ### The shortest numeral -/

/-- A neighbour on a grid is taken only if it reads back. -/
theorem onGrid?_word {target numerator denominator : Nat} {exponent : Int} {numeral : Decimal}
    (found : onGrid? target numerator denominator exponent = some numeral) :
    numeral.word = target := by
  simp only [onGrid?, Bool.and_eq_true, beq_iff_eq] at found
  split at found
  · next both =>
    split at found
    · cases found
      exact both.1
    · cases found
      exact both.2
  · split at found
    · next lower =>
      cases found
      exact lower
    · split at found
      · next upper =>
        cases found
        exact upper
      · cases found

/-- The shortest numeral of a finite number reads back to it. -/
theorem shortest_word {number : Binary64} (finite : number.isFinite = true) :
    (shortest number).word = number.magnitude := by
  unfold shortest
  split
  · next zero =>
    rw [zero]
    rfl
  · next nonzero =>
    simp only
    generalize attempts : (List.range 17).findSome? _ = found
    cases found with
    | none => exact exact_word finite nonzero
    | some numeral =>
      obtain ⟨index, _, taken⟩ := List.exists_of_findSome?_eq_some attempts
      exact onGrid?_word taken

end Decimal

namespace Binary64

/-! ### Numbers -/

theorem ofMagnitude_magnitude (number : Binary64) :
    ofMagnitude number.isNegative number.magnitude = number := by
  obtain ⟨bits⟩ := number
  have small : bits.toNat < 2 ^ 64 := bits.toNat_lt
  have sign : signWord = 2 ^ 63 := rfl
  unfold ofMagnitude isNegative magnitude
  simp only [mk.injEq, ← UInt64.toNat_inj, UInt64.toNat_ofNat', sign]
  by_cases negative : 2 ^ 63 ≤ bits.toNat
  · rw [if_pos (decide_eq_true negative)]
    omega
  · rw [if_neg (by simpa using negative)]
    omega

/-- A numeral is read as a number of its word, and with a minus before it as its opposite. -/
theorem read?_numeral {text : List Char} {numeral : Decimal}
    (read : Decimal.read? text = some numeral) :
    read? text = some (ofMagnitude false numeral.word) ∧
      read? ('-' :: text) = some (ofMagnitude true numeral.word) := by
  constructor
  · rw [read?, Decimal.splitSign_of_read? read]
    simp only [read]
  · rw [read?, splitSign]
    simp only [read]

/-- The text of a number without its sign. -/
def unsignedText (number : Binary64) : String :=
  if number.isInfinite then "inf" else (Decimal.shortest number).render

theorem render_eq {number : Binary64} (isNumber : number.isNaN = false) :
    number.render.toList =
      if number.isNegative then '-' :: number.unsignedText.toList
      else number.unsignedText.toList := by
  unfold render
  rw [isNumber, if_neg Bool.false_ne_true, ← unsignedText]
  cases number.isNegative with
  | true =>
    rw [if_pos rfl, if_pos rfl, String.toList_append]
    rfl
  | false => rw [if_neg Bool.false_ne_true, if_neg Bool.false_ne_true]

/-- The text of a number without its sign is read with either sign before it. -/
theorem read?_unsignedText {number : Binary64} (isNumber : number.isNaN = false) :
    read? number.unsignedText.toList = some (ofMagnitude false number.magnitude) ∧
      read? ('-' :: number.unsignedText.toList) = some (ofMagnitude true number.magnitude) := by
  have bound : ¬ infinityWord < number.magnitude := of_decide_eq_false isNumber
  unfold unsignedText
  by_cases infinite : number.isInfinite = true
  · rw [if_pos infinite, eq_of_beq infinite]
    constructor <;> decide
  · have different : number.magnitude ≠ infinityWord := fun same => infinite (beq_iff_eq.mpr same)
    have finite : number.isFinite = true := decide_eq_true (by omega)
    rw [if_neg infinite, ← Decimal.shortest_word finite, ← Decimal.word_inFull]
    exact read?_numeral (Decimal.read?_render _)

/-- A number that was written is read back, down to the sign of a zero. -/
theorem read?_render {number : Binary64} (isNumber : number.isNaN = false) :
    read? number.render.toList = some number := by
  have whole := ofMagnitude_magnitude number
  obtain ⟨positive, negative⟩ := read?_unsignedText isNumber
  rw [render_eq isNumber]
  cases sign : number.isNegative with
  | true =>
    rw [sign] at whole
    rw [if_pos rfl, negative, whole]
  | false =>
    rw [sign] at whole
    rw [if_neg Bool.false_ne_true, positive, whole]

end Binary64

/-! ### The characters of numbers -/

/-- A character that the text of a number may hold. -/
def isNumberChar (char : Char) : Bool :=
  char.isDigit || ".-infNa".toList.contains char

theorem isRun_isNumberChar {text : List Char} (run : IsRun Char.isDigit text) :
    IsRun isNumberChar text := by
  intro char member
  rw [isNumberChar, run char member, Bool.true_or]

theorem isRun_numeral (numeral : Decimal) : IsRun isNumberChar numeral.render.toList := by
  by_cases whole : 0 ≤ numeral.exponent
  · rw [Decimal.render_whole whole]
    exact isRun_isNumberChar (isRun_toDigits _)
  · obtain ⟨before, after, written, cut, _, _⟩ := Decimal.render_fraction whole
    have run := isRun_isNumberChar (Decimal.isRun_padded numeral)
    rw [← cut] at run
    rw [written]
    intro char member
    rcases List.mem_append.mp member with inside | inside
    · exact run char (List.mem_append_left _ inside)
    · rcases List.mem_cons.mp inside with rfl | inside
      · decide
      · exact run char (List.mem_append_right _ inside)

theorem isRun_toString (value : Int) : IsRun isNumberChar (toString value).toList := by
  rw [Int.toString_eq_repr, Int.repr_eq_if]
  split
  · rw [Nat.toList_repr]
    exact isRun_isNumberChar (isRun_toDigits _)
  · rw [String.toList_append, Nat.toList_repr]
    exact IsRun.cons (by decide) (isRun_isNumberChar (isRun_toDigits _))

namespace Binary64

/-- Every text of a number is made of digits, a point, a minus and the letters of two words. -/
theorem isRun_render (number : Binary64) : IsRun isNumberChar number.render.toList := by
  have unsigned : IsRun isNumberChar number.unsignedText.toList := by
    unfold unsignedText
    split
    · exact List.all_eq_true.mp (by decide)
    · exact isRun_numeral _
  cases isNumber : number.isNaN with
  | true =>
    unfold render
    rw [isNumber, if_pos rfl]
    exact List.all_eq_true.mp (by decide)
  | false =>
    rw [render_eq isNumber]
    split
    · exact IsRun.cons (by decide) unsigned
    · exact unsigned

end Binary64

end CiTelemetry
