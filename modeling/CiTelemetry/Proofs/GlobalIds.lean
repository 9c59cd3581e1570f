/-
This file proves which texts are global ids, and of which numbers. The last
segment of a path is told without searching for it; a signed word of 64 bits that
is positive is written as digits with an optional plus before them, zeros in front
included; and what is none of this is refused under its own name. The ids of
projects are read back, as far as there are any.
-/

import CiTelemetry.Identity
import CiTelemetry.Proofs.NumberText

namespace CiTelemetry

/-! ### Numerals -/

/-- How a whole number that is not negative may be written: digits, at least one of them, with an
optional plus before them. -/
inductive IsNumeral : List Char → Int → Prop
  | unsigned {digits : List Char} (present : digits ≠ []) (run : IsRun Char.isDigit digits) :
      IsNumeral digits (Nat.ofDigitChars 10 digits 0)
  | signed {digits : List Char} (present : digits ≠ []) (run : IsRun Char.isDigit digits) :
      IsNumeral ('+' :: digits) (Nat.ofDigitChars 10 digits 0)

theorem integer?_of_isNumeral {text : List Char} {number : Int}
    (isNumeral : IsNumeral text number) :
    integer? text = some number := by
  cases isNumeral with
  | unsigned present run => rw [(integer?_digits run present).1, digitsValue_eq]
  | @signed digits present run =>
    rw [← digitsValue_eq, integer?, splitSign]
    simp [List.isEmpty_eq_false_iff.mpr present, List.all_eq_true.mpr run]

theorem splitSign_cases (text : List Char) :
    (∃ rest, text = '-' :: rest ∧ splitSign text = (true, rest)) ∨
      (∃ rest, text = '+' :: rest ∧ splitSign text = (false, rest)) ∨
      splitSign text = (false, text) := by
  unfold splitSign
  split
  · exact .inl ⟨_, rfl, rfl⟩
  · exact .inr (.inl ⟨_, rfl, rfl⟩)
  · exact .inr (.inr rfl)

/-- What an integer is made of once its sign is split off. -/
theorem of_integer? {text digits : List Char} {negative : Bool} {number : Int}
    (sign : splitSign text = (negative, digits)) (read : integer? text = some number) :
    digits ≠ [] ∧ IsRun Char.isDigit digits ∧
      number = if negative then -(Nat.ofDigitChars 10 digits 0 : Int)
        else Nat.ofDigitChars 10 digits 0 := by
  rw [integer?, sign] at read
  dsimp only at read
  split at read
  · cases read
  · next accepted =>
    rw [Bool.or_eq_true, not_or, Bool.not_eq_true', Bool.not_eq_false] at accepted
    cases read
    rw [digitsValue_eq]
    exact ⟨fun none => accepted.1 (List.isEmpty_iff.mpr none), List.all_eq_true.mp accepted.2, rfl⟩

/-- With a minus before it no integer is positive, and all others are numerals. -/
theorem isNumeral_of_integer? {text : List Char} {number : Int} (positive : 0 < number)
    (read : integer? text = some number) : IsNumeral text number := by
  rcases splitSign_cases text with ⟨rest, rfl, sign⟩ | ⟨rest, rfl, sign⟩ | sign
  · obtain ⟨_, _, value⟩ := of_integer? sign read
    rw [if_pos rfl] at value
    omega
  · obtain ⟨present, run, rfl⟩ := of_integer? sign read
    exact .signed present run
  · obtain ⟨present, run, rfl⟩ := of_integer? sign read
    exact .unsigned present run

theorem fitsSigned64_of_pos {number : Int} (positive : 0 < number) :
    fitsSigned64 number = true ↔ number < twoTo 63 := by
  have negative : -(twoTo 63 : Int) ≤ number := by omega
  rw [fitsSigned64, Bool.and_eq_true, decide_eq_true_eq, decide_eq_true_eq]
  exact and_iff_right negative

namespace GlobalId

/-! ### The last segment -/

/-- What stands after the last slash of a path; the whole path where there is none. -/
inductive IsLastSegment (segment : List Char) : List Char → Prop
  | whole (noSlash : '/' ∉ segment) : IsLastSegment segment segment
  | after (before : List Char) (noSlash : '/' ∉ segment) :
      IsLastSegment segment (before ++ '/' :: segment)

theorem lastSegment_of_notMem {segment : List Char} (noSlash : '/' ∉ segment) :
    lastSegment segment = segment := by
  cases segment with
  | nil => rfl
  | cons char rest =>
    obtain ⟨other, notAfter⟩ := not_or.mp (mt List.mem_cons.mpr noSlash)
    simp [lastSegment, notAfter, Ne.symm other]

theorem lastSegment_of_mem {char : Char} {rest : List Char} (further : '/' ∈ rest) :
    lastSegment (char :: rest) = lastSegment rest := by
  simp [lastSegment, further]

theorem lastSegment_slash {segment : List Char} (before : List Char) (noSlash : '/' ∉ segment) :
    lastSegment (before ++ '/' :: segment) = segment := by
  induction before with
  | nil => simp [lastSegment, noSlash]
  | cons char more inductionHypothesis =>
    rw [List.cons_append, lastSegment_of_mem, inductionHypothesis]
    exact List.mem_append_right _ List.mem_cons_self

theorem IsLastSegment.cons {segment rest : List Char} (isLast : IsLastSegment segment rest)
    {char : Char} (further : '/' ∈ rest) : IsLastSegment segment (char :: rest) := by
  cases isLast with
  | whole noSlash => exact absurd further noSlash
  | after before noSlash => exact .after (char :: before) noSlash

theorem isLastSegment_lastSegment (path : List Char) : IsLastSegment (lastSegment path) path := by
  induction path with
  | nil => exact .whole List.not_mem_nil
  | cons char rest inductionHypothesis =>
    by_cases further : '/' ∈ rest
    · rw [lastSegment_of_mem further]
      exact inductionHypothesis.cons further
    · by_cases isSlash : char = '/'
      · rw [isSlash, show lastSegment ('/' :: rest) = rest from lastSegment_slash [] further]
        exact .after [] further
      · have noSlash : '/' ∉ char :: rest :=
          List.not_mem_cons_of_ne_of_not_mem (Ne.symm isSlash) further
        rw [lastSegment_of_notMem noSlash]
        exact .whole noSlash

theorem lastSegment_eq_iff {path segment : List Char} :
    lastSegment path = segment ↔ IsLastSegment segment path := by
  constructor
  · rintro rfl
    exact isLastSegment_lastSegment path
  · intro isLast
    cases isLast with
    | whole noSlash => exact lastSegment_of_notMem noSlash
    | after before noSlash => exact lastSegment_slash before noSlash

/-! ### Global ids -/

/-- A text that is the global id of a number. -/
structure Names (text : String) (number : Int) : Prop where
  /-- Behind the scheme stands a path, and in its last segment the number. -/
  written : ∃ (path : String) (segment : List Char), text = scheme ++ path ∧
    IsLastSegment segment path.toList ∧ IsNumeral segment number
  positive : 0 < number
  fits : number < twoTo 63

theorem number?_append (path : String) :
    number? (scheme ++ path) = (integer64? (lastSegment path.toList)).filter (0 < ·) := by
  have begins : scheme.toList.isPrefixOf (scheme ++ path).toList = true := by
    rw [String.toList_append, List.isPrefixOf_iff_prefix]
    exact List.prefix_append _ _
  have behind : (scheme ++ path).toList.drop scheme.length = path.toList := by
    rw [String.toList_append, ← String.length_toList, List.drop_left]
  rw [number?, if_pos begins, behind]

/-- What has a number begins with the scheme. -/
theorem exists_path {text : String} {number : Int} (named : number? text = some number) :
    ∃ path, text = scheme ++ path := by
  rw [number?] at named
  split at named
  · next begins =>
    obtain ⟨path, whole⟩ := List.isPrefixOf_iff_prefix.mp begins
    refine ⟨String.ofList path, String.toList_inj.mp ?_⟩
    rw [String.toList_append, String.toList_ofList, whole]
  · cases named

theorem integer64?_eq_some_iff {segment : List Char} {number : Int} (positive : 0 < number) :
    integer64? segment = some number ↔ IsNumeral segment number ∧ number < twoTo 63 := by
  rw [integer64?, Option.filter_eq_some_iff, fitsSigned64_of_pos positive]
  exact and_congr_left fun _ => ⟨isNumeral_of_integer? positive, integer?_of_isNumeral⟩

theorem number?_eq_some_iff {text : String} {number : Int} :
    number? text = some number ↔ Names text number := by
  constructor
  · intro named
    obtain ⟨path, rfl⟩ := exists_path named
    rw [number?_append, Option.filter_eq_some_iff, decide_eq_true_eq] at named
    obtain ⟨isNumber, positive⟩ := named
    obtain ⟨isNumeral, fits⟩ := (integer64?_eq_some_iff positive).mp isNumber
    exact ⟨⟨path, _, rfl, isLastSegment_lastSegment path.toList, isNumeral⟩, positive, fits⟩
  · rintro ⟨⟨path, segment, rfl, isLast, isNumeral⟩, positive, fits⟩
    rw [number?_append, Option.filter_eq_some_iff, decide_eq_true_eq,
      lastSegment_eq_iff.mpr isLast]
    exact ⟨(integer64?_eq_some_iff positive).mpr ⟨isNumeral, fits⟩, positive⟩

/-- Zeros in front and a plus are read, and the path may be anything, even empty. -/
example : number? "gid://gitlab//Ci::Build/+007" = some 7 ∧ number? "gid://gitlab/5" = some 5 ∧
    number? "gid://gitlab/5/" = none ∧ number? "gid://gitlab/9223372036854775808" = none := by
  decide +kernel

/-- The failure of a text that is no global id. -/
def malformed (text : String) : SyncError :=
  .conversion ("malformed global id '" ++ text ++ "'")

theorem parse_eq_ok_iff {text : String} {number : Int} :
    parse text = .ok number ↔ Names text number := by
  rw [← number?_eq_some_iff, parse]
  cases number? text <;> simp

theorem parse_eq_error_iff {text : String} {error : SyncError} :
    parse text = .error error ↔ error = malformed text ∧ ∀ number, ¬ Names text number := by
  simp only [← number?_eq_some_iff, parse]
  cases number? text <;> simp [malformed, eq_comm]

/-! ### Projects -/

theorem lastSegment_project (project : Int) :
    lastSegment ("Project/" ++ toString project).toList = (toString project).toList := by
  have noSlash : '/' ∉ (toString project).toList := fun member =>
    absurd (isRun_toString project '/' member) (by decide)
  rw [String.toList_append]
  exact lastSegment_slash "Project".toList noSlash

theorem number?_ofProject (project : Int) :
    number? (ofProject project) =
      if 0 < project ∧ project < twoTo 63 then some project else none := by
  rw [ofProject, String.append_assoc, number?_append, lastSegment_project, integer64?,
    integer?_toString, Option.filter_filter, Option.filter_some]
  refine if_congr ?_ rfl rfl
  rw [Bool.and_eq_true, decide_eq_true_eq, and_comm]
  exact and_congr_right fitsSigned64_of_pos

/-- Which texts are global ids: the scheme, then any path whose last segment is a positive number
below the sixty-third power of two, with a plus or without. All others are refused under their own
name. So the ids of projects with such numbers are read back, and those of others are refused. -/
theorem parse_exact :
    (∀ text number, parse text = .ok number ↔ Names text number) ∧
      (∀ text error,
        parse text = .error error ↔ error = malformed text ∧ ∀ number, ¬ Names text number) ∧
      ∀ project, parse (ofProject project) =
        if 0 < project ∧ project < twoTo 63 then .ok project
        else .error (malformed (ofProject project)) := by
  refine ⟨fun _ _ => parse_eq_ok_iff, fun _ _ => parse_eq_error_iff, fun project => ?_⟩
  rw [parse, number?_ofProject]
  by_cases named : 0 < project ∧ project < twoTo 63
  · rw [if_pos named, if_pos named]
  · rw [if_neg named, if_neg named]
    rfl

end GlobalId

end CiTelemetry
