/-
This file proves that text survives being written as bytes: the bytes of every
character are read back as that character, whatever bytes follow, so that the
strict reading undoes the writing. It also says what the bytes of a character
look like to a reader that knows only the bytes below 128.
-/

import CiTelemetry.Text.Bytes
import Mathlib.Tactic.Common

namespace CiTelemetry

namespace Utf8

/-! ### Leading bytes -/

theorem toNat_ofNat_of_lt {number : Nat} (small : number < 256) :
    (UInt8.ofNat number).toNat = number := by
  rw [UInt8.toNat_ofNat']
  exact Nat.mod_eq_of_lt small

/-- A byte given by its number, compared with two others. -/
theorem between_ofNat {number : Nat} (small : number < 256) (low high : UInt8) :
    (decide (low ≤ UInt8.ofNat number) && decide (UInt8.ofNat number ≤ high)) =
      (decide (low.toNat ≤ number) && decide (number ≤ high.toNat)) := by
  simp only [UInt8.le_iff_toNat_le, toNat_ofNat_of_lt small]

theorem leading?_ofNat {number : Nat} (small : number < 256) :
    leading? (UInt8.ofNat number) =
      if 0xC2 ≤ number ∧ number ≤ 0xDF then some (1, number % 32, 0x80, 0xBF)
      else if number = 0xE0 then some (2, 0, 0xA0, 0xBF)
      else if number = 0xED then some (2, 13, 0x80, 0x9F)
      else if 0xE1 ≤ number ∧ number ≤ 0xEF then some (2, number % 16, 0x80, 0xBF)
      else if number = 0xF0 then some (3, 0, 0x90, 0xBF)
      else if number = 0xF4 then some (3, 4, 0x80, 0x8F)
      else if 0xF1 ≤ number ∧ number ≤ 0xF3 then some (3, number % 8, 0x80, 0xBF)
      else none := by
  have value := toNat_ofNat_of_lt small
  have same : ∀ other : UInt8, (UInt8.ofNat number = other) ↔ number = other.toNat := by
    intro other
    rw [← UInt8.toNat_inj, value]
  simp only [leading?, between_ofNat small, value, beq_iff_eq, same, Bool.and_eq_true,
    decide_eq_true_eq]
  rfl

/-! ### One code point -/

theorem pieces_ascii {byte : UInt8} (ascii : byte < 0x80) (rest : Bytes) :
    pieces (byte :: rest) = some (Char.ofNat byte.toNat) :: pieces rest := by
  rw [pieces, if_pos ascii]

section Continued

variable {lead second third fourth low high : UInt8} {top : Nat}

theorem pieces_two (notAscii : ¬ lead < 0x80) (announced : leading? lead = some (1, top, low, high))
    (inRange : (decide (low ≤ second) && decide (second ≤ high)) = true) (rest : Bytes) :
    pieces (lead :: second :: rest) =
      some (Char.ofNat (top * 64 + payload second)) :: pieces rest := by
  rw [pieces, if_neg notAscii, announced]
  simp only [inRange, if_true]

theorem pieces_three (notAscii : ¬ lead < 0x80)
    (announced : leading? lead = some (2, top, low, high))
    (inRange : (decide (low ≤ second) && decide (second ≤ high)) = true)
    (continued : isContinuation third = true) (rest : Bytes) :
    pieces (lead :: second :: third :: rest) =
      some (Char.ofNat ((top * 64 + payload second) * 64 + payload third)) :: pieces rest := by
  rw [pieces, if_neg notAscii, announced]
  simp only [inRange, if_true, continued]
  rfl

theorem pieces_four (notAscii : ¬ lead < 0x80)
    (announced : leading? lead = some (3, top, low, high))
    (inRange : (decide (low ≤ second) && decide (second ≤ high)) = true)
    (continued : isContinuation third = true) (ended : isContinuation fourth = true)
    (rest : Bytes) :
    pieces (lead :: second :: third :: fourth :: rest) =
      some (Char.ofNat (((top * 64 + payload second) * 64 + payload third) * 64 +
        payload fourth)) :: pieces rest := by
  rw [pieces, if_neg notAscii, announced]
  simp only [inRange, if_true, continued, ended]
  rfl

end Continued

theorem isContinuation_ofNat (number : Nat) :
    isContinuation (UInt8.ofNat (number % 64 + 0x80)) = true := by
  have small : number % 64 + 0x80 < 256 := by omega
  rw [isContinuation, between_ofNat small, Bool.and_eq_true, decide_eq_true_eq, decide_eq_true_eq]
  exact ⟨Nat.le_add_left _ _, show _ ≤ 0xBF by omega⟩

theorem payload_ofNat (number : Nat) :
    payload (UInt8.ofNat (number % 64 + 0x80)) = number % 64 := by
  rw [payload, toNat_ofNat_of_lt (by omega)]
  omega

theorem not_ascii_ofNat {number : Nat} (large : 0x80 ≤ number) (small : number < 256) :
    ¬ UInt8.ofNat number < 0x80 := by
  rw [UInt8.lt_iff_toNat_lt, toNat_ofNat_of_lt small]
  exact Nat.not_lt.mpr large

/-- Whether the second byte of a code point lies in the range that the first one leaves it. -/
theorem second_inRange {number : Nat} {low high : UInt8} (above : low.toNat ≤ number % 64 + 0x80)
    (below : number % 64 + 0x80 ≤ high.toNat) :
    (decide (low ≤ UInt8.ofNat (number % 64 + 0x80)) &&
      decide (UInt8.ofNat (number % 64 + 0x80) ≤ high)) = true := by
  rw [between_ofNat (by omega), Bool.and_eq_true, decide_eq_true_eq, decide_eq_true_eq]
  exact ⟨above, below⟩

theorem pieces_ofNat_two {value : Nat} (large : 0x7F < value) (small : value ≤ 0x7FF)
    (rest : Bytes) :
    pieces (UInt8.ofNat (value / 64 % 32 + 0xC0) :: UInt8.ofNat (value % 64 + 0x80) :: rest) =
      some (Char.ofNat value) :: pieces rest := by
  have announced : leading? (UInt8.ofNat (value / 64 % 32 + 0xC0)) =
      some (1, (value / 64 % 32 + 0xC0) % 32, 0x80, 0xBF) := by
    rw [leading?_ofNat (by omega), if_pos (by omega)]
  rw [pieces_two (not_ascii_ofNat (by omega) (by omega)) announced
    (second_inRange (Nat.le_add_left _ _) (show _ ≤ 0xBF by omega)), payload_ofNat]
  have whole : (value / 64 % 32 + 0xC0) % 32 * 64 + value % 64 = value := by omega
  rw [whole]

/-- The first byte of a code point of three bytes leaves the second one a range in which it
lies, since the code point is neither overlong nor a surrogate. -/
theorem leading?_three {value : Nat} (large : 0x7FF < value) (small : value ≤ 0xFFFF)
    (notSurrogate : value < 0xD800 ∨ 0xDFFF < value) :
    ∃ low high : UInt8, leading? (UInt8.ofNat (value / 4096 % 16 + 0xE0)) =
        some (2, value / 4096, low, high) ∧
      low.toNat ≤ value / 64 % 64 + 0x80 ∧ value / 64 % 64 + 0x80 ≤ high.toNat := by
  rw [leading?_ofNat (by omega), if_neg (by omega)]
  by_cases first : value / 4096 = 0
  · refine ⟨0xA0, 0xBF, ?_, show 0xA0 ≤ _ by omega, show _ ≤ 0xBF by omega⟩
    rw [if_pos (by omega), first]
  by_cases surrogates : value / 4096 = 13
  · refine ⟨0x80, 0x9F, ?_, show 0x80 ≤ _ by omega, show _ ≤ 0x9F by omega⟩
    rw [if_neg (by omega), if_pos (by omega), surrogates]
  · refine ⟨0x80, 0xBF, ?_, show 0x80 ≤ _ by omega, show _ ≤ 0xBF by omega⟩
    have top : (value / 4096 % 16 + 0xE0) % 16 = value / 4096 := by omega
    rw [if_neg (by omega), if_neg (by omega), if_pos (by omega), top]

theorem pieces_ofNat_three {value : Nat} (large : 0x7FF < value) (small : value ≤ 0xFFFF)
    (notSurrogate : value < 0xD800 ∨ 0xDFFF < value) (rest : Bytes) :
    pieces (UInt8.ofNat (value / 4096 % 16 + 0xE0) :: UInt8.ofNat (value / 64 % 64 + 0x80) ::
        UInt8.ofNat (value % 64 + 0x80) :: rest) =
      some (Char.ofNat value) :: pieces rest := by
  obtain ⟨low, high, announced, above, below⟩ := leading?_three large small notSurrogate
  rw [pieces_three (not_ascii_ofNat (by omega) (by omega)) announced (second_inRange above below)
    (isContinuation_ofNat value), payload_ofNat, payload_ofNat]
  have whole : (value / 4096 * 64 + value / 64 % 64) * 64 + value % 64 = value := by omega
  rw [whole]

/-- As for three bytes: the code point is neither overlong nor beyond the last one. -/
theorem leading?_four {value : Nat} (large : 0xFFFF < value) (small : value < 0x110000) :
    ∃ low high : UInt8, leading? (UInt8.ofNat (value / 262144 % 8 + 0xF0)) =
        some (3, value / 262144, low, high) ∧
      low.toNat ≤ value / 4096 % 64 + 0x80 ∧ value / 4096 % 64 + 0x80 ≤ high.toNat := by
  rw [leading?_ofNat (by omega), if_neg (by omega), if_neg (by omega), if_neg (by omega),
    if_neg (by omega)]
  by_cases first : value / 262144 = 0
  · refine ⟨0x90, 0xBF, ?_, show 0x90 ≤ _ by omega, show _ ≤ 0xBF by omega⟩
    rw [if_pos (by omega), first]
  by_cases last : value / 262144 = 4
  · refine ⟨0x80, 0x8F, ?_, show 0x80 ≤ _ by omega, show _ ≤ 0x8F by omega⟩
    rw [if_neg (by omega), if_pos (by omega), last]
  · refine ⟨0x80, 0xBF, ?_, show 0x80 ≤ _ by omega, show _ ≤ 0xBF by omega⟩
    have top : (value / 262144 % 8 + 0xF0) % 8 = value / 262144 := by omega
    rw [if_neg (by omega), if_neg (by omega), if_pos (by omega), top]

theorem pieces_ofNat_four {value : Nat} (large : 0xFFFF < value) (small : value < 0x110000)
    (rest : Bytes) :
    pieces (UInt8.ofNat (value / 262144 % 8 + 0xF0) :: UInt8.ofNat (value / 4096 % 64 + 0x80) ::
        UInt8.ofNat (value / 64 % 64 + 0x80) :: UInt8.ofNat (value % 64 + 0x80) :: rest) =
      some (Char.ofNat value) :: pieces rest := by
  obtain ⟨low, high, announced, above, below⟩ := leading?_four large small
  rw [pieces_four (not_ascii_ofNat (by omega) (by omega)) announced (second_inRange above below)
    (isContinuation_ofNat (value / 64)) (isContinuation_ofNat value), payload_ofNat, payload_ofNat,
    payload_ofNat]
  have whole : ((value / 262144 * 64 + value / 4096 % 64) * 64 + value / 64 % 64) * 64 +
      value % 64 = value := by omega
  rw [whole]

/-- The bytes of a character are read back as that character, whatever bytes follow. -/
theorem pieces_encodeChar (char : Char) (rest : Bytes) :
    pieces (String.utf8EncodeChar char ++ rest) = some char :: pieces rest := by
  have valid : char.toNat < 0xD800 ∨ 0xDFFF < char.toNat ∧ char.toNat < 0x110000 := char.valid
  have whole : Char.ofNat char.toNat = char := Char.ofNat_toNat char
  unfold String.utf8EncodeChar
  show pieces ((if char.toNat ≤ 0x7F then _ else if char.toNat ≤ 0x7FF then _ else
    if char.toNat ≤ 0xFFFF then _ else _) ++ rest) = _
  split
  · next ascii =>
    have small : UInt8.ofNat char.toNat < 0x80 := by
      rw [UInt8.lt_iff_toNat_lt, toNat_ofNat_of_lt (by omega)]
      exact Nat.lt_succ_of_le ascii
    refine (pieces_ascii small rest).trans ?_
    rw [toNat_ofNat_of_lt (by omega), whole]
  · next notAscii =>
    split
    · next two =>
      exact (pieces_ofNat_two (Nat.not_le.mp notAscii) two rest).trans (by rw [whole])
    · next notTwo =>
      split
      · next three =>
        exact (pieces_ofNat_three (Nat.not_le.mp notTwo) three (by omega) rest).trans
          (by rw [whole])
      · next notThree =>
        exact (pieces_ofNat_four (Nat.not_le.mp notThree) (by omega) rest).trans (by rw [whole])

/-! ### Whole texts -/

theorem mapM_id_eq_some_iff {α : Type} (items : List (Option α)) (values : List α) :
    items.mapM id = some values ↔ items = values.map some := by
  induction items generalizing values with
  | nil =>
    cases values with
    | nil => exact ⟨fun _ => rfl, fun _ => rfl⟩
    | cons =>
      constructor
      · intro read
        cases read
      · intro equal
        cases equal
  | cons item rest inductionHypothesis =>
    rw [List.mapM_cons]
    constructor
    · intro read
      obtain ⟨value, found, tail⟩ := Option.bind_eq_some_iff.mp read
      obtain ⟨others, restRead, whole⟩ := Option.bind_eq_some_iff.mp tail
      cases whole
      rw [List.map_cons, ← (inductionHypothesis others).mp restRead, ← found]
      rfl
    · intro equal
      cases values with
      | nil => cases equal
      | cons value others =>
        rw [List.map_cons, List.cons.injEq] at equal
        obtain ⟨rfl, restEqual⟩ := equal
        rw [(inductionHypothesis others).mpr restEqual]
        rfl

/-- The strict reading accepts the byte sequences that fall apart into code points. -/
theorem decode?_eq_some_iff (bytes : Bytes) (text : String) :
    decode? bytes = some text ↔ pieces bytes = text.toList.map some := by
  unfold decode?
  rw [Option.map_eq_some_iff]
  constructor
  · rintro ⟨chars, read, rfl⟩
    rw [String.toList_ofList]
    exact (mapM_id_eq_some_iff _ _).mp read
  · intro equal
    exact ⟨text.toList, (mapM_id_eq_some_iff _ _).mpr equal, String.ofList_toList⟩

/-- The bytes of characters, one character after another. -/
def encodeChars (chars : List Char) : Bytes :=
  chars.flatMap String.utf8EncodeChar

theorem encode_ofList (chars : List Char) : encode (String.ofList chars) = encodeChars chars := by
  rw [encode, String.toList_ofList, encodeChars]

theorem encode_eq (text : String) : encode text = encodeChars text.toList := rfl

theorem encodeChars_append (first second : List Char) :
    encodeChars (first ++ second) = encodeChars first ++ encodeChars second :=
  List.flatMap_append

theorem encode_append (first second : String) :
    encode (first ++ second) = encode first ++ encode second := by
  rw [encode_eq, String.toList_append, encodeChars_append, encode_eq, encode_eq]

theorem pieces_encodeChars (chars : List Char) (rest : Bytes) :
    pieces (encodeChars chars ++ rest) = chars.map some ++ pieces rest := by
  induction chars with
  | nil => rfl
  | cons char others inductionHypothesis =>
    rw [encodeChars, List.flatMap_cons, List.append_assoc, pieces_encodeChar]
    exact congrArg (some char :: ·) inductionHypothesis

/-- Text that was written as bytes is read back. -/
theorem decode?_encode (text : String) : decode? (encode text) = some text := by
  have read := pieces_encodeChars text.toList []
  rw [List.append_nil, pieces, List.append_nil] at read
  exact (decode?_eq_some_iff _ _).mpr read

/-! ### What the bytes of a character look like -/

theorem encodeChar_ascii {char : Char} (ascii : char.toNat < 0x80) :
    String.utf8EncodeChar char = [UInt8.ofNat char.toNat] :=
  if_pos (Nat.le_of_lt_succ ascii)

/-- No byte of a character beyond ASCII is a byte of ASCII. -/
theorem encodeChar_beyond {char : Char} (beyond : ¬ char.toNat < 0x80) {byte : UInt8}
    (member : byte ∈ String.utf8EncodeChar char) : 0x80 ≤ byte := by
  have valid : char.toNat < 0xD800 ∨ 0xDFFF < char.toNat ∧ char.toNat < 0x110000 := char.valid
  have large : ∀ number, 0x80 ≤ number → number < 256 → (0x80 : UInt8) ≤ UInt8.ofNat number := by
    intro number low high
    rw [UInt8.le_iff_toNat_le, toNat_ofNat_of_lt high]
    exact low
  unfold String.utf8EncodeChar at member
  change byte ∈ (if char.toNat ≤ 0x7F then _ else if char.toNat ≤ 0x7FF then _ else
    if char.toNat ≤ 0xFFFF then _ else _) at member
  rw [if_neg (fun ascii => beyond (Nat.lt_succ_of_le ascii))] at member
  split at member
  · simp only [List.mem_cons, List.not_mem_nil, or_false] at member
    rcases member with rfl | rfl <;> exact large _ (by omega) (by omega)
  · split at member
    · simp only [List.mem_cons, List.not_mem_nil, or_false] at member
      rcases member with rfl | rfl | rfl <;> exact large _ (by omega) (by omega)
    · simp only [List.mem_cons, List.not_mem_nil, or_false] at member
      rcases member with rfl | rfl | rfl | rfl <;> exact large _ (by omega) (by omega)

/-- A byte of ASCII among the bytes of a character is the character. -/
theorem toNat_of_mem_encodeChar {char : Char} {byte : UInt8} (ascii : ¬ 0x80 ≤ byte)
    (member : byte ∈ String.utf8EncodeChar char) : byte.toNat = char.toNat := by
  by_cases small : char.toNat < 0x80
  · rw [encodeChar_ascii small, List.mem_singleton] at member
    rw [member, toNat_ofNat_of_lt (by omega)]
  · exact absurd (encodeChar_beyond small member) ascii

/-- A character all of whose bytes are bytes of ASCII is a character of ASCII. -/
theorem encodeChar_of_ascii_bytes {char : Char}
    (ascii : ∀ byte ∈ String.utf8EncodeChar char, ¬ 0x80 ≤ byte) : char.toNat < 0x80 := by
  by_contra beyond
  have present : 0 < (String.utf8EncodeChar char).length := by
    rw [String.length_utf8EncodeChar]
    exact char.utf8Size_pos
  obtain ⟨byte, member⟩ := List.exists_mem_of_length_pos present
  exact ascii byte member (encodeChar_beyond beyond member)

end Utf8

end CiTelemetry
