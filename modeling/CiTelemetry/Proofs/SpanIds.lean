/-
This file proves which ids of spans and traces are the same. A span id is a word
of which a tag takes the top byte; the id below it keeps 56 bits, and that of a
section is shared by 40 bits of the job and 16 bits of the index. So two span
ids are equal exactly when their tags are and the ids agree in the bits that are
kept, whatever the higher bits are. A trace id has room for the whole word.
-/

import CiTelemetry.Trace.Span
import Mathlib.Data.Int.ModEq
import Mathlib.Data.Nat.ModEq

namespace CiTelemetry

/-! ### Hexadecimal text -/

/-- The lower-case hexadecimal digits. -/
def hexAlphabet : List Char := "0123456789abcdef".toList

/-- Text of so many lower-case hexadecimal digits. -/
def IsHexText (width : Nat) (text : String) : Prop :=
  text.toList.length = width ∧ ∀ char ∈ text.toList, char ∈ hexAlphabet

theorem hexDigit_mem_alphabet {number : Nat} (small : number < 16) :
    hexDigit number ∈ hexAlphabet := by
  have all : ∀ number < 16, hexDigit number ∈ hexAlphabet := by decide
  exact all number small

theorem hexDigit_injective {number number' : Nat} (small : number < 16) (small' : number' < 16)
    (same : hexDigit number = hexDigit number') : number = number' := by
  have all : ∀ number < 16, ∀ number' < 16, hexDigit number = hexDigit number' →
      number = number' := by decide
  exact all number small number' small' same

theorem isHexText_hexDigits (width number : Nat) : IsHexText width (hexDigits width number) := by
  rw [IsHexText, hexDigits, String.toList_ofList, List.length_map, List.length_range]
  refine ⟨rfl, fun char member => ?_⟩
  obtain ⟨place, _, rfl⟩ := List.mem_map.mp member
  exact hexDigit_mem_alphabet (Nat.mod_lt _ (by decide))

/-- The last digit is that of the remainder, and the others are those of the quotient. -/
theorem hexDigits_succ (width number : Nat) :
    (hexDigits (width + 1) number).toList =
      (hexDigits width (number / 16)).toList ++ [hexDigit (number % 16)] := by
  rw [hexDigits, hexDigits, String.toList_ofList, String.toList_ofList, List.range_succ,
    List.map_append, List.map_singleton]
  congr 1
  · refine List.map_congr_left fun place member => ?_
    have within : place < width := List.mem_range.mp member
    have power : twoTo (4 * (width + 1 - 1 - place)) = 16 * twoTo (4 * (width - 1 - place)) := by
      obtain ⟨rest, rfl⟩ : ∃ rest, width = place + 1 + rest := ⟨width - place - 1, by omega⟩
      have exponents : 4 * (place + 1 + rest + 1 - 1 - place) =
          4 * (place + 1 + rest - 1 - place) + 4 := by omega
      rw [exponents]
      exact (pow_add 2 _ 4).trans (Nat.mul_comm _ _)
    rw [power, Nat.div_div_eq_div_mul]
  · have power : twoTo (4 * (width + 1 - 1 - width)) = 1 := by
      rw [Nat.add_sub_cancel, Nat.sub_self]
      rfl
    rw [power, Nat.div_one]

/-- Numbers agree in one digit more when their quotients and remainders do. -/
theorem modEq_sixteen_succ (width number number' : Nat) :
    number ≡ number' [MOD 16 ^ (width + 1)] ↔
      number / 16 ≡ number' / 16 [MOD 16 ^ width] ∧ number % 16 = number' % 16 := by
  rw [Nat.ModEq, Nat.ModEq, Nat.pow_succ', Nat.mod_mul, Nat.mod_mul]
  omega

/-- Two numbers have the same digits exactly when they agree below the digits cut off. -/
theorem hexDigits_eq_iff (width number number' : Nat) :
    hexDigits width number = hexDigits width number' ↔ number ≡ number' [MOD 16 ^ width] := by
  rw [← String.toList_inj]
  induction width generalizing number number' with
  | zero => exact iff_of_true rfl Nat.modEq_one
  | succ width inductionHypothesis =>
    rw [hexDigits_succ, hexDigits_succ, modEq_sixteen_succ, ← inductionHypothesis]
    constructor
    · intro same
      obtain ⟨front, last⟩ := List.append_inj' same rfl
      exact ⟨front, hexDigit_injective (Nat.mod_lt _ (by decide)) (Nat.mod_lt _ (by decide))
        (List.singleton_inj.mp last)⟩
    · rintro ⟨front, last⟩
      rw [front, last]

/-! ### The words of spans -/

theorem tag_injective {kind kind' : SpanKind} (same : kind.tag = kind'.tag) : kind = kind' := by
  cases kind <;> cases kind' <;> first | rfl | exact absurd same (by decide)

/-- A tag is small enough for the top byte. -/
theorem tag_lt (kind : SpanKind) : kind.tag.toNat < 2 ^ 8 := by
  cases kind <;> decide

/-- Bits above and below a place do not meet. -/
theorem shifted_or_eq_add {low : Nat} (high place : Nat) (below : low < 2 ^ place) :
    high * 2 ^ place ||| low = high * 2 ^ place + low := by
  rw [← Nat.shiftLeft_eq, Nat.shiftLeft_add_eq_or_of_lt below]

/-- The word of a span has its tag above the lowest 56 bits of the id. -/
theorem toNat_spanWord (kind : SpanKind) (id : UInt64) :
    (spanWord kind id).toNat = kind.tag.toNat * 2 ^ 56 + id.toNat % 2 ^ 56 := by
  have mask : spanIdMask.toNat = 2 ^ 56 - 1 := by decide
  have place : (56 : UInt64).toNat % 64 = 56 := by decide
  have fits : kind.tag.toNat * 2 ^ 56 < 2 ^ 64 := by
    have := tag_lt kind
    omega
  rw [spanWord, UInt64.toNat_or, UInt64.toNat_shiftLeft, UInt64.toNat_and, mask, place,
    Nat.shiftLeft_eq, Nat.mod_eq_of_lt fits, Nat.and_two_pow_sub_one_eq_mod,
    shifted_or_eq_add _ _ (Nat.mod_lt _ (by decide))]

/-- The id that the span of a section is made from has the job above the lowest 16 bits of the
index. -/
theorem toNat_sectionWord (job : UInt64) (index : Nat) :
    ((job <<< 16) ||| (UInt64.ofNat index &&& 0xFFFF)).toNat =
      job.toNat % 2 ^ 48 * 2 ^ 16 + index % 2 ^ 16 := by
  have mask : (0xFFFF : UInt64).toNat = 2 ^ 16 - 1 := by decide
  have place : (16 : UInt64).toNat % 64 = 16 := by decide
  have shifted : job.toNat * 2 ^ 16 % 2 ^ 64 = job.toNat % 2 ^ 48 * 2 ^ 16 :=
    Nat.mul_mod_mul_right (2 ^ 16) job.toNat (2 ^ 48)
  have lowest : index % 2 ^ 64 % 2 ^ 16 = index % 2 ^ 16 :=
    Nat.mod_mod_of_dvd index (by decide)
  rw [UInt64.toNat_or, UInt64.toNat_shiftLeft, UInt64.toNat_and, mask, place, Nat.shiftLeft_eq,
    Nat.and_two_pow_sub_one_eq_mod, UInt64.toNat_ofNat', shifted, lowest,
    shifted_or_eq_add _ _ (Nat.mod_lt _ (by decide))]

theorem toNat_ofInt (number : Int) : ((UInt64.ofInt number).toNat : Int) = number % 2 ^ 64 := by
  have notNegative : 0 ≤ number % 2 ^ 64 := Int.emod_nonneg number (by decide)
  have fits : number % 2 ^ 64 < 2 ^ 64 := Int.emod_lt_of_pos number (by decide)
  rw [UInt64.ofInt, UInt64.toNat_ofNat']
  omega

/-- The word of a section keeps 40 bits of the job and 16 bits of the index. -/
theorem sectionWord_modEq_iff (job job' : Int) (index index' : Nat) :
    ((UInt64.ofInt job <<< 16) ||| (UInt64.ofNat index &&& 0xFFFF)).toNat ≡
        ((UInt64.ofInt job' <<< 16) ||| (UInt64.ofNat index' &&& 0xFFFF)).toNat [MOD 2 ^ 56] ↔
      job ≡ job' [ZMOD 2 ^ 40] ∧ index ≡ index' [MOD 2 ^ 16] := by
  have word := toNat_ofInt job
  have word' := toNat_ofInt job'
  rw [Nat.ModEq, Nat.ModEq, Int.ModEq, toNat_sectionWord, toNat_sectionWord]
  omega

/-! ### Equal ids -/

theorem spanId_eq_iff (kind kind' : SpanKind) (id id' : UInt64) :
    spanId kind id = spanId kind' id' ↔
      kind = kind' ∧ id.toNat ≡ id'.toNat [MOD 2 ^ 56] := by
  have fits := (spanWord kind id).toNat_lt
  have fits' := (spanWord kind' id').toNat_lt
  have width : 16 ^ 16 = 2 ^ 64 := by decide
  rw [spanId, spanId, hexDigits_eq_iff, Nat.ModEq, Nat.ModEq, width, Nat.mod_eq_of_lt fits,
    Nat.mod_eq_of_lt fits', toNat_spanWord, toNat_spanWord]
  constructor
  · intro same
    exact ⟨tag_injective (UInt64.toNat_inj.mp (by omega)), by omega⟩
  · rintro ⟨rfl, agree⟩
    rw [agree]

theorem sectionSpanId_eq_iff (job job' : Int) (index index' : Nat) :
    sectionSpanId job index = sectionSpanId job' index' ↔
      job ≡ job' [ZMOD 2 ^ 40] ∧ index ≡ index' [MOD 2 ^ 16] := by
  rw [sectionSpanId, sectionSpanId, spanId_eq_iff, sectionWord_modEq_iff]
  exact and_iff_right rfl

/-- Jobs whose ids differ by a multiple of 2 ^ 40 share the ids of their sections, and a negative
id is kept apart from a positive one. -/
example :
    sectionSpanId 1 3 = sectionSpanId (1 + 2 ^ 40) (3 + 2 ^ 16) ∧
      sectionSpanId (-1) 3 = "04ffffffffff0003" ∧ sectionSpanId 1 3 = "0400000000010003" := by
  decide +kernel

/-- A section shares its id with spans of its own kind only. -/
theorem sectionSpanId_ne {kind : SpanKind} (other : .part ≠ kind) (job : Int) (index : Nat)
    (id : Int) : sectionSpanId job index ≠ recordSpanId kind id :=
  fun same => other ((spanId_eq_iff _ _ _ _).mp same).1

/-- A trace id holds all 64 bits of the id of its root pipeline. -/
theorem traceId_eq_iff (root root' : Int) :
    traceId root = traceId root' ↔ root ≡ root' [ZMOD 2 ^ 64] := by
  have fits := (UInt64.ofInt root).toNat_lt
  have fits' := (UInt64.ofInt root').toNat_lt
  have room : 2 ^ 64 ≤ 16 ^ 32 := by decide
  have word := toNat_ofInt root
  have word' := toNat_ofInt root'
  rw [traceId, traceId, hexDigits_eq_iff, Nat.ModEq, Nat.mod_eq_of_lt (fits.trans_le room),
    Nat.mod_eq_of_lt (fits'.trans_le room), Int.ModEq]
  omega

theorem traceId_injective : Function.Injective fun root : Int64 => traceId root.toInt := by
  intro root root' same
  have agree := (traceId_eq_iff _ _).mp same
  have least := root.le_toInt
  have least' := root'.le_toInt
  have most := root.toInt_lt
  have most' := root'.toInt_lt
  rw [Int.ModEq] at agree
  exact Int64.toInt_inj.mp (by omega)

/-- Span ids are equal exactly when their kinds are and their ids agree in the lowest 56 bits; of a
section these are 40 bits of the job and 16 bits of the index, and no section has the id of a
pipeline, a job or a bridge. Traces of different root pipelines have different ids. All of them are
lower-case hexadecimal text, of 16 digits for a span and 32 for a trace. -/
theorem ids_equal_iff_fields_agree :
    (∀ (kind kind' : SpanKind) (id id' : UInt64), spanId kind id = spanId kind' id' ↔
      kind = kind' ∧ id.toNat ≡ id'.toNat [MOD 2 ^ 56]) ∧
    (∀ (job job' : Int) (index index' : Nat),
      sectionSpanId job index = sectionSpanId job' index' ↔
        job ≡ job' [ZMOD 2 ^ 40] ∧ index ≡ index' [MOD 2 ^ 16]) ∧
    (∀ (job id : Int) (index : Nat),
      sectionSpanId job index ≠ recordSpanId .pipeline id ∧
        sectionSpanId job index ≠ recordSpanId .job id ∧
        sectionSpanId job index ≠ recordSpanId .bridge id) ∧
    (Function.Injective fun root : Int64 => traceId root.toInt) ∧
    (∀ (kind : SpanKind) (id : UInt64), IsHexText 16 (spanId kind id)) ∧
    ∀ root : Int, IsHexText 32 (traceId root) := by
  refine ⟨spanId_eq_iff, sectionSpanId_eq_iff, fun job id index => ?_, traceId_injective,
    fun kind id => isHexText_hexDigits 16 _, fun root => isHexText_hexDigits 32 _⟩
  have apart (kind : SpanKind) (other : .part ≠ kind) := sectionSpanId_ne other job index id
  exact ⟨apart .pipeline nofun, apart .job nofun, apart .bridge nofun⟩

end CiTelemetry
