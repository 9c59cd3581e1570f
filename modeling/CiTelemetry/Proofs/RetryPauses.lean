/-
This file proves how long the pauses between the attempts of a request are. They
double from the configured one up to a minute, as they would over numbers without
bounds, although the doubling stops after sixteen times, the power of two and the
product are computed in words and each is cut off where its word is full: the
minute is reached before any of this shows. It would show if the limit were longer
than 65,536 milliseconds.
-/

import CiTelemetry.Config.Basic
import CiTelemetry.Proofs.Rounding
import CiTelemetry.Time.Instant

namespace CiTelemetry

/-! ### Pauses as numbers -/

namespace RetryPolicy

/-- Within sixteen doublings the factor is a power of two. -/
theorem factor_of_le {attempt : Nat} (few : attempt ≤ 16) : factor attempt = twoTo attempt := by
  have small : twoTo attempt ≤ maxUnsigned32 := (twoTo_le_twoTo few).trans (by decide)
  rw [factor, Nat.min_eq_left few, Nat.min_eq_left small]

theorem factor_of_gt {attempt : Nat} (many : 16 < attempt) : factor attempt = twoTo 16 := by
  rw [factor, Nat.min_eq_right many.le]
  decide

/-- That doubling stops does not show below a limit that is reached by then. -/
theorem min_mul_factor {limit : Nat} (reached : limit ≤ twoTo 16) (base attempt : Nat) :
    min (base * factor attempt) limit = min (base * twoTo attempt) limit := by
  by_cases few : attempt ≤ 16
  · rw [factor_of_le few]
  · have many : 16 < attempt := Nat.not_le.mp few
    rw [factor_of_gt many]
    rcases Nat.eq_zero_or_pos base with rfl | positive
    · rw [Nat.zero_mul, Nat.zero_mul]
    · have stopped : limit ≤ base * twoTo 16 :=
        reached.trans (Nat.le_mul_of_pos_left _ positive)
      have goesOn : base * twoTo 16 ≤ base * twoTo attempt :=
        Nat.mul_le_mul_left base (twoTo_le_twoTo many.le)
      rw [Nat.min_eq_right stopped, Nat.min_eq_right (stopped.trans goesOn)]

/-- The pauses of a policy double up to its limit, whatever the first one is, just if the limit is
reached when doubling stops. -/
theorem delay_exact_iff {limit : Nat} (retries : Nat) :
    (∀ base attempt, delay ⟨retries, base, limit⟩ attempt = min (base * twoTo attempt) limit) ↔
      limit ≤ twoTo 16 := by
  constructor
  · intro doubles
    -- One millisecond after seventeen doublings is the first pause that shows it.
    have seventeenth : min (min (1 * factor 17) longestPause) limit = min (1 * twoTo 17) limit :=
      doubles 1 17
    have stopped : min (1 * factor 17) longestPause = twoTo 16 := by decide
    have goesOn : 1 * twoTo 17 = twoTo 16 + twoTo 16 := by decide
    rw [stopped, goesOn] at seventeenth
    have positive := twoTo_pos 16
    omega
  · intro reached base attempt
    have short : limit ≤ longestPause := reached.trans (by decide)
    change min (min (base * factor attempt) longestPause) limit = _
    rw [Nat.min_assoc, Nat.min_eq_right short, min_mul_factor reached]

end RetryPolicy

/-! ### Numbers in words -/

/-- A result in a word, if the exact one fits it. -/
def fitting? (exactly : Nat) (wrapped : UInt64) : Option UInt64 :=
  if exactly < twoTo 64 then some wrapped else none

def product? (first second : UInt64) : Option UInt64 :=
  fitting? (first.toNat * second.toNat) (first * second)

def sum? (first second : UInt64) : Option UInt64 :=
  fitting? (first.toNat + second.toNat) (first + second)

/-- A power of a number in a word, or the largest number of a word where it does not fit. -/
def saturatingPower (base : UInt32) : Nat → UInt32
  | 0 => 1
  | exponent + 1 =>
    let lower := saturatingPower base exponent
    if lower.toNat * base.toNat < twoTo 32 then lower * base else UInt32.ofNat maxUnsigned32

theorem toNat_of_fitting? {exactly : Nat} {wrapped result : UInt64}
    (wraps : wrapped.toNat = exactly % twoTo 64) (fits : fitting? exactly wrapped = some result) :
    result.toNat = exactly := by
  unfold fitting? at fits
  split at fits
  · next small => rw [← Option.some.inj fits, wraps, Nat.mod_eq_of_lt small]
  · cases fits

theorem le_of_fitting?_eq_none {exactly : Nat} {wrapped : UInt64}
    (full : fitting? exactly wrapped = none) : twoTo 64 ≤ exactly := by
  unfold fitting? at full
  split at full
  · cases full
  · next large => exact Nat.not_lt.mp large

theorem toNat_saturatingPower_two (exponent : Nat) :
    (saturatingPower 2 exponent).toNat = min (twoTo exponent) maxUnsigned32 := by
  induction exponent with
  | zero => rfl
  | succ exponent inductionHypothesis =>
    have twice : twoTo (exponent + 1) = twoTo exponent * 2 := twoTo_add exponent 1
    have limit : maxUnsigned32 + 1 = twoTo 32 := by decide
    have two : (2 : UInt32).toNat = 2 := rfl
    rw [saturatingPower, inductionHypothesis, two]
    split
    · next fits =>
      have product : (saturatingPower 2 exponent * 2).toNat =
          min (twoTo exponent) maxUnsigned32 * 2 := by
        rw [UInt32.toNat_mul, inductionHypothesis]
        exact Nat.mod_eq_of_lt fits
      omega
    · next full =>
      have largest : (UInt32.ofNat maxUnsigned32).toNat = maxUnsigned32 := by decide
      omega

/-! ### Spans in words -/

/-- A span as a clock keeps it: seconds in a word of 64 bits, and billionths of a second in a word
of 32 bits, fewer of them than a second has. -/
structure ClockSpan where
  seconds : UInt64
  nanos : UInt32
  nanos_lt : nanos.toNat < nanosPerSecond

namespace ClockSpan

def toNanos (span : ClockSpan) : Nat :=
  span.seconds.toNat * nanosPerSecond + span.nanos.toNat

def longest : ClockSpan :=
  ⟨UInt64.ofNat (twoTo 64 - 1), 999999999, by decide⟩

theorem toNat_millisPart (millis : UInt64) :
    ((millis % 1000).toUInt32 * 1000000).toNat = millis.toNat % 1000 * 1000000 := by
  have part : millis.toNat % 1000 < 1000 := Nat.mod_lt _ (by decide)
  have thousand : (1000 : UInt64).toNat = 1000 := rfl
  have million : (1000000 : UInt32).toNat = 1000000 := rfl
  rw [UInt32.toNat_mul, UInt64.toNat_toUInt32, UInt64.toNat_mod, thousand, million]
  omega

def ofMillis (millis : UInt64) : ClockSpan where
  seconds := millis / 1000
  nanos := (millis % 1000).toUInt32 * 1000000
  nanos_lt := by
    have part : millis.toNat % 1000 < 1000 := Nat.mod_lt _ (by decide)
    rw [toNat_millisPart, nanosPerSecond]
    omega

theorem toNanos_ofMillis (millis : UInt64) : (ofMillis millis).toNanos = millis.toNat * 1000000 := by
  have seconds : (ofMillis millis).seconds.toNat = millis.toNat / 1000 := UInt64.toNat_div _ _
  rw [toNanos, seconds, ofMillis, toNat_millisPart, nanosPerSecond]
  omega

/-- The billionths of a second in a product, as a word of 64 bits. -/
def productNanos (span : ClockSpan) (factor : UInt32) : UInt64 :=
  span.nanos.toUInt64 * factor.toUInt64

theorem toNat_productNanos (span : ClockSpan) (factor : UInt32) :
    (span.productNanos factor).toNat = span.nanos.toNat * factor.toNat := by
  have fits : span.nanos.toNat * factor.toNat < 2 ^ 32 * 2 ^ 32 :=
    Nat.mul_lt_mul'' span.nanos.toNat_lt factor.toNat_lt
  rw [productNanos, UInt64.toNat_mul, UInt32.toNat_toUInt64, UInt32.toNat_toUInt64]
  exact Nat.mod_eq_of_lt fits

theorem toNat_nanosPart (nanos : UInt64) :
    (nanos % 1000000000).toUInt32.toNat = nanos.toNat % nanosPerSecond := by
  have part : nanos.toNat % 1000000000 < 1000000000 := Nat.mod_lt _ (by decide)
  have second : (1000000000 : UInt64).toNat = 1000000000 := rfl
  rw [UInt64.toNat_toUInt32, UInt64.toNat_mod, second, nanosPerSecond]
  omega

/-- The span of some seconds and of what billionths of a second leave beyond whole seconds. -/
def ofRemainder (seconds nanos : UInt64) : ClockSpan where
  seconds := seconds
  nanos := (nanos % 1000000000).toUInt32
  nanos_lt := by
    rw [toNat_nanosPart]
    exact Nat.mod_lt _ (by decide)

theorem toNanos_ofRemainder (seconds nanos : UInt64) :
    (ofRemainder seconds nanos).toNanos =
      seconds.toNat * nanosPerSecond + nanos.toNat % nanosPerSecond :=
  congrArg (seconds.toNat * nanosPerSecond + ·) (toNat_nanosPart nanos)

/-- A multiple of a span, or the longest one where the seconds do not fit their word. -/
def saturatingMul (span : ClockSpan) (factor : UInt32) : ClockSpan :=
  let nanos := span.productNanos factor
  match (product? span.seconds factor.toUInt64).bind (sum? · (nanos / 1000000000)) with
  | some seconds => ofRemainder seconds nanos
  | none => longest

/-- The shorter of two spans. -/
def shorter (first second : ClockSpan) : ClockSpan :=
  if first.seconds < second.seconds ∨
      first.seconds = second.seconds ∧ first.nanos ≤ second.nanos then first
  else second

theorem toNanos_le_longest (span : ClockSpan) : span.toNanos ≤ longest.toNanos := by
  have seconds : span.seconds.toNat ≤ longest.seconds.toNat :=
    Nat.le_of_lt_succ span.seconds.toNat_lt
  have nanos : span.nanos.toNat ≤ longest.nanos.toNat := Nat.le_of_lt_succ span.nanos_lt
  exact Nat.add_le_add (Nat.mul_le_mul_right nanosPerSecond seconds) nanos

theorem toNat_carry (span : ClockSpan) (factor : UInt32) :
    (span.productNanos factor / 1000000000).toNat =
      span.nanos.toNat * factor.toNat / nanosPerSecond := by
  rw [UInt64.toNat_div, toNat_productNanos]
  rfl

/-- The whole seconds of a product and the rest of it. -/
theorem toNanos_mul (span : ClockSpan) (factor : Nat) :
    span.toNanos * factor =
      (span.seconds.toNat * factor + span.nanos.toNat * factor / nanosPerSecond) *
        nanosPerSecond + span.nanos.toNat * factor % nanosPerSecond := by
  have parts := Nat.div_add_mod (span.nanos.toNat * factor) nanosPerSecond
  rw [toNanos, Nat.add_mul, Nat.add_mul, Nat.mul_right_comm, Nat.add_assoc,
    Nat.mul_comm (_ / _), parts]

/-- A multiple of a span is exact unless it is longer than the longest one. -/
theorem toNanos_saturatingMul (span : ClockSpan) (factor : UInt32) :
    (span.saturatingMul factor).toNanos =
      min (span.toNanos * factor.toNat) longest.toNanos := by
  have word : factor.toUInt64.toNat = factor.toNat := UInt32.toNat_toUInt64 factor
  have tooLong (large : twoTo 64 ≤ span.seconds.toNat * factor.toNat +
      span.nanos.toNat * factor.toNat / nanosPerSecond) :
      longest.toNanos ≤ span.toNanos * factor.toNat :=
    calc longest.toNanos ≤ twoTo 64 * nanosPerSecond := by decide
      _ ≤ _ := Nat.mul_le_mul_right nanosPerSecond large
      _ ≤ span.toNanos * factor.toNat := by
        rw [toNanos_mul]
        exact Nat.le_add_right _ _
  unfold saturatingMul
  cases isProduct : product? span.seconds factor.toUInt64 with
  | none =>
    have large := le_of_fitting?_eq_none isProduct
    rw [word] at large
    exact (Nat.min_eq_right (tooLong (large.trans (Nat.le_add_right _ _)))).symm
  | some product =>
    have exactProduct := toNat_of_fitting? (UInt64.toNat_mul _ _) isProduct
    rw [word] at exactProduct
    dsimp only [Option.bind_some]
    cases isSum : sum? product (span.productNanos factor / 1000000000) with
    | none =>
      have large := le_of_fitting?_eq_none isSum
      rw [exactProduct, toNat_carry] at large
      exact (Nat.min_eq_right (tooLong large)).symm
    | some seconds =>
      have exactSum := toNat_of_fitting? (UInt64.toNat_add _ _) isSum
      rw [exactProduct, toNat_carry] at exactSum
      have same : (ofRemainder seconds (span.productNanos factor)).toNanos =
          span.toNanos * factor.toNat := by
        rw [toNanos_ofRemainder, exactSum, toNat_productNanos, toNanos_mul]
      rw [← same]
      exact (Nat.min_eq_left (toNanos_le_longest _)).symm

theorem toNanos_shorter (first second : ClockSpan) :
    (first.shorter second).toNanos = min first.toNanos second.toNanos := by
  have firstPart := first.nanos_lt
  have secondPart := second.nanos_lt
  unfold shorter toNanos
  simp only [nanosPerSecond, UInt64.lt_iff_toNat_lt, UInt32.le_iff_toNat_le, ← UInt64.toNat_inj] at *
  split <;> omega

end ClockSpan

/-- The pause before a retry of a number, in words: the first pause in milliseconds, times a power of
two that doubles sixteen times at most, up to a minute. -/
def pauseInWords (millis : UInt64) (attempt : UInt32) : ClockSpan :=
  ((ClockSpan.ofMillis millis).saturatingMul (saturatingPower 2 (min attempt 16).toNat)).shorter
    (.ofMillis 60000)

/-- Computing in words gives the pause that numbers without bounds give. -/
theorem toNanos_pauseInWords (millis : UInt64) (attempt : UInt32) :
    (pauseInWords millis attempt).toNanos =
      min (millis.toNat * twoTo attempt.toNat) 60000 * 1000000 := by
  have exponent : (min attempt 16).toNat = min attempt.toNat 16 := by
    change (if attempt ≤ 16 then attempt else 16).toNat = _
    split
    · next few =>
      rw [UInt32.le_iff_toNat_le] at few
      exact (Nat.min_eq_left few).symm
    · next many =>
      rw [UInt32.le_iff_toNat_le] at many
      exact (Nat.min_eq_right (Nat.le_of_not_le many)).symm
  have power : (saturatingPower 2 (min attempt 16).toNat).toNat =
      RetryPolicy.factor attempt.toNat := by
    rw [toNat_saturatingPower_two, exponent]
    rfl
  have minute : min ClockSpan.longest.toNanos (60000 * 1000000) = 60000 * 1000000 := by decide
  have sixty : (60000 : UInt64).toNat = 60000 := rfl
  rw [pauseInWords, ClockSpan.toNanos_shorter, ClockSpan.toNanos_saturatingMul,
    ClockSpan.toNanos_ofMillis, ClockSpan.toNanos_ofMillis, power, sixty, Nat.min_assoc, minute,
    Nat.mul_right_comm, Nat.mul_min_mul_right, RetryPolicy.min_mul_factor (by decide)]

/-! ### The pauses of a configuration -/

/-- The pauses of every configuration are the exact ones: twice as long each time, as computed over
numbers without bounds, up to a minute. So they never become shorter and are never longer than a
minute. For a first pause and a number of the retry that are given in words, computing the pause in
words comes to the same. -/
theorem ClientConfig.delay_exact (config : ClientConfig) :
    (∀ attempt, config.retryPolicy.delay attempt =
      min (config.retryDelay * twoTo attempt) 60000) ∧
    Monotone config.retryPolicy.delay ∧
    (∀ attempt, config.retryPolicy.delay attempt ≤ 60000) ∧
    ∀ (millis : UInt64) (attempt : UInt32), config.retryDelay = millis.toNat →
      (pauseInWords millis attempt).toNanos =
        config.retryPolicy.delay attempt.toNat * 1000000 := by
  have exactly : ∀ attempt, config.retryPolicy.delay attempt =
      min (config.retryDelay * twoTo attempt) 60000 :=
    (RetryPolicy.delay_exact_iff config.maxRetries).mpr (by decide) config.retryDelay
  refine ⟨exactly, fun first second later => ?_, fun attempt => ?_, fun millis attempt same => ?_⟩
  · rw [exactly, exactly]
    exact min_le_min_right _ (Nat.mul_le_mul_left _ (twoTo_le_twoTo later))
  · exact Nat.min_le_right _ _
  · rw [exactly, toNanos_pauseInWords, same]

/-- A configuration with a first pause of some milliseconds. -/
def pausing (millis : UInt64) : ClientConfig :=
  ⟨5, millis.toNat, none⟩

/-- The shortest first pause is still shorter than a minute after fifteen doublings, and cut off at
it after sixteen. The longest one is cut off at once, also where the product is. -/
theorem pausing_delay_exact :
    (pausing 1).retryDelay = (1 : UInt64).toNat ∧
      (pauseInWords 1 15).toNanos = 32768 * 1000000 ∧
      (pauseInWords 1 16).toNanos = 60000 * 1000000 ∧
      (pausing 18446744073709551615).retryDelay = (18446744073709551615 : UInt64).toNat ∧
      (pauseInWords 18446744073709551615 4294967295).toNanos = 60000 * 1000000 := by
  obtain ⟨_, _, _, short⟩ := ClientConfig.delay_exact (pausing 1)
  obtain ⟨_, _, _, long⟩ := ClientConfig.delay_exact (pausing 18446744073709551615)
  refine ⟨rfl, (short 1 15 rfl).trans ?_, (short 1 16 rfl).trans ?_, rfl,
    (long 18446744073709551615 4294967295 rfl).trans ?_⟩ <;> decide

end CiTelemetry
