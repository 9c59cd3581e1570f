/-
This file proves which of the configurations that are accepted stay within the
limits of permits and of time, and which break down. Only the lower ends of
their numbers are looked at when they are read. At the upper ends the calls that
may run at the same time must be countable, and going back must not lead past the
first instant: neither by the first live window nor by any window of the walk
back, whose last one takes a whole interval even where it is cut at the floor.
-/

import CiTelemetry.Config.Basic
import CiTelemetry.Proofs.BoundedWalks
import CiTelemetry.Sync.Loop

namespace CiTelemetry

/-! ### Accepted configurations -/

/-- A configuration is accepted only if nothing is wrong with it. -/
theorem Config.fault?_of_ofText {text : String} {config : Config}
    (accepted : Config.ofText text = .ok config) : config.fault? = none := by
  unfold ofText at accepted
  split at accepted
  · cases accepted
    decide
  · split at accepted
    · unfold checked at accepted
      split at accepted
      · cases accepted
      · next noFault =>
        cases accepted
        exact noFault
    · cases accepted

/-- The numbers of an accepted configuration that have to be positive are. -/
theorem Config.positive_of_ofText {text : String} {config : Config}
    (accepted : Config.ofText text = .ok config) :
    ∀ setting ∈ config.schedule.positive, 0 < setting.2 := by
  have noFault := fault?_of_ofText accepted
  unfold fault? at noFault
  simp only [Option.or_eq_none_iff, Option.map_eq_none_iff, List.find?_eq_none] at noFault
  intro setting member
  have notZero := noFault.1.2 setting member
  rw [beq_iff_eq] at notZero
  exact Nat.pos_of_ne_zero notZero

/-! ### Ordinary times -/

/-- An instant of the years from 0 to 9999. -/
structure Instant.IsOrdinary (instant : Instant) : Prop where
  real : instant.IsReal
  first : CalendarDate.toDays ⟨0, 1, 1⟩ * 86400 ≤ instant.seconds
  last : instant.seconds < CalendarDate.toDays ⟨10000, 1, 1⟩ * 86400

namespace Instant.IsOrdinary

variable {instant : Instant}

/-- The seconds that ordinary times lie between. -/
theorem seconds_bounds (ordinary : instant.IsOrdinary) :
    -62167219200 ≤ instant.seconds ∧ instant.seconds < 253402300800 :=
  ⟨ordinary.first, ordinary.last⟩

theorem isInBounds (ordinary : instant.IsOrdinary) : instant.isInBounds := by
  have bounds : secondBounds = (-8334601228800, 8210266876799) := by decide
  have := ordinary.seconds_bounds
  rw [isInBounds_iff, bounds]
  omega

/-- How long ago the first instant was at an ordinary time, to the second. -/
theorem reach_bounds (ordinary : instant.IsOrdinary) :
    8272434009600 * nanosPerSecond ≤ instant.reach ∧
      instant.reach < 8588003529601 * nanosPerSecond := by
  have first : secondBounds.1 = -8334601228800 := by decide
  have real := ordinary.real
  have := ordinary.seconds_bounds
  unfold reach position
  unfold IsReal at real
  unfold nanosPerSecond at *
  rw [first]
  omega

end Instant.IsOrdinary

/-- The most seconds that a span can have; one that has more counts as a year. -/
def mostSeconds : Nat := (twoTo 63 - 1) / 1000

theorem spanOfMillis_seconds (seconds : Nat) :
    spanOfMillis (seconds * 1000) =
      (if seconds ≤ mostSeconds then seconds else 365 * 86400) * nanosPerSecond := by
  have most : mostSeconds = 9223372036854775 := by decide
  have word : twoTo 63 = 9223372036854775808 := by decide
  unfold spanOfMillis nanosPerSecond
  rw [most, word]
  split <;> split <;> omega

theorem spanOfMillis_pos {millis : Nat} (positive : 0 < millis) : 0 < spanOfMillis millis := by
  unfold spanOfMillis
  split
  · omega
  · decide

/-! ### The limits -/

namespace Config

/-- How far the first live window reaches back. -/
def liveSpan (config : Config) : Int :=
  spanOfMillis config.syncSettings.interval

/-- How long the windows of the walk back are. -/
def walkSpan (config : Config) : Int :=
  spanOfMillis config.syncSettings.catchUpInterval

/-- Which limits a configuration keeps to at a time, and where it breaks down. -/
structure LimitsAt (config : Config) (now : Instant) : Prop where
  /-- The calls are fewer than an eighth of what a word of 64 bits counts. -/
  permits : Limiter.permits? config.schedule.concurrency =
    if config.schedule.concurrency < twoTo 61 then some config.schedule.concurrency else none
  /-- The first live window goes back no further than to the first instant, unless its interval is
  so long that it counts as a year. -/
  firstWindow : SyncWindow.trailing? now config.liveSpan =
    if config.schedule.interval ≤ mostSeconds ∧
        now.reach < config.schedule.interval * nanosPerSecond then none
    else some (liveWindow config.syncSettings none now)
  /-- As many whole intervals as the walk back has windows fit into the time since the first
  instant. -/
  walk : ∀ floor limit windows, catchUpWindows limit now config.walkSpan floor = windows →
    catchUpWindows? limit now config.walkSpan floor =
      if windows.length * config.walkSpan ≤ now.reach then some windows else none

variable {config : Config} {now : Instant}

theorem permits_of_pos (calls : 0 < config.schedule.concurrency) :
    Limiter.permits? config.schedule.concurrency =
      if config.schedule.concurrency < twoTo 61 then some config.schedule.concurrency else none := by
  have countable : config.schedule.concurrency ≤ Limiter.maxPermits ↔
      config.schedule.concurrency < twoTo 61 := Nat.le_sub_one_iff_lt (twoTo_pos 61)
  rw [Limiter.permits?, Limiter.permitsFor, max_eq_left calls]
  exact if_congr countable rfl rfl

theorem firstWindow_of_pos (interval : 0 < config.schedule.interval)
    (ordinary : now.IsOrdinary) :
    SyncWindow.trailing? now config.liveSpan =
      if config.schedule.interval ≤ mostSeconds ∧
          now.reach < config.schedule.interval * nanosPerSecond then none
      else some (liveWindow config.syncSettings none now) := by
  have first : liveWindow config.syncSettings none now = .trailing now config.liveSpan := rfl
  have positive : 0 < config.liveSpan := spanOfMillis_pos (Nat.mul_pos interval (by decide))
  have seconds : config.liveSpan =
      (if config.schedule.interval ≤ mostSeconds then config.schedule.interval else 365 * 86400) *
        nanosPerSecond := spanOfMillis_seconds config.schedule.interval
  have atLeast := ordinary.reach_bounds.1
  have fits : config.liveSpan ≤ now.reach ↔ ¬ (config.schedule.interval ≤ mostSeconds ∧
      now.reach < config.schedule.interval * nanosPerSecond) := by
    rw [seconds]
    unfold nanosPerSecond at *
    split <;> omega
  rw [first, SyncWindow.trailing?_eq ordinary.real ordinary.isInBounds positive,
    if_congr fits rfl rfl, ite_not]

end Config

/-- The limits that an accepted configuration keeps to at an ordinary time. Live intervals of up to
8272434009600 seconds are short enough at every such time; those from 8588003529601 seconds on, up
to the ones that count as a year, are too long at every such time. -/
theorem accepted_limits {text : String} {config : Config}
    (accepted : Config.ofText text = .ok config) {now : Instant} (ordinary : now.IsOrdinary) :
    config.LimitsAt now ∧
      (config.schedule.interval ≤ 8272434009600 →
        (SyncWindow.trailing? now config.liveSpan).isSome) ∧
      (8588003529601 ≤ config.schedule.interval → config.schedule.interval ≤ mostSeconds →
        SyncWindow.trailing? now config.liveSpan = none) := by
  have positive := Config.positive_of_ofText accepted
  simp only [ScheduleConfig.positive, List.forall_mem_cons] at positive
  obtain ⟨_, calls, live, walk, _⟩ := positive
  have firstWindow := Config.firstWindow_of_pos live ordinary
  obtain ⟨atLeast, atMost⟩ := ordinary.reach_bounds
  unfold nanosPerSecond at atLeast atMost
  refine ⟨⟨Config.permits_of_pos calls, firstWindow, ?_⟩, fun short => ?_, fun long within => ?_⟩
  · rintro floor limit _ rfl
    exact catchUpWindows?_eq limit floor ordinary.real ordinary.isInBounds
      (spanOfMillis_pos (Nat.mul_pos walk (by decide)))
  · rw [firstWindow, if_neg]
    · rfl
    · unfold nanosPerSecond
      omega
  · rw [firstWindow, if_pos]
    refine ⟨within, ?_⟩
    unfold nanosPerSecond
    omega

namespace AcceptedLimits

/-- The first of May 2024. -/
def may : Instant := ⟨1714521600, 0⟩

theorem may_ordinary : may.IsOrdinary := ⟨by decide, by decide, by decide⟩

/-- What asks for more calls than can be counted, and goes further back than time does. -/
def boundlessText : String :=
  "controller:\n  concurrency: 2305843009213693952\n  interval_secs: 9000000000000000\n" ++
    "  catch_up_interval_secs: 9000000000000000\n"

def boundless : Config :=
  { (default : Config) with
    schedule := ⟨9000000000000000, 9000000000000000, 100, 2305843009213693952, 3600⟩ }

theorem ofText_boundlessText : Config.ofText boundlessText = .ok boundless := by
  have read : (Config.ofText boundlessText).toOption = some boundless := by decide +kernel
  cases accepted : Config.ofText boundlessText with
  | error => rw [accepted] at read; cases read
  | ok config =>
    rw [accepted] at read
    exact congrArg Except.ok (Option.some_inj.mp read)

end AcceptedLimits

open AcceptedLimits

/-- An empty text is accepted, and keeps within the limits. -/
theorem default_within_limits :
    (Config.ofText "" = .ok default ∧ may.IsOrdinary) ∧
      Limiter.permits? 42 = some 42 ∧
      SyncWindow.trailing? may 60000000000 = some ⟨⟨1714521540, 0⟩, may⟩ ∧
      catchUpWindows? 5 may 86400000000000 ⟨1714400000, 0⟩ =
        some [⟨⟨1714435200, 0⟩, may⟩, ⟨⟨1714400000, 0⟩, ⟨1714435200, 0⟩⟩] := by
  have accepted : Config.ofText "" = .ok default := rfl
  obtain ⟨⟨permits, firstWindow, walk⟩, _⟩ := accepted_limits accepted may_ordinary
  refine ⟨⟨accepted, may_ordinary⟩, permits, firstWindow, ?_⟩
  exact walk ⟨1714400000, 0⟩ 5 _ rfl

/-- A text that is accepted although nothing that it asks for keeps within the limits. -/
theorem boundless_breaks_down :
    Config.ofText boundlessText = .ok boundless ∧ may.IsOrdinary ∧
      Limiter.permits? boundless.schedule.concurrency = none ∧
      SyncWindow.trailing? may boundless.liveSpan = none ∧
      catchUpWindows? 5 may boundless.walkSpan ⟨1704067200, 0⟩ = none :=
  ⟨ofText_boundlessText, may_ordinary, by decide, by decide, by decide⟩

end CiTelemetry
