/-
This file proves how the windows of the walk back tile its range: how long they
are and how many there are. Going back subtracts from a position on the line of
time, on which a leap second lies on top of the second after it. That line and
the order of time agree on every instant the walk comes by, as long as its floor
does not lie in a leap second that is over. If it does, going back steps over
the leap second, and the last window is longer than the others may be.
-/

import CiTelemetry.Proofs.BackwardWalks
import Mathlib.Data.List.Chain
import Mathlib.Data.Rat.Floor
import Mathlib.Tactic.Linarith

namespace CiTelemetry

namespace Instant

/-! ### Time that passes -/

/-- An instant within a leap second. -/
def InLeapSecond (instant : Instant) : Prop :=
  nanosPerSecond ≤ instant.nanos

instance (instant : Instant) : Decidable instant.InLeapSecond :=
  inferInstanceAs (Decidable (_ ≤ _))

/-- Nanoseconds from the beginning of 1970 on, leap seconds before this one not counted. -/
def position (instant : Instant) : Int :=
  instant.seconds * nanosPerSecond + instant.nanos

/-- An instant within a leap second that is over. -/
def IsPassedLeap (instant now : Instant) : Prop :=
  instant.InLeapSecond ∧ instant.seconds < now.seconds

instance (instant now : Instant) : Decidable (instant.IsPassedLeap now) :=
  inferInstanceAs (Decidable (_ ∧ _))

/-- The nanoseconds that pass between two instants. Where the first one lies in a leap second that
is over at the second one, that leap second lies before the positions of what follows it. -/
def elapsed (first second : Instant) : Int :=
  second.position - first.position + if first.IsPassedLeap second then (nanosPerSecond : Int) else 0

/-- The end of the second that an instant lies in, a leap second included. -/
def secondEnd (instant : Instant) : Instant :=
  ⟨instant.seconds + 1, 0⟩

/-- What the walk back from the present comes by: only in the leap second it begins in, if it does,
is it ever in one. -/
structure IsBehind (now instant : Instant) : Prop where
  real : instant.IsReal
  early : instant.seconds ≤ now.seconds
  leap : instant.InLeapSecond → instant.seconds = now.seconds

variable {now floor instant first second : Instant} {span : Int}

theorem elapsed_of_notPassed (notPassed : ¬ first.IsPassedLeap second) :
    first.elapsed second = second.position - first.position := by
  rw [elapsed, if_neg notPassed, add_zero]

theorem IsBehind.self (real : now.IsReal) : IsBehind now now :=
  ⟨real, Int.le_refl _, fun _ => rfl⟩

/-- Going back subtracts from the position, and does not lead into a leap second. -/
theorem position_back (real : instant.IsReal) (positive : 0 < span) :
    (instant.back span).position = instant.position - span ∧
      ((instant.back span).InLeapSecond → (instant.back span).seconds = instant.seconds ∧
        instant.InLeapSecond) := by
  unfold IsReal at real
  rw [position, position, InLeapSecond, back, add, tdiv_neg_span positive, tmod_neg_span positive]
  simp only [Bool.or_eq_true, Bool.and_eq_true, decide_eq_true_eq, carried, nanosPerSecond,
    InLeapSecond] at real ⊢
  split
  · split
    · omega
    · split
      · dsimp only
        omega
      · dsimp only
        omega
  · dsimp only
    omega

theorem IsBehind.back (behind : IsBehind now instant) (positive : 0 < span) :
    IsBehind now (instant.back span) := by
  obtain ⟨earlier, real⟩ := back_before behind.real positive
  have leap := (position_back behind.real positive).2
  rw [before_iff] at earlier
  refine ⟨real, by have := behind.early; omega, fun inside => ?_⟩
  obtain ⟨same, from'⟩ := leap inside
  rw [same]
  exact behind.leap from'

/-- Where the floor does not lie in a leap second that is over, the order of time is the order of
positions. -/
theorem before_iff_position_lt (ahead : floor.before now = true)
    (notPassed : ¬ floor.IsPassedLeap now) (behind : IsBehind now instant) :
    floor.before instant = true ↔ floor.position < instant.position := by
  obtain ⟨real, early, leap⟩ := behind
  unfold IsPassedLeap at notPassed
  unfold InLeapSecond at notPassed leap
  unfold IsReal at real
  rw [before_iff] at ahead ⊢
  unfold position
  unfold nanosPerSecond at *
  omega

/-- Where it does, what comes after it begins with the second after it. -/
theorem before_iff_secondEnd_le (passed : floor.IsPassedLeap now) (behind : IsBehind now instant) :
    floor.before instant = true ↔ floor.secondEnd.position ≤ instant.position := by
  obtain ⟨real, early, leap⟩ := behind
  obtain ⟨inLeap, gone⟩ := passed
  unfold InLeapSecond at inLeap leap
  unfold IsReal at real
  rw [before_iff]
  unfold position secondEnd
  unfold nanosPerSecond at *
  dsimp only
  omega

end Instant

/-- How long a window is, in nanoseconds. -/
def SyncWindow.length (window : SyncWindow) : Int :=
  window.start.elapsed window.finish

namespace WindowTiling

open BackwardWalks

/-! ### The windows of a walk that has begun -/

/-- The windows of the walk back from an instant above the floor, each of which but the last one
begins an interval before it ends. -/
inductive Tiles (interval : Int) (floor : Instant) : Instant → List SyncWindow → Prop
  | last {finish : Instant} (ahead : floor.before finish = true)
      (reached : floor.before (finish.back interval) = false) :
    Tiles interval floor finish [⟨floor, finish⟩]
  | whole {finish : Instant} {windows : List SyncWindow} (ahead : floor.before finish = true)
      (rest : Tiles interval floor (finish.back interval) windows) :
    Tiles interval floor finish (⟨finish.back interval, finish⟩ :: windows)

variable {interval : Int} {now floor finish : Instant} {windows : List SyncWindow}
  {window : SyncWindow}

/-- A walk is over at its floor. -/
theorem eq_nil_of_walks_floor (walks : Walks interval floor floor windows) : windows = [] := by
  cases walks with
  | ended => rfl
  | back found =>
    have ahead := (catchUpWindow?_eq_some_iff.mp found).1
    rw [Instant.before_iff] at ahead
    omega

/-- Where a window of the walk begins. -/
theorem start_of_found (found : catchUpWindow? interval floor finish = some window) :
    floor.before (finish.back interval) = true ∧ window = ⟨finish.back interval, finish⟩ ∨
      floor.before (finish.back interval) = false ∧ window = ⟨floor, finish⟩ := by
  obtain ⟨_, _, rfl⟩ := catchUpWindow?_eq_some_iff.mp found
  cases ahead : floor.before (finish.back interval) with
  | true =>
    refine .inl ⟨rfl, congrArg (SyncWindow.mk · finish) (if_neg fun earlier => ?_)⟩
    rw [Instant.before_iff] at ahead earlier
    omega
  | false =>
    refine .inr ⟨rfl, congrArg (SyncWindow.mk · finish) ?_⟩
    rw [Instant.latest]
    split
    · rfl
    · next notEarlier =>
      -- Neither of the two is before the other one.
      rw [← Instant.notAfter_iff_not_before, Instant.notAfter_iff] at ahead
      rw [Instant.before_iff] at notEarlier
      have seconds : (finish.back interval).seconds = floor.seconds := by omega
      have nanos : (finish.back interval).nanos = floor.nanos := by omega
      exact congrArg₂ Instant.mk seconds nanos

theorem tiles_of_walks (walks : Walks interval floor finish windows)
    (ahead : floor.before finish = true) (positive : 0 < interval) :
    Tiles interval floor finish windows := by
  induction walks with
  | ended reached =>
    rw [catchUpWindow?_eq_some_iff.mpr ⟨ahead, positive, rfl⟩] at reached
    cases reached
  | back found _ rest inductionHypothesis =>
    rcases start_of_found found with ⟨goesOn, rfl⟩ | ⟨reached, rfl⟩
    · exact .whole ahead (inductionHypothesis goesOn)
    · rw [eq_nil_of_walks_floor rest]
      exact .last ahead reached

namespace Tiles

theorem ne_nil (tiles : Tiles interval floor finish windows) : windows ≠ [] := by
  cases tiles <;> exact List.cons_ne_nil _ _

theorem head_finish (tiles : Tiles interval floor finish windows) :
    windows.head?.map (·.finish) = some finish := by
  cases tiles <;> rfl

theorem last_start (tiles : Tiles interval floor finish windows) :
    windows.getLast?.map (·.start) = some floor := by
  induction tiles with
  | last => rfl
  | whole _ rest inductionHypothesis =>
    rwa [List.getLast?_cons_of_ne_nil rest.ne_nil]

theorem isChain (tiles : Tiles interval floor finish windows) :
    windows.IsChain fun window next => next.finish = window.start := by
  induction tiles with
  | last => exact List.isChain_singleton _
  | whole _ rest inductionHypothesis =>
    refine List.isChain_cons.mpr ⟨fun next isNext => ?_, inductionHypothesis⟩
    have first := rest.head_finish
    rw [Option.mem_def.mp isNext, Option.map_some] at first
    exact Option.some_inj.mp first

theorem start_before_finish (tiles : Tiles interval floor finish windows)
    (behind : Instant.IsBehind now finish) (positive : 0 < interval) :
    ∀ window ∈ windows, window.start.before window.finish = true := by
  induction tiles with
  | last ahead _ => exact List.forall_mem_singleton.mpr ahead
  | whole _ _ inductionHypothesis =>
    have earlier := (Instant.back_before behind.real positive).1
    exact List.forall_mem_cons.mpr ⟨earlier, inductionHypothesis (behind.back positive)⟩

/-- Going back from an instant, the time to it is what was gone back. -/
theorem elapsed_back (behind : Instant.IsBehind now finish) (positive : 0 < interval) :
    (finish.back interval).elapsed finish = interval := by
  obtain ⟨position, leap⟩ := Instant.position_back behind.real positive
  have notPassed : ¬ (finish.back interval).IsPassedLeap finish := by
    rintro ⟨inside, gone⟩
    have same := (leap inside).1
    omega
  rw [Instant.elapsed_of_notPassed notPassed, position]
  omega

theorem length_dropLast (tiles : Tiles interval floor finish windows)
    (behind : Instant.IsBehind now finish) (positive : 0 < interval) :
    ∀ window ∈ windows.dropLast, window.length = interval := by
  induction tiles with
  | last => exact fun _ member => nomatch member
  | whole _ rest inductionHypothesis =>
    rw [List.dropLast_cons_of_ne_nil rest.ne_nil]
    exact List.forall_mem_cons.mpr
      ⟨elapsed_back behind positive, inductionHypothesis (behind.back positive)⟩

/-- How many windows there are, and where the last one ends, if the instants above the floor that
the walk comes by are those from a position on. -/
theorem count (tiles : Tiles interval floor finish windows) (behind : Instant.IsBehind now finish)
    (positive : 0 < interval) {bound : Int}
    (above : ∀ instant, Instant.IsBehind now instant →
      (floor.before instant = true ↔ bound ≤ instant.position)) :
    (interval * (windows.length - 1) ≤ finish.position - bound ∧
        finish.position - bound < interval * windows.length) ∧
      ∀ window ∈ windows.getLast?, bound ≤ window.finish.position ∧
        window.finish.position - bound < interval := by
  induction tiles with
  | @last finish ahead reached =>
    have isAbove := (above finish behind).mp ahead
    have isBelow := mt (above _ (behind.back positive)).mpr (Bool.eq_false_iff.mp reached)
    rw [(Instant.position_back behind.real positive).1] at isBelow
    simp only [List.length_singleton, Nat.cast_one, sub_self, mul_zero, mul_one,
      List.getLast?_singleton, Option.mem_some_iff, forall_eq']
    omega
  | @whole finish windows ahead rest inductionHypothesis =>
    obtain ⟨⟨atLeast, atMost⟩, ends⟩ := inductionHypothesis (behind.back positive)
    rw [(Instant.position_back behind.real positive).1] at atLeast atMost
    rw [List.getLast?_cons_of_ne_nil rest.ne_nil, List.length_cons, Nat.cast_succ]
    exact ⟨⟨by linarith, by linarith⟩, ends⟩

end Tiles

/-! ### The tiling -/

/-- What the windows of a walk that has begun are, from the present down to the floor: the first
one ends at the present, each of the others where the one before it begins, and the last one begins
at the floor; no window is empty, and all but the last one are as long as the interval. -/
structure IsTiling (now floor : Instant) (interval : Int) (windows : List SyncWindow) : Prop where
  head : windows.head?.map (·.finish) = some now
  adjacent : windows.IsChain fun window next => next.finish = window.start
  last : windows.getLast?.map (·.start) = some floor
  notEmpty : ∀ window ∈ windows, window.start.before window.finish = true
  whole : ∀ window ∈ windows.dropLast, window.length = interval

theorem Tiles.isTiling (tiles : Tiles interval floor now windows) (real : now.IsReal)
    (positive : 0 < interval) : IsTiling now floor interval windows where
  head := tiles.head_finish
  adjacent := tiles.isChain
  last := tiles.last_start
  notEmpty := tiles.start_before_finish (.self real) positive
  whole := tiles.length_dropLast (.self real) positive

/-- A floor that does not lie in a leap second that is over is reached in as many intervals as the
time to it takes, and the last window is no longer than the others. -/
theorem Tiles.count_of_notPassed (tiles : Tiles interval floor now windows) (real : now.IsReal)
    (positive : 0 < interval) (ahead : floor.before now = true)
    (notPassed : ¬ floor.IsPassedLeap now)
    (upToNow : ∀ window ∈ windows, window.finish.notAfter now = true) :
    (windows.length : ℤ) = ⌈(floor.elapsed now : ℚ) / interval⌉ ∧
      ∀ window ∈ windows.getLast?, window.length ≤ interval := by
  have above : ∀ instant, Instant.IsBehind now instant →
      (floor.before instant = true ↔ floor.position + 1 ≤ instant.position) :=
    fun _ behind => Instant.before_iff_position_lt ahead notPassed behind
  obtain ⟨⟨atLeast, atMost⟩, ends⟩ := tiles.count (.self real) positive above
  constructor
  · rw [Instant.elapsed_of_notPassed notPassed, eq_comm, Int.ceil_eq_iff,
      lt_div_iff₀ (Int.cast_pos.mpr positive), div_le_iff₀ (Int.cast_pos.mpr positive)]
    have less : ((windows.length : ℤ) - 1) * interval < now.position - floor.position := by
      linarith
    have enough : now.position - floor.position ≤ (windows.length : ℤ) * interval := by
      linarith
    exact ⟨by exact_mod_cast less, by exact_mod_cast enough⟩
  · intro window isLast
    have stillNotPassed : ¬ floor.IsPassedLeap window.finish := by
      rintro ⟨inside, gone⟩
      have upTo := Instant.notAfter_iff.mp (upToNow window (List.mem_of_getLast? isLast))
      exact notPassed ⟨inside, by omega⟩
    have starts := tiles.last_start
    rw [Option.mem_def.mp isLast, Option.map_some, Option.some_inj] at starts
    have within := (ends window isLast).2
    rw [SyncWindow.length, starts, Instant.elapsed_of_notPassed stillNotPassed]
    omega

/-- A floor in a leap second that is over is reached once the walk has come to the end of that
second: going back from there steps over the leap second, down to the floor. -/
theorem Tiles.count_of_passed (tiles : Tiles interval floor now windows) (real : now.IsReal)
    (positive : 0 < interval) (passed : floor.IsPassedLeap now) :
    (windows.length : ℤ) = ⌊(floor.secondEnd.elapsed now : ℚ) / interval⌋ + 1 ∧
      ∀ window ∈ windows.getLast?, 0 ≤ floor.secondEnd.elapsed window.finish ∧
        floor.secondEnd.elapsed window.finish < interval := by
  have above : ∀ instant, Instant.IsBehind now instant →
      (floor.before instant = true ↔ floor.secondEnd.position ≤ instant.position) :=
    fun _ behind => Instant.before_iff_secondEnd_le passed behind
  obtain ⟨⟨atLeast, atMost⟩, ends⟩ := tiles.count (.self real) positive above
  have elapsed : ∀ instant, floor.secondEnd.elapsed instant =
      instant.position - floor.secondEnd.position := by
    intro instant
    have notInLeap : ¬ nanosPerSecond ≤ 0 := by decide
    exact Instant.elapsed_of_notPassed fun passed => notInLeap passed.1
  constructor
  · rw [elapsed, ← sub_eq_iff_eq_add, eq_comm, Int.floor_eq_iff,
      le_div_iff₀ (Int.cast_pos.mpr positive), div_lt_iff₀ (Int.cast_pos.mpr positive)]
    have enough : ((windows.length : ℤ) - 1) * interval ≤
        now.position - floor.secondEnd.position := by
      linarith
    have less : now.position - floor.secondEnd.position <
        ((windows.length : ℤ) - 1 + 1) * interval := by
      linarith
    exact ⟨by exact_mod_cast enough, by exact_mod_cast less⟩
  · intro window isLast
    have within := ends window isLast
    rw [elapsed]
    omega

end WindowTiling

open BackwardWalks WindowTiling

/-- The walk back from any instant ends after finitely many windows, and these tile its range. There
are none if the floor is not before the present or the interval is not positive. Otherwise the first
one ends at the present, each of the others where the one before it begins, and the last one begins
at the floor; no window is empty, and all but the last are as long as the interval. Unless the floor
lies in a leap second that is over, the last one is not longer, and there are as many windows as
intervals are needed for the time from the floor to the present. If it does lie in one, as many
intervals as fit are counted from the end of that leap second, and one window more reaches from
there, or from less than an interval later, to the floor. -/
theorem catchUpWindows_tile {now floor : Instant} {interval : Int} (real : now.IsReal) :
    ∃ windows : List SyncWindow,
      (∀ limit, windows.length ≤ limit → catchUpWindows limit now interval floor = windows) ∧
      (windows = [] ↔ now.notAfter floor = true ∨ interval ≤ 0) ∧
      (windows ≠ [] →
        IsTiling now floor interval windows ∧
        (¬ floor.IsPassedLeap now →
          (windows.length : ℤ) = ⌈(floor.elapsed now : ℚ) / interval⌉ ∧
            ∀ window ∈ windows.getLast?, window.length ≤ interval) ∧
        (floor.IsPassedLeap now →
          (windows.length : ℤ) = ⌊(floor.secondEnd.elapsed now : ℚ) / interval⌋ + 1 ∧
            ∀ window ∈ windows.getLast?, 0 ≤ floor.secondEnd.elapsed window.finish ∧
              floor.secondEnd.elapsed window.finish < interval)) := by
  obtain ⟨windows, walks⟩ := exists_walks interval floor now real
  refine ⟨windows, fun limit enough => walks.catchUpWindows_eq enough, ?_⟩
  by_cases begins : floor.before now = true ∧ 0 < interval
  · obtain ⟨ahead, positive⟩ := begins
    have tiles := tiles_of_walks walks ahead positive
    have goesOn : ¬ (now.notAfter floor = true ∨ interval ≤ 0) := by
      rw [Instant.notAfter_iff_not_before, ahead]
      simpa using positive
    refine ⟨iff_of_false tiles.ne_nil goesOn, fun _ => ⟨tiles.isTiling real positive,
      fun notPassed => tiles.count_of_notPassed real positive ahead notPassed
        fun window member => walks.finish_notAfter member,
      fun passed => tiles.count_of_passed real positive passed⟩⟩
  · have nothing : now.notAfter floor = true ∨ interval ≤ 0 := by
      rw [Instant.notAfter_iff_not_before, Bool.eq_false_iff]
      by_contra neither
      exact begins ⟨by simpa using (not_or.mp neither).1, by omega⟩
    have none : windows = [] := by
      cases walks with
      | ended => rfl
      | back found =>
        obtain ⟨ahead, positive, _⟩ := catchUpWindow?_eq_some_iff.mp found
        exact absurd ⟨ahead, positive⟩ begins
    exact ⟨iff_of_true none nothing, fun some => absurd none some⟩

namespace WindowTiling

/-- The walk back from within a leap second in steps of seven tenths of a second. -/
def fiveWindows : List SyncWindow :=
  [⟨⟨100, 800000000⟩, ⟨100, 1500000000⟩⟩, ⟨⟨100, 100000000⟩, ⟨100, 800000000⟩⟩,
    ⟨⟨99, 400000000⟩, ⟨100, 100000000⟩⟩, ⟨⟨98, 700000000⟩, ⟨99, 400000000⟩⟩,
    ⟨⟨98, 0⟩, ⟨98, 700000000⟩⟩]

theorem fiveWindows_walks : Walks 700000000 ⟨98, 0⟩ ⟨100, 1500000000⟩ fiveWindows :=
  .back (by decide) (by decide) <| .back (by decide) (by decide) <| .back (by decide) (by decide) <|
    .back (by decide) (by decide) <| .back (by decide) (by decide) <| .ended (by decide)

/-- Five windows reach exactly to the floor, three and a half seconds before, and the last of them
is as long as the others. -/
theorem fiveWindows_tile :
    Instant.IsReal ⟨100, 1500000000⟩ ∧
      IsTiling ⟨100, 1500000000⟩ ⟨98, 0⟩ 700000000 fiveWindows ∧
      (fiveWindows.length : ℤ) =
        ⌈(Instant.elapsed ⟨98, 0⟩ ⟨100, 1500000000⟩ : ℚ) / (700000000 : ℤ)⌉ ∧
      ∀ window ∈ fiveWindows.getLast?, window.length ≤ 700000000 := by
  have real : Instant.IsReal ⟨100, 1500000000⟩ := by decide
  obtain ⟨windows, counted, _, tiled⟩ := @catchUpWindows_tile _ ⟨98, 0⟩ 700000000 real
  have walked : windows = fiveWindows :=
    (counted (windows.length + fiveWindows.length) (Nat.le_add_right _ _)).symm.trans
      (fiveWindows_walks.catchUpWindows_eq (Nat.le_add_left _ _))
  rw [walked] at tiled
  obtain ⟨tiling, notPassed, _⟩ := tiled (List.cons_ne_nil _ _)
  obtain ⟨count, last⟩ := notPassed (by decide)
  exact ⟨real, tiling, count, last⟩

/-- Within a leap second, half a second before its end. -/
def inLeap : Instant := ⟨1714564859, 1500000000⟩

/-- The end of that leap second. -/
def afterLeap : Instant := ⟨1714564860, 0⟩

/-- Half a second is five tenths of a second, but the walk in steps of a tenth back into a leap
second that is over has a single window, which is longer than such a step. -/
theorem passedLeap_one_window :
    (∀ limit, 1 ≤ limit →
        catchUpWindows limit afterLeap 100000000 inLeap = [⟨inLeap, afterLeap⟩]) ∧
      100000000 < SyncWindow.length ⟨inLeap, afterLeap⟩ ∧
      ⌈(inLeap.elapsed afterLeap : ℚ) / (100000000 : ℤ)⌉ = 5 := by
  have elapsed : inLeap.elapsed afterLeap = 500000000 := by decide
  refine ⟨fun limit enough => ?_, by decide, ?_⟩
  · obtain ⟨limit, rfl⟩ : ∃ less, limit = less + 1 := ⟨limit - 1, by omega⟩
    cases limit <;> rfl
  · rw [elapsed, Int.ceil_eq_iff]
    norm_num

end WindowTiling

end CiTelemetry
