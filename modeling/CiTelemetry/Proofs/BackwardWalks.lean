/-
This file holds the walk back from an instant down to a floor: which windows it
consists of, that it comes to its floor after finitely many of them, and that
they tile everything in between, so that an instant above the floor is in just
one of them. How far back instants may lie plays no part here.
-/

import CiTelemetry.Proofs.InstantOrder
import CiTelemetry.Time.Window
import Mathlib.Logic.ExistsUnique

namespace CiTelemetry

namespace BackwardWalks

/-- The windows of the walk back from an instant down to the floor, each of which begins where the
next one ends. -/
inductive Walks (interval : Int) (floor : Instant) : Instant → List SyncWindow → Prop
  | ended {finish : Instant} (reached : catchUpWindow? interval floor finish = none) :
    Walks interval floor finish []
  | back {finish : Instant} {window : SyncWindow} {windows : List SyncWindow}
      (found : catchUpWindow? interval floor finish = some window)
      (backward : window.start.notAfter finish = true)
      (rest : Walks interval floor window.start windows) :
    Walks interval floor finish (window :: windows)

variable {interval : Int} {floor finish instant : Instant} {windows : List SyncWindow}

/-- What a window of the walk is: it ends where the walk stands, above the floor, and begins one
interval earlier or at the floor, whichever is later. -/
theorem catchUpWindow?_eq_some_iff {window : SyncWindow} :
    catchUpWindow? interval floor finish = some window ↔
      floor.before finish = true ∧ 0 < interval ∧
        window = ⟨Instant.latest (finish.back interval) floor, finish⟩ := by
  rw [catchUpWindow?]
  split
  · next atEnd =>
    rw [Bool.or_eq_true, decide_eq_true_eq, Instant.notAfter, Bool.not_eq_true'] at atEnd
    constructor
    · intro found
      cases found
    · rintro ⟨ahead, positive, _⟩
      rw [ahead] at atEnd
      rcases atEnd with none | notPositive
      · cases none
      · omega
  · next goesOn =>
    rw [Bool.or_eq_true, decide_eq_true_eq, Instant.notAfter, Bool.not_eq_true', not_or,
      Bool.not_eq_false] at goesOn
    rw [Option.some_inj]
    constructor
    · exact fun same => ⟨goesOn.1, by omega, same.symm⟩
    · exact fun found => found.2.2.symm

/-- At the floor the walk is over. -/
theorem walks_floor : Walks interval floor floor [] := by
  refine .ended (Option.eq_none_iff_forall_ne_some.mpr fun window found => ?_)
  have ahead := (catchUpWindow?_eq_some_iff.mp found).1
  rw [Instant.before_iff] at ahead
  omega

/-- A walk reaches its floor, since every window begins before it ends. -/
theorem exists_walks (interval : Int) (floor finish : Instant) (real : finish.IsReal) :
    ∃ windows, Walks interval floor finish windows := by
  -- The induction is on the nanoseconds from the floor up, counted as if every second had a leap.
  obtain ⟨bound, bounded⟩ : ∃ bound : Nat,
      (finish.seconds - floor.seconds) * 2000000000 + finish.nanos < bound :=
    ⟨((finish.seconds - floor.seconds) * 2000000000 + finish.nanos).toNat + 1, by omega⟩
  induction bound generalizing finish with
  | zero =>
    refine ⟨[], .ended (Option.eq_none_iff_forall_ne_some.mpr fun window found => ?_)⟩
    have ahead := (catchUpWindow?_eq_some_iff.mp found).1
    rw [Instant.before_iff] at ahead
    omega
  | succ bound inductionHypothesis =>
    cases found : catchUpWindow? interval floor finish with
    | none => exact ⟨[], .ended found⟩
    | some window =>
      obtain ⟨ahead, positive, same⟩ := catchUpWindow?_eq_some_iff.mp found
      obtain ⟨earlier, stillReal⟩ := Instant.back_before real positive
      have start : window.start = Instant.latest (finish.back interval) floor := by rw [same]
      rw [Instant.latest] at start
      split at start
      · refine ⟨[window], .back found ?_ ?_⟩
        · rw [start]
          exact Instant.notAfter_of_before ahead
        · rw [start]
          exact walks_floor
      · have closer : ((finish.back interval).seconds - floor.seconds) * 2000000000 +
            (finish.back interval).nanos < bound := by
          rw [Instant.before_iff] at earlier
          unfold Instant.IsReal nanosPerSecond at real stillReal
          omega
        obtain ⟨windows, walks⟩ := inductionHypothesis _ stillReal closer
        rw [← start] at walks
        exact ⟨window :: windows,
          .back found (by rw [start]; exact Instant.notAfter_of_before earlier) walks⟩

namespace Walks

/-- The windows of the walk are those that are counted off from its beginning. -/
theorem catchUpWindows_eq (walks : Walks interval floor finish windows) {limit : Nat}
    (enough : windows.length ≤ limit) : catchUpWindows limit finish interval floor = windows := by
  induction walks generalizing limit with
  | ended reached =>
    cases limit with
    | zero => rfl
    | succ limit => rw [catchUpWindows, reached]
  | back found _ _ inductionHypothesis =>
    cases limit with
    | zero => cases enough
    | succ limit =>
      rw [catchUpWindows, found]
      exact congrArg _ (inductionHypothesis (Nat.le_of_succ_le_succ enough))

/-- No window of a walk reaches beyond its beginning. -/
theorem finish_notAfter (walks : Walks interval floor finish windows) {window : SyncWindow}
    (member : window ∈ windows) : window.finish.notAfter finish = true := by
  induction walks with
  | ended => cases member
  | back found backward _ inductionHypothesis =>
    rcases List.mem_cons.mp member with rfl | later
    · rw [(catchUpWindow?_eq_some_iff.mp found).2.2]
      exact Instant.notAfter_refl _
    · exact Instant.notAfter_trans (inductionHypothesis later) backward

/-- The windows tile the range of the walk: an instant of it is in exactly one of them. -/
theorem existsUnique_window (walks : Walks interval floor finish windows) (positive : 0 < interval)
    (above : floor.notAfter instant = true) (below : instant.before finish = true) :
    ∃! place : Nat, ∃ window : SyncWindow,
      windows[place]? = some window ∧ window.contains instant = true := by
  induction walks with
  | @ended finish reached =>
    have found := catchUpWindow?_eq_some_iff.mpr
      ⟨Instant.before_of_notAfter_of_before above below, positive, rfl⟩
    rw [reached] at found
    cases found
  | @back finish window windows found _ rest inductionHypothesis =>
    obtain ⟨_, _, same⟩ := catchUpWindow?_eq_some_iff.mp found
    have finishes : window.finish = finish := by rw [same]
    cases earlier : instant.before window.start with
    | true =>
      -- The instant is before this window, so that it is one of a later step.
      obtain ⟨place, isIn, unique⟩ := inductionHypothesis earlier
      refine ⟨place + 1, isIn, fun other isInOther => ?_⟩
      obtain ⟨window', at', contained⟩ := isInOther
      cases other with
      | zero =>
        cases at'
        rw [SyncWindow.contains, Instant.notAfter, earlier] at contained
        cases contained
      | succ other => exact congrArg (· + 1) (unique other ⟨window', at', contained⟩)
    | false =>
      refine ⟨0, ⟨window, rfl, ?_⟩, fun other isInOther => ?_⟩
      · rw [SyncWindow.contains, Instant.notAfter, earlier, finishes, below]
        rfl
      · obtain ⟨window', at', contained⟩ := isInOther
        cases other with
        | zero => rfl
        | succ other =>
          -- The windows of later steps end before the instant.
          have member : window' ∈ windows := List.mem_of_getElem? at'
          have ended := rest.finish_notAfter member
          rw [SyncWindow.contains, Bool.and_eq_true] at contained
          rw [Instant.before_iff] at contained
          rw [Instant.notAfter_iff] at ended
          have started := Instant.notAfter_iff.mp (by rw [Instant.notAfter, earlier]; rfl :
            window.start.notAfter instant = true)
          omega

end Walks

end BackwardWalks

end CiTelemetry
