/-
This file proves that the limit on calls holds in whatever order the calls move.
Every move leaves the number of permits as it is, free and held together; so at
most as many calls work at the same time as there are permits, and when every
call has returned, be it from its work or from its wait, all permits are free.
A call that works has taken its permit before and holds it ever since. Once the
calls are cancelled, every one of them can return.
-/

import CiTelemetry.Sync.Limiter
import Mathlib.Data.List.Infix

namespace CiTelemetry

/-- How the work of a call ends: with a value, with an error, or because the calls are cancelled. -/
inductive CallEnd.EndsWork (isCancelled : Bool) : CallMove → CallEnd → Prop
  | succeed : EndsWork isCancelled .succeed .succeeded
  | fail : EndsWork isCancelled .fail .failed
  | giveUp (cancelled : isCancelled = true) : EndsWork isCancelled .giveUp .gaveUp

/-- How many permits a call holds. -/
def CallStage.held (stage : CallStage) : Nat :=
  if stage.isWorking then 1 else 0

/-- A call whose work has begun and has not ended. -/
def CallStage.hasBegun : CallStage → Bool
  | working (_ + 1) => true
  | _ => false

namespace Limiter

variable {limiter after : Limiter} {move : Move} {index : Nat}

/-! ### What a move can do -/

/-- The calls after one of them has moved on, which leaves so many permits free. -/
def withCall (limiter : Limiter) (free index : Nat) (stage : CallStage) : Limiter :=
  { limiter with free, calls := limiter.calls.set index stage }.noted

/-- The moves of calls, each with what it needs and what it does. -/
inductive Moves (limiter : Limiter) : Move → Limiter → Prop
  | acquire {index free : Nat} (found : limiter.calls[index]? = some .waiting)
      (available : limiter.free = free + 1) :
      Moves limiter (.call index .acquire) (limiter.withCall free index (.working 0))
  | work {index turns : Nat} (found : limiter.calls[index]? = some (.working turns)) :
      Moves limiter (.call index .work)
        (limiter.withCall limiter.free index (.working (turns + 1)))
  | finish {index turns : Nat} {move : CallMove} {finish : CallEnd}
      (found : limiter.calls[index]? = some (.working turns))
      (ends : finish.EndsWork limiter.isCancelled move) :
      Moves limiter (.call index move)
        (limiter.withCall (limiter.free + 1) index (.returned finish))
  | giveUp {index : Nat} (found : limiter.calls[index]? = some .waiting)
      (cancelled : limiter.isCancelled = true) :
      Moves limiter (.call index .giveUp) (limiter.withCall limiter.free index (.returned .gaveUp))
  | cancel : Moves limiter .cancel { limiter with isCancelled := true }

/-- A move that is possible is one of these. -/
theorem moves_of_move? (moved : limiter.move? move = some after) : Moves limiter move after := by
  cases move with
  | cancel =>
    cases moved
    exact .cancel
  | call index move =>
    rw [move?, callMove?] at moved
    obtain ⟨stage, found, moved⟩ := Option.bind_eq_some_iff.mp moved
    obtain ⟨⟨free, next⟩, stepped, moved⟩ := Option.bind_eq_some_iff.mp moved
    cases moved
    unfold CallStage.move? at stepped
    split at stepped
    · split at stepped
      · next available =>
        cases stepped
        exact .acquire found (Nat.sub_add_cancel available).symm
      · cases stepped
    · split at stepped
      · next cancelled =>
        cases stepped
        exact .giveUp found cancelled
      · cases stepped
    · cases stepped
      exact .work found
    · cases stepped
      exact .finish found .succeed
    · cases stepped
      exact .finish found .fail
    · split at stepped
      · next cancelled =>
        cases stepped
        exact .finish found (.giveUp cancelled)
      · cases stepped
    · cases stepped

/-- Each of these moves is possible. -/
theorem move?_of_moves (moves : Moves limiter move after) : limiter.move? move = some after := by
  cases moves with
  | acquire found available =>
    rw [move?, callMove?, found]
    simp [CallStage.move?, available, withCall]
  | work found =>
    rw [move?, callMove?, found]
    rfl
  | finish found ends =>
    rw [move?, callMove?, found]
    cases ends with
    | giveUp cancelled => simp [CallStage.move?, cancelled, withCall]
    | _ => rfl
  | giveUp found cancelled =>
    rw [move?, callMove?, found]
    simp [CallStage.move?, cancelled, withCall]
  | cancel => rfl

theorem run_of_moves (moves : Moves limiter move after) : limiter.run [move] = after := by
  rw [run, List.foldl_cons, List.foldl_nil, move?_of_moves moves, Option.getD_some]

/-- What holds before some moves and outlives every move that is possible holds after them. -/
theorem run_induction {property : Limiter → Prop}
    (step : ∀ limiter move after, Moves limiter move after → property limiter → property after)
    (holds : property limiter) (moves : List Move) : property (limiter.run moves) := by
  induction moves generalizing limiter with
  | nil => exact holds
  | cons move rest inductionHypothesis =>
    rw [run, List.foldl_cons]
    refine inductionHypothesis ?_
    cases moved : limiter.move? move with
    | none => exact holds
    | some after => exact step limiter move after (moves_of_move? moved) holds

/-! ### Permits -/

/-- All permits are free or held by a call, and no more were held at any time. -/
structure Balanced (permits : Nat) (limiter : Limiter) : Prop where
  total : limiter.free + limiter.active = permits
  peak : limiter.peak ≤ permits

variable {permits : Nat}

theorem balanced_ofCalls (concurrency count : Nat) :
    Balanced (permitsFor concurrency) (ofCalls concurrency count) where
  total := by
    rw [active, ofCalls, List.countP_replicate]
    rfl
  peak := Nat.zero_le _

/-- The held permits change by those of the call that moves on. -/
theorem active_withCall {former : CallStage} (found : limiter.calls[index]? = some former)
    (free : Nat) (latter : CallStage) :
    (limiter.withCall free index latter).active + former.held = limiter.active + latter.held := by
  obtain ⟨inside, rfl⟩ := List.getElem?_eq_some_iff.mp found
  have atLeast : limiter.calls[index].held ≤ limiter.active :=
    List.boole_getElem_le_countP inside
  have changed : (limiter.withCall free index latter).active =
      limiter.active - limiter.calls[index].held + latter.held := List.countP_set inside
  omega

/-- A call that moves on takes as many permits as it holds more than before. -/
theorem Balanced.withCall (balanced : Balanced permits limiter) {former latter : CallStage}
    (found : limiter.calls[index]? = some former) {free : Nat}
    (exchanged : free + latter.held = limiter.free + former.held) :
    Balanced permits (limiter.withCall free index latter) := by
  have changed := active_withCall found free latter
  have total : free + (limiter.withCall free index latter).active = permits := by
    have before := balanced.total
    omega
  refine ⟨total, Nat.max_le.mpr ⟨balanced.peak, ?_⟩⟩
  show (limiter.withCall free index latter).active ≤ permits
  omega

/-- Every move keeps the number of permits. -/
theorem Balanced.step (balanced : Balanced permits limiter) (moves : Moves limiter move after) :
    Balanced permits after := by
  cases moves with
  | acquire found available => exact balanced.withCall found available.symm
  | work found => exact balanced.withCall found rfl
  | finish found _ => exact balanced.withCall found rfl
  | giveUp found _ => exact balanced.withCall found rfl
  | cancel => exact ⟨balanced.total, balanced.peak⟩

theorem balanced_run (concurrency count : Nat) (moves : List Move) :
    Balanced (permitsFor concurrency) ((ofCalls concurrency count).run moves) :=
  run_induction (fun _ _ _ moves balanced => balanced.step moves)
    (balanced_ofCalls concurrency count) moves

/-- Calls that have returned hold no permits. -/
theorem Balanced.free_eq (balanced : Balanced permits limiter)
    (returned : ∀ call ∈ limiter.calls, call.hasReturned = true) : limiter.free = permits := by
  have none : limiter.active = 0 := by
    refine List.countP_eq_zero.mpr fun call member working => ?_
    have ended := returned call member
    cases call with
    | waiting => cases working
    | working => cases ended
    | returned => cases working
  rw [← balanced.total, none, Nat.add_zero]

/-! ### Work -/

/-- A call took a permit in the course of some moves and has worked under it ever since. -/
def Holds (start : Limiter) (moves : List Move) (index : Nat) : Prop :=
  ∃ before since, moves = before ++ .call index .acquire :: since ∧
    (start.run before).calls[index]? = some .waiting ∧
    (start.run (before ++ [.call index .acquire])).free + 1 = (start.run before).free ∧
    ∀ first, first <+: since →
      (start.run (before ++ .call index .acquire :: first)).calls[index]? =
        some (.working (first.count (.call index .work)))

theorem calls_withCall {former : CallStage} (found : limiter.calls[index]? = some former)
    (free : Nat) (latter : CallStage) (other : Nat) :
    (limiter.withCall free index latter).calls[other]? =
      if index = other then some latter else limiter.calls[other]? := by
  obtain ⟨inside, _⟩ := List.getElem?_eq_some_iff.mp found
  show (limiter.calls.set index latter)[other]? = _
  rw [List.getElem?_set, if_pos inside]

/-- Only a call that has taken its permit works, and it works one turn at a time. -/
theorem working_of_moves (moves : Moves limiter move after) {turns : Nat}
    (working : after.calls[index]? = some (.working turns)) :
    (limiter.calls[index]? = some .waiting ∧ move = .call index .acquire ∧ turns = 0 ∧
        after.free + 1 = limiter.free) ∨
      ∃ done, limiter.calls[index]? = some (.working done) ∧
        turns = done + [move].count (.call index .work) := by
  cases moves with
  | @acquire other free found available =>
    rw [calls_withCall found] at working
    split at working
    · next same =>
      subst same
      cases working
      exact .inl ⟨found, rfl, rfl, available.symm⟩
    · exact .inr ⟨turns, working, by simp⟩
  | @work other done found =>
    rw [calls_withCall found] at working
    split at working
    · next same =>
      subst same
      cases working
      exact .inr ⟨done, found, by simp⟩
    · next apart => exact .inr ⟨turns, working, by simp [apart]⟩
  | @finish other done move finish found ends =>
    rw [calls_withCall found] at working
    split at working
    · cases working
    · next apart => exact .inr ⟨turns, working, by simp [apart]⟩
  | giveUp found cancelled =>
    rw [calls_withCall found] at working
    split at working
    · cases working
    · exact .inr ⟨turns, working, by simp⟩
  | cancel => exact .inr ⟨turns, working, by simp⟩

theorem run_concat (start : Limiter) (moves : List Move) (move : Move) :
    start.run (moves ++ [move]) = ((start.run moves).move? move).getD (start.run moves) := by
  rw [run_append]
  rfl

/-- A call that still works after a move has worked as much more as the move says, even if the move
was not possible. -/
theorem turns_eq {start : Limiter} {moves : List Move} {done turns : Nat}
    (before : (start.run moves).calls[index]? = some (.working done))
    (working : (start.run (moves ++ [move])).calls[index]? = some (.working turns)) :
    turns = done + [move].count (.call index .work) := by
  rw [run_concat] at working
  cases moved : (start.run moves).move? move with
  | none =>
    have different : move ≠ .call index .work := by
      rintro rfl
      rw [move?_of_moves (.work before)] at moved
      cases moved
    rw [moved, Option.getD_none, before] at working
    cases working
    rw [List.count_singleton, if_neg (by simpa using different), Nat.add_zero]
  | some after =>
    rw [moved, Option.getD_some] at working
    rcases working_of_moves (moves_of_move? moved) working with
      ⟨waiting, _⟩ | ⟨done', before', added⟩
    · rw [before] at waiting
      cases waiting
    · rw [before] at before'
      cases before'
      exact added

/-- A call that still works after one more move still holds its permit. -/
theorem Holds.concat {start : Limiter} {moves : List Move} (holds : Holds start moves index)
    {turns : Nat}
    (working : (start.run (moves ++ [move])).calls[index]? = some (.working turns)) :
    Holds start (moves ++ [move]) index := by
  obtain ⟨before, since, rfl, waiting, taken, works⟩ := holds
  refine ⟨before, since ++ [move], List.append_assoc _ _ _, waiting, taken, fun first isFirst => ?_⟩
  rcases List.prefix_concat_iff.mp isFirst with rfl | earlier
  · have more := turns_eq (works since List.prefix_rfl) working
    rw [List.append_assoc, List.cons_append] at working
    rw [working, more, List.count_append]
  · exact works first earlier

/-- Among calls that all wait at first, one that works has taken its permit and holds it. -/
theorem holds_of_working {start : Limiter} (fresh : ∀ call ∈ start.calls, call = .waiting)
    {moves : List Move} {turns : Nat}
    (working : (start.run moves).calls[index]? = some (.working turns)) :
    Holds start moves index := by
  -- The induction goes from the first move on, since a permit is taken after what came before.
  induction moves using List.reverseRecOn generalizing turns with
  | nil => cases fresh _ (List.mem_of_getElem? working)
  | append_singleton before move inductionHypothesis =>
    cases moved : (start.run before).move? move with
    | none =>
      have same := working
      rw [run_concat, moved, Option.getD_none] at same
      exact (inductionHypothesis same).concat working
    | some after =>
      have same := working
      rw [run_concat, moved, Option.getD_some] at same
      rcases working_of_moves (moves_of_move? moved) same with
        ⟨waiting, rfl, rfl, taken⟩ | ⟨done, still, _⟩
      · refine ⟨before, [], rfl, waiting, ?_, fun first isFirst => ?_⟩
        · rw [run_concat, moved, Option.getD_some]
          exact taken
        · rw [List.prefix_nil.mp isFirst]
          exact working
      · exact (inductionHypothesis still).concat working

/-- Only a call that works can work for a turn, succeed or fail. -/
theorem exists_working {move : CallMove} (own : move ∈ [CallMove.work, .succeed, .fail])
    (possible : (limiter.move? (.call index move)).isSome) :
    ∃ turns, limiter.calls[index]? = some (.working turns) := by
  obtain ⟨after, moved⟩ := Option.isSome_iff_exists.mp possible
  cases moves_of_move? moved with
  | acquire => simp at own
  | work found => exact ⟨_, found⟩
  | finish found _ => exact ⟨_, found⟩
  | giveUp => simp at own

/-! ### Cancellation -/

/-- A call that has returned stays so. -/
theorem returned_of_moves (moves : Moves limiter move after) {finish : CallEnd}
    (returned : limiter.calls[index]? = some (.returned finish)) :
    after.calls[index]? = some (.returned finish) := by
  have apart {other : Nat} {former : CallStage} (found : limiter.calls[other]? = some former)
      (different : former ≠ .returned finish) : other ≠ index := by
    rintro rfl
    exact different (Option.some.inj (found.symm.trans returned))
  cases moves with
  | acquire found => rwa [calls_withCall found, if_neg (apart found nofun)]
  | work found => rwa [calls_withCall found, if_neg (apart found nofun)]
  | finish found => rwa [calls_withCall found, if_neg (apart found nofun)]
  | giveUp found => rwa [calls_withCall found, if_neg (apart found nofun)]
  | cancel => exact returned

theorem returned_run {finish : CallEnd} (returned : limiter.calls[index]? = some (.returned finish))
    (moves : List Move) : (limiter.run moves).calls[index]? = some (.returned finish) :=
  run_induction (fun _ _ _ moves returned => returned_of_moves moves returned) returned moves

/-- The calls are cancelled, and there are so many of them. -/
structure Cancelled (count : Nat) (limiter : Limiter) : Prop where
  isCancelled : limiter.isCancelled = true
  count : limiter.calls.length = count

theorem length_of_moves (moves : Moves limiter move after) :
    after.calls.length = limiter.calls.length := by
  cases moves with
  | cancel => rfl
  | _ => exact List.length_set

theorem Cancelled.step {count : Nat} (cancelled : Cancelled count limiter)
    (moves : Moves limiter move after) : Cancelled count after where
  isCancelled := by
    cases moves with
    | cancel => rfl
    | _ => exact cancelled.isCancelled
  count := (length_of_moves moves).trans cancelled.count

theorem Cancelled.run {count : Nat} (cancelled : Cancelled count limiter) (moves : List Move) :
    Cancelled count (limiter.run moves) :=
  run_induction (fun _ _ _ moves cancelled => cancelled.step moves) cancelled moves

theorem cancelled_run {count : Nat} (size : limiter.calls.length = count) (moves : List Move) :
    Cancelled count (limiter.run (moves ++ [.cancel])) := by
  have kept : (limiter.run moves).calls.length = count :=
    run_induction (fun _ _ _ moves size => (length_of_moves moves).trans size) size moves
  rw [run_append, run_of_moves .cancel]
  exact ⟨rfl, kept⟩

/-- Once the calls are cancelled, a call that is given the chance returns from wherever it is. -/
theorem exists_returned_run {count : Nat} (cancelled : Cancelled count limiter)
    (inside : index < count) :
    ∃ finish, (limiter.run [.call index .giveUp]).calls[index]? = some (.returned finish) := by
  have inside : index < limiter.calls.length := by rwa [cancelled.count]
  have found := List.getElem?_eq_getElem inside
  cases stage : limiter.calls[index] with
  | waiting =>
    rw [stage] at found
    refine ⟨.gaveUp, ?_⟩
    rw [run_of_moves (.giveUp found cancelled.isCancelled), calls_withCall found, if_pos rfl]
  | working turns =>
    rw [stage] at found
    refine ⟨.gaveUp, ?_⟩
    rw [run_of_moves (.finish found (.giveUp cancelled.isCancelled)), calls_withCall found,
      if_pos rfl]
  | returned finish =>
    rw [stage] at found
    exact ⟨finish, returned_run found [.call index .giveUp]⟩

/-- Once the calls are cancelled, chances to return for all of them let all of them return. -/
theorem Cancelled.all_returned {count : Nat} (cancelled : Cancelled count limiter) :
    ∀ call ∈ (limiter.run ((List.range count).map (.call · .giveUp))).calls,
      call.hasReturned = true := by
  intro call member
  obtain ⟨index, found⟩ := List.mem_iff_getElem?.mp member
  have inside : index < count := by
    rw [← (cancelled.run _).count]
    exact (List.getElem?_eq_some_iff.mp found).1
  obtain ⟨before, later, split⟩ := List.append_of_mem (List.mem_range.mpr inside)
  obtain ⟨finish, returned⟩ :=
    exists_returned_run (cancelled.run (before.map (.call · .giveUp))) inside
  have still := returned_run returned (later.map (.call · .giveUp))
  rw [split, List.map_append, List.map_cons, ← List.singleton_append, run_append, run_append,
    still] at found
  cases found
  rfl

end Limiter

open Limiter

/-- However far the calls have come, cancelling them lets every one return, those that wait for a
permit as well as those that hold one, and then all permits are free. -/
theorem cancelled_calls_return (concurrency count : Nat) (moves : List Move) :
    let limiter := (ofCalls concurrency count).run
      (moves ++ [.cancel] ++ (List.range count).map (.call · .giveUp))
    (∀ call ∈ limiter.calls, call.hasReturned = true) ∧ limiter.free = max concurrency 1 := by
  intro limiter
  have cancelled : Cancelled count ((ofCalls concurrency count).run (moves ++ [.cancel])) :=
    cancelled_run List.length_replicate moves
  have returned := cancelled.all_returned
  rw [← run_append] at returned
  exact ⟨returned, (balanced_run concurrency count _).free_eq returned⟩

/-- Whatever the order is in which calls take permits, work, end and are cancelled: at most as many
calls work at the same time as there are permits, no permit is lost or made up, no call does any
work without having taken a permit that it still holds, and when every call has returned, all
permits are free. -/
theorem limiter_bounds_calls (concurrency count : Nat) (moves : List Move) :
    let limiter := (ofCalls concurrency count).run moves
    limiter.calls.countP CallStage.hasBegun ≤ limiter.active ∧
      limiter.active ≤ max concurrency 1 ∧ limiter.peak ≤ max concurrency 1 ∧
      limiter.free + limiter.active = max concurrency 1 ∧
      (∀ index, ∀ move ∈ [CallMove.work, .succeed, .fail],
        (limiter.move? (.call index move)).isSome = true →
          Holds (ofCalls concurrency count) moves index) ∧
      ((∀ call ∈ limiter.calls, call.hasReturned = true) → limiter.free = max concurrency 1) := by
  intro limiter
  have balanced : Balanced (max concurrency 1) limiter := balanced_run concurrency count moves
  have total := balanced.total
  refine ⟨?_, by omega, balanced.peak, total, ?_, balanced.free_eq⟩
  · refine List.countP_mono_left fun call _ begun => ?_
    cases call with
    | working => rfl
    | waiting => cases begun
    | returned => cases begun
  · intro index move own possible
    obtain ⟨turns, working⟩ := exists_working own possible
    exact holds_of_working (fun call => List.eq_of_mem_replicate) working

namespace Limiter

/-- Moves of three calls for one permit: the first call is cancelled at its work and the second one
at its wait, where it could not take the permit before; the third one fails after the
cancellation. -/
def cancelledMoves : List Move :=
  [.call 0 .acquire, .call 1 .acquire, .call 0 .work, .cancel, .call 1 .giveUp, .call 0 .giveUp,
    .call 2 .acquire, .call 2 .work, .call 2 .fail]

/-- Without any concurrency there is one permit; the third call takes it after the first one has
given it back, and in the end it is free again. -/
theorem cancelledMoves_bounded :
    ((ofCalls 0 3).run cancelledMoves).calls =
        [.returned .gaveUp, .returned .gaveUp, .returned .failed] ∧
      ((ofCalls 0 3).run cancelledMoves).peak = 1 ∧
      ((ofCalls 0 3).run cancelledMoves).free = max 0 1 ∧
      Holds (ofCalls 0 3) (cancelledMoves.take 8) 2 := by
  obtain ⟨_, _, _, _, _, free⟩ := limiter_bounds_calls 0 3 cancelledMoves
  obtain ⟨_, _, _, _, holds, _⟩ := limiter_bounds_calls 0 3 (cancelledMoves.take 8)
  exact ⟨by decide, by decide, free (by decide), holds 2 .fail (by decide) (by decide)⟩

end Limiter

end CiTelemetry
