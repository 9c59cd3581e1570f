/-
This file proves that calls which send to one file at the same time do not mix
their lines. A call writes only while it holds the lock, and it has then been
given the latest turn; so the file holds what the calls wrote in the order of
their turns, and once every call has sent its records this is what the calls
would have written one after another. The lines of the file therefore say what
was sent, call by call. Every order of the calls can come about.
-/

import CiTelemetry.Export.SharedFile
import CiTelemetry.Outside.Closed
import CiTelemetry.Proofs.FileLines
import Mathlib.Data.List.Nodup
import Mathlib.Data.List.Perm.Basic

namespace CiTelemetry

open MetricLine (newline)

/-- The records of a call, each with its kind. -/
def SendCall.entries (call : SendCall) : List (EntityKind × Json) :=
  call.records.map (call.kind, ·)

/-- Calls that follow one another write the lines of all their records. -/
theorem flatMap_block (calls : List SendCall) :
    calls.flatMap SendCall.block = LineFile.bytes (calls.flatMap SendCall.entries) := by
  rw [LineFile.bytes, List.flatMap_assoc]
  exact List.flatMap_congr fun call _ => LineFile.encode_lines call.kind call.records

/-- What a call has written so far. -/
def Sender.written (sender : Sender) : Bytes :=
  match sender.stage with
  | .waiting => []
  | .writing count | .refused count => sender.call.block.take count
  | .sent => sender.call.block

namespace SharedFile

variable {file after : SharedFile} {move : Move} {index : Nat} {call : SendCall}

/-! ### What a move can do -/

/-- The moves of calls, each with what it needs and what it does. -/
inductive Moves (file : SharedFile) : Move → SharedFile → Prop
  | acquire {index : Nat} {call : SendCall} (found : file.senders[index]? = some ⟨call, .waiting⟩)
      (free : file.isLocked = false) :
      Moves file ⟨index, .acquire⟩
        { file.withStage index call (.writing 0) with
          isLocked := true, turns := file.turns ++ [index] }
  | write {index done count : Nat} {call : SendCall}
      (found : file.senders[index]? = some ⟨call, .writing done⟩)
      (fits : done + count ≤ call.block.length) :
      Moves file ⟨index, .write count⟩
        { file.withStage index call (.writing (done + count)) with
          contents := file.contents ++ (call.block.drop done).take count }
  | finish {index done : Nat} {call : SendCall}
      (found : file.senders[index]? = some ⟨call, .writing done⟩)
      (complete : done = call.block.length) :
      Moves file ⟨index, .finish⟩ { file.withStage index call .sent with isLocked := false }
  | fail {index done : Nat} {call : SendCall}
      (found : file.senders[index]? = some ⟨call, .writing done⟩) :
      Moves file ⟨index, .fail⟩ { file.withStage index call (.refused done) with isLocked := false }

/-- A move that is possible is one of these. -/
theorem moves_of_move? (moved : file.move? move = some after) : Moves file move after := by
  obtain ⟨index, move⟩ := move
  rw [move?] at moved
  obtain ⟨⟨call, stage⟩, found, moved⟩ := Option.bind_eq_some_iff.mp moved
  dsimp only at moved
  split at moved
  · split at moved
    · cases moved
    · next free =>
      cases moved
      exact .acquire found (Bool.eq_false_of_not_eq_true free)
  · split at moved
    · next fits =>
      cases moved
      exact .write found fits
    · cases moved
  · split at moved
    · next complete =>
      cases moved
      exact .finish found complete
    · cases moved
  · cases moved
    exact .fail found
  · cases moved

/-- Each of these moves is possible. -/
theorem move?_of_moves (moves : Moves file move after) : file.move? move = some after := by
  cases moves with
  | acquire found free => simp [move?, found, free]
  | write found fits => simp [move?, found, fits]
  | finish found complete => simp [move?, found, complete]
  | fail found => simp [move?, found]

theorem run_of_moves (moves : Moves file move after) (rest : List Move) :
    file.run (move :: rest) = after.run rest := by
  rw [run, List.foldl_cons, move?_of_moves moves, Option.getD_some, run]

/-- What holds before some moves and outlives every move that is possible holds after them. -/
theorem run_induction {property : SharedFile → Prop}
    (step : ∀ file move after, Moves file move after → property file → property after)
    (holds : property file) (moves : List Move) : property (file.run moves) := by
  induction moves generalizing file with
  | nil => exact holds
  | cons move rest inductionHypothesis =>
    rw [run, List.foldl_cons]
    refine inductionHypothesis ?_
    cases moved : file.move? move with
    | none => exact holds
    | some after => exact step file move after (moves_of_move? moved) holds

/-! ### One call after another -/

/-- What the call at a place has written so far. -/
def writtenAt (file : SharedFile) (index : Nat) : Bytes :=
  (file.senders[index]?).elim [] Sender.written

/-- The file holds what it held at first and then what each call wrote, turn by turn; the call that
holds the lock has the latest turn. -/
structure InTurn (start : Bytes) (calls : List SendCall) (file : SharedFile) : Prop where
  calls : file.senders.map Sender.call = calls
  once : file.turns.Nodup
  inside : ∀ index ∈ file.turns, index < file.senders.length
  began : ∀ index sender, file.senders[index]? = some sender →
    (index ∈ file.turns ↔ sender.stage ≠ .waiting)
  contents : file.contents = start ++ file.turns.flatMap file.writtenAt
  latest : ∀ index call done, file.senders[index]? = some ⟨call, .writing done⟩ →
    file.isLocked = true ∧ file.turns.getLast? = some index

section Change

variable {former latter : SendStage}

theorem senders_withStage (found : file.senders[index]? = some ⟨call, former⟩) (other : Nat) :
    (file.withStage index call latter).senders[other]? =
      if index = other then some ⟨call, latter⟩ else file.senders[other]? := by
  obtain ⟨inside, _⟩ := List.getElem?_eq_some_iff.mp found
  show (file.senders.set index ⟨call, latter⟩)[other]? = _
  rw [List.getElem?_set, if_pos inside]

theorem calls_withStage (found : file.senders[index]? = some ⟨call, former⟩) :
    (file.withStage index call latter).senders.map Sender.call = file.senders.map Sender.call := by
  obtain ⟨inside, _⟩ := List.getElem?_eq_some_iff.mp found
  show (file.senders.set index ⟨call, latter⟩).map Sender.call = _
  rw [List.map_set]
  refine List.ext_getElem? fun other => ?_
  rw [List.getElem?_set]
  split
  · next equal =>
    subst equal
    rw [List.length_map, if_pos inside, List.getElem?_map, found, Option.map_some]
  · rfl

theorem writtenAt_withStage (found : file.senders[index]? = some ⟨call, former⟩) (other : Nat) :
    (file.withStage index call latter).writtenAt other =
      if index = other then Sender.written ⟨call, latter⟩ else file.writtenAt other := by
  rw [writtenAt, senders_withStage found]
  split <;> rfl

theorem length_withStage :
    (file.withStage index call latter).senders.length = file.senders.length :=
  List.length_set

/-- What other calls have written stays. -/
theorem flatMap_writtenAt_withStage (found : file.senders[index]? = some ⟨call, former⟩)
    {places : List Nat} (others : index ∉ places) :
    places.flatMap (file.withStage index call latter).writtenAt =
      places.flatMap file.writtenAt := by
  refine List.flatMap_congr fun place member => ?_
  rw [writtenAt_withStage found, if_neg]
  rintro rfl
  exact others member

end Change

namespace InTurn

variable {start : Bytes} {calls : List SendCall}

theorem ofCalls (start : Bytes) (calls : List SendCall) :
    InTurn start calls (ofCalls start calls) where
  calls := by
    show (calls.map _).map Sender.call = calls
    rw [List.map_map]
    exact List.map_id calls
  once := List.nodup_nil
  inside := nofun
  began index sender found := by
    obtain ⟨call, _, rfl⟩ := List.mem_map.mp (List.mem_of_getElem? found)
    exact ⟨nofun, fun begun => absurd rfl begun⟩
  contents := (List.append_nil start).symm
  latest index call done found := by
    obtain ⟨_, _, same⟩ := List.mem_map.mp (List.mem_of_getElem? found)
    cases same

theorem notMem_of_waiting (inTurn : InTurn start calls file)
    (found : file.senders[index]? = some ⟨call, .waiting⟩) : index ∉ file.turns :=
  fun member => (inTurn.began index _ found).mp member rfl

/-- The call that holds the lock has only the latest turn. -/
theorem turns_of_writing (inTurn : InTurn start calls file) {done : Nat}
    (found : file.senders[index]? = some ⟨call, .writing done⟩) :
    ∃ before, file.turns = before ++ [index] ∧ index ∉ before := by
  obtain ⟨before, split⟩ := List.getLast?_eq_some_iff.mp (inTurn.latest index call done found).2
  have once := inTurn.once
  rw [split] at once
  exact ⟨before, split, fun member => (List.nodup_append.mp once).2.2 index member index
    (List.mem_singleton_self index) rfl⟩

/-- The call that takes the free lock has the latest turn. -/
theorem acquire (inTurn : InTurn start calls file)
    (found : file.senders[index]? = some ⟨call, .waiting⟩) (free : file.isLocked = false) :
    InTurn start calls { file.withStage index call (.writing 0) with
      isLocked := true, turns := file.turns ++ [index] } where
  calls := (calls_withStage found).trans inTurn.calls
  once := by
    show (file.turns ++ [index]).Nodup
    rw [← List.concat_eq_append]
    exact List.Nodup.concat (inTurn.notMem_of_waiting found) inTurn.once
  inside other member := by
    refine length_withStage.symm ▸ ?_
    rcases List.mem_append.mp member with earlier | latest
    · exact inTurn.inside other earlier
    · rw [List.mem_singleton.mp latest]
      exact (List.getElem?_eq_some_iff.mp found).1
  began other sender present := by
    replace present := (senders_withStage found other).symm.trans present
    show other ∈ file.turns ++ [index] ↔ _
    rw [List.mem_append, List.mem_singleton]
    split at present
    · next same =>
      cases present
      exact ⟨fun _ => nofun, fun _ => .inr same.symm⟩
    · next apart =>
      rw [← inTurn.began other sender present]
      exact ⟨fun taken => taken.resolve_right (Ne.symm apart), .inl⟩
  contents := by
    show file.contents = start ++ (file.turns ++ [index]).flatMap
      (file.withStage index call (.writing 0)).writtenAt
    have nothing : Sender.written ⟨call, .writing 0⟩ = [] := rfl
    rw [List.flatMap_append, flatMap_writtenAt_withStage found (inTurn.notMem_of_waiting found),
      List.flatMap_singleton, writtenAt_withStage found, if_pos rfl, nothing, List.append_nil,
      inTurn.contents]
  latest other holder done present := by
    replace present := (senders_withStage found other).symm.trans present
    split at present
    · next same => exact ⟨rfl, same ▸ List.getLast?_concat⟩
    · have locked := (inTurn.latest other holder done present).1
      rw [free] at locked
      cases locked

/-- What the call that holds the lock adds to its bytes is added to the end of the file. -/
theorem extend (inTurn : InTurn start calls file) {done : Nat}
    (found : file.senders[index]? = some ⟨call, .writing done⟩) {latter : SendStage}
    {contents piece : Bytes} {isLocked : Bool} (begun : latter ≠ .waiting)
    (grown : Sender.written ⟨call, latter⟩ = call.block.take done ++ piece)
    (appended : contents = file.contents ++ piece)
    (holds : ∀ count, latter = .writing count → isLocked = true) :
    InTurn start calls { file.withStage index call latter with contents, isLocked } where
  calls := (calls_withStage found).trans inTurn.calls
  once := inTurn.once
  inside other member := length_withStage.symm ▸ inTurn.inside other member
  began other sender present := by
    replace present := (senders_withStage found other).symm.trans present
    split at present
    · next same =>
      cases present
      subst same
      exact ⟨fun _ => begun, fun _ => (inTurn.began index _ found).mpr nofun⟩
    · exact inTurn.began other sender present
  contents := by
    obtain ⟨before, split, others⟩ := inTurn.turns_of_writing found
    have former : file.writtenAt index = call.block.take done := by
      rw [writtenAt, found]
      rfl
    show contents = start ++ file.turns.flatMap (file.withStage index call latter).writtenAt
    rw [appended, inTurn.contents, split, List.flatMap_append, List.flatMap_append,
      flatMap_writtenAt_withStage found others, List.flatMap_singleton, List.flatMap_singleton,
      writtenAt_withStage found, if_pos rfl, grown, former, List.append_assoc, List.append_assoc]
  latest other holder count present := by
    replace present := (senders_withStage found other).symm.trans present
    have own := (inTurn.latest index call done found).2
    split at present
    · next same =>
      cases present
      exact ⟨holds count rfl, same ▸ own⟩
    · next apart =>
      have others := (inTurn.latest other holder count present).2
      rw [own] at others
      exact absurd (Option.some.inj others) apart

/-- Every move keeps the file in turn. -/
theorem step (inTurn : InTurn start calls file) (moves : Moves file move after) :
    InTurn start calls after := by
  cases moves with
  | acquire found free => exact inTurn.acquire found free
  | write found fits =>
    exact inTurn.extend found nofun List.take_add rfl
      fun _ _ => (inTurn.latest _ _ _ found).1
  | finish found complete =>
    refine inTurn.extend found nofun ?_ (List.append_nil _).symm nofun
    rw [complete, List.take_length, List.append_nil]
    rfl
  | fail found =>
    exact inTurn.extend found nofun (List.append_nil _).symm (List.append_nil _).symm nofun

theorem run (start : Bytes) (calls : List SendCall) (moves : List Move) :
    InTurn start calls ((SharedFile.ofCalls start calls).run moves) :=
  run_induction (fun _ _ _ moves inTurn => inTurn.step moves) (ofCalls start calls) moves

end InTurn

/-! ### Every call has sent its records -/

variable {start : Bytes} {calls : List SendCall}

theorem stage_of_isSent (sent : file.isSent = true) {sender : Sender}
    (found : file.senders[index]? = some sender) : sender.stage = .sent :=
  beq_iff_eq.mp (List.all_eq_true.mp sent sender (List.mem_of_getElem? found))

theorem filterMap_range (senders : List Sender) :
    (List.range senders.length).filterMap (fun index => senders[index]?.map Sender.call) =
      senders.map Sender.call := by
  have present : (List.range senders.length).map (fun index => senders[index]?.map Sender.call) =
      (senders.map Sender.call).map some := by
    refine List.ext_getElem (by simp) fun index inside _ => ?_
    rw [List.length_map, List.length_range] at inside
    rw [List.getElem_map, List.getElem_map, List.getElem_map, List.getElem_range,
      List.getElem?_eq_getElem inside, Option.map_some]
  have found := congrArg (List.filterMap id) present
  rwa [List.filterMap_map, List.filterMap_map, Function.id_comp, Function.id_comp,
    List.filterMap_some] at found

/-- Every call has had its turn once. -/
theorem InTurn.order_perm (inTurn : InTurn start calls file) (sent : file.isSent = true) :
    file.order.Perm calls := by
  have turns : file.turns.Perm (List.range file.senders.length) := by
    refine (List.perm_ext_iff_of_nodup inTurn.once List.nodup_range).mpr fun index => ?_
    rw [List.mem_range]
    refine ⟨inTurn.inside index, fun inside => ?_⟩
    have found := List.getElem?_eq_getElem inside
    rw [inTurn.began index _ found, stage_of_isSent sent found]
    exact nofun
  have moved := turns.filterMap fun index => file.senders[index]?.map Sender.call
  rwa [filterMap_range, inTurn.calls] at moved

/-- The file holds what the calls write, in the order in which they took the lock. -/
theorem InTurn.contents_eq (inTurn : InTurn start calls file) (sent : file.isSent = true) :
    file.contents = start ++ file.order.flatMap SendCall.block := by
  rw [inTurn.contents, order, List.filterMap_eq_flatMap_toList, List.flatMap_assoc]
  refine congrArg (start ++ ·) (List.flatMap_congr fun index _ => ?_)
  rw [writtenAt]
  cases found : file.senders[index]? with
  | none => rfl
  | some sender =>
    have complete : sender.written = sender.call.block := by
      rw [Sender.written, stage_of_isSent sent found]
    rw [Option.elim_some, complete, Option.map_some, Option.toList_some, List.flatMap_singleton]

/-! ### Every order comes about -/

/-- The moves of a call that writes everything at once. -/
def atOnce (index : Nat) (call : SendCall) : List Move :=
  [⟨index, .acquire⟩, ⟨index, .write call.block.length⟩, ⟨index, .finish⟩]

/-- A call that finds the lock free can send all its records and give the lock back. -/
theorem exists_run_atOnce (found : file.senders[index]? = some ⟨call, .waiting⟩)
    (free : file.isLocked = false) (rest : List Move) :
    ∃ after : SharedFile, file.run (atOnce index call ++ rest) = after.run rest ∧
      after.isLocked = false ∧ after.turns = file.turns ++ [index] ∧
      ∀ other, after.senders[other]? =
        if index = other then some ⟨call, .sent⟩ else file.senders[other]? := by
  obtain ⟨first, acquired, taken, held⟩ : ∃ first, Moves file ⟨index, .acquire⟩ first ∧
      first.turns = file.turns ++ [index] ∧ ∀ other, first.senders[other]? =
        if index = other then some ⟨call, .writing 0⟩ else file.senders[other]? :=
    ⟨_, .acquire found free, rfl, senders_withStage found⟩
  have own : first.senders[index]? = some ⟨call, .writing 0⟩ := (held index).trans (if_pos rfl)
  obtain ⟨second, wrote, same, whole⟩ : ∃ second,
      Moves first ⟨index, .write call.block.length⟩ second ∧ second.turns = first.turns ∧
        ∀ other, second.senders[other]? =
          if index = other then some ⟨call, .writing (0 + call.block.length)⟩
          else first.senders[other]? :=
    ⟨_, .write own (Nat.zero_add _).le, rfl, senders_withStage own⟩
  have complete : second.senders[index]? = some ⟨call, .writing (0 + call.block.length)⟩ :=
    (whole index).trans (if_pos rfl)
  obtain ⟨third, finished, released, turns, sent⟩ : ∃ third, Moves second ⟨index, .finish⟩ third ∧
      third.isLocked = false ∧ third.turns = second.turns ∧ ∀ other, third.senders[other]? =
        if index = other then some ⟨call, .sent⟩ else second.senders[other]? :=
    ⟨_, .finish complete (Nat.zero_add _), rfl, rfl, senders_withStage complete⟩
  refine ⟨third, ?_, released, turns.trans (same.trans taken), fun other => ?_⟩
  · rw [atOnce, List.cons_append, List.cons_append, List.cons_append, List.nil_append,
      run_of_moves acquired, run_of_moves wrote, run_of_moves finished]
  · rw [sent]
    split
    · rfl
    · next apart => rw [whole, if_neg apart, held, if_neg apart]

/-- The moves of calls that take the lock at their places, one after another. -/
def takingTurns (calls : List SendCall) (places : List Nat) : List Move :=
  places.flatMap fun index => (calls[index]?).elim [] (atOnce index)

theorem run_takingTurns (calls : List SendCall) {places : List Nat} (distinct : places.Nodup)
    {file : SharedFile} (free : file.isLocked = false)
    (waiting : ∀ index ∈ places, ∃ call, calls[index]? = some call ∧
      file.senders[index]? = some ⟨call, .waiting⟩) :
    (file.run (takingTurns calls places)).turns = file.turns ++ places ∧
      ∀ index sender, (file.run (takingTurns calls places)).senders[index]? = some sender →
        sender.stage = .sent ∨ index ∉ places ∧ file.senders[index]? = some sender := by
  induction places generalizing file with
  | nil => exact ⟨(List.append_nil _).symm, fun _ _ found => .inr ⟨List.not_mem_nil, found⟩⟩
  | cons first rest inductionHypothesis =>
    obtain ⟨fresh, distinct⟩ := List.nodup_cons.mp distinct
    obtain ⟨call, called, found⟩ := waiting first List.mem_cons_self
    obtain ⟨after, goesOn, released, taken, senders⟩ :=
      exists_run_atOnce found free (takingTurns calls rest)
    have begins : file.run (takingTurns calls (first :: rest)) =
        after.run (takingTurns calls rest) := by
      rw [← goesOn, takingTurns, List.flatMap_cons, called, Option.elim_some, takingTurns]
    obtain ⟨turns, stages⟩ := inductionHypothesis distinct released fun index member => by
      have apart : first ≠ index := fun same => fresh (same ▸ member)
      rw [senders index, if_neg apart]
      exact waiting index (List.mem_cons_of_mem _ member)
    rw [begins]
    refine ⟨?_, fun index sender present => ?_⟩
    · rw [turns, taken, List.append_assoc, List.singleton_append]
    · rcases stages index sender present with sent | ⟨later, earlier⟩
      · exact .inl sent
      · rw [senders index] at earlier
        split at earlier
        · cases earlier
          exact .inl rfl
        · next apart =>
          exact .inr ⟨fun member => (List.mem_cons.mp member).elim (Ne.symm apart) later, earlier⟩

/-- Calls may take the lock in every order, and all of them can then send their records. -/
theorem exists_moves (calls : List SendCall) {order : List Nat}
    (all : order.Perm (List.range calls.length)) :
    ∃ moves, ((ofCalls [] calls).run moves).turns = order ∧
      ((ofCalls [] calls).run moves).isSent = true := by
  have inside {index : Nat} : index ∈ order ↔ index < calls.length :=
    all.mem_iff.trans List.mem_range
  have senders : ∀ index, (ofCalls [] calls).senders[index]? =
      (calls[index]?).map fun call => (⟨call, .waiting⟩ : Sender) := fun _ => List.getElem?_map
  have free : (ofCalls [] calls).isLocked = false := rfl
  have waiting : ∀ index ∈ order, ∃ call, calls[index]? = some call ∧
      (ofCalls [] calls).senders[index]? = some ⟨call, .waiting⟩ := by
    intro index member
    have called := List.getElem?_eq_getElem (inside.mp member)
    exact ⟨_, called, by rw [senders, called, Option.map_some]⟩
  obtain ⟨turns, stages⟩ :=
    run_takingTurns calls (all.nodup_iff.mpr List.nodup_range) free waiting
  refine ⟨takingTurns calls order, turns, List.all_eq_true.mpr fun sender member => ?_⟩
  obtain ⟨index, present⟩ := List.mem_iff_getElem?.mp member
  rcases stages index sender present with sent | ⟨outside, found⟩
  · exact beq_iff_eq.mpr sent
  · rw [senders] at found
    obtain ⟨call, called, _⟩ := Option.map_eq_some_iff.mp found
    exact absurd (inside.mpr (List.getElem?_eq_some_iff.mp called).1) outside

end SharedFile

/-! ### Calls by themselves -/

namespace Folder

variable {folder : Folder} {path name : String}

/-- A path that leads to a file does so whatever the folder holds. -/
theorem follow_eq_ok (other : Folder) {names : List String} {place : Option String}
    (found : folder.follow place names = .ok (some name)) :
    other.follow place names = .ok (some name) := by
  induction names generalizing place with
  | nil => exact found
  | cons first rest inductionHypothesis =>
    cases place with
    | some file =>
      -- A file is not followed by more names, in whatever way this fails.
      simp only [follow] at found
      split at found
      · cases found
      · split at found <;> cases found
    | none =>
      simp only [follow] at found ⊢
      split at found
      · cases found
      · next short =>
        rw [if_neg short]
        split at found
        · next stays =>
          rw [if_pos stays]
          exact inductionHypothesis found
        · next leaves =>
          rw [if_neg leaves]
          split at found
          · cases found
          · next inside =>
            rw [if_neg inside]
            exact inductionHypothesis found

theorem file_put (found : folder.file path = .ok name) (other : String) (bytes : Bytes) :
    (folder.put other bytes).file path = .ok name := by
  unfold file at found ⊢
  have same : (folder.put other bytes).names? path = folder.names? path := rfl
  rw [same]
  cases known : folder.names? path with
  | none =>
    rw [known] at found
    cases found
  | some names =>
    rw [known] at found
    dsimp only at found ⊢
    split at found
    · next followed =>
      cases found
      rw [follow_eq_ok _ followed]
    · cases found
    · cases found

/-- What a folder holds under a name; a file that is absent is empty. -/
def held (folder : Folder) (name : String) : Bytes :=
  (folder.files.lookup name).getD []

theorem held_put (folder : Folder) (name : String) (bytes : Bytes) :
    (folder.put name bytes).held name = bytes := by
  have absent : (folder.files.filter (·.1 != name)).lookup name = none := by
    refine List.lookup_eq_none_iff.mpr fun file member => ?_
    have other := (List.mem_filter.mp member).2
    rwa [bne_comm] at other
  rw [held, put, List.lookup_append, absent, Option.none_or, List.lookup_cons_self,
    Option.getD_some]

end Folder

section Alone

variable {world : ClosedWorld} {path name : String}

/-- A call that is alone adds what it writes to the end of the file. -/
theorem run_program (isFile : path ≠ LineFile.standardOutput)
    (found : world.folder.file path = .ok name) (call : SendCall) :
    world.run (call.program path) =
      (some (.ok ()), { world with
        folder := world.folder.put name (world.folder.held name ++ call.block) }) := by
  have appended : ClosedWorld.reply (.append path (LineFile.lines call.kind call.records)) world =
      (.ok (), { world with
        folder := world.folder.put name (world.folder.held name ++ call.block) }) := by
    rw [ClosedWorld.reply, Folder.append, found]
    rfl
  rw [SendCall.program, LineFile.send, if_neg isFile]
  show Dialogue.run ClosedWorld.reply (.ask (.append path _) _) world = _
  rw [Dialogue.run, appended]
  rfl

/-- Calls that are made one after another add what they write to the end of the file. -/
theorem runEach_programs (isFile : path ≠ LineFile.standardOutput)
    (found : world.folder.file path = .ok name) (calls : List SendCall) :
    (∀ result ∈ (world.runEach (calls.map (SendCall.program path))).1, result = some (.ok ())) ∧
      (world.runEach (calls.map (SendCall.program path))).2.folder.held name =
        world.folder.held name ++ calls.flatMap SendCall.block := by
  induction calls generalizing world with
  | nil => exact ⟨nofun, (List.append_nil _).symm⟩
  | cons call rest inductionHypothesis =>
    have kept : (world.folder.put name (world.folder.held name ++ call.block)).file path =
        .ok name := Folder.file_put found _ _
    obtain ⟨results, held⟩ := @inductionHypothesis { world with
      folder := world.folder.put name (world.folder.held name ++ call.block) } kept
    rw [Folder.held_put, List.append_assoc] at held
    rw [List.map_cons, ClosedWorld.runEach, run_program isFile found call, List.flatMap_cons]
    exact ⟨List.forall_mem_cons.mpr ⟨rfl, results⟩, held⟩

end Alone

/-! ### The lines of a shared file -/

open SharedFile

/-- Calls send records to an empty file at the same time. They may take the lock in every order. In
whatever order they take it, and in whatever pieces they write, once all of them have succeeded the
file falls apart at the ends of its lines into one line for each record. The lines say exactly which
records were sent and of which kinds, those of each call next to each other and in their order, and
the calls follow one another as they took the lock. The file is the same as if the calls had been
made one after another. -/
theorem shared_file_lines (calls : List SendCall)
    (stored : ∀ call ∈ calls, ∀ record ∈ call.records, record.isStored = true) :
    (∀ order : List Nat, order.Perm (List.range calls.length) →
      ∃ moves, ((ofCalls [] calls).run moves).turns = order ∧
        ((ofCalls [] calls).run moves).isSent = true) ∧
    ∀ moves, ((ofCalls [] calls).run moves).isSent = true →
      let file := (ofCalls [] calls).run moves
      file.order.Perm calls ∧
        (∃ rows, file.contents.splitOn newline = rows ++ [[]] ∧
          rows.map LineFile.record? = (file.order.flatMap SendCall.entries).map some) ∧
        ∀ (world : ClosedWorld) (path name : String), path ≠ LineFile.standardOutput →
          world.folder.file path = .ok name → world.folder.held name = [] →
            let (results, final) := world.runEach (file.order.map (SendCall.program path))
            (∀ result ∈ results, result = some (.ok ())) ∧
              final.folder.held name = file.contents := by
  refine ⟨fun _ => exists_moves calls, fun moves sent => ?_⟩
  intro file
  have inTurn : InTurn [] calls file := InTurn.run [] calls moves
  have order := inTurn.order_perm sent
  have contents := inTurn.contents_eq sent
  rw [List.nil_append] at contents
  refine ⟨order, ?_, ?_⟩
  · have storedEntries : ∀ entry ∈ file.order.flatMap SendCall.entries,
        entry.2.isStored = true := by
      intro entry member
      obtain ⟨call, called, inside⟩ := List.mem_flatMap.mp member
      obtain ⟨record, written, rfl⟩ := List.mem_map.mp inside
      exact stored call (order.mem_iff.mp called) record written
    refine ⟨(file.order.flatMap SendCall.entries).map LineFile.row, ?_,
      LineFile.map_record?_row _ storedEntries⟩
    rw [contents, flatMap_block, LineFile.splitOn_bytes _ storedEntries]
  · intro world path name isFile found empty
    obtain ⟨results, held⟩ := runEach_programs isFile found file.order
    rw [empty, List.nil_append, ← contents] at held
    exact ⟨results, held⟩

namespace SharedFile

/-- Two calls. Their records hold the end of a line, a control character and a quotation mark. -/
def crossedCalls : List SendCall :=
  [⟨.jobs, [.obj [("name", .str "two\nlines")], .int 7]⟩,
    ⟨.pipelines, [.arr [.str "\x00\"", .null]]⟩]

/-- Moves by which the second call takes the lock first and writes in two pieces, between which the
first call cannot take it. -/
def crossedMoves : List Move :=
  [⟨1, .acquire⟩, ⟨1, .write 20⟩, ⟨0, .acquire⟩, ⟨1, .write 28⟩, ⟨1, .finish⟩, ⟨0, .acquire⟩,
    ⟨0, .write 74⟩, ⟨0, .finish⟩]

/-- A world in which the folder holds no file. -/
def emptyWorld : ClosedWorld :=
  .fresh ⟨"/", []⟩ default

theorem file_emptyWorld : emptyWorld.folder.file "f" = .ok "f" := by
  have whole : "f".splitOn "/" = ["f"] := by
    rw [String.splitOn, if_neg (by decide), String.splitOnAux, if_neg (by decide +kernel),
      if_neg (by decide +kernel), String.splitOnAux, if_pos (by decide +kernel)]
    decide +kernel
  have names : emptyWorld.folder.names? "f" = some ["f"] := by
    unfold Folder.names?
    rw [whole]
    decide +kernel
  rw [Folder.file, names]
  rfl

/-- The file has three lines, that of the second call first, and it is the same if the second call
is made before the first one. -/
theorem crossedCalls_lines :
    let file := (ofCalls [] crossedCalls).run crossedMoves
    (∀ call ∈ crossedCalls, ∀ record ∈ call.records, record.isStored = true) ∧
      file.isSent = true ∧ file.turns = [1, 0] ∧
      (∃ rows, file.contents.splitOn newline = rows ++ [[]] ∧
        rows.map LineFile.record? =
          [some (.pipelines, .arr [.str "\x00\"", .null]),
            some (.jobs, .obj [("name", .str "two\nlines")]), some (.jobs, .int 7)]) ∧
      (emptyWorld.runEach (crossedCalls.reverse.map (SendCall.program "f"))).2.folder.held "f" =
        file.contents := by
  have stored : ∀ call ∈ crossedCalls, ∀ record ∈ call.records, record.isStored = true := by
    decide +kernel
  have sent : ((ofCalls [] crossedCalls).run crossedMoves).isSent = true := by decide +kernel
  obtain ⟨_, lines, alone⟩ := (shared_file_lines crossedCalls stored).2 crossedMoves sent
  exact ⟨stored, sent, by decide +kernel, lines,
    (alone emptyWorld "f" "f" (by decide) file_emptyWorld rfl).2⟩

end SharedFile

end CiTelemetry
