/-
This file proves what the export of a batch does. However the kinds are pushed,
each sink is called once for every kind that has records, in the order in which
the kinds were first pushed, with all records of the kind in the order of the
pushes. What is refused changes nothing of this, and is joined at the end. It is
joined kind by kind, which comes to the same as joining all of it at once unless a
sink refuses with a joined failure that has another one, or cancellation, inside.
-/

import CiTelemetry.Proofs.Deliveries
import CiTelemetry.Proofs.FailureAccounting
import CiTelemetry.Proofs.FailureGroupings
import CiTelemetry.Proofs.FirstOccurrences
import CiTelemetry.Proofs.FixedAnswers

namespace CiTelemetry

open Dialogue SyncError

variable {turns : Turns}

/-! ### Pushes -/

/-- What is pushed to a batch at once: records of one kind, and their encoding. -/
structure Push where
  {Record : Type}
  kind : EntityKind
  encode? : Record → Option Json
  records : List Record

namespace Push

/-- The encoded records. -/
def values (push : Push) : List Json :=
  push.records.filterMap push.encode?

/-- The batch of pushes. -/
def batch (pushes : List Push) : ExportBatch :=
  pushes.foldl (fun known push => known.push push.kind push.encode? push.records) .empty

/-- The kinds in the order in which they were first pushed. -/
def kinds (pushes : List Push) : List EntityKind :=
  (pushes.map (·.kind)).eraseDups

/-- All records of a kind, push after push. -/
def valuesOf (pushes : List Push) (kind : EntityKind) : List Json :=
  (pushes.filter (·.kind = kind)).flatMap (·.values)

/-- The kinds that have records. -/
def exportedKinds (pushes : List Push) : List EntityKind :=
  (kinds pushes).filter fun kind => !(valuesOf pushes kind).isEmpty

variable {pushes : List Push}

theorem batch_concat (pushes : List Push) (push : Push) :
    batch (pushes ++ [push]) = (batch pushes).push push.kind push.encode? push.records :=
  List.foldl_concat ..

theorem kinds_concat (pushes : List Push) (push : Push) :
    kinds (pushes ++ [push]) =
      if push.kind ∈ pushes.map (·.kind) then kinds pushes else kinds pushes ++ [push.kind] := by
  rw [kinds, List.map_append, List.map_singleton, eraseDups_concat, kinds]

theorem valuesOf_concat (pushes : List Push) (push : Push) (kind : EntityKind) :
    valuesOf (pushes ++ [push]) kind =
      valuesOf pushes kind ++ if push.kind = kind then push.values else [] := by
  rw [valuesOf, List.filter_append, List.flatMap_append, valuesOf]
  by_cases same : push.kind = kind <;> simp [same]

theorem valuesOf_eq_nil {kind : EntityKind} (unknown : kind ∉ pushes.map (·.kind)) :
    valuesOf pushes kind = [] := by
  have noPush : pushes.filter (·.kind = kind) = [] := by
    refine List.filter_eq_nil_iff.mpr fun push member same => unknown ?_
    exact List.mem_map.mpr ⟨push, member, of_decide_eq_true same⟩
  rw [valuesOf, noPush, List.flatMap_nil]

/-- A batch holds every kind once, where it was first pushed, with all of its records. -/
theorem batch_eq (pushes : List Push) :
    batch pushes = (kinds pushes).map fun kind => (kind, valuesOf pushes kind) := by
  induction pushes using List.reverseRecOn with
  | nil => rfl
  | append_singleton pushes push inductionHypothesis =>
    have known : ((batch pushes).any (·.1 == push.kind)) = true ↔
        push.kind ∈ pushes.map (·.kind) := by
      rw [inductionHypothesis, List.any_map, List.any_eq_true, ← List.mem_eraseDups]
      simp [kinds]
    rw [batch_concat, kinds_concat, ExportBatch.push]
    split
    · next isKnown =>
      rw [if_pos (known.mp isKnown), inductionHypothesis, List.map_map]
      refine List.map_congr_left fun kind _ => ?_
      rw [valuesOf_concat]
      by_cases same : push.kind = kind
      · simp [same, values]
      · simp [same, Ne.symm same]
    · next isNew =>
      have notPushed := isNew ∘ known.mpr
      rw [if_neg notPushed, inductionHypothesis, List.map_append, List.map_singleton,
        valuesOf_concat, if_pos rfl, valuesOf_eq_nil notPushed, List.nil_append]
      congr 1
      refine List.map_congr_left fun kind member => ?_
      have other : push.kind ≠ kind := by
        rintro rfl
        exact notPushed (List.mem_eraseDups.mp member)
      rw [valuesOf_concat, if_neg other, List.append_nil]

theorem map_fst_batch (pushes : List Push) : (batch pushes).map (·.1) = kinds pushes := by
  rw [batch_eq, List.map_map]
  exact List.map_id _

end Push

/-! ### Joined kind by kind -/

namespace SyncError

variable {κ : Type} {groups : List κ} {errors : κ → List SyncError}

/-- Group by group, failures are joined from what they are joined from at once. -/
theorem joinedFrom?_filterMap_join (flat : ∀ error ∈ groups.flatMap errors, error.IsFlat) :
    joinedFrom? (groups.filterMap fun group => join (errors group)) =
      joinedFrom? (groups.flatMap errors) := by
  induction groups with
  | nil => rfl
  | cons first rest inductionHypothesis =>
    rw [List.flatMap_cons] at flat ⊢
    have own := (join_spec fun error member => flat error (List.mem_append_left _ member)).2
    have later := inductionHypothesis fun error member =>
      flat error (List.mem_append_right _ member)
    rw [joinedFrom?_append, ← own, ← later, ← joinedFrom?_append, List.filterMap_cons]
    cases join (errors first) <;> rfl

theorem joinResult_eq_ok_iff {errors : List SyncError} :
    joinResult errors = .ok () ↔ join errors = none := by
  rw [joinResult]
  cases join errors <;> simp

/-- Group by group, something is left of failures that stand for single ones. -/
theorem joinResult_filterMap_join_eq_ok_iff
    (solid : ∀ error ∈ groups.flatMap errors, error.leaves ≠ []) :
    joinResult (groups.filterMap fun group => join (errors group)) = .ok () ↔
      groups.flatMap errors = [] := by
  have inGroup : ∀ group ∈ groups, ∀ error ∈ errors group, error.leaves ≠ [] :=
    fun group isGroup error member => solid error (List.mem_flatMap.mpr ⟨group, isGroup, member⟩)
  have joinedSolid : ∀ error ∈ groups.filterMap fun group => join (errors group),
      error.leaves ≠ [] := by
    intro error member
    obtain ⟨group, isGroup, joined⟩ := List.mem_filterMap.mp member
    exact leaves_join_ne_nil (inGroup group isGroup) joined
  rw [joinResult_eq_ok_iff, join_eq_none_iff joinedSolid, List.filterMap_eq_nil_iff,
    List.flatMap_eq_nil_iff]
  exact forall₂_congr fun group isGroup => join_eq_none_iff (inGroup group isGroup)

end SyncError

/-! ### Refusals -/

/-- Whether a question hands records of a kind to a sink. -/
def Action.sends (kind : EntityKind) : Action → Bool
  | send _ kind' _ => kind' = kind
  | _ => false

/-- What sinks refuse of a kind, call after call. -/
def Turns.refusalsOf (kind : EntityKind) (turns : Turns) : List SyncError :=
  failures (turns.filter (·.asked.sends kind))

namespace Turns

variable {turns' : Turns} {kind : EntityKind}

theorem refusalsOf_append :
    refusalsOf kind (turns ++ turns') = refusalsOf kind turns ++ refusalsOf kind turns' := by
  rw [refusalsOf, List.filter_append, failures_append, refusalsOf, refusalsOf]

/-- Where nothing but records of the kind is sent, all that is refused is refused of it. -/
theorem refusalsOf_eq_failures (own : ∀ turn ∈ turns, turn.asked.sends kind = true) :
    refusalsOf kind turns = turns.failures := by
  rw [refusalsOf, List.filter_eq_self.mpr own]

/-- Where nothing of the kind is sent, nothing is refused of it. -/
theorem refusalsOf_eq_nil (others : ∀ turn ∈ turns, turn.asked.sends kind = false) :
    refusalsOf kind turns = [] := by
  rw [refusalsOf, List.filter_eq_nil_iff.mpr fun turn member => Bool.eq_false_iff.mp
    (others turn member)]
  rfl

end Turns

namespace Exporter

variable {exporter : Exporter} {kind : EntityKind} {values : List Json}

/-- The sinks are asked in turn, and what they refuse is given in this order. -/
theorem refusals_of_sendToEach {sinks : List Nat} {refusals : List SyncError}
    (held : Held (sendToEach kind values sinks) turns (some refusals)) :
    refusals = turns.failures := by
  induction sinks generalizing turns refusals with
  | nil =>
    cases held
    rfl
  | cons sink rest inductionHypothesis =>
    obtain ⟨outcome, _, _, rfl, sent, after⟩ := held.of_bind_some
    obtain ⟨others, back, _, rfl, each, ended⟩ := after.of_bind_some
    obtain ⟨reply, rfl, same⟩ := Held.of_question sent
    cases same
    rw [Turns.failures_append, Turns.failures_append, ← inductionHypothesis each]
    cases outcome <;> cases ended <;> simp [Turns.failures, Turn.failure?]

/-- The refusals of a kind are joined. -/
theorem outcome_of_send {outcome : Outcome Unit}
    (held : Held (exporter.send kind values) turns (some outcome)) :
    outcome = joinResult turns.failures := by
  rw [send] at held
  split at held
  · cases held
    rfl
  · obtain ⟨refusals, _, _, rfl, each, ended⟩ := held.of_bind_some
    cases ended
    rw [List.append_nil, refusals_of_sendToEach each]

/-- The deliveries of a kind hand over records of that kind. -/
theorem sends_of_mem_deliveries {action : Action}
    (member : action ∈ exporter.deliveries kind values) (kind' : EntityKind) :
    action.sends kind' = decide (kind = kind') := by
  rw [deliveries] at member
  split at member
  · cases member
  · obtain ⟨sink, _, rfl⟩ := List.mem_map.mp member
    rfl

/-- While a kind is sent, nothing of another one is. -/
theorem sends_of_send {result : Option (Outcome Unit)}
    (held : Held (exporter.send kind values) turns result) (kind' : EntityKind) :
    ∀ turn ∈ turns, turn.asked.sends kind' = decide (kind = kind') := by
  intro turn member
  have asked : turn.asked ∈ exporter.deliveries kind values :=
    (asked_send held).1 ▸ List.mem_map_of_mem member
  exact sends_of_mem_deliveries asked kind'

/-- Nothing is sent of a kind that a batch does not hold. -/
theorem sends_of_sendKinds {batch : ExportBatch} {result : Option (List SyncError)}
    (held : Held (exporter.sendKinds batch) turns result) (absent : kind ∉ batch.map (·.1)) :
    ∀ turn ∈ turns, turn.asked.sends kind = false := by
  intro turn member
  have asked : turn.asked ∈ exporter.batchDeliveries batch :=
    (asked_sendKinds held).1 ▸ List.mem_map_of_mem member
  obtain ⟨part, isPart, among⟩ := List.mem_flatMap.mp asked
  rw [sends_of_mem_deliveries among, decide_eq_false_iff_not]
  rintro rfl
  exact absent (List.mem_map_of_mem isPart)

/-- A batch that holds each kind once is sent kind after kind, and what is refused of each is joined.
-/
theorem refusals_of_sendKinds {batch : ExportBatch} {errors : List SyncError}
    (held : Held (exporter.sendKinds batch) turns (some errors))
    (distinct : (batch.map (·.1)).Nodup) :
    errors = (batch.map (·.1)).filterMap (fun kind => join (turns.refusalsOf kind)) ∧
      turns.failures = (batch.map (·.1)).flatMap fun kind => turns.refusalsOf kind := by
  induction batch generalizing turns errors with
  | nil =>
    cases held
    exact ⟨rfl, rfl⟩
  | cons part rest inductionHypothesis =>
    obtain ⟨outcome, front, _, rfl, sent, after⟩ := held.of_bind_some
    obtain ⟨others, back, last, rfl, each, ended⟩ := after.of_bind_some
    have together : last = [] ∧ errors = CiTelemetry.failures [outcome] ++ others := by
      cases outcome <;> cases ended <;> exact ⟨rfl, rfl⟩
    obtain ⟨rfl, rfl⟩ := together
    rw [List.map_cons, List.nodup_cons] at distinct
    obtain ⟨new, distinct⟩ := distinct
    obtain ⟨joined, refused⟩ := inductionHypothesis each distinct
    rw [List.append_nil, Turns.failures_append, List.map_cons, List.flatMap_cons]
    -- The calls for a kind are those at the front, and none of the calls for the other kinds.
    have own : Turns.refusalsOf part.1 (front ++ back) = Turns.failures front := by
      rw [Turns.refusalsOf_append, Turns.refusalsOf_eq_nil (sends_of_sendKinds each new),
        List.append_nil]
      exact Turns.refusalsOf_eq_failures fun turn member =>
        (sends_of_send sent part.1 turn member).trans (decide_eq_true rfl)
    have later : ∀ kind ∈ rest.map (·.1),
        Turns.refusalsOf kind (front ++ back) = Turns.refusalsOf kind back := by
      intro kind isLater
      have other : part.1 ≠ kind := fun same => new (same ▸ isLater)
      rw [Turns.refusalsOf_append, Turns.refusalsOf_eq_nil fun turn member =>
        (sends_of_send sent kind turn member).trans (decide_eq_false other), List.nil_append]
    constructor
    · rw [List.filterMap_cons, own, outcome_of_send sent, joinResult,
        List.filterMap_congr fun kind isLater => congrArg join (later kind isLater), ← joined]
      cases join (Turns.failures front) <;> rfl
    · rw [own, refused, List.flatMap_congr later]

end Exporter

/-! ### What sinks are sent -/

/-- The kind and the records that a question hands to a sink. -/
def Action.sentTo? (sink : Nat) : Action → Option (EntityKind × List Json)
  | send place kind records => if place = sink then some (kind, records) else none
  | _ => none

/-- What a sink is sent, call after call. -/
def Turns.sentTo (sink : Nat) (turns : Turns) : List (EntityKind × List Json) :=
  (turns.map (·.asked)).filterMap (·.sentTo? sink)

/-- Of the calls for one kind one goes to each sink, and none to other places. -/
theorem filterMap_sentTo?_range (sink count : Nat) (kind : EntityKind) (values : List Json) :
    ((List.range count).map (.send · kind values)).filterMap (Action.sentTo? sink) =
      if sink < count then [(kind, values)] else [] := by
  induction count with
  | zero => rfl
  | succ count inductionHypothesis =>
    rw [List.range_succ, List.map_append, List.filterMap_append, inductionHypothesis,
      List.map_singleton, List.filterMap_cons, List.filterMap_nil, Action.sentTo?]
    rcases Nat.lt_trichotomy sink count with earlier | same | later
    · rw [if_pos earlier, if_neg (Nat.ne_of_gt earlier), if_pos (Nat.lt_succ_of_lt earlier)]
      rfl
    · rw [if_neg (by omega), if_pos same.symm, if_pos (by omega)]
      rfl
    · rw [if_neg (by omega), if_neg (by omega), if_neg (by omega)]
      rfl

/-- The kinds that are delivered are those that have records. -/
theorem batchDeliveries_batch (exporter : Exporter) (pushes : List Push) :
    exporter.batchDeliveries (Push.batch pushes) =
      (Push.exportedKinds pushes).flatMap fun kind =>
        (List.range exporter.sinkCount).map (.send · kind (Push.valuesOf pushes kind)) := by
  rw [Push.batch_eq, Exporter.batchDeliveries, List.flatMap_map, Push.exportedKinds]
  induction Push.kinds pushes with
  | nil => rfl
  | cons kind rest inductionHypothesis =>
    rw [List.flatMap_cons, inductionHypothesis, Exporter.deliveries, List.filter_cons]
    cases (Push.valuesOf pushes kind).isEmpty <;> rfl

/-- However kinds are pushed, the export of the batch calls each sink once for every kind that has
records, in the order of the first pushes, with all records of the kind. This depends on the pushes
alone. The refusals of each kind are joined in the order of the sinks, and what this comes to in the
order of the kinds. Unless a refusal stands for no single failure, the export succeeds just if no
sink refused anything; and unless a refusal has a joined failure or cancellation inside, this is
joining all refusals at once. -/
theorem exportBatch_grouped {exporter : Exporter} {pushes : List Push}
    {result : Option (Outcome Unit)}
    (held : Held (exporter.exportBatch (Push.batch pushes)) turns result) :
    turns.map (·.asked) =
        ((Push.exportedKinds pushes).flatMap fun kind =>
          (List.range exporter.sinkCount).map (.send · kind (Push.valuesOf pushes kind))) ∧
      (∀ sink < exporter.sinkCount, turns.sentTo sink =
        (Push.exportedKinds pushes).map fun kind => (kind, Push.valuesOf pushes kind)) ∧
      (Push.exportedKinds pushes).Nodup ∧
      turns.failures = ((Push.kinds pushes).flatMap fun kind => turns.refusalsOf kind) ∧
      ∃ outcome, result = some outcome ∧
        outcome = joinResult
          ((Push.kinds pushes).filterMap fun kind => join (turns.refusalsOf kind)) ∧
        ((∀ refusal ∈ turns.failures, refusal.leaves ≠ []) →
          (outcome = .ok () ↔ turns.failures = [])) ∧
        ((∀ refusal ∈ turns.failures, refusal.IsFlat) → outcome = joinResult turns.failures) := by
  obtain ⟨asked, ended⟩ := Exporter.asked_exportBatch held
  rw [batchDeliveries_batch] at asked
  obtain ⟨before, each, rfl⟩ := Held.of_bind_done _ held
  rw [Option.isSome_map] at ended
  obtain ⟨errors, rfl⟩ := Option.isSome_iff_exists.mp ended
  obtain ⟨joined, refused⟩ :=
    Exporter.refusals_of_sendKinds each (Push.map_fst_batch pushes ▸ nodup_eraseDups _)
  rw [Push.map_fst_batch] at joined refused
  refine ⟨asked, fun sink inRange => ?_, (nodup_eraseDups _).filter _, refused, _, rfl,
    congrArg joinResult joined, ?_, fun flat => ?_⟩
  · rw [Turns.sentTo, asked, List.filterMap_flatMap, ← List.flatMap_pure_eq_map]
    refine List.flatMap_congr fun kind _ => ?_
    exact (filterMap_sentTo?_range sink _ kind _).trans (if_pos inRange)
  · rw [joined, refused]
    exact joinResult_filterMap_join_eq_ok_iff
  · rw [refused] at flat
    rw [joined, refused, joinResult, joinResult, join_eq, join_eq,
      joinedFrom?_filterMap_join flat]

namespace TwoSinks

/-- Jobs have their place from a push without records, and runners have no records at all. -/
def pushes : List Push :=
  [⟨.jobs, some, []⟩, ⟨.pipelines, some, [.int 1]⟩, ⟨.runners, fun _ => none, [Json.int 2]⟩,
    ⟨.jobs, some, [.int 3, .int 4]⟩, ⟨.pipelines, some, [.int 5]⟩]

/-- The first sink refuses everything, each kind with a failure of its own. -/
def reply (refusal : EntityKind → SyncError) (op : Action) (_ : Unit) : op.Reply × Unit :=
  match op with
  | .send sink kind _ => (if sink = 0 then .error (refusal kind) else .ok (), ())
  | op => (FixedReplies.nothing op, ())

def exporting : Sync (Outcome Unit) :=
  Exporter.exportBatch ⟨2⟩ (Push.batch pushes)

/-- The turns of the export. -/
def turnsOf (refusal : EntityKind → SyncError) : Turns :=
  exporting.transcript (reply refusal) ()

def full (kind : EntityKind) : SyncError :=
  .sinkRefused "first" kind.name "full"

/-- The second sink is sent both kinds all the same, and both refusals of the first one are joined.
-/
theorem exporting_grouped :
    (turnsOf full).sentTo 1 = [(.jobs, [.int 3, .int 4]), (.pipelines, [.int 1, .int 5])] ∧
      (turnsOf full).failures = [full .jobs, full .pipelines] ∧
      (exporting.run (reply full) ()).1 =
        some (.error (.several [full .jobs, full .pipelines])) := by
  obtain ⟨-, sent, -, -, outcome, ended, -, succeeds, atOnce⟩ :=
    exportBatch_grouped (held_transcript (reply full) exporting ())
  have refused : (turnsOf full).failures = [full .jobs, full .pipelines] := rfl
  have single : ∀ refusal ∈ (turnsOf full).failures,
      refusal.leaves = [refusal] ∧ refusal.isSingle = true := by
    rw [refused]
    simp [full, leaves, isSingle]
  have failed : outcome ≠ .ok () := by
    refine (succeeds fun refusal member => ?_).not.mpr (List.cons_ne_nil _ _)
    rw [(single refusal member).1]
    exact List.cons_ne_nil _ _
  refine ⟨sent 1 (by decide), refused, ended.trans (congrArg some ?_)⟩
  exact atOnce fun refusal member => .of_isSingle (single refusal member).2

/-- Everything is refused with a failure that joins no other. -/
def hollow (_ : EntityKind) : SyncError :=
  .several []

/-- Jobs are refused with a joined failure that has cancellation inside. -/
def nested : EntityKind → SyncError
  | .jobs => .several [.cancelled]
  | kind => full kind

/-- Refusals that join no failure leave no trace, so that the export succeeds although both kinds
were refused. And cancellation inside a refusal is brought out where the refusals of its kind are
joined, so that it outweighs the refusal of the other kind, which joining both at once would keep. -/
theorem joinedRefusals_lost :
    (Held exporting (turnsOf hollow) (some (.ok ())) ∧
        (turnsOf hollow).failures = [.several [], .several []]) ∧
      Held exporting (turnsOf nested) (some (.error .cancelled)) ∧
        joinResult (turnsOf nested).failures = .error (.several [.cancelled, full .pipelines]) :=
  ⟨⟨held_transcript (reply hollow) exporting (), rfl⟩,
    held_transcript (reply nested) exporting (), rfl⟩

end TwoSinks

end CiTelemetry
