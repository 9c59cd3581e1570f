/-
This file tells what the exporter sends. Which records go to which sinks is
settled before the first of them is asked; no refusal changes what is sent
afterwards, and no export stalls.
-/

import CiTelemetry.Proofs.Processing

namespace CiTelemetry

open Dialogue

namespace Exporter

variable (exporter : Exporter)

/-- The deliveries of records of one kind, whatever the sinks answer. -/
def deliveries (kind : EntityKind) (values : List Json) : List Action :=
  if values.isEmpty then [] else (List.range exporter.sinkCount).map (.send · kind values)

/-- The deliveries of a batch. -/
def batchDeliveries (batch : ExportBatch) : List Action :=
  batch.flatMap fun part => exporter.deliveries part.1 part.2

variable {exporter} {turns : Turns}

theorem asked_sendToEach {kind : EntityKind} {values : List Json} {sinks : List Nat}
    {result : Option (List SyncError)} (held : Held (sendToEach kind values sinks) turns result) :
    turns.map (·.asked) = sinks.map (.send · kind values) ∧ result.isSome := by
  induction sinks generalizing turns result with
  | nil =>
    cases held
    exact ⟨rfl, rfl⟩
  | cons sink rest inductionHypothesis =>
    rcases Held.of_bind held with ⟨rfl, stopped⟩ | ⟨outcome, first, second, rfl, sent, after⟩
    · obtain ⟨reply, -, same⟩ := Held.of_question stopped
      cases same
    · obtain ⟨reply, rfl, -⟩ := Held.of_question sent
      rcases Held.of_bind after with ⟨rfl, stopped⟩ | ⟨value, third, last, rfl, others, ended⟩
      · cases (inductionHypothesis stopped).2
      · have same : ([⟨.send sink kind values, reply⟩] ++ third : Turns).map (·.asked) =
            (sink :: rest).map (.send · kind values) := by
          rw [List.map_append, (inductionHypothesis others).1, List.map_cons]
          rfl
        cases outcome <;> cases ended <;> exact ⟨by rw [List.append_nil, same], rfl⟩

theorem asked_send {kind : EntityKind} {values : List Json} {result : Option (Outcome Unit)}
    (held : Held (exporter.send kind values) turns result) :
    turns.map (·.asked) = exporter.deliveries kind values ∧ result.isSome := by
  rw [send] at held
  rw [deliveries]
  split at held
  · next none =>
    cases held
    rw [if_pos none]
    exact ⟨rfl, rfl⟩
  · next some =>
    rw [if_neg some]
    obtain ⟨refusals, each, rfl⟩ := Held.of_bind_done _ held
    rw [Option.isSome_map]
    exact asked_sendToEach each

theorem asked_sendKinds {batch : ExportBatch} {result : Option (List SyncError)}
    (held : Held (exporter.sendKinds batch) turns result) :
    turns.map (·.asked) = exporter.batchDeliveries batch ∧ result.isSome := by
  induction batch generalizing turns result with
  | nil =>
    cases held
    exact ⟨rfl, rfl⟩
  | cons part rest inductionHypothesis =>
    rcases Held.of_bind held with ⟨rfl, stopped⟩ | ⟨outcome, first, second, rfl, sent, after⟩
    · cases (asked_send stopped).2
    · rcases Held.of_bind after with ⟨rfl, stopped⟩ | ⟨value, third, last, rfl, others, ended⟩
      · cases (inductionHypothesis stopped).2
      · have same : (first ++ third).map (·.asked) = exporter.batchDeliveries (part :: rest) := by
          rw [List.map_append, (asked_send sent).1, (inductionHypothesis others).1,
            batchDeliveries, batchDeliveries, List.flatMap_cons]
        cases outcome <;> cases ended <;> exact ⟨by rw [List.append_nil, same], rfl⟩

theorem asked_exportBatch {batch : ExportBatch} {result : Option (Outcome Unit)}
    (held : Held (exporter.exportBatch batch) turns result) :
    turns.map (·.asked) = exporter.batchDeliveries batch ∧ result.isSome := by
  obtain ⟨refusals, each, rfl⟩ := Held.of_bind_done _ held
  rw [Option.isSome_map]
  exact asked_sendKinds each

end Exporter

end CiTelemetry
