/-
This file puts together what merging partial records comes to, for records of any
kind. Each key of the base records has one record, where it first occurs: the last
base record with that key, with the partial records of that key merged in one
after another. A partial record without a base record leaves its key behind. What
becomes of a record is therefore settled by the partial records of its own key, and
how those of other keys stand between them does not matter.
-/

import CiTelemetry.Proofs.MergedPasses

namespace CiTelemetry

variable {κ β π : Type} [DecidableEq κ]

/-- The outcome that is right for base records and partial records. -/
structure MergesByKey (key : β → κ) (partialKey : π → κ) (merge : β → π → β) (base : List β)
    (partials : List π) (outcome : MergeOutcome κ β) : Prop where
  distinct : (outcome.records.map key).Nodup
  /-- The keys are those of the base records, in the order in which they first occur. -/
  keys : outcome.records.map key = (base.map key).eraseDups
  /-- A record is the last base record with its key, with all partial records of that key merged
  in. -/
  merged : ∀ record ∈ outcome.records, ∃ last,
    (base.filter (key · = key record)).getLast? = some last ∧
      record = (partials.filter (partialKey · = key record)).foldl merge last
  /-- The other partial records are told of by their keys, in their order and each of them. -/
  orphans : outcome.orphans = (partials.map partialKey).filter (· ∉ base.map key)

/-- Whether two lists of partial records differ only in how partial records of different keys stand
to one another: of each key they hold the same ones in the same order. -/
def AgreeByKey (partialKey : π → κ) (first second : List π) : Prop :=
  ∀ place, first.filter (partialKey · = place) = second.filter (partialKey · = place)

/-- Two neighbours of different keys may change places. -/
theorem AgreeByKey.swap {partialKey : π → κ} {part other : π}
    (different : partialKey part ≠ partialKey other) (before after : List π) :
    AgreeByKey partialKey (before ++ part :: other :: after)
      (before ++ other :: part :: after) := by
  intro place
  by_cases own : partialKey part = place
  · have notOther : partialKey other ≠ place := fun same => different (own.trans same.symm)
    simp [own, notOther]
  · simp [List.filter_cons, own]

section Merging

variable {key : β → κ} {partialKey : π → κ} {merge : β → π → β}

/-- The records hang on nothing but the partial records of each key. -/
theorem AgreeByKey.records_mergePartials {first second : List π}
    (agree : AgreeByKey partialKey first second) (base : List β) :
    (mergePartials base first key partialKey merge).records =
      (mergePartials base second key partialKey merge).records := by
  rw [mergePartials, mergePartials, records_mergeInto, records_mergeInto]
  exact List.map_congr_left fun entry _ => by rw [agree entry.1]

/-- Merging partial records is a fold for each key, whatever the keys, the records and the way of
merging are, as long as it keeps the keys. -/
theorem mergePartials_byKey (keeps : ∀ record part, key (merge record part) = key record)
    (base : List β) (partials : List π) :
    MergesByKey key partialKey merge base partials
        (mergePartials base partials key partialKey merge) ∧
      ∀ others, AgreeByKey partialKey partials others →
        (mergePartials base others key partialKey merge).records =
          (mergePartials base partials key partialKey merge).records := by
  have keys : (mergePartials base partials key partialKey merge).records.map key =
      (base.map key).eraseDups := keys_mergePartials keeps base partials
  refine ⟨⟨?_, keys, ?_, orphans_mergePartials base partials⟩, ?_⟩
  · rw [keys]
    exact nodup_eraseDups _
  · exact fun record member => merged_of_mem_mergePartials keeps member
  · exact fun others agree => (agree.records_mergePartials base).symm

end Merging

namespace MergedNotes

/-- Base records with a number and a note; the number 1 is there twice. -/
def base : List (Nat × String) := [(1, "a"), (2, "b"), (1, "c")]

/-- Partial records, one number without a base record twice among them. -/
def partials : List (Nat × String) := [(2, "x"), (3, "y"), (1, "z"), (2, "w"), (3, "v")]

/-- The same partial records, two of different numbers exchanged. -/
def exchanged : List (Nat × String) := [(2, "x"), (3, "y"), (2, "w"), (1, "z"), (3, "v")]

def note (record part : Nat × String) : Nat × String := (record.1, record.2 ++ part.2)

/-- The later record of a number that is there twice counts, at the place of the earlier one. -/
theorem merged_notes :
    (∀ record part, (note record part).1 = record.1) ∧
      MergesByKey (·.1) (·.1) note base partials ⟨[(1, "cz"), (2, "bxw")], [3, 3]⟩ ∧
      (mergePartials base exchanged (·.1) (·.1) note).records = [(1, "cz"), (2, "bxw")] := by
  have keeps : ∀ record part, (note record part).1 = record.1 := fun _ _ => rfl
  have outcome : mergePartials base partials (·.1) (·.1) note =
      ⟨[(1, "cz"), (2, "bxw")], [3, 3]⟩ := by decide +kernel
  obtain ⟨merges, rearranged⟩ :=
    @mergePartials_byKey Nat _ _ _ (·.1) (·.1) note keeps base partials
  have agree : AgreeByKey (fun part : Nat × String => part.1) partials exchanged :=
    .swap (by decide) [(2, "x"), (3, "y")] [(3, "v")]
  rw [outcome] at merges rearranged
  exact ⟨keeps, merges, rearranged exchanged agree⟩

end MergedNotes

end CiTelemetry
