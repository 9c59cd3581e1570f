/-
This file proves which merge requests are reported as orphans. Merging partial
records keeps the keys of the base records, so that an orphan of a later pass is
a merge request that this pass told of and the core pass did not, whatever was
merged in between.
-/

import CiTelemetry.Fetch.MergeRequests

namespace CiTelemetry

/-! ### Keys of records -/

namespace KeyedRecords

variable {κ β : Type} [DecidableEq κ] {key : β → κ} {records : KeyedRecords κ β} {place : κ}

/-- Every record stands under its own key. -/
def IsKeyed (key : β → κ) (records : KeyedRecords κ β) : Prop :=
  ∀ entry ∈ records, key entry.2 = entry.1

theorem keys_adjust (records : KeyedRecords κ β) (place : κ) (change : β → β) :
    (records.adjust place change).map (·.1) = records.map (·.1) := by
  rw [adjust, List.map_map]
  refine List.map_congr_left fun entry _ => ?_
  dsimp only [Function.comp]
  split <;> rfl

theorem IsKeyed.adjust (isKeyed : records.IsKeyed key) {change : β → β}
    (keeps : ∀ record, key record = place → key (change record) = place) :
    (records.adjust place change).IsKeyed key := by
  intro entry member
  obtain ⟨former, isFormer, rfl⟩ := List.mem_map.mp member
  have own := isKeyed former isFormer
  dsimp only
  split
  · next same => exact (keeps former.2 (own.trans same)).trans same.symm
  · exact own

theorem any_iff_mem_keys : (records.any (·.1 = place)) = true ↔ place ∈ records.map (·.1) := by
  rw [List.any_eq_true, List.mem_map]
  simp only [decide_eq_true_eq]

theorem mem_keys_put {record : β} {other : κ} :
    other ∈ (records.put place record).map (·.1) ↔ other ∈ records.map (·.1) ∨ other = place := by
  rw [put]
  split
  · next known =>
    rw [keys_adjust]
    refine ⟨.inl, fun member => member.elim id fun same => ?_⟩
    rw [same]
    exact any_iff_mem_keys.mp known
  · rw [List.map_append, List.mem_append, List.map_singleton, List.mem_singleton]

theorem IsKeyed.put (isKeyed : records.IsKeyed key) (record : β) :
    (records.put (key record) record).IsKeyed key := by
  rw [KeyedRecords.put]
  split
  · exact isKeyed.adjust fun _ _ => rfl
  · intro entry member
    rcases List.mem_append.mp member with known | new
    · exact isKeyed entry known
    · cases List.mem_singleton.mp new
      rfl

/-- The records of a list stand under their own keys, and there are no other keys. -/
theorem ofList_spec (key : β → κ) (items : List β) :
    (ofList key items).IsKeyed key ∧
      ∀ place, place ∈ (ofList key items).map (·.1) ↔ place ∈ items.map key := by
  have folded : ∀ known : KeyedRecords κ β, known.IsKeyed key →
      (items.foldl (fun known record => known.put (key record) record) known).IsKeyed key ∧
        ∀ place,
          place ∈ (items.foldl (fun known record => known.put (key record) record) known).map
              (·.1) ↔
            place ∈ known.map (·.1) ∨ place ∈ items.map key := by
    induction items with
    | nil => exact fun known isKeyed => ⟨isKeyed, fun place => by simp⟩
    | cons item rest inductionHypothesis =>
      intro known isKeyed
      obtain ⟨keyed, keys⟩ := inductionHypothesis _ (isKeyed.put item)
      refine ⟨keyed, fun place => ?_⟩
      rw [List.foldl_cons, keys, mem_keys_put, List.map_cons, List.mem_cons, or_assoc]
  obtain ⟨keyed, keys⟩ := folded [] fun _ member => nomatch member
  exact ⟨keyed, fun place => by rw [ofList, keys]; simp⟩

end KeyedRecords

/-! ### Merging -/

section Merging

variable {κ β π : Type} [DecidableEq κ] {key : β → κ} {partialKey : π → κ} {merge : β → π → β}

/-- The orphans are the keys that no record stands under. -/
theorem orphans_mergeInto (records : KeyedRecords κ β) (partials : List π) :
    (mergeInto partialKey merge records partials).orphans =
      (partials.map partialKey).filter (· ∉ records.map (·.1)) := by
  induction partials generalizing records with
  | nil => rfl
  | cons part rest inductionHypothesis =>
    rw [mergeInto, List.map_cons]
    split
    · next known =>
      rw [KeyedRecords.any_iff_mem_keys] at known
      rw [inductionHypothesis, KeyedRecords.keys_adjust,
        List.filter_cons_of_neg (by simpa using known)]
    · next unknown =>
      rw [KeyedRecords.any_iff_mem_keys] at unknown
      rw [List.filter_cons_of_pos (by simpa using unknown), ← inductionHypothesis]

/-- Merging keeps the keys of the records. -/
theorem keys_mergeInto (keeps : ∀ record part, key (merge record part) = key record)
    {records : KeyedRecords κ β} (isKeyed : records.IsKeyed key) (partials : List π) :
    (mergeInto partialKey merge records partials).records.map key = records.map (·.1) := by
  induction partials generalizing records with
  | nil =>
    rw [mergeInto, List.map_map]
    exact List.map_congr_left isKeyed
  | cons part rest inductionHypothesis =>
    rw [mergeInto]
    split
    · rw [inductionHypothesis (isKeyed.adjust fun record own => (keeps record part).trans own),
        KeyedRecords.keys_adjust]
    · exact inductionHypothesis isKeyed

theorem orphans_mergePartials (base : List β) (partials : List π) :
    (mergePartials base partials key partialKey merge).orphans =
      (partials.map partialKey).filter (· ∉ base.map key) := by
  rw [mergePartials, orphans_mergeInto]
  refine List.filter_congr fun place _ => ?_
  rw [decide_eq_decide, (KeyedRecords.ofList_spec key base).2]

theorem mem_keys_mergePartials (keeps : ∀ record part, key (merge record part) = key record)
    (base : List β) (partials : List π) (place : κ) :
    place ∈ (mergePartials base partials key partialKey merge).records.map key ↔
      place ∈ base.map key := by
  obtain ⟨isKeyed, keys⟩ := KeyedRecords.ofList_spec key base
  rw [mergePartials, keys_mergeInto keeps isKeyed, keys]

end Merging

/-! ### Merge requests -/

/-- The merge requests that a later pass tells of and that have no core record. -/
def orphanIds (core later : List (Nested ProjectMergeRequestsNode MergeRequestNode)) : List Int :=
  ((numberedPartials later).map (·.1)).filter (· ∉ (coreRecords core).map (·.id))

/-- The failures that stand for the orphans of both later passes. -/
def orphanErrors
    (core extra participants : List (Nested ProjectMergeRequestsNode MergeRequestNode)) :
    List SyncError :=
  (orphanIds core extra).map (orphanError .extra) ++
    (orphanIds core participants).map (orphanError .participants)

/-- What is reported when both later passes were added is exactly their orphans. -/
theorem errors_addPass
    (core extra participants : List (Nested ProjectMergeRequestsNode MergeRequestNode)) :
    (addPass .participants (addPass .extra (.ofValues (coreRecords core)) extra)
      participants).errors = orphanErrors core extra participants := by
  have keeps : ∀ (record : MergeRequest) (numbered : Int × MergeRequestNode),
      (numbered.2.mergeInto record).id = record.id := fun _ _ => rfl
  simp only [addPass, Collected.ofValues, orphanErrors, orphanIds, List.nil_append]
  rw [orphans_mergePartials, orphans_mergePartials]
  congr 2
  refine List.filter_congr fun id _ => ?_
  rw [decide_eq_decide, mem_keys_mergePartials keeps]

end CiTelemetry
