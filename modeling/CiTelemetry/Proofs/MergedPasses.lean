/-
This file proves what becomes of merge requests that are fetched in passes. There
is one record for each merge request of the core pass, where it was first told
of; it is the last one that the core pass told, with the nodes of the later
passes about it merged in one after another, and they leave its core fields as
they are. What the later passes tell of other merge requests is reported.
-/

import CiTelemetry.Proofs.FirstOccurrences
import CiTelemetry.Proofs.FixedAnswers
import CiTelemetry.Proofs.MergeOrphans

namespace CiTelemetry

open Dialogue

/-! ### Tables of records -/

namespace KeyedRecords

variable {κ β : Type} [DecidableEq κ]

/-- A table is filled record by record. -/
theorem ofList_concat (key : β → κ) (items : List β) (item : β) :
    ofList key (items ++ [item]) = (ofList key items).put (key item) item := by
  rw [ofList, List.foldl_concat]
  rfl

theorem keys_put (records : KeyedRecords κ β) (place : κ) (record : β) :
    (records.put place record).map (·.1) =
      if place ∈ records.map (·.1) then records.map (·.1) else records.map (·.1) ++ [place] := by
  rw [put]
  split
  · next known => rw [keys_adjust, if_pos (any_iff_mem_keys.mp known)]
  · next unknown =>
    rw [List.map_append, List.map_singleton,
      if_neg fun known => unknown (any_iff_mem_keys.mpr known)]

/-- The keys stand in the order in which they first occur. -/
theorem keys_ofList (key : β → κ) (items : List β) :
    (ofList key items).map (·.1) = (items.map key).eraseDups := by
  induction items using List.reverseRecOn with
  | nil => rfl
  | append_singleton items item inductionHypothesis =>
    rw [ofList_concat, keys_put, inductionHypothesis, List.map_append, List.map_singleton,
      eraseDups_concat]
    simp only [List.mem_eraseDups]

/-- What is put under a key takes the place of what was there. -/
theorem of_mem_put {records : KeyedRecords κ β} {place : κ} {record : β} {entry : κ × β}
    (member : entry ∈ records.put place record) :
    entry = (place, record) ∨ (entry ∈ records ∧ entry.1 ≠ place) := by
  rw [put] at member
  split at member
  · obtain ⟨former, isFormer, rfl⟩ := List.mem_map.mp member
    dsimp only
    split
    · next same => exact .inl (by rw [same])
    · next other => exact .inr ⟨isFormer, other⟩
  · next unknown =>
    rcases List.mem_append.mp member with known | new
    · refine .inr ⟨known, fun same => unknown (any_iff_mem_keys.mpr ?_)⟩
      exact same ▸ List.mem_map_of_mem known
    · exact .inl (List.mem_singleton.mp new)

/-- Of several records with one key the last one stands in the table. -/
theorem last_of_mem_ofList {key : β → κ} {items : List β} {entry : κ × β}
    (member : entry ∈ ofList key items) :
    (items.filter (key · = entry.1)).getLast? = some entry.2 := by
  induction items using List.reverseRecOn with
  | nil => cases member
  | append_singleton items item inductionHypothesis =>
    rw [ofList_concat] at member
    rw [List.filter_append]
    rcases of_mem_put member with rfl | ⟨earlier, other⟩
    · rw [List.filter_cons_of_pos (by simp), List.filter_nil, List.getLast?_concat]
    · rw [List.filter_cons_of_neg (by simpa using Ne.symm other), List.filter_nil, List.append_nil,
        inductionHypothesis earlier]

end KeyedRecords

/-! ### Merging -/

section Merging

variable {κ β π : Type} [DecidableEq κ] {key : β → κ} {partialKey : π → κ} {merge : β → π → β}

/-- Each record has the partial records of its key merged in, one after another. -/
theorem records_mergeInto (records : KeyedRecords κ β) (partials : List π) :
    (mergeInto partialKey merge records partials).records =
      records.map fun entry => (partials.filter (partialKey · = entry.1)).foldl merge entry.2 := by
  induction partials generalizing records with
  | nil => rfl
  | cons part rest inductionHypothesis =>
    rw [mergeInto]
    split
    · rw [inductionHypothesis, KeyedRecords.adjust, List.map_map]
      refine List.map_congr_left fun entry _ => ?_
      dsimp only [Function.comp]
      split
      · next same => rw [List.filter_cons_of_pos (by simpa using same.symm), List.foldl_cons]
      · next other => rw [List.filter_cons_of_neg (by simpa using Ne.symm other)]
    · next unknown =>
      rw [KeyedRecords.any_iff_mem_keys] at unknown
      refine (inductionHypothesis records).trans (List.map_congr_left fun entry member => ?_)
      have other : partialKey part ≠ entry.1 :=
        fun same => unknown (same ▸ List.mem_map_of_mem member)
      rw [List.filter_cons_of_neg (by simpa using other)]

/-- Merging gives one record for each key, in the order in which the keys first occur. -/
theorem keys_mergePartials (keeps : ∀ record part, key (merge record part) = key record)
    (base : List β) (partials : List π) :
    (mergePartials base partials key partialKey merge).records.map key =
      (base.map key).eraseDups := by
  rw [mergePartials, keys_mergeInto keeps (KeyedRecords.ofList_spec key base).1,
    KeyedRecords.keys_ofList]

/-- A merged record is the last base record with its key, with all partial records of that key
merged in. -/
theorem merged_of_mem_mergePartials (keeps : ∀ record part, key (merge record part) = key record)
    {base : List β} {partials : List π} {record : β}
    (member : record ∈ (mergePartials base partials key partialKey merge).records) :
    ∃ last, (base.filter (key · = key record)).getLast? = some last ∧
      record = (partials.filter (partialKey · = key record)).foldl merge last := by
  rw [mergePartials, records_mergeInto] at member
  obtain ⟨entry, isEntry, rfl⟩ := List.mem_map.mp member
  have kept : ∀ (parts : List π) (last : β), key (parts.foldl merge last) = key last := by
    intro parts
    induction parts with
    | nil => exact fun last => rfl
    | cons part rest inductionHypothesis =>
      exact fun last => (inductionHypothesis (merge last part)).trans (keeps last part)
  have own : key ((partials.filter (partialKey · = entry.1)).foldl merge entry.2) = entry.1 :=
    (kept _ entry.2).trans ((KeyedRecords.ofList_spec key base).1 entry isEntry)
  rw [own]
  exact ⟨entry.2, KeyedRecords.last_of_mem_ofList isEntry, rfl⟩

end Merging

/-! ### Merge requests -/

/-- A merge request without what the later passes carry. -/
def MergeRequest.coreFields (request : MergeRequest) : MergeRequest :=
  { request with
    additions := none
    deletions := none
    fileCount := none
    userNotesCount := none
    approved := none
    mergeStatus := none
    participants := []
    assignees := []
    reviewers := [] }

theorem coreFields_mergeInto (node : MergeRequestNode) (request : MergeRequest) :
    (node.mergeInto request).coreFields = request.coreFields := rfl

/-- The core pass carries core fields only. -/
theorem coreFields_of_mem_coreRecords
    {core : List (Nested ProjectMergeRequestsNode MergeRequestNode)} {request : MergeRequest}
    (member : request ∈ coreRecords core) : request.coreFields = request := by
  obtain ⟨project, _, inProject⟩ := List.mem_flatMap.mp member
  split at inProject
  · cases inProject
  · obtain ⟨node, _, converts⟩ := List.mem_filterMap.mp inProject
    cases number : node.number with
    | error error => simp [MergeRequestNode.toMergeRequest, number, Except.toOption] at converts
    | ok id =>
      simp only [MergeRequestNode.toMergeRequest, number] at converts
      cases converts
      rfl

/-- What a later pass tells of one merge request, in the order of the pages. -/
def nodesAbout (later : List (Nested ProjectMergeRequestsNode MergeRequestNode)) (id : Int) :
    List MergeRequestNode :=
  (later.flatMap (·.inner)).filter fun node => node.number.toOption = some id

theorem map_filter_numberedPartials
    (later : List (Nested ProjectMergeRequestsNode MergeRequestNode)) (id : Int) :
    ((numberedPartials later).filter (·.1 = id)).map (·.2) = nodesAbout later id := by
  rw [numberedPartials, nodesAbout, converted]
  induction later.flatMap (·.inner) with
  | nil => rfl
  | cons node rest inductionHypothesis =>
    rw [List.filterMap_cons, List.filter_cons]
    cases number : node.number with
    | error error => simpa [Except.map, Except.toOption] using inductionHypothesis
    | ok other =>
      simp only [Except.map, Except.toOption, Option.some.injEq, decide_eq_true_eq]
        at inductionHypothesis ⊢
      rw [List.filter_cons]
      by_cases same : other = id <;> simp [same, inductionHypothesis]

/-- A record with nodes of a later pass merged in, one after another. -/
def MergeRequest.mergeAll (request : MergeRequest) (nodes : List MergeRequestNode) :
    MergeRequest :=
  nodes.foldl (fun known node => node.mergeInto known) request

theorem coreFields_mergeAll (request : MergeRequest) (nodes : List MergeRequestNode) :
    (request.mergeAll nodes).coreFields = request.coreFields := by
  induction nodes generalizing request with
  | nil => rfl
  | cons node rest inductionHypothesis =>
    exact (inductionHypothesis (node.mergeInto request)).trans (coreFields_mergeInto node request)

/-- What a pass adds to records: the keys stay, and each record has the nodes about it merged in.
-/
theorem addPass_spec (pass : MergeRequestPass) (collected : Collected MergeRequest)
    (later : List (Nested ProjectMergeRequestsNode MergeRequestNode)) :
    ((addPass pass collected later).values.map (·.id) =
        (collected.values.map (·.id)).eraseDups) ∧
      ∀ record ∈ (addPass pass collected later).values, ∃ last,
        (collected.values.filter (·.id = record.id)).getLast? = some last ∧
          record = last.mergeAll (nodesAbout later record.id) := by
  have keeps : ∀ (record : MergeRequest) (numbered : Int × MergeRequestNode),
      (numbered.2.mergeInto record).id = record.id := fun _ _ => rfl
  refine ⟨keys_mergePartials keeps _ _, fun record member => ?_⟩
  obtain ⟨last, isLast, merged⟩ := merged_of_mem_mergePartials keeps member
  refine ⟨last, isLast, merged.trans ?_⟩
  rw [← map_filter_numberedPartials, MergeRequest.mergeAll, List.foldl_map]

/-- The records and failures that are right for what the three passes told. -/
structure MergesPasses
    (core extra participants : List (Nested ProjectMergeRequestsNode MergeRequestNode))
    (collected : Collected MergeRequest) : Prop where
  /-- One record for each merge request of the core pass, in the order of first occurrence. -/
  ids : collected.values.map (·.id) = ((coreRecords core).map (·.id)).eraseDups
  /-- A record has the core fields of the last one of the core pass, and the others from what the
  later passes told of it, one after another. -/
  merged : ∀ record ∈ collected.values, ∃ base,
    ((coreRecords core).filter (·.id = record.id)).getLast? = some base ∧
      record.coreFields = base ∧
      record = (base.mergeAll (nodesAbout extra record.id)).mergeAll
        (nodesAbout participants record.id)
  /-- Each node of a later pass about a merge request without core record is one failure. -/
  errors : collected.errors = orphanErrors core extra participants

theorem mergesPasses
    (core extra participants : List (Nested ProjectMergeRequestsNode MergeRequestNode)) :
    MergesPasses core extra participants
      (addPass .participants (addPass .extra (.ofValues (coreRecords core)) extra)
        participants) := by
  obtain ⟨extraIds, extraMerged⟩ := addPass_spec .extra (.ofValues (coreRecords core)) extra
  obtain ⟨ids, merged⟩ := addPass_spec .participants
    (addPass .extra (.ofValues (coreRecords core)) extra) participants
  refine ⟨?_, fun record member => ?_, errors_addPass core extra participants⟩
  · rw [ids, extraIds, eraseDups_of_nodup (nodup_eraseDups _)]
    rfl
  · obtain ⟨between, isLast, merges⟩ := merged record member
    obtain ⟨isBetween, same⟩ := List.mem_filter.mp (List.mem_of_getLast? isLast)
    rw [decide_eq_true_eq] at same
    obtain ⟨base, isBase, merges'⟩ := extraMerged between isBetween
    rw [same] at isBase merges'
    have isCore : base.coreFields = base :=
      coreFields_of_mem_coreRecords (List.mem_filter.mp (List.mem_of_getLast? isBase)).1
    refine ⟨base, isBase, ?_, ?_⟩
    · rw [merges, coreFields_mergeAll, merges', coreFields_mergeAll, isCore]
    · rw [← merges']
      exact merges

/-- When the three passes return, the merge requests are collected from them, and nothing is lost or
invented. -/
theorem fetchMergeRequests_merges {allowance : Nat} {ids : List Int} {window : SyncWindow}
    (asked : ids ≠ []) {first second third : List (Turn Action Action.Reply)}
    {core extra participants : List (Nested ProjectMergeRequestsNode MergeRequestNode)}
    (coreRun : Held (fetchMergeRequestPass allowance ids window .core).run first (some (.ok core)))
    (extraRun :
      Held (fetchMergeRequestPass allowance ids window .extra).run second (some (.ok extra)))
    (participantsRun :
      Held (fetchMergeRequestPass allowance ids window .participants).run third
        (some (.ok participants))) :
    ∃ collected,
      Held (fetchMergeRequests allowance ids window).run (first ++ (second ++ third))
        (some (.ok collected)) ∧
      MergesPasses core extra participants collected := by
  refine ⟨_, ?_, mergesPasses core extra participants⟩
  have someAsked : ¬ids.isEmpty = true := fun isNone => asked (List.isEmpty_iff.mp isNone)
  rw [fetchMergeRequests, if_neg someAsked]
  have returned : Held (pure (addPass .participants
      (addPass .extra (.ofValues (coreRecords core)) extra) participants) :
        Fetch (Collected MergeRequest)).run [] _ := .done _
  rw [← List.append_nil third]
  exact Attempt.held_ok_bind coreRun
    (Attempt.held_ok_bind extraRun (Attempt.held_ok_bind participantsRun returned))

namespace ThreePasses

def node (id : String) : MergeRequestNode :=
  { (default : MergeRequestNode) with id }

def project (id : String) (nodes : List MergeRequestNode) : ProjectMergeRequestsNode :=
  ⟨id, "g/app", some ⟨nodes.map some, ⟨none, false⟩⟩⟩

/-- The core pass tells of merge request 7 twice, and of 9 only in a project without number; the
later passes tell of 9 and of 10. -/
def projects : MergeRequestPass → List ProjectMergeRequestsNode
  | .core =>
    [project "gid://gitlab/Project/1"
        [{ node "gid://gitlab/MergeRequest/7" with title := some "Draft" },
          node "gid://gitlab/MergeRequest/8",
          { node "gid://gitlab/MergeRequest/7" with title := some "Final" }],
      project "none" [node "gid://gitlab/MergeRequest/9"]]
  | .extra =>
    [project "none"
      [{ node "gid://gitlab/MergeRequest/7" with approved := some false }, node "none",
        node "gid://gitlab/MergeRequest/9",
        { node "gid://gitlab/MergeRequest/7" with approved := some true }]]
  | .participants =>
    [project "gid://gitlab/Project/1"
      [node "gid://gitlab/MergeRequest/10", node "gid://gitlab/MergeRequest/8"]]

def told (pass : MergeRequestPass) : List (Nested ProjectMergeRequestsNode MergeRequestNode) :=
  (projects pass).map fun project => ⟨project, project.mergeRequestPage.items⟩

def replies : FixedReplies
  | .query (.mergeRequests _ _ pass _) => .ok (Page.last (projects pass))
  | op => FixedReplies.nothing op

def passing (pass : MergeRequestPass) :
    Fetch (List (Nested ProjectMergeRequestsNode MergeRequestNode)) :=
  fetchMergeRequestPass 2 [1] ⟨⟨0, 0⟩, ⟨60, 0⟩⟩ pass

theorem held_passing (pass : MergeRequestPass) :
    Held (passing pass).run
      ((passing pass).run.transcript (fun op (_ : Unit) => (replies op, ())) ())
      (some (.ok (told pass))) := by
  cases pass <;> exact held_transcript _ (passing _).run ()

/-- Two records, the first one as it was told last, and one failure for each later pass. -/
theorem collected_two_records :
    ∃ collected,
      (∃ turns,
        Held (fetchMergeRequests 2 [1] ⟨⟨0, 0⟩, ⟨60, 0⟩⟩).run turns (some (.ok collected))) ∧
      MergesPasses (told .core) (told .extra) (told .participants) collected ∧
      collected.values.map (·.id) = [7, 8] ∧
      collected.values.head?.map (fun record => (record.title, record.approved)) =
        some ("Final", some true) ∧
      collected.errors = [orphanError .extra 9, orphanError .participants 10] := by
  obtain ⟨collected, held, merges⟩ :=
    fetchMergeRequests_merges (by decide) (held_passing .core) (held_passing .extra)
      (held_passing .participants)
  have ids : collected.values.map (·.id) = [7, 8] := merges.ids
  refine ⟨collected, ⟨_, held⟩, merges, ids, ?_, merges.errors⟩
  cases values : collected.values with
  | nil => rw [values] at ids; cases ids
  | cons first rest =>
    have isFirst : first ∈ collected.values := values ▸ List.mem_cons_self
    obtain ⟨base, isBase, -, merged⟩ := merges.merged first isFirst
    rw [values] at ids
    have own : first.id = 7 := (List.cons.inj ids).1
    rw [own] at isBase merged
    cases isBase
    rw [List.head?_cons, merged]
    rfl

end ThreePasses

end CiTelemetry
