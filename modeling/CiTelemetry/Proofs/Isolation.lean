/-
This file proves that the parts of a batch do not disturb one another. Two runs
whose answers differ only about merge requests deliver the same records of every
other kind; two runs whose answers differ only about pipelines deliver the same
projects and merge requests; and what a sink answers changes nothing that any
sink is given. Neither the order of the answers nor whether a run comes to an
end matters.
-/

import CiTelemetry.Proofs.Deliveries
import CiTelemetry.Proofs.FixedAnswers
import CiTelemetry.Proofs.Subjects

namespace CiTelemetry

open Dialogue

/-! ### What sinks are given -/

/-- The records that a question hands to a sink, if they are of a kind. -/
def Action.given? (sink : Nat) (kind : EntityKind) : Action → Option (List Json)
  | send place sent records => if place = sink ∧ sent = kind then some records else none
  | _ => none

namespace Turns

/-- The records of a kind that a sink is given, delivery after delivery. -/
def given (sink : Nat) (kind : EntityKind) (turns : Turns) : List (List Json) :=
  (turns.map (·.asked)).filterMap (·.given? sink kind)

/-- The turns that are about none of these subjects. -/
def apartFrom (subjects : List Subject) (turns : Turns) : Turns :=
  turns.filter fun turn => turn.asked.subject ∉ subjects

variable {turns turns' : Turns} {sink : Nat} {kind : EntityKind} {subjects : List Subject}

theorem given_append : given sink kind (turns ++ turns') =
    given sink kind turns ++ given sink kind turns' := by
  rw [given, List.map_append, List.filterMap_append, given, given]

theorem apartFrom_append : apartFrom subjects (turns ++ turns') =
    apartFrom subjects turns ++ apartFrom subjects turns' :=
  List.filter_append ..

/-- Turns are all shown or all hidden, as their subject is. -/
theorem apartFrom_of_keepsTo {α : Type} {subject : Subject} {dialogue : Sync α} {result : Option α}
    (about : KeepsTo subject dialogue) (held : Held dialogue turns result) :
    apartFrom subjects turns = if subject ∈ subjects then [] else turns := by
  rw [apartFrom, about.filter_turns held (· ∉ subjects), ite_not]

/-- Turns that are not deliveries give nothing to a sink. -/
theorem given_of_keepsTo {α : Type} {subject : Subject} {dialogue : Sync α} {result : Option α}
    (about : KeepsTo subject dialogue) (other : subject ≠ .delivery)
    (held : Held dialogue turns result) : given sink kind turns = [] := by
  rw [given, List.filterMap_map]
  refine List.filterMap_eq_nil_iff.mpr fun turn member => ?_
  have isAbout := about.asked held turn member
  obtain ⟨asked, reply⟩ := turn
  cases asked with
  | send => exact absurd isAbout.symm other
  | _ => rfl

end Turns

open Turns

/-! ### What the exporter gives -/

namespace Exporter

variable {exporter : Exporter}

/-- Deliveries of one kind give nothing of another kind. -/
theorem given_deliveries {sink : Nat} {kind sent : EntityKind} {values : List Json}
    (other : sent ≠ kind) :
    (exporter.deliveries sent values).filterMap (·.given? sink kind) = [] := by
  rw [deliveries]
  split
  · rfl
  · rw [List.filterMap_map]
    refine List.filterMap_eq_nil_iff.mpr fun place _ => ?_
    exact if_neg fun same => other same.2

theorem given_batchDeliveries {sink : Nat} {kind : EntityKind} {batch : ExportBatch}
    (others : ∀ part ∈ batch, part.1 ≠ kind) :
    (exporter.batchDeliveries batch).filterMap (·.given? sink kind) = [] := by
  rw [batchDeliveries, List.filterMap_flatMap]
  exact List.flatMap_eq_nil_iff.mpr fun part member => given_deliveries (others part member)

end Exporter

/-! ### Kinds of a batch -/

namespace ExportBatch

/-- All kinds of a batch are allowed. -/
def HoldsOnly (allowed : EntityKind → Prop) (batch : ExportBatch) : Prop :=
  ∀ part ∈ batch, allowed part.1

variable {allowed : EntityKind → Prop} {batch : ExportBatch}

theorem HoldsOnly.push {α : Type} (holds : batch.HoldsOnly allowed) (kind : EntityKind)
    (isAllowed : allowed kind) (encode? : α → Option Json) (records : List α) :
    (batch.push kind encode? records).HoldsOnly allowed := by
  rw [ExportBatch.push]
  split
  · intro part member
    obtain ⟨known, isKnown, rfl⟩ := List.mem_map.mp member
    dsimp only
    split <;> exact holds known isKnown
  · intro part member
    rcases List.mem_append.mp member with known | new
    · exact holds part known
    · cases List.mem_singleton.mp new
      exact isAllowed

theorem HoldsOnly.foldl {α : Type} {add : ExportBatch → α → ExportBatch}
    (keeps : ∀ batch item, HoldsOnly allowed batch → HoldsOnly allowed (add batch item))
    (holds : batch.HoldsOnly allowed) (items : List α) :
    (items.foldl add batch).HoldsOnly allowed := by
  induction items generalizing batch with
  | nil => exact holds
  | cons item rest inductionHypothesis => exact inductionHypothesis (keeps batch item holds)

end ExportBatch

/-- A kind that belongs to pipelines: neither projects nor merge requests. -/
def EntityKind.BelongsToCi (kind : EntityKind) : Prop :=
  kind ≠ .projects ∧ kind ≠ .mergeRequests

instance (kind : EntityKind) : Decidable kind.BelongsToCi :=
  inferInstanceAs (Decidable (_ ∧ _))

open ExportBatch in
theorem holdsOnly_pushHierarchy {batch : ExportBatch} (holds : batch.HoldsOnly (·.BelongsToCi))
    (flags : ExportFlags) (hierarchy : PipelineHierarchy) :
    (batch.pushHierarchy flags hierarchy).HoldsOnly (·.BelongsToCi) := by
  have entries : ∀ batch entry, HoldsOnly (·.BelongsToCi) batch →
      HoldsOnly (·.BelongsToCi) (batch.pushEntry flags entry) := by
    intro batch entry holds
    have jobs := (holds.push .jobs (by decide) (always Job.encode) entry.jobs).push .bridges
      (by decide) (always Bridge.encode) entry.bridges
    rw [pushEntry]
    split <;> split
    · exact (jobs.push .sections (by decide) _ _).push .metrics (by decide) _ _
    · exact jobs.push .metrics (by decide) _ _
    · exact jobs.push .sections (by decide) _ _
    · exact jobs
  have pushed := HoldsOnly.foldl entries
    (holds.push .pipelines (by decide) (always Pipeline.encode)
      (hierarchy.depthFirst.map (·.pipeline)))
    hierarchy.depthFirst
  rw [pushHierarchy]
  split
  · exact pushed.push .traces (by decide) _ _
  · exact pushed

/-- What belongs to pipelines is of their kinds. -/
theorem holdsOnly_ciBatch (projects : List ProjectSettings) (hierarchies : List PipelineHierarchy)
    (reports : List TestReport) (deployments : List Deployment) (runners : List Runner) :
    (ciBatch projects hierarchies reports deployments runners).HoldsOnly (·.BelongsToCi) := by
  have none : ExportBatch.empty.HoldsOnly (·.BelongsToCi) := fun _ member => nomatch member
  have pipelines := none.foldl
    (fun _ hierarchy holds => holdsOnly_pushHierarchy holds (flagsOf projects hierarchy) hierarchy)
    hierarchies
  have suites : ∀ (batch : ExportBatch) (report : TestReport), batch.HoldsOnly (·.BelongsToCi) →
      (batch.pushReportParts report).HoldsOnly (·.BelongsToCi) :=
    fun _ _ holds => (holds.push .testSuites (by decide) _ _).push .testCases (by decide) _ _
  have withReports := ExportBatch.HoldsOnly.foldl suites
    (pipelines.push .testReports (by decide) (always TestReport.encode) reports) reports
  exact (withReports.push .deployments (by decide) _ _).push .runners (by decide) _ _

/-- What is fetched for pipelines is a batch of their kinds. -/
theorem holdsOnly_of_fetchCi {context : SyncContext} {projects : List ProjectSettings}
    {window : SyncWindow} {turns : Turns} {batch : ExportBatch} {errors : List SyncError}
    (held : Held (fetchCi context projects window) turns (some (batch, errors))) :
    batch.HoldsOnly (·.BelongsToCi) := by
  obtain ⟨_, _, _, _, _, held⟩ := held.of_bind_some
  obtain ⟨_, _, _, _, _, held⟩ := held.of_bind_some
  obtain ⟨_, _, _, _, _, held⟩ := held.of_bind_some
  obtain ⟨_, _, _, _, _, held⟩ := held.of_bind_some
  obtain ⟨_, _, _, _, _, held⟩ := held.of_bind_some
  cases held
  exact holdsOnly_ciBatch _ _ _ _ _

/-! ### Parts that are not disturbed -/

/-- A dialogue gives a sink the same records of a kind in any two runs whose replies differ only
about some subjects; and what else is shown of the two runs afterwards still has the same replies.
-/
def Isolated {α : Type} (subjects : List Subject) (sink : Nat) (kind : EntityKind)
    (dialogue : Sync α) : Prop :=
  ∀ ⦃turns turns' rest rest' : Turns⦄ ⦃result result' : Option α⦄,
    Held dialogue turns result → Held dialogue turns' result' →
      SameReplies (turns.apartFrom subjects ++ rest) (turns'.apartFrom subjects ++ rest') →
        turns.given sink kind = turns'.given sink kind ∧ SameReplies rest rest'

namespace Isolated

variable {α β : Type} {subjects : List Subject} {sink : Nat} {kind : EntityKind}
  {dialogue : Sync α}

theorem done (value : α) : Isolated subjects sink kind (.done value) := by
  intro turns turns' rest rest' result result' held held' same
  cases held
  cases held'
  exact ⟨rfl, same⟩

theorem bind_done (isolated : Isolated subjects sink kind dialogue) (change : α → β) :
    Isolated subjects sink kind (dialogue.bind fun value => .done (change value)) := by
  intro turns turns' rest rest' result result' held held' same
  obtain ⟨_, part, _⟩ := Held.of_bind_done change held
  obtain ⟨_, part', _⟩ := Held.of_bind_done change held'
  exact isolated part part' same

/-- Parts that do not wait for one another are isolated if each of them is. -/
theorem beside {other : Sync β} (first : Isolated subjects sink kind dialogue)
    (second : Isolated subjects sink kind other) :
    Isolated subjects sink kind (dialogue.beside other) := by
  intro turns turns' rest rest' result result' held held' same
  obtain ⟨_, _, front, back, rfl, former, latter, _⟩ := Held.of_beside held
  obtain ⟨_, _, front', back', rfl, former', latter', _⟩ := Held.of_beside held'
  rw [apartFrom_append, apartFrom_append, List.append_assoc, List.append_assoc] at same
  obtain ⟨sameFront, same⟩ := first former former' same
  obtain ⟨sameBack, same⟩ := second latter latter' same
  exact ⟨by rw [given_append, given_append, sameFront, sameBack], same⟩

/-- What is done with the value of a fetch whose replies are the same in both runs. -/
theorem bind {subject : Subject} {next : α → Sync β} (about : KeepsTo subject dialogue)
    (shown : subject ∉ subjects)
    (isolated : ∀ value, Isolated subjects sink kind (next value)) :
    Isolated subjects sink kind (dialogue.bind next) := by
  intro turns turns' rest rest' result result' held held' same
  rcases Held.of_bind held with ⟨rfl, stopped⟩ | ⟨value, front, back, rfl, former, latter⟩ <;>
    rcases Held.of_bind held' with ⟨rfl, stopped'⟩ | ⟨value', front', back', rfl, former', latter'⟩
  · rw [apartFrom_of_keepsTo about stopped, apartFrom_of_keepsTo about stopped', if_neg shown,
      if_neg shown] at same
    obtain ⟨rfl, -⟩ := stopped.eq_of_sameReplies stopped' same
    exact ⟨rfl, same.of_append⟩
  · rw [apartFrom_append, apartFrom_of_keepsTo about stopped, apartFrom_of_keepsTo about former',
      if_neg shown, if_neg shown, List.append_assoc] at same
    cases (stopped.eq_of_sameReplies former' same).2
  · rw [apartFrom_append, apartFrom_of_keepsTo about former, apartFrom_of_keepsTo about stopped',
      if_neg shown, if_neg shown, List.append_assoc] at same
    cases (former.eq_of_sameReplies stopped' same).2
  · rw [apartFrom_append, apartFrom_append, apartFrom_of_keepsTo about former,
      apartFrom_of_keepsTo about former', if_neg shown, if_neg shown, List.append_assoc,
      List.append_assoc] at same
    obtain ⟨rfl, sameValue⟩ := former.eq_of_sameReplies former' same
    cases sameValue
    obtain ⟨sameBack, same⟩ := isolated value latter latter' same.of_append
    exact ⟨by rw [given_append, given_append, sameBack], same⟩

/-- A part that sends what no reply decides is not disturbed by what the sinks answer. -/
theorem of_asked {asked : List Action} (hidden : .delivery ∈ subjects)
    (about : KeepsTo .delivery dialogue)
    (asks : ∀ turns result, Held dialogue turns result → turns.map (·.asked) = asked) :
    Isolated subjects sink kind dialogue := by
  intro turns turns' rest rest' result result' held held' same
  rw [apartFrom_of_keepsTo about held, apartFrom_of_keepsTo about held', if_pos hidden,
    if_pos hidden, List.nil_append, List.nil_append] at same
  exact ⟨by rw [given, given, asks _ _ held, asks _ _ held'], same⟩

/-- A part of which nothing is shown and that gives a sink nothing of the kind. -/
theorem of_hidden (hidden : ∀ (turns : Turns) result, Held dialogue turns result →
      turns.apartFrom subjects = [] ∧ turns.given sink kind = []) :
    Isolated subjects sink kind dialogue := by
  intro turns turns' rest rest' result result' held held' same
  rw [(hidden _ _ held).1, (hidden _ _ held').1, List.nil_append, List.nil_append] at same
  exact ⟨by rw [(hidden _ _ held).2, (hidden _ _ held').2], same⟩

end Isolated

/-! ### The parts of a batch -/

section Parts

variable {context : SyncContext} {window : SyncWindow} {subjects : List Subject} {sink : Nat}
  {kind : EntityKind}

theorem isolated_send (exporter : Exporter) (sent : EntityKind) (values : List Json)
    (hidden : .delivery ∈ subjects) :
    Isolated subjects sink kind (exporter.send sent values) :=
  .of_asked hidden (.send exporter sent values) fun _ _ held => (Exporter.asked_send held).1

theorem isolated_exportBatch (exporter : Exporter) (batch : ExportBatch)
    (hidden : .delivery ∈ subjects) :
    Isolated subjects sink kind (exporter.exportBatch batch) :=
  .of_asked hidden (.exportBatch exporter batch) fun _ _ held =>
    (Exporter.asked_exportBatch held).1

/-- With the same answers about pipelines, what belongs to them is exported the same way. -/
theorem isolated_syncCi (projects : List ProjectSettings) (hidden : .delivery ∈ subjects)
    (shown : .ci ∉ subjects) :
    Isolated subjects sink kind (syncCi context projects window) := by
  rw [syncCi]
  split
  · exact .done _
  · refine .bind (KeepsTo.fetchCi context projects window) shown fun fetched => ?_
    exact (isolated_exportBatch context.exporter fetched.1 hidden).bind_done _

/-- With the same answers about merge requests, they are exported the same way. -/
theorem isolated_syncMergeRequests (ids : List Int) (hidden : .delivery ∈ subjects)
    (shown : .mergeRequests ∉ subjects) :
    Isolated subjects sink kind (syncMergeRequests context ids window) := by
  rw [syncMergeRequests]
  split
  · exact .done _
  · refine .bind (KeepsTo.fetchMergeRequests _ ids window) shown fun outcome => ?_
    cases outcome with
    | error error => exact .done _
    | ok collected => exact (isolated_send context.exporter _ _ hidden).bind_done _

/-- What belongs to pipelines gives a sink neither projects nor merge requests, whatever the answers
about pipelines are. -/
theorem isolated_syncCi_of_hidden (projects : List ProjectSettings) (hidden : .ci ∈ subjects)
    (deliveries : .delivery ∈ subjects) (other : ¬kind.BelongsToCi) :
    Isolated subjects sink kind (syncCi context projects window) := by
  have about := KeepsTo.fetchCi context projects window
  refine .of_hidden fun turns result held => ?_
  cases ciSynced_of_held held with
  | nothing => exact ⟨rfl, rfl⟩
  | stalled _ fetched =>
    rw [apartFrom_of_keepsTo about fetched, if_pos hidden,
      given_of_keepsTo about (by decide) fetched]
    exact ⟨rfl, rfl⟩
  | @fetched fetching sending exports _ _ _ fetched sent =>
    have asked := (Exporter.asked_exportBatch sent).1
    have others : ∀ part ∈ exports, part.1 ≠ kind := fun part member same =>
      other (same ▸ holdsOnly_of_fetchCi fetched part member)
    rw [apartFrom_append, apartFrom_of_keepsTo about fetched, if_pos hidden,
      apartFrom_of_keepsTo (.exportBatch _ _) sent, if_pos deliveries,
      given_append, given_of_keepsTo about (by decide) fetched, given, asked,
      Exporter.given_batchDeliveries others]
    exact ⟨rfl, rfl⟩

/-- Merge requests give a sink nothing else, whatever the answers about them are. -/
theorem isolated_syncMergeRequests_of_hidden (ids : List Int) (hidden : .mergeRequests ∈ subjects)
    (deliveries : .delivery ∈ subjects) (other : kind ≠ .mergeRequests) :
    Isolated subjects sink kind (syncMergeRequests context ids window) := by
  have about := KeepsTo.fetchMergeRequests context.allowance ids window
  refine .of_hidden fun turns result held => ?_
  cases mergeRequestsSynced_of_held held with
  | nothing => exact ⟨rfl, rfl⟩
  | stalled _ fetched | failed _ fetched =>
    rw [apartFrom_of_keepsTo about fetched, if_pos hidden,
      given_of_keepsTo about (by decide) fetched]
    exact ⟨rfl, rfl⟩
  | fetched _ fetched sent =>
    have asked := (Exporter.asked_send sent).1
    rw [apartFrom_append, apartFrom_of_keepsTo about fetched, if_pos hidden,
      apartFrom_of_keepsTo (.send _ _ _) sent, if_pos deliveries,
      given_append, given_of_keepsTo about (by decide) fetched, given, asked,
      Exporter.given_deliveries (Ne.symm other)]
    exact ⟨rfl, rfl⟩

/-- A batch is isolated if what is exported of pipelines and of merge requests is. -/
theorem isolated_process {batch : FetchBatch} {everything : Bool}
    (hidden : .delivery ∈ subjects) (shown : .changes ∉ subjects)
    (ci : ∀ projects, Isolated subjects sink kind (syncCi context projects window))
    (mergeRequests : ∀ ids, Isolated subjects sink kind (syncMergeRequests context ids window)) :
    Isolated subjects sink kind (process context batch window everything) := by
  rw [process]
  refine .bind (KeepsTo.fetchProjectChanges _ _ window) shown fun outcome => ?_
  cases outcome with
  | error error => exact .done _
  | ok changed =>
    exact ((isolated_send context.exporter _ _ hidden).beside
      ((ci _).beside (mergeRequests _))).bind_done _

end Parts

/-- What one part of a batch is answered changes nothing that the other parts deliver. Two runs
whose replies differ only about merge requests and in what the sinks answer give every sink the same
records of every other kind. Two runs whose replies differ only about pipelines and in what the
sinks answer give every sink the same projects and merge requests. And what the sinks answer
changes nothing that they are given. -/
theorem process_isolated {context : SyncContext} {batch : FetchBatch} {window : SyncWindow}
    {everything : Bool} {turns turns' : Turns} {result result' : Option (Outcome Unit)}
    (held : Held (process context batch window everything) turns result)
    (held' : Held (process context batch window everything) turns' result') :
    (SameReplies (turns.apartFrom [.delivery, .mergeRequests])
        (turns'.apartFrom [.delivery, .mergeRequests]) →
      ∀ sink kind, kind ≠ .mergeRequests → turns.given sink kind = turns'.given sink kind) ∧
    (SameReplies (turns.apartFrom [.delivery, .ci]) (turns'.apartFrom [.delivery, .ci]) →
      ∀ sink kind, kind = .projects ∨ kind = .mergeRequests →
        turns.given sink kind = turns'.given sink kind) ∧
    (SameReplies (turns.apartFrom [.delivery]) (turns'.apartFrom [.delivery]) →
      ∀ sink kind, turns.given sink kind = turns'.given sink kind) := by
  have given_eq : ∀ subjects sink kind,
      Isolated subjects sink kind (process context batch window everything) →
        SameReplies (turns.apartFrom subjects) (turns'.apartFrom subjects) →
          turns.given sink kind = turns'.given sink kind := by
    intro subjects sink kind isolated same
    rw [← List.append_nil (turns.apartFrom subjects),
      ← List.append_nil (turns'.apartFrom subjects)] at same
    exact (isolated held held' same).1
  refine ⟨fun same sink kind other => given_eq _ sink kind ?_ same,
    fun same sink kind ofKind => given_eq _ sink kind ?_ same,
    fun same sink kind => given_eq _ sink kind ?_ same⟩
  · exact isolated_process (by decide) (by decide)
      (fun projects => isolated_syncCi projects (by decide) (by decide))
      (fun ids => isolated_syncMergeRequests_of_hidden ids (by decide) (by decide) other)
  · have other : ¬kind.BelongsToCi := fun belongs => ofKind.elim belongs.1 belongs.2
    exact isolated_process (by decide) (by decide)
      (fun projects => isolated_syncCi_of_hidden projects (by decide) (by decide) other)
      (fun ids => isolated_syncMergeRequests ids (by decide) (by decide))
  · exact isolated_process (by decide) (by decide)
      (fun projects => isolated_syncCi projects (by decide) (by decide))
      (fun ids => isolated_syncMergeRequests ids (by decide) (by decide))

namespace OneProject

def project : ProjectSettings :=
  { id := 1, fullPath := "g/app", exportFlags := .all, catchUp := ⟨false, none, none⟩ }

def changedNode : ProjectChangesNode :=
  { (default : ProjectChangesNode) with
    id := "gid://gitlab/Project/1"
    pipelines := 1
    mergeRequests := 1 }

/-- A world with one project that has no pipelines. What is answered about its merge requests and
deployments is left open, and a kind that the first sink refuses. -/
def replies (requests : MergeRequestPass → Outcome (Page ProjectMergeRequestsNode))
    (deployments : Outcome (List Deployment)) (refused : Option EntityKind) : FixedReplies
  | .query (.projectChanges ..) => .ok (Page.last [changedNode])
  | .query (.projectsPipelines ..) => .ok (Page.last [])
  | .query (.mergeRequests _ _ pass _) => requests pass
  | .query (.deployments ..) => deployments
  | .query _ => .error .network
  | .isCancelled => false
  | .send sink kind _ =>
    if sink = 0 ∧ refused = some kind then .error (.sinkUnreachable "first" kind.name) else .ok ()
  | .now => default
  | .waitUntil _ => ()

/-- The processing of the project for two sinks. -/
def processing : Sync (Outcome Unit) :=
  process ⟨⟨2⟩, 10⟩ [project] ⟨⟨0, 0⟩, ⟨60, 0⟩⟩ true

/-- The turns with fixed replies. -/
def turnsWith (requests : MergeRequestPass → Outcome (Page ProjectMergeRequestsNode))
    (deployments : Outcome (List Deployment)) (refused : Option EntityKind) : Turns :=
  processing.transcript (fun op (_ : Unit) => (replies requests deployments refused op, ())) ()

theorem held_turnsWith (requests : MergeRequestPass → Outcome (Page ProjectMergeRequestsNode))
    (deployments : Outcome (List Deployment)) (refused : Option EntityKind) :
    Held processing (turnsWith requests deployments refused)
      (processing.run
        (fun op (_ : Unit) => (replies requests deployments refused op, ())) ()).1 :=
  held_transcript _ processing ()

/-- Two runs have the same replies to what is shown of them if what differs is hidden. -/
theorem sameReplies_turnsWith
    {requests requests' : MergeRequestPass → Outcome (Page ProjectMergeRequestsNode)}
    {deployments deployments' : Outcome (List Deployment)} {refused refused' : Option EntityKind}
    {subjects : List Subject} (hidden : .delivery ∈ subjects)
    (ofRequests : requests = requests' ∨ .mergeRequests ∈ subjects)
    (ofDeployments : deployments = deployments' ∨ .ci ∈ subjects) :
    SameReplies ((turnsWith requests deployments refused).apartFrom subjects)
      ((turnsWith requests' deployments' refused').apartFrom subjects) := by
  refine .of_fixed (fun turn member => reply_of_mem_transcript (List.mem_filter.mp member).1)
    (fun turn member => reply_of_mem_transcript (List.mem_filter.mp member).1)
    fun turn member => ?_
  have shown := (List.mem_filter.mp member).2
  rw [decide_eq_true_eq] at shown
  cases asks : turn.asked with
  | query asked =>
    rw [asks] at shown
    cases asked with
    | mergeRequests =>
      rcases ofRequests with rfl | isHidden
      · rfl
      · exact absurd isHidden shown
    | deployments =>
      rcases ofDeployments with rfl | isHidden
      · rfl
      · exact absurd isHidden shown
    | _ => rfl
  | send =>
    rw [asks] at shown
    exact absurd hidden shown
  | _ => rfl

/-- Deployments are delivered although merge requests cannot be fetched, projects although
deployments cannot be fetched, and deployments to one sink although the other one refuses them. -/
theorem deliveries_isolated :
    let calm := turnsWith (fun _ => .ok (Page.last [])) (.ok [default]) none
    (turnsWith (fun _ => .error .network) (.ok [default]) none).given 1 .deployments =
        calm.given 1 .deployments ∧
      (turnsWith (fun _ => .ok (Page.last [])) (.error .network) none).given 1 .projects =
        calm.given 1 .projects ∧
      (turnsWith (fun _ => .ok (Page.last [])) (.ok [default]) (some .deployments)).given 1
          .deployments =
        calm.given 1 .deployments ∧
      (calm.given 1 .deployments).length = 1 ∧ (calm.given 1 .projects).length = 1 := by
  have held := held_turnsWith
  refine ⟨(process_isolated (held _ _ _) (held _ _ _)).1 ?_ 1 .deployments (by decide),
    (process_isolated (held _ _ _) (held _ _ _)).2.1 ?_ 1 .projects (by decide),
    (process_isolated (held _ _ _) (held _ _ _)).2.2 ?_ 1 .deployments, rfl, rfl⟩
  · exact sameReplies_turnsWith (by decide) (.inr (by decide)) (.inl rfl)
  · exact sameReplies_turnsWith (by decide) (.inl rfl) (.inr (by decide))
  · exact sameReplies_turnsWith (by decide) (.inl rfl) (.inl rfl)

end OneProject

end CiTelemetry
