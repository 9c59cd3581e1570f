/-
This file proves that a batch asks for and exports nothing that is not wanted.
Details and records of logs are those of hierarchies of which they are wanted,
deployments are asked for once for each report of a project of which they are
wanted, and merge requests of just the projects that were reported.
-/

import CiTelemetry.Proofs.WantedRecords

namespace CiTelemetry

open Dialogue

variable {turns : Turns} {batch : FetchBatch}

/-! ### Merge requests -/

section MergeRequests

variable {allowance : Nat} {ids : List Int} {window : SyncWindow}

/-- What a fetch goes on from is held at the beginning. -/
theorem exists_held_front {α β : Type} {fetch : Fetch α} {next : α → Fetch β}
    {result : Option (Outcome β)} (held : Held (fetch >>= next).run turns result) :
    ∃ front before, front <+: turns ∧ Held fetch.run front before ∧
      (result ≠ none → before ≠ none) := by
  rcases Attempt.held_bind held with
    ⟨rfl, stopped⟩ | ⟨error, _, failed⟩ | ⟨value, front, back, rfl, former, _⟩
  · exact ⟨turns, none, List.prefix_rfl, stopped, fun isSome => absurd rfl isSome⟩
  · exact ⟨turns, some (.error error), List.prefix_rfl, failed, fun _ => Option.some_ne_none _⟩
  · exact ⟨front, some (.ok value), List.prefix_append .., former, fun _ => Option.some_ne_none _⟩

/-- A page of the merge requests of several projects is asked for with just these ids. -/
def Action.CarriesIds (ids : List Int) (window : SyncWindow) : Action → Prop
  | query (.mergeRequests asked within _ _) => asked = ids ∧ within = window
  | _ => True

/-- The fetch of merge requests carries its ids through all of its passes. -/
theorem carriesIds_fetchMergeRequests (allowance : Nat) (ids : List Int) (window : SyncWindow) :
    (fetchMergeRequests allowance ids window).run.Asks (·.CarriesIds ids window) := by
  have ofPass : ∀ pass,
      (fetchMergeRequestPass allowance ids window pass).run.Asks (·.CarriesIds ids window) :=
    fun pass => Asks.flattenNested (fun _ _ => Asks.query trivial)
      (fun _ => Asks.query ⟨rfl, rfl⟩) _ _ _
  rw [fetchMergeRequests]
  split
  · trivial
  · refine Attempt.asks_bind (ofPass .core) fun core => ?_
    refine Attempt.asks_bind (ofPass .extra) fun extra => ?_
    exact Attempt.asks_bind (ofPass .participants) fun participants => trivial

/-- Only questions about merge requests carry ids of this kind. -/
theorem carriesIds_of_subject {asked : Action} (other : asked.subject ≠ .mergeRequests) :
    asked.CarriesIds ids window := by
  cases asked with
  | query asked =>
    cases asked with
    | mergeRequests => exact absurd rfl other
    | _ => trivial
  | _ => trivial

/-- A fetch of merge requests that ends begins with the first page of the core pass. -/
theorem first_of_fetchMergeRequests (isSome : ids ≠ [])
    {outcome : Outcome (Collected MergeRequest)}
    (held : Held (fetchMergeRequests allowance ids window).run turns (some outcome)) :
    .query (.mergeRequests ids window .core none) ∈ turns.map (·.asked) := by
  rw [fetchMergeRequests, if_neg (by rwa [List.isEmpty_iff])] at held
  obtain ⟨core, before, isCore, coreHeld, ended⟩ := exists_held_front held
  have coreEnded := ended (Option.some_ne_none _)
  rw [fetchMergeRequestPass] at coreHeld
  cases allowance with
  | zero =>
    -- Without an allowance nothing is asked, but then the fetch does not end either.
    cases coreHeld
    exact absurd rfl coreEnded
  | succ allowance =>
    obtain ⟨page, _, isPage, pageHeld, _⟩ := exists_held_front coreHeld
    obtain ⟨call, _, isCall, callHeld, _⟩ := exists_held_front pageHeld
    obtain ⟨reply, rfl, _⟩ := Held.of_question callHeld
    have inTurns := (isCall.trans (isPage.trans isCore)).subset List.mem_cons_self
    exact List.mem_map_of_mem inTurns

/-- The calls about merge requests carry just these ids. There is the first one of them where there
are ids, and none otherwise. -/
structure RequestsWanted (ids : List Int) (window : SyncWindow) (turns : Turns) : Prop where
  asked : ∀ turn ∈ turns, turn.asked.CarriesIds ids window
  first : ids ≠ [] → .query (.mergeRequests ids window .core none) ∈ turns.map (·.asked)
  absent : ids = [] → ∀ turn ∈ turns, turn.asked.subject ≠ .mergeRequests

theorem wanted_of_mergeRequestsSynced {context : SyncContext} {outcome : Outcome Unit}
    (synced : MergeRequestsSynced context ids window turns (some outcome)) :
    RequestsWanted ids window turns := by
  have carries := carriesIds_fetchMergeRequests context.allowance ids window
  generalize same : some outcome = result at synced
  cases synced with
  | nothing without =>
    exact ⟨fun _ member => (nomatch member), fun isSome => absurd without isSome,
      fun _ _ member => nomatch member⟩
  | stalled => cases same
  | failed isSome fetched =>
    exact ⟨carries.asked fetched, fun _ => first_of_fetchMergeRequests isSome fetched,
      fun none => absurd none isSome⟩
  | @fetched fetching sending _ _ isSome fetched sent =>
    refine ⟨fun turn member => ?_, fun _ => ?_, fun none => absurd none isSome⟩
    · rcases List.mem_append.mp member with inFetching | inSending
      · exact carries.asked fetched turn inFetching
      · have isDelivery := (KeepsTo.send context.exporter _ _).asked sent turn inSending
        exact carriesIds_of_subject (by rw [isDelivery]; decide)
    · rw [List.map_append]
      exact List.mem_append_left _ (first_of_fetchMergeRequests isSome fetched)

end MergeRequests

/-! ### What stands beside -/

/-- Turns that ask for no details and send no records of logs. -/
structure WithoutDetails (turns : Turns) : Prop where
  details : turns.details = []
  records : ∀ sink kind records, kind ∈ EntityKind.ofLogs →
    .send sink kind records ∉ turns.map (·.asked)

namespace WithoutDetails

theorem append {turns' : Turns} (former : WithoutDetails turns) (latter : WithoutDetails turns') :
    WithoutDetails (turns ++ turns') where
  details := by rw [Turns.details_append, former.details, latter.details, List.append_nil]
  records sink kind records ofLogs sent := by
    rw [List.map_append, List.mem_append] at sent
    exact sent.elim (former.records sink kind records ofLogs)
      (latter.records sink kind records ofLogs)

theorem of_keepsTo {α : Type} {dialogue : Sync α} {result : Option α} {subject : Subject}
    (about : KeepsTo subject dialogue) (notCi : subject ≠ .ci) (notDelivery : subject ≠ .delivery)
    (held : Held dialogue turns result) : WithoutDetails turns where
  details := Turns.details_of_keepsTo about notCi held
  records _ _ _ _ := not_sent_of_keepsTo about notDelivery held

/-- Only records of the kind are sent. -/
theorem of_send {exporter : Exporter} {kind : EntityKind} {values : List Json}
    {result : Option (Outcome Unit)} (others : kind ∉ EntityKind.ofLogs)
    (held : Held (exporter.send kind values) turns result) : WithoutDetails turns where
  details := Turns.details_of_keepsTo (.send exporter kind values) (by decide) held
  records sink other records ofLogs sent := by
    rw [(Exporter.asked_send held).1, Exporter.deliveries] at sent
    split at sent
    · cases sent
    · obtain ⟨_, _, same⟩ := List.mem_map.mp sent
      cases same
      exact others ofLogs

/-- Merge requests have no details, and their records are none of logs. -/
theorem of_mergeRequestsSynced {context : SyncContext} {ids : List Int} {window : SyncWindow}
    {result : Option (Outcome Unit)}
    (synced : MergeRequestsSynced context ids window turns result) : WithoutDetails turns := by
  have about := KeepsTo.fetchMergeRequests context.allowance ids window
  cases synced with
  | nothing => exact ⟨rfl, fun _ _ _ _ => List.not_mem_nil⟩
  | stalled _ fetched => exact .of_keepsTo about (by decide) (by decide) fetched
  | failed _ fetched => exact .of_keepsTo about (by decide) (by decide) fetched
  | fetched _ fetched sent =>
    exact (WithoutDetails.of_keepsTo about (by decide) (by decide) fetched).append
      (.of_send (by decide) sent)

end WithoutDetails

/-- What stands beside the export of pipelines changes nothing of what was wanted there. -/
theorem CiWanted.beside {wanted : PipelineHierarchy → ExportFlags} {deployed : List Int}
    {window : SyncWindow} {hierarchies : List PipelineHierarchy} {before after : Turns}
    (ci : CiWanted wanted deployed window hierarchies turns) (former : WithoutDetails before)
    (latter : WithoutDetails after) :
    CiWanted wanted deployed window hierarchies (before ++ (turns ++ after)) where
  fresh := ci.fresh
  details := by
    rw [Turns.details_append, Turns.details_append, former.details, latter.details,
      List.nil_append, List.append_nil]
    exact ci.details
  records sink kind records ofLogs sent record member := by
    simp only [List.map_append, List.mem_append] at sent
    have inside := (sent.resolve_left (former.records sink kind records ofLogs)).resolve_right
      (latter.records sink kind records ofLogs)
    obtain ⟨hierarchy, isHierarchy, isWanted, logs, fetched, there⟩ :=
      ci.records sink kind records ofLogs inside record member
    refine ⟨hierarchy, isHierarchy, isWanted, logs, fun log isLog => ?_, there⟩
    exact (fetched log isLog).mono
      (List.subset_append_of_subset_right _ (List.subset_append_left _ _))

/-- Nor does what comes before the export of merge requests. -/
theorem RequestsWanted.after {ids : List Int} {window : SyncWindow} {before : Turns}
    (requests : RequestsWanted ids window turns)
    (others : ∀ turn ∈ before, turn.asked.subject ≠ .mergeRequests) :
    RequestsWanted ids window (before ++ turns) where
  asked turn member :=
    (List.mem_append.mp member).elim (fun inside => carriesIds_of_subject (others turn inside))
      (requests.asked turn)
  first isSome := by
    rw [List.map_append]
    exact List.mem_append_right _ (requests.first isSome)
  absent without turn member :=
    (List.mem_append.mp member).elim (others turn) (requests.absent without turn)

theorem subject_of_ciSynced {context : SyncContext} {window : SyncWindow}
    {projects : List ProjectSettings} {result : Option (Outcome Unit)}
    (synced : CiSynced context projects window turns result) :
    ∀ turn ∈ turns, turn.asked.subject = .ci ∨ turn.asked.subject = .delivery := by
  have about := KeepsTo.fetchCi context projects window
  cases synced with
  | nothing => exact fun _ member => nomatch member
  | stalled _ fetched => exact fun turn member => .inl (about.asked fetched turn member)
  | fetched _ fetched sent =>
    intro turn member
    exact (List.mem_append.mp member).imp (about.asked fetched turn)
      ((KeepsTo.exportBatch context.exporter _).asked sent turn)

/-! ### A batch -/

/-- What was told in a run: the changes that were reported, and the hierarchies that were fetched
for the projects with changed pipelines. A fetch that was given up told nothing. -/
structure Told (context : SyncContext) (batch : FetchBatch) (window : SyncWindow) (turns : Turns)
    (changes : List ProjectChanges) (hierarchies : List PipelineHierarchy) : Prop where
  reported : ∃ part outcome, part <+: turns ∧
    Held (fetchProjectChanges context.allowance (batch.map (·.id)) window).run part
      (some outcome) ∧ changes = (settle outcome).1
  fetched : ∃ part outcome, part <:+: turns ∧
    Held (fetchPipelineHierarchies context.allowance
      (reportedProjects batch changes (·.pipelines) fun _ => true) window).run part
        (some outcome) ∧ hierarchies = (settle outcome).1

/-- A run asks for and sends just what is wanted of what it was told. -/
structure OnlyWanted (batch : FetchBatch) (window : SyncWindow) (changes : List ProjectChanges)
    (hierarchies : List PipelineHierarchy) (turns : Turns) : Prop where
  ci : CiWanted (wantedOf batch changes)
    (reportedProjects batch changes (·.pipelines) (·.deployments)) window hierarchies turns
  requests : RequestsWanted (reportedProjects batch changes (·.mergeRequests) (·.mergeRequests))
    window turns

section Batch

variable {context : SyncContext} {window : SyncWindow} {everything : Bool}

/-- A batch whose changes could not be fetched asks for nothing else. -/
theorem onlyWanted_of_failed {error : SyncError}
    (asked : Held (fetchProjectChanges context.allowance (batch.map (·.id)) window).run turns
      (some (.error error))) :
    Told context batch window turns [] [] ∧ OnlyWanted batch window [] [] turns := by
  have about := KeepsTo.fetchProjectChanges context.allowance (batch.map (·.id)) window
  have others : ∀ turn ∈ turns, turn.asked.subject ≠ .mergeRequests := fun turn member same =>
    nomatch (about.asked asked turn member).symm.trans same
  have nothingOfCi : CiWanted (wantedOf batch []) [] window [] [] :=
    ⟨fun _ member => (nomatch member), .nil, fun _ _ _ _ sent => nomatch sent⟩
  have nothingOfRequests : RequestsWanted [] window [] :=
    ⟨fun _ member => (nomatch member), fun isSome => absurd rfl isSome,
      fun _ _ member => nomatch member⟩
  refine ⟨⟨⟨turns, .error error, List.prefix_rfl, asked, rfl⟩,
    ⟨[], .ok .empty, List.nil_infix, .done _, rfl⟩⟩, ?_, ?_⟩
  · have former : WithoutDetails turns := .of_keepsTo about (by decide) (by decide) asked
    have latter : WithoutDetails [] := ⟨rfl, fun _ _ _ _ => List.not_mem_nil⟩
    have beside := nothingOfCi.beside former latter
    rwa [List.append_nil, List.append_nil] at beside
  · have after := nothingOfRequests.after others
    rwa [List.append_nil] at after

/-- A batch that was processed to its end asked for and sent just what was wanted. -/
theorem onlyWanted_of_processed {outcome : Outcome Unit}
    (processed : Processed context batch window everything turns (some outcome))
    (goesOn : turns.Uncancelled) :
    ∃ changes hierarchies, Told context batch window turns changes hierarchies ∧
      OnlyWanted batch window changes hierarchies turns := by
  have about := KeepsTo.fetchProjectChanges context.allowance (batch.map (·.id)) window
  generalize same : some outcome = result at processed
  cases processed with
  | stalled => cases same
  | failed asked => exact ⟨[], [], onlyWanted_of_failed asked⟩
  | @parted asking exporting aboutCi aboutRequests changes errors exported synced merged asked
      projects ci mergeRequests =>
    have deliveries := KeepsTo.send context.exporter .projects
    cases synced with
    | none => cases exported <;> cases same
    | some synced =>
      cases merged with
      | none => cases exported <;> cases same
      | some merged =>
        simp only [Turns.uncancelled_append] at goesOn
        obtain ⟨_, _, goesCi, _⟩ := goesOn
        obtain ⟨part, fetched, isPart, hierarchies, ofCi⟩ := wanted_of_ciSynced ci goesCi
        have ofRequests := wanted_of_mergeRequestsSynced mergeRequests
        rw [ids_projectsWithPipelines] at hierarchies
        rw [deployedProjects_eq, funext (flagsOf_eq batch changes)] at ofCi
        rw [projectsWithMergeRequests_eq] at ofRequests
        refine ⟨changes, (settle fetched).1, ⟨⟨asking, _, List.prefix_append .., asked, rfl⟩,
          ⟨part, fetched, ?_, hierarchies, rfl⟩⟩, ⟨?_, ?_⟩⟩
        · rw [← List.append_assoc]
          exact (isPart.isInfix.trans (List.prefix_append ..).isInfix).trans
            (List.suffix_append ..).isInfix
        · -- Changes and projects come before the export of pipelines, merge requests after it.
          rw [← List.append_assoc]
          refine ofCi.beside (.append ?_ (.of_send (by decide) projects))
            (.of_mergeRequestsSynced mergeRequests)
          exact .of_keepsTo about (by decide) (by decide) asked
        · rw [← List.append_assoc, ← List.append_assoc]
          refine ofRequests.after fun turn member same => ?_
          rw [List.mem_append, List.mem_append] at member
          rcases member with (inAsking | inExporting) | inCi
          · exact nomatch (about.asked asked turn inAsking).symm.trans same
          · exact nomatch ((deliveries _).asked projects turn inExporting).symm.trans same
          · rcases subject_of_ciSynced ci turn inCi with isCi | isDelivery
            · exact nomatch isCi.symm.trans same
            · exact nomatch isDelivery.symm.trans same

/-- A batch that is not cancelled ends, unless its run is as heavy as the allowance, and has then
asked for and exported just what is wanted. Of the hierarchies that were fetched in the run, it
asked for one log for each job that has started, where logs are wanted, for one report for each
pipeline that has finished, where reports are wanted, and for each runner once. It asked for the
deployments of the projects of which they are wanted, once for each report that pipelines of the
project changed, and for the merge requests of just the projects of which they are wanted and were
reported to have changed. Every section, metric and span that was sent is of a hierarchy of which it
is wanted. What is wanted of a hierarchy is configured for the project of its root, and is
everything if that project was not asked for. -/
theorem process_onlyWanted {result : Option (Outcome Unit)}
    (held : Held (process context batch window everything) turns result)
    (goesOn : turns.Uncancelled) :
    (result = none → context.allowance ≤ turns.weight) ∧
      ∀ outcome, result = some outcome → ∃ changes hierarchies,
        Told context batch window turns changes hierarchies ∧
          OnlyWanted batch window changes hierarchies turns := by
  refine ⟨fun stopped => endures_process batch everything (stopped ▸ held), fun outcome same => ?_⟩
  rw [same] at held
  exact onlyWanted_of_processed (processed_of_held held) goesOn

end Batch

namespace MixedFlags

open OneProject PipelineCoverage

/-- Of the first project nothing is wanted but sections. -/
def sectionsOnly : ProjectSettings :=
  { project with exportFlags := ⟨true, false, false, false, false, false⟩ }

/-- Of the second project everything is wanted but what is made of logs. -/
def withoutLogs : ProjectSettings :=
  { project with id := 2, exportFlags := ⟨false, true, false, false, true, true⟩ }

def window : SyncWindow :=
  ⟨⟨0, 0⟩, ⟨60, 0⟩⟩

/-- A job that was started, on one and the same runner. -/
def jobNode (id : String) : JobNode :=
  { (default : JobNode) with
    id := some id
    kind := some "BUILD"
    startedAt := some ⟨0, 0⟩
    runner := some "gid://gitlab/Ci::Runner/5" }

/-- A project with a finished pipeline of one job. -/
def listedNode (id pipeline job : String) : ProjectPipelinesNode :=
  let finished := { pipelineNode pipeline "1" none [jobNode job] with finishedAt := some ⟨60, 0⟩ }
  ⟨id, "g/app", some ⟨[some finished], ⟨none, false⟩⟩⟩

/-- A world in which these projects are reported and these pipelines are listed. -/
def replies (reported : List String) (listed : List ProjectPipelinesNode) : FixedReplies
  | .query (.projectChanges ..) => .ok (Page.last (reported.map ({ changedNode with id := · })))
  | .query (.projectsPipelines ..) => .ok (Page.last listed)
  | .query (.mergeRequests ..) => .ok (Page.last [])
  | .query (.jobLog ..) => .ok (Utf8.encode "section_start:10:compile\r\n")
  | .query (.deployments ..) => .ok []
  | op => FixedReplies.nothing op

/-- The processing of some projects for one sink. -/
def processing (batch : FetchBatch) : Sync (Outcome Unit) :=
  process ⟨⟨1⟩, 10⟩ batch window false

section Turns

variable {batch : FetchBatch} {reported : List String} {listed : List ProjectPipelinesNode}

def turnsOf (batch : FetchBatch) (reported : List String) (listed : List ProjectPipelinesNode) :
    Turns :=
  (processing batch).transcript (fun op (_ : Unit) => (replies reported listed op, ())) ()

theorem held_turnsOf :
    Held (processing batch) (turnsOf batch reported listed)
      ((processing batch).run (fun op (_ : Unit) => (replies reported listed op, ())) ()).1 :=
  held_transcript _ (processing batch) ()

theorem fixed_turnsOf {turn : Turn Action Action.Reply}
    (member : turn ∈ turnsOf batch reported listed) :
    turn.reply = replies reported listed turn.asked :=
  reply_of_mem_transcript member

theorem uncancelled_turnsOf : (turnsOf batch reported listed).Uncancelled := by
  rintro ⟨asked, reply⟩ member
  have fixed : reply = replies reported listed asked := fixed_turnsOf member
  subst fixed
  clear member
  refine ⟨fun same => ?_, ?_⟩
  · cases asked <;> cases same
  · cases asked with
    | query asked => cases asked <;> rfl
    | _ => rfl

/-- What a fetch brings in this world. -/
def brought {α : Type} (reported : List String) (listed : List ProjectPipelinesNode)
    (fetch : Fetch (Collected α)) : List α :=
  ((fetch.run.value? (replies reported listed)).map fun outcome => (settle outcome).1).getD []

theorem eq_brought {α : Type} {fetch : Fetch (Collected α)} {part : Turns}
    {outcome : Outcome (Collected α)} (held : Held fetch.run part (some outcome))
    (inside : part ⊆ turnsOf batch reported listed) :
    (settle outcome).1 = brought reported listed fetch := by
  rw [brought, value?_of_held held fun turn member => fixed_turnsOf (inside member)]
  rfl

end Turns

/-- Two projects that are both reported. -/
def mixed : FetchBatch :=
  [sectionsOnly, withoutLogs]

def bothReported : List String :=
  ["gid://gitlab/Project/1", "gid://gitlab/Project/2"]

def bothListed : List ProjectPipelinesNode :=
  [listedNode "gid://gitlab/Project/1" "gid://gitlab/Ci::Pipeline/100" "gid://gitlab/Ci::Build/11",
    listedNode "gid://gitlab/Project/2" "gid://gitlab/Ci::Pipeline/200" "gid://gitlab/Ci::Build/21"]

def mixedTurns : Turns :=
  turnsOf mixed bothReported bothListed

/-- None of the walks over pages stalls. -/
theorem ended_mixedTurns :
    ∃ outcome, ((processing mixed).run
      (fun op (_ : Unit) => (replies bothReported bothListed op, ())) ()).1 = some outcome := by
  rw [← Option.isSome_iff_exists, Option.isSome_iff_ne_none]
  intro isNone
  obtain ⟨part, isInfix, stalled⟩ := stalled_of_process (isNone ▸ held_turnsOf)
  have stops : ∀ {α : Type} {dialogue : Sync α}, Held dialogue part none →
      (dialogue.value? (replies bothReported bothListed)).isSome = true → False := by
    intro α dialogue held ends
    rw [value?_of_held held fun turn member => fixed_turnsOf (isInfix.subset member)] at ends
    cases ends
  rcases stalled with asked | ⟨ids, asked⟩ | ⟨ids, asked⟩
  · exact stops asked (by decide +kernel)
  · exact stops asked (by cases ids <;> rfl)
  · exact stops asked (by cases ids <;> rfl)

/-- The log of the first project's job and the report of the second one's pipeline are asked for,
with the deployments and merge requests of the second project. -/
theorem mixedTurns_onlyWanted :
    mixedTurns.details.Perm [.jobLog 1 11, .testReport 2 200, .deployments 2 window, .runner 5] ∧
      RequestsWanted [2] window mixedTurns := by
  obtain ⟨outcome, ended⟩ := ended_mixedTurns
  obtain ⟨changes, hierarchies, told, wanted⟩ :=
    (process_onlyWanted held_turnsOf uncancelled_turnsOf).2 outcome ended
  obtain ⟨part, _, isPrefix, reported, rfl⟩ := told.reported
  rw [eq_brought reported isPrefix.subset] at told wanted
  obtain ⟨part, _, isInfix, fetched, rfl⟩ := told.fetched
  rw [eq_brought fetched isInfix.subset] at wanted
  have ids : reportedProjects mixed
      (brought bothReported bothListed (fetchProjectChanges 10 (mixed.map (·.id)) window))
        (·.mergeRequests) (·.mergeRequests) = [2] := by decide +kernel
  exact ⟨wanted.ci.details.trans (.of_eq (by decide +kernel)), ids ▸ wanted.requests⟩

/-- A project that is reported twice. -/
def doubledTurns : Turns :=
  turnsOf [project] ["gid://gitlab/Project/1", "gid://gitlab/Project/1"] []

/-- Its deployments are asked for twice, so there is not one call for each project of any list. -/
theorem doubledTurns_ask_twice :
    Held (processing [project]) doubledTurns (some (.ok ())) ∧ doubledTurns.Uncancelled ∧
      doubledTurns.details = [.deployments 1 window, .deployments 1 window] ∧
        ∀ ids : List Int, ids.Nodup →
          ¬doubledTurns.details.Perm (ids.map (.deployments · window)) := by
  have twice : doubledTurns.details = [.deployments 1 window, .deployments 1 window] := by
    decide +kernel
  refine ⟨held_turnsOf, uncancelled_turnsOf, twice, fun ids distinct same => ?_⟩
  have injective : Function.Injective (Detail.deployments · window) := fun id other same => by
    cases same
    rfl
  rw [twice] at same
  exact absurd (same.nodup_iff.mpr (distinct.map injective)) (by decide)

end MixedFlags

end CiTelemetry
