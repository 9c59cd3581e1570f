/-
This file tells what is wanted of the pipelines of a batch, and that just this is
fetched and exported. What is wanted of a hierarchy is configured for the project
of its root. The fetches ask for exactly the details that are wanted; and a batch
is made of pushes, of which those with sections, samples or spans are there only
for hierarchies of which these are wanted.
-/

import CiTelemetry.Proofs.DetailCalls
import CiTelemetry.Proofs.GroupedExports

namespace CiTelemetry

open Dialogue

variable {turns : Turns} {batch : FetchBatch} {changes : List ProjectChanges}

/-! ### What is wanted -/

/-- The projects of a batch that were reported to have changed in something that is wanted of them,
report after report. -/
def reportedProjects (batch : FetchBatch) (changes : List ProjectChanges)
    (count : ProjectChanges → Int) (wanted : ExportFlags → Bool) : List Int :=
  (changes.filter fun change => 0 < count change &&
    (settingsOf? batch change.project.id).any fun settings => wanted settings.exportFlags).map
      (·.project.id)

/-- What is wanted of a hierarchy: what the batch says about the project of its root, if pipelines
of that project were asked for, and everything otherwise. -/
def wantedOf (batch : FetchBatch) (changes : List ProjectChanges) (hierarchy : PipelineHierarchy) :
    ExportFlags :=
  let id := hierarchy.rootPipeline.projectId
  if id ∈ reportedProjects batch changes (·.pipelines) fun _ => true then
    ((settingsOf? batch id).map (·.exportFlags)).getD .all
  else .all

theorem id_of_settingsOf? {id : Int} {settings : ProjectSettings}
    (found : settingsOf? batch id = some settings) : settings.id = id :=
  beq_iff_eq.mp (List.find?_some (p := fun known : ProjectSettings => known.id == id) found)

/-- The projects that reports lead to, if something is wanted of them. -/
theorem map_id_reported (batch : FetchBatch) (changes : List ProjectChanges)
    (count : ProjectChanges → Int) (wanted : ExportFlags → Bool) :
    (((changes.filter (0 < count ·)).filterMap fun change =>
      settingsOf? batch change.project.id).filter fun settings =>
        wanted settings.exportFlags).map (·.id) =
      reportedProjects batch changes count wanted := by
  rw [reportedProjects]
  induction changes with
  | nil => rfl
  | cons change rest inductionHypothesis =>
    rw [List.filter_cons, List.filter_cons]
    cases reported : decide (0 < count change) with
    | false => simpa using inductionHypothesis
    | true =>
      cases found : settingsOf? batch change.project.id with
      | none => simpa [found] using inductionHypothesis
      | some settings =>
        have same := id_of_settingsOf? found
        cases isWanted : wanted settings.exportFlags with
        | false => simpa [found, isWanted] using inductionHypothesis
        | true => simpa [found, isWanted, same] using inductionHypothesis

theorem ids_projectsWithPipelines (batch : FetchBatch) (changes : List ProjectChanges) :
    (projectsWithPipelines batch changes).map (·.id) =
      reportedProjects batch changes (·.pipelines) fun _ => true := by
  rw [← map_id_reported, List.filter_true, projectsWithPipelines]

theorem deployedProjects_eq (batch : FetchBatch) (changes : List ProjectChanges) :
    deployedProjects (projectsWithPipelines batch changes) =
      reportedProjects batch changes (·.pipelines) (·.deployments) :=
  map_id_reported batch changes (·.pipelines) (·.deployments)

theorem projectsWithMergeRequests_eq (batch : FetchBatch) (changes : List ProjectChanges) :
    projectsWithMergeRequests batch changes =
      reportedProjects batch changes (·.mergeRequests) (·.mergeRequests) :=
  map_id_reported batch changes (·.mergeRequests) (·.mergeRequests)

/-- What is looked up among the projects that were asked for is what the batch says. -/
theorem flagsOf_eq (batch : FetchBatch) (changes : List ProjectChanges)
    (hierarchy : PipelineHierarchy) :
    flagsOf (projectsWithPipelines batch changes) hierarchy = wantedOf batch changes hierarchy := by
  rw [flagsOf, wantedOf, ← ids_projectsWithPipelines]
  generalize hierarchy.rootPipeline.projectId = id
  cases found : settingsOf? (projectsWithPipelines batch changes) id with
  | none =>
    have unknown : id ∉ (projectsWithPipelines batch changes).map (·.id) := by
      intro member
      obtain ⟨settings, inside, same⟩ := List.mem_map.mp member
      have other := List.find?_eq_none.mp found settings (List.mem_reverse.mpr inside)
      exact other (beq_iff_eq.mpr same)
    rw [if_neg unknown]
  | some settings =>
    have inside : settings ∈ projectsWithPipelines batch changes :=
      List.mem_reverse.mp (List.mem_of_find?_eq_some found)
    have same := id_of_settingsOf? found
    rw [if_pos (List.mem_map.mpr ⟨settings, inside, same⟩)]
    -- All that is found under the id there is what the batch has under it.
    obtain ⟨change, _, looked⟩ := List.mem_filterMap.mp inside
    have sameProject := id_of_settingsOf? looked
    rw [← sameProject, same] at looked
    rw [looked]
    rfl

/-! ### The details that are wanted -/

/-- A log for each job that has started, in every hierarchy of which logs are wanted. -/
def wantedLogs (wanted : PipelineHierarchy → ExportFlags) (hierarchies : List PipelineHierarchy) :
    List Detail :=
  hierarchies.flatMap fun hierarchy =>
    if (wanted hierarchy).needsLogs then
      ((hierarchy.entries.flatMap (·.jobs)).filter (·.startedAt.isSome)).map fun job =>
        .jobLog job.projectId job.id
    else []

/-- A report for each pipeline that has finished, in every hierarchy of which reports are wanted. -/
def wantedReports (wanted : PipelineHierarchy → ExportFlags)
    (hierarchies : List PipelineHierarchy) : List Detail :=
  hierarchies.flatMap fun hierarchy =>
    if (wanted hierarchy).testReports then
      ((hierarchy.entries.map (·.pipeline)).filter (·.finishedAt.isSome)).map fun pipeline =>
        .testReport pipeline.projectId pipeline.id
    else []

/-- Each runner of a job once. -/
def wantedRunners (hierarchies : List PipelineHierarchy) : List Detail :=
  (hierarchies.flatMap fun hierarchy => hierarchy.entries.flatMap fun entry =>
    entry.jobs.filterMap (·.runnerId)).eraseDups.map .runner

section Details

variable {projects : List ProjectSettings} {hierarchies : List PipelineHierarchy}

theorem flatMap_filter_eq {α β : Type} (items : List α) (test : α → Bool) (content : α → List β) :
    (items.filter test).flatMap content =
      items.flatMap fun item => if test item then content item else [] := by
  induction items with
  | nil => rfl
  | cons item rest inductionHypothesis =>
    rw [List.filter_cons, List.flatMap_cons, ← inductionHypothesis]
    cases test item <;> rfl

theorem loggedJobs_perm (trees : ∀ hierarchy ∈ hierarchies, hierarchy.IsTree) :
    (((loggedJobs projects hierarchies).filter (·.startedAt.isSome)).map fun job =>
      Detail.jobLog job.projectId job.id).Perm (wantedLogs (flagsOf projects) hierarchies) := by
  rw [loggedJobs, flatMap_filter_eq, List.filter_flatMap, List.map_flatMap, wantedLogs]
  refine List.Perm.flatMap_left _ fun hierarchy member => ?_
  split
  · exact (((trees hierarchy member).depthFirst_perm.flatMap_right _).filter _).map _
  · exact .refl _

theorem reportedPipelines_perm (trees : ∀ hierarchy ∈ hierarchies, hierarchy.IsTree) :
    (((reportedPipelines projects hierarchies).filter (·.finishedAt.isSome)).map fun pipeline =>
      Detail.testReport pipeline.projectId pipeline.id).Perm
        (wantedReports (flagsOf projects) hierarchies) := by
  rw [reportedPipelines, flatMap_filter_eq, List.filter_flatMap, List.map_flatMap, wantedReports]
  refine List.Perm.flatMap_left _ fun hierarchy member => ?_
  split
  · exact (((trees hierarchy member).depthFirst_perm.map _).filter _).map _
  · exact .refl _

theorem runnersOf_perm (trees : ∀ hierarchy ∈ hierarchies, hierarchy.IsTree) :
    ((runnersOf hierarchies).eraseDups.map Detail.runner).Perm (wantedRunners hierarchies) := by
  have same : (runnersOf hierarchies).Perm (hierarchies.flatMap fun hierarchy =>
      hierarchy.entries.flatMap fun entry => entry.jobs.filterMap (·.runnerId)) :=
    List.Perm.flatMap_left _ fun hierarchy member =>
      (trees hierarchy member).depthFirst_perm.flatMap_right _
  refine List.Perm.map _ ?_
  rw [List.perm_ext_iff_of_nodup (nodup_eraseDups _) (nodup_eraseDups _)]
  intro id
  rw [List.mem_eraseDups, List.mem_eraseDups, same.mem_iff]

end Details

/-! ### The pushes of a batch -/

namespace Push

/-- A batch with pushes added. -/
def addAll (known : ExportBatch) (pushes : List Push) : ExportBatch :=
  pushes.foldl (fun known push => known.push push.kind push.encode? push.records) known

theorem addAll_append (known : ExportBatch) (pushes pushes' : List Push) :
    addAll known (pushes ++ pushes') = addAll (addAll known pushes) pushes' :=
  List.foldl_append ..

theorem foldl_addAll {α : Type} (known : ExportBatch) (items : List α) (pushes : α → List Push) :
    items.foldl (fun known item => addAll known (pushes item)) known =
      addAll known (items.flatMap pushes) :=
  List.foldl_flatMap.symm

/-- The pushes of an entry. -/
def ofEntry (flags : ExportFlags) (entry : HierarchyEntry) : List Push :=
  [⟨.jobs, always Job.encode, entry.jobs⟩, ⟨.bridges, always Bridge.encode, entry.bridges⟩] ++
    ((if flags.sections then [⟨.sections, always JobSection.encode, entry.sections⟩] else []) ++
      if flags.metrics then [⟨.metrics, always JobMetric.encode, entry.metrics⟩] else [])

/-- The pushes of a hierarchy. -/
def ofHierarchy (flags : ExportFlags) (hierarchy : PipelineHierarchy) : List Push :=
  ⟨.pipelines, always Pipeline.encode, hierarchy.depthFirst.map (·.pipeline)⟩ ::
    (hierarchy.depthFirst.flatMap (ofEntry flags) ++
      if flags.traces && !(TraceData.ofHierarchy hierarchy).isEmpty then
        [⟨.traces, always Span.encode, (TraceData.ofHierarchy hierarchy).spans⟩]
      else [])

/-- The pushes of test reports. -/
def ofReports (reports : List TestReport) : List Push :=
  ⟨.testReports, always TestReport.encode, reports⟩ :: reports.flatMap fun report =>
    [⟨.testSuites, always TestSuiteRecord.encode, report.suiteRecords⟩,
      ⟨.testCases, always TestCaseRecord.encode, report.caseRecords⟩]

/-- The pushes of everything that belongs to pipelines. -/
def ofCi (projects : List ProjectSettings) (hierarchies : List PipelineHierarchy)
    (reports : List TestReport) (deployments : List Deployment) (runners : List Runner) :
    List Push :=
  hierarchies.flatMap (fun hierarchy => ofHierarchy (flagsOf projects hierarchy) hierarchy) ++
    (ofReports reports ++
      [⟨.deployments, always Deployment.encode, deployments⟩,
        ⟨.runners, always Runner.encode, runners⟩])

theorem pushEntry_eq (known : ExportBatch) (flags : ExportFlags) (entry : HierarchyEntry) :
    known.pushEntry flags entry = addAll known (ofEntry flags entry) := by
  rw [ExportBatch.pushEntry, ofEntry]
  cases flags.sections <;> cases flags.metrics <;> rfl

theorem pushHierarchy_eq (known : ExportBatch) (flags : ExportFlags)
    (hierarchy : PipelineHierarchy) :
    known.pushHierarchy flags hierarchy = addAll known (ofHierarchy flags hierarchy) := by
  have entries : ∀ known : ExportBatch,
      hierarchy.depthFirst.foldl (fun known entry => known.pushEntry flags entry) known =
        addAll known (hierarchy.depthFirst.flatMap (ofEntry flags)) := fun known => by
    rw [← foldl_addAll]
    simp only [pushEntry_eq]
  rw [ofHierarchy, ← List.singleton_append, addAll_append, addAll_append,
    ExportBatch.pushHierarchy, entries]
  split <;> rfl

theorem pushReports_eq (known : ExportBatch) (reports : List TestReport) :
    known.pushReports reports = addAll known (ofReports reports) := by
  rw [ofReports, ← List.singleton_append, addAll_append, ← foldl_addAll]
  rfl

/-- The batch of everything that belongs to pipelines is made of these pushes. -/
theorem ciBatch_eq (projects : List ProjectSettings) (hierarchies : List PipelineHierarchy)
    (reports : List TestReport) (deployments : List Deployment) (runners : List Runner) :
    ciBatch projects hierarchies reports deployments runners =
      Push.batch (ofCi projects hierarchies reports deployments runners) := by
  have pipelines : hierarchies.foldl (fun known hierarchy =>
      ExportBatch.pushHierarchy known (flagsOf projects hierarchy) hierarchy) ExportBatch.empty =
        addAll .empty (hierarchies.flatMap fun hierarchy =>
          ofHierarchy (flagsOf projects hierarchy) hierarchy) := by
    rw [← foldl_addAll]
    simp only [pushHierarchy_eq]
  have whole : Push.batch (ofCi projects hierarchies reports deployments runners) =
      addAll .empty (ofCi projects hierarchies reports deployments runners) := rfl
  rw [whole, ofCi, addAll_append, addAll_append, ← pipelines, ← pushReports_eq]
  rfl

end Push

/-! ### Records that stem from logs -/

/-- The kinds that are made of job logs. -/
def EntityKind.ofLogs : List EntityKind :=
  [.sections, .metrics, .traces]

/-- Whether records of a kind are wanted, for the kinds that are made of job logs. -/
def ExportFlags.wants (flags : ExportFlags) : EntityKind → Bool
  | .sections => flags.sections
  | .metrics => flags.metrics
  | .traces => flags.traces
  | _ => true

/-- The records of these kinds that there are in a hierarchy. -/
def PipelineHierarchy.recordsOf (hierarchy : PipelineHierarchy) : EntityKind → List Json
  | .sections => hierarchy.entries.flatMap fun entry => entry.sections.map JobSection.encode
  | .metrics => hierarchy.entries.flatMap fun entry => entry.metrics.map JobMetric.encode
  | .traces => (TraceData.ofHierarchy hierarchy).spans.map Span.encode
  | _ => []

theorem values_always {α : Type} (kind : EntityKind) (encode : α → Json) (records : List α) :
    (⟨kind, always encode, records⟩ : Push).values = records.map encode :=
  congrFun (List.filterMap_eq_map (f := encode)) records

/-- What is pushed of a hierarchy is wanted and there. -/
theorem wanted_of_mem_ofHierarchy {flags : ExportFlags} {hierarchy : PipelineHierarchy}
    {push : Push} (member : push ∈ Push.ofHierarchy flags hierarchy)
    (ofLogs : push.kind ∈ EntityKind.ofLogs) :
    flags.wants push.kind = true ∧
      ∀ record ∈ push.values, record ∈ hierarchy.recordsOf push.kind := by
  have visited : ∀ entry ∈ hierarchy.depthFirst, entry ∈ hierarchy.entries :=
    fun entry inside => (PipelineHierarchy.walk_subperm _ _).subset inside
  rcases List.mem_cons.mp member with rfl | later
  · exact absurd ofLogs (by simp [EntityKind.ofLogs])
  rcases List.mem_append.mp later with inEntries | isTrace
  · obtain ⟨entry, isEntry, isPush⟩ := List.mem_flatMap.mp inEntries
    rcases List.mem_append.mp isPush with always | optional
    · rw [List.mem_pair] at always
      rcases always with rfl | rfl <;> exact absurd ofLogs (by simp [EntityKind.ofLogs])
    · rcases List.mem_append.mp optional with isSections | isMetrics
      · split at isSections
        · next wanted =>
          cases List.mem_singleton.mp isSections
          refine ⟨wanted, fun record inside => ?_⟩
          rw [values_always] at inside
          exact List.mem_flatMap.mpr ⟨entry, visited entry isEntry, inside⟩
        · cases isSections
      · split at isMetrics
        · next wanted =>
          cases List.mem_singleton.mp isMetrics
          refine ⟨wanted, fun record inside => ?_⟩
          rw [values_always] at inside
          exact List.mem_flatMap.mpr ⟨entry, visited entry isEntry, inside⟩
        · cases isMetrics
  · split at isTrace
    · next wanted =>
      cases List.mem_singleton.mp isTrace
      refine ⟨(Bool.and_eq_true_iff.mp wanted).1, fun record inside => ?_⟩
      rwa [values_always] at inside
    · cases isTrace

/-- What a batch has of these kinds are records of hierarchies of which they are wanted. -/
theorem wanted_of_mem_valuesOf {projects : List ProjectSettings}
    {hierarchies : List PipelineHierarchy} {reports : List TestReport}
    {deployments : List Deployment} {runners : List Runner} {kind : EntityKind} {record : Json}
    (ofLogs : kind ∈ EntityKind.ofLogs)
    (member : record ∈
      Push.valuesOf (Push.ofCi projects hierarchies reports deployments runners) kind) :
    ∃ hierarchy ∈ hierarchies, (flagsOf projects hierarchy).wants kind = true ∧
      record ∈ hierarchy.recordsOf kind := by
  obtain ⟨push, ofKind, inside⟩ := List.mem_flatMap.mp member
  obtain ⟨isPush, same⟩ := List.mem_filter.mp ofKind
  rw [decide_eq_true_eq] at same
  subst same
  rcases List.mem_append.mp isPush with ofHierarchies | others
  · obtain ⟨hierarchy, isHierarchy, isPush⟩ := List.mem_flatMap.mp ofHierarchies
    obtain ⟨wanted, there⟩ := wanted_of_mem_ofHierarchy isPush ofLogs
    exact ⟨hierarchy, isHierarchy, wanted, there record inside⟩
  · simp only [Push.ofReports, List.mem_append, List.mem_cons, List.mem_flatMap, List.not_mem_nil,
      or_false] at others
    rcases others with (rfl | ⟨_, _, rfl | rfl⟩) | rfl | rfl <;>
      exact absurd ofLogs (by simp [EntityKind.ofLogs])

/-! ### Logs in hierarchies -/

/-- A hierarchy with its share of logs. -/
def PipelineHierarchy.withLogs (hierarchy : PipelineHierarchy) (logs : List JobLog) :
    PipelineHierarchy :=
  { hierarchy with entries := (attachToEntries logs hierarchy.entries).1 }

/-- A log that was read from an answer of a run. -/
def JobLog.WasFetched (turns : Turns) (log : JobLog) : Prop :=
  ∃ (job : Job) (text : Bytes),
    (⟨.query (.jobLog job.projectId job.id), .ok text⟩ : Turn Action Action.Reply) ∈ turns ∧
      log = .ofLog job text

theorem JobLog.WasFetched.mono {more : Turns} {log : JobLog} (fetched : log.WasFetched turns)
    (subset : turns ⊆ more) : log.WasFetched more := by
  obtain ⟨job, text, answered, same⟩ := fetched
  exact ⟨job, text, subset answered, same⟩

theorem exists_of_mem_attachJobLogs {logs : List JobLog} {hierarchies : List PipelineHierarchy}
    {later : PipelineHierarchy} (member : later ∈ attachJobLogs logs hierarchies) :
    ∃ hierarchy ∈ hierarchies, ∃ share : List JobLog, (∀ log ∈ share, log ∈ logs) ∧
      later = hierarchy.withLogs share := by
  induction hierarchies generalizing logs with
  | nil => cases member
  | cons first rest inductionHypothesis =>
    rw [attachJobLogs] at member
    rcases List.mem_cons.mp member with rfl | inRest
    · exact ⟨first, List.mem_cons_self, logs, fun _ => id, rfl⟩
    · obtain ⟨hierarchy, isHierarchy, share, some, same⟩ := inductionHypothesis inRest
      exact ⟨hierarchy, List.mem_cons_of_mem _ isHierarchy, share, fun log inside =>
        (attachToEntries_spec logs first.entries).2 log (some log inside), same⟩

theorem map_pipeline_attachToEntries (logs : List JobLog) (entries : List HierarchyEntry) :
    (attachToEntries logs entries).1.map (·.pipeline) = entries.map (·.pipeline) := by
  induction entries generalizing logs with
  | nil => rfl
  | cons entry rest inductionHypothesis =>
    exact congrArg (entry.pipeline :: ·) (inductionHypothesis _)

theorem rootPipeline_eq (hierarchy : PipelineHierarchy) :
    hierarchy.rootPipeline =
      ((hierarchy.entries.map (·.pipeline)).find? (·.id == hierarchy.root)).getD default := by
  rw [PipelineHierarchy.rootPipeline, PipelineHierarchy.get?, List.find?_map]
  cases found : hierarchy.entries.find? (·.id == hierarchy.root) with
  | none =>
    have same : hierarchy.entries.find? ((·.id == hierarchy.root) ∘ (·.pipeline)) = none := found
    rw [same]
    rfl
  | some entry =>
    have same : hierarchy.entries.find? ((·.id == hierarchy.root) ∘ (·.pipeline)) = some entry :=
      found
    rw [same]
    rfl

/-- Logs change nothing of what is wanted of a hierarchy. -/
theorem flagsOf_withLogs (projects : List ProjectSettings) (hierarchy : PipelineHierarchy)
    (logs : List JobLog) :
    flagsOf projects (hierarchy.withLogs logs) = flagsOf projects hierarchy := by
  have same : (hierarchy.withLogs logs).rootPipeline = hierarchy.rootPipeline := by
    rw [rootPipeline_eq, rootPipeline_eq]
    exact congrArg (fun pipelines : List Pipeline =>
      (pipelines.find? (·.id == hierarchy.root)).getD default)
      (map_pipeline_attachToEntries logs hierarchy.entries)
  rw [flagsOf, flagsOf, same]

/-! ### Pipelines and what belongs to them -/

/-- The details that a run asks for and the records of logs that it sends are just what is wanted of
these hierarchies. -/
structure CiWanted (wanted : PipelineHierarchy → ExportFlags) (deployed : List Int)
    (window : SyncWindow) (hierarchies : List PipelineHierarchy) (turns : Turns) : Prop where
  /-- Every hierarchy is a tree without anything of logs at first. -/
  fresh : ∀ hierarchy ∈ hierarchies, hierarchy.IsFresh
  details : turns.details.Perm
    (wantedLogs wanted hierarchies ++ (wantedReports wanted hierarchies ++
      (deployed.map (.deployments · window) ++ wantedRunners hierarchies)))
  records : ∀ sink kind records, kind ∈ EntityKind.ofLogs →
    .send sink kind records ∈ turns.map (·.asked) → ∀ record ∈ records,
      ∃ hierarchy ∈ hierarchies, (wanted hierarchy).wants kind = true ∧
        ∃ logs : List JobLog, (∀ log ∈ logs, log.WasFetched turns) ∧
          record ∈ (hierarchy.withLogs logs).recordsOf kind

section Ci

variable {context : SyncContext} {projects : List ProjectSettings} {window : SyncWindow}

/-- What keeps to another subject than deliveries sends nothing. -/
theorem not_sent_of_keepsTo {α : Type} {dialogue : Sync α} {result : Option α} {subject : Subject}
    (about : KeepsTo subject dialogue) (other : subject ≠ .delivery)
    (held : Held dialogue turns result) {sink : Nat} {kind : EntityKind} {records : List Json} :
    .send sink kind records ∉ turns.map (·.asked) := by
  intro sent
  obtain ⟨turn, member, same⟩ := List.mem_map.mp sent
  have isAbout := about.asked held turn member
  rw [same] at isAbout
  exact other isAbout.symm

/-- The fetches for pipelines ask for just the details that are wanted, and the batch is made of the
hierarchies with the logs that were fetched. -/
theorem wanted_of_fetchCi {ciRecords : ExportBatch} {errors : List SyncError}
    (held : Held (fetchCi context projects window) turns (some (ciRecords, errors)))
    (goesOn : turns.Uncancelled) :
    ∃ part outcome, part <+: turns ∧
      Held (fetchPipelineHierarchies context.allowance (projects.map (·.id)) window).run part
        (some outcome) ∧
      turns.details.Perm
        (wantedLogs (flagsOf projects) (settle outcome).1 ++
          (wantedReports (flagsOf projects) (settle outcome).1 ++
            ((deployedProjects projects).map (.deployments · window) ++
              wantedRunners (settle outcome).1))) ∧
      ∃ logs reports deployments runners, (∀ log ∈ logs, JobLog.WasFetched turns log) ∧
        ciRecords =
          ciBatch projects (attachJobLogs logs (settle outcome).1) reports deployments runners := by
  obtain ⟨fetched, first, _, rfl, hierarchies, held⟩ := held.of_bind_some
  obtain ⟨logged, second, _, rfl, logs, held⟩ := held.of_bind_some
  obtain ⟨reported, third, _, rfl, reports, held⟩ := held.of_bind_some
  obtain ⟨deployed, fourth, _, rfl, deployments, held⟩ := held.of_bind_some
  obtain ⟨ran, fifth, last, rfl, runners, held⟩ := held.of_bind_some
  cases held
  simp only [Turns.uncancelled_append] at goesOn
  obtain ⟨-, goesSecond, goesThird, goesFourth, goesFifth, -⟩ := goesOn
  have trees : ∀ hierarchy ∈ (settle fetched).1, hierarchy.IsTree := fun hierarchy member =>
    (isFresh_of_fetchPipelineHierarchies hierarchies hierarchy member).tree
  refine ⟨first, fetched, List.prefix_append .., hierarchies, ?_, (settle logged).1,
    (settle reported).1, (settle deployed).1, (settle ran).1, fun log member => ?_, rfl⟩
  · simp only [Turns.details_append]
    rw [details_fetchPipelineHierarchies hierarchies, details_fetchJobLogs logs goesSecond,
      details_fetchTestReports reports goesThird, details_fetchDeployments deployments goesFourth,
      List.nil_append]
    refine (loggedJobs_perm trees).append
      ((reportedPipelines_perm trees).append (.append_left _ ?_))
    rw [show Turns.details [] = [] from rfl, List.append_nil]
    exact (details_fetchRunners runners goesFifth).trans (runnersOf_perm trees)
  · cases logged with
    | error => cases member
    | ok collected =>
      obtain ⟨job, _, _, text, answered, same⟩ := answered_of_mem_fetchJobLogs logs log member
      exact ⟨job, text, List.mem_append_right _ (List.mem_append_left _ answered), same⟩

/-- The export of pipelines asks for and sends just what is wanted. -/
theorem wanted_of_ciSynced {outcome : Outcome Unit}
    (synced : CiSynced context projects window turns (some outcome)) (goesOn : turns.Uncancelled) :
    ∃ part fetched, part <+: turns ∧
      Held (fetchPipelineHierarchies context.allowance (projects.map (·.id)) window).run part
        (some fetched) ∧
      CiWanted (flagsOf projects) (deployedProjects projects) window (settle fetched).1 turns := by
  generalize same : some outcome = result at synced
  cases synced with
  | nothing without =>
    subst without
    exact ⟨[], .ok .empty, List.nil_prefix, .done _, fun _ member => (nomatch member), .nil,
      fun _ _ _ _ sent => nomatch sent⟩
  | stalled => cases same
  | @fetched fetching sending ciRecords errors exported isSome fetched sent =>
    obtain ⟨goesFetching, _⟩ := Turns.uncancelled_append.mp goesOn
    obtain ⟨part, outcome, isPrefix, hierarchies, details, logs, reports, deployments, runners,
      wereFetched, rfl⟩ := wanted_of_fetchCi fetched goesFetching
    refine ⟨part, outcome, isPrefix.trans (List.prefix_append ..), hierarchies,
      isFresh_of_fetchPipelineHierarchies hierarchies, ?_, ?_⟩
    · rw [Turns.details_append,
        Turns.details_of_keepsTo (.exportBatch context.exporter _) (by decide) sent,
        List.append_nil]
      exact details
    · intro sink kind records ofLogs isSent record member
      rw [List.map_append, List.mem_append] at isSent
      have isSent := isSent.resolve_left
        (not_sent_of_keepsTo (.fetchCi context projects window) (by decide) fetched)
      rw [(Exporter.asked_exportBatch sent).1, Push.ciBatch_eq, batchDeliveries_batch] at isSent
      obtain ⟨exportedKind, _, toSink⟩ := List.mem_flatMap.mp isSent
      obtain ⟨place, _, same⟩ := List.mem_map.mp toSink
      cases same
      obtain ⟨later, isLater, wanted, there⟩ := wanted_of_mem_valuesOf ofLogs member
      obtain ⟨hierarchy, isHierarchy, share, some, rfl⟩ := exists_of_mem_attachJobLogs isLater
      rw [flagsOf_withLogs] at wanted
      exact ⟨hierarchy, isHierarchy, wanted, share, fun log inside =>
        (wereFetched log (some log inside)).mono (List.subset_append_left _ _), there⟩

end Ci

end CiTelemetry
