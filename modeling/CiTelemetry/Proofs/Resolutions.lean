/-
This file proves that the registry is resolved as a whole or not at all. A
resolution ends with the first lookup that fails and leaves the registry as it
was; where every lookup is answered, the registry is what is built from these
answers alone. So after any number of resolutions the registry is that of the
last one that succeeded.
-/

import CiTelemetry.Proofs.FailureAccounting
import CiTelemetry.Proofs.FixedAnswers
import CiTelemetry.Sync.Resolve

namespace CiTelemetry

open Dialogue

variable {α β : Type} {turns : Turns}

/-! ### The first failure -/

/-- A fetch always comes to an outcome: a value when no call failed, and otherwise the failure of
its last call, before which none failed. -/
def EndsAtFailure (fetch : Fetch α) : Prop :=
  ∀ ⦃turns : Turns⦄ ⦃result : Option (Outcome α)⦄, Held fetch.run turns result →
    (∃ value, result = some (.ok value) ∧ turns.failures = []) ∨
      ∃ error, ∃ earlier : Turns, ∃ last, result = some (.error error) ∧
        turns = earlier ++ [last] ∧ earlier.failures = [] ∧ last.failure? = some error

namespace EndsAtFailure

theorem pure (value : α) : EndsAtFailure (Pure.pure value) := by
  intro turns result held
  cases held
  exact .inl ⟨value, rfl, rfl⟩

theorem query (asked : Query) : EndsAtFailure (Fetch.query asked) := by
  intro turns result held
  obtain ⟨reply, rfl, rfl⟩ := Held.of_question held
  cases reply with
  | ok value => exact .inl ⟨value, rfl, rfl⟩
  | error error => exact .inr ⟨error, [], ⟨.query asked, .error error⟩, rfl, rfl, rfl, rfl⟩

theorem bind {fetch : Fetch α} {next : α → Fetch β} (first : EndsAtFailure fetch)
    (second : ∀ value, EndsAtFailure (next value)) : EndsAtFailure (fetch >>= next) := by
  intro turns result held
  rcases Attempt.held_bind held with
    ⟨_, stopped⟩ | ⟨error, rfl, failed⟩ | ⟨value, front, back, rfl, former, latter⟩
  · rcases first stopped with ⟨_, same, _⟩ | ⟨_, _, _, same, _⟩ <;> cases same
  · rcases first failed with ⟨_, same, _⟩ | ⟨other, earlier, last, same, rest⟩
    · cases same
    · cases same
      exact .inr ⟨error, earlier, last, rfl, rest⟩
  · have calm : Turns.failures front = [] := by
      rcases first former with ⟨_, _, none⟩ | ⟨_, _, _, same, _⟩
      · exact none
      · cases same
    rcases second value latter with
      ⟨value', rfl, none⟩ | ⟨error, earlier, last, rfl, rfl, none, fails⟩
    · exact .inl ⟨value', rfl, by rw [Turns.failures_append, calm, none, List.append_nil]⟩
    · refine .inr ⟨error, front ++ earlier, last, rfl, (List.append_assoc ..).symm, ?_, fails⟩
      rw [Turns.failures_append, calm, none, List.append_nil]

theorem resolveKind (source : NamespaceSource) :
    EndsAtFailure (CiTelemetry.resolveKind source) := by
  rw [CiTelemetry.resolveKind]
  split
  · exact pure _
  · exact query _

theorem resolveNamespaces (defaults : ProjectDefaults) (builder : RegistryBuilder)
    (sources : List NamespaceSource) :
    EndsAtFailure (CiTelemetry.resolveNamespaces defaults builder sources) := by
  induction sources generalizing builder with
  | nil => exact pure builder
  | cons source rest inductionHypothesis =>
    exact bind (resolveKind source) fun kind => bind (query _) fun projects =>
      inductionHypothesis _

theorem resolveExplicit (defaults : ProjectDefaults) (builder : RegistryBuilder)
    (sources : List ProjectSource) :
    EndsAtFailure (CiTelemetry.resolveExplicit defaults builder sources) := by
  induction sources generalizing builder with
  | nil => exact pure builder
  | cons source rest inductionHypothesis =>
    exact bind (query _) fun project => inductionHypothesis _

theorem resolveRegistry (settings : SyncSettings) :
    EndsAtFailure (CiTelemetry.resolveRegistry settings) :=
  bind (resolveNamespaces _ _ _) fun _ => bind (resolveExplicit _ _ _) fun complete =>
    pure complete.build

end EndsAtFailure

/-! ### The registry of the answers -/

/-- What is answered about an owner. -/
structure OwnerAnswer where
  kind : NamespaceKind
  projects : List Project

/-- The answers to all lookups of one resolution, in the order of the settings. -/
structure RegistryAnswers where
  owners : List OwnerAnswer
  projects : List Project

/-- There is an answer about every owner and every project of the settings. -/
structure RegistryAnswers.Complete (answers : RegistryAnswers) (settings : SyncSettings) :
    Prop where
  owners : answers.owners.length = settings.namespaces.length
  projects : answers.projects.length = settings.projects.length

/-- The lookups about an owner, with their answers. What it is is asked unless it is configured. -/
def NamespaceSource.lookups (source : NamespaceSource) (answer : OwnerAnswer) : Turns :=
  let projectsOf (kind : NamespaceKind) : Turn Action Action.Reply :=
    ⟨.query (.namespaceProjects source.id kind source.includeSubgroups source.withShared),
      .ok answer.projects⟩
  match source.kind with
  | some kind => [projectsOf kind]
  | none => [⟨.query (.namespaceKind source.id), .ok answer.kind⟩, projectsOf answer.kind]

/-- The lookup of a project, with its answer. -/
def ProjectSource.lookup (source : ProjectSource) (project : Project) :
    Turn Action Action.Reply :=
  ⟨.query (.project source.id), .ok project⟩

/-- The settings of an owner's projects: those of the owner, or the defaults. -/
def NamespaceSource.entries (defaults : ProjectDefaults) (source : NamespaceSource)
    (answer : OwnerAnswer) : List ProjectSettings :=
  answer.projects.map fun project =>
    .ofProject project (source.exportFlags.getD defaults.exportFlags)
      (source.catchUp.getD defaults.catchUp)

/-- The settings of a project: its own, or the defaults. -/
def ProjectSource.entry (defaults : ProjectDefaults) (source : ProjectSource) (project : Project) :
    ProjectSettings :=
  .ofProject project (source.exportFlags.getD defaults.exportFlags)
    (source.catchUp.getD defaults.catchUp)

namespace SyncSettings

/-- All lookups with their answers: owner after owner, and then project after project. -/
def lookups (settings : SyncSettings) (answers : RegistryAnswers) : Turns :=
  (List.zipWith NamespaceSource.lookups settings.namespaces answers.owners).flatten ++
    List.zipWith ProjectSource.lookup settings.projects answers.projects

/-- The registry that is right for these answers: what the owners list, in order, then the projects
that are configured by themselves, and all exclusions at the end. -/
def registryOf (settings : SyncSettings) (answers : RegistryAnswers) : Registry :=
  let listed := List.zipWith (NamespaceSource.entries settings.defaults) settings.namespaces
    answers.owners
  let configured := List.zipWith (ProjectSource.entry settings.defaults) settings.projects
    answers.projects
  let known := listed.flatten.foldl RegistryBuilder.addFromNamespace .empty
  let complete := configured.foldl RegistryBuilder.addExplicit known
  ((settings.namespaces.flatMap (·.exclude)).foldl RegistryBuilder.exclude complete).build

end SyncSettings

namespace RegistryBuilder

/-- When an exclusion is stated makes no difference to what becomes known. -/
theorem exclude_addFromNamespace (builder : RegistryBuilder) (pattern : String)
    (settings : ProjectSettings) :
    (builder.exclude pattern).addFromNamespace settings =
      (builder.addFromNamespace settings).exclude pattern := by
  unfold addFromNamespace
  split <;> split <;> first | rfl | contradiction

theorem exclude_addExplicit (builder : RegistryBuilder) (pattern : String)
    (settings : ProjectSettings) :
    (builder.exclude pattern).addExplicit settings =
      (builder.addExplicit settings).exclude pattern := by
  unfold addExplicit
  split <;> split <;> first | rfl | contradiction

/-- What is added after exclusions may be added before them. -/
theorem foldl_add_exclude {add : RegistryBuilder → ProjectSettings → RegistryBuilder}
    (commutes : ∀ builder pattern settings,
      add (exclude builder pattern) settings = exclude (add builder settings) pattern)
    (builder : RegistryBuilder) (patterns : List String) (added : List ProjectSettings) :
    added.foldl add (patterns.foldl exclude builder) =
      patterns.foldl exclude (added.foldl add builder) := by
  induction patterns generalizing builder with
  | nil => rfl
  | cons pattern rest inductionHypothesis =>
    rw [List.foldl_cons, inductionHypothesis, List.foldl_cons,
      List.foldl_hom (exclude · pattern) (fun known settings => commutes known pattern settings)]

end RegistryBuilder

theorem addNamespace_eq (builder : RegistryBuilder) (defaults : ProjectDefaults)
    (source : NamespaceSource) (answer : OwnerAnswer) :
    builder.addNamespace defaults source answer.projects =
      source.exclude.foldl RegistryBuilder.exclude
        ((source.entries defaults answer).foldl RegistryBuilder.addFromNamespace builder) := by
  rw [RegistryBuilder.addNamespace, NamespaceSource.entries, List.foldl_map]

/-- The lookups about owners were answered, and what is known is what the answers say. -/
theorem resolveNamespaces_answered {defaults : ProjectDefaults} {builder complete : RegistryBuilder}
    {sources : List NamespaceSource}
    (held : Held (resolveNamespaces defaults builder sources).run turns (some (.ok complete))) :
    ∃ answers : List OwnerAnswer, answers.length = sources.length ∧
      turns = (List.zipWith NamespaceSource.lookups sources answers).flatten ∧
      complete = (sources.flatMap (·.exclude)).foldl RegistryBuilder.exclude
        ((List.zipWith (NamespaceSource.entries defaults) sources answers).flatten.foldl
          RegistryBuilder.addFromNamespace builder) := by
  induction sources generalizing builder turns with
  | nil =>
    cases held
    exact ⟨[], rfl, rfl, rfl⟩
  | cons source rest inductionHypothesis =>
    obtain ⟨kind, first, _, rfl, kindRun, held⟩ := Attempt.held_bind_ok held
    obtain ⟨projects, second, third, rfl, projectsRun, held⟩ := Attempt.held_bind_ok held
    obtain ⟨answers, sameLength, rfl, rfl⟩ := inductionHypothesis held
    have asked : first ++ second = source.lookups ⟨kind, projects⟩ := by
      obtain ⟨reply, rfl, same⟩ := Held.of_question projectsRun
      cases same
      rw [resolveKind] at kindRun
      rw [NamespaceSource.lookups]
      cases configured : source.kind with
      | some known =>
        rw [configured] at kindRun
        cases kindRun
        rfl
      | none =>
        rw [configured] at kindRun
        obtain ⟨reply, rfl, same⟩ := Held.of_question kindRun
        cases same
        rfl
    refine ⟨⟨kind, projects⟩ :: answers, congrArg (· + 1) sameLength, ?_, ?_⟩
    · rw [List.zipWith_cons_cons, List.flatten_cons, ← asked, List.append_assoc]
    · rw [addNamespace_eq builder defaults source ⟨kind, projects⟩,
        RegistryBuilder.foldl_add_exclude RegistryBuilder.exclude_addFromNamespace,
        List.zipWith_cons_cons, List.flatten_cons, List.foldl_append, List.flatMap_cons,
        List.foldl_append]

/-- The lookups of single projects were answered, and what is known is what the answers say. -/
theorem resolveExplicit_answered {defaults : ProjectDefaults} {builder complete : RegistryBuilder}
    {sources : List ProjectSource}
    (held : Held (resolveExplicit defaults builder sources).run turns (some (.ok complete))) :
    ∃ answers : List Project, answers.length = sources.length ∧
      turns = List.zipWith ProjectSource.lookup sources answers ∧
      complete = (List.zipWith (ProjectSource.entry defaults) sources answers).foldl
        RegistryBuilder.addExplicit builder := by
  induction sources generalizing builder turns with
  | nil =>
    cases held
    exact ⟨[], rfl, rfl, rfl⟩
  | cons source rest inductionHypothesis =>
    obtain ⟨project, first, second, rfl, projectRun, held⟩ := Attempt.held_bind_ok held
    obtain ⟨answers, sameLength, rfl, rfl⟩ := inductionHypothesis held
    obtain ⟨reply, rfl, same⟩ := Held.of_question projectRun
    cases same
    exact ⟨project :: answers, congrArg (· + 1) sameLength, rfl, rfl⟩

/-- A registry is resolved from the answers to all lookups. -/
theorem resolveRegistry_answered {settings : SyncSettings} {registry : Registry}
    (held : Held (resolveRegistry settings).run turns (some (.ok registry))) :
    ∃ answers : RegistryAnswers, answers.Complete settings ∧ turns = settings.lookups answers ∧
      registry = settings.registryOf answers := by
  obtain ⟨listed, first, _, rfl, namespacesRun, held⟩ := Attempt.held_bind_ok held
  obtain ⟨complete, second, _, rfl, explicitRun, held⟩ := Attempt.held_bind_ok held
  cases held
  obtain ⟨owners, sameOwners, rfl, rfl⟩ := resolveNamespaces_answered namespacesRun
  obtain ⟨projects, sameProjects, rfl, rfl⟩ := resolveExplicit_answered explicitRun
  refine ⟨⟨owners, projects⟩, ⟨sameOwners, sameProjects⟩, ?_, ?_⟩
  · rw [List.append_nil, SyncSettings.lookups]
  · rw [SyncSettings.registryOf,
      RegistryBuilder.foldl_add_exclude RegistryBuilder.exclude_addExplicit]

/-! ### Resolutions one after another -/

/-- A resolution with what was said in it, and the registry before and after. -/
structure Resolution where
  before : Registry
  turns : Turns
  outcome : Outcome Nat
  after : Registry

namespace Resolution

/-- Every lookup was answered, and the registry is the one of these answers. -/
structure Succeeds (settings : SyncSettings) (run : Resolution) (answers : RegistryAnswers) :
    Prop where
  complete : answers.Complete settings
  turns_eq : run.turns = settings.lookups answers
  after_eq : run.after = settings.registryOf answers
  outcome_eq : run.outcome = .ok run.after.length

/-- A lookup failed. It was the last one, and the registry is what it was. -/
structure GivesUp (run : Resolution) (error : SyncError) : Prop where
  ends : ∃ earlier : Turns, ∃ last, run.turns = earlier ++ [last] ∧ earlier.failures = [] ∧
    last.failure? = some error
  after_eq : run.after = run.before
  outcome_eq : run.outcome = .error error

end Resolution

/-- Resolutions one after another, each of which finds the registry that the one before left. -/
inductive Resolutions (settings : SyncSettings) : Registry → List Resolution → Registry → Prop
  | none (registry : Registry) : Resolutions settings registry [] registry
  | next {registry after last : Registry} {turns : Turns} {outcome : Outcome Nat}
      {runs : List Resolution}
      (held : Held (resolveProjects settings registry) turns (some (outcome, after)))
      (rest : Resolutions settings after runs last) :
    Resolutions settings registry (⟨registry, turns, outcome, after⟩ :: runs) last

/-- What a resolution does to the registry. -/
theorem resolveProjects_cases {settings : SyncSettings} {registry : Registry}
    {result : Option (Outcome Nat × Registry)}
    (held : Held (resolveProjects settings registry) turns result) :
    ∃ outcome after, result = some (outcome, after) ∧
      ((turns.failures = [] ∧
          ∃ answers, Resolution.Succeeds settings ⟨registry, turns, outcome, after⟩ answers) ∨
        (turns.failures ≠ [] ∧
          ∃ error, Resolution.GivesUp ⟨registry, turns, outcome, after⟩ error)) := by
  rcases Held.of_bind held with ⟨_, stopped⟩ | ⟨outcome, front, back, rfl, former, latter⟩
  · rcases EndsAtFailure.resolveRegistry settings stopped with
      ⟨_, same, _⟩ | ⟨_, _, _, same, _⟩ <;> cases same
  cases outcome with
  | ok resolved =>
    cases latter
    rw [List.append_nil]
    obtain ⟨answers, complete, isLookups, isRegistry⟩ := resolveRegistry_answered former
    refine ⟨_, _, rfl, .inl ⟨?_, answers, complete, isLookups, isRegistry, rfl⟩⟩
    rcases EndsAtFailure.resolveRegistry settings former with ⟨_, _, none⟩ | ⟨_, _, _, same, _⟩
    · exact none
    · cases same
  | error error =>
    cases latter
    rw [List.append_nil]
    rcases EndsAtFailure.resolveRegistry settings former with
      ⟨_, same, _⟩ | ⟨_, earlier, last, same, rfl, none, fails⟩
    · cases same
    · cases same
      refine ⟨_, _, rfl, .inr ⟨?_, error, ⟨earlier, last, rfl, none, fails⟩, rfl, rfl⟩⟩
      rw [Turns.failures_append, none, Turns.failures, List.filterMap_cons_some fails]
      exact List.cons_ne_nil _ _

/-- Each resolution comes to an end, and either takes the registry of its own answers or, when a
lookup failed, changes nothing and looks nothing else up. The registry at the end is that of the
last resolution without a failed lookup. -/
theorem resolutions_atomic {settings : SyncSettings} {start last : Registry}
    {runs : List Resolution} (sequence : Resolutions settings start runs last) :
    (∀ registry turns, ¬Held (resolveProjects settings registry) turns none) ∧
    (∀ run ∈ runs,
      (run.turns.failures = [] → ∃ answers, run.Succeeds settings answers) ∧
      (run.turns.failures ≠ [] → ∃ error, run.GivesUp error)) ∧
    last = ((runs.filter (·.turns.failures.isEmpty)).getLast?.map (·.after)).getD start := by
  refine ⟨fun registry turns held => ?_, ?_⟩
  · obtain ⟨_, _, same, _⟩ := resolveProjects_cases held
    cases same
  induction sequence with
  | none registry => exact ⟨List.forall_mem_nil _, rfl⟩
  | @next registry after last turns outcome runs held rest inductionHypothesis =>
    obtain ⟨others, isLast⟩ := inductionHypothesis
    obtain ⟨_, _, same, cases⟩ := resolveProjects_cases held
    cases same
    refine ⟨List.forall_mem_cons.mpr ⟨?_, others⟩, ?_⟩
    · rcases cases with ⟨none, succeeds⟩ | ⟨some, givesUp⟩
      · exact ⟨fun _ => succeeds, fun some => absurd none some⟩
      · exact ⟨fun none => absurd none some, fun _ => givesUp⟩
    · rw [isLast, List.filter_cons]
      rcases cases with ⟨none, _⟩ | ⟨some, _, _, kept, _⟩
      · rw [if_pos (List.isEmpty_iff.mpr none), List.getLast?_cons]
        cases (runs.filter _).getLast? <;> rfl
      · rw [if_neg (fun none => some (List.isEmpty_iff.mp none))]
        cases kept
        rfl

namespace TwoResolutions

def settings : SyncSettings :=
  { (default : SyncSettings) with
    namespaces := [⟨"g", none, true, false, ["g/b"], none, none⟩]
    projects := [⟨"g/a", some { ExportFlags.all with traces := false }, none⟩] }

def project (id : Int) (fullPath : String) : Project :=
  { (default : Project) with id, fullPath }

/-- A group with three projects; where the server is gone, the project that is configured by itself
is not found again. -/
def replies (gone : Bool) : FixedReplies
  | .query (.namespaceKind _) => .ok .group
  | .query (.namespaceProjects ..) => .ok [project 1 "g/a", project 2 "g/b", project 3 "g/c"]
  | .query (.project _) => if gone then .error .cancelled else .ok (project 1 "g/a")
  | op => FixedReplies.nothing op

def turnsFrom (registry : Registry) (gone : Bool) : Turns :=
  (resolveProjects settings registry).transcript (fun op (_ : Unit) => (replies gone op, ())) ()

def resolved : Registry :=
  [⟨1, "g/a", { ExportFlags.all with traces := false }, default⟩, ⟨3, "g/c", .all, default⟩]

def first : Resolution :=
  ⟨[], turnsFrom [] false, .ok 2, resolved⟩

def second : Resolution :=
  ⟨resolved, turnsFrom resolved true, .error .cancelled, resolved⟩

theorem first_then_second : Resolutions settings [] [first, second] resolved :=
  .next (held_transcript _ (resolveProjects settings []) ())
    (.next (held_transcript _ (resolveProjects settings resolved) ()) (.none resolved))

/-- The registry of the first resolution outlives the second one, which is cancelled after two
lookups were answered. -/
theorem registry_outlives_failure :
    (∃ answers, first.Succeeds settings answers) ∧ (∃ error, second.GivesUp error) ∧
      second.turns.length = 3 ∧ second.after = first.after := by
  obtain ⟨-, each, -⟩ := resolutions_atomic first_then_second
  have failed : second.turns.failures ≠ [] := List.cons_ne_nil SyncError.cancelled []
  exact ⟨(each first List.mem_cons_self).1 rfl,
    (each second (List.mem_cons_of_mem _ List.mem_cons_self)).2 failed, rfl, rfl⟩

end TwoResolutions

end CiTelemetry
