/-
This file proves by which rule a registry is built, whatever was added and left
out, in whatever order. For each project that was added one entry decides: the
last one that was configured explicitly, or else the first one that a namespace
listed. The projects keep the order in which they became known, and a project is
in the registry unless a pattern means the entry that decides about it. When the
patterns were stated makes no difference.
-/

import CiTelemetry.Proofs.FirstOccurrences
import CiTelemetry.Registry.Builder

namespace CiTelemetry

/-- What is done to a registry that is being built. -/
inductive RegistryStep where
  /-- A namespace lists a project. -/
  | listed (settings : ProjectSettings)
  /-- A project is configured explicitly. -/
  | configured (settings : ProjectSettings)
  /-- Projects that a pattern means are left out. -/
  | excluded (pattern : String)
  deriving DecidableEq, Repr

namespace RegistryStep

def apply (builder : RegistryBuilder) : RegistryStep → RegistryBuilder
  | listed settings => builder.addFromNamespace settings
  | configured settings => builder.addExplicit settings
  | excluded pattern => builder.exclude pattern

/-- The settings that a step adds. -/
def added? : RegistryStep → Option ProjectSettings
  | listed settings | configured settings => some settings
  | excluded _ => none

/-- The settings of a project that a namespace listed. -/
def listed? (id : Int) : RegistryStep → Option ProjectSettings
  | listed settings => if settings.id = id then some settings else none
  | configured _ | excluded _ => none

/-- The settings of a project that were configured explicitly. -/
def configured? (id : Int) : RegistryStep → Option ProjectSettings
  | configured settings => if settings.id = id then some settings else none
  | listed _ | excluded _ => none

def pattern? : RegistryStep → Option String
  | excluded pattern => some pattern
  | listed _ | configured _ => none

/-! ### What the steps say -/

variable (steps : List RegistryStep)

/-- The builder after all steps. -/
def builderOf : RegistryBuilder :=
  steps.foldl apply .empty

/-- The ids of what was added, in order and with repetitions. -/
def addedIds : List Int :=
  (steps.filterMap added?).map (·.id)

/-- The settings that decide about a project: the last ones that were configured for it, or else the
first ones that a namespace listed it with. -/
def decisive? (id : Int) : Option ProjectSettings :=
  (steps.reverse.findSome? (configured? id)).or (steps.findSome? (listed? id))

def patterns : List String :=
  steps.filterMap pattern?

/-- The steps that add something. -/
def additions : List RegistryStep :=
  steps.filter fun step => step.added?.isSome

/-- A pattern is the full path of a project or its id in decimal. -/
def IsExcluded (settings : ProjectSettings) : Prop :=
  ∃ pattern ∈ patterns steps, settings.fullPath = pattern ∨ toString settings.id = pattern

/-! ### One step more -/

variable {steps} {settings : ProjectSettings} {builder : RegistryBuilder}

theorem builderOf_concat (steps : List RegistryStep) (step : RegistryStep) :
    builderOf (steps ++ [step]) = step.apply (builderOf steps) := by
  rw [builderOf, List.foldl_append]
  rfl

/-- A listed entry decides only where nothing has decided before. -/
theorem decisive?_listed (id : Int) :
    decisive? (steps ++ [listed settings]) id =
      (decisive? steps id).or (if settings.id = id then some settings else none) := by
  rw [decisive?, decisive?, List.reverse_concat, List.findSome?_cons_of_isNone rfl,
    List.findSome?_append, List.findSome?_singleton, Option.or_assoc, listed?]

/-- A configured entry decides about its project. -/
theorem decisive?_configured (id : Int) :
    decisive? (steps ++ [configured settings]) id =
      if settings.id = id then some settings else decisive? steps id := by
  rw [decisive?, decisive?, List.reverse_concat, List.findSome?_append, List.findSome?_singleton,
    List.findSome?_cons, configured?, listed?, Option.or_none]
  split <;> split <;> simp_all

theorem decisive?_excluded (pattern : String) (id : Int) :
    decisive? (steps ++ [excluded pattern]) id = decisive? steps id := by
  rw [decisive?, decisive?, List.reverse_concat, List.findSome?_cons_of_isNone rfl,
    List.findSome?_append, List.findSome?_singleton, listed?, Option.or_none]

theorem addedIds_concat (steps : List RegistryStep) (step : RegistryStep) :
    addedIds (steps ++ [step]) = addedIds steps ++ (step.added?.map (·.id)).toList := by
  rw [addedIds, addedIds, List.filterMap_append, List.map_append]
  cases step <;> rfl

theorem patterns_concat (steps : List RegistryStep) (step : RegistryStep) :
    patterns (steps ++ [step]) = patterns steps ++ step.pattern?.toList := by
  rw [patterns, patterns, List.filterMap_append]
  cases step <;> rfl

/-- Some entry decides about each project that was added, and about no other. -/
theorem decisive?_isSome_iff (steps : List RegistryStep) (id : Int) :
    (decisive? steps id).isSome = true ↔ id ∈ addedIds steps := by
  induction steps using List.reverseRecOn with
  | nil => exact iff_of_false nofun nofun
  | append_singleton steps step inductionHypothesis =>
    rw [addedIds_concat, List.mem_append, ← inductionHypothesis]
    cases step with
    | listed settings =>
      rw [decisive?_listed, Option.isSome_or, Bool.or_eq_true]
      by_cases same : settings.id = id
      · simp [added?, same]
      · simp [added?, same, Ne.symm same]
    | configured settings =>
      rw [decisive?_configured]
      by_cases same : settings.id = id
      · simp [added?, same]
      · simp [added?, same, Ne.symm same]
    | excluded pattern =>
      rw [decisive?_excluded]
      simp [added?]

/-! ### The builder follows the steps -/

/-- A builder knows what the steps before added, each project once and in the order in which it
became known, with the settings that decide about it; and it has their patterns. -/
structure Follows (steps : List RegistryStep) (builder : RegistryBuilder) : Prop where
  ids : builder.entries.map (·.id) = (addedIds steps).eraseDups
  decides : ∀ entry ∈ builder.entries, decisive? steps entry.id = some entry
  patterns : builder.exclusions = patterns steps

namespace Follows

theorem knows_iff (follows : Follows steps builder) (id : Int) :
    builder.knows id = true ↔ id ∈ addedIds steps := by
  rw [← List.mem_eraseDups, ← follows.ids]
  simp [RegistryBuilder.knows]

/-- The settings of a project that was not known come last. -/
theorem append (follows : Follows steps builder) (step : RegistryStep)
    (adds : step.added? = some settings) (isNew : settings.id ∉ addedIds steps)
    (noPattern : step.pattern? = none)
    (others : ∀ id, settings.id ≠ id → decisive? (steps ++ [step]) id = decisive? steps id)
    (itself : decisive? (steps ++ [step]) settings.id = some settings) :
    Follows (steps ++ [step]) { builder with entries := builder.entries ++ [settings] } where
  ids := by
    rw [addedIds_concat, adds, Option.map_some, Option.toList_some, eraseDups_concat,
      if_neg isNew, ← follows.ids, List.map_append, List.map_singleton]
  decides entry member := by
    rcases List.mem_append.mp member with earlier | last
    · have known : entry.id ∈ addedIds steps := by
        rw [← List.mem_eraseDups, ← follows.ids]
        exact List.mem_map_of_mem earlier
      rw [others entry.id fun same => isNew (same ▸ known), follows.decides entry earlier]
    · rw [List.mem_singleton.mp last, itself]
  patterns := by
    rw [patterns_concat, noPattern, Option.toList_none, List.append_nil, ← follows.patterns]

/-- The settings of a known project are kept or changed in their place. -/
theorem change (follows : Follows steps builder) (step : RegistryStep)
    (changed : ProjectSettings → ProjectSettings) (adds : step.added? = some settings)
    (known : settings.id ∈ addedIds steps) (noPattern : step.pattern? = none)
    (sameId : ∀ entry, (changed entry).id = entry.id)
    (decides : ∀ entry, decisive? steps entry.id = some entry →
      decisive? (steps ++ [step]) entry.id = some (changed entry)) :
    Follows (steps ++ [step]) { builder with entries := builder.entries.map changed } where
  ids := by
    rw [addedIds_concat, adds, Option.map_some, Option.toList_some, eraseDups_concat,
      if_pos known, ← follows.ids, List.map_map]
    exact List.map_congr_left fun entry _ => sameId entry
  decides entry member := by
    obtain ⟨before, earlier, rfl⟩ := List.mem_map.mp member
    rw [sameId, decides before (follows.decides before earlier)]
  patterns := by
    rw [patterns_concat, noPattern, Option.toList_none, List.append_nil, ← follows.patterns]

theorem listed (follows : Follows steps builder) (settings : ProjectSettings) :
    Follows (steps ++ [.listed settings]) (builder.addFromNamespace settings) := by
  unfold RegistryBuilder.addFromNamespace
  split
  · next isKnown =>
    have known := (follows.knows_iff settings.id).mp isKnown
    have kept := follows.change (.listed settings) id rfl known rfl (fun _ => rfl)
      fun entry decided => by rw [decisive?_listed, decided]; rfl
    rwa [List.map_id] at kept
  · next notKnown =>
    have isNew := mt (follows.knows_iff settings.id).mpr notKnown
    have undecided : decisive? steps settings.id = none := by
      rw [← Option.not_isSome_iff_eq_none, decisive?_isSome_iff]
      exact isNew
    refine follows.append (.listed settings) rfl isNew rfl (fun id other => ?_) ?_
    · rw [decisive?_listed, if_neg other, Option.or_none]
    · rw [decisive?_listed, if_pos rfl, undecided, Option.none_or]

theorem configured (follows : Follows steps builder) (settings : ProjectSettings) :
    Follows (steps ++ [.configured settings]) (builder.addExplicit settings) := by
  unfold RegistryBuilder.addExplicit
  split
  · next isKnown =>
    have known := (follows.knows_iff settings.id).mp isKnown
    refine follows.change (.configured settings) _ rfl known rfl (fun entry => ?_)
      fun entry decided => ?_
    · split
      · next same => exact (beq_iff_eq.mp same).symm
      · rfl
    · rw [decisive?_configured, decided]
      by_cases same : settings.id = entry.id
      · rw [if_pos same, if_pos (beq_iff_eq.mpr same.symm)]
      · rw [if_neg same, if_neg fun found => same (beq_iff_eq.mp found).symm]
  · next notKnown =>
    have isNew := mt (follows.knows_iff settings.id).mpr notKnown
    refine follows.append (.configured settings) rfl isNew rfl (fun id other => ?_) ?_
    · rw [decisive?_configured, if_neg other]
    · rw [decisive?_configured, if_pos rfl]

theorem excluded (follows : Follows steps builder) (pattern : String) :
    Follows (steps ++ [.excluded pattern]) (builder.exclude pattern) where
  ids := by
    rw [addedIds_concat]
    exact (List.append_nil (addedIds steps)).symm ▸ follows.ids
  decides entry member := (decisive?_excluded pattern entry.id).trans (follows.decides entry member)
  patterns := by
    rw [patterns_concat, ← follows.patterns]
    rfl

theorem apply (follows : Follows steps builder) (step : RegistryStep) :
    Follows (steps ++ [step]) (step.apply builder) := by
  cases step with
  | listed settings => exact follows.listed settings
  | configured settings => exact follows.configured settings
  | excluded pattern => exact follows.excluded pattern

end Follows

theorem follows_builderOf (steps : List RegistryStep) : Follows steps (builderOf steps) := by
  induction steps using List.reverseRecOn with
  | nil => exact ⟨rfl, fun _ member => absurd member List.not_mem_nil, rfl⟩
  | append_singleton steps step inductionHypothesis =>
    rw [builderOf_concat]
    exact inductionHypothesis.apply step

/-! ### The registry -/

theorem isMeantBy_iff (settings : ProjectSettings) (pattern : String) :
    settings.isMeantBy pattern = true ↔
      settings.fullPath = pattern ∨ toString settings.id = pattern := by
  rw [ProjectSettings.isMeantBy, Bool.or_eq_true, beq_iff_eq, beq_iff_eq]

/-- An entry is kept by the builder unless a pattern of the steps means it. -/
theorem Follows.kept_iff (follows : Follows steps builder) (settings : ProjectSettings) :
    (!builder.exclusions.any settings.isMeantBy) = true ↔ ¬ IsExcluded steps settings := by
  rw [Bool.not_eq_true', Bool.eq_false_iff, follows.patterns]
  refine not_congr (List.any_eq_true.trans (exists_congr fun pattern => and_congr_right fun _ => ?_))
  exact isMeantBy_iff settings pattern

/-- A project is in the registry with the settings that decide about it, unless these are
excluded. -/
theorem mem_build_iff (steps : List RegistryStep) (settings : ProjectSettings) :
    settings ∈ (builderOf steps).build ↔
      decisive? steps settings.id = some settings ∧ ¬ IsExcluded steps settings := by
  have follows := follows_builderOf steps
  rw [RegistryBuilder.build, List.mem_filter, follows.kept_iff]
  refine and_congr_left fun _ => ⟨follows.decides settings, fun decided => ?_⟩
  have known : settings.id ∈ (builderOf steps).entries.map (·.id) := by
    rw [follows.ids, List.mem_eraseDups, ← decisive?_isSome_iff, decided]
    rfl
  obtain ⟨entry, member, same⟩ := List.mem_map.mp known
  have decides := follows.decides entry member
  rw [same, decided] at decides
  rwa [Option.some_inj.mp decides]

/-- The registry keeps the order in which the projects became known. -/
theorem ids_build_sublist (steps : List RegistryStep) :
    ((builderOf steps).build.map (·.id)).Sublist (addedIds steps).eraseDups := by
  rw [← (follows_builderOf steps).ids]
  exact List.filter_sublist.map _

/-! ### Moved exclusions -/

/-- What a step makes of the entries depends on the entries only. -/
theorem entries_apply {other : RegistryBuilder} (same : builder.entries = other.entries)
    (step : RegistryStep) : (step.apply builder).entries = (step.apply other).entries := by
  have knows (id : Int) : builder.knows id = other.knows id := by
    rw [RegistryBuilder.knows, RegistryBuilder.knows, same]
  cases step with
  | listed settings =>
    simp only [RegistryStep.apply, RegistryBuilder.addFromNamespace, knows, same]
    split
    · exact same
    · rfl
  | configured settings =>
    simp only [RegistryStep.apply, RegistryBuilder.addExplicit, knows, same]
    split <;> rfl
  | excluded pattern => exact same

/-- The entries are those of the additions alone. -/
theorem entries_additions (steps : List RegistryStep) :
    (builderOf (additions steps)).entries = (builderOf steps).entries := by
  induction steps using List.reverseRecOn with
  | nil => rfl
  | append_singleton steps step inductionHypothesis =>
    rw [builderOf_concat, additions, List.filter_append, ← additions]
    cases step with
    | excluded pattern =>
      have nothing : additions steps ++ [] = additions steps := List.append_nil _
      exact (congrArg (RegistryBuilder.entries ∘ builderOf) nothing).trans inductionHypothesis
    | listed settings | configured settings =>
      exact (congrArg _ (builderOf_concat _ _)).trans (entries_apply inductionHypothesis _)

/-- Where the exclusions stand among the additions makes no difference. -/
theorem build_eq_of_moved {moved : List RegistryStep} (same : additions moved = additions steps)
    (perm : (patterns moved).Perm (patterns steps)) :
    (builderOf moved).build = (builderOf steps).build := by
  rw [RegistryBuilder.build, RegistryBuilder.build, ← entries_additions moved, same,
    entries_additions, (follows_builderOf moved).patterns, (follows_builderOf steps).patterns]
  refine List.filter_congr fun settings _ => congrArg _ (Bool.eq_iff_iff.mpr ?_)
  simp only [List.any_eq_true, perm.mem_iff]

end RegistryStep

open RegistryStep

/-- The registry has each project at most once. It has the settings that decide about a project,
which are the last ones configured for it or else the first ones it was listed with, unless they
are excluded by a pattern of any step; and for each project that was added some settings decide. The
projects stand in the order in which they were first added, and steps that make the same additions
and have the same exclusions elsewhere lead to the same registry. -/
theorem registry_follows_rule (steps : List RegistryStep) :
    ((builderOf steps).build.map (·.id)).Nodup ∧
    (∀ settings, settings ∈ (builderOf steps).build ↔
      decisive? steps settings.id = some settings ∧ ¬ IsExcluded steps settings) ∧
    (∀ id, (decisive? steps id).isSome = true ↔ id ∈ addedIds steps) ∧
    ((builderOf steps).build.map (·.id)).Sublist (addedIds steps).eraseDups ∧
    ∀ moved, additions moved = additions steps → (patterns moved).Perm (patterns steps) →
      (builderOf moved).build = (builderOf steps).build := by
  have inOrder := ids_build_sublist steps
  exact ⟨inOrder.nodup (nodup_eraseDups _), mem_build_iff steps, decisive?_isSome_iff steps,
    inOrder, fun _ => build_eq_of_moved⟩

namespace RegistryStep

/-- A project by its id and path. -/
def project (id : Int) (path : String) : ProjectSettings :=
  ⟨id, path, default, default⟩

/-- The first project is listed by a path that is excluded and configured by another one; the
second one is configured, and listed afterwards by a path that nothing excludes. -/
def mixedSteps : List RegistryStep :=
  [.listed (project 1 "g/old"), .configured (project 2 "h/x"), .excluded "g/old",
    .configured (project 1 "g/new"), .listed (project 2 "h/y"), .listed (project 3 "g/new"),
    .excluded "2"]

/-- The same with the exclusions at the front. -/
def movedSteps : List RegistryStep :=
  [.excluded "2", .excluded "g/old", .listed (project 1 "g/old"), .configured (project 2 "h/x"),
    .configured (project 1 "g/new"), .listed (project 2 "h/y"), .listed (project 3 "g/new")]

theorem mixedSteps_moved :
    additions movedSteps = additions mixedSteps ∧
      (patterns movedSteps).Perm (patterns mixedSteps) ∧
      (builderOf mixedSteps).build = [project 1 "g/new", project 3 "g/new"] ∧
      (builderOf movedSteps).build = (builderOf mixedSteps).build := by
  have same : additions movedSteps = additions mixedSteps := by decide +kernel
  have perm : (patterns movedSteps).Perm (patterns mixedSteps) := by decide +kernel
  have built : (builderOf mixedSteps).build = [project 1 "g/new", project 3 "g/new"] := by
    decide +kernel
  obtain ⟨_, _, _, _, moves⟩ := registry_follows_rule mixedSteps
  exact ⟨same, perm, built, moves movedSteps same perm⟩

end RegistryStep

end CiTelemetry
