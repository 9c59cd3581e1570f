/-
This file proves that the live loop neither skips an instant nor repeats one.
Each of its windows begins where the one before it ended and ends no earlier
than it begins, whatever the clock shows; so the windows tile everything from
the beginning of the first to the end of the last, and a project that was
updated at one instant is reported as updated in one window. The windows are
those that the loop goes through, whatever the replies to it are.
-/

import CiTelemetry.Proofs.InstantOrder
import CiTelemetry.Proofs.PageChains
import CiTelemetry.Sync.Loop
import Mathlib.Logic.ExistsUnique

namespace CiTelemetry

/-- The windows of the live loop from a first one on, one for every later reading of the clock. -/
def liveWindows (first : SyncWindow) (readings : List Instant) : List SyncWindow :=
  readings.scanl SyncWindow.advance first

namespace SyncWindow

variable {window first : SyncWindow} {instant : Instant}

/-- A window that does not end before it begins. -/
def IsOrdered (window : SyncWindow) : Prop :=
  window.start.notAfter window.finish = true

instance (window : SyncWindow) : Decidable window.IsOrdered :=
  inferInstanceAs (Decidable (_ = _))

theorem start_advance (window : SyncWindow) (now : Instant) :
    (window.advance now).start = window.finish := rfl

theorem isOrdered_advance (window : SyncWindow) (now : Instant) :
    (window.advance now).IsOrdered :=
  Instant.notAfter_latest_right now window.finish

theorem contains_iff :
    window.contains instant = true ↔
      window.start.notAfter instant = true ∧ instant.before window.finish = true :=
  Bool.and_eq_true_iff

end SyncWindow

namespace LiveWindows

open Dialogue (Held)

variable {first window : SyncWindow} {readings : List Instant} {instant : Instant}

theorem liveWindows_cons (first : SyncWindow) (now : Instant) (rest : List Instant) :
    liveWindows first (now :: rest) = first :: liveWindows (first.advance now) rest :=
  List.scanl_cons

/-- Each window begins where the one before it ended. -/
theorem start_eq_finish {place : Nat} {next : SyncWindow}
    (found : (liveWindows first readings)[place]? = some window)
    (follows : (liveWindows first readings)[place + 1]? = some next) :
    next.start = window.finish := by
  rw [liveWindows] at found follows
  rw [List.getElem?_succ_scanl, found] at follows
  obtain ⟨now, _, rfl⟩ := Option.map_eq_some_iff.mp follows
  rfl

/-- No window ends before it begins, and none begins before the first one. -/
theorem ordered_of_mem (ordered : first.IsOrdered)
    (member : window ∈ liveWindows first readings) :
    window.IsOrdered ∧ first.start.notAfter window.start = true := by
  induction readings generalizing first with
  | nil =>
    cases List.mem_singleton.mp member
    exact ⟨ordered, Instant.notAfter_refl _⟩
  | cons now rest inductionHypothesis =>
    rw [liveWindows_cons] at member
    rcases List.mem_cons.mp member with rfl | later
    · exact ⟨ordered, Instant.notAfter_refl _⟩
    · obtain ⟨isOrdered, after⟩ := inductionHypothesis (first.isOrdered_advance now) later
      exact ⟨isOrdered, Instant.notAfter_trans ordered after⟩

/-- The windows tile the time from the beginning of the first to the end of the last. -/
theorem existsUnique_window (ordered : first.IsOrdered)
    (above : first.start.notAfter instant = true)
    (below : instant.before (readings.foldl SyncWindow.advance first).finish = true) :
    ∃! place : Nat, ∃ window : SyncWindow,
      (liveWindows first readings)[place]? = some window ∧ window.contains instant = true := by
  induction readings generalizing first with
  | nil =>
    refine ⟨0, ⟨first, rfl, SyncWindow.contains_iff.mpr ⟨above, below⟩⟩, ?_⟩
    rintro place ⟨window, found, _⟩
    cases place with
    | zero => rfl
    | succ place => cases found
  | cons now rest inductionHypothesis =>
    have next := first.isOrdered_advance now
    rw [liveWindows_cons]
    cases isIn : instant.before first.finish with
    | true =>
      -- Even a window that is empty or begins where this one ends begins after the instant.
      refine ⟨0, ⟨first, rfl, SyncWindow.contains_iff.mpr ⟨above, isIn⟩⟩, ?_⟩
      rintro place ⟨window, found, contained⟩
      cases place with
      | zero => rfl
      | succ place =>
        have after := (ordered_of_mem next (List.mem_of_getElem? found)).2
        have early := Instant.notAfter_trans after (SyncWindow.contains_iff.mp contained).1
        rw [SyncWindow.start_advance, Instant.notAfter_iff_not_before, isIn] at early
        cases early
    | false =>
      have reached := Instant.notAfter_iff_not_before.mpr isIn
      obtain ⟨place, found, unique⟩ := inductionHypothesis next reached below
      refine ⟨place + 1, found, ?_⟩
      rintro other ⟨window, found', contained⟩
      cases other with
      | zero =>
        cases found'
        rw [SyncWindow.contains, isIn, Bool.and_false] at contained
        cases contained
      | succ other => exact congrArg (· + 1) (unique other ⟨window, found', contained⟩)

/-! ### The windows of the loop -/

section Loop

variable (context : SyncContext) (settings : SyncSettings) (registry : Registry)

/-- How the live loop goes: it processes all projects for one window after another, each after a
reading of the clock, until it is cancelled or cut off. -/
inductive Processes : Bool → List SyncWindow → List (Turn Action Action.Reply) → Prop
  | cutOff {everything : Bool} : Processes everything [] []
  | cancelled {everything : Bool} : Processes everything [] [⟨.isCancelled, true⟩]
  | last {everything : Bool} {window : SyncWindow} {turns : List (Turn Action Action.Reply)}
      {outcome : Option (Outcome Unit)} (now : Instant)
      (processed : Held (processBatches context (registry.batches settings.batchSize fun _ => true)
        window everything) turns outcome)
      (stops : outcome = none ∨ outcome = some (.error .cancelled)) :
    Processes everything [window] (⟨.isCancelled, false⟩ :: ⟨.now, now⟩ :: turns)
  | turn {everything : Bool} {window : SyncWindow} {windows : List SyncWindow}
      {turns rest : List (Turn Action Action.Reply)} {outcome : Outcome Unit} (now : Instant)
      (processed : Held (processBatches context (registry.batches settings.batchSize fun _ => true)
        window everything) turns (some outcome))
      (goesOn : outcome ≠ .error .cancelled) (later : Processes false windows rest) :
    Processes everything (window :: windows) (⟨.isCancelled, false⟩ :: ⟨.now, now⟩ ::
      (turns ++ ⟨.waitUntil (now.add (spanOfMillis settings.interval)), ()⟩ :: rest))

variable {context settings registry} {previous : Option SyncWindow}
  {turns : List (Turn Action Action.Reply)}

/-- What one turn of the loop came to. -/
theorem processed_of_liveTurn {now : Instant} {result : Option (Option SyncWindow)}
    (held : Held (liveTurn context settings registry previous now) turns result) :
    ∃ outcome, Held (processBatches context (registry.batches settings.batchSize fun _ => true)
      (liveWindow settings previous now) previous.isNone) turns outcome ∧
        (outcome = none ∧ result = none ∨
          outcome = some (.error .cancelled) ∧ result = some none ∨
          ∃ known, outcome = some known ∧ known ≠ .error .cancelled ∧
            result = some (some (liveWindow settings previous now))) := by
  rcases Held.of_bind held with ⟨rfl, stopped⟩ | ⟨outcome, first, second, rfl, processed, after⟩
  · exact ⟨none, stopped, .inl ⟨rfl, rfl⟩⟩
  · refine ⟨some outcome, ?_⟩
    split at after
    · cases after
      rw [List.append_nil]
      exact ⟨processed, .inr (.inl ⟨rfl, rfl⟩)⟩
    · next other =>
      cases after
      rw [List.append_nil]
      exact ⟨processed, .inr (.inr ⟨outcome, rfl, other, rfl⟩)⟩

/-- Whatever the replies are, the windows that the loop goes through are live windows from its
first one on. -/
theorem processes_of_runLive {allowance : Nat} {result : Option Unit}
    (held : Held (runLive context settings registry allowance previous) turns result) :
    ∃ windows, Processes context settings registry previous.isNone windows turns ∧
      (windows = [] ∨
        ∃ now readings, windows = liveWindows (liveWindow settings previous now) readings) := by
  induction allowance generalizing previous turns with
  | zero =>
    cases held
    exact ⟨[], .cutOff, .inl rfl⟩
  | succ allowance inductionHypothesis =>
    cases held with
    | ask isCancelled after =>
      cases isCancelled with
      | true =>
        cases after
        exact ⟨[], .cancelled, .inl rfl⟩
      | false =>
        cases after with
        | ask now after =>
          dsimp only [Dialogue.done_bind] at after
          rcases Held.of_bind after with
            ⟨rfl, stopped⟩ | ⟨window?, first, second, rfl, former, latter⟩
          · obtain ⟨outcome, processed, ended⟩ := processed_of_liveTurn stopped
            refine ⟨[_], .last now processed ?_, .inr ⟨now, [], rfl⟩⟩
            rcases ended with ⟨rfl, _⟩ | ⟨_, same⟩ | ⟨_, _, _, same⟩
            · exact .inl rfl
            · cases same
            · cases same
          · obtain ⟨outcome, processed, ended⟩ := processed_of_liveTurn former
            rcases ended with ⟨_, same⟩ | ⟨rfl, same⟩ | ⟨known, rfl, goesOn, same⟩
            · cases same
            · cases same
              cases latter
              rw [List.append_nil]
              exact ⟨[_], .last now processed (.inr rfl), .inr ⟨now, [], rfl⟩⟩
            · cases same
              cases latter with
              | ask _ later =>
                obtain ⟨windows, others, live⟩ := inductionHypothesis later
                refine ⟨_ :: windows, .turn now processed goesOn others, .inr ⟨now, ?_⟩⟩
                rcases live with rfl | ⟨now', readings, rfl⟩
                · exact ⟨[], rfl⟩
                · exact ⟨now' :: readings, (liveWindows_cons _ now' readings).symm⟩

/-- With an interval between the turns, every turn has a window that does not end before it
begins. -/
theorem isOrdered_liveWindow {now : Instant} (real : now.IsReal)
    (positive : 0 < spanOfMillis settings.interval) :
    (liveWindow settings previous now).IsOrdered := by
  cases previous with
  | none => exact Instant.notAfter_of_before (Instant.back_before real positive).1
  | some window => exact window.isOrdered_advance now

end Loop

/-! ### The projects that are reported as updated -/

/-- A fetch of the changes in a window returned this, whatever the replies to it were. -/
def Fetches (allowance : Nat) (ids : List Int) (window : SyncWindow)
    (collected : Collected ProjectChanges) : Prop :=
  ∃ turns, Held (fetchProjectChanges allowance ids window).run turns (some (.ok collected))

/-- A project was updated at this instant, be it by an activity, and at no other. -/
def UpdatedOnlyAt (instant : Instant) (project : Project) : Prop :=
  (project.updatedAt = some instant ∨ project.lastActivityAt = some instant) ∧
    ∀ other, project.updatedAt = some other ∨ project.lastActivityAt = some other →
      other = instant

/-- A project is among the changes, and whatever they say of it names one instant. -/
def Names (instant : Instant) (id : Int) (collected : Collected ProjectChanges) : Prop :=
  (∃ changes ∈ collected.values, changes.project.id = id) ∧
    ∀ changes ∈ collected.values, changes.project.id = id → UpdatedOnlyAt instant changes.project

/-- A project is reported as updated. -/
def Flags (id : Int) (collected : Collected ProjectChanges) : Prop :=
  ∃ changes ∈ collected.values, changes.project.id = id ∧ changes.updated = true

variable {allowance : Nat} {ids : List Int} {id : Int} {collected : Collected ProjectChanges}

theorem wasUpdated_iff {project : Project} :
    ProjectChangesNode.wasUpdated project window = true ↔
      ∃ instant, (project.updatedAt = some instant ∨ project.lastActivityAt = some instant) ∧
        window.contains instant = true := by
  rw [ProjectChangesNode.wasUpdated]
  cases project.updatedAt <;> cases project.lastActivityAt <;> simp [or_and_right, exists_or]

/-- Every project of a fetch is marked by whether it was updated in the window. -/
theorem Fetches.updated_eq (fetched : Fetches allowance ids window collected)
    {changes : ProjectChanges} (member : changes ∈ collected.values) :
    changes.updated = ProjectChangesNode.wasUpdated changes.project window := by
  obtain ⟨turns, held⟩ := fetched
  unfold fetchProjectChanges at held
  split at held
  · cases held
    cases member
  · obtain ⟨nodes, _, _, _, _, returned⟩ := Attempt.held_bind_ok held
    cases returned
    obtain ⟨node, _, converts⟩ := List.mem_filterMap.mp member
    rw [ProjectChangesNode.toChanges] at converts
    cases found : node.toProject with
    | error =>
      rw [found] at converts
      cases converts
    | ok project =>
      rw [found] at converts
      cases converts
      rfl

/-- A project with one update instant is reported as updated where the window contains it. -/
theorem Fetches.flags_iff (fetched : Fetches allowance ids window collected)
    (names : Names instant id collected) :
    Flags id collected ↔ window.contains instant = true := by
  obtain ⟨⟨changes, member, same⟩, only⟩ := names
  constructor
  · rintro ⟨changes', member', same', updated⟩
    rw [fetched.updated_eq member', wasUpdated_iff] at updated
    obtain ⟨other, isAt, contained⟩ := updated
    rwa [(only changes' member' same').2 other isAt] at contained
  · intro contained
    refine ⟨changes, member, same, ?_⟩
    rw [fetched.updated_eq member, wasUpdated_iff]
    exact ⟨instant, (only changes member same).1, contained⟩

/-- Lists that correspond have what corresponds at the same places. -/
theorem exists_getElem?_iff {α β : Type} {related : α → β → Prop} {left : List α} {right : List β}
    (corresponding : List.Forall₂ related left right) {isLeft : α → Prop} {isRight : β → Prop}
    (same : ∀ former, ∀ latter ∈ right, related former latter → (isLeft former ↔ isRight latter))
    (place : Nat) :
    (∃ former, left[place]? = some former ∧ isLeft former) ↔
      ∃ latter, right[place]? = some latter ∧ isRight latter := by
  induction corresponding generalizing place with
  | nil => simp only [List.getElem?_nil, reduceCtorEq, false_and, exists_false]
  | @cons former latter _ _ isRelated _ inductionHypothesis =>
    cases place with
    | zero =>
      have agree := same former latter List.mem_cons_self isRelated
      simpa only [List.getElem?_cons_zero, Option.some_inj, exists_eq_left'] using agree
    | succ place =>
      exact inductionHypothesis
        (fun other other' member => same other other' (List.mem_cons_of_mem _ member)) place

/-- A project with one update instant is reported as updated once. -/
theorem existsUnique_flag {windows : List SyncWindow}
    {fetched : List (Collected ProjectChanges)}
    (each : List.Forall₂ (Fetches allowance ids) windows fetched)
    (names : ∀ collected ∈ fetched, Names instant id collected)
    (once : ∃! place : Nat, ∃ window : SyncWindow,
      windows[place]? = some window ∧ window.contains instant = true) :
    ∃! place : Nat, ∃ collected, fetched[place]? = some collected ∧ Flags id collected := by
  refine (existsUnique_congr fun place => ?_).mp once
  refine exists_getElem?_iff each (fun window collected member isFetched => ?_) place
  exact (isFetched.flags_iff (names collected member)).symm

/-- The pages of projects with their changes within a window. -/
abbrev changesTable (answers : FixedReplies) (ids : List Int) (window : SyncWindow) :
    PageTable ProjectChangesNode :=
  fun cursor => answers (.query (.projectChanges ids window cursor))

/-- A server whose pages come to an end lets the fetch return what is on them. -/
theorem fetches_of_chain {answers : FixedReplies} {pages : List (Page ProjectChangesNode)}
    (asked : ids ≠ []) (chain : PageChain (changesTable answers ids window) none pages)
    (enough : pages.length < allowance) :
    Fetches allowance ids window
      (.ofValues (converted (ProjectChangesNode.toChanges window) (allItems pages))) := by
  have walked : Attempt.value? answers (Paginator.collect
      (fun cursor => Fetch.query (.projectChanges ids window cursor)) allowance .start) =
        some (.ok (allItems pages)) :=
    Paginator.collect_of_chain (fun _ => Fetch.value?_query _ _) chain enough
  have returned : Attempt.value? answers (fetchProjectChanges allowance ids window) = some
      (.ok (.ofValues (converted (ProjectChangesNode.toChanges window) (allItems pages)))) := by
    unfold fetchProjectChanges
    rw [if_neg (fun isEmpty => asked (List.isEmpty_iff.mp isEmpty)),
      Attempt.value?_bind_ok walked]
    rfl
  rw [Attempt.value?, Dialogue.value?_eq_run _ _ ()] at returned
  rw [Fetches, ← returned]
  exact ⟨_, Dialogue.held_transcript _ _ ()⟩

end LiveWindows

open LiveWindows

/-- Live windows follow one another without a gap, whatever the clock shows, and none ends before it
begins. Every instant from the beginning of the first to the end of the last is in one of them, and
whatever the fetches of the windows return, a project that was updated only then is reported as
updated by one. A fetch returns where the pages of the server come to an end. -/
theorem liveWindows_cover_once {first : SyncWindow} (ordered : first.IsOrdered)
    (readings : List Instant) :
    (∀ place window next, (liveWindows first readings)[place]? = some window →
      (liveWindows first readings)[place + 1]? = some next → next.start = window.finish) ∧
    (∀ window ∈ liveWindows first readings, window.IsOrdered) ∧
    (∀ last ∈ (liveWindows first readings).getLast?, ∀ instant,
      first.start.notAfter instant = true → instant.before last.finish = true →
        (∃! place : Nat, ∃ window : SyncWindow,
          (liveWindows first readings)[place]? = some window ∧ window.contains instant = true) ∧
        ∀ allowance ids id fetched,
          List.Forall₂ (Fetches allowance ids) (liveWindows first readings) fetched →
          (∀ collected ∈ fetched, Names instant id collected) →
            ∃! place : Nat, ∃ collected, fetched[place]? = some collected ∧ Flags id collected) ∧
    ∀ (answers : FixedReplies) (allowance : Nat) (ids : List Int) (window : SyncWindow) pages,
      ids ≠ [] → PageChain (changesTable answers ids window) none pages →
        pages.length < allowance →
          Fetches allowance ids window
            (.ofValues (converted (ProjectChangesNode.toChanges window) (allItems pages))) := by
  refine ⟨fun _ _ _ => start_eq_finish, fun _ member => (ordered_of_mem ordered member).1, ?_,
    fun _ _ _ _ _ => fetches_of_chain⟩
  intro last isLast instant above below
  rw [liveWindows, List.getLast?_scanl, Option.mem_some_iff] at isLast
  subst isLast
  have once := existsUnique_window ordered above below
  exact ⟨once, fun _ _ _ _ each names => existsUnique_flag each names once⟩

namespace LiveWindows

/-! ### A clock that goes backward -/

/-- A project that was updated in the twentieth second. -/
def updatedNode : ProjectChangesNode :=
  { (default : ProjectChangesNode) with
    id := "gid://gitlab/Project/7", updatedAt := some ⟨20, 0⟩ }

/-- A server that knows one project. -/
def oneProject : FixedReplies
  | .query (.projectChanges ..) => .ok (.last [updatedNode])
  | op => FixedReplies.nothing op

/-- What a fetch of the changes in a window returns there. -/
def fetchedIn (window : SyncWindow) : Collected ProjectChanges :=
  .ofValues (converted (ProjectChangesNode.toChanges window) [updatedNode])

/-- The record of its project. -/
def updatedProject : Project :=
  { (default : Project) with id := 7, updatedAt := some ⟨20, 0⟩ }

theorem values_fetchedIn (window : SyncWindow) :
    (fetchedIn window).values =
      [⟨updatedProject, ProjectChangesNode.wasUpdated updatedProject window, 0, 0⟩] := by
  have converts : updatedNode.toProject = .ok updatedProject := by rfl
  rw [fetchedIn, Collected.ofValues, converted, List.filterMap_cons, ProjectChangesNode.toChanges,
    converts]
  rfl

/-- Three windows begin at the instant of the update, two of them empty since the clock went
backward; the project is reported in one of the three. -/
theorem backwardClock_covers_once :
    SyncWindow.IsOrdered ⟨⟨0, 0⟩, ⟨10, 0⟩⟩ ∧
      liveWindows ⟨⟨0, 0⟩, ⟨10, 0⟩⟩ [⟨20, 0⟩, ⟨5, 0⟩, ⟨15, 0⟩, ⟨30, 0⟩] =
        [⟨⟨0, 0⟩, ⟨10, 0⟩⟩, ⟨⟨10, 0⟩, ⟨20, 0⟩⟩, ⟨⟨20, 0⟩, ⟨20, 0⟩⟩, ⟨⟨20, 0⟩, ⟨20, 0⟩⟩,
          ⟨⟨20, 0⟩, ⟨30, 0⟩⟩] ∧
      ∃! place : Nat, ∃ collected,
        ((liveWindows ⟨⟨0, 0⟩, ⟨10, 0⟩⟩ [⟨20, 0⟩, ⟨5, 0⟩, ⟨15, 0⟩, ⟨30, 0⟩]).map
          fetchedIn)[place]? = some collected ∧ Flags 7 collected := by
  have ordered : SyncWindow.IsOrdered ⟨⟨0, 0⟩, ⟨10, 0⟩⟩ := by decide
  obtain ⟨_, _, covers, fetches⟩ :=
    liveWindows_cover_once ordered [⟨20, 0⟩, ⟨5, 0⟩, ⟨15, 0⟩, ⟨30, 0⟩]
  refine ⟨ordered, by decide, ?_⟩
  refine (covers ⟨⟨20, 0⟩, ⟨30, 0⟩⟩ (by decide) ⟨20, 0⟩ (by decide) (by decide)).2 2 [7] 7 _ ?_ ?_
  · refine List.forall₂_map_right_iff.mpr (List.forall₂_same.mpr fun window _ => ?_)
    exact fetches oneProject 2 [7] window [.last [updatedNode]] (by decide) (.last rfl rfl)
      (by decide)
  · intro collected member
    obtain ⟨window, _, rfl⟩ := List.mem_map.mp member
    rw [Names, values_fetchedIn]
    refine ⟨⟨_, List.mem_singleton_self _, rfl⟩, fun changes isIn _ => ?_⟩
    cases List.mem_singleton.mp isIn
    refine ⟨.inl rfl, ?_⟩
    rintro other (same | same)
    · exact (Option.some.inj same).symm
    · cases same

end LiveWindows

end CiTelemetry
