/-
This file proves that a walk over pages neither skips nor repeats one, whatever
fails on the way. The caller of a walk may ask for the next page as often as it
likes; each fetch that this leads to may fail or bring any page at all, also
another one for the same cursor. Which cursor is asked for next depends on the
pages that came, and not on the failures between them.
-/

import CiTelemetry.Proofs.CallOrder

namespace CiTelemetry

variable {α : Type}

/-! ### Asking for the next page -/

/-- What a request for the next page is answered with: the items of a page, nothing where the walk
is over, or a failure. -/
abbrev PageAnswer (α : Type) := Outcome (Option (List α))

section Requests

variable {Op : Type} {Reply : Op → Type}

namespace Paginator

/-- What the caller of a walk has after a step of it: the walk after a page, and otherwise the one
from before. -/
def keep (paginator : Paginator) :
    Outcome (Option (List α × Paginator)) → PageAnswer α × Paginator
  | .ok (some (items, rest)) => (.ok (some items), rest)
  | .ok none => (.ok none, paginator)
  | .error error => (.error error, paginator)

/-- The answers to a number of requests for the next page, whatever each of them comes to. -/
def nextPages (source : PageSource Op Reply α) : (count : Nat) → (paginator : Paginator) →
    Dialogue Op Reply (List (PageAnswer α) × Paginator)
  | 0, paginator => pure ([], paginator)
  | count + 1, paginator => do
    let (answer, walk) := paginator.keep (← (next? source paginator).run)
    let (others, last) ← nextPages source count walk
    pure (answer :: others, last)

/-- A walk that is over fetches nothing. -/
theorem nextPages_done (source : PageSource Op Reply α) (count : Nat) (cursor : Option String) :
    nextPages source (count + 1) ⟨cursor, true⟩ =
      (nextPages source count ⟨cursor, true⟩).bind fun others =>
        .done (.ok none :: others.1, others.2) := rfl

/-- Another walk fetches the page at its cursor. -/
theorem nextPages_step (source : PageSource Op Reply α) (count : Nat) (cursor : Option String) :
    nextPages source (count + 1) ⟨cursor, false⟩ = (source cursor).run.bind fun outcome =>
      match outcome with
      | .ok page =>
        (nextPages source count (after ⟨cursor, false⟩ page)).bind fun others =>
          .done (.ok (some page.items) :: others.1, others.2)
      | .error error =>
        (nextPages source count ⟨cursor, false⟩).bind fun others =>
          .done (.error error :: others.1, others.2) := by
  refine (Dialogue.bind_bind _ _ _).trans (congrArg (Dialogue.bind _) (funext fun outcome => ?_))
  cases outcome <;> rfl

end Paginator

/-! ### Walks that are changed in place -/

/-- Steps that change a walk in place. What a step did before it fails stays done. -/
abbrev WalkSteps (Op : Type) (Reply : Op → Type) (α : Type) :=
  ExceptT SyncError (StateT Paginator (Dialogue Op Reply)) α

/-- Fetches a page, which leaves the walk alone. -/
def WalkSteps.fetch (attempt : Attempt Op Reply α) : WalkSteps Op Reply α :=
  ExceptT.mk (StateT.lift attempt.run)

namespace Paginator

/-- Changes the one field of a walk that a page changes, and gives the items of the page. -/
def moveOn (page : Page α) : WalkSteps Op Reply (Option (List α)) := do
  match page.nextCursor? with
  | some cursor => modify fun paginator => { paginator with cursor := some cursor }
  | none => modify fun paginator => { paginator with isDone := true }
  pure (some page.items)

/-- The items of the next page of a walk that is changed in place. -/
def nextPage (source : PageSource Op Reply α) : WalkSteps Op Reply (Option (List α)) := do
  let paginator ← get
  if paginator.isDone then pure none
  else do
    let page ← WalkSteps.fetch (source paginator.cursor)
    moveOn page

theorem run_moveOn (page : Page α) (paginator : Paginator) :
    (moveOn page : WalkSteps Op Reply _).run.run paginator =
      .done (.ok (some page.items), paginator.after page) := by
  unfold moveOn after
  cases page.nextCursor? <;> rfl

/-- Changing a walk in place comes to what its caller keeps. -/
theorem run_nextPage (source : PageSource Op Reply α) (paginator : Paginator) :
    (nextPage source).run.run paginator =
      (next? source paginator).run.bind fun outcome => .done (paginator.keep outcome) := by
  obtain ⟨cursor, isDone⟩ := paginator
  cases isDone with
  | true => rfl
  | false =>
    show (WalkSteps.fetch (source cursor) >>= moveOn).run.run ⟨cursor, false⟩ = _
    refine (Dialogue.bind_bind _ _ _).trans (Eq.trans ?_ (Dialogue.bind_bind _ _ _).symm)
    refine congrArg (Dialogue.bind _) (funext fun outcome => ?_)
    cases outcome with
    | error error => rfl
    | ok page => exact run_moveOn page ⟨cursor, false⟩

/-- A step that fails leaves the walk as it was. -/
theorem eq_of_nextPage_error {source : PageSource Op Reply α} {paginator walk : Paginator}
    {turns : List (Turn Op Reply)} {error : SyncError}
    (held : Dialogue.Held ((nextPage source).run.run paginator) turns (some (.error error, walk))) :
    walk = paginator := by
  rw [run_nextPage] at held
  obtain ⟨before, _, same⟩ := Dialogue.Held.of_bind_done _ held
  rcases before with - | error | - | ⟨items, rest⟩ <;> cases same
  -- Only the failure is left: neither a page nor the end of the walk is kept as one.
  rfl

end Paginator

end Requests

/-! ### The fetches of a walk -/

/-- A fetch of a page: the cursor that it was made with, and what came of it. -/
abbrev PageFetch (α : Type) := Turn (Option String) fun _ => Outcome (Page α)

/-- What a request for the next page is answered with after a fetch. -/
def PageFetch.answer (fetch : PageFetch α) : PageAnswer α :=
  fetch.reply.map fun page => some page.items

/-- Pages of which nothing is known: each fetch is a question, and its reply may be anything. -/
def anyPages : PageSource (Option String) (fun _ => Outcome (Page α)) α :=
  fun cursor => ExceptT.mk (Dialogue.question cursor)

/-- The pages that came, in order. -/
def pagesOf (fetches : List (PageFetch α)) : List (Page α) :=
  fetches.filterMap (·.reply.toOption)

/-- The failures, in order. -/
def failuresOf (fetches : List (PageFetch α)) : List SyncError :=
  fetches.filterMap (·.reply.failure?)

@[simp]
theorem pagesOf_nil : pagesOf ([] : List (PageFetch α)) = [] := rfl

@[simp]
theorem pagesOf_failed (cursor : Option String) (error : SyncError)
    (fetches : List (PageFetch α)) :
    pagesOf (⟨cursor, .error error⟩ :: fetches) = pagesOf fetches := rfl

@[simp]
theorem pagesOf_page (cursor : Option String) (page : Page α) (fetches : List (PageFetch α)) :
    pagesOf (⟨cursor, .ok page⟩ :: fetches) = page :: pagesOf fetches := rfl

@[simp]
theorem failuresOf_nil : failuresOf ([] : List (PageFetch α)) = [] := rfl

@[simp]
theorem failuresOf_failed (cursor : Option String) (error : SyncError)
    (fetches : List (PageFetch α)) :
    failuresOf (⟨cursor, .error error⟩ :: fetches) = error :: failuresOf fetches := rfl

@[simp]
theorem failuresOf_page (cursor : Option String) (page : Page α) (fetches : List (PageFetch α)) :
    failuresOf (⟨cursor, .ok page⟩ :: fetches) = failuresOf fetches := rfl

/-- The cursor that a walk goes on with after some pages: that which the last of them names, which
may be none, and the one that the walk was started with before any page. -/
def cursorAfter (start : Option String) (pages : List (Page α)) : Option (Option String) :=
  match pages.getLast? with
  | some page => page.nextCursor?.map some
  | none => some start

theorem cursorAfter_cons {page : Page α} {next : String} (continues : page.nextCursor? = some next)
    (start : Option String) (pages : List (Page α)) :
    cursorAfter start (page :: pages) = cursorAfter (some next) pages := by
  cases pages with
  | nil => simp [cursorAfter, continues]
  | cons second pages => simp [cursorAfter, List.getLast?_cons]

namespace Paginator

/-- The fetches that a number of requests for the next page may lead to: one each, until the walk is
over. A page moves the walk on, and a failure does not. -/
inductive Fetches : Nat → Paginator → List (PageFetch α) → Prop
  | enough (paginator : Paginator) : Fetches 0 paginator []
  | finished (count : Nat) (cursor : Option String) : Fetches count ⟨cursor, true⟩ []
  | failed {count : Nat} {cursor : Option String} {later : List (PageFetch α)} (error : SyncError)
      (others : Fetches count ⟨cursor, false⟩ later) :
      Fetches (count + 1) ⟨cursor, false⟩ (⟨cursor, .error error⟩ :: later)
  | page {count : Nat} {cursor : Option String} {later : List (PageFetch α)} (page : Page α)
      (others : Fetches count (after ⟨cursor, false⟩ page) later) :
      Fetches (count + 1) ⟨cursor, false⟩ (⟨cursor, .ok page⟩ :: later)

open Dialogue

variable {count : Nat} {paginator : Paginator} {fetches : List (PageFetch α)}

/-- The answers to a number of requests for the next page, given their fetches: one for each fetch,
and nothing once there are no more. -/
def answers (count : Nat) (fetches : List (PageFetch α)) : List (PageAnswer α) :=
  fetches.map PageFetch.answer ++ List.replicate (count - fetches.length) (.ok none)

@[simp]
theorem answers_cons (count : Nat) (fetch : PageFetch α) (fetches : List (PageFetch α)) :
    answers (count + 1) (fetch :: fetches) = fetch.answer :: answers count fetches := by
  simp [answers]

@[simp]
theorem answers_nil (count : Nat) :
    (answers (count + 1) [] : List (PageAnswer α)) = .ok none :: answers count [] := rfl

/-- What requests for the next page come to is told from their fetches. -/
theorem fetches_of_held {result : Option (List (PageAnswer α) × Paginator)}
    (held : Held (nextPages anyPages count paginator) fetches result) :
    Fetches count paginator fetches ∧
      result = some (answers count fetches, (pagesOf fetches).foldl after paginator) := by
  induction count generalizing paginator fetches result with
  | zero =>
    cases held
    exact ⟨.enough paginator, rfl⟩
  | succ count inductionHypothesis =>
    obtain ⟨cursor, isDone⟩ := paginator
    cases isDone with
    | true =>
      rw [nextPages_done] at held
      obtain ⟨others, later, rfl⟩ := Held.of_bind_done _ held
      obtain ⟨isFetches, rfl⟩ := inductionHypothesis later
      cases isFetches with
      | enough => exact ⟨.finished _ _, rfl⟩
      | finished => exact ⟨.finished _ _, rfl⟩
    | false =>
      rw [nextPages_step] at held
      cases held with
      | ask reply held =>
        cases reply with
        | error error =>
          obtain ⟨others, later, rfl⟩ := Held.of_bind_done _ held
          obtain ⟨isFetches, rfl⟩ := inductionHypothesis later
          refine ⟨.failed error isFetches, ?_⟩
          simp [PageFetch.answer, Except.map]
        | ok page =>
          obtain ⟨others, later, rfl⟩ := Held.of_bind_done _ held
          obtain ⟨isFetches, rfl⟩ := inductionHypothesis later
          refine ⟨.page page isFetches, ?_⟩
          simp [PageFetch.answer, Except.map]

/-! ### Which cursors are asked for -/

namespace Fetches

theorem length_le (isFetches : Fetches count paginator fetches) : fetches.length ≤ count := by
  induction isFetches with
  | enough => exact Nat.le_refl 0
  | finished => exact Nat.zero_le _
  | failed _ _ inductionHypothesis => exact Nat.succ_le_succ inductionHypothesis
  | page _ _ inductionHypothesis => exact Nat.succ_le_succ inductionHypothesis

/-- A fetch asks for the page that the last page before it names, or for the one that the walk
starts with. -/
theorem asked (isFetches : Fetches count paginator fetches) {before later : List (PageFetch α)}
    {fetch : PageFetch α} (found : fetches = before ++ fetch :: later) :
    paginator.isDone = false ∧
      cursorAfter paginator.cursor (pagesOf before) = some fetch.asked := by
  induction isFetches generalizing before with
  | enough => simp at found
  | finished => simp at found
  | failed error _ inductionHypothesis =>
    cases before with
    | nil =>
      cases found
      exact ⟨rfl, rfl⟩
    | cons first before =>
      cases found
      -- A failure is not among the pages before the fetch, and leaves the walk where it was.
      have goesOn := inductionHypothesis rfl
      exact goesOn
  | @page _ cursor _ page _ inductionHypothesis =>
    cases before with
    | nil =>
      cases found
      exact ⟨rfl, rfl⟩
    | cons first before =>
      cases found
      have goesOn := inductionHypothesis rfl
      cases continues : page.nextCursor? with
      | none =>
        rw [after_none continues] at goesOn
        cases goesOn.1
      | some next =>
        rw [after_some continues] at goesOn
        rw [pagesOf_page, cursorAfter_cons continues]
        exact ⟨rfl, goesOn.2⟩

/-- Where there were fewer fetches than requests, the last page names no other. -/
theorem ended (isFetches : Fetches count paginator fetches) (fewer : fetches.length < count) :
    paginator.isDone = true ∨ cursorAfter paginator.cursor (pagesOf fetches) = none := by
  induction isFetches with
  | enough => cases fewer
  | finished => exact .inl rfl
  | failed _ _ inductionHypothesis => exact inductionHypothesis (Nat.lt_of_succ_lt_succ fewer)
  | @page _ cursor _ page others inductionHypothesis =>
    refine .inr ?_
    have ended := inductionHypothesis (Nat.lt_of_succ_lt_succ fewer)
    cases continues : page.nextCursor? with
    | none =>
      rw [after_none continues] at others
      cases others <;> simp [cursorAfter, continues]
    | some next =>
      rw [after_some continues] at ended
      rw [pagesOf_page, cursorAfter_cons continues]
      exact ended.resolve_left Bool.false_ne_true

end Fetches

/-! ### Pages that depend on the cursor only -/

section Chain

variable (pageAt : Option String → Page α)

/-- The first pages of the chain from a cursor on, fewer if it ends before. -/
def chain : (count : Nat) → (cursor : Option String) → List (Page α)
  | 0, _ => []
  | count + 1, cursor =>
    pageAt cursor ::
      match (pageAt cursor).nextCursor? with
      | some next => chain count (some next)
      | none => []

/-- The pages of the chain from one cursor on up to another one. -/
inductive PagesUpTo : Option String → List (Page α) → Option String → Prop
  | none (cursor : Option String) : PagesUpTo cursor [] cursor
  | more {cursor last : Option String} {next : String} {pages : List (Page α)}
      (continues : (pageAt cursor).nextCursor? = some next)
      (others : PagesUpTo (some next) pages last) : PagesUpTo cursor (pageAt cursor :: pages) last

variable {pageAt}

/-- A chain goes on from each of its cursors. -/
theorem chain_eq_append {first cursor : Option String} {seen : List (Page α)}
    (upTo : PagesUpTo pageAt first seen cursor) (count : Nat) :
    chain pageAt (seen.length + count) first = seen ++ chain pageAt count cursor := by
  induction upTo with
  | none => rw [List.length_nil, Nat.zero_add, List.nil_append]
  | more continues _ inductionHypothesis =>
    rw [List.length_cons, Nat.add_right_comm, chain, continues, List.cons_append]
    exact congrArg (_ :: ·) inductionHypothesis

theorem Fetches.failures_le (isFetches : Fetches count paginator fetches) :
    (failuresOf fetches).length ≤ count :=
  Nat.le_trans (List.length_filterMap_le _ _) isFetches.length_le

/-- The pages that come are the first ones of the chain, as many as requests did not fail. -/
theorem Fetches.pagesOf_eq (isFetches : Fetches count paginator fetches)
    (same : ∀ fetch ∈ fetches, ∀ page, fetch.reply = .ok page → page = pageAt fetch.asked) :
    pagesOf fetches = if paginator.isDone then [] else
      chain pageAt (count - (failuresOf fetches).length) paginator.cursor := by
  induction isFetches with
  | enough => simp [chain]
  | finished => rfl
  | failed error _ inductionHypothesis =>
    rw [pagesOf_failed, failuresOf_failed, List.length_cons, Nat.add_sub_add_right]
    exact inductionHypothesis (List.forall_mem_cons.mp same).2
  | @page count cursor later page others inductionHypothesis =>
    obtain ⟨own, sameLater⟩ := List.forall_mem_cons.mp same
    obtain rfl : page = pageAt cursor := own page rfl
    rw [pagesOf_page, failuresOf_page, inductionHypothesis sameLater,
      Nat.succ_sub others.failures_le, chain]
    cases continues : (pageAt cursor).nextCursor? with
    | none => simp [after_none continues]
    | some next => simp [after_some continues]

end Chain

end Paginator

open Paginator Dialogue

/-- A walk over pages neither skips nor repeats one, whatever the fetches come to. Changed in place,
it is what its caller keeps after the step that gives a new walk, and a request that fails leaves it
as it was. Each fetch is made with the cursor that the last page before it names, or with that of
the start, and there is a fetch for each request until a page names no other; from then on there is
nothing, and no fetch. If the pages depend on their cursors only, the pages that come are the chain
from the start on, one for each request that did not fail; together with the pages of a chain up to
the start they are the chain from where that one begins. -/
theorem nextPages_follow_chain {count : Nat} {start : Option String} {fetches : List (PageFetch α)}
    {result : Option (List (PageAnswer α) × Paginator)}
    (held : Held (nextPages anyPages count (.resume start)) fetches result) :
    (∀ (source : PageSource (Option String) (fun _ => Outcome (Page α)) α) paginator,
      (nextPage source).run.run paginator =
        (next? source paginator).run.bind fun outcome => .done (paginator.keep outcome)) ∧
    (∀ paginator (fetched : List (PageFetch α)) error walk,
      Held ((nextPage anyPages).run.run paginator) fetched (some (.error error, walk)) →
        walk = paginator) ∧
    result = some (answers count fetches, (pagesOf fetches).foldl after (.resume start)) ∧
    (∀ before fetch later, fetches = before ++ fetch :: later →
      cursorAfter start (pagesOf before) = some fetch.asked) ∧
    fetches.length ≤ count ∧
    (fetches.length < count → cursorAfter start (pagesOf fetches) = none) ∧
    ∀ pageAt : Option String → Page α,
      (∀ fetch ∈ fetches, ∀ page, fetch.reply = .ok page → page = pageAt fetch.asked) →
      ∀ first seen, PagesUpTo pageAt first seen start →
        seen ++ pagesOf fetches =
          chain pageAt (seen.length + (count - (failuresOf fetches).length)) first := by
  obtain ⟨isFetches, rfl⟩ := fetches_of_held held
  refine ⟨run_nextPage, fun _ _ _ _ => eq_of_nextPage_error, rfl,
    fun before fetch later found => (isFetches.asked found).2, isFetches.length_le,
    fun fewer => (isFetches.ended fewer).resolve_left Bool.false_ne_true, ?_⟩
  intro pageAt same first seen upTo
  rw [chain_eq_append upTo, isFetches.pagesOf_eq same]
  rfl

namespace ResumedWalks

/-- Two pages, the second of which is asked for with the cursor `c1`. -/
def twoPages : Option String → Page Nat
  | none => .withNext [1, 2] "c1"
  | some _ => .last [3]

end ResumedWalks

/-- A walk that is taken up at the second page: the first request fails, the next one brings the
page, and there is nothing after that. With the page before it this is the whole chain. -/
theorem nextPages_second_page :
    Held (nextPages anyPages 4 (.resume (some "c1")))
        [⟨some "c1", .error .network⟩, ⟨some "c1", .ok (.last [3])⟩]
        (some ([.error .network, .ok (some [3]), .ok none, .ok none], ⟨some "c1", true⟩)) ∧
      [ResumedWalks.twoPages none, .last [3]] = chain ResumedWalks.twoPages 4 none := by
  have held : Held (nextPages anyPages 4 (.resume (some "c1")))
      [⟨some "c1", .error .network⟩, ⟨some "c1", .ok (.last [3])⟩]
      (some ([.error .network, .ok (some [3]), .ok none, .ok none], ⟨some "c1", true⟩)) :=
    .ask _ (.ask _ (.done _))
  obtain ⟨_, _, _, _, _, _, wholeChain⟩ := nextPages_follow_chain held
  refine ⟨held, wholeChain ResumedWalks.twoPages ?_ none _ (.more rfl (.none _))⟩
  simp [ResumedWalks.twoPages]

end CiTelemetry
