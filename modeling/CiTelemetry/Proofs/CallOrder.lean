/-
This file proves which calls walks over pages make, in which order, and what
comes of them. Each walk is given a list of calls, put together from the pages
there are: every page is followed by the calls for the items inside its elements
and by the call for the page that it names. The walk makes these calls up to the
first that fails, and returns that failure, or all items if none fails.
-/

import CiTelemetry.Proofs.Conversations
import CiTelemetry.Proofs.PageChains

namespace CiTelemetry

variable {Op : Type} {Reply : Op → Type} {α β : Type}

/-! ### What is asked -/

namespace Dialogue

variable (answers : (op : Op) → Reply op)

/-- The questions of a dialogue with fixed replies. -/
def asked : Dialogue Op Reply α → List Op
  | done _ => []
  | stalled => []
  | ask op next => op :: (next (answers op)).asked

/-- These are the questions of the turns that the dialogue takes. -/
theorem asked_eq_transcript (dialogue : Dialogue Op Reply α) :
    dialogue.asked answers =
      (dialogue.transcript (fun op (_ : Unit) => (answers op, ())) ()).map (·.asked) := by
  induction dialogue with
  | done => rfl
  | stalled => rfl
  | ask op next inductionHypothesis => exact congrArg (op :: ·) (inductionHypothesis (answers op))

theorem asked_bind (dialogue : Dialogue Op Reply α) (next : α → Dialogue Op Reply β) :
    (dialogue.bind next).asked answers = dialogue.asked answers ++
      match dialogue.value? answers with
      | some value => (next value).asked answers
      | none => [] := by
  induction dialogue with
  | done => rfl
  | stalled => rfl
  | ask op rest inductionHypothesis => exact congrArg (op :: ·) (inductionHypothesis (answers op))

end Dialogue

namespace Attempt

variable (answers : (op : Op) → Reply op)

/-- The calls of an attempt with fixed replies. -/
def calls (attempt : Attempt Op Reply α) : List Op :=
  Dialogue.asked answers attempt.run

variable {answers}

/-- An attempt that goes on makes the calls of both of its parts. -/
theorem calls_bind_ok {attempt : Attempt Op Reply α} {value : α}
    (returned : value? answers attempt = some (.ok value)) (next : α → Attempt Op Reply β) :
    calls answers (attempt >>= next) = calls answers attempt ++ calls answers (next value) := by
  have whole := Dialogue.asked_bind answers attempt.run (ExceptT.bindCont next)
  rw [← value?, returned] at whole
  exact whole

/-- An attempt that fails makes no further calls. -/
theorem calls_bind_error {attempt : Attempt Op Reply α} {error : SyncError}
    (failed : value? answers attempt = some (.error error)) (next : α → Attempt Op Reply β) :
    calls answers (attempt >>= next) = calls answers attempt := by
  have whole := Dialogue.asked_bind answers attempt.run (ExceptT.bindCont next)
  rw [← value?, failed] at whole
  exact whole.trans (List.append_nil _)

/-- Neither does one that stalls. -/
theorem calls_bind_stalled {attempt : Attempt Op Reply α}
    (stalls : value? answers attempt = none) (next : α → Attempt Op Reply β) :
    calls answers (attempt >>= next) = calls answers attempt := by
  have whole := Dialogue.asked_bind answers attempt.run (ExceptT.bindCont next)
  rw [← value?, stalls] at whole
  exact whole.trans (List.append_nil _)

end Attempt

/-! ### Calls up to a failure -/

/-- The failure with which an outcome ends, if it does. -/
def Outcome.failure? : Outcome α → Option SyncError
  | .ok _ => none
  | .error error => some error

section Calls

variable (failure? : Op → Option SyncError)

/-- Calls up to the first that fails, this one included. -/
def upToFailure : List Op → List Op
  | [] => []
  | call :: rest => if (failure? call).isSome then [call] else call :: upToFailure rest

/-- What comes of calls: the first failure, or a value if none fails. -/
def resultOfCalls (calls : List Op) (value : α) : Outcome α :=
  match calls.findSome? failure? with
  | some error => .error error
  | none => .ok value

variable {failure?} {calls more : List Op}

theorem findSome?_eq_none (succeed : ∀ call ∈ calls, failure? call = none) :
    calls.findSome? failure? = none :=
  List.findSome?_eq_none_iff.mpr succeed

theorem upToFailure_of_succeed (succeed : ∀ call ∈ calls, failure? call = none) :
    upToFailure failure? calls = calls := by
  induction calls with
  | nil => rfl
  | cons call rest inductionHypothesis =>
    obtain ⟨own, others⟩ := List.forall_mem_cons.mp succeed
    rw [upToFailure, own, inductionHypothesis others, Option.isSome_none,
      if_neg Bool.false_ne_true]

/-- Calls before which none fails are made first. -/
theorem upToFailure_append (succeed : calls.findSome? failure? = none) (more : List Op) :
    upToFailure failure? (calls ++ more) = calls ++ upToFailure failure? more := by
  induction calls with
  | nil => rfl
  | cons call rest inductionHypothesis =>
    obtain ⟨own, others⟩ := List.forall_mem_cons.mp (List.findSome?_eq_none_iff.mp succeed)
    rw [List.cons_append, upToFailure, own, inductionHypothesis (findSome?_eq_none others),
      Option.isSome_none, if_neg Bool.false_ne_true, List.cons_append]

/-- After a failure no call is made. -/
theorem upToFailure_append_of_failure {error : SyncError}
    (failed : calls.findSome? failure? = some error) (more : List Op) :
    upToFailure failure? (calls ++ more) = upToFailure failure? calls := by
  induction calls with
  | nil => cases failed
  | cons call rest inductionHypothesis =>
    rw [List.cons_append, upToFailure, upToFailure]
    cases own : failure? call with
    | some => rfl
    | none =>
      rw [List.findSome?_cons, own] at failed
      rw [inductionHypothesis failed]

end Calls

/-- An attempt makes calls up to the first that fails, and returns that failure, or a value if none
fails. -/
structure Performs (answers : (op : Op) → Reply op) (failure? : Op → Option SyncError)
    (attempt : Attempt Op Reply α) (calls : List Op) (value : α) : Prop where
  result : attempt.value? answers = some (resultOfCalls failure? calls value)
  made : attempt.calls answers = upToFailure failure? calls

namespace Performs

variable {answers : (op : Op) → Reply op} {failure? : Op → Option SyncError}
  {attempt : Attempt Op Reply α} {next : α → Attempt Op Reply β} {calls more : List Op} {value : α}

theorem pure (value : α) :
    Performs answers failure? (Pure.pure value : Attempt Op Reply α) [] value :=
  ⟨rfl, rfl⟩

theorem bind {value' : β} (first : Performs answers failure? attempt calls value)
    (second : Performs answers failure? (next value) more value') :
    Performs answers failure? (attempt >>= next) (calls ++ more) value' := by
  have result := first.result
  unfold resultOfCalls at result
  cases failed : calls.findSome? failure? with
  | some error =>
    rw [failed] at result
    constructor
    · rw [Attempt.value?_bind, result, resultOfCalls, List.findSome?_append, failed]
      rfl
    · rw [Attempt.calls_bind_error result, first.made, upToFailure_append_of_failure failed]
  | none =>
    rw [failed] at result
    constructor
    · rw [Attempt.value?_bind_ok result, second.result, resultOfCalls, resultOfCalls,
        List.findSome?_append, failed, Option.none_or]
    · have all := upToFailure_of_succeed (List.findSome?_eq_none_iff.mp failed)
      rw [Attempt.calls_bind_ok result, first.made, second.made, all, upToFailure_append failed]

/-- An attempt whose last part makes no calls. -/
theorem map (first : Performs answers failure? attempt calls value) (change : α → β) :
    Performs answers failure? (attempt >>= fun found => Pure.pure (change found)) calls
      (change value) := by
  have whole : Performs answers failure? (attempt >>= fun found => Pure.pure (change found))
      (calls ++ []) (change value) := first.bind (pure (change value))
  rwa [List.append_nil] at whole

/-- Which value a walk would have had does not matter if it fails. -/
theorem of_failure {error : SyncError} (performs : Performs answers failure? attempt calls value)
    (failed : calls.findSome? failure? = some error) (other : α) :
    Performs answers failure? attempt calls other := by
  refine ⟨performs.result.trans ?_, performs.made⟩
  rw [resultOfCalls, resultOfCalls, failed]

/-- If no call fails, all of them are made and the value is returned. -/
theorem of_succeed (performs : Performs answers failure? attempt calls value)
    (succeed : ∀ call ∈ calls, failure? call = none) :
    attempt.value? answers = some (.ok value) ∧ attempt.calls answers = calls := by
  refine ⟨performs.result.trans ?_, performs.made.trans (upToFailure_of_succeed succeed)⟩
  rw [resultOfCalls, findSome?_eq_none succeed]

/-- The first call that fails is the last one made, and its failure is what is returned. -/
theorem of_first_failure {call : Op} {error : SyncError}
    (performs : Performs answers failure? attempt (calls ++ call :: more) value)
    (succeed : ∀ earlier ∈ calls, failure? earlier = none) (fails : failure? call = some error) :
    attempt.value? answers = some (.error error) ∧ attempt.calls answers = calls ++ [call] := by
  have none := findSome?_eq_none succeed
  constructor
  · rw [performs.result, resultOfCalls, List.findSome?_append, none, Option.none_or,
      List.findSome?_cons, fails]
  · rw [performs.made, upToFailure_append none, upToFailure, fails, Option.isSome_some, if_pos rfl]

end Performs

/-! ### Chains that may break off -/

/-- The pages from a cursor on, up to one that names no other or one that cannot be had, and the
failure in the latter case. -/
inductive PageStretch (table : PageTable α) :
    Option String → List (Page α) → Option SyncError → Prop
  | failed {cursor : Option String} {error : SyncError} (answered : table cursor = .error error) :
      PageStretch table cursor [] (some error)
  | last {cursor : Option String} {page : Page α} (answered : table cursor = .ok page)
      (ends : page.nextCursor? = none) : PageStretch table cursor [page] none
  | more {cursor : Option String} {page : Page α} {next : String} {rest : List (Page α)}
      {failure : Option SyncError} (answered : table cursor = .ok page)
      (continues : page.nextCursor? = some next)
      (others : PageStretch table (some next) rest failure) :
      PageStretch table cursor (page :: rest) failure

/-- The pages that follow a page known from elsewhere, up to one that cannot be had. -/
inductive StretchAfter (table : PageTable α) (first : Page α) : List (Page α) → Prop
  | none (ends : first.nextCursor? = .none) : StretchAfter table first []
  | some {next : String} {rest : List (Page α)} {failure : Option SyncError}
      (continues : first.nextCursor? = .some next)
      (stretch : PageStretch table (.some next) rest failure) : StretchAfter table first rest

/-- The cursors of the pages that pages name. -/
def nextCursors (pages : List (Page α)) : List (Option String) :=
  (pages.filterMap (·.nextCursor?)).map some

theorem nextCursors_cons_none {page : Page α} (ends : page.nextCursor? = none)
    (rest : List (Page α)) : nextCursors (page :: rest) = nextCursors rest := by
  rw [nextCursors, List.filterMap_cons_none ends, nextCursors]

theorem nextCursors_cons_some {page : Page α} {next : String}
    (continues : page.nextCursor? = some next) (rest : List (Page α)) :
    nextCursors (page :: rest) = some next :: nextCursors rest := by
  rw [nextCursors, List.filterMap_cons_some continues, List.map_cons, nextCursors]

/-! ### Walks -/

/-- A source of pages each of which is had by one call. -/
structure OneCall (answers : (op : Op) → Reply op) (failure? : Op → Option SyncError)
    (source : PageSource Op Reply α) (call : Option String → Op) (table : PageTable α) : Prop where
  answered : Answers answers source table
  asked : ∀ cursor, (source cursor).calls answers = [call cursor]
  failure : ∀ cursor, failure? (call cursor) = (table cursor).failure?

section Walks

variable {answers : (op : Op) → Reply op} {failure? : Op → Option SyncError}
  {source : PageSource Op Reply α} {call : Option String → Op} {table : PageTable α}

theorem OneCall.performs_ok (one : OneCall answers failure? source call table)
    {cursor : Option String} {page : Page α} (found : table cursor = .ok page) :
    Performs answers failure? (source cursor) [call cursor] page := by
  have succeeds : ∀ made ∈ [call cursor], failure? made = none := by
    rw [List.forall_mem_singleton, one.failure, found]
    rfl
  constructor
  · rw [one.answered, found, resultOfCalls, findSome?_eq_none succeeds]
  · rw [one.asked, upToFailure_of_succeed succeeds]

theorem OneCall.performs_error (one : OneCall answers failure? source call table)
    {cursor : Option String} {error : SyncError} (found : table cursor = .error error)
    (page : Page α) : Performs answers failure? (source cursor) [call cursor] page := by
  have fails : failure? (call cursor) = some error := by
    rw [one.failure, found]
    rfl
  constructor
  · rw [one.answered, found, resultOfCalls, List.findSome?_cons, fails]
  · rw [one.asked, upToFailure, fails, Option.isSome_some, if_pos rfl]

namespace Paginator

theorem performs_next?_ok (one : OneCall answers failure? source call table)
    {cursor : Option String} {page : Page α} (found : table cursor = .ok page) :
    Performs answers failure? (next? source ⟨cursor, false⟩) [call cursor]
      (some (page.items, after ⟨cursor, false⟩ page)) := by
  unfold next?
  rw [if_neg Bool.false_ne_true]
  exact (one.performs_ok found).map fun page => some (page.items, after ⟨cursor, false⟩ page)

/-- A page that cannot be had leaves a walk with nothing. -/
theorem performs_next?_error (one : OneCall answers failure? source call table)
    {cursor : Option String} {error : SyncError} (found : table cursor = .error error) :
    Performs answers failure? (next? source ⟨cursor, false⟩) [call cursor] none := by
  unfold next?
  rw [if_neg Bool.false_ne_true]
  have fails : [call cursor].findSome? failure? = some error := by
    rw [List.findSome?_cons, one.failure, found]
    rfl
  exact ((one.performs_error found (.last [])).map _).of_failure fails none

theorem performs_collect_done (source : PageSource Op Reply α) (cursor : Option String)
    (allowance : Nat) :
    Performs answers failure? (collect source (allowance + 1) ⟨cursor, true⟩) [] [] :=
  Performs.pure []

/-- The call for a page comes before the calls of the walk after it. -/
theorem performs_collect_step (one : OneCall answers failure? source call table)
    {cursor : Option String} {page : Page α} (found : table cursor = .ok page) {allowance : Nat}
    {calls : List Op} {items : List α}
    (later : Performs answers failure? (collect source allowance (after ⟨cursor, false⟩ page))
      calls items) :
    Performs answers failure? (collect source (allowance + 1) ⟨cursor, false⟩)
      (call cursor :: calls) (page.items ++ items) :=
  (performs_next?_ok one found).bind (later.map (page.items ++ ·))

/-- A walk along pages that follow one another. -/
theorem performs_collect (one : OneCall answers failure? source call table)
    {cursor : Option String} {pages : List (Page α)} {failure : Option SyncError}
    (stretch : PageStretch table cursor pages failure) {allowance : Nat}
    (enough : pages.length < allowance) :
    Performs answers failure? (collect source allowance ⟨cursor, false⟩)
      ((cursor :: nextCursors pages).map call) (allItems pages) := by
  induction stretch generalizing allowance with
  | @failed cursor error found =>
    obtain ⟨allowance, rfl⟩ : ∃ less, allowance = less + 1 := ⟨allowance - 1, by omega⟩
    exact (performs_next?_error one found).bind (Performs.pure [])
  | @last cursor page found ends =>
    obtain ⟨allowance, rfl⟩ : ∃ less, allowance = less + 1 + 1 :=
      ⟨allowance - 2, by simp only [List.length_singleton] at enough; omega⟩
    rw [nextCursors_cons_none ends]
    refine performs_collect_step one found ?_
    rw [after_none ends]
    exact performs_collect_done source cursor allowance
  | @more cursor page next rest failure found continues others inductionHypothesis =>
    obtain ⟨allowance, rfl⟩ : ∃ less, allowance = less + 1 := ⟨allowance - 1, by omega⟩
    rw [nextCursors_cons_some continues]
    refine performs_collect_step one found ?_
    rw [after_some continues]
    exact inductionHypothesis (Nat.lt_of_succ_lt_succ enough)

end Paginator

/-- A collection whose first page is known is completed by the calls for the pages that this page
and those after it name. -/
theorem performs_drain (one : OneCall answers failure? source call table) {first : Page α}
    {rest : List (Page α)} (after : StretchAfter table first rest) {allowance : Nat}
    (enough : rest.length < allowance) :
    Performs answers failure? (drain source allowance first)
      ((nextCursors (first :: rest)).map call) (allItems (first :: rest)) := by
  unfold drain
  cases after with
  | none ends =>
    rw [ends, nextCursors_cons_none ends, allItems_singleton]
    exact Performs.pure first.items
  | some continues stretch =>
    rw [continues, nextCursors_cons_some continues]
    exact (Paginator.performs_collect one stretch enough).map (first.items ++ ·)

section Nested

variable {inside : α → Page β} {inner : α → PageSource Op Reply β}
  {innerCall : α → Option String → Op} {tables : α → PageTable β} {rest : α → List (Page β)}

/-- An element with the items inside it, given the pages that follow its own. -/
def wholeElement (inside : α → Page β) (rest : α → List (Page β)) (parent : α) : Nested α β :=
  ⟨parent, allItems (inside parent :: rest parent)⟩

/-- The calls for the items inside an element. -/
def elementCalls (innerCall : α → Option String → Op) (inside : α → Page β)
    (rest : α → List (Page β)) (parent : α) : List Op :=
  (nextCursors (inside parent :: rest parent)).map (innerCall parent)

theorem performs_drainEach
    (one : ∀ parent, OneCall answers failure? (inner parent) (innerCall parent) (tables parent))
    {parents : List α}
    (after : ∀ parent ∈ parents, StretchAfter (tables parent) (inside parent) (rest parent))
    {allowance : Nat} (enough : ∀ parent ∈ parents, (rest parent).length < allowance) :
    Performs answers failure? (drainEach inside inner allowance parents)
      (parents.flatMap (elementCalls innerCall inside rest))
      (parents.map (wholeElement inside rest)) := by
  induction parents with
  | nil => exact Performs.pure []
  | cons parent others inductionHypothesis =>
    obtain ⟨ownAfter, othersAfter⟩ := List.forall_mem_cons.mp after
    obtain ⟨ownEnough, othersEnough⟩ := List.forall_mem_cons.mp enough
    have own := performs_drain (one parent) ownAfter ownEnough
    have later := (inductionHypothesis othersAfter othersEnough).map
      (wholeElement inside rest parent :: ·)
    exact own.bind later

variable {outer : PageSource Op Reply α} {outerCall : Option String → Op}

/-- The calls that follow the call for a page of elements: those for the items inside each of its
elements, and then the call for the page that it names. -/
def callsAfter (outerCall : Option String → Op) (innerCall : α → Option String → Op)
    (inside : α → Page β) (rest : α → List (Page β)) (page : Page α) : List Op :=
  page.items.flatMap (elementCalls innerCall inside rest) ++ (nextCursors [page]).map outerCall

/-- The calls for the items inside the elements of a page come between the call for the page and
those of the walk after it. -/
theorem performs_flattenNested_step (oneOuter : OneCall answers failure? outer outerCall table)
    {cursor : Option String} {page : Page α} (found : table cursor = .ok page)
    {allowance innerAllowance : Nat} {calls more : List Op} {nested others : List (Nested α β)}
    (drained : Performs answers failure? (drainEach inside inner innerAllowance page.items)
      calls nested)
    (later : Performs answers failure?
      (flattenNested outer inside inner allowance innerAllowance
        (Paginator.after ⟨cursor, false⟩ page)) more others) :
    Performs answers failure?
      (flattenNested outer inside inner (allowance + 1) innerAllowance ⟨cursor, false⟩)
      (outerCall cursor :: (calls ++ more)) (nested ++ others) :=
  (Paginator.performs_next?_ok oneOuter found).bind (drained.bind (later.map (nested ++ ·)))

/-- A walk over elements with collections inside. -/
theorem performs_flattenNested (oneOuter : OneCall answers failure? outer outerCall table)
    (one : ∀ parent, OneCall answers failure? (inner parent) (innerCall parent) (tables parent))
    {cursor : Option String} {pages : List (Page α)} {failure : Option SyncError}
    (stretch : PageStretch table cursor pages failure)
    (after : ∀ parent ∈ allItems pages,
      StretchAfter (tables parent) (inside parent) (rest parent))
    {allowance innerAllowance : Nat} (enough : pages.length < allowance)
    (enoughInside : ∀ parent ∈ allItems pages, (rest parent).length < innerAllowance) :
    Performs answers failure?
      (flattenNested outer inside inner allowance innerAllowance ⟨cursor, false⟩)
      (outerCall cursor :: pages.flatMap (callsAfter outerCall innerCall inside rest))
      ((allItems pages).map (wholeElement inside rest)) := by
  induction stretch generalizing allowance with
  | @failed cursor error found =>
    obtain ⟨allowance, rfl⟩ : ∃ less, allowance = less + 1 := ⟨allowance - 1, by omega⟩
    exact (Paginator.performs_next?_error oneOuter found).bind (Performs.pure [])
  | @last cursor page found ends =>
    obtain ⟨allowance, rfl⟩ : ∃ less, allowance = less + 1 + 1 :=
      ⟨allowance - 2, by simp only [List.length_singleton] at enough; omega⟩
    rw [allItems_singleton] at after enoughInside ⊢
    have drained := performs_drainEach one after enoughInside
    have done : Performs answers failure?
        (flattenNested outer inside inner (allowance + 1) innerAllowance
          (Paginator.after ⟨cursor, false⟩ page)) [] [] := by
      rw [Paginator.after_none ends]
      exact Performs.pure []
    have walk := performs_flattenNested_step oneOuter found drained done
    rw [List.append_nil (List.map _ _)] at walk
    rw [List.flatMap_singleton, callsAfter, nextCursors_cons_none ends]
    exact walk
  | @more cursor page next others failure found continues _ inductionHypothesis =>
    obtain ⟨allowance, rfl⟩ : ∃ less, allowance = less + 1 := ⟨allowance - 1, by omega⟩
    rw [allItems_cons] at after enoughInside ⊢
    obtain ⟨ownAfter, othersAfter⟩ := List.forall_mem_append.mp after
    obtain ⟨ownEnough, othersEnough⟩ := List.forall_mem_append.mp enoughInside
    have drained := performs_drainEach one ownAfter ownEnough
    have later := inductionHypothesis othersAfter (Nat.lt_of_succ_lt_succ enough) othersEnough
    rw [← Paginator.after_some continues cursor] at later
    have walk := performs_flattenNested_step oneOuter found drained later
    rw [List.map_append, List.flatMap_cons, callsAfter, nextCursors_cons_some continues,
      List.append_assoc]
    exact walk

end Nested

end Walks

/-! ### Calls and nothing else -/

/-- A call for a page of elements, or for a page of the items inside an element. -/
inductive PageCall (α : Type) where
  | outer (cursor : Option String)
  | inner (parent : α) (cursor : Option String)
  deriving DecidableEq, Repr

/-- What the answer to a call is. -/
abbrev PageCall.Answer (α β : Type) : PageCall α → Type
  | outer _ => Outcome (Page α)
  | inner _ _ => Outcome (Page β)

namespace PageCall

/-- A server for elements and one for the items inside each element. -/
def replies (table : PageTable α) (tables : α → PageTable β) :
    (call : PageCall α) → call.Answer α β
  | outer cursor => table cursor
  | inner parent cursor => tables parent cursor

/-- The failure of a call, if it fails. -/
def failure? (table : PageTable α) (tables : α → PageTable β) : PageCall α → Option SyncError
  | outer cursor => (table cursor).failure?
  | inner parent cursor => (tables parent cursor).failure?

/-- The walk over elements with collections inside whose questions are the calls themselves. -/
def walk (inside : α → Page β) (allowance innerAllowance : Nat) :
    Attempt (PageCall α) (PageCall.Answer α β) (List (Nested α β)) :=
  flattenNested (fun cursor => ExceptT.mk (Dialogue.question (PageCall.outer cursor))) inside
    (fun parent cursor => ExceptT.mk (Dialogue.question (PageCall.inner parent cursor)))
    allowance innerAllowance .start

/-- The calls for all pages, in order: each page of elements is followed by the pages of the items
inside its elements, element after element, and then by the next page of elements. -/
def inOrder (inside : α → Page β) (rest : α → List (Page β)) (pages : List (Page α)) :
    List (PageCall α) :=
  outer none :: pages.flatMap (callsAfter outer inner inside rest)

/-- What the walk over elements with collections inside returns and which calls it makes, for
servers whose chains of pages are finite. It makes the calls for all pages in order and returns the
elements in order, each with the items of its own page and of all pages that follow that one. The
first call that fails is the last one that is made, and its failure is what is returned. -/
theorem walk_exact {table : PageTable α} {tables : α → PageTable β} {inside : α → Page β}
    {pages : List (Page α)} {failure : Option SyncError} {rest : α → List (Page β)}
    (stretch : PageStretch table none pages failure)
    (after : ∀ parent ∈ allItems pages,
      StretchAfter (tables parent) (inside parent) (rest parent))
    {allowance innerAllowance : Nat} (enough : pages.length < allowance)
    (enoughInside : ∀ parent ∈ allItems pages, (rest parent).length < innerAllowance) :
    ((∀ call ∈ inOrder inside rest pages, failure? table tables call = none) →
      (walk inside allowance innerAllowance).value? (replies table tables) =
          some (.ok ((allItems pages).map fun parent =>
            ⟨parent, allItems (inside parent :: rest parent)⟩)) ∧
        (walk inside allowance innerAllowance).calls (replies table tables) =
          inOrder inside rest pages) ∧
    ∀ before call later error, inOrder inside rest pages = before ++ call :: later →
      (∀ earlier ∈ before, failure? table tables earlier = none) →
      failure? table tables call = some error →
        (walk inside allowance innerAllowance).value? (replies table tables) =
            some (.error error) ∧
          (walk inside allowance innerAllowance).calls (replies table tables) =
            before ++ [call] := by
  have oneOuter : OneCall (replies table tables) (failure? table tables)
      (fun cursor => ExceptT.mk (Dialogue.question (outer cursor))) outer table :=
    ⟨fun _ => rfl, fun _ => rfl, fun _ => rfl⟩
  have one : ∀ parent, OneCall (replies table tables) (failure? table tables)
      (fun cursor => ExceptT.mk (Dialogue.question (inner parent cursor))) (inner parent)
      (tables parent) :=
    fun _ => ⟨fun _ => rfl, fun _ => rfl, fun _ => rfl⟩
  have performs := performs_flattenNested oneOuter one stretch after enough enoughInside
  refine ⟨performs.of_succeed, ?_⟩
  intro before call later error same succeed fails
  have cut : outer none :: pages.flatMap (callsAfter outer inner inside rest) =
      before ++ call :: later := same
  rw [cut] at performs
  exact performs.of_first_failure succeed fails

/-! ### Three elements on two pages -/

/-- Two pages of elements. -/
def elementTable : PageTable String
  | none => .ok (.withNext ["a", "b"] "2")
  | some "2" => .ok (.last ["c"])
  | some _ => .error .noData

/-- The first element has a further page, the second one announces more without naming a page, and
the third one has nothing on its own page. -/
def firstItems : String → Page Nat
  | "a" => .withNext [1] "a2"
  | "b" => ⟨[4], ⟨none, true⟩⟩
  | _ => .withNext [] "c2"

/-- The further page of the third element cannot be had. -/
def itemTable (parent : String) : PageTable Nat :=
  fun _ => if parent = "a" then .ok (.last [2, 3]) else .error .network

def laterItems : String → List (Page Nat)
  | "a" => [.last [2, 3]]
  | _ => []

theorem elementStretch : PageStretch elementTable none [.withNext ["a", "b"] "2", .last ["c"]] none :=
  .more rfl rfl (.last rfl rfl)

theorem itemStretches : ∀ parent ∈ ["a", "b", "c"],
    StretchAfter (itemTable parent) (firstItems parent) (laterItems parent) := by
  simp only [List.forall_mem_cons, List.not_mem_nil, false_implies, implies_true, and_true]
  exact ⟨.some rfl (.last rfl rfl), .none rfl, .some rfl (.failed rfl)⟩

/-- The walk makes four calls, the last of which fails. -/
theorem walk_elements :
    (walk firstItems 3 2).value? (replies elementTable itemTable) = some (.error .network) ∧
      (walk firstItems 3 2).calls (replies elementTable itemTable) =
        [outer none, inner "a" (some "a2"), outer (some "2"), inner "c" (some "c2")] :=
  (walk_exact elementStretch itemStretches (by decide) (by decide)).2
    [outer none, inner "a" (some "a2"), outer (some "2")] (inner "c" (some "c2")) [] .network
    rfl (by decide) rfl

end PageCall

end CiTelemetry
