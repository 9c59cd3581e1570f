/-
This file walks over collections that come in pages. A paginator knows the
cursor of the next page; a page that could not be fetched leaves it where it
was, so the walk can be taken up again at the same page. Walks have no bound of
their own, since a server may name any cursor as the next one, and are given an
allowance of pages.
-/

import CiTelemetry.Dialogue
import CiTelemetry.Page

namespace CiTelemetry

/-- Where a walk stands. -/
structure Paginator where
  cursor : Option String
  isDone : Bool
  deriving DecidableEq, Repr, Inhabited

variable {Op : Type} {Reply : Op → Type} {α β : Type}

/-- How the page at a cursor is fetched; the first page has no cursor. -/
abbrev PageSource (Op : Type) (Reply : Op → Type) (α : Type) :=
  Option String → Attempt Op Reply (Page α)

namespace Paginator

/-- A walk from the first page. -/
def start : Paginator := ⟨none, false⟩

/-- A walk from a cursor known from before. -/
def resume (cursor : Option String) : Paginator := ⟨cursor, false⟩

/-- The walk after a page. -/
def after (paginator : Paginator) (page : Page α) : Paginator :=
  match page.nextCursor? with
  | some cursor => { paginator with cursor := some cursor }
  | none => { paginator with isDone := true }

/-- The items of the next page and the walk after it; `none` when the walk is
over, in which case nothing is fetched. -/
def next? (source : PageSource Op Reply α) (paginator : Paginator) :
    Attempt Op Reply (Option (List α × Paginator)) :=
  if paginator.isDone then pure none
  else do
    let page ← source paginator.cursor
    pure (some (page.items, paginator.after page))

/-- The items of the pages up to the end of the walk or to the first page that
could not be fetched, with the failure in the latter case. -/
def pages (source : PageSource Op Reply α) (allowance : Nat) (paginator : Paginator) :
    Dialogue Op Reply (List (List α) × Option SyncError) :=
  match allowance with
  | 0 => .stalled
  | allowance + 1 => do
    match ← (next? source paginator).run with
    | .error error => pure ([], some error)
    | .ok none => pure ([], none)
    | .ok (some (items, rest)) => do
      let (others, failure) ← pages source allowance rest
      pure (items :: others, failure)

/-- The items of all pages of a walk. -/
def collect (source : PageSource Op Reply α) (allowance : Nat) (paginator : Paginator) :
    Attempt Op Reply (List α) :=
  match allowance with
  | 0 => Attempt.stalled
  | allowance + 1 => do
    match ← next? source paginator with
    | none => pure []
    | some (items, rest) => do
      let others ← collect source allowance rest
      pure (items ++ others)

end Paginator

/-! ### Collections inside collections -/

/-- The items of a first page and of all pages that follow it. -/
def drain (source : PageSource Op Reply α) (allowance : Nat) (first : Page α) :
    Attempt Op Reply (List α) :=
  match first.nextCursor? with
  | none => pure first.items
  | some cursor => do
    let rest ← Paginator.collect source allowance (.resume (some cursor))
    pure (first.items ++ rest)

/-- An element with all items of the collection inside it. -/
structure Nested (α β : Type) where
  parent : α
  inner : List β
  deriving DecidableEq, Repr, Inhabited

/-- The elements of one page, each with all of its items, in order. -/
def drainEach (inside : α → Page β) (source : α → PageSource Op Reply β) (allowance : Nat)
    (parents : List α) : Attempt Op Reply (List (Nested α β)) :=
  match parents with
  | [] => pure []
  | parent :: rest => do
    let inner ← drain (source parent) allowance (inside parent)
    let others ← drainEach inside source allowance rest
    pure (⟨parent, inner⟩ :: others)

/-- All elements of a walk, each with all of its items. The rest of an element's
items is fetched before the next element is looked at, and every outer page is
fetched once. -/
def flattenNested (outer : PageSource Op Reply α) (inside : α → Page β)
    (source : α → PageSource Op Reply β) (allowance : Nat) (innerAllowance : Nat)
    (paginator : Paginator) : Attempt Op Reply (List (Nested α β)) :=
  match allowance with
  | 0 => Attempt.stalled
  | allowance + 1 => do
    match ← Paginator.next? outer paginator with
    | none => pure []
    | some (parents, rest) => do
      let nested ← drainEach inside source innerAllowance parents
      let others ← flattenNested outer inside source allowance innerAllowance rest
      pure (nested ++ others)

end CiTelemetry
