/-
This file proves what walks over pages return. The pages that follow one another
from a cursor on form a chain, which is the same however the walk goes about it;
a walk that returns has gone along such a chain to its end, and a walk along a
chain returns as soon as its allowance is longer than the chain.
-/

import CiTelemetry.Page.Walk
import CiTelemetry.Proofs.FixedAnswers
import Mathlib.Data.List.Forall2

namespace CiTelemetry

variable {α β : Type}

/-! ### Chains of pages -/

/-- What a server answers for the page at a cursor. -/
abbrev PageTable (α : Type) := Option String → Outcome (Page α)

/-- The pages from a cursor on, each named by the one before it, up to one that names no other. -/
inductive PageChain (table : PageTable α) : Option String → List (Page α) → Prop
  | last {cursor : Option String} {page : Page α} (answered : table cursor = .ok page)
      (ends : page.nextCursor? = none) : PageChain table cursor [page]
  | more {cursor : Option String} {page : Page α} {next : String} {rest : List (Page α)}
      (answered : table cursor = .ok page) (continues : page.nextCursor? = some next)
      (others : PageChain table (some next) rest) : PageChain table cursor (page :: rest)

/-- The pages that follow a page known from elsewhere. -/
inductive PagesAfter (table : PageTable α) (first : Page α) : List (Page α) → Prop
  | none (ends : first.nextCursor? = .none) : PagesAfter table first []
  | some {next : String} {rest : List (Page α)} (continues : first.nextCursor? = .some next)
      (chain : PageChain table (.some next) rest) : PagesAfter table first rest

/-- The items of pages in their order. -/
def allItems (pages : List (Page α)) : List α :=
  pages.flatMap (·.items)

theorem allItems_cons (page : Page α) (rest : List (Page α)) :
    allItems (page :: rest) = page.items ++ allItems rest := rfl

theorem allItems_singleton (page : Page α) : allItems [page] = page.items := by
  rw [allItems, List.flatMap_singleton]

/-- A collection whose first page is known: its items are those of that page and of all pages that
follow it. -/
def Completes (table : PageTable α) (first : Page α) (items : List α) : Prop :=
  ∃ rest, PagesAfter table first rest ∧ items = allItems (first :: rest)

namespace PageChain

variable {table : PageTable α} {cursor : Option String} {pages others : List (Page α)}

/-- There is one chain from a cursor on. -/
theorem unique (first : PageChain table cursor pages) (second : PageChain table cursor others) :
    pages = others := by
  induction first generalizing others with
  | last answered ends =>
    cases second with
    | last answered' _ =>
      rw [answered] at answered'
      cases answered'
      rfl
    | more answered' continues' _ =>
      rw [answered] at answered'
      cases answered'
      rw [ends] at continues'
      cases continues'
  | more answered continues _ inductionHypothesis =>
    cases second with
    | last answered' ends' =>
      rw [answered] at answered'
      cases answered'
      rw [continues] at ends'
      cases ends'
    | more answered' continues' others' =>
      rw [answered] at answered'
      cases answered'
      rw [continues] at continues'
      cases continues'
      rw [inductionHypothesis others']

end PageChain

/-- A page and the pages that follow it are a chain from the cursor of the page on. -/
theorem PagesAfter.toChain {table : PageTable α} {cursor : Option String} {first : Page α}
    {rest : List (Page α)} (answered : table cursor = .ok first)
    (after : PagesAfter table first rest) : PageChain table cursor (first :: rest) := by
  cases after with
  | none ends => exact .last answered ends
  | some continues chain => exact .more answered continues chain

theorem PagesAfter.unique {table : PageTable α} {first : Page α} {pages others : List (Page α)}
    (left : PagesAfter table first pages) (right : PagesAfter table first others) :
    pages = others := by
  cases left with
  | none ends =>
    cases right with
    | none _ => rfl
    | some continues _ =>
      rw [ends] at continues
      cases continues
  | some continues chain =>
    cases right with
    | none ends =>
      rw [ends] at continues
      cases continues
    | some continues' chain' =>
      rw [continues] at continues'
      cases continues'
      exact chain.unique chain'

theorem Completes.unique {table : PageTable α} {first : Page α} {items others : List α}
    (left : Completes table first items) (right : Completes table first others) :
    items = others := by
  obtain ⟨pages, after, rfl⟩ := left
  obtain ⟨pages', after', rfl⟩ := right
  rw [after.unique after']

/-! ### Walks along a chain -/

section Walks

variable {Op : Type} {Reply : Op → Type} {answers : (op : Op) → Reply op}
  {source : PageSource Op Reply α} {table : PageTable α}

/-- A source whose answers are those of a table. -/
def Answers (answers : (op : Op) → Reply op) (source : PageSource Op Reply α)
    (table : PageTable α) : Prop :=
  ∀ cursor, Attempt.value? answers (source cursor) = some (table cursor)

namespace Paginator

theorem value?_next?_done (source : PageSource Op Reply α) (cursor : Option String) :
    Attempt.value? answers (next? source ⟨cursor, true⟩) = some (.ok none) := rfl

/-- A walk that is not over returns the page at its cursor. -/
theorem value?_next? (answered : Answers answers source table) (cursor : Option String) :
    Attempt.value? answers (next? source ⟨cursor, false⟩) =
      some ((table cursor).map fun page => some (page.items, after ⟨cursor, false⟩ page)) := by
  unfold next?
  rw [if_neg Bool.false_ne_true, Attempt.value?_bind, answered]
  cases table cursor <;> rfl

theorem after_none {page : Page α} (ends : page.nextCursor? = none) (cursor : Option String) :
    after ⟨cursor, false⟩ page = ⟨cursor, true⟩ := by
  rw [after, ends]

theorem after_some {page : Page α} {next : String} (continues : page.nextCursor? = some next)
    (cursor : Option String) : after ⟨cursor, false⟩ page = ⟨some next, false⟩ := by
  rw [after, continues]

theorem value?_collect_done (source : PageSource Op Reply α) (cursor : Option String)
    (allowance : Nat) :
    Attempt.value? answers (collect source (allowance + 1) ⟨cursor, true⟩) = some (.ok []) := by
  rw [collect, Attempt.value?_bind_ok (value?_next?_done source cursor)]
  rfl

/-- One step of a walk: the items of a page stand before those of the walk after it. -/
theorem value?_collect_step (answered : Answers answers source table) {cursor : Option String}
    {page : Page α} (found : table cursor = .ok page) (allowance : Nat) :
    Attempt.value? answers (collect source (allowance + 1) ⟨cursor, false⟩) =
      (Attempt.value? answers (collect source allowance (after ⟨cursor, false⟩ page))).map
        (Except.map (page.items ++ ·)) := by
  have step := value?_next? answered cursor
  rw [found] at step
  rw [collect, Attempt.value?_bind_ok step]
  exact Attempt.value?_bind_pure answers _ _

/-- A walk along a chain collects the items of the chain. -/
theorem collect_of_chain (answered : Answers answers source table) {cursor : Option String}
    {pages : List (Page α)} (chain : PageChain table cursor pages) {allowance : Nat}
    (enough : pages.length < allowance) :
    Attempt.value? answers (collect source allowance ⟨cursor, false⟩) =
      some (.ok (allItems pages)) := by
  induction chain generalizing allowance with
  | last found ends =>
    obtain ⟨allowance, rfl⟩ : ∃ less, allowance = less + 1 + 1 :=
      ⟨allowance - 2, by simp only [List.length_singleton] at enough; omega⟩
    rw [value?_collect_step answered found, after_none ends, value?_collect_done,
      allItems_singleton]
    exact congrArg (some ∘ Except.ok) (List.append_nil _)
  | more found continues _ inductionHypothesis =>
    obtain ⟨allowance, rfl⟩ : ∃ less, allowance = less + 1 :=
      ⟨allowance - 1, by omega⟩
    rw [value?_collect_step answered found, after_some continues,
      inductionHypothesis (Nat.lt_of_succ_lt_succ enough)]
    rfl

/-- A walk that returned has gone along a chain to its end. -/
theorem chain_of_collect (answered : Answers answers source table) {cursor : Option String}
    {allowance : Nat} {items : List α}
    (collected : Attempt.value? answers (collect source allowance ⟨cursor, false⟩) =
      some (.ok items)) :
    ∃ pages, PageChain table cursor pages ∧ items = allItems pages := by
  induction allowance generalizing cursor items with
  | zero => cases collected
  | succ allowance inductionHypothesis =>
    cases found : table cursor with
    | error error =>
      have step := value?_next? answered cursor
      rw [found] at step
      rw [collect, Attempt.value?_bind, step] at collected
      cases collected
    | ok page =>
      rw [value?_collect_step answered found] at collected
      obtain ⟨outcome, inner, mapped⟩ := Option.map_eq_some_iff.mp collected
      obtain ⟨others, rfl⟩ : ∃ others, outcome = .ok others := by
        cases outcome with
        | error error => cases mapped
        | ok others => exact ⟨others, rfl⟩
      cases mapped
      cases continues : page.nextCursor? with
      | none =>
        rw [after_none continues] at inner
        obtain ⟨allowance, rfl⟩ : ∃ less, allowance = less + 1 := by
          cases allowance with
          | zero => cases inner
          | succ less => exact ⟨less, rfl⟩
        cases inner
        refine ⟨[page], .last found continues, ?_⟩
        rw [allItems_singleton]
        exact List.append_nil _
      | some next =>
        rw [after_some continues] at inner
        obtain ⟨pages, chain, rfl⟩ := inductionHypothesis inner
        exact ⟨page :: pages, .more found continues chain, rfl⟩

end Paginator

/-! ### Collections inside collections -/

/-- A collection is completed along the pages that follow its first one. -/
theorem drain_of_pagesAfter (answered : Answers answers source table) {first : Page α}
    {rest : List (Page α)} (after : PagesAfter table first rest) {allowance : Nat}
    (enough : rest.length < allowance) :
    Attempt.value? answers (drain source allowance first) =
      some (.ok (allItems (first :: rest))) := by
  unfold drain
  cases after with
  | none ends =>
    rw [ends, allItems_singleton]
    rfl
  | some continues chain =>
    rw [continues]
    simp only
    rw [Paginator.resume, Attempt.value?_bind_ok (Paginator.collect_of_chain answered chain enough)]
    rfl

/-- A completed collection holds the items of its first page and of all pages that follow it. -/
theorem completes_of_drain (answered : Answers answers source table) {first : Page α}
    {allowance : Nat} {items : List α}
    (drained : Attempt.value? answers (drain source allowance first) = some (.ok items)) :
    Completes table first items := by
  unfold drain at drained
  cases continues : first.nextCursor? with
  | none =>
    rw [continues] at drained
    cases drained
    exact ⟨[], .none continues, (allItems_singleton first).symm⟩
  | some next =>
    rw [continues] at drained
    obtain ⟨others, collected, returned⟩ := Attempt.ok_of_value?_bind drained
    cases returned
    obtain ⟨pages, chain, rfl⟩ := Paginator.chain_of_collect answered collected
    exact ⟨pages, .some continues chain, rfl⟩

variable {inside : α → Page β} {inner : α → PageSource Op Reply β} {tables : α → PageTable β}

/-- Elements, each with the items that complete its collection. -/
def CompletesEach (tables : α → PageTable β) (inside : α → Page β) (parents : List α)
    (nested : List (Nested α β)) : Prop :=
  List.Forall₂ (fun parent whole =>
    whole.parent = parent ∧ Completes (tables parent) (inside parent) whole.inner) parents nested

theorem CompletesEach.unique {parents : List α} {nested others : List (Nested α β)}
    (left : CompletesEach tables inside parents nested)
    (right : CompletesEach tables inside parents others) : nested = others := by
  have functional : Relator.RightUnique fun (parent : α) (whole : Nested α β) =>
      whole.parent = parent ∧ Completes (tables parent) (inside parent) whole.inner := by
    rintro parent ⟨parent', items⟩ ⟨parent'', items'⟩ ⟨rfl, complete⟩ ⟨rfl, complete'⟩
    cases complete.unique complete'
    rfl
  exact functional.forall₂ left right

/-- The elements of a page are completed one after another. -/
theorem drainEach_of_items {allowance : Nat} {parents : List α} {items : α → List β}
    (each : ∀ parent ∈ parents,
      Attempt.value? answers (drain (inner parent) allowance (inside parent)) =
        some (.ok (items parent))) :
    Attempt.value? answers (drainEach inside inner allowance parents) =
      some (.ok (parents.map fun parent => ⟨parent, items parent⟩)) := by
  induction parents with
  | nil => rfl
  | cons parent rest inductionHypothesis =>
    have others := inductionHypothesis fun other member =>
      each other (List.mem_cons_of_mem _ member)
    rw [drainEach, Attempt.value?_bind_ok (each parent List.mem_cons_self),
      Attempt.value?_bind_ok others]
    rfl

theorem completesEach_of_drainEach
    (answered : ∀ parent, Answers answers (inner parent) (tables parent)) {allowance : Nat}
    {parents : List α} {nested : List (Nested α β)}
    (drained : Attempt.value? answers (drainEach inside inner allowance parents) =
      some (.ok nested)) : CompletesEach tables inside parents nested := by
  induction parents generalizing nested with
  | nil =>
    cases drained
    exact List.Forall₂.nil
  | cons parent rest inductionHypothesis =>
    obtain ⟨items, one, returned⟩ := Attempt.ok_of_value?_bind drained
    obtain ⟨others, all, returned⟩ := Attempt.ok_of_value?_bind returned
    cases returned
    exact List.Forall₂.cons ⟨rfl, completes_of_drain (answered parent) one⟩
      (inductionHypothesis all)

/-! ### Walks over elements with collections inside -/

variable {outer : PageSource Op Reply α}

/-- One step of a walk over elements with collections inside. -/
theorem value?_flattenNested_step (answered : Answers answers outer table)
    {cursor : Option String} {page : Page α} (found : table cursor = .ok page)
    {innerAllowance : Nat} {nested : List (Nested α β)}
    (drained : Attempt.value? answers (drainEach inside inner innerAllowance page.items) =
      some (.ok nested)) (allowance : Nat) :
    Attempt.value? answers
        (flattenNested outer inside inner (allowance + 1) innerAllowance ⟨cursor, false⟩) =
      (Attempt.value? answers (flattenNested outer inside inner allowance innerAllowance
        (Paginator.after ⟨cursor, false⟩ page))).map (Except.map (nested ++ ·)) := by
  have step := Paginator.value?_next? answered cursor
  rw [found] at step
  rw [flattenNested, Attempt.value?_bind_ok step]
  simp only
  rw [Attempt.value?_bind_ok drained]
  exact Attempt.value?_bind_pure answers _ _

/-- A walk along a chain completes the elements of the chain. -/
theorem flattenNested_of_chain (answered : Answers answers outer table) {cursor : Option String}
    {pages : List (Page α)} (chain : PageChain table cursor pages) {allowance innerAllowance : Nat}
    (enough : pages.length < allowance) {items : α → List β}
    (each : ∀ parent ∈ allItems pages,
      Attempt.value? answers (drain (inner parent) innerAllowance (inside parent)) =
        some (.ok (items parent))) :
    Attempt.value? answers
        (flattenNested outer inside inner allowance innerAllowance ⟨cursor, false⟩) =
      some (.ok ((allItems pages).map fun parent => ⟨parent, items parent⟩)) := by
  induction chain generalizing allowance with
  | @last cursor page found ends =>
    obtain ⟨allowance, rfl⟩ : ∃ less, allowance = less + 1 + 1 :=
      ⟨allowance - 2, by simp only [List.length_singleton] at enough; omega⟩
    have drained := drainEach_of_items fun parent member =>
      each parent (List.mem_flatMap.mpr ⟨page, List.mem_cons_self, member⟩)
    rw [value?_flattenNested_step answered found drained, Paginator.after_none ends,
      allItems_singleton]
    exact congrArg (some ∘ Except.ok) (List.append_nil _)
  | @more cursor page next rest found continues _ inductionHypothesis =>
    obtain ⟨allowance, rfl⟩ : ∃ less, allowance = less + 1 := ⟨allowance - 1, by omega⟩
    have drained := drainEach_of_items fun parent member =>
      each parent (List.mem_flatMap.mpr ⟨page, List.mem_cons_self, member⟩)
    have others := inductionHypothesis (Nat.lt_of_succ_lt_succ enough) fun parent member => by
      obtain ⟨other, inside, within⟩ := List.mem_flatMap.mp member
      exact each parent (List.mem_flatMap.mpr ⟨other, List.mem_cons_of_mem _ inside, within⟩)
    rw [value?_flattenNested_step answered found drained, Paginator.after_some continues, others,
      allItems_cons, List.map_append]
    rfl

/-- A walk over elements that returned has gone along a chain to its end and has completed every
element on the way. -/
theorem chain_of_flattenNested (outerAnswered : Answers answers outer table)
    (innerAnswered : ∀ parent, Answers answers (inner parent) (tables parent))
    {cursor : Option String} {allowance innerAllowance : Nat} {nested : List (Nested α β)}
    (flattened : Attempt.value? answers
        (flattenNested outer inside inner allowance innerAllowance ⟨cursor, false⟩) =
      some (.ok nested)) :
    ∃ pages, PageChain table cursor pages ∧
      CompletesEach tables inside (allItems pages) nested := by
  induction allowance generalizing cursor nested with
  | zero => cases flattened
  | succ allowance inductionHypothesis =>
    obtain ⟨first, step, returned⟩ := Attempt.ok_of_value?_bind flattened
    rw [Paginator.value?_next? outerAnswered] at step
    cases found : table cursor with
    | error error =>
      rw [found] at step
      cases step
    | ok page =>
      rw [found] at step
      cases step
      obtain ⟨one, drained, returned⟩ := Attempt.ok_of_value?_bind returned
      obtain ⟨others, rest, returned⟩ := Attempt.ok_of_value?_bind returned
      cases returned
      have complete := completesEach_of_drainEach innerAnswered drained
      cases continues : page.nextCursor? with
      | none =>
        rw [Paginator.after_none continues] at rest
        obtain ⟨allowance, rfl⟩ : ∃ less, allowance = less + 1 := by
          cases allowance with
          | zero => cases rest
          | succ less => exact ⟨less, rfl⟩
        cases rest
        refine ⟨[page], .last found continues, ?_⟩
        rw [allItems_singleton, List.append_nil]
        exact complete
      | some next =>
        rw [Paginator.after_some continues] at rest
        obtain ⟨pages, chain, completeOthers⟩ := inductionHypothesis rest
        refine ⟨page :: pages, .more found continues chain, ?_⟩
        exact List.rel_append complete completeOthers

end Walks

end CiTelemetry
