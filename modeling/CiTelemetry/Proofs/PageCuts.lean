/-
This file cuts collections into pages. A cut gives the sizes of the pages, which
may be zero or larger than what is left, and the cursors that lead from each page
to the next; whatever it is, the pages that it gives follow one another and hold
the items of the collection in their order.
-/

import CiTelemetry.Proofs.PageChains

namespace CiTelemetry

variable {α : Type}

/-- A way of cutting a collection into pages: the size of every page but the last, each with the
cursor of the page after it, and the cursor that the last page gives although nothing follows. -/
structure Cut where
  sizes : List (Nat × String)
  endCursor : Option String
  deriving DecidableEq, Repr, Inhabited

namespace Cut

/-- The cursors that lead to the pages after the first. -/
def cursors (cut : Cut) : List String :=
  cut.sizes.map (·.2)

/-- The first page of a collection. -/
def firstPage (cut : Cut) (items : List α) : Page α :=
  match cut.sizes with
  | [] => ⟨items, ⟨cut.endCursor, false⟩⟩
  | (size, next) :: _ => .withNext (items.take size) next

/-- The page of a collection at a cursor. -/
def pageAt? (endCursor : Option String) (sought : String) :
    List (Nat × String) → List α → Option (Page α)
  | [], _ => none
  | (size, next) :: rest, items =>
    if next = sought then some (firstPage ⟨rest, endCursor⟩ (items.drop size))
    else pageAt? endCursor sought rest (items.drop size)

/-- The pages after the first one. -/
def laterPages (endCursor : Option String) : List (Nat × String) → List α → List (Page α)
  | [], _ => []
  | (size, _) :: rest, items =>
    firstPage ⟨rest, endCursor⟩ (items.drop size) :: laterPages endCursor rest (items.drop size)

/-- What a server answers that serves a collection cut into pages; it has no page at a cursor that
it did not give. -/
def answer (cut : Cut) (items : List α) : PageTable α
  | none => .ok (cut.firstPage items)
  | some cursor =>
    match pageAt? cut.endCursor cursor cut.sizes items with
    | some page => .ok page
    | none => .error .noData

/-! ### The pages of a cut -/

theorem laterPages_length (endCursor : Option String) (sizes : List (Nat × String))
    (items : List α) : (laterPages endCursor sizes items).length = sizes.length := by
  induction sizes generalizing items with
  | nil => rfl
  | cons _ rest inductionHypothesis => exact congrArg (· + 1) (inductionHypothesis _)

/-- The pages hold the items of the collection in their order. -/
theorem allItems_pages (endCursor : Option String) (sizes : List (Nat × String))
    (items : List α) :
    allItems (firstPage ⟨sizes, endCursor⟩ items :: laterPages endCursor sizes items) = items := by
  induction sizes generalizing items with
  | nil => exact allItems_singleton _
  | cons pair rest inductionHypothesis =>
    obtain ⟨size, next⟩ := pair
    rw [laterPages, allItems_cons, inductionHypothesis]
    exact List.take_append_drop size items

theorem mem_cursors_of_pageAt? {endCursor : Option String} {sought : String}
    {sizes : List (Nat × String)} {items : List α} {page : Page α}
    (found : pageAt? endCursor sought sizes items = some page) : sought ∈ sizes.map (·.2) := by
  induction sizes generalizing items with
  | nil => cases found
  | cons pair rest inductionHypothesis =>
    obtain ⟨size, next⟩ := pair
    rw [pageAt?] at found
    split at found
    · next same =>
      rw [same]
      exact List.mem_cons_self
    · exact List.mem_cons_of_mem _ (inductionHypothesis found)

/-- Where no two pages have one cursor, the pages after the first follow it. -/
theorem pagesAfter_laterPages {table : PageTable α} {endCursor : Option String}
    {sizes : List (Nat × String)} {items : List α} (distinct : (sizes.map (·.2)).Nodup)
    (answered : ∀ cursor page, pageAt? endCursor cursor sizes items = some page →
      table (some cursor) = .ok page) :
    PagesAfter table (firstPage ⟨sizes, endCursor⟩ items) (laterPages endCursor sizes items) := by
  induction sizes generalizing items with
  | nil => exact .none rfl
  | cons pair rest inductionHypothesis =>
    obtain ⟨size, next⟩ := pair
    obtain ⟨fresh, distinctRest⟩ := List.nodup_cons.mp distinct
    have second : table (some next) = .ok (firstPage ⟨rest, endCursor⟩ (items.drop size)) :=
      answered next _ (if_pos rfl)
    refine .some rfl ((inductionHypothesis distinctRest fun cursor page found => ?_).toChain second)
    refine answered cursor page ?_
    rw [pageAt?, if_neg, found]
    -- A cursor of a later page is not that of the second one.
    rintro rfl
    exact fresh (mem_cursors_of_pageAt? found)

/-- A collection that is served in pages is complete, however it is cut. -/
theorem pagesAfter (cut : Cut) (distinct : cut.cursors.Nodup) (items : List α) :
    ∃ rest, PagesAfter (cut.answer items) (cut.firstPage items) rest ∧
      rest.length = cut.sizes.length ∧ allItems (cut.firstPage items :: rest) = items := by
  refine ⟨laterPages cut.endCursor cut.sizes items, pagesAfter_laterPages distinct ?_,
    laterPages_length _ _ _, allItems_pages _ _ _⟩
  intro cursor page found
  rw [answer, found]

/-! ### Walks over cut collections -/

section Walks

variable {Op : Type} {Reply : Op → Type} {answers : (op : Op) → Reply op}
  {source : PageSource Op Reply α}

/-- The first page as it stands inside an answer. -/
def inline (cut : Cut) (items : List α) : Option (Connection α) :=
  some ⟨(cut.firstPage items).items.map some, (cut.firstPage items).pageInfo⟩

theorem pageOf_inline (cut : Cut) (items : List α) :
    Connection.pageOf (cut.inline items) = cut.firstPage items := by
  rw [inline, Connection.pageOf, Connection.toPage, List.filterMap_map]
  simp

/-- Completing a collection returns its items, however it is cut. -/
theorem drain_eq (cut : Cut) (distinct : cut.cursors.Nodup) (items : List α)
    (answered : Answers answers source (cut.answer items)) {allowance : Nat}
    (enough : cut.sizes.length < allowance) :
    Attempt.value? answers (drain source allowance (cut.firstPage items)) = some (.ok items) := by
  obtain ⟨rest, after, length, all⟩ := cut.pagesAfter distinct items
  rw [drain_of_pagesAfter answered after (by omega), all]

/-- A collection that is walked over from its beginning is a chain that holds its items. -/
theorem chain_eq (cut : Cut) (distinct : cut.cursors.Nodup) (items : List α) :
    ∃ pages, PageChain (cut.answer items) none pages ∧ pages.length = cut.sizes.length + 1 ∧
      allItems pages = items := by
  obtain ⟨rest, after, length, all⟩ := cut.pagesAfter distinct items
  exact ⟨_, after.toChain rfl, congrArg (· + 1) length, all⟩

end Walks

end Cut

end CiTelemetry
