/-
This file holds the pages in which the server hands out its collections: a
connection is a page as it is written in an answer, where an element may be
null, and a page knows the cursor that the next one is asked with.
-/

import CiTelemetry.Json.Fields

namespace CiTelemetry

/-- The marks with which a page says whether more follow. -/
structure PageInfo where
  endCursor : Option String
  hasNextPage : Bool
  deriving DecidableEq, Repr, Inhabited

/-- A page as it is written in an answer. -/
structure Connection (α : Type) where
  nodes : List (Option α)
  pageInfo : PageInfo
  deriving DecidableEq, Repr, Inhabited

/-- One page of a collection. -/
structure Page (α : Type) where
  items : List α
  pageInfo : PageInfo
  deriving DecidableEq, Repr, Inhabited

namespace Page

/-- A page that nothing follows. -/
def last {α : Type} (items : List α) : Page α :=
  ⟨items, ⟨none, false⟩⟩

/-- A page that the page at `cursor` follows. -/
def withNext {α : Type} (items : List α) (cursor : String) : Page α :=
  ⟨items, ⟨some cursor, true⟩⟩

/-- The cursor of the next page. A page that announces more without a cursor is
the last one, since the cursor it was asked with would only bring it again. -/
def nextCursor? {α : Type} (page : Page α) : Option String :=
  if page.pageInfo.hasNextPage then page.pageInfo.endCursor else none

def map {α β : Type} (change : α → β) (page : Page α) : Page β :=
  ⟨page.items.map change, page.pageInfo⟩

end Page

namespace Connection

/-- The page of a connection, null elements left out. -/
def toPage {α : Type} (connection : Connection α) : Page α :=
  ⟨connection.nodes.filterMap id, connection.pageInfo⟩

/-- A connection that is missing counts as an empty last page. -/
def pageOf {α : Type} (connection : Option (Connection α)) : Page α :=
  match connection with
  | some connection => connection.toPage
  | none => Page.last []

end Connection

/-! ### Reading -/

def PageInfo.decode? (json : Json) : Option PageInfo := do
  let fields ← json.asObject?
  let endCursor ← fields.maybeText? "endCursor"
  let hasNextPage ← Json.defaulted? fields "hasNextPage" Json.asBool? false
  pure ⟨endCursor, hasNextPage⟩

/-- Reads a connection. Both of its fields have defaults, so that an empty list
stands for a connection as well. -/
def Connection.decode? {α : Type} (decode : Json → Option α) (json : Json) :
    Option (Connection α) :=
  match json with
  | .arr [] => some ⟨[], ⟨none, false⟩⟩
  | _ => do
    let fields ← json.asObject?
    let nodes ← Json.defaulted? fields "nodes" (Json.asList? (Json.asOption? decode)) []
    let pageInfo ← Json.defaulted? fields "pageInfo" PageInfo.decode? ⟨none, false⟩
    pure ⟨nodes, pageInfo⟩

end CiTelemetry
