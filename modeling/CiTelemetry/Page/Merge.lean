/-
This file merges records that were fetched in several passes: each partial
record is merged into the base record of the same key, and the keys of partial
records without a base record are reported.
-/

namespace CiTelemetry

variable {κ β π : Type} [DecidableEq κ]

/-- Base records by key, each key once, in the order of first occurrence. -/
abbrev KeyedRecords (κ β : Type) := List (κ × β)

/-- The record under a key replaced by one made of it. -/
def KeyedRecords.adjust (records : KeyedRecords κ β) (key : κ) (change : β → β) :
    KeyedRecords κ β :=
  records.map fun (known, record) => if known = key then (known, change record) else (known, record)

/-- A record put under its key. A key that is known keeps its place and gets the
new record. -/
def KeyedRecords.put (records : KeyedRecords κ β) (key : κ) (record : β) : KeyedRecords κ β :=
  if records.any (·.1 = key) then records.adjust key fun _ => record
  else records ++ [(key, record)]

def KeyedRecords.ofList (key : β → κ) (records : List β) : KeyedRecords κ β :=
  records.foldl (fun known record => known.put (key record) record) []

/-- What merging gives: the merged records, and the keys of the partial records
whose base record never showed up. -/
structure MergeOutcome (κ β : Type) where
  records : List β
  orphans : List κ
  deriving DecidableEq, Repr, Inhabited

/-- Merges the partial records one after another. -/
def mergeInto (partialKey : π → κ) (merge : β → π → β) (records : KeyedRecords κ β) :
    List π → MergeOutcome κ β
  | [] => ⟨records.map (·.2), []⟩
  | part :: rest =>
    if records.any (·.1 = partialKey part) then
      mergeInto partialKey merge (records.adjust (partialKey part) (merge · part)) rest
    else
      let outcome := mergeInto partialKey merge records rest
      { outcome with orphans := partialKey part :: outcome.orphans }

def mergePartials (base : List β) (partials : List π) (baseKey : β → κ) (partialKey : π → κ)
    (merge : β → π → β) : MergeOutcome κ β :=
  mergeInto partialKey merge (KeyedRecords.ofList baseKey base) partials

end CiTelemetry
