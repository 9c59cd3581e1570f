/-
This file proves that the walk over a hierarchy is a depth-first search. The walk
has a stack, on which an id may stand more than once and whose entries are taken
only when they come up; the search calls itself for the ids that an entry lists
and carries along which ids it has visited. Whatever the entries list, in circles
or without an entry to it, both visit the same entries in the same order, and
these are the ones that the root leads to.
-/

import CiTelemetry.Hierarchy
import Mathlib.Data.Finset.Insert
import Mathlib.Logic.Relation

namespace CiTelemetry

namespace PipelineHierarchy

/-! ### The search -/

/-- The entries whose ids are not among those visited. -/
def unvisited (hierarchy : PipelineHierarchy) (visited : Finset Int) : List HierarchyEntry :=
  hierarchy.entries.filter (·.id ∉ visited)

theorem unvisited_empty (hierarchy : PipelineHierarchy) :
    hierarchy.unvisited ∅ = hierarchy.entries := by
  simp [unvisited]

/-- Visiting an id takes the entries of it from those that remain. -/
theorem unvisited_insert (hierarchy : PipelineHierarchy) (visited : Finset Int) (id : Int) :
    hierarchy.unvisited (insert id visited) = without (hierarchy.unvisited visited) id := by
  rw [unvisited, unvisited, without, List.filter_filter]
  refine List.filter_congr fun entry _ => ?_
  by_cases same : entry.id = id <;> simp [same]

theorem find?_unvisited {hierarchy : PipelineHierarchy} {visited : Finset Int} {id : Int}
    (isNew : id ∉ visited) :
    (hierarchy.unvisited visited).find? (·.id == id) = hierarchy.get? id := by
  rw [unvisited, List.find?_filter, get?]
  refine congrArg (List.find? · hierarchy.entries) (funext fun entry => ?_)
  by_cases same : entry.id = id <;> simp [same, isNew]

theorem find?_unvisited_of_mem {hierarchy : PipelineHierarchy} {visited : Finset Int} {id : Int}
    (isVisited : id ∈ visited) : (hierarchy.unvisited visited).find? (·.id == id) = none := by
  refine List.find?_eq_none.mpr fun entry member same => ?_
  have isNew := (List.mem_filter.mp member).2
  rw [beq_iff_eq.mp same] at isNew
  exact of_decide_eq_true isNew isVisited

theorem length_unvisited_le {hierarchy : PipelineHierarchy} {before after : Finset Int}
    (grows : before ⊆ after) :
    (hierarchy.unvisited after).length ≤ (hierarchy.unvisited before).length := by
  refine (List.monotone_filter_right hierarchy.entries fun entry isNew => ?_).length_le
  simp only [decide_eq_true_eq] at isNew ⊢
  exact fun known => isNew (grows known)

theorem length_unvisited_lt {hierarchy : PipelineHierarchy} {before after : Finset Int} {id : Int}
    {entry : HierarchyEntry} (isNew : id ∉ before) (found : hierarchy.get? id = some entry)
    (grows : insert id before ⊆ after) :
    (hierarchy.unvisited after).length < (hierarchy.unvisited before).length := by
  have fewer := without_length ((find?_unvisited isNew).trans found)
  rw [← unvisited_insert] at fewer
  exact (length_unvisited_le grows).trans_lt fewer

/-- What a search visited: the entries in their order, and all ids with those from before. -/
structure Visits (before : Finset Int) where
  order : List HierarchyEntry
  visited : Finset Int
  grows : before ⊆ visited

/-- Searches from one id after another. An id that was visited is passed over; any other is visited
now, and if it has an entry, this stands before all that is found below it, and the ids that it
lists are searched before those that are left. -/
def search (hierarchy : PipelineHierarchy) (visited : Finset Int) (ids : List Int) :
    Visits visited :=
  match ids with
  | [] => ⟨[], visited, Finset.Subset.refl visited⟩
  | id :: rest =>
    if _isVisited : id ∈ visited then hierarchy.search visited rest
    else
      match _found : hierarchy.get? id with
      | none =>
        let later := hierarchy.search (insert id visited) rest
        ⟨later.order, later.visited, (Finset.subset_insert id visited).trans later.grows⟩
      | some entry =>
        let below := hierarchy.search (insert id visited) entry.downstream
        let later := hierarchy.search below.visited rest
        ⟨entry :: (below.order ++ later.order), later.visited,
          ((Finset.subset_insert id visited).trans below.grows).trans later.grows⟩
termination_by ((hierarchy.unvisited visited).length, ids.length)
decreasing_by
  · exact Prod.Lex.right _ (Nat.lt_succ_self _)
  · exact Prod.Lex.right' _ (length_unvisited_le (Finset.subset_insert id visited))
      (Nat.lt_succ_self _)
  · exact Prod.Lex.left _ _ (length_unvisited_lt _isVisited _found (Finset.Subset.refl _))
  · exact Prod.Lex.left _ _ (length_unvisited_lt _isVisited _found below.grows)

section Search

variable {hierarchy : PipelineHierarchy} {visited : Finset Int} {id : Int} {entry : HierarchyEntry}

theorem search_nil (hierarchy : PipelineHierarchy) (visited : Finset Int) :
    hierarchy.search visited [] = ⟨[], visited, Finset.Subset.refl visited⟩ := by
  rw [search]

theorem search_of_mem (isVisited : id ∈ visited) (rest : List Int) :
    hierarchy.search visited (id :: rest) = hierarchy.search visited rest := by
  rw [search, dif_pos isVisited]

theorem search_of_absent (isNew : id ∉ visited) (absent : hierarchy.get? id = none)
    (rest : List Int) :
    (hierarchy.search visited (id :: rest)).order =
        (hierarchy.search (insert id visited) rest).order ∧
      (hierarchy.search visited (id :: rest)).visited =
        (hierarchy.search (insert id visited) rest).visited := by
  rw [search, dif_neg isNew]
  split
  · exact ⟨rfl, rfl⟩
  · next found =>
    rw [absent] at found
    cases found

theorem search_of_found (isNew : id ∉ visited) (found : hierarchy.get? id = some entry)
    (rest : List Int) :
    let below := hierarchy.search (insert id visited) entry.downstream
    (hierarchy.search visited (id :: rest)).order =
        entry :: (below.order ++ (hierarchy.search below.visited rest).order) ∧
      (hierarchy.search visited (id :: rest)).visited =
        (hierarchy.search below.visited rest).visited := by
  rw [search, dif_neg isNew]
  split
  · next absent =>
    rw [absent] at found
    cases found
  · next other =>
    rw [other] at found
    cases found
    exact ⟨rfl, rfl⟩

end Search

/-! ### The walk is the search -/

/-- The walk over a stack visits what the search from the upper ids of the stack visits, and goes on
with what is below them. -/
theorem walk_append (hierarchy : PipelineHierarchy) (visited : Finset Int) (ids below : List Int) :
    walk (hierarchy.unvisited visited) (ids ++ below) =
      (hierarchy.search visited ids).order ++
        walk (hierarchy.unvisited (hierarchy.search visited ids).visited) below := by
  induction visited, ids using search.induct hierarchy generalizing below with
  | case1 visited => rw [search_nil, List.nil_append, List.nil_append]
  | case2 visited id rest isVisited inductionHypothesis =>
    rw [search_of_mem isVisited, List.cons_append, walk, find?_unvisited_of_mem isVisited]
    exact inductionHypothesis below
  | case3 visited id rest isNew absent inductionHypothesis =>
    obtain ⟨order, visits⟩ := search_of_absent isNew absent rest
    have nothing : hierarchy.unvisited (insert id visited) = hierarchy.unvisited visited := by
      rw [unvisited_insert, without, List.filter_eq_self]
      intro entry member
      have other := List.find?_eq_none.mp ((find?_unvisited isNew).trans absent) entry member
      simpa using other
    rw [order, visits, ← inductionHypothesis, nothing, List.cons_append, walk,
      (find?_unvisited isNew).trans absent]
  | case4 visited id rest isNew entry found inside belowHypothesis laterHypothesis =>
    obtain ⟨order, visits⟩ := search_of_found isNew found rest
    rw [order, visits, List.cons_append, walk, (find?_unvisited isNew).trans found]
    simp only
    rw [← unvisited_insert, ← List.append_assoc, List.append_assoc entry.downstream,
      belowHypothesis, laterHypothesis, List.cons_append, List.append_assoc]

/-! ### What the search finds -/

/-- An entry lists an id as started from it. -/
def Lists (hierarchy : PipelineHierarchy) (id child : Int) : Prop :=
  ∃ entry, hierarchy.get? id = some entry ∧ child ∈ entry.downstream

theorem get?_id {hierarchy : PipelineHierarchy} {id : Int} {entry : HierarchyEntry}
    (found : hierarchy.get? id = some entry) : entry.id = id := by
  simpa using List.find?_some found

/-- A search visits the ids it is given. -/
theorem mem_visited_search (hierarchy : PipelineHierarchy) (visited : Finset Int)
    {ids : List Int} {id : Int} (given : id ∈ ids) :
    id ∈ (hierarchy.search visited ids).visited := by
  induction visited, ids using search.induct hierarchy with
  | case1 visited => cases given
  | case2 visited first rest isVisited inductionHypothesis =>
    rw [search_of_mem isVisited]
    rcases List.mem_cons.mp given with rfl | later
    · exact (hierarchy.search visited rest).grows isVisited
    · exact inductionHypothesis later
  | case3 visited first rest isNew absent inductionHypothesis =>
    rw [(search_of_absent isNew absent rest).2]
    rcases List.mem_cons.mp given with rfl | later
    · exact (hierarchy.search _ rest).grows (Finset.mem_insert_self id visited)
    · exact inductionHypothesis later
  | case4 visited first rest isNew entry found inside belowHypothesis laterHypothesis =>
    rw [(search_of_found isNew found rest).2]
    rcases List.mem_cons.mp given with rfl | later
    · exact (hierarchy.search _ rest).grows (inside.grows (Finset.mem_insert_self id visited))
    · exact laterHypothesis later

/-- What a search finds are the entries of the ids that it visits for the first time. -/
theorem mem_order_search (hierarchy : PipelineHierarchy) (visited : Finset Int) (ids : List Int)
    (entry : HierarchyEntry) :
    entry ∈ (hierarchy.search visited ids).order ↔
      hierarchy.get? entry.id = some entry ∧
        entry.id ∈ (hierarchy.search visited ids).visited ∧ entry.id ∉ visited := by
  induction visited, ids using search.induct hierarchy with
  | case1 visited => simp [search_nil]
  | case2 visited id rest isVisited inductionHypothesis =>
    rw [search_of_mem isVisited]
    exact inductionHypothesis
  | case3 visited id rest isNew absent inductionHypothesis =>
    obtain ⟨order, visits⟩ := search_of_absent isNew absent rest
    rw [order, visits, inductionHypothesis, Finset.mem_insert, not_or]
    refine and_congr_right fun isThere => and_congr_right fun _ => and_iff_right fun same => ?_
    rw [same, absent] at isThere
    cases isThere
  | case4 visited id rest isNew first found below belowHypothesis laterHypothesis =>
    obtain ⟨order, visits⟩ := search_of_found isNew found rest
    have grows := (hierarchy.search below.visited rest).grows
    rw [order, visits, List.mem_cons, List.mem_append, belowHypothesis, laterHypothesis]
    constructor
    · rintro (rfl | ⟨isThere, isBelow, other⟩ | ⟨isThere, isLater, notBelow⟩)
      · have own := get?_id found
        rw [own]
        exact ⟨found, grows (below.grows (Finset.mem_insert_self id visited)), isNew⟩
      · exact ⟨isThere, grows isBelow, fun known => other (Finset.mem_insert_of_mem known)⟩
      · exact ⟨isThere, isLater,
          fun known => notBelow (below.grows (Finset.mem_insert_of_mem known))⟩
    · rintro ⟨isThere, isLater, other⟩
      by_cases same : entry.id = id
      · rw [same, found] at isThere
        cases isThere
        exact .inl rfl
      · by_cases isBelow : entry.id ∈ below.visited
        · exact .inr (.inl ⟨isThere, isBelow, by simp [same, other]⟩)
        · exact .inr (.inr ⟨isThere, isLater, isBelow⟩)

/-- It finds no two entries of one id. -/
theorem nodup_order_search (hierarchy : PipelineHierarchy) (visited : Finset Int)
    (ids : List Int) : ((hierarchy.search visited ids).order.map (·.id)).Nodup := by
  induction visited, ids using search.induct hierarchy with
  | case1 visited => simp [search_nil]
  | case2 visited id rest isVisited inductionHypothesis =>
    rw [search_of_mem isVisited]
    exact inductionHypothesis
  | case3 visited id rest isNew absent inductionHypothesis =>
    rw [(search_of_absent isNew absent rest).1]
    exact inductionHypothesis
  | case4 visited id rest isNew first found below belowHypothesis laterHypothesis =>
    rw [(search_of_found isNew found rest).1, List.map_cons, List.map_append, List.nodup_cons,
      List.mem_append, get?_id found]
    refine ⟨?_, List.Nodup.append belowHypothesis laterHypothesis fun other isBelow isLater => ?_⟩
    · rintro (isBelow | isLater)
      · obtain ⟨entry, member, same⟩ := List.mem_map.mp isBelow
        have other := ((mem_order_search hierarchy _ _ entry).mp member).2.2
        exact other (same ▸ Finset.mem_insert_self id visited)
      · obtain ⟨entry, member, same⟩ := List.mem_map.mp isLater
        have other := ((mem_order_search hierarchy _ _ entry).mp member).2.2
        exact other (below.grows (same ▸ Finset.mem_insert_self id visited))
    · obtain ⟨entry, member, rfl⟩ := List.mem_map.mp isBelow
      obtain ⟨entry', member', same⟩ := List.mem_map.mp isLater
      have known := ((mem_order_search hierarchy _ _ entry).mp member).2.1
      rw [← same] at known
      exact ((mem_order_search hierarchy _ _ entry').mp member').2.2 known

/-- What is listed by the entries that a search finds is visited by it. -/
theorem listed_mem_visited (hierarchy : PipelineHierarchy) (visited : Finset Int) (ids : List Int)
    {entry : HierarchyEntry} (isFound : entry ∈ (hierarchy.search visited ids).order) {child : Int}
    (listed : child ∈ entry.downstream) : child ∈ (hierarchy.search visited ids).visited := by
  induction visited, ids using search.induct hierarchy with
  | case1 visited => simp [search_nil] at isFound
  | case2 visited id rest isVisited inductionHypothesis =>
    rw [search_of_mem isVisited] at isFound ⊢
    exact inductionHypothesis isFound
  | case3 visited id rest isNew absent inductionHypothesis =>
    obtain ⟨order, visits⟩ := search_of_absent isNew absent rest
    rw [order] at isFound
    rw [visits]
    exact inductionHypothesis isFound
  | case4 visited id rest isNew first found below belowHypothesis laterHypothesis =>
    obtain ⟨order, visits⟩ := search_of_found isNew found rest
    have grows := (hierarchy.search below.visited rest).grows
    rw [order, List.mem_cons, List.mem_append] at isFound
    rw [visits]
    rcases isFound with rfl | isBelow | isLater
    · exact grows (mem_visited_search hierarchy _ listed)
    · exact grows (belowHypothesis isBelow)
    · exact laterHypothesis isLater

/-- What a search finds is reached from the ids it is given. -/
theorem exists_reaches (hierarchy : PipelineHierarchy) (visited : Finset Int) (ids : List Int)
    {entry : HierarchyEntry} (isFound : entry ∈ (hierarchy.search visited ids).order) :
    ∃ id ∈ ids, Relation.ReflTransGen hierarchy.Lists id entry.id := by
  induction visited, ids using search.induct hierarchy with
  | case1 visited => simp [search_nil] at isFound
  | case2 visited id rest isVisited inductionHypothesis =>
    rw [search_of_mem isVisited] at isFound
    obtain ⟨other, given, reaches⟩ := inductionHypothesis isFound
    exact ⟨other, List.mem_cons_of_mem id given, reaches⟩
  | case3 visited id rest isNew absent inductionHypothesis =>
    rw [(search_of_absent isNew absent rest).1] at isFound
    obtain ⟨other, given, reaches⟩ := inductionHypothesis isFound
    exact ⟨other, List.mem_cons_of_mem id given, reaches⟩
  | case4 visited id rest isNew first found below belowHypothesis laterHypothesis =>
    rw [(search_of_found isNew found rest).1, List.mem_cons, List.mem_append] at isFound
    rcases isFound with rfl | isBelow | isLater
    · rw [get?_id found]
      exact ⟨id, List.mem_cons_self, .refl⟩
    · obtain ⟨child, listed, reaches⟩ := belowHypothesis isBelow
      exact ⟨id, List.mem_cons_self, .head ⟨first, found, listed⟩ reaches⟩
    · obtain ⟨other, given, reaches⟩ := laterHypothesis isLater
      exact ⟨other, List.mem_cons_of_mem id given, reaches⟩

/-- A search that has visited nothing before visits everything that the ids it is given lead to. -/
theorem mem_visited_of_reaches (hierarchy : PipelineHierarchy) {ids : List Int} {id other : Int}
    (given : id ∈ ids) (reaches : Relation.ReflTransGen hierarchy.Lists id other) :
    other ∈ (hierarchy.search ∅ ids).visited := by
  induction reaches with
  | refl => exact mem_visited_search hierarchy ∅ given
  | tail _ lists isVisited =>
    obtain ⟨entry, found, listed⟩ := lists
    have own := get?_id found
    rw [← own] at found isVisited
    have isFound := (mem_order_search hierarchy ∅ ids entry).mpr
      ⟨found, isVisited, Finset.notMem_empty _⟩
    exact listed_mem_visited hierarchy ∅ ids isFound listed

/-- The walk over a hierarchy is the depth-first search from its root, whatever the entries list:
circles, themselves, what others list as well, an id twice or one that has no entry. It visits no
two entries of one id, and what it visits are the entries that the root leads to through entries
that are there. -/
theorem depthFirst_eq_search (hierarchy : PipelineHierarchy) :
    hierarchy.depthFirst = (hierarchy.search ∅ [hierarchy.root]).order ∧
      (hierarchy.depthFirst.map (·.id)).Nodup ∧
      ∀ entry, entry ∈ hierarchy.depthFirst ↔
        hierarchy.get? entry.id = some entry ∧
          Relation.ReflTransGen hierarchy.Lists hierarchy.root entry.id := by
  have same : hierarchy.depthFirst = (hierarchy.search ∅ [hierarchy.root]).order := by
    have whole := walk_append hierarchy ∅ [hierarchy.root] []
    rwa [unvisited_empty, List.append_nil, walk, List.append_nil] at whole
  rw [same]
  refine ⟨rfl, nodup_order_search hierarchy ∅ _, fun entry => ?_⟩
  constructor
  · intro isFound
    obtain ⟨id, given, reaches⟩ := exists_reaches hierarchy ∅ _ isFound
    rw [List.mem_singleton.mp given] at reaches
    exact ⟨((mem_order_search hierarchy ∅ _ entry).mp isFound).1, reaches⟩
  · rintro ⟨isThere, reaches⟩
    have isVisited := mem_visited_of_reaches hierarchy (List.mem_singleton_self _) reaches
    exact (mem_order_search hierarchy ∅ _ entry).mpr ⟨isThere, isVisited, Finset.notMem_empty _⟩

end PipelineHierarchy

end CiTelemetry
