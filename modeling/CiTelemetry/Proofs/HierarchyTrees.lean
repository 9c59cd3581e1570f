/-
This file proves that hierarchies are trees. Entries lie side by side and list by
id the pipelines that they started, so nothing in how they are stored makes a tree
of them. What does is kept by every attaching, also by one that is refused: the
root and all listed ids are together the ids of the entries, each once, and the
lists lead from the root to every entry. The walk over a hierarchy that grew this
way visits every entry once, and its parent before it.
-/

import CiTelemetry.Proofs.BridgeWalk
import Mathlib.Data.List.Nodup
import Mathlib.Data.List.Pairwise
import Mathlib.Data.List.Perm.Basic

namespace CiTelemetry

namespace PipelineHierarchy

variable {hierarchy : PipelineHierarchy} {parent id : Int} {child entry : HierarchyEntry}
  {remaining : List HierarchyEntry} {stack : List Int}

/-! ### Trees of entries -/

/-- The root, and what is listed by an entry that is itself reached this way. -/
inductive Descends (hierarchy : PipelineHierarchy) : Int → Prop
  | root : Descends hierarchy hierarchy.root
  | link {entry : HierarchyEntry} {id : Int} (member : entry ∈ hierarchy.entries)
      (above : Descends hierarchy entry.id) (listed : id ∈ entry.downstream) :
    Descends hierarchy id

/-- What makes a tree of entries side by side. -/
structure IsTree (hierarchy : PipelineHierarchy) : Prop where
  distinct : (hierarchy.entries.map (·.id)).Nodup
  links : (hierarchy.root :: hierarchy.entries.flatMap (·.downstream)).Perm
    (hierarchy.entries.map (·.id))
  connected : ∀ entry ∈ hierarchy.entries, hierarchy.Descends entry.id

/-- A root that lists nothing is a tree. -/
theorem IsTree.ofRoot {root : HierarchyEntry} (bare : root.downstream = []) :
    (PipelineHierarchy.ofRoot root).IsTree where
  distinct := List.nodup_singleton _
  links := by
    show (root.id :: [root].flatMap (·.downstream)).Perm [root.id]
    rw [List.flatMap_singleton, bare]
  connected := by
    intro entry member
    rw [List.mem_singleton.mp member]
    exact .root

/-! ### Attaching -/

theorem ids_link (hierarchy : PipelineHierarchy) (parent id : Int) :
    (hierarchy.link parent id).entries.map (·.id) = hierarchy.entries.map (·.id) := by
  rw [link, modify, List.map_map]
  refine List.map_congr_left fun entry _ => ?_
  rw [Function.comp_apply]
  split <;> rfl

theorem size_link (hierarchy : PipelineHierarchy) (parent id : Int) :
    (hierarchy.link parent id).size = hierarchy.size :=
  List.length_map _

/-- An entry lists the same ids after linking, and the linked one if it is the parent. -/
theorem exists_mem_link (child : Int) (member : entry ∈ hierarchy.entries) :
    ∃ later ∈ (hierarchy.link parent child).entries, later.id = entry.id ∧
      (∀ listed ∈ entry.downstream, listed ∈ later.downstream) ∧
      (entry.id = parent → child ∈ later.downstream) := by
  refine ⟨_, List.mem_map_of_mem member, ?_⟩
  split
  · exact ⟨rfl, fun _ => List.mem_append_left _,
      fun _ => List.mem_append_right _ List.mem_cons_self⟩
  · next other => exact ⟨rfl, fun _ => id, fun same => absurd (beq_iff_eq.mpr same) other⟩

/-- Of entries with different ids one at most is the parent. -/
theorem flatMap_of_distinct {entries : List HierarchyEntry} (child : Int)
    (distinct : (entries.map (·.id)).Nodup) (known : parent ∈ entries.map (·.id)) :
    (entries.flatMap fun entry => if entry.id == parent then [child] else []) = [child] := by
  induction entries with
  | nil => cases known
  | cons first rest inductionHypothesis =>
    rw [List.map_cons, List.nodup_cons] at distinct
    rw [List.map_cons, List.mem_cons] at known
    rw [List.flatMap_cons]
    by_cases same : first.id = parent
    · have noOther :
          (rest.flatMap fun entry => if entry.id == parent then [child] else []) = [] := by
        refine List.flatMap_eq_nil_iff.mpr fun entry member => if_neg fun also => ?_
        rw [same, ← beq_iff_eq.mp also] at distinct
        exact distinct.1 (List.mem_map_of_mem member)
      rw [if_pos (beq_iff_eq.mpr same), noOther, List.append_nil]
    · rw [if_neg (mt beq_iff_eq.mp same), List.nil_append]
      exact inductionHypothesis distinct.2 (known.resolve_left (Ne.symm same))

/-- Linking adds one id to what all entries list. -/
theorem links_link (child : Int) (distinct : (hierarchy.entries.map (·.id)).Nodup)
    (known : hierarchy.contains parent = true) :
    ((hierarchy.link parent child).entries.flatMap (·.downstream)).Perm
      (child :: hierarchy.entries.flatMap (·.downstream)) := by
  have appended : (hierarchy.link parent child).entries.flatMap (·.downstream) =
      hierarchy.entries.flatMap fun entry =>
        entry.downstream ++ if entry.id == parent then [child] else [] := by
    rw [link, modify, List.flatMap_map]
    refine List.flatMap_congr fun entry _ => ?_
    split
    · rfl
    · rw [List.append_nil]
  rw [appended]
  refine (List.flatMap_append_perm ..).symm.trans ?_
  rw [flatMap_of_distinct child distinct (by simpa using contains_iff.mp known)]
  exact List.perm_append_singleton child _

theorem contains_eq_false_iff :
    hierarchy.contains id = false ↔ id ∉ hierarchy.entries.map (·.id) := by
  rw [← Bool.not_eq_true, contains_iff, List.mem_map]

theorem accepts_iff : hierarchy.accepts parent child = true ↔
    hierarchy.contains parent = true ∧ hierarchy.contains child.id = false := by
  rw [accepts, Bool.and_eq_true, Bool.not_eq_true']

theorem Descends.attach (descends : hierarchy.Descends id) (parent : Int) (child : HierarchyEntry) :
    (hierarchy.attach parent child).Descends id := by
  cases accepted : hierarchy.accepts parent child with
  | false => rwa [attach_of_not_accepts accepted]
  | true =>
    induction descends with
    | root =>
      rw [← root_attach hierarchy parent child]
      exact .root
    | link member _ listed inductionHypothesis =>
      obtain ⟨later, inside, same, keeps, _⟩ := exists_mem_link child.id member
      rw [← same] at inductionHypothesis
      refine .link ?_ inductionHypothesis (keeps _ listed)
      rw [attach_of_accepts accepted]
      exact List.mem_append_left _ inside

/-- An attached entry stands behind all others. -/
theorem ids_attach (accepted : hierarchy.accepts parent child = true) :
    (hierarchy.attach parent child).entries.map (·.id) =
      hierarchy.entries.map (·.id) ++ [child.id] := by
  rw [attach_of_accepts accepted, List.map_append, ids_link, List.map_singleton]

theorem distinct_attach (distinct : (hierarchy.entries.map (·.id)).Nodup) (parent : Int)
    (child : HierarchyEntry) : ((hierarchy.attach parent child).entries.map (·.id)).Nodup := by
  cases accepted : hierarchy.accepts parent child with
  | false => rwa [attach_of_not_accepts accepted]
  | true =>
    rw [ids_attach accepted]
    exact List.nodup_append_comm.mp (List.nodup_cons.mpr
      ⟨contains_eq_false_iff.mp (accepts_iff.mp accepted).2, distinct⟩)

/-- Attaching an entry that lists nothing keeps a tree. -/
theorem IsTree.attach (tree : hierarchy.IsTree) (parent : Int) (bare : child.downstream = []) :
    (hierarchy.attach parent child).IsTree := by
  cases accepted : hierarchy.accepts parent child with
  | false => rwa [attach_of_not_accepts accepted]
  | true =>
    have known := (accepts_iff.mp accepted).1
    refine ⟨distinct_attach tree.distinct parent child, ?_, fun entry member => ?_⟩
    · rw [ids_attach accepted, root_attach, attach_of_accepts accepted, List.flatMap_append,
        List.flatMap_singleton, bare, List.append_nil]
      have grown := (links_link child.id tree.distinct known).cons hierarchy.root
      have both := grown.trans ((List.Perm.swap ..).trans (tree.links.cons child.id))
      exact both.trans (List.perm_append_singleton child.id _).symm
    · rw [attach_of_accepts accepted, List.mem_append, List.mem_singleton] at member
      rcases member with linked | rfl
      · obtain ⟨former, inside, same⟩ := mem_link linked
        rw [(HierarchyEntry.same_of_bare same).1]
        exact (tree.connected former inside).attach parent child
      · obtain ⟨former, inside, isParent⟩ := contains_iff.mp known
        obtain ⟨later, after, same, _, lists⟩ := exists_mem_link entry.id inside
        have above := (tree.connected former inside).attach parent entry
        rw [← same] at above
        refine .link ?_ above (lists isParent)
        rw [attach_of_accepts accepted]
        exact List.mem_append_left _ after

/-! ### Parents -/

namespace IsTree

/-- Entries with the same id are the same. -/
theorem eq_of_id (tree : hierarchy.IsTree) {first second : HierarchyEntry}
    (isFirst : first ∈ hierarchy.entries) (isSecond : second ∈ hierarchy.entries)
    (same : first.id = second.id) : first = second :=
  List.inj_on_of_nodup_map tree.distinct isFirst isSecond same

/-- The root and what is listed are different ids, and no id is listed twice. -/
theorem nodup_links (tree : hierarchy.IsTree) :
    (hierarchy.root :: hierarchy.entries.flatMap (·.downstream)).Nodup :=
  tree.links.nodup_iff.mpr tree.distinct

theorem root_not_listed (tree : hierarchy.IsTree) (member : entry ∈ hierarchy.entries) :
    hierarchy.root ∉ entry.downstream := by
  intro listed
  exact (List.nodup_cons.mp tree.nodup_links).1 (List.mem_flatMap.mpr ⟨entry, member, listed⟩)

/-- The root has no parent. -/
theorem parentOf?_root (tree : hierarchy.IsTree) : hierarchy.parentOf? hierarchy.root = none := by
  refine List.find?_eq_none.mpr fun entry member => ?_
  rw [List.contains_iff_mem]
  exact tree.root_not_listed member

/-- No two entries list the same id. -/
theorem eq_of_listed (tree : hierarchy.IsTree) {first second : HierarchyEntry}
    (isFirst : first ∈ hierarchy.entries) (isSecond : second ∈ hierarchy.entries)
    (inFirst : id ∈ first.downstream) (inSecond : id ∈ second.downstream) : first = second := by
  by_contra other
  have apart := (List.nodup_flatMap.mp (List.nodup_cons.mp tree.nodup_links).2).2
  have symmetric : Std.Symm (Function.onFun List.Disjoint fun entry : HierarchyEntry =>
    entry.downstream) := ⟨fun _ _ => List.disjoint_symm⟩
  exact apart.forall isFirst isSecond other inFirst inSecond

/-- What an entry lists has that entry as its parent. -/
theorem parentOf?_of_listed (tree : hierarchy.IsTree) (member : entry ∈ hierarchy.entries)
    (listed : id ∈ entry.downstream) : hierarchy.parentOf? id = some entry := by
  have found : (hierarchy.parentOf? id).isSome = true :=
    List.find?_isSome.mpr ⟨entry, member, List.contains_iff_mem.mpr listed⟩
  obtain ⟨parent, isParent⟩ := Option.isSome_iff_exists.mp found
  have lists : id ∈ parent.downstream := by
    simpa using List.find?_some isParent
  rw [isParent, tree.eq_of_listed (List.mem_of_find?_eq_some isParent) member lists listed]

/-- Every entry other than the root is listed by an entry. -/
theorem exists_listed (tree : hierarchy.IsTree) (member : entry ∈ hierarchy.entries)
    (other : entry.id ≠ hierarchy.root) :
    ∃ parent ∈ hierarchy.entries, entry.id ∈ parent.downstream := by
  have known := tree.links.mem_iff.mpr (List.mem_map_of_mem member)
  exact List.mem_flatMap.mp ((List.mem_cons.mp known).resolve_left other)

/-- The root is an entry. -/
theorem exists_root (tree : hierarchy.IsTree) :
    ∃ entry ∈ hierarchy.entries, entry.id = hierarchy.root := by
  have known := tree.links.mem_iff.mp List.mem_cons_self
  obtain ⟨entry, member, same⟩ := List.mem_map.mp known
  exact ⟨entry, member, same⟩

end IsTree

/-- An entry is listed as started by exactly one entry, exactly once, and that one is its parent. -/
def HasOneParent (hierarchy : PipelineHierarchy) (entry : HierarchyEntry) : Prop :=
  ∃ parent ∈ hierarchy.entries, hierarchy.parentOf? entry.id = some parent ∧
    parent.downstream.count entry.id = 1 ∧
      ∀ other ∈ hierarchy.entries, entry.id ∈ other.downstream → other = parent

theorem IsTree.hasOneParent (tree : hierarchy.IsTree) (member : entry ∈ hierarchy.entries)
    (other : entry.id ≠ hierarchy.root) : hierarchy.HasOneParent entry := by
  obtain ⟨parent, inside, listed⟩ := tree.exists_listed member other
  have once := (List.nodup_flatMap.mp (List.nodup_cons.mp tree.nodup_links).2).1 parent inside
  exact ⟨parent, inside, tree.parentOf?_of_listed inside listed,
    List.count_eq_one_of_mem once listed,
    fun other isOther also => tree.eq_of_listed isOther inside also listed⟩

/-! ### The walk -/

theorem mem_without {other : HierarchyEntry} :
    other ∈ without remaining id ↔ other ∈ remaining ∧ other.id ≠ id := by
  rw [without, List.mem_filter, bne_iff_ne]

/-- A walk visits only what remains, and nothing twice. -/
theorem walk_subperm (remaining : List HierarchyEntry) (stack : List Int) :
    (walk remaining stack).Subperm remaining := by
  induction remaining, stack using walk.induct with
  | case1 remaining =>
    rw [walk]
    exact List.nil_subperm
  | case2 remaining id rest notFound inductionHypothesis =>
    rw [walk, notFound]
    exact inductionHypothesis
  | case3 remaining id rest entry found inductionHypothesis =>
    rw [walk, found]
    have isSought : entry.id = id := by simpa using List.find?_some found
    have notAgain : entry ∉ walk (without remaining id) (entry.downstream ++ rest) :=
      fun again => (mem_without.mp (inductionHypothesis.subset again)).2 isSought
    exact List.cons_subperm_of_not_mem_of_mem notAgain (List.mem_of_find?_eq_some found)
      (inductionHypothesis.trans List.filter_sublist.subperm)

/-- A walk visits what remains of the stack and of all that is listed by what it visits. -/
theorem walk_closed (remaining : List HierarchyEntry) (stack : List Int)
    (distinct : (remaining.map (·.id)).Nodup) :
    (∀ entry ∈ remaining, entry.id ∈ stack → entry ∈ walk remaining stack) ∧
      ∀ entry ∈ walk remaining stack, ∀ child ∈ remaining, child.id ∈ entry.downstream →
        child ∈ walk remaining stack := by
  induction remaining, stack using walk.induct with
  | case1 remaining =>
    rw [walk]
    exact ⟨fun _ _ onStack => (nomatch onStack), fun _ visited => nomatch visited⟩
  | case2 remaining id rest notFound inductionHypothesis =>
    rw [walk, notFound]
    obtain ⟨visits, closed⟩ := inductionHypothesis distinct
    refine ⟨fun entry member onStack => visits entry member ?_, closed⟩
    refine (List.mem_cons.mp onStack).resolve_left fun same => ?_
    exact List.find?_eq_none.mp notFound entry member (beq_iff_eq.mpr same)
  | case3 remaining id rest entry found inductionHypothesis =>
    rw [walk, found]
    have isSought : entry.id = id := by simpa using List.find?_some found
    have isThere := List.mem_of_find?_eq_some found
    obtain ⟨visits, closed⟩ :=
      inductionHypothesis (distinct.sublist (List.filter_sublist.map _))
    -- The entry that was found is visited first; all others remain.
    have visitsAll : ∀ other ∈ remaining, (other.id ≠ id →
        other ∈ walk (without remaining id) (entry.downstream ++ rest)) →
          other ∈ entry :: walk (without remaining id) (entry.downstream ++ rest) := by
      intro other member visited
      by_cases same : other.id = id
      · have sameId := same.trans isSought.symm
        rw [List.inj_on_of_nodup_map distinct member isThere sameId]
        exact List.mem_cons_self
      · exact List.mem_cons_of_mem _ (visited same)
    refine ⟨fun other member onStack => visitsAll other member fun different => ?_,
      fun visited isVisited child member listed => visitsAll child member fun different => ?_⟩
    · have onRest := (List.mem_cons.mp onStack).resolve_left different
      exact visits other (mem_without.mpr ⟨member, different⟩) (List.mem_append_right _ onRest)
    · rcases List.mem_cons.mp isVisited with rfl | later
      · exact visits child (mem_without.mpr ⟨member, different⟩) (List.mem_append_left _ listed)
      · exact closed visited later child (mem_without.mpr ⟨member, different⟩) listed

/-- What a walk visits was on the stack to begin with or is listed by an entry visited before. -/
theorem listed_before {before after : List HierarchyEntry}
    (visited : walk remaining stack = before ++ child :: after) :
    child.id ∈ stack ∨ ∃ parent ∈ before, child.id ∈ parent.downstream := by
  induction remaining, stack using walk.induct generalizing before with
  | case1 remaining =>
    rw [walk] at visited
    exact absurd visited.symm (List.append_ne_nil_of_right_ne_nil _ (List.cons_ne_nil _ _))
  | case2 remaining id rest notFound inductionHypothesis =>
    rw [walk, notFound] at visited
    exact (inductionHypothesis visited).imp_left (List.mem_cons_of_mem _)
  | case3 remaining id rest entry found inductionHypothesis =>
    rw [walk, found] at visited
    have isSought : entry.id = id := by simpa using List.find?_some found
    cases before with
    | nil =>
      cases visited
      exact .inl (isSought ▸ List.mem_cons_self)
    | cons first before =>
      rw [List.cons_append, List.cons.injEq] at visited
      obtain ⟨rfl, later⟩ := visited
      rcases inductionHypothesis later with onStack | ⟨parent, isBefore, listed⟩
      · rcases List.mem_append.mp onStack with own | onRest
        · exact .inr ⟨entry, List.mem_cons_self, own⟩
        · exact .inl (List.mem_cons_of_mem _ onRest)
      · exact .inr ⟨parent, List.mem_cons_of_mem _ isBefore, listed⟩

namespace IsTree

/-- The walk over a tree visits every entry once. -/
theorem depthFirst_perm (tree : hierarchy.IsTree) :
    hierarchy.depthFirst.Perm hierarchy.entries := by
  obtain ⟨visits, closed⟩ := walk_closed hierarchy.entries [hierarchy.root] tree.distinct
  have visited : ∀ id, hierarchy.Descends id → ∀ entry ∈ hierarchy.entries, entry.id = id →
      entry ∈ hierarchy.depthFirst := by
    intro id descends
    induction descends with
    | root => exact fun entry member same => visits entry member (same ▸ List.mem_cons_self)
    | @link parent id inside _ listed inductionHypothesis =>
      intro entry member same
      exact closed parent (inductionHypothesis parent inside rfl) entry member (same ▸ listed)
  refine (walk_subperm _ _).antisymm ?_
  refine List.subperm_of_subset tree.distinct.of_map fun entry member => ?_
  exact visited entry.id (tree.connected entry member) entry member rfl

/-- The walk begins with the root. -/
theorem depthFirst_eq_cons (tree : hierarchy.IsTree) :
    ∃ first rest, hierarchy.depthFirst = first :: rest ∧ first.id = hierarchy.root := by
  obtain ⟨root, member, isRoot⟩ := tree.exists_root
  have visited := tree.depthFirst_perm.mem_iff.mpr member
  cases walked : hierarchy.depthFirst with
  | nil =>
    rw [walked] at visited
    cases visited
  | cons first rest =>
    have fromStart : walk hierarchy.entries [hierarchy.root] = [] ++ first :: rest := walked
    rcases listed_before fromStart with onStack | ⟨_, isBefore, _⟩
    · exact ⟨first, rest, rfl, List.mem_singleton.mp onStack⟩
    · cases isBefore

/-- The walk visits the parent of an entry before the entry. -/
theorem parent_before (tree : hierarchy.IsTree) {before after : List HierarchyEntry}
    {parent : HierarchyEntry} (visited : hierarchy.depthFirst = before ++ child :: after)
    (isParent : hierarchy.parentOf? child.id = some parent) : parent ∈ before := by
  rcases listed_before visited with onStack | ⟨other, isBefore, listed⟩
  · rw [List.mem_singleton.mp onStack, tree.parentOf?_root] at isParent
    cases isParent
  · have inside : other ∈ hierarchy.entries := by
      refine tree.depthFirst_perm.mem_iff.mp ?_
      rw [visited]
      exact List.mem_append_left _ isBefore
    rw [tree.parentOf?_of_listed inside listed] at isParent
    cases isParent
    exact isBefore

end IsTree

/-! ### Any attaching -/

/-- Attaches entries one after another, each below a pipeline. -/
def attachAll (hierarchy : PipelineHierarchy) :
    List (Int × HierarchyEntry) → PipelineHierarchy
  | [] => hierarchy
  | (parent, child) :: rest => (hierarchy.attach parent child).attachAll rest

/-- How many of the entries are attached and not refused. -/
def attachedCount (hierarchy : PipelineHierarchy) : List (Int × HierarchyEntry) → Nat
  | [] => 0
  | (parent, child) :: rest =>
    (if hierarchy.accepts parent child then 1 else 0) +
      (hierarchy.attach parent child).attachedCount rest

theorem size_attach (hierarchy : PipelineHierarchy) (parent : Int) (child : HierarchyEntry) :
    (hierarchy.attach parent child).size =
      hierarchy.size + if hierarchy.accepts parent child then 1 else 0 := by
  cases accepted : hierarchy.accepts parent child with
  | false => rw [attach_of_not_accepts accepted, if_neg Bool.false_ne_true, Nat.add_zero]
  | true =>
    rw [size, attach_of_accepts accepted, List.length_append, ← size, size_link, if_pos rfl]
    rfl

theorem size_attachAll (hierarchy : PipelineHierarchy) (calls : List (Int × HierarchyEntry)) :
    (hierarchy.attachAll calls).size = hierarchy.size + hierarchy.attachedCount calls := by
  induction calls generalizing hierarchy with
  | nil => rfl
  | cons call rest inductionHypothesis =>
    rw [attachAll, attachedCount, inductionHypothesis, size_attach, Nat.add_assoc]

theorem root_attachAll (hierarchy : PipelineHierarchy) (calls : List (Int × HierarchyEntry)) :
    (hierarchy.attachAll calls).root = hierarchy.root := by
  induction calls generalizing hierarchy with
  | nil => rfl
  | cons call rest inductionHypothesis => rw [attachAll, inductionHypothesis, root_attach]

theorem IsTree.attachAll (tree : hierarchy.IsTree) {calls : List (Int × HierarchyEntry)}
    (bare : ∀ call ∈ calls, call.2.downstream = []) : (hierarchy.attachAll calls).IsTree := by
  induction calls generalizing hierarchy with
  | nil => exact tree
  | cons call rest inductionHypothesis =>
    have first := tree.attach call.1 (bare call List.mem_cons_self)
    exact inductionHypothesis first fun other later => bare other (List.mem_cons_of_mem _ later)

/-- An entry is refused where the parent is unknown or the entry is there already. -/
theorem accepts_eq_false_iff : hierarchy.accepts parent child = false ↔
    hierarchy.contains parent = false ∨ hierarchy.contains child.id = true := by
  rw [accepts, Bool.and_eq_false_iff, Bool.not_eq_false']

/-- Only an entry that is refused leaves the hierarchy as it is. -/
theorem attach_eq_self_iff : hierarchy.attach parent child = hierarchy ↔
    hierarchy.accepts parent child = false := by
  refine ⟨fun same => ?_, attach_of_not_accepts⟩
  have sizes := size_attach hierarchy parent child
  rw [same] at sizes
  cases accepted : hierarchy.accepts parent child with
  | false => rfl
  | true =>
    rw [accepted, if_pos rfl] at sizes
    omega

/-- Hierarchies are trees. Take any that grew from a root by attaching entries, in whatever order
and refused or not. Every entry but the root is listed by exactly one entry, exactly once, which is
its parent, and the root has none. The walk visits every entry once, the root first and every parent
before what it started. The entries are the root and those that were attached, all with different
ids; and an entry is refused, which leaves the hierarchy as it is, where its parent is unknown or
its id is taken, and only there. -/
theorem attachAll_isTree {root : HierarchyEntry} {calls : List (Int × HierarchyEntry)}
    (rootBare : root.downstream = []) (bare : ∀ call ∈ calls, call.2.downstream = []) :
    let hierarchy := (PipelineHierarchy.ofRoot root).attachAll calls
    (hierarchy.root = root.id ∧ hierarchy.parentOf? root.id = none ∧
      ∀ entry ∈ hierarchy.entries, entry.id ≠ root.id → hierarchy.HasOneParent entry) ∧
    (hierarchy.depthFirst.Perm hierarchy.entries ∧ (hierarchy.entries.map (·.id)).Nodup ∧
      (∃ first rest, hierarchy.depthFirst = first :: rest ∧ first.id = root.id) ∧
      ∀ before child after parent, hierarchy.depthFirst = before ++ child :: after →
        hierarchy.parentOf? child.id = some parent → parent ∈ before) ∧
    hierarchy.size = 1 + (PipelineHierarchy.ofRoot root).attachedCount calls ∧
    ∀ parent child,
      (hierarchy.accepts parent child = false ↔
        hierarchy.contains parent = false ∨ hierarchy.contains child.id = true) ∧
      (hierarchy.attach parent child = hierarchy ↔ hierarchy.accepts parent child = false) := by
  intro hierarchy
  have tree : hierarchy.IsTree := (IsTree.ofRoot rootBare).attachAll bare
  have isRoot : hierarchy.root = root.id := root_attachAll _ calls
  rw [← isRoot]
  refine ⟨⟨rfl, tree.parentOf?_root, fun entry member other => tree.hasOneParent member other⟩,
    ⟨tree.depthFirst_perm, tree.distinct, tree.depthFirst_eq_cons, ?_⟩, size_attachAll _ calls,
    fun parent child => ⟨accepts_eq_false_iff, attach_eq_self_iff⟩⟩
  intro before child after parent visited isParent
  exact tree.parent_before visited isParent

namespace FourPipelines

/-- The entry of a pipeline of which only the id matters. -/
def numbered (id : Int) : HierarchyEntry :=
  .ofPipeline { (default : Pipeline) with id }

/-- Three pipelines that are attached, one that is there already and one whose parent is not. -/
def calls : List (Int × HierarchyEntry) :=
  [(1, numbered 2), (1, numbered 3), (2, numbered 1), (2, numbered 4), (9, numbered 5)]

/-- The hierarchy has four entries, and the last one that was attached has one parent. -/
theorem calls_isTree :
    let hierarchy := (PipelineHierarchy.ofRoot (numbered 1)).attachAll calls
    (numbered 1).downstream = [] ∧ (∀ call ∈ calls, call.2.downstream = []) ∧
      hierarchy.size = 4 ∧ hierarchy.HasOneParent (numbered 4) ∧
        hierarchy.parentOf? 4 = some { numbered 2 with downstream := [4] } := by
  intro hierarchy
  have rootBare : (numbered 1).downstream = [] := rfl
  have bare : ∀ call ∈ calls, call.2.downstream = [] := by decide
  obtain ⟨⟨_, _, oneParent⟩, _, counted, _⟩ := attachAll_isTree rootBare bare
  exact ⟨rootBare, bare, counted, oneParent (numbered 4) (by decide) (by decide), by decide⟩

end FourPipelines

end PipelineHierarchy

end CiTelemetry
