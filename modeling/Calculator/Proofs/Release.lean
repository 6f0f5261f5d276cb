import Calculator.Tree.Dismantling
import Mathlib.Data.List.Nodup

/-!
# Every node is released once

A tree is taken apart by a loop over detached nodes. To tell equal nodes apart,
they are followed with their positions in the tree. At every point of the loop, the
nodes below the root are those that were popped, those that are detached, and those
still attached below a detached one, and no position occurs twice. So at the end
every node was popped once, and each was released when it had only leaves left.
-/

namespace Calculator

/-! ## Positions -/

/-- Which operand of a node is meant. -/
inductive Side where
  /-- The left operand. -/
  | left
  /-- The right operand. -/
  | right
  deriving DecidableEq, Repr

/-- The tree at a position of a tree, which is reached by going down from the root. -/
def Tree.at? : Tree → List Side → Option Tree
  | t, [] => some t
  | .leaf _, _ :: _ => none
  | .node _ left _, .left :: path => left.at? path
  | .node _ _ right, .right :: path => right.at? path

/-- The number of nodes of a tree, without its leaves. -/
def Tree.nodeCount : Tree → ℕ
  | .leaf _ => 0
  | .node _ left right => left.nodeCount + right.nodeCount + 1

/-- A part of a tree, with its position there. -/
structure Subtree where
  /-- The way from the root to the part. -/
  path : List Side
  /-- The part itself. -/
  tree : Tree

/-- The nodes of a tree that is found at a position, the tree itself first. -/
def Tree.nodesFrom (path : List Side) : Tree → List Subtree
  | .leaf _ => []
  | .node op left right =>
    ⟨path, .node op left right⟩ ::
      (left.nodesFrom (path ++ [.left]) ++ right.nodesFrom (path ++ [.right]))

namespace Tree

/-- As many nodes are found as are counted. -/
theorem length_nodesFrom (t : Tree) (path : List Side) :
    (t.nodesFrom path).length = t.nodeCount := by
  induction t generalizing path with
  | leaf value => rfl
  | node op left right ihleft ihright =>
    rw [nodesFrom, List.length_cons, List.length_append, ihleft, ihright, nodeCount]

/-- The nodes of a tree are found at their positions. -/
theorem mem_nodesFrom (t : Tree) (path : List Side) (part : Subtree) :
    part ∈ t.nodesFrom path ↔
      ∃ below, part.path = path ++ below ∧ t.at? below = some part.tree ∧
        part.tree.isLeaf = false := by
  induction t generalizing path with
  | leaf value =>
    constructor
    · rintro ⟨⟩
    · rintro ⟨below, _, hat, hnode⟩
      cases below with
      | nil =>
        rw [← Option.some.inj hat] at hnode
        cases hnode
      | cons side below => cases hat
  | node op left right ihleft ihright =>
    rw [nodesFrom, List.mem_cons, List.mem_append, ihleft, ihright]
    constructor
    · rintro (rfl | ⟨below, hpath, hat, hnode⟩ | ⟨below, hpath, hat, hnode⟩)
      · exact ⟨[], (List.append_nil path).symm, rfl, rfl⟩
      · exact ⟨.left :: below, by rw [hpath, List.append_assoc, List.singleton_append], hat, hnode⟩
      · exact ⟨.right :: below, by rw [hpath, List.append_assoc, List.singleton_append], hat, hnode⟩
    · rintro ⟨below, hpath, hat, hnode⟩
      match below with
      | [] =>
        left
        obtain ⟨path', tree⟩ := part
        obtain rfl : path' = path := hpath.trans (List.append_nil path)
        obtain rfl := Option.some.inj hat
        rfl
      | .left :: below =>
        right
        left
        exact ⟨below, by rw [hpath, List.append_assoc, List.singleton_append], hat, hnode⟩
      | .right :: below =>
        right
        right
        exact ⟨below, by rw [hpath, List.append_assoc, List.singleton_append], hat, hnode⟩

/-- No position occurs twice among the nodes of a tree. -/
theorem nodup_nodesFrom (t : Tree) (path : List Side) :
    ((t.nodesFrom path).map Subtree.path).Nodup := by
  induction t generalizing path with
  | leaf value => exact List.nodup_nil
  | node op left right ihleft ihright =>
    -- The positions on the two sides differ in the step behind `path`.
    have hbelow {side : Side} {operand : Tree} {position : List Side}
        (hmem : position ∈ (operand.nodesFrom (path ++ [side])).map Subtree.path) :
        ∃ below, position = path ++ side :: below := by
      obtain ⟨part, hpart, rfl⟩ := List.mem_map.mp hmem
      obtain ⟨below, hpath, _⟩ := (operand.mem_nodesFrom _ part).mp hpart
      exact ⟨below, by rw [hpath, List.append_assoc, List.singleton_append]⟩
    rw [nodesFrom, List.map_cons, List.map_append, List.nodup_cons, List.nodup_append]
    refine ⟨?_, ihleft _, ihright _, ?_⟩
    · intro hmem
      rcases List.mem_append.mp hmem with hmem | hmem <;>
        · obtain ⟨below, hpath⟩ := hbelow hmem
          simp at hpath
    · intro position hleft position' hright hsame
      obtain ⟨below, hpath⟩ := hbelow hleft
      obtain ⟨below', hpath'⟩ := hbelow hright
      rw [hpath, hpath'] at hsame
      cases List.append_cancel_left hsame

/-- Below the root are the nodes at the positions other than the root's. -/
theorem mem_tail_nodesFrom (t : Tree) (part : Subtree) :
    part ∈ (t.nodesFrom []).tail ↔
      part.path ≠ [] ∧ t.at? part.path = some part.tree ∧ part.tree.isLeaf = false := by
  have hmem := t.mem_nodesFrom [] part
  simp only [List.nil_append, exists_eq_left'] at hmem
  rw [← hmem]
  have hnodup := t.nodup_nodesFrom []
  cases t with
  | leaf value => simp [nodesFrom]
  | node op left right =>
    rw [nodesFrom, List.map_cons, List.nodup_cons] at hnodup
    rw [nodesFrom, List.tail_cons, List.mem_cons]
    constructor
    · intro hpart
      refine ⟨?_, Or.inr hpart⟩
      intro hroot
      exact hnodup.1 (List.mem_map.mpr ⟨part, hpart, hroot⟩)
    · rintro ⟨hne, rfl | hpart⟩
      · exact absurd rfl hne
      · exact hpart

end Tree

/-! ## Detaching operands -/

namespace Subtree

/-- The nodes of a part with their positions. -/
def nodes (part : Subtree) : List Subtree := part.tree.nodesFrom part.path

/-- The operands of a part that are detached from it, the left one first. -/
def detached (part : Subtree) : List Subtree :=
  match part.tree with
  | .leaf _ => []
  | .node _ left right =>
    [⟨part.path ++ [.left], left⟩, ⟨part.path ++ [.right], right⟩].filter
      fun operand => !operand.tree.isLeaf

/-- Without their positions, these are the operands that detaching gives. -/
theorem map_tree_detached (part : Subtree) :
    part.detached.map Subtree.tree = part.tree.detach.2 := by
  obtain ⟨path, value | ⟨op, left, right⟩⟩ := part
  · rfl
  · cases hleft : left.isLeaf <;> cases hright : right.isLeaf <;>
      simp [detached, Tree.detach, hleft, hright]

/-- Only nodes are detached. -/
theorem isLeaf_of_mem_detached {part operand : Subtree} (hmem : operand ∈ part.detached) :
    operand.tree.isLeaf = false := by
  obtain ⟨path, value | ⟨op, left, right⟩⟩ := part
  · cases hmem
  · simpa using (List.mem_filter.mp hmem).2

/-- The nodes below a part are those of the operands that are detached from it:
nothing else stays attached. -/
theorem flatMap_nodes_detached (part : Subtree) :
    part.detached.flatMap nodes = part.nodes.tail := by
  have hleaf {operand : Tree} (path : List Side) (h : operand.isLeaf = true) :
      operand.nodesFrom path = [] := by
    cases operand with
    | leaf value => rfl
    | node op left right => cases h
  obtain ⟨path, value | ⟨op, left, right⟩⟩ := part
  · rfl
  · cases hleft : left.isLeaf <;> cases hright : right.isLeaf <;>
      simp [detached, nodes, Tree.nodesFrom, hleft, hright, hleaf]

/-- A part that is a node is the first of its nodes. -/
theorem nodes_eq {part : Subtree} (hnode : part.tree.isLeaf = false) :
    part.nodes = part :: part.detached.flatMap nodes := by
  rw [flatMap_nodes_detached]
  obtain ⟨path, value | ⟨op, left, right⟩⟩ := part
  · cases hnode
  · rfl

/-- Detached nodes are among the nodes that they hold. -/
theorem sublist_flatMap_nodes {parts : List Subtree}
    (hnodes : ∀ part ∈ parts, part.tree.isLeaf = false) :
    parts.Sublist (parts.flatMap nodes) := by
  induction parts with
  | nil => exact List.nil_sublist _
  | cons part rest ih =>
    rw [List.forall_mem_cons] at hnodes
    rw [List.flatMap_cons, nodes_eq hnodes.1, List.cons_append]
    exact ((ih hnodes.2).trans (List.sublist_append_right _ _)).cons_cons part

end Subtree

/-! ## The turns of the loop -/

/-- In some turns, the loop pops parts from the first detached ones and comes to
the second detached ones. -/
inductive Releases : List Subtree → List Subtree → List Subtree → Prop
  /-- Before its first turn, the loop has popped nothing. -/
  | start (detached : List Subtree) : Releases detached [] detached
  /-- The part on top is popped, and its operands are detached and put in its place,
  the right one on top. -/
  | turn {part : Subtree} {rest popped detached : List Subtree} :
      Releases (part.detached.reverse ++ rest) popped detached →
      Releases (part :: rest) (part :: popped) detached

namespace Releases

variable {pending pending' popped : List Subtree}

/-- The turns release the parts that were popped, with their operands detached. -/
theorem releaseAll_eq (h : Releases pending popped pending') (released : List Tree) :
    releaseAll released (pending.map Subtree.tree) =
      releaseAll ((popped.map fun part => part.tree.detach.1).reverse ++ released)
        (pending'.map Subtree.tree) := by
  induction h generalizing released with
  | start detached => rfl
  | @turn part rest popped detached _ ih =>
    have hpending : part.tree.detach.2.reverse ++ rest.map Subtree.tree =
        (part.detached.reverse ++ rest).map Subtree.tree := by
      rw [List.map_append, List.map_reverse, part.map_tree_detached]
    rw [List.map_cons, releaseAll, hpending, ih]
    simp

/-- The turns neither lose a node nor find one twice, and only nodes are detached. -/
theorem nodes_perm (h : Releases pending popped pending')
    (hnodes : ∀ part ∈ pending, part.tree.isLeaf = false) :
    (popped ++ pending'.flatMap Subtree.nodes).Perm (pending.flatMap Subtree.nodes) ∧
      ∀ part ∈ pending', part.tree.isLeaf = false := by
  induction h with
  | start detached => exact ⟨List.Perm.refl _, hnodes⟩
  | @turn part rest popped detached _ ih =>
    rw [List.forall_mem_cons] at hnodes
    have hoperands : ∀ operand ∈ part.detached.reverse ++ rest, operand.tree.isLeaf = false := by
      intro operand hmem
      rcases List.mem_append.mp hmem with hdetached | hrest
      · exact Subtree.isLeaf_of_mem_detached (List.mem_reverse.mp hdetached)
      · exact hnodes.2 operand hrest
    obtain ⟨hperm, hleft⟩ := ih hoperands
    refine ⟨?_, hleft⟩
    rw [List.flatMap_append] at hperm
    rw [List.flatMap_cons, Subtree.nodes_eq hnodes.1, List.cons_append, List.cons_append]
    apply List.Perm.cons
    exact hperm.trans
      (((List.reverse_perm part.detached).flatMap_right Subtree.nodes).append_right _)

/-- The loop comes to its end. -/
theorem to_end (pending : List Subtree) : ∃ popped, Releases pending popped [] := by
  induction hsize : totalSize (pending.map Subtree.tree) using Nat.strongRecOn
    generalizing pending with
  | ind size ih =>
    cases pending with
    | nil => exact ⟨[], .start []⟩
    | cons part rest =>
      have hsmaller : totalSize ((part.detached.reverse ++ rest).map Subtree.tree) < size := by
        have hless := part.tree.totalSize_detach_lt
        rw [List.map_cons, totalSize] at hsize
        rw [List.map_append, List.map_reverse, part.map_tree_detached, totalSize_append]
        omega
      obtain ⟨popped, hpopped⟩ := ih _ hsmaller _ rfl
      exact ⟨part :: popped, .turn hpopped⟩

end Releases

/-! ## Released nodes -/

namespace Tree

/-- The operands of the tree, if it has any, are leaves. -/
def Bare : Tree → Prop
  | .leaf _ => True
  | .node _ left right => left.isLeaf = true ∧ right.isLeaf = true

/-- What stays in place of an operand is a leaf. -/
theorem isLeaf_placeholder (child : Tree) : child.placeholder.isLeaf = true := by
  unfold placeholder
  split_ifs with hleaf
  · exact hleaf
  · rfl

/-- A tree whose operands are detached has only leaves left. -/
theorem bare_detach (t : Tree) : t.detach.1.Bare := by
  cases t with
  | leaf value => trivial
  | node op left right => exact ⟨left.isLeaf_placeholder, right.isLeaf_placeholder⟩

/-- From a tree with only leaves nothing is detached. -/
theorem Bare.detach_eq {t : Tree} (h : t.Bare) : t.detach = (t, []) := by
  cases t with
  | leaf value => rfl
  | node op left right =>
    obtain ⟨hleft, hright⟩ := h
    simp [detach, placeholder, hleft, hright]

/-- A tree with only leaves is released at once. -/
theorem Bare.dismantle_eq {t : Tree} (h : t.Bare) : t.dismantle = [t] := by
  rw [dismantle, h.detach_eq, List.reverse_nil, releaseAll]
  rfl

/-- What was popped from a tree and what is detached from it are nodes below the
root, each at its own position, and every other one is still attached to a detached
node. -/
structure DetachedOnce (t : Tree) (popped pending : List Subtree) : Prop where
  /-- No position occurs twice. -/
  distinct : ((popped ++ pending).map Subtree.path).Nodup
  /-- Only nodes below the root are detached. -/
  below_root : ∀ part ∈ popped ++ pending,
    part.path ≠ [] ∧ t.at? part.path = some part.tree ∧ part.tree.isLeaf = false
  /-- Every node below the root was popped, or it is in a part that is detached. -/
  complete : ∀ part : Subtree, part.path ≠ [] → t.at? part.path = some part.tree →
    part.tree.isLeaf = false →
    part ∈ popped ∨ ∃ holder ∈ pending, ∃ below,
      part.path = holder.path ++ below ∧ holder.tree.at? below = some part.tree

/-- At every point of the loop, the nodes below the root were popped or are held by
the detached parts. -/
theorem nodes_perm_of_releases {t : Tree} {popped pending : List Subtree}
    (h : Releases (Subtree.mk [] t).detached.reverse popped pending) :
    (popped ++ pending.flatMap Subtree.nodes).Perm (t.nodesFrom []).tail ∧
      ∀ part ∈ pending, part.tree.isLeaf = false := by
  obtain ⟨hperm, hnodes⟩ := h.nodes_perm fun part hmem =>
    Subtree.isLeaf_of_mem_detached (List.mem_reverse.mp hmem)
  refine ⟨hperm.trans ?_, hnodes⟩
  have hroot := (Subtree.mk [] t).flatMap_nodes_detached
  rw [show (Subtree.mk [] t).nodes = t.nodesFrom [] from rfl] at hroot
  rw [← hroot]
  exact (List.reverse_perm _).flatMap_right Subtree.nodes

/-- At every point of the loop, no node is lost and none is detached twice. -/
theorem detachedOnce_of_releases {t : Tree} {popped pending : List Subtree}
    (h : Releases (Subtree.mk [] t).detached.reverse popped pending) :
    t.DetachedOnce popped pending := by
  obtain ⟨hperm, hnodes⟩ := nodes_perm_of_releases h
  have hsublist : (popped ++ pending).Sublist (popped ++ pending.flatMap Subtree.nodes) :=
    (Subtree.sublist_flatMap_nodes hnodes).append_left popped
  refine ⟨?_, ?_, ?_⟩
  · have hnodup : ((t.nodesFrom []).tail.map Subtree.path).Nodup := by
      rw [List.map_tail]
      exact (t.nodup_nodesFrom []).tail
    exact ((hperm.map Subtree.path).nodup_iff.mpr hnodup).sublist (hsublist.map Subtree.path)
  · intro part hmem
    exact (t.mem_tail_nodesFrom part).mp (hperm.mem_iff.mp (hsublist.subset hmem))
  · intro part hne hat hnode
    have hmem := hperm.mem_iff.mpr ((t.mem_tail_nodesFrom part).mpr ⟨hne, hat, hnode⟩)
    rcases List.mem_append.mp hmem with hpopped | hheld
    · exact Or.inl hpopped
    · obtain ⟨holder, hholder, hinside⟩ := List.mem_flatMap.mp hheld
      obtain ⟨below, hpath, hbelow, _⟩ := (holder.tree.mem_nodesFrom holder.path part).mp hinside
      exact Or.inr ⟨holder, hholder, below, hpath, hbelow⟩

/-- The loop over the detached nodes of a tree comes to its end. It pops every node
below the root exactly once, one fewer than there are nodes, and releases it and at
last the root. At every point before, no node was detached twice, and every node
was popped or is held by a detached one. All released nodes have only leaves left,
so that releasing them detaches nothing more. -/
theorem dismantle_once (t : Tree) :
    (∃ popped, Releases (Subtree.mk [] t).detached.reverse popped [] ∧
      t.dismantle = popped.map (fun part => part.tree.detach.1) ++ [t.detach.1] ∧
      (popped.map Subtree.path).Nodup ∧
      (∀ part : Subtree, part ∈ popped ↔
        part.path ≠ [] ∧ t.at? part.path = some part.tree ∧ part.tree.isLeaf = false) ∧
      popped.length = t.nodeCount - 1) ∧
    (∀ {popped pending}, Releases (Subtree.mk [] t).detached.reverse popped pending →
      t.DetachedOnce popped pending ∧ ∃ rest, Releases pending rest []) ∧
    ∀ released ∈ t.dismantle,
      released.Bare ∧ released.detach = (released, []) ∧ released.dismantle = [released] := by
  obtain ⟨popped, hpopped⟩ := Releases.to_end (Subtree.mk [] t).detached.reverse
  obtain ⟨hperm, _⟩ := nodes_perm_of_releases hpopped
  have honce := detachedOnce_of_releases hpopped
  rw [List.flatMap_nil, List.append_nil] at hperm
  have hdismantle : t.dismantle = popped.map (fun part => part.tree.detach.1) ++ [t.detach.1] := by
    have hreleased := hpopped.releaseAll_eq []
    rw [List.map_reverse, Subtree.map_tree_detached, List.map_nil, releaseAll, List.append_nil,
      List.reverse_reverse] at hreleased
    rw [dismantle, hreleased]
  refine ⟨⟨popped, hpopped, hdismantle, ?_, ?_, ?_⟩, ?_, ?_⟩
  · simpa using honce.distinct
  · intro part
    rw [hperm.mem_iff, t.mem_tail_nodesFrom]
  · rw [hperm.length_eq, List.length_tail, t.length_nodesFrom]
  · intro popped pending h
    exact ⟨detachedOnce_of_releases h, Releases.to_end pending⟩
  · intro released hmem
    have hbare : released.Bare := by
      rw [hdismantle, List.mem_append, List.mem_singleton] at hmem
      rcases hmem with hmem | rfl
      · obtain ⟨part, _, rfl⟩ := List.mem_map.mp hmem
        exact part.tree.bare_detach
      · exact t.bare_detach
    exact ⟨hbare, hbare.detach_eq, hbare.dismantle_eq⟩

end Tree

end Calculator
