import Mathlib.Data.List.Nodup
import Mathlib.Data.List.Perm.Subperm
import Mathlib.Logic.Relation

namespace Starling

open List

/-!
# Walking a tree with a stack

A worklist loop takes a node off a stack, collects what the node has and pushes its
children.  On a finite tree every node gets on the stack at most once, so as many turns
as there are nodes are enough, and the loop collects from exactly the nodes below the
root.
-/

variable {N E : Type}

/-- Work the stack off.  The result is `none` if the turns do not suffice. -/
def walk (children : N -> List N) (emit : N -> List E) : Nat -> List N -> List E -> Option (List E)
  | _, [], found => some found
  | 0, _ :: _, _ => none
  | turns + 1, node :: stack, found =>
    walk children emit turns ((children node).reverse ++ stack) (found ++ emit node)

/-- Every node has one parent and lies deeper than it. -/
structure Arboreal (children : N -> List N) (nodes : List N) (depth : N -> Nat) : Prop where
  listed : ∀ node child, child ∈ children node -> child ∈ nodes
  distinct : ∀ node, (children node).Nodup
  parent : ∀ left right child, child ∈ children left -> child ∈ children right -> left = right
  deeper : ∀ node child, child ∈ children node -> depth node < depth child

/-- A node lies below another, or is the same. -/
def Descends (children : N -> List N) : N -> N -> Prop :=
  Relation.ReflTransGen (fun node child => child ∈ children node)

structure Walked (children : N -> List N) (root : N) (visited stack : List N) : Prop where
  distinct : (visited ++ stack).Nodup
  origin : ∀ node ∈ visited ++ stack, node = root ∨ ∃ parent ∈ visited, node ∈ children parent
  below : ∀ node ∈ visited ++ stack, Descends children root node
  closed : ∀ node child, node ∈ visited -> child ∈ children node -> child ∈ visited ++ stack
  rooted : root ∈ visited ++ stack

section Tree

variable {children : N -> List N} {nodes : List N} {depth : N -> Nat} {root : N}

variable {node : N} {stack visited : List N}

theorem Arboreal.depth_le (tree : Arboreal children nodes depth) (below : Descends children root node) :
    depth root ≤ depth node := by
  induction below with
  | refl => exact Nat.le_refl _
  | tail _ step ih => exact Nat.le_trans ih (Nat.le_of_lt (tree.deeper _ _ step))

theorem Walked.start (children) (root : N) : Walked children root [] [root] where
  distinct := nodup_singleton root
  origin := fun node member => Or.inl (mem_singleton.mp member)
  below := by
    intro node member
    rw [mem_singleton.mp member]
    exact Relation.ReflTransGen.refl
  closed := nofun
  rooted := mem_singleton_self root

section

variable (tree : Arboreal children nodes depth)
include tree

theorem Walked.fresh {child} (walked : Walked children root visited (node :: stack))
    (step : child ∈ children node) : child ∉ visited ++ node :: stack := by
  have top : node ∈ visited ++ node :: stack := mem_append_right visited mem_cons_self
  intro seen
  rcases walked.origin child seen with same | ⟨parent, before, other⟩
  · have lower := tree.depth_le (walked.below node top)
    have higher := tree.deeper node child step
    rw [same] at higher
    exact Nat.lt_irrefl _ (Nat.lt_of_lt_of_le higher lower)
  · rw [tree.parent parent node child other step] at before
    have apart := (nodup_append.mp walked.distinct).2.2
    exact apart node before node mem_cons_self rfl

theorem Walked.turn (walked : Walked children root visited (node :: stack)) :
    Walked children root (visited ++ [node]) ((children node).reverse ++ stack) := by
  have top : node ∈ visited ++ node :: stack := mem_append_right visited mem_cons_self
  -- The nodes after the turn are those before it and the children.
  have nodes : ((visited ++ [node]) ++ ((children node).reverse ++ stack)).Perm
      (children node ++ (visited ++ node :: stack)) := by
    have moved : ((children node).reverse ++ stack).Perm (children node ++ stack) := (reverse_perm _).append_right stack
    refine (moved.append_left (visited ++ [node])).trans ?_
    rw [← append_assoc]
    refine (perm_append_comm.append_right stack).trans ?_
    rw [append_assoc, append_assoc, singleton_append]
  have member : ∀ other, other ∈ (visited ++ [node]) ++ ((children node).reverse ++ stack) ↔
      other ∈ children node ∨ other ∈ visited ++ node :: stack := by
    intro other
    rw [nodes.mem_iff, mem_append]
  have seen : ∀ {other}, other ∈ visited -> other ∈ visited ++ [node] :=
    fun before => mem_append_left [node] before
  have last : node ∈ visited ++ [node] := mem_append_right visited (mem_singleton_self node)
  constructor
  · rw [nodes.nodup_iff, nodup_append]
    refine ⟨tree.distinct node, walked.distinct, ?_⟩
    intro child step other before same
    exact walked.fresh tree step (same ▸ before)
  · intro other present
    rcases (member other).mp present with step | before
    · exact .inr ⟨node, last, step⟩
    · rcases walked.origin other before with same | ⟨parent, known, step⟩
      · exact .inl same
      · exact .inr ⟨parent, seen known, step⟩
  · intro other present
    rcases (member other).mp present with step | before
    · exact (walked.below node top).tail step
    · exact walked.below other before
  · intro other child known step
    apply (member child).mpr
    rcases mem_append.mp known with before | now
    · exact .inr (walked.closed other child before step)
    · rw [mem_singleton.mp now] at step
      exact .inl step
  · exact (member root).mpr (.inr walked.rooted)

/-- No node is on the list twice, so the list is no longer than the tree. -/
theorem Walked.length_le (walked : Walked children root visited stack) :
    (visited ++ stack).length ≤ nodes.length + 1 := by
  have inside : visited ++ stack ⊆ root :: nodes := by
    intro node member
    rcases walked.origin node member with same | ⟨parent, _, step⟩
    · exact mem_cons.mpr (.inl same)
    · exact mem_cons_of_mem root (tree.listed parent node step)
  exact (walked.distinct.subperm inside).length_le

theorem walk_from (emit : N -> List E) (turns : Nat) (walked : Walked children root visited stack)
    (enough : nodes.length + 1 ≤ turns + visited.length) :
    ∃ all, walk children emit turns stack (visited.flatMap emit) = some (all.flatMap emit) ∧
      Walked children root all [] := by
  induction turns generalizing visited stack with
  | zero =>
    cases stack with
    | nil => exact ⟨visited, rfl, walked⟩
    | cons =>
      have bound := walked.length_le tree
      rw [length_append, length_cons] at bound
      omega
  | succ turns ih =>
    cases stack with
    | nil => exact ⟨visited, rfl, walked⟩
    | cons node =>
      have more : nodes.length + 1 ≤ turns + (visited ++ [node]).length := by
        rw [length_append, length_singleton]
        omega
      rcases ih (walked.turn tree) more with ⟨all, done, finished⟩
      refine ⟨all, ?_, finished⟩
      rw [walk, ← done, flatMap_append, flatMap_singleton]

/-- With a turn for every node the walk returns, and it has collected from the nodes
below the root and from no others. -/
theorem walk_returns (emit : N -> List E) (root : N) :
    ∃ found, walk children emit (nodes.length + 1) [root] [] = some found ∧
      ∀ item, item ∈ found ↔ ∃ node, Descends children root node ∧ item ∈ emit node := by
  rcases walk_from tree emit (nodes.length + 1) (Walked.start children root) (Nat.le_add_right _ _) with
    ⟨all, done, finished⟩
  refine ⟨all.flatMap emit, done, ?_⟩
  have visited : ∀ node, Descends children root node -> node ∈ all := by
    intro node below
    induction below with
    | refl =>
      have rooted := finished.rooted
      rw [append_nil] at rooted
      exact rooted
    | tail _ step ih =>
      have next := finished.closed _ _ ih step
      rw [append_nil] at next
      exact next
  intro item
  rw [mem_flatMap]
  constructor
  · rintro ⟨node, member, emitted⟩
    exact ⟨node, finished.below node (mem_append_left [] member), emitted⟩
  · rintro ⟨node, below, emitted⟩
    exact ⟨node, visited node below, emitted⟩

end

end Tree

end Starling
