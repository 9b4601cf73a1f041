import Mathlib.Tactic

/-!
# Trees of things which hold one another

Whatever has children, each of them smaller than it is, spans a tree.  A map
into another such type keeps the tree exactly when it keeps the children of
every node of it.
-/

inductive LabelledTree (α : Type) where
  | node (label : α) (branches : List (LabelledTree α))

namespace LabelledTree

variable {α β : Type}

def label : LabelledTree α → α
  | .node label _ => label

mutual

def map (f : α → β) : LabelledTree α → LabelledTree β
  | .node label branches => .node (f label) (mapForest f branches)

def mapForest (f : α → β) : List (LabelledTree α) → List (LabelledTree β)
  | [] => []
  | tree :: rest => map f tree :: mapForest f rest

end

mutual

/-- The labels, each before those of its branches. -/
def labels : LabelledTree α → List α
  | .node label branches => label :: forestLabels branches

def forestLabels : List (LabelledTree α) → List α
  | [] => []
  | tree :: rest => labels tree ++ forestLabels rest

end

theorem mapForest_eq (f : α → β) (forest : List (LabelledTree α)) :
    mapForest f forest = forest.map (map f) := by
  induction forest with
  | nil => rfl
  | cons tree rest ih => rw [mapForest, ih, List.map_cons]

theorem forestLabels_eq (forest : List (LabelledTree α)) :
    forestLabels forest = forest.flatMap labels := by
  induction forest with
  | nil => rfl
  | cons tree rest ih => rw [forestLabels, ih, List.flatMap_cons]

@[simp] theorem map_node (f : α → β) (label : α)
    (branches : List (LabelledTree α)) :
    map f (.node label branches) =
      .node (f label) (branches.map (map f)) := by
  rw [map, mapForest_eq]

@[simp] theorem labels_node (label : α) (branches : List (LabelledTree α)) :
    labels (.node label branches) = label :: branches.flatMap labels := by
  rw [labels, forestLabels_eq]

@[simp] theorem label_map (f : α → β) (tree : LabelledTree α) :
    (tree.map f).label = f tree.label := by
  cases tree
  rw [map_node]
  rfl

theorem treeInduction {motive : LabelledTree α → Prop}
    (node : ∀ label branches, (∀ tree ∈ branches, motive tree) →
      motive (.node label branches))
    (tree : LabelledTree α) : motive tree := by
  apply LabelledTree.rec (motive_1 := motive)
    (motive_2 := fun forest => ∀ tree ∈ forest, motive tree)
  · exact node
  · intro tree htree
    exact absurd htree List.not_mem_nil
  · intro head rest hhead hrest tree htree
    rcases List.mem_cons.mp htree with rfl | htail
    · exact hhead
    · exact hrest tree htail

theorem labels_map (f : α → β) (tree : LabelledTree α) :
    (tree.map f).labels = tree.labels.map f := by
  induction tree using treeInduction with
  | node label branches ih =>
      rw [map_node, labels_node, labels_node, List.map_cons, List.map_flatMap,
        List.flatMap_map]
      congr 1
      exact List.flatMap_congr ih

end LabelledTree

/-- Children which are smaller than what has them. -/
structure Branching (α : Type) where
  children : α → List α
  size : α → ℕ
  size_lt : ∀ a, ∀ child ∈ children a, size child < size a

namespace Branching

variable {α β : Type} (A : Branching α) (B : Branching β)

def tree (a : α) : LabelledTree α :=
  .node a ((A.children a).attach.map fun child => tree child.val)
termination_by A.size a
decreasing_by exact A.size_lt a child.val child.property

theorem tree_eq (a : α) :
    A.tree a = .node a ((A.children a).map A.tree) := by
  rw [tree, List.attach_map_val]

@[simp] theorem label_tree (a : α) : (A.tree a).label = a := by
  rw [tree_eq]
  rfl

theorem labels_tree (a : α) :
    (A.tree a).labels =
      a :: (A.children a).flatMap fun child => (A.tree child).labels := by
  rw [tree_eq, LabelledTree.labels_node, List.flatMap_map]

theorem childInduction {motive : α → Prop}
    (node : ∀ a, (∀ child ∈ A.children a, motive child) → motive a) (a : α) :
    motive a := by
  induction hsize : A.size a using Nat.strong_induction_on generalizing a with
  | h size ih =>
      apply node
      intro child hchild
      exact ih (A.size child) (hsize ▸ A.size_lt a child hchild) child rfl

variable {A B}

/-- The node itself and what is anywhere below it. -/
theorem forall_labels_iff {P : α → Prop} (a : α) :
    (∀ node ∈ (A.tree a).labels, P node) ↔
      P a ∧ ∀ child ∈ A.children a,
        ∀ node ∈ (A.tree child).labels, P node := by
  rw [labels_tree]
  simp only [List.mem_cons, forall_eq_or_imp, List.mem_flatMap]
  constructor
  · intro hall
    constructor
    · exact hall.1
    · intro child hchild node hnode
      exact hall.2 node ⟨child, hchild, hnode⟩
  · intro hall
    constructor
    · exact hall.1
    · rintro node ⟨child, hchild, hnode⟩
      exact hall.2 child hchild node hnode

/-- A map keeps a tree exactly when it keeps the children of every node. -/
theorem tree_map_iff (f : α → β) (a : α) :
    B.tree (f a) = (A.tree a).map f ↔
      ∀ node ∈ (A.tree a).labels,
        B.children (f node) = (A.children node).map f := by
  induction hsize : A.size a using Nat.strong_induction_on generalizing a with
  | h size ih =>
      subst hsize
      have hchild : ∀ child ∈ A.children a,
          (B.tree (f child) = (A.tree child).map f ↔
            ∀ node ∈ (A.tree child).labels,
              B.children (f node) = (A.children node).map f) := by
        intro child hmem
        exact ih (A.size child) (A.size_lt a child hmem) child rfl
      have hkept : B.children (f a) = (A.children a).map f →
          ((B.children (f a)).map B.tree =
              (A.children a).map (LabelledTree.map f ∘ A.tree) ↔
            ∀ child ∈ A.children a, ∀ node ∈ (A.tree child).labels,
              B.children (f node) = (A.children node).map f) := by
        intro hroot
        rw [hroot, List.map_map, List.map_inj_left]
        constructor
        · intro htrees child hmem
          exact (hchild child hmem).mp (htrees child hmem)
        · intro hnodes child hmem
          exact (hchild child hmem).mpr (hnodes child hmem)
      rw [forall_labels_iff, tree_eq, A.tree_eq a, LabelledTree.map_node,
        LabelledTree.node.injEq, List.map_map]
      constructor
      · intro hnode
        have hlabels := congrArg (List.map LabelledTree.label) hnode.2
        have hroot : B.children (f a) = (A.children a).map f := by
          simpa [Function.comp_def] using hlabels
        exact ⟨hroot, (hkept hroot).mp hnode.2⟩
      · intro hall
        exact ⟨rfl, (hkept hall.1).mpr hall.2⟩

end Branching
