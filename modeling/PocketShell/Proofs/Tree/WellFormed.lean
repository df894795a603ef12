import Mathlib.Logic.Relation
import Mathlib.Tactic.ByContra
import PocketShell.Tree.Edit

/-!
# Well-formed trees

A tree is written down twice: every node names the directory that it is in, and every directory
names its children. `Tree.WellFormed` says that the two agree, in four clauses:

* `root_node` — the root is a directory without a name and without a parent;
* `parent_of` — every other node is in a directory, which has a smaller number and leads to the node
  under the node's name;
* `child_of` — whatever a directory leads to is a node of that name in that directory;
* `increasing` — the children of a directory are listed in the order of their numbers.

The clauses speak of `Tree.child`, the step that paths are followed by, so that what is read off a
well-formed tree needs no unfolding of directories.

On the way up from a node there is a directory at every stage, with a smaller number each time, and
therefore the root at the end (`WellFormed.reaches_root`).

The module shows that the empty tree is well formed (`WellFormed.empty`) and that attaching a new
node keeps a tree well formed (`WellFormed.attach`). A new node has no children yet, which is what
`Node.IsFresh` says. The effect of attaching on the two readings of a tree is `child_attach_iff` and
`children_attach`; the proof of `WellFormed.attach` uses nothing else.
-/

namespace PocketShell

/-- A node without children: a file, or an empty directory. -/
def Node.IsFresh (node : Node) : Prop :=
  ∀ children, node.children? = some children → children = ∅

theorem Node.isFresh_directory (name : String) : (Node.directory name).IsFresh :=
  fun _ h => (Option.some.inj h).symm

theorem Node.isFresh_file (name : String) (blob : Blob) : (Node.file name blob).IsFresh :=
  fun _ h => nomatch h

namespace Tree

/-- **Well-formed trees.** What nodes say of their directories and what directories say of their
children is one tree, with the root at its top and numbers that grow downwards. -/
structure WellFormed (tree : Tree) : Prop where
  /-- The root is a directory without a name and without a parent. -/
  root_node : ∃ children, tree.node? root = some ⟨"", none, .directory children⟩
  /-- Every other node is in a directory that leads to it under its name. -/
  parent_of : ∀ {id node}, tree.node? id = some node → id ≠ root →
    ∃ parent, node.parent = some parent ∧ parent < id ∧ tree.child parent node.name = .ok id
  /-- A directory leads to nodes that are in it under that name. -/
  child_of : ∀ {dir name id}, tree.child dir name = .ok id →
    ∃ node, tree.node? id = some node ∧ node.name = name ∧ node.parent = some dir
  /-- Children are listed in the order of their numbers. -/
  increasing : ∀ dir, (tree.children dir).Pairwise (· < ·)

namespace WellFormed

variable {tree : Tree}

theorem isLive_root (h : tree.WellFormed) : tree.isLive root = true :=
  isLive_iff.2 ⟨_, h.root_node.choose_spec⟩

theorem isLive_child (h : tree.WellFormed) {dir id : Nat} {name : String}
    (h_child : tree.child dir name = .ok id) : tree.isLive id = true := by
  obtain ⟨node, h_node, -, -⟩ := h.child_of h_child
  exact isLive_iff.2 ⟨node, h_node⟩

theorem ne_root_of_child (h : tree.WellFormed) {dir id : Nat} {name : String}
    (h_child : tree.child dir name = .ok id) : id ≠ root := by
  rintro rfl
  obtain ⟨children, h_root⟩ := h.root_node
  obtain ⟨node, h_node, -, h_parent⟩ := h.child_of h_child
  rw [h_root, Option.some.injEq] at h_node
  subst h_node
  cases h_parent

/-- Numbers grow from a directory to its children. -/
theorem lt_of_child (h : tree.WellFormed) {dir id : Nat} {name : String}
    (h_child : tree.child dir name = .ok id) : dir < id := by
  obtain ⟨node, h_node, -, h_parent⟩ := h.child_of h_child
  obtain ⟨parent, h_eq, h_lt, -⟩ := h.parent_of h_node (h.ne_root_of_child h_child)
  rw [h_parent, Option.some.injEq] at h_eq
  exact h_eq ▸ h_lt

theorem parent?_of_child (h : tree.WellFormed) {dir id : Nat} {name : String}
    (h_child : tree.child dir name = .ok id) : tree.parent? id = some dir := by
  obtain ⟨node, h_node, -, h_parent⟩ := h.child_of h_child
  rw [parent?, h_node]
  exact h_parent

/-- The root is the only node without a parent. -/
theorem parent_eq_none_iff (h : tree.WellFormed) {id : Nat} {node : Node}
    (h_node : tree.node? id = some node) : node.parent = none ↔ id = root := by
  constructor
  · intro h_none
    by_contra h_ne
    obtain ⟨parent, h_parent, -⟩ := h.parent_of h_node h_ne
    rw [h_none] at h_parent
    cases h_parent
  · rintro rfl
    obtain ⟨children, h_root⟩ := h.root_node
    rw [h_root, Option.some.injEq] at h_node
    subst h_node
    rfl

theorem name_of_child (h : tree.WellFormed) {dir id : Nat} {name : String}
    (h_child : tree.child dir name = .ok id) : tree.name id = name := by
  obtain ⟨node, h_node, h_name, -⟩ := h.child_of h_child
  simp [Tree.name, h_node, h_name]

/-- The directory that a node is in leads to the node, under its name. -/
theorem child_of_parent? (h : tree.WellFormed) {dir id : Nat}
    (h_parent : tree.parent? id = some dir) : tree.child dir (tree.name id) = .ok id := by
  obtain ⟨node, h_node, h_dir⟩ := Option.bind_eq_some_iff.1 h_parent
  have h_ne : id ≠ root := fun h_eq => by
    rw [(h.parent_eq_none_iff h_node).2 h_eq] at h_dir
    cases h_dir
  obtain ⟨parent, h_eq, -, h_up⟩ := h.parent_of h_node h_ne
  obtain rfl : parent = dir := Option.some.inj (h_eq.symm.trans h_dir)
  simpa [Tree.name, h_node] using h_up

end WellFormed

/-! ### The way up -/

section WayUp

variable {tree : Tree}

/-- **Every node reaches the root** by the directories that nodes are in, through smaller and
smaller numbers. -/
theorem WellFormed.reaches_root (h : tree.WellFormed) {id : Nat} (h_live : tree.isLive id = true) :
    Relation.ReflTransGen (fun lower upper => tree.parent? lower = some upper ∧ upper < lower)
      id root := by
  -- induction on the number: the directory of a node has a smaller one
  induction id using Nat.strongRecOn with
  | ind id ih =>
    obtain ⟨node, h_node⟩ := isLive_iff.1 h_live
    by_cases h_root : id = root
    · exact h_root ▸ .refl
    · obtain ⟨parent, h_parent, h_lt, h_child⟩ := h.parent_of h_node h_root
      have h_up : tree.parent? id = some parent := by simp [parent?, h_node, h_parent]
      exact .head ⟨h_up, h_lt⟩ (ih parent h_lt (isLive_of_child h_child))

/-- The way up from a node that is not the root begins with its name and goes on from its
directory. -/
theorem ascent?_of_parent {id parent : Nat} {node : Node} (h_node : tree.node? id = some node)
    (h_parent : node.parent = some parent) (h_lt : parent < id) :
    tree.ascent? id = (tree.ascent? parent).map fun names => node.name :: names := by
  rw [ascent?, h_node]
  simp only [h_parent, if_pos h_lt]

theorem WellFormed.ascent?_root (h : tree.WellFormed) : tree.ascent? root = some [""] := by
  obtain ⟨children, h_root⟩ := h.root_node
  rw [ascent?, h_root]

theorem WellFormed.exists_ascent? (h : tree.WellFormed) {id : Nat}
    (h_live : tree.isLive id = true) : ∃ names, tree.ascent? id = some names := by
  -- the way up is read along the way to the root, which begins at the node
  induction h.reaches_root h_live using Relation.ReflTransGen.head_induction_on with
  | refl => exact ⟨_, h.ascent?_root⟩
  | head h_step _ ih =>
    obtain ⟨node, h_node, h_parent⟩ := Option.bind_eq_some_iff.1 h_step.1
    rw [ascent?_of_parent h_node h_parent h_step.2]
    obtain ⟨names, h_names⟩ := ih (isLive_of_child (h.child_of_parent? h_step.1))
    rw [h_names]
    exact ⟨_, rfl⟩

theorem WellFormed.exists_absolutePath (h : tree.WellFormed) {id : Nat}
    (h_live : tree.isLive id = true) : ∃ path, tree.absolutePath id = .ok path := by
  obtain ⟨names, h_names⟩ := h.exists_ascent? h_live
  rw [absolutePath, h_names]
  exact ⟨_, rfl⟩

end WayUp

/-! ### The empty tree -/

theorem child_empty_ne_ok (dir id : Nat) (name : String) : empty.child dir name ≠ .ok id := by
  intro h
  obtain ⟨node, children, h_node, h_children, h_find⟩ := child_eq_ok_iff.1 h
  rw [node?_empty] at h_node
  split at h_node
  · cases h_node
    cases h_children
    cases h_find
  · cases h_node

theorem WellFormed.empty : Tree.empty.WellFormed where
  root_node := ⟨∅, rfl⟩
  parent_of := by
    intro id node h_node h_ne
    rw [node?_empty, if_neg h_ne] at h_node
    cases h_node
  child_of := fun h => absurd h (child_empty_ne_ok _ _ _)
  increasing := by
    intro dir
    have h_nil : Tree.empty.children dir = [] := by
      refine List.eq_nil_iff_forall_not_mem.2 fun id h_mem => ?_
      obtain ⟨name, h_child⟩ := mem_children_iff.1 h_mem
      exact child_empty_ne_ok _ _ _ h_child
    rw [h_nil]
    exact List.Pairwise.nil

/-! ### Attaching a node -/

section Attach

variable {tree : Tree} {parent : Nat} {node : Node} {children : OrderedMap Nat} {child : Node}

theorem node?_size (tree : Tree) : tree.node? tree.slots.size = none := by
  refine Option.eq_none_iff_forall_ne_some.2 fun node h_node => ?_
  exact Nat.lt_irrefl _ (lt_size_of_node? h_node)

theorem child_attach_size_ne_ok (h_node : tree.node? parent = some node)
    (h_fresh : child.IsFresh) (name : String) (id : Nat) :
    (tree.attach parent node children child).child tree.slots.size name ≠ .ok id := by
  intro h
  obtain ⟨newNode, newChildren, h_new, h_children, h_find⟩ := child_eq_ok_iff.1 h
  rw [node?_attach h_node, if_pos rfl, Option.some.injEq] at h_new
  subst h_new
  rw [h_fresh newChildren h_children] at h_find
  cases h_find

/-- Attaching makes one step more: from the parent to the new node, under its name. -/
theorem child_attach_iff (h_node : tree.node? parent = some node)
    (h_content : node.content = .directory children)
    (h_none : children.find? child.name = none) (h_fresh : child.IsFresh) {dir id : Nat}
    {name : String} :
    (tree.attach parent node children child).child dir name = .ok id ↔
      tree.child dir name = .ok id ∨
        (dir = parent ∧ name = child.name ∧ id = tree.slots.size) := by
  have h_lt : parent < tree.slots.size := lt_size_of_node? h_node
  by_cases h_new : dir = tree.slots.size
  · -- neither tree leads anywhere from the new number
    subst h_new
    constructor
    · exact fun h => absurd h (child_attach_size_ne_ok h_node h_fresh name id)
    · rintro (h_old | ⟨h_parent, -⟩)
      · obtain ⟨old, -, h_old, -⟩ := child_eq_ok_iff.1 h_old
        rw [node?_size] at h_old
        cases h_old
      · omega
  · by_cases h_dir : dir = parent
    · subst h_dir
      have h_after := node?_attach h_node children child dir
      rw [if_neg h_new, if_pos rfl] at h_after
      rw [child_eq_ok_iff_of_node? h_after rfl, OrderedMap.find?_insert,
        child_eq_ok_iff_of_node? h_node (Node.children?_eq_some_iff.2 h_content)]
      -- the name was free, and leads to the new number now
      by_cases h_name : name = child.name
      · simp [h_name, h_none, eq_comm]
      · simp [h_name]
    · -- the slots of all other directories are as they were
      have h_after := node?_attach h_node children child dir
      rw [if_neg h_new, if_neg h_dir] at h_after
      rw [child_congr h_after]
      simp [h_dir]

/-- Attaching lists the new node behind the children of its parent. -/
theorem children_attach (h_node : tree.node? parent = some node)
    (h_content : node.content = .directory children)
    (h_none : children.find? child.name = none) (h_fresh : child.IsFresh) (dir : Nat) :
    (tree.attach parent node children child).children dir =
      if dir = parent then tree.children parent ++ [tree.slots.size] else tree.children dir := by
  have h_lt : parent < tree.slots.size := lt_size_of_node? h_node
  have h_after := node?_attach h_node children child dir
  by_cases h_new : dir = tree.slots.size
  · -- the new node has no children, and the slot had none before
    rw [if_neg (by omega)]
    subst h_new
    have h_nil : tree.children tree.slots.size = [] := by
      simp [Tree.children, node?_size]
    rw [h_nil, List.eq_nil_iff_forall_not_mem]
    intro id h_mem
    obtain ⟨name, h_child⟩ := mem_children_iff.1 h_mem
    exact child_attach_size_ne_ok h_node h_fresh name id h_child
  · rw [if_neg h_new] at h_after
    by_cases h_dir : dir = parent
    · subst h_dir
      rw [if_pos rfl] at h_after ⊢
      rw [children_eq_of_node? h_after rfl, OrderedMap.values_insert h_none,
        children_eq_of_node? h_node (Node.children?_eq_some_iff.2 h_content)]
    · rw [if_neg h_dir] at h_after ⊢
      exact children_congr h_after

/-- **Attaching keeps a tree well formed.** The new node has the largest number of all, so it may
stand at the end of every listing. -/
theorem WellFormed.attach (h : tree.WellFormed) (h_node : tree.node? parent = some node)
    (h_content : node.content = .directory children)
    (h_none : children.find? child.name = none) (h_fresh : child.IsFresh) :
    (tree.attach parent node children child).WellFormed := by
  have h_lt : parent < tree.slots.size := lt_size_of_node? h_node
  have h_after := node?_attach h_node children child
  have h_child := @child_attach_iff tree parent node children child h_node h_content h_none h_fresh
  refine ⟨?_, ?_, ?_, ?_⟩
  · -- the root may have a child more
    obtain ⟨rootChildren, h_root⟩ := h.root_node
    have h_ne : root ≠ tree.slots.size := Nat.ne_of_lt (lt_size_of_node? h_root)
    rw [h_after, if_neg h_ne]
    by_cases h_parent : root = parent
    · rw [if_pos h_parent]
      rw [← h_parent, h_root, Option.some.injEq] at h_node
      subst h_node
      exact ⟨_, rfl⟩
    · rw [if_neg h_parent]
      exact ⟨rootChildren, h_root⟩
  · -- the new node is in the parent, and all others are where they were
    intro id other h_other h_ne
    rw [h_after] at h_other
    split at h_other
    · next h_new =>
      cases h_other
      exact ⟨parent, rfl, h_new ▸ h_lt, h_child.2 (Or.inr ⟨rfl, rfl, h_new⟩)⟩
    · split at h_other
      · next h_parent =>
        cases h_other
        subst h_parent
        obtain ⟨above, h_above, h_lt, h_step⟩ := h.parent_of h_node h_ne
        exact ⟨above, h_above, h_lt, h_child.2 (Or.inl h_step)⟩
      · obtain ⟨above, h_above, h_lt, h_step⟩ := h.parent_of h_other h_ne
        exact ⟨above, h_above, h_lt, h_child.2 (Or.inl h_step)⟩
  · -- the one new step leads to the new node; behind the old ones are the old nodes
    intro dir name id h_step
    rcases h_child.1 h_step with h_old | ⟨rfl, rfl, rfl⟩
    · obtain ⟨other, h_other, h_name, h_parent⟩ := h.child_of h_old
      have h_ne : id ≠ tree.slots.size := Nat.ne_of_lt (lt_size_of_node? h_other)
      rw [h_after, if_neg h_ne]
      by_cases h_eq : id = parent
      · rw [if_pos h_eq]
        rw [h_eq, h_node, Option.some.injEq] at h_other
        subst h_other
        exact ⟨_, rfl, h_name, h_parent⟩
      · rw [if_neg h_eq]
        exact ⟨other, h_other, h_name, h_parent⟩
    · refine ⟨{ child with parent := some dir }, ?_, rfl, rfl⟩
      rw [h_after, if_pos rfl]
  · intro dir
    rw [children_attach h_node h_content h_none h_fresh]
    split
    · -- the new number is larger than all that were given before
      refine List.pairwise_append.2 ⟨h.increasing parent, List.pairwise_singleton _ _, ?_⟩
      intro old h_old new h_new
      obtain ⟨name, h_step⟩ := mem_children_iff.1 h_old
      obtain ⟨other, h_other, -⟩ := h.child_of h_step
      rw [List.mem_singleton.1 h_new]
      exact lt_size_of_node? h_other
    · exact h.increasing dir

end Attach

end Tree

end PocketShell
