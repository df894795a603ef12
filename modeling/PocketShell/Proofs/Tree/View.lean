import Mathlib.Data.Set.Defs
import PocketShell.Proofs.Tree.Address

/-!
# What is where

The number of a node says when the node was made, and the place of a child says which of two was
made first. Neither is of interest to whoever follows a path. What is left without them is a
function: the names that are followed from the root, and what is found behind them, a directory or a
file with its blob. This is the **view** of a tree, `Tree.at?`.

Attaching a node changes the view at one place only, behind the parent and under the name of the
node (`WellFormed.at?_attach`). To see this one has to know that no other names lead to the parent
(`WellFormed.follow_inj`).

`Tree.holdings` shows the same for the paths of nodes: the set of all paths with what is there. It
is read off the view (`WellFormed.mem_holdings_iff`).
-/

namespace PocketShell

/-- **What is found at a place.** -/
inductive Entry where
  | directory
  | file (blob : Blob)
  deriving DecidableEq

/-- What a node is, apart from its number, its place and its children. -/
def Node.entry (node : Node) : Entry :=
  match node.content with
  | .directory _ => .directory
  | .file blob => .file blob

namespace Tree

/-- **The view of a tree:** what names lead to from the root. -/
def at? (tree : Tree) (names : List String) : Option Entry :=
  match tree.follow root names with
  | .ok id => (tree.node? id).map Node.entry
  | .error _ => none

/-- **Everything that a tree holds:** the paths of its nodes, with what is there. -/
def holdings (tree : Tree) : Set (String × Entry) :=
  {place | ∃ id node, tree.node? id = some node ∧ tree.absolutePath id = .ok place.1 ∧
    node.entry = place.2}

section View

variable {tree : Tree}

theorem at?_of_follow {names : List String} {id : Nat} (h : tree.follow root names = .ok id) :
    tree.at? names = (tree.node? id).map Node.entry := by
  rw [at?, h]

theorem at?_eq_some_iff {names : List String} {entry : Entry} :
    tree.at? names = some entry ↔
      ∃ id node, tree.follow root names = .ok id ∧ tree.node? id = some node ∧
        node.entry = entry := by
  cases h_follow : tree.follow root names with
  | error e => simp [at?, h_follow]
  | ok id => simp [at?, h_follow]

/-- Only one list of names leads to a node, since there is only one way up from it. -/
theorem WellFormed.follow_inj (h : tree.WellFormed) {names names' : List String} {id : Nat}
    (h_follow : tree.follow root names = .ok id) (h_follow' : tree.follow root names' = .ok id) :
    names = names' := by
  have h_ascent := h.follow_iff_ascent?.1 h_follow
  rw [h.follow_iff_ascent?.1 h_follow', Option.some.injEq] at h_ascent
  exact (List.reverse_inj.1 (List.append_cancel_right h_ascent)).symm

/-- A node has the name that leads to it; the root has none. -/
theorem WellFormed.name_of_follow (h : tree.WellFormed) {names : List String} {id : Nat}
    (h_follow : tree.follow root names = .ok id) {node : Node}
    (h_node : tree.node? id = some node) : node.name = names.getLast?.getD "" := by
  rcases List.eq_nil_or_concat names with rfl | ⟨front, last, rfl⟩
  · obtain rfl := Except.ok.inj h_follow
    obtain ⟨children, h_root⟩ := h.root_node
    obtain rfl := Option.some.inj (h_node.symm.trans h_root)
    rfl
  · rw [List.concat_eq_append] at h_follow ⊢
    obtain ⟨dir, -, h_child⟩ := follow_append_singleton.1 h_follow
    obtain ⟨other, h_other, h_name, -⟩ := h.child_of h_child
    obtain rfl := Option.some.inj (h_node.symm.trans h_other)
    simp [h_name]

/-- What is in front of something is there itself. -/
theorem WellFormed.at?_ne_none_of_prefix (h : tree.WellFormed) {front names : List String}
    (h_front : front <+: names) {id : Nat} (h_follow : tree.follow root names = .ok id) :
    tree.at? front ≠ none := by
  obtain ⟨below, rfl⟩ := h_front
  -- the names behind the front are taken off one by one
  induction below using List.reverseRecOn generalizing id with
  | nil =>
    rw [List.append_nil] at h_follow
    obtain ⟨node, h_node⟩ := isLive_iff.1 (h.isLive_follow h.isLive_root h_follow)
    simp [at?_of_follow h_follow, h_node]
  | append_singleton below last ih =>
    rw [← List.append_assoc] at h_follow
    obtain ⟨dir, h_dir, -⟩ := follow_append_singleton.1 h_follow
    exact ih h_dir

/-- **Holdings are read off the view.** -/
theorem WellFormed.mem_holdings_iff (h : tree.WellFormed) {path : String} {entry : Entry} :
    (path, entry) ∈ tree.holdings ↔
      ∃ names, tree.at? names = some entry ∧ path = Path.render names := by
  constructor
  · rintro ⟨id, node, h_node, h_path, h_entry⟩
    obtain ⟨names, h_follow⟩ := h.exists_follow (isLive_iff.2 ⟨node, h_node⟩)
    refine ⟨names, at?_eq_some_iff.2 ⟨id, node, h_follow, h_node, h_entry⟩, ?_⟩
    rw [h.absolutePath_of_follow h_follow, Except.ok.injEq] at h_path
    exact h_path.symm
  · rintro ⟨names, h_at, rfl⟩
    obtain ⟨id, node, h_follow, h_node, h_entry⟩ := at?_eq_some_iff.1 h_at
    exact ⟨id, node, h_node, h.absolutePath_of_follow h_follow, h_entry⟩

/-- Trees with one view hold the same. -/
theorem WellFormed.holdings_congr {other : Tree} (h : tree.WellFormed) (h_other : other.WellFormed)
    (h_at : tree.at? = other.at?) : tree.holdings = other.holdings := by
  ext ⟨path, entry⟩
  rw [h.mem_holdings_iff, h_other.mem_holdings_iff, h_at]

end View

/-! ### Attaching a node -/

section Attach

variable {tree : Tree} {parent : Nat} {node : Node} {children : OrderedMap Nat} {child : Node}

/-- **Attaching leads to one place more:** behind the parent, under the name of the new node. -/
theorem WellFormed.follow_attach_iff (h : tree.WellFormed)
    (h_node : tree.node? parent = some node) (h_content : node.content = .directory children)
    (h_none : children.find? child.name = none) (h_fresh : child.IsFresh) {front : List String}
    (h_front : tree.follow root front = .ok parent) {names : List String} {id : Nat} :
    (tree.attach parent node children child).follow root names = .ok id ↔
      tree.follow root names = .ok id ∨
        (names = front ++ [child.name] ∧ id = tree.slots.size) := by
  have h_lt : parent < tree.slots.size := lt_size_of_node? h_node
  have h_child := @child_attach_iff tree parent node children child h_node h_content h_none h_fresh
  -- from the last name on: only the last step can be the new one
  induction names using List.reverseRecOn generalizing id with
  | nil => simp [follow]
  | append_singleton names last ih =>
    simp only [follow_append_singleton, ih, h_child]
    constructor
    · rintro ⟨dir, h_old | ⟨-, rfl⟩, h_step⟩
      · rcases h_step with h_step | ⟨rfl, rfl, rfl⟩
        · exact .inl ⟨dir, h_old, h_step⟩
        · exact .inr ⟨by rw [h.follow_inj h_old h_front], rfl⟩
      · -- there is nothing behind the new node
        rcases h_step with h_step | ⟨h_parent, -⟩
        · obtain ⟨other, -, h_other, -⟩ := child_eq_ok_iff.1 h_step
          rw [node?_size] at h_other
          cases h_other
        · omega
    · rintro (⟨dir, h_old, h_step⟩ | ⟨h_names, rfl⟩)
      · exact ⟨dir, .inl h_old, .inl h_step⟩
      · obtain ⟨rfl, h_last⟩ := List.append_inj' h_names rfl
        obtain rfl : last = child.name := List.singleton_inj.1 h_last
        exact ⟨parent, .inl h_front, .inr ⟨rfl, rfl, rfl⟩⟩

/-- Attaching does not change what the older nodes are. -/
theorem entry_attach (h_node : tree.node? parent = some node)
    (h_content : node.content = .directory children) {id : Nat} (h_id : id ≠ tree.slots.size) :
    ((tree.attach parent node children child).node? id).map Node.entry =
      (tree.node? id).map Node.entry := by
  rw [node?_attach h_node, if_neg h_id]
  by_cases h_parent : id = parent
  · -- the parent has a child more, and is a directory as it was
    subst h_parent
    simp [h_node, Node.entry, h_content]
  · rw [if_neg h_parent]

/-- **Attaching changes the view at one place.** -/
theorem WellFormed.at?_attach (h : tree.WellFormed) (h_node : tree.node? parent = some node)
    (h_content : node.content = .directory children)
    (h_none : children.find? child.name = none) (h_fresh : child.IsFresh) {front : List String}
    (h_front : tree.follow root front = .ok parent) (names : List String) :
    (tree.attach parent node children child).at? names =
      if names = front ++ [child.name] then some child.entry else tree.at? names := by
  have h_follow := @h.follow_attach_iff tree parent node children child h_node h_content h_none
    h_fresh front h_front names
  split
  · next h_names =>
    rw [at?_of_follow (h_follow.2 (.inr ⟨h_names, rfl⟩)), node?_attach h_node, if_pos rfl]
    rfl
  · next h_names =>
    cases h_old : tree.follow root names with
    | ok id =>
      have h_id : id ≠ tree.slots.size := by
        obtain ⟨other, h_other⟩ := isLive_iff.1 (h.isLive_follow h.isLive_root h_old)
        exact Nat.ne_of_lt (lt_size_of_node? h_other)
      rw [at?_of_follow (h_follow.2 (.inl h_old)), at?_of_follow h_old,
        entry_attach h_node h_content h_id]
    | error e =>
      -- what led nowhere leads nowhere
      cases h_new : (tree.attach parent node children child).follow root names with
      | ok id =>
        rcases h_follow.1 h_new with h_ok | ⟨h_eq, -⟩
        · rw [h_old] at h_ok
          cases h_ok
        · exact absurd h_eq h_names
      | error e' => rw [at?, at?, h_old, h_new]

end Attach

section Put

variable {tree after : Tree} {parent id : Nat} {child : Node} {front : List String}

/-- **The view after a node was put behind some names.** -/
theorem WellFormed.at?_put (h : tree.WellFormed) (h_fresh : child.IsFresh)
    (h_put : tree.put parent child = .ok (after, id))
    (h_front : tree.follow root front = .ok parent) (names : List String) :
    after.at? names =
      if names = front ++ [child.name] then some child.entry else tree.at? names := by
  obtain ⟨node, children, h_node, h_content, h_none, h_eq⟩ := put_eq_ok_iff.1 h_put
  cases h_eq
  exact h.at?_attach h_node h_content h_none h_fresh h_front names

theorem WellFormed.follow_put (h : tree.WellFormed) (h_fresh : child.IsFresh)
    (h_put : tree.put parent child = .ok (after, id))
    (h_front : tree.follow root front = .ok parent) :
    after.follow root (front ++ [child.name]) = .ok id := by
  obtain ⟨node, children, h_node, h_content, h_none, h_eq⟩ := put_eq_ok_iff.1 h_put
  cases h_eq
  exact (h.follow_attach_iff h_node h_content h_none h_fresh h_front).2 (.inr ⟨rfl, rfl⟩)

/-- The place of a node that can be put is empty before. -/
theorem at?_of_put (h_put : tree.put parent child = .ok (after, id))
    (h_front : tree.follow root front = .ok parent) : tree.at? (front ++ [child.name]) = none := by
  obtain ⟨node, children, h_node, h_content, h_none, -⟩ := put_eq_ok_iff.1 h_put
  refine Option.eq_none_iff_forall_ne_some.2 fun entry h_at => ?_
  obtain ⟨other, -, h_follow, -⟩ := at?_eq_some_iff.1 h_at
  obtain ⟨dir, h_dir, h_child⟩ := follow_append_singleton.1 h_follow
  -- the names lead to the parent, which has no child of the name
  obtain rfl : parent = dir := Except.ok.inj (h_front.symm.trans h_dir)
  rw [child_eq_ok_iff_of_node? h_node (Node.children?_eq_some_iff.2 h_content), h_none] at h_child
  cases h_child

end Put

end Tree

end PocketShell
