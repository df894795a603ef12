import Mathlib.Data.List.Basic
import PocketShell.Proofs.Tree.View

/-!
# Listing a tree

A tree is listed in preorder: each node with the names on the way up from it and with what it is, a
directory or a file with its blob (`Tree.listing`). From a node on, the listing consists of the node
and of the listings from its children on, one after the other (`WellFormed.listingFrom_eq`).

When a tree grows below one directory, the nodes that were there before are as they were, but for
the directory, which has got new children behind the old ones. `Tree.Grown` says this, for one step
(`Grown.put`) and for any number of steps (`Grown.trans`, `Grown.inside`). What is listed from the
old children of the directory on is then what was listed before (`Grown.listingFrom_eq`), so that
the listing of a tree that is built step by step can be put together from the listings of its parts.
-/

namespace PocketShell

/-- What does not change about a node when it gets children. -/
def Node.outline (node : Node) : String × Option Nat × Entry :=
  (node.name, node.parent, node.entry)

namespace Tree

/-- **A node in a listing:** the names on the way up from it, and what it is. -/
def item? (tree : Tree) (id : Nat) : Option (List String × Entry) :=
  (tree.ascent? id).bind fun names =>
    ((tree.node? id).map Node.entry).map fun entry => (names, entry)

/-- The listing of what is below a node, the node included. -/
def listingFrom (tree : Tree) (id : Nat) : List (Option (List String × Entry)) :=
  (tree.preorderFrom id).map tree.item?

/-- **The listing of a tree,** in preorder. -/
def listing (tree : Tree) : List (Option (List String × Entry)) :=
  tree.preorder.map tree.item?

/-- **Growing below a directory.** The directory has got some children, in this order and behind the
old ones; the other nodes are as they were. -/
structure Grown (before : Tree) (dir : Nat) (new : List Nat) (after : Tree) : Prop where
  size_le : before.slots.size ≤ after.slots.size
  kept : ∀ id, id < before.slots.size → id ≠ dir → after.node? id = before.node? id
  outline_eq : (after.node? dir).map Node.outline = (before.node? dir).map Node.outline
  children_eq : after.children dir = before.children dir ++ new

variable {before middle after : Tree} {dir id : Nat} {new : List Nat}

theorem WellFormed.lt_size_of_mem_children (h : before.WellFormed)
    (h_mem : id ∈ before.children dir) : dir < id ∧ id < before.slots.size := by
  obtain ⟨name, h_child⟩ := mem_children_iff.1 h_mem
  obtain ⟨node, h_node, -⟩ := h.child_of h_child
  exact ⟨h.lt_of_child h_child, lt_size_of_node? h_node⟩

/-- **Below a node** the node comes first, then what is below its children. -/
theorem WellFormed.listingFrom_eq (h : before.WellFormed) (id : Nat) :
    before.listingFrom id = before.item? id :: (before.children id).flatMap before.listingFrom := by
  rw [listingFrom, preorderFrom, List.map_cons, List.map_flatMap]
  congr 1
  refine List.flatMap_congr fun child h_child => ?_
  -- in a well-formed tree no child is left out
  rw [if_pos (h.lt_size_of_mem_children h_child)]
  rfl

/-- What names lead to from a node on is below that node. -/
theorem WellFormed.mem_preorderFrom (h : before.WellFormed) {start : Nat} {names : List String}
    (h_follow : before.follow start names = .ok id) : id ∈ before.preorderFrom start := by
  induction names generalizing start with
  | nil =>
    obtain rfl := Except.ok.inj h_follow
    rw [preorderFrom]
    exact List.mem_cons_self
  | cons name names ih =>
    rw [follow] at h_follow
    split at h_follow
    · next next h_child =>
      have h_mem : next ∈ before.children start := mem_children_iff.2 ⟨name, h_child⟩
      rw [preorderFrom]
      refine List.mem_cons_of_mem _ (List.mem_flatMap.2 ⟨next, h_mem, ?_⟩)
      rw [if_pos (h.lt_size_of_mem_children h_mem)]
      exact ih h_follow
    · cases h_follow

/-- **The listing is the view.** What is listed is what the names lead to that are met on the way
up, without the root. -/
theorem WellFormed.mem_listing_iff (h : before.WellFormed) {names : List String} {entry : Entry} :
    some (names.reverse ++ [""], entry) ∈ before.listing ↔ before.at? names = some entry := by
  rw [listing, List.mem_map, at?_eq_some_iff]
  constructor
  · rintro ⟨id, -, h_item⟩
    obtain ⟨ascent, h_ascent, h_rest⟩ := Option.bind_eq_some_iff.1 h_item
    obtain ⟨found, h_found, h_eq⟩ := Option.map_eq_some_iff.1 h_rest
    obtain ⟨node, h_node, rfl⟩ := Option.map_eq_some_iff.1 h_found
    obtain ⟨rfl, rfl⟩ := Prod.mk.inj h_eq
    exact ⟨id, node, h.follow_iff_ascent?.2 h_ascent, h_node, rfl⟩
  · rintro ⟨id, node, h_follow, h_node, rfl⟩
    refine ⟨id, h.mem_preorderFrom h_follow, ?_⟩
    rw [item?, h.follow_iff_ascent?.1 h_follow, h_node]
    rfl

/-- The way up is read off the names and the parents of older nodes. -/
theorem ascent?_congr (h : ∀ i ≤ id, (after.node? i).map Node.outline =
    (before.node? i).map Node.outline) : after.ascent? id = before.ascent? id := by
  induction id using Nat.strongRecOn with
  | ind id ih =>
    have h_id := h id (Nat.le_refl id)
    rw [ascent?, ascent?]
    cases h_after : after.node? id with
    | none =>
      rw [h_after, Option.map_none, eq_comm, Option.map_eq_none_iff] at h_id
      rw [h_id]
    | some node =>
      rw [h_after, Option.map_some, eq_comm, Option.map_eq_some_iff] at h_id
      obtain ⟨old, h_old, h_outline⟩ := h_id
      obtain ⟨h_name, h_parent, -⟩ : old.name = node.name ∧ old.parent = node.parent ∧ _ := by
        simpa [Node.outline] using h_outline
      rw [h_old]
      simp only [h_name, h_parent]
      cases node.parent with
      | none => rfl
      | some parent =>
        by_cases h_lt : parent < id
        · simp only [if_pos h_lt]
          rw [ih parent h_lt fun i h_i => h i (by omega)]
        · simp only [if_neg h_lt]

/-- The way up from a node begins with its name. -/
theorem name_of_ascent? {names : List String} (h : before.ascent? id = some names) :
    before.name id = names.headD "" := by
  rw [ascent?] at h
  cases h_node : before.node? id with
  | none =>
    rw [h_node] at h
    cases h
  | some node =>
    rw [h_node] at h
    have h_head : some node.name = names.head? := by
      cases h_parent : node.parent with
      | none =>
        simp only [h_parent, Option.some.injEq] at h
        rw [← h, List.head?_cons]
      | some parent =>
        simp only [h_parent] at h
        split at h
        · obtain ⟨above, -, rfl⟩ := Option.map_eq_some_iff.1 h
          rw [List.head?_cons]
        · cases h
    simp [Tree.name, h_node, List.headD_eq_head?_getD, ← h_head]

namespace Grown

theorem node?_outline (h : Grown before dir new after) (h_id : id < before.slots.size) :
    (after.node? id).map Node.outline = (before.node? id).map Node.outline := by
  by_cases h_dir : id = dir
  · exact h_dir ▸ h.outline_eq
  · rw [h.kept id h_id h_dir]

theorem ascent?_eq (h : Grown before dir new after) (h_id : id < before.slots.size) :
    after.ascent? id = before.ascent? id :=
  ascent?_congr fun i h_i => h.node?_outline (by omega)

theorem item?_eq (h : Grown before dir new after) (h_id : id < before.slots.size) :
    after.item? id = before.item? id := by
  have h_entry : (after.node? id).map Node.entry = (before.node? id).map Node.entry := by
    have h_outline := congrArg (Option.map fun outline => outline.2.2) (h.node?_outline h_id)
    simpa [Option.map_map, Node.outline, Function.comp_def] using h_outline
  rw [item?, item?, h.ascent?_eq h_id, h_entry]

theorem refl : Grown before dir [] before :=
  ⟨Nat.le_refl _, fun _ _ _ => rfl, rfl, (List.append_nil _).symm⟩

theorem trans {more : List Nat} (h : Grown before dir new middle)
    (h' : Grown middle dir more after) : Grown before dir (new ++ more) after where
  size_le := Nat.le_trans h.size_le h'.size_le
  kept id h_id h_ne := by
    have h_middle : id < middle.slots.size := Nat.lt_of_lt_of_le h_id h.size_le
    rw [h'.kept id h_middle h_ne, h.kept id h_id h_ne]
  outline_eq := h'.outline_eq.trans h.outline_eq
  children_eq := by rw [h'.children_eq, h.children_eq, List.append_assoc]

/-- What grows below a new node does not concern the older ones. -/
theorem inside {inner : List Nat} (h : Grown before dir new middle)
    (h' : Grown middle id inner after) (h_dir : dir < before.slots.size)
    (h_id : before.slots.size ≤ id) : Grown before dir new after := by
  have h_kept (i : Nat) (h_i : i < before.slots.size) : after.node? i = middle.node? i :=
    h'.kept i (Nat.lt_of_lt_of_le h_i h.size_le) (by omega)
  refine ⟨Nat.le_trans h.size_le h'.size_le, fun i h_i h_ne => ?_, ?_, ?_⟩
  · rw [h_kept i h_i, h.kept i h_i h_ne]
  · rw [h_kept dir h_dir, h.outline_eq]
  · rw [children_congr (h_kept dir h_dir), h.children_eq]

/-- **What is listed below later nodes stays as it was.** -/
theorem listingFrom_eq (h : Grown before dir new after) (h_before : before.WellFormed)
    (h_after : after.WellFormed) {id : Nat} (h_dir : dir < id) (h_id : id < before.slots.size) :
    after.listingFrom id = before.listingFrom id := by
  have h_children : after.children id = before.children id :=
    children_congr (h.kept id h_id (by omega))
  rw [h_after.listingFrom_eq, h_before.listingFrom_eq, h.item?_eq h_id, h_children]
  congr 1
  refine List.flatMap_congr fun child h_child => ?_
  -- the children have larger numbers, and so on downwards
  obtain ⟨h_lt, h_size⟩ := h_before.lt_size_of_mem_children h_child
  exact listingFrom_eq h h_before h_after (by omega) h_size
  termination_by before.slots.size - id

end Grown

/-! ### Putting a node -/

/-- The directory has children of these names, in this order. -/
def HasNames (tree : Tree) (dir : Nat) (names : List String) : Prop :=
  ∃ node children, tree.node? dir = some node ∧ node.content = .directory children ∧
    children.keys = names

section Put

variable {tree : Tree} {names : List String} {child : Node}

namespace HasNames

theorem lt_size (h : tree.HasNames dir names) : dir < tree.slots.size := by
  obtain ⟨node, -, h_node, -⟩ := h
  exact lt_size_of_node? h_node

theorem kept {other : Nat} (h : before.HasNames other names) (h_grown : Grown before dir new after)
    (h_ne : other ≠ dir) : after.HasNames other names := by
  have h_same := h_grown.kept other h.lt_size h_ne
  obtain ⟨node, children, h_node, h_rest⟩ := h
  exact ⟨node, children, h_same.trans h_node, h_rest⟩

/-- A name that is taken is refused. -/
theorem put_eq_error (h : tree.HasNames dir names) (h_taken : child.name ∈ names) :
    tree.put dir child = .error (.duplicateName (tree.name dir) child.name) := by
  obtain ⟨node, children, h_node, h_content, rfl⟩ := h
  cases h_find : children.find? child.name with
  | none => exact absurd h_taken (OrderedMap.find?_eq_none_iff.1 h_find)
  | some id => exact put_of_find? h_node h_content h_find

/-- Any other name is added to the names. -/
theorem exists_put (h : tree.HasNames dir names) (h_free : child.name ∉ names) :
    ∃ after, tree.put dir child = .ok (after, tree.slots.size) ∧
      after.HasNames dir (names ++ [child.name]) := by
  obtain ⟨node, children, h_node, h_content, rfl⟩ := h
  have h_none : children.find? child.name = none := OrderedMap.find?_eq_none_iff.2 h_free
  refine ⟨_, put_eq_ok_iff.2 ⟨node, children, h_node, h_content, h_none, rfl⟩, ?_⟩
  have h_old : dir ≠ tree.slots.size := Nat.ne_of_lt (lt_size_of_node? h_node)
  refine ⟨{ node with content := .directory (children.insert child.name tree.slots.size) }, _, ?_,
    rfl, ?_⟩
  · rw [node?_attach h_node, if_neg h_old, if_pos rfl]
  · rw [OrderedMap.keys, OrderedMap.entries_insert h_none, List.map_append]
    rfl

end HasNames

/-- **Putting a node** makes the tree grow below the directory. -/
theorem Grown.put (h_fresh : child.IsFresh) (h_put : tree.put dir child = .ok (after, id)) :
    Grown tree dir [id] after := by
  obtain ⟨node, children, h_node, h_content, h_none, h_eq⟩ := put_eq_ok_iff.1 h_put
  obtain ⟨rfl, rfl⟩ := Prod.mk.inj h_eq
  have h_old : dir ≠ tree.slots.size := Nat.ne_of_lt (lt_size_of_node? h_node)
  refine ⟨by simp, fun i h_i h_ne => ?_, ?_, ?_⟩
  · rw [node?_attach h_node, if_neg (Nat.ne_of_lt h_i), if_neg h_ne]
  · rw [node?_attach h_node, if_neg h_old, if_pos rfl, h_node]
    simp [Node.outline, Node.entry, h_content]
  · rw [children_attach h_node h_content h_none h_fresh, if_pos rfl]

theorem lt_size_of_put (h_put : tree.put dir child = .ok (after, id)) : dir < tree.slots.size := by
  obtain ⟨node, -, h_node, -⟩ := put_eq_ok_iff.1 h_put
  exact lt_size_of_node? h_node

/-- The slot of a node that was put. -/
theorem node?_of_put (h_put : tree.put dir child = .ok (after, id)) :
    after.node? id = some { child with parent := some dir } := by
  obtain ⟨node, children, h_node, -, -, h_eq⟩ := put_eq_ok_iff.1 h_put
  obtain ⟨rfl, rfl⟩ := Prod.mk.inj h_eq
  rw [node?_attach h_node, if_pos rfl]

theorem ascent?_of_put (h_fresh : child.IsFresh)
    (h_put : tree.put dir child = .ok (after, id)) {above : List String}
    (h_above : tree.ascent? dir = some above) : after.ascent? id = some (child.name :: above) := by
  have h_grown := Grown.put h_fresh h_put
  obtain ⟨node, children, h_node, -, -, h_eq⟩ := put_eq_ok_iff.1 h_put
  have h_lt : dir < id := (Prod.mk.inj h_eq).2 ▸ lt_size_of_node? h_node
  rw [ascent?_of_parent (node?_of_put h_put) rfl h_lt, h_grown.ascent?_eq (lt_size_of_node? h_node),
    h_above]
  rfl

/-- A node that was put is listed under its name, below the directory. -/
theorem item?_of_put (h_fresh : child.IsFresh) (h_put : tree.put dir child = .ok (after, id))
    {above : List String} (h_above : tree.ascent? dir = some above) :
    after.item? id = some (child.name :: above, child.entry) := by
  rw [item?, ascent?_of_put h_fresh h_put h_above, node?_of_put h_put]
  rfl

/-- A directory that was put has no names in it. -/
theorem hasNames_of_put {name : String} (h_put : tree.put dir (.directory name) = .ok (after, id)) :
    after.HasNames id [] :=
  ⟨_, ∅, node?_of_put h_put, rfl, rfl⟩

/-- There is nothing below a node that was put. -/
theorem children_of_put (h_fresh : child.IsFresh) (h_put : tree.put dir child = .ok (after, id)) :
    after.children id = [] := by
  rw [Tree.children, node?_of_put h_put, Option.bind_some]
  cases h_children : ({ child with parent := some dir } : Node).children? with
  | none => rfl
  | some children =>
    obtain rfl := h_fresh children h_children
    rfl

end Put

end Tree

end PocketShell
