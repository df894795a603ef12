import PocketShell.Proofs.Tree.WellFormed

/-!
# Taking out a subtree

`Tree.removeNode` cuts a node off its directory and empties the slots of everything below it with a
stack of numbers. This module says what is left, without the stack:

* `Tree.Within` — the numbers of a subtree, its top included;
* `Tree.Removed` — one tree is another one without a subtree: the slots of the subtree are empty,
  the directory above it has lost the name of its top, and every other slot is as it was.

The stack is handled once, in four facts about `Tree.dismantle` that hold of any tree: a slot is
emptied or left alone, the slots on the stack are emptied, what an emptied directory led to is
emptied, and a set of numbers that is closed under going down contains everything that is emptied.
In a well-formed tree these meet in the middle (`WellFormed.removeNode_eq_ok`), and a tree without
one of its subtrees is well formed again (`WellFormed.removed`).
-/

namespace PocketShell.Tree

/-- **Subtrees.** The numbers that are reached from the top by going down. -/
inductive Within (tree : Tree) (top : Nat) : Nat → Prop where
  | self : Within tree top top
  | step {dir id : Nat} {name : String} :
      Within tree top dir → tree.child dir name = .ok id → Within tree top id

theorem child_ne_ok_of_node?_eq_none {tree : Tree} {dir : Nat} (h : tree.node? dir = none)
    (name : String) (id : Nat) : tree.child dir name ≠ .ok id := by
  intro h_child
  obtain ⟨node, -, h_node, -⟩ := child_eq_ok_iff.1 h_child
  rw [h] at h_node
  cases h_node

/-! ### The stack -/

theorem child_vacate_iff {tree : Tree} {slot dir id : Nat} {name : String} :
    (tree.vacate slot).child dir name = .ok id ↔
      dir ≠ slot ∧ tree.child dir name = .ok id := by
  have h_after := node?_vacate tree slot dir
  by_cases h : dir = slot
  · rw [if_pos h] at h_after
    simp [h, child_ne_ok_of_node?_eq_none (h ▸ h_after) name id]
  · rw [if_neg h] at h_after
    simp [h, child_congr h_after]

@[simp] theorem size_dismantle (tree : Tree) (pending : List Nat) :
    (tree.dismantle pending).slots.size = tree.slots.size := by
  fun_induction dismantle tree pending with
  | case1 tree => rfl
  | case2 tree id pending h_node ih => exact ih
  | case3 tree id pending node h_node ih => rw [ih, size_vacate]

theorem node?_dismantle (tree : Tree) (pending : List Nat) (i : Nat) :
    (tree.dismantle pending).node? i = none ∨
      (tree.dismantle pending).node? i = tree.node? i := by
  fun_induction dismantle tree pending with
  | case1 tree => exact Or.inr rfl
  | case2 tree id pending h_node ih => exact ih
  | case3 tree id pending node h_node ih =>
    rw [node?_vacate] at ih
    split at ih
    · -- the slot that is taken out now stays empty, whatever the rest of the stack does
      exact Or.inl (ih.elim (fun h => h) (fun h => h))
    · exact ih

theorem node?_dismantle_of_eq_none {tree : Tree} {i : Nat} (h : tree.node? i = none)
    (pending : List Nat) : (tree.dismantle pending).node? i = none := by
  rcases node?_dismantle tree pending i with h_none | h_same
  · exact h_none
  · rw [h_same, h]

theorem node?_dismantle_of_mem {tree : Tree} {pending : List Nat} {i : Nat} (h : i ∈ pending) :
    (tree.dismantle pending).node? i = none := by
  fun_induction dismantle tree pending with
  | case1 tree => cases h
  | case2 tree id pending h_node ih =>
    rcases List.mem_cons.1 h with rfl | h_rest
    · exact node?_dismantle_of_eq_none h_node pending
    · -- the slot on top was empty, so the slot that is asked for is further down
      exact ih h_rest
  | case3 tree id pending node h_node ih =>
    rcases List.mem_cons.1 h with rfl | h_rest
    · refine node?_dismantle_of_eq_none ?_ _
      rw [node?_vacate, if_pos rfl]
    · -- the children of the top go above the rest of the stack
      exact ih (List.mem_append_right _ h_rest)

/-- What an emptied directory led to is emptied. -/
theorem node?_dismantle_of_child {tree : Tree} {pending : List Nat} {dir id : Nat} {name : String}
    (h_child : tree.child dir name = .ok id)
    (h_gone : (tree.dismantle pending).node? dir = none) :
    (tree.dismantle pending).node? id = none := by
  fun_induction dismantle tree pending with
  | case1 tree => exact absurd h_child (child_ne_ok_of_node?_eq_none h_gone _ _)
  | case2 tree slot pending h_node ih => exact ih h_child h_gone
  | case3 tree slot pending node h_node ih =>
    by_cases h : dir = slot
    · -- its children have just gone on the stack
      subst h
      refine node?_dismantle_of_mem (List.mem_append_left _ ?_)
      exact List.mem_reverse.2 (mem_children_iff.2 ⟨name, h_child⟩)
    · exact ih (child_vacate_iff.2 ⟨h, h_child⟩) h_gone

/-- What lies outside a set that holds the stack and is closed under going down is left alone. -/
theorem node?_dismantle_of_closed {tree : Tree} {pending : List Nat} (S : Nat → Prop)
    (h_pending : ∀ id ∈ pending, S id)
    (h_closed : ∀ {dir name id}, S dir → tree.child dir name = .ok id → S id)
    {i : Nat} (h : ¬ S i) : (tree.dismantle pending).node? i = tree.node? i := by
  fun_induction dismantle tree pending with
  | case1 tree => rfl
  | case2 tree id pending h_node ih =>
    exact ih (fun id h_mem => h_pending id (List.mem_cons_of_mem _ h_mem)) h_closed
  | case3 tree slot pending node h_node ih =>
    have h_slot : S slot := h_pending slot List.mem_cons_self
    have h_ne : i ≠ slot := fun h_eq => h (h_eq ▸ h_slot)
    -- the set stays closed in the smaller tree, and holds the children that go on the stack
    rw [ih ?_ ?_, node?_vacate, if_neg h_ne]
    · intro id h_mem
      rcases List.mem_append.1 h_mem with h_new | h_old
      · obtain ⟨name, h_child⟩ := mem_children_iff.1 (List.mem_reverse.1 h_new)
        exact h_closed h_slot h_child
      · exact h_pending id (List.mem_cons_of_mem _ h_old)
    · exact fun h_dir h_child => h_closed h_dir (child_vacate_iff.1 h_child).2

/-! ### The subtree in a well-formed tree -/

theorem Within.le {tree : Tree} (h : tree.WellFormed) {top id : Nat}
    (h_within : tree.Within top id) : top ≤ id := by
  induction h_within with
  | self => exact Nat.le_refl top
  | step _ h_child ih => exact Nat.le_of_lt (Nat.lt_of_le_of_lt ih (h.lt_of_child h_child))

/-- What a directory leads to is in a subtree with the directory, or is its top. -/
theorem WellFormed.within_child_iff {tree : Tree} (h : tree.WellFormed) {top dir id : Nat}
    {name : String} (h_child : tree.child dir name = .ok id) :
    tree.Within top id ↔ id = top ∨ tree.Within top dir := by
  constructor
  · intro h_within
    cases h_within with
    | self => exact Or.inl rfl
    | step h_dir h_step =>
      have h_eq := (h.parent?_of_child h_step).symm.trans (h.parent?_of_child h_child)
      exact Or.inr (Option.some.inj h_eq ▸ h_dir)
  · rintro (rfl | h_dir)
    · exact Within.self
    · exact Within.step h_dir h_child

/-! ### What is left -/

/-- **A tree without one of its subtrees.** The slots of the subtree are empty, the directory above
it no longer has the name of its top, and every other slot is as it was. -/
structure Removed (tree : Tree) (top : Nat) (after : Tree) : Prop where
  size_eq : after.slots.size = tree.slots.size
  gone : ∀ {id}, tree.Within top id → after.node? id = none
  above : ∀ {parent node children}, tree.parent? top = some parent →
    tree.node? parent = some node → node.content = .directory children →
    after.node? parent =
      some { node with content := .directory (children.erase (tree.name top)) }
  kept : ∀ {id}, ¬ tree.Within top id → tree.parent? top ≠ some id →
    after.node? id = tree.node? id

/-- Cutting a node off its directory takes away one step. -/
theorem child_setNode_erase_iff {tree : Tree} {parent : Nat} {node : Node}
    {children : OrderedMap Nat} (h_node : tree.node? parent = some node)
    (h_content : node.content = .directory children) {key name : String} {dir id : Nat} :
    (tree.setNode parent { node with content := .directory (children.erase key) }).child dir name =
        .ok id ↔
      tree.child dir name = .ok id ∧ ¬ (dir = parent ∧ name = key) := by
  have h_after := node?_setNode (lt_size_of_node? h_node)
    { node with content := .directory (children.erase key) } dir
  by_cases h_dir : dir = parent
  · subst h_dir
    rw [if_pos rfl] at h_after
    rw [child_eq_ok_iff_of_node? h_after rfl, OrderedMap.find?_erase,
      child_eq_ok_iff_of_node? h_node (Node.children?_eq_some_iff.2 h_content)]
    by_cases h_name : name = key <;> simp [h_name]
  · rw [if_neg h_dir] at h_after
    rw [child_congr h_after]
    simp [h_dir]

/-- In a well-formed tree that step is the only one that leads to the node. -/
theorem WellFormed.child_cut_iff {tree : Tree} (h : tree.WellFormed) {top parent : Nat}
    {node above : Node} {children : OrderedMap Nat} (h_node : tree.node? top = some node)
    (h_parent : node.parent = some parent) (h_above : tree.node? parent = some above)
    (h_content : above.content = .directory children) {dir id : Nat} {name : String} :
    (tree.setNode parent { above with content := .directory (children.erase node.name) }).child
        dir name = .ok id ↔
      tree.child dir name = .ok id ∧ id ≠ top := by
  rw [child_setNode_erase_iff h_above h_content]
  refine and_congr_right fun h_child => not_congr ⟨?_, ?_⟩
  · rintro ⟨rfl, rfl⟩
    have h_up : tree.parent? top = some dir := by simp [parent?, h_node, h_parent]
    have h_top := h.child_of_parent? h_up
    simp only [Tree.name, h_node, Option.map_some, Option.getD_some] at h_top
    exact Except.ok.inj (h_child.symm.trans h_top)
  · rintro rfl
    obtain ⟨node', h_node', h_name, h_dir⟩ := h.child_of h_child
    obtain rfl : node = node' := Option.some.inj (h_node.symm.trans h_node')
    exact ⟨Option.some.inj (h_dir.symm.trans h_parent), h_name.symm⟩

theorem detach_eq_ok {tree : Tree} {parent : Nat} {node : Node} {children : OrderedMap Nat}
    (h_node : tree.node? parent = some node) (h_content : node.content = .directory children)
    (key : String) :
    tree.detach parent key =
      .ok (tree.setNode parent { node with content := .directory (children.erase key) }) := by
  rw [detach, h_node]
  simp only [h_content]

section Dismantle

/-! A tree, and the same tree in which nothing leads to the number `top` any more. -/

variable {tree detached : Tree} {top : Nat}

/-- Everything strictly below the top is on the stack, or below something that is emptied. -/
theorem node?_dismantle_of_within
    (h_cut : ∀ {dir name id}, detached.child dir name = .ok id ↔
      tree.child dir name = .ok id ∧ id ≠ top)
    {id : Nat} (h_within : tree.Within top id) (h_ne : id ≠ top) :
    (detached.dismantle (detached.children top).reverse).node? id = none := by
  induction h_within with
  | self => exact absurd rfl h_ne
  | @step dir id name h_dir h_child ih =>
    have h_child' : detached.child dir name = .ok id := h_cut.2 ⟨h_child, h_ne⟩
    by_cases h_eq : dir = top
    · subst h_eq
      exact node?_dismantle_of_mem (List.mem_reverse.2 (mem_children_iff.2 ⟨name, h_child'⟩))
    · exact node?_dismantle_of_child h_child' (ih h_eq)

/-- The top is not below itself, so the stack reaches neither it nor anything outside its
subtree. -/
theorem node?_dismantle_of_not_within
    (h_cut : ∀ {dir name id}, detached.child dir name = .ok id ↔
      tree.child dir name = .ok id ∧ id ≠ top)
    {id : Nat} (h_out : ¬ (tree.Within top id ∧ id ≠ top)) :
    (detached.dismantle (detached.children top).reverse).node? id = detached.node? id := by
  refine node?_dismantle_of_closed (fun id => tree.Within top id ∧ id ≠ top) ?_ ?_ h_out
  · intro id h_mem
    obtain ⟨name, h_child⟩ := mem_children_iff.1 (List.mem_reverse.1 h_mem)
    exact ⟨.step .self (h_cut.1 h_child).1, (h_cut.1 h_child).2⟩
  · exact fun h_dir h_child => ⟨.step h_dir.1 (h_cut.1 h_child).1, (h_cut.1 h_child).2⟩

end Dismantle

/-- **Removing takes out exactly one subtree.** Every node but the root can be removed; it is given
back without a parent. -/
theorem WellFormed.removeNode_eq_ok {tree : Tree} (h : tree.WellFormed) {id : Nat} {node : Node}
    (h_node : tree.node? id = some node) (h_ne : id ≠ root) :
    ∃ after, tree.removeNode id = .ok (after, { node with parent := none }) ∧
      tree.Removed id after := by
  obtain ⟨parent, h_parent, h_lt, h_up⟩ := h.parent_of h_node h_ne
  obtain ⟨above, children, h_above, h_children, -⟩ := child_eq_ok_iff.1 h_up
  have h_content := Node.children?_eq_some_iff.1 h_children
  -- the two trees on the way: cut off from its directory, and with nothing below it any more
  let cut : Node := { above with content := .directory (children.erase node.name) }
  let detached := tree.setNode parent cut
  let dismantled := detached.dismantle (detached.children id).reverse
  have h_detach : tree.detach parent node.name = .ok detached :=
    detach_eq_ok h_above h_content node.name
  have h_detached : ∀ i, detached.node? i = if i = parent then some cut else tree.node? i :=
    node?_setNode (lt_size_of_node? h_above) _
  have h_cut : ∀ {dir name i}, detached.child dir name = .ok i ↔
      tree.child dir name = .ok i ∧ i ≠ id :=
    h.child_cut_iff h_node h_parent h_above h_content
  have h_top : dismantled.node? id = some node := by
    rw [node?_dismantle_of_not_within h_cut fun h_in => h_in.2 rfl, h_detached,
      if_neg (Nat.ne_of_gt h_lt), h_node]
  refine ⟨dismantled.vacate id, ?_, ?_, ?_, ?_, ?_⟩
  · -- the three steps of removing succeed
    unfold removeNode
    rw [h_node]
    simp only [h_parent]
    refine bind_eq_ok_iff.2 ⟨detached, h_detach, ?_⟩
    simp only [h_top, dismantled]
  · simp [dismantled, detached]
  · -- the subtree is gone: its top is emptied last, the rest was below the top
    intro i h_within
    rw [node?_vacate]
    split
    · rfl
    · next h_ne => exact node?_dismantle_of_within h_cut h_within h_ne
  · -- the directory above has a smaller number than the top, so the stack does not reach it
    intro parent' node' children' h_parent' h_node' h_content'
    have h_parent? : tree.parent? id = some parent := by simp [parent?, h_node, h_parent]
    obtain rfl : parent = parent' := Option.some.inj (h_parent?.symm.trans h_parent')
    obtain rfl : above = node' := Option.some.inj (h_above.symm.trans h_node')
    obtain rfl : children = children' := Content.directory.inj (h_content.symm.trans h_content')
    have h_out : ¬ (tree.Within id parent ∧ parent ≠ id) := fun h_in =>
      Nat.not_lt_of_le (h_in.1.le h) h_lt
    have h_name : tree.name id = node.name := by simp [name, h_node]
    rw [node?_vacate, if_neg (Nat.ne_of_lt h_lt), node?_dismantle_of_not_within h_cut h_out,
      h_detached, if_pos rfl, h_name]
  · -- nothing else was touched
    intro i h_out h_other
    have h_ne_top : i ≠ id := fun h_eq => h_out (h_eq ▸ Within.self)
    have h_ne_parent : i ≠ parent := by
      rintro rfl
      exact h_other (by simp [parent?, h_node, h_parent])
    rw [node?_vacate, if_neg h_ne_top,
      node?_dismantle_of_not_within h_cut fun h_in => h_out h_in.1, h_detached,
      if_neg h_ne_parent]

theorem WellFormed.removeNode_root {tree : Tree} (h : tree.WellFormed) :
    tree.removeNode root = .error (.invalidPath "/") := by
  obtain ⟨children, h_root⟩ := h.root_node
  have h_ascent : tree.ascent? root = some [""] := by
    rw [ascent?, h_root]
  rw [removeNode, h_root]
  simp only [absolutePath, h_ascent]
  rfl

/-! ### The remaining tree is well formed -/

section Remaining

variable {tree after : Tree} {top : Nat}

theorem Removed.node?_above (h : tree.WellFormed) (h_removed : tree.Removed top after) {dir : Nat}
    (h_above : tree.parent? top = some dir) :
    ∃ node children, tree.node? dir = some node ∧ node.content = .directory children ∧
      after.node? dir =
        some { node with content := .directory (children.erase (tree.name top)) } := by
  obtain ⟨node, children, h_node, h_children, -⟩ :=
    child_eq_ok_iff.1 (h.child_of_parent? h_above)
  have h_content := Node.children?_eq_some_iff.1 h_children
  exact ⟨node, children, h_node, h_content, h_removed.above h_above h_node h_content⟩

/-- What is left keeps its name and its parent. -/
theorem Removed.node?_eq_some (h : tree.WellFormed) (h_removed : tree.Removed top after)
    {id : Nat} {node : Node} (h_node : after.node? id = some node) :
    ¬ tree.Within top id ∧
      ∃ before, tree.node? id = some before ∧ node.name = before.name ∧
        node.parent = before.parent := by
  have h_out : ¬ tree.Within top id := by
    intro h_within
    rw [h_removed.gone h_within] at h_node
    cases h_node
  refine ⟨h_out, ?_⟩
  -- the directory above is the one node that changes, and only in its content
  by_cases h_above : tree.parent? top = some id
  · obtain ⟨before, children, h_before, -, h_after⟩ := h_removed.node?_above h h_above
    rw [h_after, Option.some.injEq] at h_node
    subst h_node
    exact ⟨before, h_before, rfl, rfl⟩
  · rw [h_removed.kept h_out h_above] at h_node
    exact ⟨node, h_node, rfl, rfl⟩

/-- What is outside the subtree stays, with its name and its parent. -/
theorem Removed.exists_node? (h : tree.WellFormed) (h_removed : tree.Removed top after)
    {id : Nat} {node : Node} (h_node : tree.node? id = some node)
    (h_out : ¬ tree.Within top id) :
    ∃ left, after.node? id = some left ∧ left.name = node.name ∧ left.parent = node.parent := by
  by_cases h_above : tree.parent? top = some id
  · obtain ⟨before, children, h_before, -, h_after⟩ := h_removed.node?_above h h_above
    obtain rfl : node = before := Option.some.inj (h_node.symm.trans h_before)
    exact ⟨_, h_after, rfl, rfl⟩
  · exact ⟨node, (h_removed.kept h_out h_above).trans h_node, rfl, rfl⟩

/-- What is left of the tree leads where it led, except into the subtree. -/
theorem Removed.child_iff (h : tree.WellFormed) (h_removed : tree.Removed top after)
    {dir id : Nat} {name : String} :
    after.child dir name = .ok id ↔ tree.child dir name = .ok id ∧ ¬ tree.Within top id := by
  by_cases h_dir : tree.Within top dir
  · constructor
    · exact fun h_child =>
        absurd h_child (child_ne_ok_of_node?_eq_none (h_removed.gone h_dir) name id)
    · rintro ⟨h_child, h_out⟩
      exact absurd (Within.step h_dir h_child) h_out
  · -- outside the subtree, the only way into it is the step to its top
    have h_out : tree.child dir name = .ok id → (¬ tree.Within top id ↔ id ≠ top) := by
      intro h_child
      rw [h.within_child_iff h_child]
      simp [h_dir]
    by_cases h_above : tree.parent? top = some dir
    · obtain ⟨node, children, h_node, h_content, h_after⟩ := h_removed.node?_above h h_above
      have h_child : tree.child dir name = .ok id ↔ children.find? name = some id :=
        child_eq_ok_iff_of_node? h_node (Node.children?_eq_some_iff.2 h_content)
      rw [and_congr_right h_out, child_eq_ok_iff_of_node? h_after rfl, h_child,
        OrderedMap.find?_erase]
      by_cases h_name : name = tree.name top
      · -- the name leads to the top, and only there
        have h_top := h.child_of_parent? h_above
        rw [if_pos h_name, ← h_child]
        refine ⟨fun h_none => (nomatch h_none), fun h_ok => absurd ?_ h_ok.2⟩
        exact Except.ok.inj (h_ok.1.symm.trans (h_name ▸ h_top))
      · rw [if_neg h_name, ← h_child]
        refine ⟨fun h_ok => ⟨h_ok, ?_⟩, fun h_ok => h_ok.1⟩
        rintro rfl
        exact h_name (h.name_of_child h_ok).symm
    · rw [and_congr_right h_out, child_congr (h_removed.kept h_dir h_above)]
      refine ⟨fun h_child => ⟨h_child, ?_⟩, fun h_child => h_child.1⟩
      rintro rfl
      exact h_above (h.parent?_of_child h_child)

/-- What is left of a directory lists what it listed, without the top of the subtree. -/
theorem Removed.children_sublist (h : tree.WellFormed) (h_removed : tree.Removed top after)
    (dir : Nat) : (after.children dir).Sublist (tree.children dir) := by
  by_cases h_dir : tree.Within top dir
  · have h_nil : after.children dir = [] := by simp [Tree.children, h_removed.gone h_dir]
    rw [h_nil]
    exact List.nil_sublist _
  · by_cases h_above : tree.parent? top = some dir
    · obtain ⟨node, children, h_node, h_content, h_after⟩ := h_removed.node?_above h h_above
      rw [children_eq_of_node? h_after rfl,
        children_eq_of_node? h_node (Node.children?_eq_some_iff.2 h_content)]
      exact OrderedMap.values_erase_sublist children _
    · have h_same := children_congr (h_removed.kept h_dir h_above)
      exact h_same ▸ List.Sublist.refl _

/-- **Removing keeps a tree well formed.** -/
theorem WellFormed.removed (h : tree.WellFormed) (h_removed : tree.Removed top after)
    (h_ne : top ≠ root) : after.WellFormed where
  root_node := by
    obtain ⟨children, h_root⟩ := h.root_node
    -- the root has the smallest number, so it is in no subtree but its own
    have h_out : ¬ tree.Within top root := fun h_within => by
      have h_le : top ≤ 0 := h_within.le h
      exact h_ne (Nat.le_zero.1 h_le)
    by_cases h_above : tree.parent? top = some root
    · obtain ⟨node, children', h_node, -, h_after⟩ := h_removed.node?_above h h_above
      rw [h_root, Option.some.injEq] at h_node
      subst h_node
      exact ⟨_, h_after⟩
    · exact ⟨children, (h_removed.kept h_out h_above).trans h_root⟩
  parent_of := by
    intro id node h_node h_ne_root
    obtain ⟨h_out, before, h_before, h_name, h_parent⟩ := h_removed.node?_eq_some h h_node
    obtain ⟨parent, h_eq, h_lt, h_up⟩ := h.parent_of h_before h_ne_root
    refine ⟨parent, h_parent.trans h_eq, h_lt, ?_⟩
    rw [h_name]
    exact (h_removed.child_iff h).2 ⟨h_up, h_out⟩
  child_of := by
    intro dir name id h_child
    obtain ⟨h_before, h_out⟩ := (h_removed.child_iff h).1 h_child
    obtain ⟨node, h_node, h_name, h_parent⟩ := h.child_of h_before
    obtain ⟨left, h_left, h_name', h_parent'⟩ := h_removed.exists_node? h h_node h_out
    exact ⟨left, h_left, h_name'.trans h_name, h_parent'.trans h_parent⟩
  increasing := fun dir => (h.increasing dir).sublist (h_removed.children_sublist h dir)

end Remaining

end PocketShell.Tree
