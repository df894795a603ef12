import PocketShell.Proofs.Tree.Making

/-!
# Numbers are given once

A slot is never filled a second time and never taken away. A tree that comes out of another one by
any changes therefore has at least as many slots, and those that were empty are empty still: it is a
**later** tree (`Tree.Later`). One step of a tree gives a later one (`WellFormed.later_step`), and
so does every run (`WellFormed.later_run`).

A number has been in use exactly if there is a slot for it, so a number is new if no tree on the way
had one (`Tree.IsNew`). What is made gets the first number without a slot. So every operation that
gives the number of a node gives a new number, with one exception: making a directory that is there
gives its number again (`WellFormed.givesNewNumbers`).

Removing a node takes out the numbers of its subtree for good (`WellFormed.removeNode_exact`).
-/

namespace PocketShell.Tree

/-- **Later trees.** No slot was taken away, and no empty slot was filled. -/
structure Later (before after : Tree) : Prop where
  size_le : before.slots.size ≤ after.slots.size
  gone : ∀ {id}, id < before.slots.size → before.node? id = none → after.node? id = none

/-- **A number that is new** after some changes: none of the trees on the way had a slot for it,
with a node or empty. -/
def IsNew (start : Tree) (changes : List Change) (id : Nat) : Prop :=
  ∀ front, front <+: changes → (start.run front).slots.size ≤ id

/-- **Giving new numbers.** After some changes, whatever is put or made has a new number. Only a
path that leads somewhere already is not made, and leads where it led. -/
structure GivesNewNumbers (start : Tree) (changes : List Change) : Prop where
  put : ∀ {dir child after id}, (start.run changes).put dir child = .ok (after, id) →
    start.IsNew changes id
  createFile : ∀ {env path blob after id},
    (start.run changes).createFile env path blob = .ok (after, id) → start.IsNew changes id
  mkdirp : ∀ {env path after id}, (start.run changes).mkdirp env path = (after, .ok id) →
    start.IsNew changes id ∨
      (after = start.run changes ∧ (start.run changes).get env path = .ok id)

variable {tree after : Tree}

/-! ### Later trees -/

namespace Later

variable {before middle : Tree}

theorem refl (tree : Tree) : tree.Later tree :=
  ⟨Nat.le_refl _, fun _ h_none => h_none⟩

theorem trans (h : before.Later middle) (h' : middle.Later after) : before.Later after where
  size_le := Nat.le_trans h.size_le h'.size_le
  gone h_id h_none := h'.gone (Nat.lt_of_lt_of_le h_id h.size_le) (h.gone h_id h_none)

end Later

/-- **A step gives a later tree.** -/
theorem WellFormed.later_step {Name : String → Prop} (h : tree.WellFormed)
    (h_step : Step Name tree after) : tree.Later after := by
  cases h_step with
  | put _ _ h_put =>
    obtain ⟨node, children, h_node, -, -, h_eq⟩ := put_eq_ok_iff.1 h_put
    obtain ⟨rfl, -⟩ := Prod.mk.inj h_eq
    refine ⟨by simp, fun {id} h_id h_none => ?_⟩
    -- the parent has a node, so an empty slot is neither its slot nor the new one
    have h_ne : id ≠ _ := fun h_eq => by
      rw [h_eq, h_node] at h_none
      cases h_none
    rw [node?_attach h_node, if_neg (Nat.ne_of_lt h_id), if_neg h_ne, h_none]
  | removeNode h_remove =>
    obtain ⟨-, h_removed, -⟩ := h.removed_of_removeNode h_remove
    refine ⟨Nat.le_of_eq h_removed.size_eq.symm, fun {id} _ h_none => ?_⟩
    refine Option.eq_none_iff_forall_ne_some.2 fun node h_node => ?_
    obtain ⟨-, before, h_before, -⟩ := h_removed.node?_eq_some h h_node
    rw [h_none] at h_before
    cases h_before

theorem WellFormed.later_steps {Name : String → Prop} (h : tree.WellFormed)
    (h_steps : Steps Name tree after) : tree.Later after := by
  induction h_steps with
  | refl => exact .refl tree
  | tail h_before h_step ih => exact ih.trans ((h.steps h_before).later_step h_step)

/-- **A run gives a later tree,** whether its changes succeed or fail. -/
theorem WellFormed.later_run (h : tree.WellFormed) (changes : List Change) :
    tree.Later (tree.run changes) := by
  have h_steps : Steps (fun _ => True) tree (tree.run changes) :=
    run_steps (fun _ _ => trivial) fun _ _ _ _ => trivial
  exact h.later_steps h_steps

/-! ### New numbers -/

theorem run_cons (tree : Tree) (change : Change) (changes : List Change) :
    tree.run (change :: changes) = (tree.apply change).run changes :=
  List.foldl_cons ..

theorem run_append (tree : Tree) (changes more : List Change) :
    tree.run (changes ++ more) = (tree.run changes).run more :=
  List.foldl_append

/-- A number without a slot is new. -/
theorem WellFormed.isNew_of_size_le (h : tree.WellFormed) {changes : List Change} {id : Nat}
    (h_id : (tree.run changes).slots.size ≤ id) : tree.IsNew changes id := by
  rintro front ⟨more, rfl⟩
  have h_later := (h.run front).later_run more
  rw [← run_append] at h_later
  exact Nat.le_trans h_later.size_le h_id

/-- The numbers of a chain grow. -/
theorem Chain.first_le {parent first last : Nat} {names : List String}
    (h : tree.Chain parent first names last) : first ≤ last := by
  induction h with
  | last _ => exact Nat.le_refl _
  | link _ _ _ ih => exact Nat.le_of_succ_le ih

theorem eq_size_of_put {dir id : Nat} {child : Node}
    (h_put : tree.put dir child = .ok (after, id)) :
    id = tree.slots.size := by
  obtain ⟨_, _, -, -, -, h_eq⟩ := put_eq_ok_iff.1 h_put
  exact (Prod.mk.inj h_eq).2

theorem eq_size_of_createFile {env : Environment} {path : String} {blob : Blob} {id : Nat}
    (h_create : tree.createFile env path blob = .ok (after, id)) : id = tree.slots.size := by
  rw [createFile_eq] at h_create
  split at h_create
  · cases h_create
  · obtain ⟨_, -, h_put⟩ := bind_eq_ok_iff.1 h_create
    exact eq_size_of_put h_put

theorem size_le_of_mkdirp {env : Environment} {path : String} {id : Nat}
    (h_made : tree.mkdirp env path = (after, .ok id)) :
    tree.slots.size ≤ id ∨ (after = tree ∧ tree.get env path = .ok id) := by
  rw [mkdirp_eq] at h_made
  obtain ⟨found, missing, deepest, h_names, h_found, ⟨rfl, h_after, rfl⟩ | ⟨-, h_extended⟩⟩ :=
    exists_makePath_eq h_made
  · refine .inr ⟨h_after, ?_⟩
    rw [get_eq_follow, h_names, List.append_nil]
    exact h_found
  · exact .inl h_extended.chain.first_le

/-- **Numbers are given once.** -/
theorem WellFormed.givesNewNumbers (h : tree.WellFormed) (changes : List Change) :
    tree.GivesNewNumbers changes where
  put h_put := h.isNew_of_size_le (Nat.le_of_eq (eq_size_of_put h_put).symm)
  createFile h_create := h.isNew_of_size_le (Nat.le_of_eq (eq_size_of_createFile h_create).symm)
  mkdirp h_made := (size_le_of_mkdirp h_made).imp_left h.isNew_of_size_le

/-! ### What is left without a subtree -/

/-- What is left has the nodes that were not in the subtree. -/
theorem Removed.isLive_iff (h : tree.WellFormed) {top : Nat} (h_removed : tree.Removed top after)
    (id : Nat) : after.isLive id = true ↔ tree.isLive id = true ∧ ¬ tree.Within top id := by
  rw [Tree.isLive_iff, Tree.isLive_iff]
  constructor
  · rintro ⟨node, h_node⟩
    obtain ⟨h_out, before, h_before, -⟩ := h_removed.node?_eq_some h h_node
    exact ⟨⟨before, h_before⟩, h_out⟩
  · rintro ⟨⟨node, h_node⟩, h_out⟩
    obtain ⟨left, h_left, -⟩ := h_removed.exists_node? h h_node h_out
    exact ⟨left, h_left⟩

/-- In a directory a name belongs to one number, so losing the name is losing that one child. -/
theorem entries_erase {children : OrderedMap Nat} {name : String} {id : Nat}
    (h_find : children.find? name = some id) :
    (children.erase name).entries = children.entries.filter fun entry => entry ≠ (name, id) := by
  refine List.filter_congr fun entry h_mem => ?_
  obtain ⟨key, value⟩ := entry
  have h_value : key = name → value = id := by
    rintro rfl
    have h_same := OrderedMap.find?_eq_some_iff.2 h_mem
    exact Option.some.inj (h_same.symm.trans h_find)
  have h_iff : key = name ↔ key = name ∧ value = id :=
    ⟨fun h_key => ⟨h_key, h_value h_key⟩, fun h_both => h_both.1⟩
  simp only [ne_eq, Prod.mk.injEq, ← h_iff]

/-- **A tree that has lost exactly one subtree.** -/
structure LosesSubtree (tree : Tree) (top : Nat) (node : Node) (after : Tree) : Prop where
  /-- The nodes of the subtree are gone, and no others. -/
  isLive_iff : ∀ id, after.isLive id = true ↔ tree.isLive id = true ∧ ¬ tree.Within top id
  /-- The directory above lists its other children, in the same order. -/
  above : ∃ dir before children rest, node.parent = some dir ∧ tree.node? dir = some before ∧
    before.content = .directory children ∧
    after.node? dir = some { before with content := .directory rest } ∧
    rest.entries = children.entries.filter fun entry => entry ≠ (node.name, top)
  /-- Everything else is as it was. -/
  others : ∀ id, ¬ tree.Within top id → node.parent ≠ some id → after.node? id = tree.node? id
  size_eq : after.slots.size = tree.slots.size

theorem Removed.losesSubtree (h : tree.WellFormed) {top : Nat} {node : Node}
    (h_removed : tree.Removed top after) (h_node : tree.node? top = some node) (h_ne : top ≠ root) :
    tree.LosesSubtree top node after where
  isLive_iff := h_removed.isLive_iff h
  above := by
    obtain ⟨dir, h_parent, -, h_up⟩ := h.parent_of h_node h_ne
    have h_above : tree.parent? top = some dir := h.parent?_of_child h_up
    have h_name : tree.name top = node.name := h.name_of_child h_up
    obtain ⟨before, children, h_before, h_content, h_after⟩ := h_removed.node?_above h h_above
    rw [h_name] at h_after
    have h_find : children.find? node.name = some top :=
      (child_eq_ok_iff_of_node? h_before (Node.children?_eq_some_iff.2 h_content)).1 h_up
    exact ⟨dir, before, children, _, h_parent, h_before, h_content, h_after, entries_erase h_find⟩
  others id h_out h_parent := by
    refine h_removed.kept h_out ?_
    rwa [parent?, h_node]
  size_eq := h_removed.size_eq

/-- **Removing takes out exactly one subtree.** The root stays, and asking for it changes nothing.
Any other node is given back as it was, without a parent, and the tree loses what is at it and below
it. Whatever happens to the tree from there on, a number that is gone by then is never seen again:
what is made gets new numbers. -/
theorem WellFormed.removeNode_exact (h : tree.WellFormed) :
    (tree.removeNode root = .error (.invalidPath "/") ∧ tree.apply (.removeNode root) = tree) ∧
    ∀ top node, tree.node? top = some node → top ≠ root →
      ∃ after, tree.removeNode top = .ok (after, { node with parent := none }) ∧
        tree.apply (.removeNode top) = after ∧
        tree.LosesSubtree top node after ∧
        ∀ changes, tree.GivesNewNumbers (.removeNode top :: changes) ∧
          ∀ id, id < tree.slots.size → after.isLive id = false →
            (tree.run (.removeNode top :: changes)).isLive id = false := by
  constructor
  · have h_root := h.removeNode_root
    refine ⟨h_root, ?_⟩
    show tree.leave (tree.removeNode root) = tree
    rw [h_root]
    rfl
  intro top node h_node h_ne
  obtain ⟨after, h_remove, h_removed⟩ := h.removeNode_eq_ok h_node h_ne
  have h_apply : tree.apply (.removeNode top) = after := by
    show tree.leave (tree.removeNode top) = after
    rw [h_remove]
    rfl
  refine ⟨after, h_remove, h_apply, h_removed.losesSubtree h h_node h_ne, fun changes => ?_⟩
  refine ⟨h.givesNewNumbers _, fun id h_id h_gone => ?_⟩
  -- the rest of the run starts at the tree that is left, where the slot is empty
  rw [run_cons, h_apply]
  have h_later := (h.removed h_removed h_ne).later_run changes
  rw [isLive, Option.isSome_eq_false_iff, Option.isNone_iff_eq_none] at h_gone ⊢
  exact h_later.gone (h_removed.size_eq ▸ h_id) h_gone

/-- A directory with a file in it is removed, and then made once more. -/
theorem WellFormed.removeNode_exact_again :
    let tree := Tree.empty.run [.mkdirp {} "a/b", .createFile {} "a/f" (.plain "text")]
    tree.WellFormed ∧ ∃ node after, tree.node? 1 = some node ∧
      tree.removeNode 1 = .ok (after, { node with parent := none }) ∧
      after.isLive root = true ∧ after.isLive 3 = false ∧
      (after.run [.mkdirp {} "a/f"]).isLive 3 = false ∧
      ∀ later id, after.put root (Node.directory "a") = .ok (later, id) → 4 ≤ id := by
  intro tree
  have h_tree : tree.WellFormed := WellFormed.empty.run _
  have h_size : tree.slots.size = 4 := by rfl
  have h_live : tree.isLive 1 = true := by rfl
  have h_root : tree.isLive root = true := by rfl
  have h_file : tree.child 1 "f" = .ok 3 := by rfl
  clear_value tree
  obtain ⟨node, h_node⟩ := isLive_iff.1 h_live
  obtain ⟨after, h_remove, h_apply, h_lost, h_rest⟩ :=
    h_tree.removeNode_exact.2 1 node h_node (by decide)
  have h_gone : after.isLive 3 = false := by
    refine Bool.eq_false_iff.2 fun h_still => ?_
    exact ((h_lost.isLive_iff 3).1 h_still).2 (.step .self h_file)
  have h_above : after.isLive root = true :=
    (h_lost.isLive_iff root).2 ⟨h_root, fun h_within => absurd (h_within.le h_tree) (by decide)⟩
  have h_never := (h_rest [.mkdirp {} "a/f"]).2 3 (by rw [h_size]; decide) h_gone
  rw [run_cons, h_apply] at h_never
  refine ⟨h_tree, node, after, h_node, h_remove, h_above, h_gone, h_never, ?_⟩
  intro later id h_put
  rw [← h_apply] at h_put
  calc 4 = tree.slots.size := h_size.symm
    _ ≤ id := (h_rest []).1.put h_put [] List.nil_prefix

end PocketShell.Tree
