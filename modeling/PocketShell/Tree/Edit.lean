import PocketShell.Tree.Lookup

/-!
# Changing a tree

* `Tree.put` — attaches a node to a directory that has no child of its name;
* `Tree.makePath`, `Tree.mkdirp` — follows a path and makes every directory that is missing on it;
* `Tree.createFile` — makes a file in a directory that must exist;
* `Tree.removeNode`, `Tree.remove` — takes a node out of the tree, with everything below it.

Making a path may take several steps; it is an `Attempt`, which shows what is left behind if a step
fails. All other changes are made in one step or not at all.

Whatever is removed is dismantled from the top: a stack holds the slots that are still to be
emptied, and a node that is taken out puts its children on it. Every node is taken out once, so the
number of nodes bounds the work.
-/

namespace PocketShell.Tree

/-- The tree with another node in a slot. -/
def setNode (tree : Tree) (id : Nat) (node : Node) : Tree where
  slots := tree.slots.setIfInBounds id (some node)

def push (tree : Tree) (node : Node) : Tree where
  slots := tree.slots.push (some node)

/-- The tree in which a slot is empty. -/
def vacate (tree : Tree) (id : Nat) : Tree where
  slots := tree.slots.setIfInBounds id none

@[simp] theorem size_setNode (tree : Tree) (id : Nat) (node : Node) :
    (tree.setNode id node).slots.size = tree.slots.size :=
  Array.size_setIfInBounds

@[simp] theorem size_push (tree : Tree) (node : Node) :
    (tree.push node).slots.size = tree.slots.size + 1 :=
  Array.size_push _

@[simp] theorem size_vacate (tree : Tree) (id : Nat) :
    (tree.vacate id).slots.size = tree.slots.size :=
  Array.size_setIfInBounds

theorem node?_setNode {tree : Tree} {id : Nat} (h : id < tree.slots.size) (node : Node) (i : Nat) :
    (tree.setNode id node).node? i = if i = id then some node else tree.node? i := by
  unfold node? setNode
  rw [Array.getElem?_setIfInBounds]
  by_cases hi : id = i
  · subst hi; simp [h]
  · simp [hi, Ne.symm hi]

theorem node?_push (tree : Tree) (node : Node) (i : Nat) :
    (tree.push node).node? i = if i = tree.slots.size then some node else tree.node? i := by
  unfold node? push
  rw [Array.getElem?_push]
  split <;> rfl

theorem node?_vacate (tree : Tree) (id i : Nat) :
    (tree.vacate id).node? i = if i = id then none else tree.node? i := by
  unfold node? vacate
  rw [Array.getElem?_setIfInBounds]
  by_cases hi : id = i
  · subst hi
    rw [if_pos rfl, if_pos rfl]
    split <;> rfl
  · simp [hi, Ne.symm hi]

/-! ### Making -/

/-- The tree with a node in a new slot and behind the children of its parent, given what the parent
is now. -/
def attach (tree : Tree) (parent : Nat) (node : Node) (children : OrderedMap Nat) (child : Node) :
    Tree :=
  let id := tree.slots.size
  (tree.setNode parent { node with content := .directory (children.insert child.name id) }).push
    { child with parent := some parent }

/-- **Attaching a node.** The node goes into a new slot and behind the children of the parent. -/
def put (tree : Tree) (parent : Nat) (child : Node) : Except Error (Tree × Nat) :=
  match tree.node? parent with
  | none => .error .danglingNode
  | some node =>
    match node.content with
    | .file _ => .error (.notADirectory node.name)
    | .directory children =>
      if children.contains child.name then .error (.duplicateName node.name child.name)
      else .ok (tree.attach parent node children child, tree.slots.size)

@[simp] theorem size_attach (tree : Tree) (parent : Nat) (node : Node)
    (children : OrderedMap Nat) (child : Node) :
    (tree.attach parent node children child).slots.size = tree.slots.size + 1 := by
  simp [attach]

theorem node?_attach {tree : Tree} {parent : Nat} {node : Node} (h : tree.node? parent = some node)
    (children : OrderedMap Nat) (child : Node) (i : Nat) :
    (tree.attach parent node children child).node? i =
      if i = tree.slots.size then some { child with parent := some parent }
      else if i = parent then
        some { node with
          content := .directory (children.insert child.name tree.slots.size) }
      else tree.node? i := by
  simp only [attach, node?_push, size_setNode, node?_setNode (lt_size_of_node? h)]

/-- Attaching succeeds exactly when the parent is a directory without a child of the name. -/
theorem put_eq_ok_iff {tree : Tree} {parent : Nat} {child : Node} {result : Tree × Nat} :
    tree.put parent child = .ok result ↔
      ∃ node children, tree.node? parent = some node ∧ node.content = .directory children ∧
        children.find? child.name = none ∧
        result = (tree.attach parent node children child, tree.slots.size) := by
  unfold put
  constructor
  · intro h
    split at h
    · cases h
    · next node h_node =>
      split at h
      · cases h
      · next children h_content =>
        split at h
        · cases h
        · next h_free =>
          cases h
          have h_none := OrderedMap.contains_eq_false_iff.1 (Bool.not_eq_true _ ▸ h_free)
          exact ⟨node, children, h_node, h_content, h_none, rfl⟩
  · rintro ⟨node, children, h_node, h_content, h_none, rfl⟩
    rw [h_node]
    simp [h_content, OrderedMap.contains_eq_false_iff.2 h_none]

/-- Attaching fails if the name is taken. -/
theorem put_of_find? {tree : Tree} {parent id : Nat} {node child : Node}
    {children : OrderedMap Nat} (h_node : tree.node? parent = some node)
    (h_content : node.content = .directory children)
    (h_taken : children.find? child.name = some id) :
    tree.put parent child = .error (.duplicateName (tree.name parent) child.name) := by
  have h_contains : children.contains child.name = true := by
    simp [OrderedMap.contains, h_taken]
  rw [put, h_node]
  simp [h_content, h_contains, Tree.name, h_node]

/-- Attaching to a node that is there meets no empty slot. -/
theorem put_ne_danglingNode {tree : Tree} {parent : Nat} (h : tree.isLive parent = true)
    (child : Node) : tree.put parent child ≠ .error .danglingNode := by
  obtain ⟨⟨label, above, content⟩, h_node⟩ := isLive_iff.1 h
  rw [put, h_node]
  cases content with
  | file blob => simp
  | directory children => cases h_free : children.contains child.name <;> simp [h_free]

/-- **Making a path.** Follows the names from a node on and makes each directory that is missing;
gives the last one. -/
def makePath (tree : Tree) (start : Nat) : List String → Attempt Tree Nat
  | [] => (tree, .ok start)
  | name :: rest =>
    match tree.child start name with
    | .ok id => tree.makePath id rest
    | .error (.noSuchNode _ _) =>
      match tree.put start (Node.directory name) with
      | .ok (tree, id) => tree.makePath id rest
      | .error e => (tree, .error e)
    | .error e => (tree, .error e)

/-- **Making a directory** with everything that is missing above it. -/
def mkdirp (tree : Tree) (env : Environment) (path : String) : Attempt Tree Nat :=
  tree.makePath root (Path.names (resolve env path))

/-- **Making a file.** Its directory must exist and have no child of the name; the root is no
file. -/
def createFile (tree : Tree) (env : Environment) (path : String) (blob : Blob) :
    Except Error (Tree × Nat) :=
  match (Path.splitLast? (resolve env path)).filter fun split => split.2 ≠ "" with
  | none => .error (.invalidPath path)
  | some (directory, name) => do
    let parent ← tree.get env (if directory = "" then "/" else directory)
    tree.put parent (Node.file name blob)

/-! ### Removing -/

/-- The tree in which a directory no longer has a child of a name. -/
def detach (tree : Tree) (parent : Nat) (name : String) : Except Error Tree :=
  match tree.node? parent with
  | none => .error .danglingNode
  | some node =>
    match node.content with
    -- a file has nothing to cut off, and that is no fault
    | .file _ => .ok tree
    | .directory children =>
      .ok (tree.setNode parent { node with content := .directory (children.erase name) })

def population (tree : Tree) : Nat :=
  tree.slots.countP Option.isSome

theorem population_vacate_lt {tree : Tree} {id : Nat} {node : Node}
    (h : tree.node? id = some node) : (tree.vacate id).population < tree.population := by
  have h_lt : id < tree.slots.size := lt_size_of_node? h
  have h_slot : tree.slots[id] = some node :=
    (Array.getElem?_eq_some_iff.1 (node?_eq_some_iff.1 h)).2
  have h_pos : 0 < tree.population :=
    Array.countP_pos_iff.2 ⟨some node, h_slot ▸ Array.getElem_mem h_lt, rfl⟩
  have h_eq : (tree.vacate id).population = tree.population - 1 := by
    simp [population, vacate, Array.setIfInBounds, h_lt, Array.countP_set, h_slot]
  omega

/-- **Dismantling.** Empties the slots on a stack and of everything below them: the children of each
node that is taken out go on top of the stack, the last one uppermost. -/
def dismantle (tree : Tree) : List Nat → Tree
  | [] => tree
  | id :: pending =>
    match _h : tree.node? id with
    -- a child that was taken out before, by another way to it
    | none => tree.dismantle pending
    | some _ => (tree.vacate id).dismantle ((tree.children id).reverse ++ pending)
  termination_by pending => (tree.population, pending.length)
  decreasing_by
    · exact Prod.Lex.right _ (Nat.lt_succ_self _)
    · exact Prod.Lex.left _ _ (population_vacate_lt _h)

/-- **Removing a node** and everything below it. The root cannot be removed. The node is given back
outside the tree, with its content as it was. -/
def removeNode (tree : Tree) (id : Nat) : Except Error (Tree × Node) :=
  match tree.node? id with
  | none => .error .danglingNode
  | some node =>
    match node.parent with
    | none => do .error (.invalidPath (← tree.absolutePath id))
    | some parent => do
      let detached ← tree.detach parent node.name
      let dismantled := detached.dismantle (detached.children id).reverse
      -- the node itself is taken out last, so a node below itself would be gone by now
      match dismantled.node? id with
      | none => .error (.invalidPath node.name)
      | some node => .ok (dismantled.vacate id, { node with parent := none })

/-- **Removing what is at a path.** -/
def remove (tree : Tree) (env : Environment) (path : String) : Except Error (Tree × Node) := do
  tree.removeNode (← tree.get env path)

end PocketShell.Tree
