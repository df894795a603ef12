import PocketShell.Environment
import PocketShell.Path
import PocketShell.Tree.Basic

/-!
# Finding nodes

A path is resolved first, and the resolved path is followed from the root, one name after the other.
Every step needs a directory that has a child of the name; the error of a step names the node where
it failed.

* `Tree.resolve` — the absolute path that a path denotes in the working directory;
* `Tree.follow` — the node at the end of a list of names;
* `Tree.get` — the node at a path;
* `Tree.list` — what a listing of a path shows;
* `Tree.absolutePath` — the path of a node, read off its way up to the root;
* `Tree.cd` — the variables with a new working directory.
-/

namespace PocketShell.Tree

/-- **One name.** The child of a directory with a name. -/
def child (tree : Tree) (dir : Nat) (name : String) : Except Error Nat :=
  match tree.node? dir with
  | none => .error .danglingNode
  | some node =>
    match node.content with
    | .file _ => .error (.notADirectory node.name)
    | .directory children =>
      match children.find? name with
      | some id => .ok id
      | none => .error (.noSuchNode name node.name)

/-- A directory leads to a node under a name exactly when its children say so. -/
theorem child_eq_ok_iff {tree : Tree} {dir id : Nat} {name : String} :
    tree.child dir name = .ok id ↔
      ∃ node children, tree.node? dir = some node ∧ node.children? = some children ∧
        children.find? name = some id := by
  unfold child Node.children?
  constructor
  · intro h
    split at h
    · cases h
    · next node h_node =>
      split at h
      · cases h
      · next children h_content =>
        split at h
        · next h_find =>
          cases h
          exact ⟨node, children, h_node, by rw [h_content], h_find⟩
        · cases h
  · rintro ⟨node, children, h_node, h_children, h_find⟩
    split at h_children
    · next h_content =>
      cases h_children
      rw [h_node]
      simp only [h_content, h_find]
    · cases h_children

theorem isLive_of_child {tree : Tree} {dir id : Nat} {name : String}
    (h : tree.child dir name = .ok id) : tree.isLive dir = true := by
  obtain ⟨node, -, h_node, -⟩ := child_eq_ok_iff.1 h
  exact isLive_iff.2 ⟨node, h_node⟩

/-- What a directory leads to, given its children. -/
theorem child_eq_ok_iff_of_node? {tree : Tree} {dir : Nat} {node : Node}
    {children : OrderedMap Nat} (h_node : tree.node? dir = some node)
    (h_children : node.children? = some children) {name : String} {id : Nat} :
    tree.child dir name = .ok id ↔ children.find? name = some id := by
  rw [child_eq_ok_iff]
  constructor
  · rintro ⟨node', children', h_node', h_children', h_find⟩
    rw [h_node, Option.some.injEq] at h_node'
    subst h_node'
    rw [h_children, Option.some.injEq] at h_children'
    exact h_children' ▸ h_find
  · exact fun h_find => ⟨node, children, h_node, h_children, h_find⟩

/-- Where a directory leads depends on its own slot only. -/
theorem child_congr {before after : Tree} {dir : Nat}
    (h : after.node? dir = before.node? dir) (name : String) :
    after.child dir name = before.child dir name := by
  simp only [child, h]

theorem children_congr {before after : Tree} {dir : Nat}
    (h : after.node? dir = before.node? dir) : after.children dir = before.children dir := by
  simp only [Tree.children, h]

theorem children_eq_of_node? {tree : Tree} {dir : Nat} {node : Node} {children : OrderedMap Nat}
    (h_node : tree.node? dir = some node) (h_children : node.children? = some children) :
    tree.children dir = children.values := by
  simp [Tree.children, h_node, h_children]

/-- The children of a directory are what it leads to. -/
theorem mem_children_iff {tree : Tree} {dir id : Nat} :
    id ∈ tree.children dir ↔ ∃ name, tree.child dir name = .ok id := by
  simp only [child_eq_ok_iff]
  constructor
  · intro h
    cases h_node : tree.node? dir with
    | none => simp [Tree.children, h_node] at h
    | some node =>
      cases h_children : node.children? with
      | none => simp [Tree.children, h_node, h_children] at h
      | some children =>
        rw [children_eq_of_node? h_node h_children, OrderedMap.mem_values_iff] at h
        obtain ⟨name, h_find⟩ := h
        exact ⟨name, node, children, rfl, h_children, h_find⟩
  · rintro ⟨name, node, children, h_node, h_children, h_find⟩
    rw [children_eq_of_node? h_node h_children, OrderedMap.mem_values_iff]
    exact ⟨name, h_find⟩

/-- Looking below a node that is there meets no empty slot. -/
theorem child_ne_danglingNode {tree : Tree} {dir : Nat} (h : tree.isLive dir = true)
    (name : String) : tree.child dir name ≠ .error .danglingNode := by
  obtain ⟨⟨label, parent, content⟩, h_node⟩ := isLive_iff.1 h
  rw [child, h_node]
  cases content with
  | file blob => simp
  | directory children => cases h_find : children.find? name <;> simp [h_find]

/-- The node at the end of a list of names, from a node on. -/
def follow (tree : Tree) (start : Nat) : List String → Except Error Nat
  | [] => .ok start
  | name :: rest =>
    match tree.child start name with
    | .ok id => tree.follow id rest
    | .error e => .error e

/-- **Resolving.** The absolute path that a path denotes in the working directory. -/
def resolve (env : Environment) (path : String) : String :=
  Path.resolve env.cwd path

/-- **The node at a path.** -/
def get (tree : Tree) (env : Environment) (path : String) : Except Error Nat :=
  tree.follow root (Path.names (resolve env path))

/-- **Listing.** The children of a directory, or a file itself. -/
def list (tree : Tree) (env : Environment) (path : String) : Except Error (List Nat) := do
  let id ← tree.get env path
  match tree.node? id with
  | none => .error .danglingNode
  | some node => .ok ((node.children?.map OrderedMap.values).getD [id])

/-- **The path of a node:** the names on its way up, from the root down. -/
def absolutePath (tree : Tree) (id : Nat) : Except Error String :=
  match tree.ascent? id with
  | none => .error .danglingNode
  | some names =>
    let path := String.intercalate "/" names.reverse
    .ok (if path = "" then "/" else path)

/-- **Changing the working directory.** The resolved path is looked up and becomes the working
directory. A path that leads to no node is reported as it was given; a file cannot be the working
directory. -/
def cd (tree : Tree) (env : Environment) (path : String) : Except Error Environment :=
  let resolved := resolve env path
  -- resolving again changes nothing, because what is resolved begins with `/`
  match tree.get env resolved with
  | .error .danglingNode => .error .danglingNode
  | .error _ => .error (.invalidPath path)
  | .ok id =>
    match tree.node? id with
    | none => .error .danglingNode
    | some node =>
      if node.isDirectory then env.put Environment.cwdName resolved
      else .error (.notADirectory node.name)

end PocketShell.Tree
