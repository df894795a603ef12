import PocketShell.Blob
import PocketShell.OrderedMap

/-!
# Trees of files

The directories and files of a session are **nodes** in numbered slots. A node keeps its name, the
number of its parent, and its content: a directory the numbers of its children under their names, a
file its blob. Slot `Tree.root` holds the root directory, whose name is empty and which has no
parent.

A new node gets the first number that was never used. When a node is removed its slot stays empty
for good, so the number of a removed node never comes to mean another one. Numbers therefore grow
from parent to child, which is what makes climbing from a node to the root come to an end.
-/

namespace PocketShell

/-- **What a node holds.** -/
inductive Content where
  /-- A directory: its children under their names, in the order in which they were made. -/
  | directory (children : OrderedMap Nat)
  | file (blob : Blob)

/-- **Nodes.** A directory or a file. -/
structure Node where
  /-- The name under which the parent knows the node. -/
  name : String
  /-- The directory that the node is in; none for the root, and for a node outside a tree. -/
  parent : Option Nat := none
  content : Content

namespace Node

/-- A new, empty directory. -/
def directory (name : String) : Node where
  name := name
  content := .directory ∅

def file (name : String) (blob : Blob) : Node where
  name := name
  content := .file blob

/-- The children of a directory. -/
def children? (node : Node) : Option (OrderedMap Nat) :=
  match node.content with
  | .directory children => some children
  | .file _ => none

def blob? (node : Node) : Option Blob :=
  match node.content with
  | .directory _ => none
  | .file blob => some blob

def isDirectory (node : Node) : Bool :=
  node.children?.isSome

def isFile (node : Node) : Bool :=
  node.blob?.isSome

@[simp] theorem children?_directory (name : String) : (directory name).children? = some ∅ := rfl

@[simp] theorem children?_file (name : String) (blob : Blob) : (file name blob).children? = none :=
  rfl

theorem children?_eq_some_iff {node : Node} {children : OrderedMap Nat} :
    node.children? = some children ↔ node.content = .directory children := by
  unfold children?
  split <;> simp_all

end Node

/-- **Trees.** Slots of nodes; the slot of a removed node is empty. -/
structure Tree where
  slots : Array (Option Node)

namespace Tree

def root : Nat := 0

/-- The tree that holds the root directory only. -/
def empty : Tree where
  slots := #[some (Node.directory "")]

/-- The node with a number, unless it was removed or never made. -/
def node? (tree : Tree) (id : Nat) : Option Node :=
  tree.slots[id]?.join

theorem node?_eq_some_iff {tree : Tree} {id : Nat} {node : Node} :
    tree.node? id = some node ↔ tree.slots[id]? = some (some node) :=
  Option.join_eq_some_iff

/-- Only slots hold nodes. -/
theorem lt_size_of_node? {tree : Tree} {id : Nat} {node : Node} (h : tree.node? id = some node) :
    id < tree.slots.size :=
  (Array.getElem?_eq_some_iff.1 (node?_eq_some_iff.1 h)).1

theorem node?_empty (id : Nat) :
    empty.node? id = if id = root then some (Node.directory "") else none := by
  rcases id with _ | id
  · rfl
  · simp [node?, empty, root]

def isLive (tree : Tree) (id : Nat) : Bool :=
  (tree.node? id).isSome

theorem isLive_iff {tree : Tree} {id : Nat} :
    tree.isLive id = true ↔ ∃ node, tree.node? id = some node :=
  Option.isSome_iff_exists

def name (tree : Tree) (id : Nat) : String :=
  ((tree.node? id).map Node.name).getD ""

def parent? (tree : Tree) (id : Nat) : Option Nat :=
  (tree.node? id).bind Node.parent

/-- The children of a directory, in order. -/
def children (tree : Tree) (id : Nat) : List Nat :=
  (((tree.node? id).bind Node.children?).map OrderedMap.values).getD []

/-- **The names on the way up** from a node to the root, both included. -/
def ascent? (tree : Tree) (id : Nat) : Option (List String) :=
  match tree.node? id with
  | none => none
  | some node =>
    match node.parent with
    | none => some [node.name]
    | some parent =>
      -- in a well-formed tree the numbers always fall
      if parent < id then (tree.ascent? parent).map fun names => node.name :: names else none
  termination_by id

/-- The nodes of a subtree in preorder: a node before its children, and these in their order. -/
def preorderFrom (tree : Tree) (id : Nat) : List Nat :=
  id :: (tree.children id).flatMap fun child =>
    if id < child ∧ child < tree.slots.size then tree.preorderFrom child else []
  termination_by tree.slots.size - id
  decreasing_by omega

/-- **Preorder.** All nodes: a node before its children, and these in their order. -/
def preorder (tree : Tree) : List Nat :=
  tree.preorderFrom root

end Tree

end PocketShell
