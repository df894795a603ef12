import PocketShell.Proofs.Tree.Failure

/-!
# Trees in use

A tree is started, empty or from a manifest, and then changed again and again. A `Tree.Change` is
anything that a program may ask a tree to do to itself, and `Tree.run` makes changes one after the
other. A change may fail, and then the next one meets the tree that the failure has left behind.

However a tree is used, it stays well formed, its nodes hang together and nothing dangles in it:
`Started.run_sound`. The proof reads each change as steps (`apply_steps`); the steps keep trees well
formed, and everything else is read off a well-formed tree.
-/

namespace PocketShell.Tree

/-- **Changes** that a tree may be asked for. New nodes are empty directories and files. -/
inductive Change where
  /-- Makes a directory with what is missing above it. -/
  | mkdirp (env : Environment) (path : String)
  | createFile (env : Environment) (path : String) (blob : Blob)
  | putDirectory (parent : Nat) (name : String)
  | putFile (parent : Nat) (name : String) (blob : Blob)
  | remove (env : Environment) (path : String)
  | removeNode (id : Nat)

/-- The name that a change gives to a new node, as long as no path says so. -/
def Change.givenName? : Change → Option String
  | .putDirectory _ name | .putFile _ name _ => some name
  | .mkdirp _ _ | .createFile _ _ _ | .remove _ _ | .removeNode _ => none

/-- What is left after an operation that fails without a trace. -/
def leave {α : Type} (tree : Tree) : Except Error (Tree × α) → Tree
  | .ok (after, _) => after
  | .error _ => tree

/-- **Making a change.** -/
def apply (tree : Tree) : Change → Tree
  | .mkdirp env path => (tree.mkdirp env path).1
  | .createFile env path blob => tree.leave (tree.createFile env path blob)
  | .putDirectory parent name => tree.leave (tree.put parent (Node.directory name))
  | .putFile parent name blob => tree.leave (tree.put parent (Node.file name blob))
  | .remove env path => tree.leave (tree.remove env path)
  | .removeNode id => tree.leave (tree.removeNode id)

/-- **Making changes** one after the other. -/
def run (tree : Tree) (changes : List Change) : Tree :=
  changes.foldl apply tree

/-- **Started trees:** the empty one, and those that manifests describe. -/
inductive Started : Tree → Prop where
  | empty : Started Tree.empty
  | manifest {env : Environment} {manifest : Manifest} {tree : Tree} :
      manifest.toTree env = .ok tree → Started tree

/-! ### Changes as steps -/

section Steps

variable {Name : String → Prop} {tree : Tree}

/-- What fails without a trace is made of steps if what succeeds is. -/
theorem leave_steps {α : Type} {result : Except Error (Tree × α)}
    (h : ∀ after a, result = .ok (after, a) → Steps Name tree after) :
    Steps Name tree (tree.leave result) := by
  cases result with
  | error e => exact .refl
  | ok pair => exact h pair.1 pair.2 rfl

/-- **A change is made of steps,** with names that are segments of paths or given. -/
theorem apply_steps (h_segment : ∀ name, Path.IsSegment name → Name name) {change : Change}
    (h_given : ∀ name ∈ change.givenName?, Name name) :
    Steps Name tree (tree.apply change) := by
  cases change with
  | mkdirp env path => exact mkdirp_steps h_segment tree env path
  | createFile env path blob =>
    show Steps Name tree (tree.leave (tree.createFile env path blob))
    exact leave_steps fun after id h_create => createFile_steps h_segment h_create
  | putDirectory parent name =>
    -- the name is the one that is given
    refine leave_steps fun after id h_put => .single (.put ?_ (Node.isFresh_directory name) h_put)
    exact h_given name rfl
  | putFile parent name blob =>
    refine leave_steps fun after id h_put => .single (.put ?_ (Node.isFresh_file name blob) h_put)
    exact h_given name rfl
  | remove env path =>
    show Steps Name tree (tree.leave (tree.remove env path))
    exact leave_steps fun after node h_remove => remove_steps h_remove
  | removeNode id =>
    show Steps Name tree (tree.leave (tree.removeNode id))
    exact leave_steps fun after node h_remove => .single (.removeNode h_remove)

theorem run_steps (h_segment : ∀ name, Path.IsSegment name → Name name) {changes : List Change}
    (h_given : ∀ change ∈ changes, ∀ name ∈ change.givenName?, Name name) :
    Steps Name tree (tree.run changes) := by
  induction changes generalizing tree with
  | nil => exact .refl
  | cons change changes ih =>
    have h_first : Steps Name tree (tree.apply change) :=
      apply_steps h_segment (h_given change List.mem_cons_self)
    exact h_first.trans (ih fun c h_c => h_given c (List.mem_cons_of_mem _ h_c))

end Steps

/-! ### Soundness -/

theorem Started.wellFormed {start : Tree} (h_start : Started start) : start.WellFormed := by
  cases h_start with
  | empty => exact .empty
  | manifest h_build => exact WellFormed.empty.steps (toTree_steps h_build)

theorem WellFormed.run {start : Tree} (h : start.WellFormed) (changes : List Change) :
    (start.run changes).WellFormed := by
  have h_steps : Steps (fun _ => True) start (start.run changes) :=
    run_steps (fun _ _ => trivial) fun _ _ _ _ => trivial
  exact h.steps h_steps

/-- **A tree in use is sound.** It is well formed, its root is the only node that is in no
directory, every node reaches the root through smaller and smaller numbers, and nothing dangles. -/
theorem Started.run_sound {start : Tree} (h_start : Started start) (changes : List Change) :
    (start.run changes).WellFormed ∧
      (∀ id node, (start.run changes).node? id = some node → (node.parent = none ↔ id = root)) ∧
      (∀ id, (start.run changes).isLive id = true →
        Relation.ReflTransGen
          (fun lower upper => (start.run changes).parent? lower = some upper ∧ upper < lower)
          id root) ∧
      (start.run changes).NothingDangles := by
  have h := h_start.wellFormed.run changes
  refine ⟨h, fun id node h_node => h.parent_eq_none_iff h_node, fun id h_live => ?_, ?_⟩
  · exact h.reaches_root h_live
  · exact h.nothingDangles

/-- Two directories are made, removals fail, and a file is made in the lower directory. -/
def filling : List Change :=
  [.mkdirp {} "a/b", .removeNode root, .remove {} "b", .putFile 2 "c" (.plain "text")]

/-- The file reaches the root. -/
theorem Started.run_sound_filling :
    Started Tree.empty ∧ (Tree.empty.run filling).isLive 3 = true ∧
      Relation.ReflTransGen (fun lower upper =>
        (Tree.empty.run filling).parent? lower = some upper ∧ upper < lower) 3 root := by
  have h_live : (Tree.empty.run filling).isLive 3 = true := by decide +kernel
  exact ⟨.empty, h_live, (Started.run_sound .empty filling).2.2.1 3 h_live⟩

end PocketShell.Tree
