import PocketShell.Proofs.Path
import PocketShell.Proofs.Tree.Removal
import PocketShell.Tree.Manifest

/-!
# The two steps of a tree

Whatever happens to a tree is made of two steps: a node without children is attached, or a node is
removed. `Tree.Step` lists them; it is indexed by the names that new nodes may have, so that one
list serves both for trees with any names and for trees whose names are segments. Making a path,
making a file and building a tree from a manifest are sequences of steps (`makePath_steps`,
`createFile_steps`, `graftAll_steps`), and a step that fails leaves the tree as it was.

An invariant of trees is therefore shown for the two steps only. For well-formedness this is
`WellFormed.step`, and `WellFormed.steps` carries it along a sequence.

Two equations read the operations that resolve a path in terms of its segments: `get_eq_follow` and
`createFile_eq`.
-/

namespace PocketShell.Tree

/-! ### Paths as segments -/

theorem get_eq_follow (tree : Tree) (env : Environment) (path : String) :
    tree.get env path = tree.follow root (Path.segments env.cwd path) := by
  rw [get, resolve, Path.names_resolve]

/-- Looking up written segments follows them, whatever the working directory is. -/
theorem get_render (tree : Tree) (env : Environment) {names : List String}
    (h : ∀ name ∈ names, Path.IsSegment name) :
    tree.get env (Path.render names) = tree.follow root names := by
  rw [get_eq_follow, Path.segments_render env.cwd h]

/-- A file is made under the last segment of its path, in the directory that the segments before it
lead to. -/
theorem createFile_eq (tree : Tree) (env : Environment) (path : String) (blob : Blob) :
    tree.createFile env path blob =
      match (Path.segments env.cwd path).getLast? with
      | none => .error (.invalidPath path)
      | some name =>
        tree.follow root (Path.segments env.cwd path).dropLast >>= fun parent =>
          tree.put parent (Node.file name blob) := by
  have h_segments := @Path.isSegment_of_mem_segments env.cwd path
  unfold createFile resolve Path.resolve
  -- the root has no last segment; any other path is cut in front of its last one
  rcases List.eq_nil_or_concat (Path.segments env.cwd path) with h_nil | ⟨front, last, h_concat⟩
  · rw [h_nil, Path.splitLast?_render_nil]
    rfl
  · rw [h_concat, List.concat_eq_append] at h_segments ⊢
    have h_last : Path.IsSegment last := h_segments last (by simp)
    have h_front : ∀ name ∈ front, Path.IsSegment name := fun name h_name =>
      h_segments name (by simp [h_name])
    -- right below the root, the empty text in front of the last `/` is read as the root
    have h_get : tree.get env (if (if front = [] then "" else Path.render front) = "" then "/"
        else if front = [] then "" else Path.render front) = tree.follow root front := by
      by_cases h_nil : front = []
      · subst h_nil
        have h_slash : Path.render [] = "/" := rfl
        rw [if_pos (rfl : ([] : List String) = []), if_pos rfl, ← h_slash]
        exact tree.get_render env h_front
      · have h_ne : Path.render front ≠ "" := by simp [Path.render]
        rw [if_neg h_nil, if_neg h_ne, tree.get_render env h_front]
    rw [Path.splitLast?_render_append h_last, List.getLast?_concat, List.dropLast_concat]
    simp only [Option.filter, h_last.1, ne_eq, not_false_eq_true, decide_true, if_true, h_get]

/-! ### Steps -/

/-- **One step of a tree.** The names that new nodes may have are given. -/
inductive Step (Name : String → Prop) (tree : Tree) : Tree → Prop where
  | put {parent id : Nat} {child : Node} {after : Tree} :
      Name child.name → child.IsFresh → tree.put parent child = .ok (after, id) →
      Step Name tree after
  | removeNode {id : Nat} {node : Node} {after : Tree} :
      tree.removeNode id = .ok (after, node) → Step Name tree after

/-- **Steps one after the other.** -/
abbrev Steps (Name : String → Prop) : Tree → Tree → Prop :=
  Relation.ReflTransGen (Step Name)

/-- Only nodes other than the root are ever removed. -/
theorem WellFormed.removed_of_removeNode {tree after : Tree} (h : tree.WellFormed) {id : Nat}
    {node : Node} (h_remove : tree.removeNode id = .ok (after, node)) :
    id ≠ root ∧ tree.Removed id after ∧
      ∃ before, tree.node? id = some before ∧ node = { before with parent := none } := by
  -- the root is refused
  have h_ne : id ≠ root := by
    rintro rfl
    rw [h.removeNode_root] at h_remove
    cases h_remove
  cases h_node : tree.node? id with
  | none =>
    rw [removeNode, h_node] at h_remove
    cases h_remove
  | some before =>
    obtain ⟨left, h_eq, h_removed⟩ := h.removeNode_eq_ok h_node h_ne
    rw [h_eq, Except.ok.injEq, Prod.mk.injEq] at h_remove
    obtain ⟨rfl, rfl⟩ := h_remove
    exact ⟨h_ne, h_removed, before, rfl, rfl⟩

/-- **A step keeps a tree well formed.** -/
theorem WellFormed.step {Name : String → Prop} {tree after : Tree} (h : tree.WellFormed)
    (h_step : Step Name tree after) : after.WellFormed := by
  cases h_step with
  | put h_named h_fresh h_put =>
    obtain ⟨node, children, h_node, h_content, h_none, h_eq⟩ := put_eq_ok_iff.1 h_put
    cases h_eq
    exact h.attach h_node h_content h_none h_fresh
  | removeNode h_remove =>
    obtain ⟨h_ne, h_removed, -⟩ := h.removed_of_removeNode h_remove
    exact h.removed h_removed h_ne

theorem WellFormed.steps {Name : String → Prop} {tree after : Tree} (h : tree.WellFormed)
    (h_steps : Steps Name tree after) : after.WellFormed := by
  induction h_steps with
  | refl => exact h
  | tail _ h_step ih => exact ih.step h_step

/-- Putting a node without children keeps a tree well formed. -/
theorem WellFormed.put {tree after : Tree} (h : tree.WellFormed) {dir id : Nat} {child : Node}
    (h_fresh : child.IsFresh) (h_put : tree.put dir child = .ok (after, id)) :
    after.WellFormed := by
  have h_step : Step (fun _ => True) tree after := .put trivial h_fresh h_put
  exact h.step h_step

/-! ### Operations as steps -/

/-- **Making a path attaches directories,** one after the other; what this keeps, making a path
keeps. -/
theorem makePath_keeps {Kept : Tree → Prop} {names : List String}
    (h_put : ∀ name ∈ names, ∀ {tree after : Tree} {parent id : Nat}, Kept tree →
      tree.put parent (Node.directory name) = .ok (after, id) → Kept after)
    (tree : Tree) (start : Nat) (h : Kept tree) : Kept (tree.makePath start names).1 := by
  induction names generalizing tree start with
  | nil => exact h
  | cons name names ih =>
    have h_rest := ih fun n h_n => h_put n (List.mem_cons_of_mem _ h_n)
    rw [makePath]
    split
    · exact h_rest _ _ h
    · split
      · -- what is missing is attached, and the rest is made below it
        next after id h_made => exact h_rest _ _ (h_put name List.mem_cons_self h h_made)
      · exact h
    · exact h

theorem makePath_steps {Name : String → Prop} (tree : Tree) (start : Nat) {names : List String}
    (h : ∀ name ∈ names, Name name) : Steps Name tree (tree.makePath start names).1 := by
  refine makePath_keeps (fun name h_mem _ _ _ _ h_steps h_made => ?_) tree start .refl
  exact h_steps.tail (.put (h name h_mem) (Node.isFresh_directory name) h_made)

theorem mkdirp_steps {Name : String → Prop} (h : ∀ name, Path.IsSegment name → Name name)
    (tree : Tree) (env : Environment) (path : String) :
    Steps Name tree (tree.mkdirp env path).1 := by
  rw [mkdirp, resolve, Path.names_resolve]
  exact makePath_steps tree root fun name h_name =>
    h name (Path.isSegment_of_mem_segments name h_name)

theorem createFile_steps {Name : String → Prop} (h : ∀ name, Path.IsSegment name → Name name)
    {tree after : Tree} {env : Environment} {path : String} {blob : Blob} {id : Nat}
    (h_create : tree.createFile env path blob = .ok (after, id)) : Steps Name tree after := by
  rw [createFile_eq] at h_create
  split at h_create
  · cases h_create
  · next name h_last =>
    obtain ⟨parent, -, h_put⟩ := bind_eq_ok_iff.1 h_create
    have h_segment := Path.isSegment_of_mem_segments name (List.mem_of_getLast? h_last)
    exact .single (.put (h name h_segment) (Node.isFresh_file name blob) h_put)

theorem remove_steps {Name : String → Prop} {tree after : Tree} {env : Environment}
    {path : String} {node : Node} (h_remove : tree.remove env path = .ok (after, node)) :
    Steps Name tree after := by
  obtain ⟨id, -, h_remove⟩ := bind_eq_ok_iff.1 h_remove
  exact .single (.removeNode h_remove)

/-! ### Manifests as steps -/

mutual

/-- Grafting a manifest attaches its nodes, the upper ones first. -/
theorem graft_steps {env : Environment} {tree after : Tree} {parent : Nat} (manifest : Manifest)
    (h_graft : Manifest.graft env tree parent manifest = .ok after) :
    Steps (fun _ => True) tree after := by
  cases manifest with
  | directory name children =>
    rw [Manifest.graft] at h_graft
    split at h_graft
    · next middle id h_put =>
      -- the directory itself first, then its children
      have h_step : Step (fun _ => True) tree middle :=
        .put trivial (Node.isFresh_directory _) h_put
      exact .head h_step (graftAll_steps children h_graft)
    · cases h_graft
  | file name url =>
    rw [Manifest.graft] at h_graft
    split at h_graft
    · next blob _ =>
      split at h_graft
      · next middle id h_put =>
        cases h_graft
        exact .single (.put trivial (Node.isFresh_file _ blob) h_put)
      · cases h_graft
    · cases h_graft

theorem graftAll_steps {env : Environment} {tree after : Tree} {parent : Nat}
    (manifests : List Manifest)
    (h_graft : Manifest.graftAll env tree parent manifests = .ok after) :
    Steps (fun _ => True) tree after := by
  cases manifests with
  | nil =>
    cases h_graft
    exact .refl
  | cons manifest rest =>
    rw [Manifest.graftAll] at h_graft
    split at h_graft
    · next middle h_first =>
      exact (graft_steps manifest h_first).trans (graftAll_steps rest h_graft)
    · cases h_graft

end

/-- A tree that is built from a manifest is built from the empty one. -/
theorem toTree_steps {env : Environment} {tree : Tree} {manifest : Manifest}
    (h_build : manifest.toTree env = .ok tree) : Steps (fun _ => True) empty tree := by
  cases manifest with
  | directory name children => exact graftAll_steps children h_build
  | file name url => cases h_build

end PocketShell.Tree
