import PocketShell.Proofs.Environment
import PocketShell.Proofs.Tree.Address

/-!
# Directories that stay

Only files are ever removed by the commands of a session, and nothing is ever moved. So directories
stay: `Tree.KeepsDirectories` says that every directory of a tree is a directory of a later tree
again, under its name and in its directory. Attaching a node keeps directories, whatever the node
is, and so does removing a file; hence everything that is made of these steps does.

The path of a directory is read off its way up, and on the way up there are directories only. Where
directories are kept, their paths are therefore kept too (`KeepsDirectories.absolutePath_eq`), and
names that led to a directory lead to it still (`KeepsDirectories.follow_eq`).

The working directory is a text beside the tree. `Tree.HasDirectory` says that such a text is the
path of a directory. Changing the working directory stores a path of this kind
(`HasDirectory.of_cd`), and keeping directories keeps it (`HasDirectory.kept`).
-/

namespace PocketShell.Tree

/-- Is there a directory with this number? -/
def isDirectory (tree : Tree) (id : Nat) : Bool :=
  (tree.node? id).any Node.isDirectory

theorem isDirectory_iff {tree : Tree} {id : Nat} :
    tree.isDirectory id = true ↔
      ∃ node children, tree.node? id = some node ∧ node.children? = some children := by
  simp [isDirectory, Node.isDirectory, Option.any_eq_true, Option.isSome_iff_exists]

theorem isDirectory_of_child {tree : Tree} {dir id : Nat} {name : String}
    (h_child : tree.child dir name = .ok id) : tree.isDirectory dir = true := by
  obtain ⟨node, children, h_node, h_children, -⟩ := child_eq_ok_iff.1 h_child
  exact isDirectory_iff.2 ⟨node, children, h_node, h_children⟩

theorem WellFormed.isDirectory_root {tree : Tree} (h : tree.WellFormed) :
    tree.isDirectory root = true := by
  obtain ⟨children, h_root⟩ := h.root_node
  exact isDirectory_iff.2 ⟨_, children, h_root, rfl⟩

/-- A file is no directory. -/
theorem isDirectory_eq_false_of_isFile {tree : Tree} {id : Nat}
    (h : (tree.node? id).any Node.isFile = true) : tree.isDirectory id = false := by
  obtain ⟨node, h_node, h_file⟩ := (Option.any_eq_true _ _).1 h
  rw [isDirectory, h_node]
  cases node with
  | mk name parent content =>
    cases content with
    | directory children => cases h_file
    | file blob => rfl

/-- **Keeping directories.** Every directory is still one, with its name and in its directory. -/
def KeepsDirectories (before after : Tree) : Prop :=
  ∀ id, before.isDirectory id = true →
    after.isDirectory id = true ∧ after.name id = before.name id ∧
      after.parent? id = before.parent? id

namespace KeepsDirectories

theorem refl (tree : Tree) : tree.KeepsDirectories tree :=
  fun _ h_dir => ⟨h_dir, rfl, rfl⟩

theorem trans {before middle after : Tree} (h : before.KeepsDirectories middle)
    (h' : middle.KeepsDirectories after) : before.KeepsDirectories after := by
  intro id h_dir
  obtain ⟨h_middle, h_name, h_parent⟩ := h id h_dir
  obtain ⟨h_after, h_name', h_parent'⟩ := h' id h_middle
  exact ⟨h_after, h_name'.trans h_name, h_parent'.trans h_parent⟩

/-- A node that keeps its name, its parent and its kind. -/
theorem of_node? {before after : Tree} {id : Nat} {node left : Node}
    (h_before : before.node? id = some node) (h_after : after.node? id = some left)
    (h_kind : left.isDirectory = true) (h_name : left.name = node.name)
    (h_parent : left.parent = node.parent) :
    after.isDirectory id = true ∧ after.name id = before.name id ∧
      after.parent? id = before.parent? id := by
  simp [isDirectory, Tree.name, parent?, h_before, h_after, h_kind, h_name, h_parent]

/-! ### The steps -/

variable {tree after : Tree}

/-- **Attaching a node keeps directories.** -/
theorem put {parent new : Nat} {child : Node} (h_put : tree.put parent child = .ok (after, new)) :
    tree.KeepsDirectories after := by
  obtain ⟨above, children, h_above, -, -, h_eq⟩ := put_eq_ok_iff.1 h_put
  obtain ⟨rfl, rfl⟩ := Prod.mk.inj h_eq
  intro id h_dir
  obtain ⟨node, inside, h_node, h_inside⟩ := isDirectory_iff.1 h_dir
  have h_old : id ≠ tree.slots.size := Nat.ne_of_lt (lt_size_of_node? h_node)
  have h_after := node?_attach h_above children child id
  rw [if_neg h_old] at h_after
  by_cases h_parent : id = parent
  · -- the parent has a child more, and nothing else about it is new
    rw [if_pos h_parent] at h_after
    obtain rfl : node = above := Option.some.inj (h_node.symm.trans (h_parent ▸ h_above))
    exact of_node? h_node h_after rfl rfl rfl
  · rw [if_neg h_parent] at h_after
    exact of_node? h_node (h_after.trans h_node) (by simp [Node.isDirectory, h_inside]) rfl rfl

/-- There is nothing below a file. -/
theorem eq_of_within_file {file id : Nat} (h_file : tree.isDirectory file = false)
    (h_within : tree.Within file id) : id = file := by
  induction h_within with
  | self => rfl
  | step _ h_child ih =>
    rw [ih] at h_child
    rw [isDirectory_of_child h_child] at h_file
    cases h_file

/-- **Removing a file keeps directories.** -/
theorem removeNode (h : tree.WellFormed) {file : Nat} (h_file : tree.isDirectory file = false)
    {node : Node} (h_remove : tree.removeNode file = .ok (after, node)) :
    tree.KeepsDirectories after := by
  obtain ⟨-, h_removed, -⟩ := h.removed_of_removeNode h_remove
  intro id h_dir
  -- the file is the only node that is gone, and it was no directory
  have h_out : ¬ tree.Within file id := by
    intro h_within
    rw [eq_of_within_file h_file h_within, h_file] at h_dir
    cases h_dir
  by_cases h_above : tree.parent? file = some id
  · obtain ⟨node, children, h_node, -, h_after⟩ := h_removed.node?_above h h_above
    exact of_node? h_node h_after rfl rfl rfl
  · obtain ⟨node, inside, h_node, h_inside⟩ := isDirectory_iff.1 h_dir
    have h_kept := (h_removed.kept h_out h_above).trans h_node
    exact of_node? h_node h_kept (by simp [Node.isDirectory, h_inside]) rfl rfl

/-! ### Operations -/

theorem mkdirp (tree : Tree) (env : Environment) (path : String) :
    tree.KeepsDirectories (tree.mkdirp env path).1 :=
  makePath_keeps (fun _ _ _ _ _ _ h_kept h_made => h_kept.trans (put h_made)) tree root (.refl tree)

theorem createFile {env : Environment} {path : String} {blob : Blob} {id : Nat}
    (h_create : tree.createFile env path blob = .ok (after, id)) : tree.KeepsDirectories after := by
  rw [createFile_eq] at h_create
  split at h_create
  · cases h_create
  · obtain ⟨parent, -, h_put⟩ := bind_eq_ok_iff.1 h_create
    exact put h_put

/-! ### The paths of directories -/

variable {before : Tree}

/-- **The way up from a directory stays,** since there are directories only on it. -/
theorem ascent?_eq (h : before.KeepsDirectories after) (h_before : before.WellFormed)
    (h_after : after.WellFormed) {id : Nat} (h_dir : before.isDirectory id = true) :
    after.ascent? id = before.ascent? id := by
  -- induction on the number: the directory above has a smaller one
  induction id using Nat.strongRecOn with
  | ind id ih =>
    by_cases h_root : id = root
    · rw [h_root, h_before.ascent?_root, h_after.ascent?_root]
    · obtain ⟨node, -, h_node, -⟩ := isDirectory_iff.1 h_dir
      obtain ⟨dir, h_parent, h_lt, h_child⟩ := h_before.parent_of h_node h_root
      obtain ⟨-, h_name, h_same⟩ := h id h_dir
      have h_up : after.parent? id = some dir := by
        rw [h_same, parent?, h_node]
        exact h_parent
      have h_child' : after.child dir node.name = .ok id := by
        rw [← h_before.name_of_child h_child, ← h_name]
        exact h_after.child_of_parent? h_up
      rw [h_after.ascent?_of_child h_child', h_before.ascent?_of_child h_child,
        ih dir h_lt (isDirectory_of_child h_child)]

/-- **Directories keep their paths.** -/
theorem absolutePath_eq (h : before.KeepsDirectories after) (h_before : before.WellFormed)
    (h_after : after.WellFormed) {id : Nat} (h_dir : before.isDirectory id = true) :
    after.absolutePath id = before.absolutePath id := by
  simp only [absolutePath, h.ascent?_eq h_before h_after h_dir]

/-- Names that lead to a directory lead to it still. -/
theorem follow_eq (h : before.KeepsDirectories after) (h_before : before.WellFormed)
    (h_after : after.WellFormed) {names : List String} {id : Nat}
    (h_follow : before.follow root names = .ok id) (h_dir : before.isDirectory id = true) :
    after.follow root names = .ok id := by
  rw [h_after.follow_iff_ascent?, h.ascent?_eq h_before h_after h_dir]
  exact h_before.follow_iff_ascent?.1 h_follow

end KeepsDirectories

/-! ### The working directory -/

/-- **The path of a directory:** it is written with segments, and they lead to a directory. -/
def HasDirectory (tree : Tree) (path : String) : Prop :=
  ∃ names id, (∀ name ∈ names, Path.IsSegment name) ∧ path = Path.render names ∧
    tree.follow root names = .ok id ∧ tree.isDirectory id = true

theorem WellFormed.hasDirectory_root {tree : Tree} (h : tree.WellFormed) :
    tree.HasDirectory "/" :=
  ⟨[], root, List.forall_mem_nil _, rfl, rfl, h.isDirectory_root⟩

theorem HasDirectory.kept {before after : Tree} {path : String} (h : before.HasDirectory path)
    (h_before : before.WellFormed) (h_after : after.WellFormed)
    (h_kept : before.KeepsDirectories after) : after.HasDirectory path := by
  obtain ⟨names, id, h_names, h_path, h_follow, h_dir⟩ := h
  exact ⟨names, id, h_names, h_path, h_kept.follow_eq h_before h_after h_follow h_dir,
    (h_kept id h_dir).1⟩

/-- A resolved path leads where the path leads. -/
theorem get_resolve (tree : Tree) (env : Environment) (path : String) :
    tree.get env (resolve env path) = tree.get env path := by
  have h_names := @Path.isSegment_of_mem_segments env.cwd path
  rw [get_eq_follow tree env path]
  exact tree.get_render env h_names

/-- **Changing the working directory** succeeds exactly if the path leads to a directory. The
resolved path is what the variable is bound to. -/
theorem cd_eq_ok_iff {tree : Tree} {env after : Environment} {path : String} :
    tree.cd env path = .ok after ↔
      (∃ id, tree.get env path = .ok id ∧ tree.isDirectory id = true) ∧
        env.put Environment.cwdName (resolve env path) = .ok after := by
  unfold cd
  dsimp only
  rw [get_resolve]
  cases tree.get env path with
  | error e => cases e <;> simp
  | ok id =>
    cases h_node : tree.node? id with
    | none => simp [isDirectory, h_node]
    | some node =>
      cases h_dir : node.isDirectory with
      | true => simp [isDirectory, h_node, h_dir]
      | false => simp [isDirectory, h_node, h_dir]

/-- **What the working directory is changed to** is the path of a directory. -/
theorem HasDirectory.of_cd {tree : Tree} {env after : Environment} {path : String}
    (h_cd : tree.cd env path = .ok after) : tree.HasDirectory (after.get Environment.cwdName) := by
  obtain ⟨⟨id, h_get, h_dir⟩, h_put⟩ := cd_eq_ok_iff.1 h_cd
  rw [get_eq_follow] at h_get
  exact ⟨Path.segments env.cwd path, id, Path.isSegment_of_mem_segments,
    Environment.get_put_self h_put, h_get, h_dir⟩

/-- **The working directory is there,** if the variable has the path of a directory. -/
theorem WellFormed.get_cwd {tree : Tree} (h : tree.WellFormed) {env : Environment}
    (h_cwd : tree.HasDirectory (env.get Environment.cwdName)) :
    ∃ id, tree.get env "" = .ok id ∧ tree.isDirectory id = true ∧
      tree.absolutePath id = .ok (env.get Environment.cwdName) := by
  obtain ⟨names, id, h_names, h_path, h_follow, h_dir⟩ := h_cwd
  have h_ne : Path.render names ≠ "" := by simp [Path.render]
  refine ⟨id, ?_, h_dir, ?_⟩
  · rw [get_eq_follow, Environment.cwd, h_path, if_neg h_ne, Path.segments_render_empty h_names]
    exact h_follow
  · rw [h_path]
    exact h.absolutePath_of_follow h_follow

end PocketShell.Tree
