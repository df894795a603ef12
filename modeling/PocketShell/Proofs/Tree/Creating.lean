import PocketShell.Proofs.Tree.Making

/-!
# What making a file makes

A file is made in a directory that must be there, under a name that must be free. Both are read off
the segments of the path: the last one is the name, and the path that is written with the others is
the path of the directory. `Tree.HasRoom` says that the path leads to such a place.

* Making a file succeeds exactly where there is room (`WellFormed.createFile_iff_hasRoom`). The tree
  has then one node more (`Tree.Gained`), which is at the path, and listed last in its directory.
* Everything else is refused, without a change, and `Tree.Refusal` lists the reasons: the path is
  the root, its directory cannot be reached, what is there is a file, or the name is taken.

A file that has just been made can be taken back: removing it leaves the nodes that were there
before (`WellFormed.removeNode_of_put`).

The path may be spelled in any way. Right below the root there is no segment but the last, a `/` at
the end adds none, and `..` has been taken back before the last segment is looked for.
-/

namespace PocketShell.Tree

/-- **Room for a file.** The path does not denote the root; without its last segment it leads to a
directory, and there the last segment is not yet a name. -/
structure HasRoom (tree : Tree) (env : Environment) (path : String) (front : List String)
    (name : String) (dir : Nat) : Prop where
  segments_eq : Path.segments env.cwd path = front ++ [name]
  leads : tree.get env (Path.render front) = .ok dir
  isDirectory : tree.isDirectory dir = true
  free : ∀ id, tree.child dir name ≠ .ok id

/-- **Reasons for refusing a file,** with the errors that report them. -/
inductive Refusal (tree : Tree) (env : Environment) (path : String) : Error → Prop where
  /-- The root is no file, whatever its path was spelled like. -/
  | root : resolve env path = "/" → Refusal tree env path (.invalidPath path)
  /-- The path of the directory leads nowhere. -/
  | unreachable {front : List String} {name : String} {e : Error} :
      Path.segments env.cwd path = front ++ [name] →
      tree.get env (Path.render front) = .error e → Refusal tree env path e
  /-- The path of the directory leads to a file. -/
  | file {front : List String} {name : String} {dir : Nat} {node : Node} :
      Path.segments env.cwd path = front ++ [name] →
      tree.get env (Path.render front) = .ok dir → tree.node? dir = some node →
      node.isFile = true → Refusal tree env path (.notADirectory node.name)
  /-- The directory has a child of the name. -/
  | taken {front : List String} {name : String} {dir id : Nat} :
      Path.segments env.cwd path = front ++ [name] →
      tree.get env (Path.render front) = .ok dir → tree.child dir name = .ok id →
      Refusal tree env path (.duplicateName (tree.name dir) name)

variable {tree : Tree} {env : Environment} {path : String}

/-! ### Putting a node into a directory -/

section Put

variable {dir : Nat} {child : Node}

/-- Nothing is put into a file. -/
theorem put_of_isFile {node : Node} (h_node : tree.node? dir = some node)
    (h_file : node.isFile = true) : tree.put dir child = .error (.notADirectory node.name) := by
  obtain ⟨name, parent, content⟩ := node
  cases content with
  | directory children => cases h_file
  | file blob => rw [put, h_node]

/-- Nothing is put under a name that leads somewhere. -/
theorem put_of_child {id : Nat} (h_taken : tree.child dir child.name = .ok id) :
    tree.put dir child = .error (.duplicateName (tree.name dir) child.name) := by
  obtain ⟨node, children, h_node, h_children, h_find⟩ := child_eq_ok_iff.1 h_taken
  exact put_of_find? h_node (Node.children?_eq_some_iff.1 h_children) h_find

/-- Under any other name of a directory there is room. -/
theorem exists_put_of_free (h_dir : tree.isDirectory dir = true)
    (h_free : ∀ id, tree.child dir child.name ≠ .ok id) :
    ∃ after, tree.put dir child = .ok (after, tree.slots.size) := by
  obtain ⟨node, children, h_node, h_children⟩ := isDirectory_iff.1 h_dir
  have h_none : children.find? child.name = none := by
    refine Option.eq_none_iff_forall_ne_some.2 fun id h_find => ?_
    exact h_free id ((child_eq_ok_iff_of_node? h_node h_children).2 h_find)
  have h_content := Node.children?_eq_some_iff.1 h_children
  exact ⟨_, put_eq_ok_iff.2 ⟨node, children, h_node, h_content, h_none, rfl⟩⟩

end Put

/-! ### Making a file -/

/-- The segments in front of the last one spell the path of a directory. -/
theorem isSegment_of_segments {front : List String} {name : String}
    (h : Path.segments env.cwd path = front ++ [name]) :
    ∀ segment ∈ front, Path.IsSegment segment := by
  intro segment h_mem
  apply @Path.isSegment_of_mem_segments env.cwd path segment
  rw [h]
  exact List.mem_append_left _ h_mem

/-- A file below the root is put where the path without its last segment leads. -/
theorem createFile_of_segments {front : List String} {name : String}
    (h : Path.segments env.cwd path = front ++ [name]) (blob : Blob) :
    tree.createFile env path blob =
      tree.get env (Path.render front) >>= fun dir => tree.put dir (Node.file name blob) := by
  have h_front := isSegment_of_segments h
  rw [createFile_eq, h, List.getLast?_concat, List.dropLast_concat, get_render tree env h_front]

/-- Where there is room a file is put. -/
theorem HasRoom.exists_createFile {front : List String} {name : String} {dir : Nat}
    (h : tree.HasRoom env path front name dir) (blob : Blob) :
    ∃ after, tree.put dir (Node.file name blob) = .ok (after, tree.slots.size) ∧
      tree.createFile env path blob = .ok (after, tree.slots.size) := by
  have h_free : ∀ id, tree.child dir (Node.file name blob).name ≠ .ok id := h.free
  obtain ⟨after, h_put⟩ := exists_put_of_free h.isDirectory h_free
  refine ⟨after, h_put, ?_⟩
  rw [createFile_of_segments h.segments_eq, h.leads]
  exact h_put

/-- What speaks against a file is what is reported. -/
theorem Refusal.createFile_eq_error {e : Error} (h : tree.Refusal env path e) (blob : Blob) :
    tree.createFile env path blob = .error e := by
  cases h with
  | root h_root =>
    rw [createFile_eq, Path.resolve_eq_root_iff.1 h_root]
    rfl
  | unreachable h_segments h_get =>
    rw [createFile_of_segments h_segments, h_get]
    rfl
  | file h_segments h_get h_node h_file =>
    rw [createFile_of_segments h_segments, h_get]
    exact put_of_isFile h_node h_file
  | @taken front name dir id h_segments h_get h_taken =>
    rw [createFile_of_segments h_segments, h_get]
    have h_taken' : tree.child dir (Node.file name blob).name = .ok id := h_taken
    exact put_of_child h_taken'

/-- **There is room for a file, or something speaks against it.** -/
theorem WellFormed.hasRoom_or_refusal (h : tree.WellFormed) (env : Environment) (path : String) :
    (∃ front name dir, tree.HasRoom env path front name dir) ∨ ∃ e, tree.Refusal env path e := by
  rcases List.eq_nil_or_concat (Path.segments env.cwd path) with h_nil | ⟨front, name, h_concat⟩
  · exact .inr ⟨_, .root (Path.resolve_eq_root_iff.2 h_nil)⟩
  rw [List.concat_eq_append] at h_concat
  cases h_get : tree.get env (Path.render front) with
  | error e => exact .inr ⟨e, .unreachable h_concat h_get⟩
  | ok dir =>
    obtain ⟨node, h_node⟩ := isLive_iff.1 (h.isLive_get h_get)
    cases h_content : node.content with
    | file blob =>
      have h_file : node.isFile = true := by simp [Node.isFile, Node.blob?, h_content]
      exact .inr ⟨_, .file h_concat h_get h_node h_file⟩
    | directory children =>
      have h_dir : tree.isDirectory dir = true :=
        isDirectory_iff.2 ⟨node, children, h_node, Node.children?_eq_some_iff.2 h_content⟩
      by_cases h_taken : ∃ id, tree.child dir name = .ok id
      · obtain ⟨id, h_child⟩ := h_taken
        exact .inr ⟨_, .taken h_concat h_get h_child⟩
      · rw [not_exists] at h_taken
        exact .inl ⟨front, name, dir, h_concat, h_get, h_dir, h_taken⟩

/-- A directory is listed with its children. -/
theorem list_of_isDirectory {dir : Nat} (h_get : tree.get env path = .ok dir)
    (h_dir : tree.isDirectory dir = true) : tree.list env path = .ok (tree.children dir) := by
  obtain ⟨node, children, h_node, h_children⟩ := isDirectory_iff.1 h_dir
  refine bind_eq_ok_iff.2 ⟨dir, h_get, ?_⟩
  rw [h_node, children_eq_of_node? h_node h_children]
  show Except.ok ((node.children?.map OrderedMap.values).getD [dir]) = Except.ok children.values
  rw [h_children]
  rfl

/-- **What was made** is at its path, and last in the listing of its directory. -/
theorem HasRoom.of_createFile (h : tree.WellFormed) {front : List String} {name : String}
    {dir : Nat} (h_room : tree.HasRoom env path front name dir) {blob : Blob} {after : Tree}
    {id : Nat} (h_put : tree.put dir (Node.file name blob) = .ok (after, id)) :
    after.get env path = .ok id ∧
      after.list env (Path.render front) = .ok (tree.children dir ++ [id]) := by
  have h_front := isSegment_of_segments h_room.segments_eq
  have h_leads : tree.follow root front = .ok dir := by
    rw [← get_render tree env h_front]
    exact h_room.leads
  have h_fresh := Node.isFresh_file name blob
  have h_kept := KeepsDirectories.put h_put
  constructor
  · rw [get_eq_follow, h_room.segments_eq]
    exact h.follow_put h_fresh h_put h_leads
  · -- the directory is where it was, with the new node as its last child
    have h_still := h_kept.follow_eq h (h.put h_fresh h_put) h_leads h_room.isDirectory
    rw [← get_render after env h_front] at h_still
    rw [list_of_isDirectory h_still (h_kept dir h_room.isDirectory).1]
    exact congrArg Except.ok (put_gained h_put).children_eq

/-- What was made was put into a directory, and is at its path. -/
theorem WellFormed.of_createFile (h : tree.WellFormed) {blob : Blob} {after : Tree} {id : Nat}
    (h_create : tree.createFile env path blob = .ok (after, id)) :
    ∃ dir name, tree.put dir (Node.file name blob) = .ok (after, id) ∧
      after.get env path = .ok id := by
  rcases h.hasRoom_or_refusal env path with ⟨front, name, dir, h_room⟩ | ⟨e, h_refusal⟩
  · obtain ⟨made, h_put, h_made⟩ := h_room.exists_createFile blob
    obtain ⟨rfl, rfl⟩ := Prod.mk.inj (Except.ok.inj (h_made.symm.trans h_create))
    exact ⟨dir, name, h_put, (h_room.of_createFile h h_put).1⟩
  · -- nothing speaks against what was made
    rw [h_refusal.createFile_eq_error] at h_create
    cases h_create

/-- **Taking a file back.** A file that was put into a directory is removed, and nothing is left of
it but its slot. -/
theorem WellFormed.removeNode_of_put (h : tree.WellFormed) {dir id : Nat} {name : String}
    {blob : Blob} {after : Tree} (h_put : tree.put dir (Node.file name blob) = .ok (after, id)) :
    ∃ back, after.removeNode id = .ok (back, Node.file name blob) ∧
      ∀ other, back.node? other = tree.node? other := by
  obtain ⟨node, children, h_node, h_content, h_free, h_eq⟩ := put_eq_ok_iff.1 h_put
  obtain ⟨rfl, rfl⟩ := Prod.mk.inj h_eq
  let made := tree.attach dir node children (Node.file name blob)
  have h_made : made.WellFormed := h.attach h_node h_content h_free (Node.isFresh_file name blob)
  have h_nodes := node?_attach h_node children (Node.file name blob)
  have h_new : made.node? tree.slots.size = some ⟨name, some dir, .file blob⟩ := by
    rw [h_nodes, if_pos rfl]
    rfl
  have h_dir : made.node? dir =
      some { node with content := .directory (children.insert name tree.slots.size) } := by
    rw [h_nodes, if_neg (Nat.ne_of_lt (lt_size_of_node? h_node)), if_pos rfl]
    rfl
  have h_ne : tree.slots.size ≠ root := by
    obtain ⟨_, h_root⟩ := h.root_node
    exact Nat.ne_of_gt (lt_size_of_node? h_root)
  obtain ⟨back, h_remove, h_removed⟩ := h_made.removeNode_eq_ok h_new h_ne
  have h_file : made.isDirectory tree.slots.size = false :=
    isDirectory_eq_false_of_isFile (by rw [h_new]; rfl)
  have h_parent : made.parent? tree.slots.size = some dir := by rw [parent?, h_new]; rfl
  refine ⟨back, h_remove, fun other => ?_⟩
  by_cases h_other : other = tree.slots.size
  · rw [h_other, h_removed.gone .self, node?_size]
  by_cases h_above : other = dir
  · -- the directory has got the name and lost it again
    have h_name : made.name tree.slots.size = name := by rw [Tree.name, h_new]; rfl
    have h_back : (children.insert name tree.slots.size).erase name = children :=
      OrderedMap.erase_insert h_free
    rw [h_above, h_removed.above h_parent h_dir rfl, h_node, h_name, h_back, ← h_content]
  · have h_out : ¬ made.Within tree.slots.size other := fun h_within =>
      h_other (KeepsDirectories.eq_of_within_file h_file h_within)
    have h_kept : back.node? other = made.node? other :=
      h_removed.kept h_out (by rw [h_parent]; simpa using Ne.symm h_above)
    rw [h_kept, h_nodes, if_neg h_other, if_neg h_above]

/-- **A file is made exactly where there is room for it.**

* Making a file succeeds if and only if the path does not denote the root, leads to a directory
  without its last segment, and there the last segment is not yet a name.
* Then the file gets the first number that was never used. It has this name, the blob and this
  directory; its path leads to it, it is listed last, and all else is as it was.
* Otherwise the error is the one of `Refusal`, and the tree is as it was. -/
theorem WellFormed.createFile_iff_hasRoom (h : tree.WellFormed) (env : Environment)
    (path : String) (blob : Blob) :
    ((∃ after id, tree.createFile env path blob = .ok (after, id)) ↔
      ∃ front name dir, tree.HasRoom env path front name dir) ∧
    (∀ front name dir, tree.HasRoom env path front name dir →
      ∃ after id, tree.createFile env path blob = .ok (after, id) ∧
        tree.Gained dir ⟨name, some dir, .file blob⟩ after id ∧
        after.get env path = .ok id ∧
        after.list env (Path.render front) = .ok (tree.children dir ++ [id])) ∧
    (∀ e, tree.createFile env path blob = .error e ↔ tree.Refusal env path e) ∧
    (∀ e, tree.createFile env path blob = .error e →
      tree.apply (.createFile env path blob) = tree) := by
  refine ⟨⟨?_, ?_⟩, ?_, fun e => ⟨?_, ?_⟩, ?_⟩
  · rintro ⟨after, id, h_ok⟩
    -- nothing speaks against what was made
    refine (h.hasRoom_or_refusal env path).resolve_right ?_
    rintro ⟨e, h_refusal⟩
    rw [h_refusal.createFile_eq_error] at h_ok
    cases h_ok
  · rintro ⟨front, name, dir, h_room⟩
    obtain ⟨after, -, h_ok⟩ := h_room.exists_createFile blob
    exact ⟨after, _, h_ok⟩
  · intro front name dir h_room
    obtain ⟨after, h_put, h_ok⟩ := h_room.exists_createFile blob
    exact ⟨after, _, h_ok, put_gained h_put, h_room.of_createFile h h_put⟩
  · intro h_error
    rcases h.hasRoom_or_refusal env path with ⟨front, name, dir, h_room⟩ | ⟨e', h_refusal⟩
    · obtain ⟨after, -, h_ok⟩ := h_room.exists_createFile blob
      rw [h_ok] at h_error
      cases h_error
    · rw [h_refusal.createFile_eq_error] at h_error
      exact Except.error.inj h_error ▸ h_refusal
  · exact fun h_refusal => h_refusal.createFile_eq_error blob
  · intro e h_error
    show tree.leave (tree.createFile env path blob) = tree
    rw [h_error]
    rfl

/-- In a tree with a directory and a file, from a working directory that is the directory: there is
room for a file at a path that goes up and down and ends in `/`, and right below the root; the root,
a name in a missing directory, a name below a file and the name of the file are refused. -/
theorem WellFormed.createFile_iff_hasRoom_notes :
    let tree := Tree.empty.run [.mkdirp {} "d", .createFile {} "f" (.plain "x")]
    let inside : Environment := ⟨(∅ : OrderedMap String).insert "CWD" "d"⟩
    tree.WellFormed ∧
      (∃ after id, tree.createFile inside ".././d//../d/notes/" (.plain "y") = .ok (after, id) ∧
        after.get inside ".././d//../d/notes/" = .ok id ∧ after.list inside "/d" = .ok [id]) ∧
      (∃ after id, tree.createFile inside "/notes" (.plain "y") = .ok (after, id) ∧
        after.list inside "/" = .ok [1, 2, id]) ∧
      tree.createFile inside "../.." (.plain "y") = .error (.invalidPath "../..") ∧
      tree.createFile inside "e/x" (.plain "y") = .error (.noSuchNode "e" "d") ∧
      tree.createFile inside "/f/x" (.plain "y") = .error (.notADirectory "f") ∧
      tree.createFile inside "../f" (.plain "y") = .error (.duplicateName "" "f") ∧
      tree.apply (.createFile inside "../f" (.plain "y")) = tree := by
  intro tree inside
  have h : tree.WellFormed := WellFormed.empty.run _
  have h_room {path : String} {front : List String} {name : String} {dir : Nat} {error : Error}
      (h_segments : Path.segments inside.cwd path = front ++ [name])
      (h_leads : tree.get inside (Path.render front) = .ok dir)
      (h_dir : tree.isDirectory dir = true) (h_free : tree.child dir name = .error error) :
      tree.HasRoom inside path front name dir := by
    refine ⟨h_segments, h_leads, h_dir, fun id h_taken => ?_⟩
    cases h_free.symm.trans h_taken
  have h_below : tree.HasRoom inside ".././d//../d/notes/" ["d"] "notes" 1 :=
    @h_room _ _ _ _ (.noSuchNode "notes" "d") (by decide +kernel) (by decide +kernel)
      (by decide +kernel) (by decide +kernel)
  have h_top : tree.HasRoom inside "/notes" [] "notes" 0 :=
    @h_room _ _ _ _ (.noSuchNode "notes" "") (by decide +kernel) (by decide +kernel)
      (by decide +kernel) (by decide +kernel)
  have h_children : tree.children 0 = [1, 2] ∧ tree.children 1 = [] := by decide +kernel
  have h_render : Path.render ["d"] = "/d" ∧ Path.render [] = "/" := by decide +kernel
  have h_unreachable : tree.Refusal inside "e/x" (.noSuchNode "e" "d") :=
    @Refusal.unreachable _ _ _ ["d", "e"] "x" _ (by decide +kernel) (by decide +kernel)
  have h_file : tree.Refusal inside "/f/x" (.notADirectory "f") :=
    @Refusal.file _ _ _ ["f"] "x" 2 ⟨"f", some 0, .file (.plain "x")⟩ (by decide +kernel)
      (by decide +kernel) rfl rfl
  have h_taken : tree.Refusal inside "../f" (.duplicateName "" "f") :=
    @Refusal.taken _ _ _ [] "f" 0 2 (by decide +kernel) (by decide +kernel) (by decide +kernel)
  have h_root : tree.Refusal inside "../.." (.invalidPath "../..") := .root (by decide +kernel)
  clear_value tree inside
  have h_all (path : String) := h.createFile_iff_hasRoom inside path (.plain "y")
  have h_refused {path : String} {error : Error} (h_refusal : tree.Refusal inside path error) :
      tree.createFile inside path (.plain "y") = .error error :=
    ((h_all path).2.2.1 error).2 h_refusal
  obtain ⟨below, id, h_made, -, h_get, h_list⟩ := (h_all _).2.1 _ _ _ h_below
  obtain ⟨top, id', h_made', -, -, h_list'⟩ := (h_all _).2.1 _ _ _ h_top
  rw [h_children.2, h_render.1] at h_list
  rw [h_children.1, h_render.2] at h_list'
  exact ⟨h, ⟨below, id, h_made, h_get, h_list⟩, ⟨top, id', h_made', h_list'⟩, h_refused h_root,
    h_refused h_unreachable, h_refused h_file, h_refused h_taken,
    (h_all _).2.2.2 _ (h_refused h_taken)⟩

end PocketShell.Tree
