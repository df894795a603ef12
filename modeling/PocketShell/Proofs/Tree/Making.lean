import PocketShell.Proofs.Tree.Commuting
import PocketShell.Proofs.Tree.Directories

/-!
# What making a directory makes

A path is followed as far as it leads, and the names that are left over are made. The first of them
goes behind the children of the directory that was found last, and each of the others into the one
before it, which has nothing else in it: what is made is a **chain** (`Tree.Chain`), with the
numbers that come next. `Tree.Extended` says that a tree has got such a chain below a directory and
is otherwise as it was. Since a new directory is empty, a chain can always be made to its end
(`makePath_eq_extended`); so making a path either fails before it has made anything, or follows some
names and makes all others (`exists_makePath_eq`).

What was made can be followed (`WellFormed.follow_makePath`), and a path that can be followed is not
made again (`makePath_of_follow`). Hence making a directory is minimal, and making it twice is
making it once (`WellFormed.mkdirp_minimal`).

The last name of a path is never descended from. A file under any other name stands in the way; a
file under the last name is what the path leads to, and is given back as if it were the directory
that was asked for (`WellFormed.mkdirp_isDirectory_iff`).
-/

namespace PocketShell

/-- **One child more,** behind all others. Everything else about the node is as it was. -/
def Node.Gains (before : Node) (name : String) (id : Nat) (after : Node) : Prop :=
  ∃ old new : OrderedMap Nat, before.content = .directory old ∧
    after = { before with content := .directory new } ∧ new.entries = old.entries ++ [(name, id)]

namespace Tree

/-- **One node more,** in the first slot that was never used, and behind the other children of its
directory. The other nodes are as they were. -/
structure Gained (before : Tree) (dir : Nat) (new : Node) (after : Tree) (id : Nat) : Prop where
  id_eq : id = before.slots.size
  size_eq : after.slots.size = before.slots.size + 1
  made : after.node? id = some new
  above : ∃ old now, before.node? dir = some old ∧ after.node? dir = some now ∧
    old.Gains new.name id now
  others : ∀ other, other ≠ id → other ≠ dir → after.node? other = before.node? other

/-- **A chain of directories** with these names, from a number on, below a parent. Each is the only
child of the one before it; the last one is empty, and its number is given at the end. -/
inductive Chain (tree : Tree) : (parent first : Nat) → List String → (last : Nat) → Prop where
  | last {parent id : Nat} {name : String} :
      tree.node? id = some ⟨name, some parent, .directory ∅⟩ → Chain tree parent id [name] id
  | link {parent id last : Nat} {name next : String} {names : List String}
      {children : OrderedMap Nat} :
      tree.node? id = some ⟨name, some parent, .directory children⟩ →
      children.entries = [(next, id + 1)] → Chain tree id (id + 1) (next :: names) last →
      Chain tree parent id (name :: next :: names) last

/-- **Growing by a chain.** The directory has got the first name of a chain as its last child. There
is a new slot for each name, and the older slots are as they were. -/
structure Extended (before : Tree) (dir : Nat) (names : List String) (after : Tree)
    (last : Nat) : Prop where
  size_eq : after.slots.size = before.slots.size + names.length
  kept : ∀ id, id < before.slots.size → id ≠ dir → after.node? id = before.node? id
  gains : ∃ first old new, names.head? = some first ∧ before.node? dir = some old ∧
    after.node? dir = some new ∧ old.Gains first before.slots.size new
  chain : after.Chain dir before.slots.size names last

/-! ### Chains -/

section Chains

variable {tree after : Tree} {dir id last : Nat} {name : String} {names : List String}

/-- **Putting a node** makes one node more. -/
theorem put_gained {child : Node} (h_put : tree.put dir child = .ok (after, id)) :
    tree.Gained dir { child with parent := some dir } after id := by
  obtain ⟨node, children, h_node, h_content, h_none, h_eq⟩ := put_eq_ok_iff.1 h_put
  obtain ⟨rfl, rfl⟩ := Prod.mk.inj h_eq
  have h_after := node?_attach h_node children child
  have h_old : dir ≠ tree.slots.size := Nat.ne_of_lt (lt_size_of_node? h_node)
  have h_dir := h_after dir
  rw [if_neg h_old, if_pos rfl] at h_dir
  refine ⟨rfl, size_attach tree dir node children child, ?_, ?_, fun other h_id h_ne => ?_⟩
  · rw [h_after, if_pos rfl]
  · -- the directory has the new name behind the others
    exact ⟨node, _, h_node, h_dir, children, _, h_content, rfl, OrderedMap.entries_insert h_none⟩
  · rw [h_after, if_neg h_id, if_neg h_ne]

/-- The new node is listed last. -/
theorem Gained.children_eq {new : Node} (h : tree.Gained dir new after id) :
    after.children dir = tree.children dir ++ [id] := by
  obtain ⟨old, now, h_old, h_now, children, children', h_content, rfl, h_entries⟩ := h.above
  rw [children_eq_of_node? h_old (Node.children?_eq_some_iff.2 h_content),
    children_eq_of_node? h_now rfl, OrderedMap.values, h_entries, List.map_append]
  rfl

/-- A name that is missing in a directory is put there as a chain of one. -/
theorem exists_put_extended {missing label : String}
    (h : tree.child dir name = .error (.noSuchNode missing label)) :
    ∃ middle, tree.put dir (Node.directory name) = .ok (middle, tree.slots.size) ∧
      tree.Extended dir [name] middle tree.slots.size := by
  obtain ⟨node, children, -, h_put⟩ :=
    exists_put_of_noSuchNode h (rfl : (Node.directory name).name = name)
  have h_gained := put_gained h_put
  obtain ⟨old, now, h_old, h_now, h_gains⟩ := h_gained.above
  refine ⟨_, h_put, ?_⟩
  exact {
    size_eq := h_gained.size_eq
    kept := fun i h_i h_ne => h_gained.others i (Nat.ne_of_lt h_i) h_ne
    gains := ⟨name, old, now, rfl, h_old, h_now, h_gains⟩
    chain := .last h_gained.made }

/-- **A chain below a chain of one** is a longer chain. -/
theorem Extended.link {middle : Tree} {next : String}
    (h : tree.Extended dir [name] middle tree.slots.size)
    (h' : middle.Extended tree.slots.size (next :: names) after last) :
    tree.Extended dir (name :: next :: names) after last := by
  have h_size : middle.slots.size = tree.slots.size + 1 := h.size_eq
  obtain ⟨first, old, new, h_first, h_old, h_new, h_gains⟩ := h.gains
  have h_dir : dir < tree.slots.size := lt_size_of_node? h_old
  -- the older slots are not touched when the chain goes on
  have h_kept (i : Nat) (h_i : i < tree.slots.size) : after.node? i = middle.node? i :=
    h'.kept i (by omega) (Nat.ne_of_lt h_i)
  refine ⟨?_, fun i h_i h_ne => ?_, ?_, ?_⟩
  · rw [h'.size_eq, h_size, List.length_cons, List.length_cons, List.length_cons]
    omega
  · rw [h_kept i h_i, h.kept i h_i h_ne]
  · obtain rfl : name = first := Option.some.inj h_first
    exact ⟨name, old, new, rfl, h_old, (h_kept dir h_dir).trans h_new, h_gains⟩
  · -- the new directory was empty, and the next one is its only child
    cases h.chain with
    | last h_node =>
      obtain ⟨first', old', new', h_first', h_old', h_new', children, children', h_content, rfl,
        h_entries⟩ := h'.gains
      obtain rfl : next = first' := Option.some.inj h_first'
      obtain rfl := Option.some.inj (h_node.symm.trans h_old')
      obtain rfl : ∅ = children := Content.directory.inj h_content
      rw [h_size] at h_entries
      exact .link h_new' h_entries (h_size ▸ h'.chain)

/-- In a new directory every name is missing. -/
theorem Chain.child_last {parent first : Nat} (h : tree.Chain parent first names last)
    (next : String) : ∃ label, tree.child last next = .error (.noSuchNode next label) := by
  induction h with
  | @last parent id name h_node =>
    refine ⟨name, ?_⟩
    rw [child, h_node]
    rfl
  | link _ _ _ ih => exact ih

/-- **Chains can be made to their end,** where a name is missing in a directory. -/
theorem makePath_eq_extended {missing label : String}
    (h : tree.child dir name = .error (.noSuchNode missing label)) (names : List String) :
    ∃ after last, tree.makePath dir (name :: names) = (after, .ok last) ∧
      tree.Extended dir (name :: names) after last := by
  -- the first name is put, and in the new directory the next one is missing
  induction names generalizing tree dir name missing label with
  | nil =>
    obtain ⟨middle, h_put, h_made⟩ := exists_put_extended h
    refine ⟨middle, tree.slots.size, ?_, h_made⟩
    rw [makePath, h]
    simp only [h_put, makePath]
  | cons next names ih =>
    obtain ⟨middle, h_put, h_made⟩ := exists_put_extended h
    obtain ⟨label', h_next⟩ := h_made.chain.child_last next
    obtain ⟨after, last, h_rest, h_extended⟩ := ih h_next
    refine ⟨after, last, ?_, h_made.link h_extended⟩
    rw [makePath, h]
    simp only [h_put, h_rest]

end Chains

/-! ### Following and making -/

section Making

variable {tree after : Tree} {start id : Nat} {names : List String}

/-- **A path that can be followed** is not made again. -/
theorem makePath_of_follow (h : tree.follow start names = .ok id) :
    tree.makePath start names = (tree, .ok id) := by
  induction names generalizing start with
  | nil =>
    obtain rfl := Except.ok.inj h
    rfl
  | cons name names ih =>
    rw [follow] at h
    split at h
    · next next h_child =>
      rw [makePath, h_child]
      exact ih h
    · cases h

/-- **What is found and what is made.** Making a path follows some names; if any are left over, the
first of them is missing and all are made. -/
theorem exists_makePath_eq (h : tree.makePath start names = (after, .ok id)) :
    ∃ found missing deepest, names = found ++ missing ∧ tree.follow start found = .ok deepest ∧
      ((missing = [] ∧ after = tree ∧ id = deepest) ∨
        ((∀ name ∈ missing.head?, ∀ child, tree.child deepest name ≠ .ok child) ∧
          tree.Extended deepest missing after id)) := by
  induction names generalizing start with
  | nil =>
    obtain ⟨rfl, h_id⟩ := Prod.mk.inj h
    exact ⟨[], [], start, rfl, rfl, .inl ⟨rfl, rfl, (Except.ok.inj h_id).symm⟩⟩
  | cons name names ih =>
    cases h_child : tree.child start name with
    | ok next =>
      rw [makePath, h_child] at h
      obtain ⟨found, missing, deepest, rfl, h_follow, h_rest⟩ := ih h
      refine ⟨name :: found, missing, deepest, rfl, ?_, h_rest⟩
      rw [follow, h_child]
      exact h_follow
    | error e =>
      -- only a missing name is made
      by_cases h_missing : ∃ missing label, e = .noSuchNode missing label
      · obtain ⟨missing, label, rfl⟩ := h_missing
        obtain ⟨made, last, h_made, h_extended⟩ := makePath_eq_extended h_child names
        obtain ⟨rfl, h_id⟩ := Prod.mk.inj (h_made.symm.trans h)
        obtain rfl := Except.ok.inj h_id
        refine ⟨[], name :: names, start, rfl, rfl, .inr ⟨?_, h_extended⟩⟩
        rintro _ ⟨⟩ child h_ok
        rw [h_child] at h_ok
        cases h_ok
      · rw [makePath, h_child] at h
        split at h
        · next h_ok => cases h_ok
        · next missing label h_error =>
          exact absurd ⟨missing, label, Except.error.inj h_error⟩ h_missing
        · cases h

/-- **What was made can be followed.** -/
theorem WellFormed.follow_makePath (h : tree.WellFormed) {front : List String}
    (h_front : tree.follow root front = .ok start)
    (h_made : tree.makePath start names = (after, .ok id)) :
    after.follow root (front ++ names) = .ok id := by
  induction names generalizing tree front start with
  | nil =>
    obtain ⟨rfl, h_id⟩ := Prod.mk.inj h_made
    rw [List.append_nil, h_front, h_id]
  | cons name names ih =>
    rw [makePath] at h_made
    rw [List.append_cons]
    split at h_made
    · next next h_child =>
      exact ih h (follow_append_singleton.2 ⟨start, h_front, h_child⟩) h_made
    · split at h_made
      · next middle next h_put =>
        have h_fresh := Node.isFresh_directory name
        exact ih (h.put h_fresh h_put) (h.follow_put h_fresh h_put h_front) h_made
      · cases h_made
    · cases h_made

end Making

/-! ### Making directories -/

section Directories

variable {tree after : Tree} {env : Environment} {path : String} {id : Nat}

/-- In front of a name that is missing, the names lead as far as they were found. -/
theorem exists_follow_iff_prefix {start deepest : Nat} {found missing front : List String}
    (h_found : tree.follow start found = .ok deepest)
    (h_missing : ∀ name ∈ missing.head?, ∀ child, tree.child deepest name ≠ .ok child)
    (h_front : front <+: found ++ missing) :
    (∃ id, tree.follow start front = .ok id) ↔ front <+: found := by
  constructor
  · rintro ⟨id, h_follow⟩
    rcases List.prefix_or_prefix_of_prefix h_front (List.prefix_append found missing) with
      h_prefix | ⟨more, rfl⟩
    · exact h_prefix
    cases more with
    | nil => exact (List.append_nil found).symm ▸ List.prefix_refl found
    | cons name more =>
      -- the missing name comes next, and nothing is followed through it
      obtain ⟨rest, h_rest⟩ := (List.prefix_append_right_inj found).1 h_front
      have h_name : name ∈ missing.head? := h_rest ▸ rfl
      obtain ⟨dir, h_dir, h_more⟩ := follow_append.1 h_follow
      obtain rfl := Except.ok.inj (h_found.symm.trans h_dir)
      rw [← List.singleton_append] at h_more
      obtain ⟨child, h_child, -⟩ := follow_append.1 h_more
      exact absurd (follow_singleton.1 h_child) (h_missing name h_name child)
  · rintro ⟨below, rfl⟩
    obtain ⟨id, h_follow, -⟩ := follow_append.1 h_found
    exact ⟨id, h_follow⟩

/-- What was made is at its path. -/
theorem WellFormed.get_mkdirp (h : tree.WellFormed)
    (h_made : tree.mkdirp env path = (after, .ok id)) : after.get env path = .ok id := by
  rw [mkdirp_eq] at h_made
  have h_root : tree.follow root [] = .ok root := rfl
  have h_follow := h.follow_makePath h_root h_made
  rw [get_eq_follow, ← h_follow, List.nil_append]

/-- **Making a directory is minimal, and idempotent.** If it fails, the tree is as it was. If it
gives a node, then the node is at the path; the path leads through the names that were found, as far
as any of its names led somewhere, to the deepest node that was there, and on through a new chain
with the missing names and with nothing else; and making the path again gives the same node and
changes nothing. -/
theorem WellFormed.mkdirp_minimal (h : tree.WellFormed) (env : Environment) (path : String) :
    (∀ after e, tree.mkdirp env path = (after, .error e) → after = tree) ∧
    (∀ after id, tree.mkdirp env path = (after, .ok id) →
      after.get env path = .ok id ∧
      (∃ found missing deepest,
        Path.segments env.cwd path = found ++ missing ∧ tree.follow root found = .ok deepest ∧
        (∀ front, front <+: found ++ missing →
          ((∃ id, tree.follow root front = .ok id) ↔ front <+: found)) ∧
        (missing = [] → after = tree ∧ id = deepest) ∧
        (missing ≠ [] → tree.Extended deepest missing after id)) ∧
      after.mkdirp env path = (after, .ok id)) := by
  refine ⟨fun after e h_fails => ?_, fun after id h_made => ⟨h.get_mkdirp h_made, ?_, ?_⟩⟩
  · rw [mkdirp_eq] at h_fails
    exact (makePath_of_error h_fails).1
  · rw [mkdirp_eq] at h_made
    obtain ⟨found, missing, deepest, h_names, h_found, h_made⟩ := exists_makePath_eq h_made
    refine ⟨found, missing, deepest, h_names, h_found, ?_⟩
    rcases h_made with ⟨rfl, h_after, h_id⟩ | ⟨h_missing, h_extended⟩
    · have h_none :
          ∀ name ∈ ([] : List String).head?, ∀ child, tree.child deepest name ≠ .ok child :=
        fun _ h_mem => nomatch h_mem
      exact ⟨fun _ => exists_follow_iff_prefix h_found h_none, fun _ => ⟨h_after, h_id⟩,
        fun h_ne => absurd rfl h_ne⟩
    · refine ⟨fun _ => exists_follow_iff_prefix h_found h_missing, ?_, fun _ => h_extended⟩
      -- a tree does not grow by an empty chain
      rintro rfl
      exact nomatch h_extended.chain
  · have h_get := h.get_mkdirp h_made
    rw [get_eq_follow] at h_get
    rw [mkdirp_eq]
    exact makePath_of_follow h_get

/-- Two directories are there and two are made, on a path that goes back over one of the missing
names before it comes to it. -/
theorem WellFormed.mkdirp_minimal_partly :
    (Tree.empty.run [.mkdirp {} "a/b"]).WellFormed ∧
      ∃ after, (Tree.empty.run [.mkdirp {} "a/b"]).mkdirp {} "a/./b/c/../c/d" = (after, .ok 4) ∧
        after.get {} "a/./b/c/../c/d" = .ok 4 ∧
        after.mkdirp {} "a/./b/c/../c/d" = (after, .ok 4) := by
  have h_tree : (Tree.empty.run [.mkdirp {} "a/b"]).WellFormed := WellFormed.empty.run _
  have h_result : ((Tree.empty.run [.mkdirp {} "a/b"]).mkdirp {} "a/./b/c/../c/d").2 = .ok 4 := by
    rfl
  rcases h_made : (Tree.empty.run [.mkdirp {} "a/b"]).mkdirp {} "a/./b/c/../c/d" with
    ⟨after, result⟩
  rw [h_made] at h_result
  obtain rfl : result = .ok 4 := h_result
  obtain ⟨h_get, -, h_again⟩ := (h_tree.mkdirp_minimal {} "a/./b/c/../c/d").2 after 4 h_made
  exact ⟨h_tree, after, rfl, h_get, h_again⟩

/-! ### Files on the way -/

/-- **A file at the end of some names.** -/
def FileAt (tree : Tree) (names : List String) (id : Nat) (file : Node) : Prop :=
  tree.follow root names = .ok id ∧ tree.node? id = some file ∧ file.isFile = true

theorem FileAt.exists_blob {names : List String} {file : Node} (h : tree.FileAt names id file) :
    ∃ blob, file.content = .file blob := by
  obtain ⟨-, -, h_file⟩ := h
  cases h_content : file.content with
  | directory children => simp [Node.isFile, Node.blob?, h_content] at h_file
  | file blob => exact ⟨blob, rfl⟩

/-- What is at the end of a path that was made is a directory, or a file that was there before. -/
theorem WellFormed.isDirectory_or_fileAt (h : tree.WellFormed)
    (h_made : tree.mkdirp env path = (after, .ok id)) :
    after.isDirectory id = true ∨
      ∃ last file, tree.FileAt (Path.segments env.cwd path) last file := by
  have h_after : after.WellFormed := by
    have h_wf := h.mkdirp env path
    rwa [h_made] at h_wf
  have h_get := h.get_mkdirp h_made
  obtain ⟨node, h_node⟩ := isLive_iff.1 (h_after.isLive_get h_get)
  cases h_content : node.content with
  | directory children =>
    exact .inl (isDirectory_iff.2 ⟨node, children, h_node, Node.children?_eq_some_iff.2 h_content⟩)
  | file blob =>
    -- making a path adds directories only
    have h_entry : node.entry = .file blob := by rw [Node.entry, h_content]
    rw [get_eq_follow] at h_get
    have h_at : after.at? (Path.segments env.cwd path) = some (.file blob) :=
      at?_eq_some_iff.2 ⟨id, node, h_get, h_node, h_entry⟩
    have h_added := @h.at?_mkdirp_iff tree env path (Path.segments env.cwd path) (.file blob)
    rw [h_made] at h_added
    rcases h_added.1 h_at with h_before | ⟨-, h_directory, -⟩
    · obtain ⟨last, file, h_follow, h_file, h_entry⟩ := at?_eq_some_iff.1 h_before
      refine .inr ⟨last, file, h_follow, h_file, ?_⟩
      unfold Node.entry at h_entry
      split at h_entry
      · cases h_entry
      · next h_content => simp [Node.isFile, Node.blob?, h_content]
    · cases h_directory

/-- **Making a directory gives a directory,** unless there is a file at the end of the path. What is
given is always there. A file that has names of the path below it is reported by its name, and
nothing is changed; but a file at the end of the path is given back itself, without an error and
without a change. -/
theorem WellFormed.mkdirp_isDirectory_iff (h : tree.WellFormed) (env : Environment)
    (path : String) :
    (∀ after id, tree.mkdirp env path = (after, .ok id) →
      after.isLive id = true ∧
        (after.isDirectory id = true ↔
          ¬ ∃ last file, tree.FileAt (Path.segments env.cwd path) last file)) ∧
    (∀ front name below id file, Path.segments env.cwd path = front ++ name :: below →
      tree.FileAt front id file →
      tree.mkdirp env path = (tree, .error (.notADirectory file.name))) ∧
    (∀ id file, tree.FileAt (Path.segments env.cwd path) id file →
      tree.mkdirp env path = (tree, .ok id)) := by
  have h_last : ∀ id file, tree.FileAt (Path.segments env.cwd path) id file →
      tree.mkdirp env path = (tree, .ok id) := by
    rintro id file ⟨h_follow, -⟩
    rw [mkdirp_eq]
    exact makePath_of_follow h_follow
  refine ⟨fun after id h_made => ⟨?_, ?_, ?_⟩, ?_, h_last⟩
  · have h_after : (tree.mkdirp env path).1.WellFormed := h.mkdirp env path
    rw [h_made] at h_after
    exact h_after.isLive_get (h.get_mkdirp h_made)
  · rintro h_directory ⟨last, file, h_file⟩
    -- the file is what was given, and it is no directory
    obtain ⟨rfl, h_id⟩ := Prod.mk.inj (h_made.symm.trans (h_last last file h_file))
    obtain rfl := Except.ok.inj h_id
    have h_any : (after.node? id).any Node.isFile = true := by
      rw [h_file.2.1]
      exact h_file.2.2
    rw [isDirectory_eq_false_of_isFile h_any] at h_directory
    cases h_directory
  · exact (h.isDirectory_or_fileAt h_made).resolve_right
  · rintro front name below id file h_names h_file
    obtain ⟨blob, h_content⟩ := h_file.exists_blob
    rw [mkdirp_eq, h_names]
    exact makePath_of_file h_file.1 h_file.2.1 h_content name below

/-- A file stands in the way of one path and at the end of another; a third path is made. -/
theorem WellFormed.mkdirp_isDirectory_iff_notes :
    let tree := Tree.empty.run [.mkdirp {} "d", .createFile {} "d/notes" (.plain "text")]
    tree.WellFormed ∧ tree.FileAt ["d", "notes"] 2 ⟨"notes", some 1, .file (.plain "text")⟩ ∧
      tree.mkdirp {} "d/notes/../notes/x" = (tree, .error (.notADirectory "notes")) ∧
      tree.mkdirp {} "d/./notes" = (tree, .ok 2) := by
  intro tree
  have h_tree : tree.WellFormed := WellFormed.empty.run _
  have h_file : tree.FileAt ["d", "notes"] 2 ⟨"notes", some 1, .file (.plain "text")⟩ :=
    ⟨by rfl, by rfl, rfl⟩
  have h_below := (h_tree.mkdirp_isDirectory_iff {} "d/notes/../notes/x").2.1 ["d", "notes"] "x" []
    2 _ (by rfl) h_file
  have h_end := (h_tree.mkdirp_isDirectory_iff {} "d/./notes").2.2 2 _ h_file
  exact ⟨h_tree, h_file, h_below, h_end⟩

/-- **No directory,** and no error: what is given for the path of a file. -/
theorem mkdirp_ends_at_file :
    let tree := Tree.empty.run [.createFile {} "f" (.plain "text")]
    tree.WellFormed ∧ tree.FileAt ["f"] 1 ⟨"f", some root, .file (.plain "text")⟩ ∧
      tree.mkdirp {} "f" = (tree, .ok 1) ∧ tree.isDirectory 1 = false := by
  intro tree
  have h_tree : tree.WellFormed := WellFormed.empty.run _
  have h_follow : tree.follow root (Path.segments ({} : Environment).cwd "f") = .ok 1 := by rfl
  refine ⟨h_tree, ⟨h_follow, by rfl, rfl⟩, ?_, by rfl⟩
  rw [mkdirp_eq]
  exact makePath_of_follow h_follow

end Directories

end Tree

end PocketShell
