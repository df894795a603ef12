import PocketShell.Proofs.Tree.Steps

/-!
# How operations on trees fail

Looking up a path fails where a step of it fails (`follow_of_error`), and so does making a path:
once a directory has been made it is empty, and below an empty directory a path can be made. So
making a path, the one operation of several changes, fails before the first of them and leaves no
trace (`makePath_of_error`).

Two kinds of errors do not come out of a tree. `Tree.Failure` lists what operations at a path may
fail with. Lines inside lines are none of a tree's business (`Failure.not_nesting`). And in a
well-formed tree no operation meets the number of a slot without a node, unless it is handed one:
`WellFormed.nothingDangles`. On the way down this is so because directories lead to nodes
(`WellFormed.isLive_follow`), on the way up because every node reaches the root.
-/

namespace PocketShell.Tree

variable {tree : Tree} {env : Environment} {path : String} {e : Error}

/-! ### Where operations fail -/

/-- **Following fails at a step.** -/
theorem follow_of_error {start : Nat} {names : List String}
    (h : tree.follow start names = .error e) :
    ∃ front dir name, tree.follow start front = .ok dir ∧ tree.child dir name = .error e := by
  induction names generalizing start with
  | nil => cases h
  | cons name names ih =>
    rw [follow] at h
    split at h
    · next next h_child =>
      -- this step succeeds, so a later one fails, and this step leads there
      obtain ⟨front, dir, last, h_front, h_last⟩ := ih h
      refine ⟨name :: front, dir, last, ?_, h_last⟩
      rw [follow, h_child]
      exact h_front
    · next h_child =>
      cases h
      exact ⟨[], start, name, rfl, h_child⟩

/-- A name that is missing in a directory can be put there. -/
theorem exists_put_of_noSuchNode {dir : Nat} {name missing label : String}
    (h : tree.child dir name = .error (.noSuchNode missing label)) {new : Node}
    (h_name : new.name = name) :
    ∃ node children, tree.node? dir = some node ∧
      tree.put dir new = .ok (tree.attach dir node children new, tree.slots.size) := by
  unfold child at h
  split at h
  · cases h
  · next node h_node =>
    split at h
    · cases h
    · next children h_content =>
      split at h
      · cases h
      · next h_find =>
        -- a directory that does not lead anywhere under a name has the name free
        have h_free : children.find? new.name = none := by rw [h_name, h_find]
        exact ⟨node, children, h_node,
          put_eq_ok_iff.2 ⟨node, children, h_node, h_content, h_free, rfl⟩⟩

/-- Below an empty directory a path can be made. -/
theorem makePath_eq_ok_of_empty {start : Nat} {node : Node} (h_node : tree.node? start = some node)
    (h_content : node.content = .directory ∅) (names : List String) :
    ∃ after id, tree.makePath start names = (after, .ok id) := by
  -- the invariant is that the directory is empty: the one that is made next is empty again
  induction names generalizing tree start node with
  | nil => exact ⟨tree, start, rfl⟩
  | cons name names ih =>
    have h_child : tree.child start name = .error (.noSuchNode name node.name) := by
      rw [child, h_node]
      simp only [h_content, OrderedMap.find?_empty]
    have h_put : tree.put start (Node.directory name) =
        .ok (tree.attach start node ∅ (Node.directory name), tree.slots.size) :=
      put_eq_ok_iff.2 ⟨node, ∅, h_node, h_content, OrderedMap.find?_empty _, rfl⟩
    have h_new := node?_attach h_node ∅ (Node.directory name) tree.slots.size
    rw [if_pos rfl] at h_new
    obtain ⟨after, id, h_rest⟩ := ih h_new rfl
    refine ⟨after, id, ?_⟩
    rw [makePath, h_child]
    simp only [h_put, h_rest]

/-- **Making a path fails at a step, and without a trace.** A name that is missing is no reason to
fail. -/
theorem makePath_of_error {start : Nat} {names : List String} {after : Tree}
    (h : tree.makePath start names = (after, .error e)) :
    after = tree ∧
      ∃ front dir name below, names = front ++ name :: below ∧ tree.follow start front = .ok dir ∧
        tree.child dir name = .error e ∧ ∀ missing label, e ≠ .noSuchNode missing label := by
  induction names generalizing start with
  | nil => cases h
  | cons name names ih =>
    rw [makePath] at h
    split at h
    · next next h_child =>
      obtain ⟨h_eq, front, dir, last, below, rfl, h_front, h_last⟩ := ih h
      refine ⟨h_eq, name :: front, dir, last, below, rfl, ?_, h_last⟩
      rw [follow, h_child]
      exact h_front
    · next h_child =>
      -- the directory that is made here is empty, so what follows does not fail
      obtain ⟨node, children, h_node, h_put⟩ :=
        exists_put_of_noSuchNode h_child (rfl : (Node.directory name).name = name)
      have h_new := node?_attach h_node children (Node.directory name) tree.slots.size
      rw [if_pos rfl] at h_new
      obtain ⟨made, id, h_ok⟩ := makePath_eq_ok_of_empty h_new rfl names
      rw [h_put] at h
      simp only [h_ok] at h
      cases h
    · next h_other h_child =>
      cases h
      exact ⟨rfl, [], start, name, names, rfl, rfl, h_child, h_other⟩

/-- **Errors of a tree at a path.** -/
inductive Failure (tree : Tree) (e : Error) : Prop where
  | get {env : Environment} {path : String} : tree.get env path = .error e → Failure tree e
  | list {env : Environment} {path : String} : tree.list env path = .error e → Failure tree e
  | cd {env : Environment} {path : String} : tree.cd env path = .error e → Failure tree e
  | mkdirp {env : Environment} {path : String} :
      (tree.mkdirp env path).2 = .error e → Failure tree e
  | createFile {env : Environment} {path : String} {blob : Blob} :
      tree.createFile env path blob = .error e → Failure tree e
  | remove {env : Environment} {path : String} : tree.remove env path = .error e → Failure tree e

/-! ### Errors about lines inside lines -/

theorem child_not_nesting {dir : Nat} {name : String} (h : tree.child dir name = .error e) :
    e.isNesting = false := by
  unfold child at h
  split at h
  · cases h
    rfl
  · split at h
    · cases h
      rfl
    · split at h
      · cases h
      · cases h
        rfl

theorem follow_not_nesting {start : Nat} {names : List String}
    (h : tree.follow start names = .error e) : e.isNesting = false := by
  obtain ⟨front, dir, name, -, h_child⟩ := follow_of_error h
  exact child_not_nesting h_child

theorem get_not_nesting (h : tree.get env path = .error e) : e.isNesting = false :=
  follow_not_nesting h

theorem list_not_nesting (h : tree.list env path = .error e) : e.isNesting = false := by
  rcases bind_eq_error_iff.1 h with h_get | ⟨id, -, h_node⟩
  · exact get_not_nesting h_get
  · split at h_node
    · cases h_node
      rfl
    · cases h_node

theorem cd_not_nesting (h : tree.cd env path = .error e) : e.isNesting = false := by
  unfold cd at h
  dsimp only at h
  split at h
  · cases h
    rfl
  · cases h
    rfl
  · split at h
    · cases h
      rfl
    · split at h
      · -- the working directory has a name, so it can be bound
        rw [Environment.put, if_neg (by decide)] at h
        cases h
      · cases h
        rfl

theorem put_not_nesting {parent : Nat} {child : Node} (h : tree.put parent child = .error e) :
    e.isNesting = false := by
  unfold put at h
  split at h
  · cases h
    rfl
  · split at h
    · cases h
      rfl
    · split at h
      · cases h
        rfl
      · cases h

theorem mkdirp_not_nesting (h : (tree.mkdirp env path).2 = .error e) : e.isNesting = false := by
  obtain ⟨-, front, dir, name, below, -, -, h_child, -⟩ := makePath_of_error (Prod.ext rfl h)
  exact child_not_nesting h_child

theorem createFile_not_nesting {blob : Blob} (h : tree.createFile env path blob = .error e) :
    e.isNesting = false := by
  rw [createFile_eq] at h
  split at h
  · cases h
    rfl
  · rcases bind_eq_error_iff.1 h with h_follow | ⟨parent, -, h_put⟩
    · exact follow_not_nesting h_follow
    · exact put_not_nesting h_put

theorem removeNode_not_nesting {id : Nat} (h : tree.removeNode id = .error e) :
    e.isNesting = false := by
  unfold removeNode at h
  split at h
  · cases h
    rfl
  · split at h
    · -- without a parent: the path of the node is asked for and reported
      rcases bind_eq_error_iff.1 h with h_path | ⟨path, -, h_end⟩
      · unfold absolutePath at h_path
        split at h_path
        · cases h_path
          rfl
        · cases h_path
      · cases h_end
        rfl
    · -- with a parent: cutting off may fail, and then taking out
      rcases bind_eq_error_iff.1 h with h_detach | ⟨detached, -, h_rest⟩
      · unfold detach at h_detach
        split at h_detach
        · cases h_detach
          rfl
        · split at h_detach
          · cases h_detach
          · cases h_detach
      · dsimp only at h_rest
        split at h_rest
        · cases h_rest
          rfl
        · cases h_rest

/-- No failure of a tree is about lines inside lines. -/
theorem Failure.not_nesting (h : tree.Failure e) : e.isNesting = false := by
  cases h with
  | get h => exact get_not_nesting h
  | list h => exact list_not_nesting h
  | cd h => exact cd_not_nesting h
  | mkdirp h => exact mkdirp_not_nesting h
  | createFile h => exact createFile_not_nesting h
  | remove h =>
    rcases bind_eq_error_iff.1 h with h_get | ⟨id, -, h_remove⟩
    · exact get_not_nesting h_get
    · exact removeNode_not_nesting h_remove

/-! ### Errors about numbers that lead nowhere -/

/-- **Following meets nodes only.** -/
theorem WellFormed.isLive_follow (h : tree.WellFormed) {start id : Nat} {names : List String}
    (h_start : tree.isLive start = true) (h_follow : tree.follow start names = .ok id) :
    tree.isLive id = true := by
  induction names generalizing start with
  | nil => exact Except.ok.inj h_follow ▸ h_start
  | cons name names ih =>
    rw [follow] at h_follow
    split at h_follow
    · next next h_child => exact ih (h.isLive_child h_child) h_follow
    · cases h_follow

theorem WellFormed.isLive_get (h : tree.WellFormed) {env : Environment} {path : String} {id : Nat}
    (h_get : tree.get env path = .ok id) : tree.isLive id = true :=
  h.isLive_follow h.isLive_root h_get

theorem WellFormed.follow_ne_danglingNode (h : tree.WellFormed) (names : List String) :
    tree.follow root names ≠ .error .danglingNode := by
  intro h_follow
  obtain ⟨front, dir, name, h_front, h_child⟩ := follow_of_error h_follow
  exact child_ne_danglingNode (h.isLive_follow h.isLive_root h_front) name h_child

theorem WellFormed.get_ne_danglingNode (h : tree.WellFormed) (env : Environment) (path : String) :
    tree.get env path ≠ .error .danglingNode :=
  h.follow_ne_danglingNode _

theorem WellFormed.mkdirp_ne_danglingNode (h : tree.WellFormed) (env : Environment)
    (path : String) : (tree.mkdirp env path).2 ≠ .error .danglingNode := by
  intro h_make
  obtain ⟨-, front, dir, name, below, -, h_front, h_child, -⟩ :=
    makePath_of_error (Prod.ext rfl h_make)
  exact child_ne_danglingNode (h.isLive_follow h.isLive_root h_front) name h_child

theorem WellFormed.list_ne_danglingNode (h : tree.WellFormed) (env : Environment) (path : String) :
    tree.list env path ≠ .error .danglingNode := by
  intro h_list
  rcases bind_eq_error_iff.1 h_list with h_get | ⟨id, h_get, h_node⟩
  · exact h.get_ne_danglingNode env path h_get
  · obtain ⟨node, h_live⟩ := isLive_iff.1 (h.isLive_get h_get)
    rw [h_live] at h_node
    cases h_node

theorem WellFormed.cd_ne_danglingNode (h : tree.WellFormed) (env : Environment) (path : String) :
    tree.cd env path ≠ .error .danglingNode := by
  unfold cd
  dsimp only
  split
  · -- the other errors of looking up are reported as an invalid path
    next h_get => exact absurd h_get (h.get_ne_danglingNode env _)
  · rintro ⟨⟩
  · next id h_get =>
    obtain ⟨node, h_live⟩ := isLive_iff.1 (h.isLive_get h_get)
    rw [h_live]
    split
    · next h_none => cases h_none
    · split
      · rintro ⟨⟩
      · rintro ⟨⟩

theorem WellFormed.createFile_ne_danglingNode (h : tree.WellFormed) (env : Environment)
    (path : String) (blob : Blob) : tree.createFile env path blob ≠ .error .danglingNode := by
  rw [createFile_eq]
  split
  · rintro ⟨⟩
  · intro h_create
    rcases bind_eq_error_iff.1 h_create with h_follow | ⟨parent, h_follow, h_put⟩
    · exact h.follow_ne_danglingNode _ h_follow
    · exact put_ne_danglingNode (h.isLive_follow h.isLive_root h_follow) _ h_put

theorem WellFormed.removeNode_ne_danglingNode (h : tree.WellFormed) {id : Nat}
    (h_live : tree.isLive id = true) : tree.removeNode id ≠ .error .danglingNode := by
  by_cases h_root : id = root
  · rw [h_root, h.removeNode_root]
    rintro ⟨⟩
  · obtain ⟨node, h_node⟩ := isLive_iff.1 h_live
    obtain ⟨after, h_ok, -⟩ := h.removeNode_eq_ok h_node h_root
    rw [h_ok]
    rintro ⟨⟩

theorem WellFormed.remove_ne_danglingNode (h : tree.WellFormed) (env : Environment)
    (path : String) : tree.remove env path ≠ .error .danglingNode := by
  intro h_remove
  rcases bind_eq_error_iff.1 h_remove with h_get | ⟨id, h_get, h_node⟩
  · exact h.get_ne_danglingNode env path h_get
  · exact h.removeNode_ne_danglingNode (h.isLive_get h_get) h_node

/-- **Nothing dangles:** no operation meets a slot without a node, unless it is handed the number
of one. -/
structure NothingDangles (tree : Tree) : Prop where
  get : ∀ env path, tree.get env path ≠ .error .danglingNode
  list : ∀ env path, tree.list env path ≠ .error .danglingNode
  mkdirp : ∀ env path, (tree.mkdirp env path).2 ≠ .error .danglingNode
  createFile : ∀ env path blob, tree.createFile env path blob ≠ .error .danglingNode
  cd : ∀ env path, tree.cd env path ≠ .error .danglingNode
  remove : ∀ env path, tree.remove env path ≠ .error .danglingNode
  absolutePath : ∀ id, tree.isLive id = true → tree.absolutePath id ≠ .error .danglingNode
  put : ∀ id, tree.isLive id = true → ∀ child, tree.put id child ≠ .error .danglingNode
  removeNode : ∀ id, tree.isLive id = true → tree.removeNode id ≠ .error .danglingNode

/-- **In a well-formed tree nothing dangles.** -/
theorem WellFormed.nothingDangles (h : tree.WellFormed) : tree.NothingDangles where
  get := h.get_ne_danglingNode
  list := h.list_ne_danglingNode
  mkdirp := h.mkdirp_ne_danglingNode
  createFile := h.createFile_ne_danglingNode
  cd := h.cd_ne_danglingNode
  remove := h.remove_ne_danglingNode
  absolutePath id h_live := by
    obtain ⟨path, h_path⟩ := h.exists_absolutePath h_live
    rw [h_path]
    rintro ⟨⟩
  put _ h_live := put_ne_danglingNode h_live
  removeNode _ h_live := h.removeNode_ne_danglingNode h_live

/-- No failure of a well-formed tree is about a number that leads nowhere. -/
theorem WellFormed.failure_ne_danglingNode (h_wf : tree.WellFormed) (h : tree.Failure e) :
    e ≠ .danglingNode := by
  rintro rfl
  cases h with
  | get h => exact h_wf.nothingDangles.get _ _ h
  | list h => exact h_wf.nothingDangles.list _ _ h
  | cd h => exact h_wf.nothingDangles.cd _ _ h
  | mkdirp h => exact h_wf.nothingDangles.mkdirp _ _ h
  | createFile h => exact h_wf.nothingDangles.createFile _ _ _ h
  | remove h => exact h_wf.nothingDangles.remove _ _ h

end PocketShell.Tree
