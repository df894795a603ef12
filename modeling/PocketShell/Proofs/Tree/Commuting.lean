import PocketShell.Proofs.Tree.View

/-!
# Making directories commutes

Several directories are made one after the other, and which of them comes first decides which nodes
are made, and with what numbers: the first path makes what it shares with the others. Whoever
follows paths cannot tell. In every order each path has the same outcome and the trees hold the
same (`WellFormed.mkdirpAll_perm`).

Two facts about the view of a tree (`Tree.at?`) carry the proof. Making a directory adds
directories in front of its path, where there was nothing before, and changes nothing else
(`WellFormed.at?_mkdirp_iff`). It fails exactly if a file stands on the way
(`WellFormed.mkdirp_eq_error_iff`), and files are none of the things that are added; so an outcome
can be read off the tree that was there before all others were made (`WellFormed.outcome_mkdirp`).
By induction, then, what is there after several directories are made depends on the set of their
paths only (`WellFormed.at?_mkdirpAll_iff`).
-/

namespace PocketShell.Tree

/-- What is told about making a directory: that it was made, or why not. -/
def outcome (tree : Tree) (env : Environment) (path : String) : Except Error Unit :=
  (tree.mkdirp env path).2.map fun _ => ()

/-- **Making directories** one after the other, whatever becomes of each, with the outcomes. -/
def mkdirpAll (tree : Tree) (env : Environment) :
    List String → Tree × List (Except Error Unit)
  | [] => (tree, [])
  | path :: paths =>
    let rest := (tree.mkdirp env path).1.mkdirpAll env paths
    (rest.1, tree.outcome env path :: rest.2)

@[simp] theorem mkdirpAll_nil (tree : Tree) (env : Environment) :
    tree.mkdirpAll env [] = (tree, []) := rfl

@[simp] theorem mkdirpAll_cons (tree : Tree) (env : Environment) (path : String)
    (paths : List String) :
    tree.mkdirpAll env (path :: paths) =
      (((tree.mkdirp env path).1.mkdirpAll env paths).1,
        tree.outcome env path :: ((tree.mkdirp env path).1.mkdirpAll env paths).2) := by
  rw [mkdirpAll]

theorem mkdirp_eq (tree : Tree) (env : Environment) (path : String) :
    tree.mkdirp env path = tree.makePath root (Path.segments env.cwd path) := by
  rw [mkdirp, resolve, Path.names_resolve]

theorem outcome_eq_error_iff {tree : Tree} {env : Environment} {path : String} {e : Error} :
    tree.outcome env path = .error e ↔ (tree.mkdirp env path).2 = .error e := by
  unfold outcome
  cases (tree.mkdirp env path).2 <;> simp [Except.map]

theorem WellFormed.mkdirp {tree : Tree} (h : tree.WellFormed) (env : Environment)
    (path : String) : (tree.mkdirp env path).1.WellFormed := by
  have h_steps : Steps (fun _ => True) tree (tree.mkdirp env path).1 :=
    mkdirp_steps (fun _ _ => trivial) tree env path
  exact h.steps h_steps

/-! ### What is added -/

section Added

variable {tree : Tree}

/-- **Making a path adds the directories that are missing on it.** -/
theorem WellFormed.at?_makePath_iff (h : tree.WellFormed) {start id : Nat}
    {front names : List String} {after : Tree} (h_front : tree.follow root front = .ok start)
    (h_made : tree.makePath start names = (after, .ok id)) {place : List String} {entry : Entry} :
    after.at? place = some entry ↔
      tree.at? place = some entry ∨
        (tree.at? place = none ∧ entry = .directory ∧ place <+: front ++ names) := by
  induction names generalizing tree front start with
  | nil =>
    -- what is in front of the start is there
    obtain ⟨rfl, -⟩ := Prod.mk.inj h_made
    have h_there : ¬ (tree.at? place = none ∧ entry = .directory ∧ place <+: front ++ []) := by
      rintro ⟨h_none, -, h_prefix⟩
      rw [List.append_nil] at h_prefix
      exact h.at?_ne_none_of_prefix h_prefix h_front h_none
    simp only [h_there, or_false]
  | cons name names ih =>
    rw [makePath] at h_made
    rw [List.append_cons]
    split at h_made
    · next next h_child =>
      exact ih h (follow_append_singleton.2 ⟨start, h_front, h_child⟩) h_made
    · split at h_made
      · next middle next h_put =>
        -- the name is added first, and the rest below it
        have h_fresh := Node.isFresh_directory name
        rw [ih (h.put h_fresh h_put) (h.follow_put h_fresh h_put h_front) h_made,
          h.at?_put h_fresh h_put h_front]
        by_cases h_place : place = front ++ [name]
        · have h_missing : tree.at? place = none := h_place ▸ at?_of_put h_put h_front
          have h_prefix : place <+: front ++ [name] ++ names := h_place ▸ List.prefix_append _ _
          simp only [h_missing, h_prefix]
          simp [h_place, Node.entry, Node.directory, eq_comm]
        · simp [h_place, Node.directory]
      · cases h_made
    · cases h_made

/-- **Making a directory adds the directories that are missing on its path,** and nothing else. If
it fails, it adds nothing. -/
theorem WellFormed.at?_mkdirp_iff (h : tree.WellFormed) (env : Environment) (path : String)
    {place : List String} {entry : Entry} :
    (tree.mkdirp env path).1.at? place = some entry ↔
      tree.at? place = some entry ∨
        (tree.at? place = none ∧ entry = .directory ∧ tree.outcome env path = .ok () ∧
          place <+: Path.segments env.cwd path) := by
  rcases h_made : tree.mkdirp env path with ⟨after, e | id⟩
  · have h_after : after = tree := (makePath_of_error (mkdirp_eq tree env path ▸ h_made)).1
    have h_failed : tree.outcome env path ≠ .ok () := by simp [outcome, h_made, Except.map]
    simp [h_after, h_failed]
  · have h_ok : tree.outcome env path = .ok () := by simp [outcome, h_made, Except.map]
    have h_path : tree.makePath root (Path.segments env.cwd path) = (after, .ok id) :=
      mkdirp_eq tree env path ▸ h_made
    have h_root : tree.follow root [] = .ok root := rfl
    simpa [h_ok] using h.at?_makePath_iff h_root h_path

end Added

/-! ### What stands in the way -/

section Failing

variable {tree : Tree}

/-- A file has no children, whatever their name. -/
theorem child_of_file {dir : Nat} {file : Node} {blob : Blob} (h_file : tree.node? dir = some file)
    (h_content : file.content = .file blob) (name : String) :
    tree.child dir name = .error (.notADirectory file.name) := by
  rw [child, h_file]
  simp only [h_content]

/-- Only files have nothing at all below them; in a directory a name is missing or found. -/
theorem exists_file_of_child {dir : Nat} {name : String} {e : Error}
    (h_live : tree.isLive dir = true) (h_child : tree.child dir name = .error e)
    (h_other : ∀ missing label, e ≠ .noSuchNode missing label) :
    ∃ file blob, tree.node? dir = some file ∧ file.content = .file blob := by
  obtain ⟨node, h_node⟩ := isLive_iff.1 h_live
  cases h_content : node.content with
  | file blob => exact ⟨node, blob, h_node, h_content⟩
  | directory children =>
    rw [child, h_node] at h_child
    simp only [h_content] at h_child
    split at h_child
    · cases h_child
    · exact absurd (Except.error.inj h_child).symm (h_other _ _)

theorem makePath_of_file {start id : Nat} {file : Node} {blob : Blob} {front : List String}
    (h_front : tree.follow start front = .ok id) (h_file : tree.node? id = some file)
    (h_content : file.content = .file blob) (name : String) (below : List String) :
    tree.makePath start (front ++ name :: below) = (tree, .error (.notADirectory file.name)) := by
  induction front generalizing start with
  | nil =>
    obtain rfl := Except.ok.inj h_front
    rw [List.nil_append, makePath, child_of_file h_file h_content]
  | cons first front ih =>
    rw [follow] at h_front
    split at h_front
    · next next h_child =>
      rw [List.cons_append, makePath, h_child]
      exact ih h_front
    · cases h_front

/-- **Making a directory fails at a file** that has names below it in the path, and at nothing
else. -/
theorem WellFormed.mkdirp_eq_error_iff (h : tree.WellFormed) {env : Environment} {path : String}
    {e : Error} :
    (tree.mkdirp env path).2 = .error e ↔
      ∃ front name below blob, Path.segments env.cwd path = front ++ name :: below ∧
        tree.at? front = some (.file blob) ∧ e = .notADirectory (front.getLast?.getD "") := by
  rw [mkdirp_eq]
  constructor
  · intro h_fails
    obtain ⟨-, front, dir, name, below, h_names, h_front, h_child, h_other⟩ :=
      makePath_of_error (Prod.ext rfl h_fails)
    obtain ⟨file, blob, h_file, h_content⟩ :=
      exists_file_of_child (h.isLive_follow h.isLive_root h_front) h_child h_other
    have h_at : tree.at? front = some (.file blob) :=
      at?_eq_some_iff.2 ⟨dir, file, h_front, h_file, by rw [Node.entry, h_content]⟩
    rw [child_of_file h_file h_content, Except.error.injEq] at h_child
    exact ⟨front, name, below, blob, h_names, h_at, h.name_of_follow h_front h_file ▸ h_child.symm⟩
  · rintro ⟨front, name, below, blob, h_names, h_at, rfl⟩
    obtain ⟨id, file, h_front, h_file, h_entry⟩ := at?_eq_some_iff.1 h_at
    have h_content : file.content = .file blob := by
      unfold Node.entry at h_entry
      split at h_entry
      · cases h_entry
      · next h_content =>
        rw [h_content, Entry.file.inj h_entry]
    rw [h_names, makePath_of_file h_front h_file h_content, h.name_of_follow h_front h_file]

end Failing

/-! ### Several directories -/

section Several

variable {tree : Tree}

/-- **Outcomes do not depend on each other.** Directories that are made do not stand in the way, and
files are not made. -/
theorem WellFormed.outcome_mkdirp (h : tree.WellFormed) (env : Environment) (path other : String) :
    (tree.mkdirp env path).1.outcome env other = tree.outcome env other := by
  have h_after := h.mkdirp env path
  have h_file (place : List String) (blob : Blob) :
      (tree.mkdirp env path).1.at? place = some (.file blob) ↔
        tree.at? place = some (.file blob) := by
    simp [h.at?_mkdirp_iff env path]
  have h_error (e : Error) : (tree.mkdirp env path).1.outcome env other = .error e ↔
      tree.outcome env other = .error e := by
    simp only [outcome_eq_error_iff, h_after.mkdirp_eq_error_iff, h.mkdirp_eq_error_iff, h_file]
  -- two outcomes with the same errors are the same
  cases h_old : tree.outcome env other with
  | error e => exact (h_error e).2 h_old
  | ok _ =>
    cases h_new : (tree.mkdirp env path).1.outcome env other with
    | ok _ => rfl
    | error e =>
      have h_old' := (h_error e).1 h_new
      rw [h_old] at h_old'
      cases h_old'

theorem WellFormed.mkdirpAll (h : tree.WellFormed) (env : Environment) (paths : List String) :
    (tree.mkdirpAll env paths).1.WellFormed := by
  induction paths generalizing tree with
  | nil => exact h
  | cons path paths ih =>
    rw [mkdirpAll_cons]
    exact ih (h.mkdirp env path)

/-- **Each path has the outcome that it would have alone.** -/
theorem WellFormed.outcomes_mkdirpAll (h : tree.WellFormed) (env : Environment)
    (paths : List String) : (tree.mkdirpAll env paths).2 = paths.map (tree.outcome env) := by
  induction paths generalizing tree with
  | nil => rfl
  | cons path paths ih =>
    have h_others : (tree.mkdirp env path).1.outcome env = tree.outcome env :=
      funext (h.outcome_mkdirp env path)
    rw [mkdirpAll_cons, ih (h.mkdirp env path), h_others, List.map_cons]

/-- **What is there in the end** was there before, or is a directory on one of the paths that could
be made. -/
theorem WellFormed.at?_mkdirpAll_iff (h : tree.WellFormed) (env : Environment)
    (paths : List String) {place : List String} {entry : Entry} :
    (tree.mkdirpAll env paths).1.at? place = some entry ↔
      tree.at? place = some entry ∨
        (tree.at? place = none ∧ entry = .directory ∧
          ∃ path ∈ paths, tree.outcome env path = .ok () ∧
            place <+: Path.segments env.cwd path) := by
  induction paths generalizing tree with
  | nil => simp
  | cons path paths ih =>
    have h_first {e : Entry} := @h.at?_mkdirp_iff tree env path place e
    rw [mkdirpAll_cons, ih (h.mkdirp env path)]
    simp only [h.outcome_mkdirp, List.mem_cons, exists_eq_or_imp]
    cases h_old : tree.at? place with
    | some old =>
      have h_kept : (tree.mkdirp env path).1.at? place = some old := h_first.2 (.inl h_old)
      simp [h_kept]
    | none =>
      by_cases h_made : tree.outcome env path = .ok () ∧ place <+: Path.segments env.cwd path
      · have h_new : (tree.mkdirp env path).1.at? place = some .directory :=
          h_first.2 (.inr ⟨h_old, rfl, h_made⟩)
        simp [h_new, h_made, eq_comm]
      · have h_none : (tree.mkdirp env path).1.at? place = none := by
          refine Option.eq_none_iff_forall_ne_some.2 fun e h_e => ?_
          rcases h_first.1 h_e with h_some | ⟨-, -, h_there⟩
          · rw [h_old] at h_some
            cases h_some
          · exact h_made h_there
        simp [h_none, h_made]

/-- **Making directories commutes.** In whatever order the paths are taken, each has the outcome
that it would have alone, and in the end the tree holds the same. -/
theorem WellFormed.mkdirpAll_perm (h : tree.WellFormed) (env : Environment)
    {paths paths' : List String} (h_perm : paths.Perm paths') :
    (tree.mkdirpAll env paths).2 = paths.map (tree.outcome env) ∧
      (tree.mkdirpAll env paths').2 = paths'.map (tree.outcome env) ∧
      (tree.mkdirpAll env paths).1.holdings = (tree.mkdirpAll env paths').1.holdings := by
  refine ⟨h.outcomes_mkdirpAll env paths, h.outcomes_mkdirpAll env paths', ?_⟩
  refine (h.mkdirpAll env paths).holdings_congr (h.mkdirpAll env paths') ?_
  funext place
  refine Option.ext fun entry => ?_
  rw [h.at?_mkdirpAll_iff, h.at?_mkdirpAll_iff]
  -- the paths only matter as a set
  simp only [h_perm.mem_iff]

/-- Paths that overlap, repeat each other or go through a file. -/
def crossing : List String :=
  ["d/a/b", "f/x", "d/../c", "d/a", "d/a/b"]

/-- The file stands in the way of one path, first and last. -/
theorem WellFormed.mkdirpAll_perm_crossing :
    (Tree.empty.run [.createFile {} "f" (.plain "text")]).WellFormed ∧
      crossing.Perm crossing.reverse ∧
      ((Tree.empty.run [.createFile {} "f" (.plain "text")]).mkdirpAll {} crossing).2 =
        [.ok (), .error (.notADirectory "f"), .ok (), .ok (), .ok ()] ∧
      ((Tree.empty.run [.createFile {} "f" (.plain "text")]).mkdirpAll {} crossing).1.holdings =
        ((Tree.empty.run [.createFile {} "f" (.plain "text")]).mkdirpAll {}
          crossing.reverse).1.holdings := by
  have h_tree : (Tree.empty.run [.createFile {} "f" (.plain "text")]).WellFormed :=
    WellFormed.empty.run _
  have h_perm : crossing.Perm crossing.reverse := (List.reverse_perm crossing).symm
  obtain ⟨h_outcomes, -, h_holdings⟩ := h_tree.mkdirpAll_perm {} h_perm
  exact ⟨h_tree, h_perm, h_outcomes.trans (by rfl), h_holdings⟩

end Several

end PocketShell.Tree
