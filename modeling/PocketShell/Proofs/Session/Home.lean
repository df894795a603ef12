import PocketShell.Proofs.Session.Registering
import PocketShell.Proofs.Tree.Directories
import PocketShell.Proofs.Tree.Standard

/-!
# The home directory of the user

The tree of a new session has a directory for the user. Its name is a reference in the manifest, and
what stands for the reference is the value of the variable, whatever that is
(`Manifest.listing_standard`). So there is always a directory with the name of the user, the only
one in `/home`, and the path that is put together from its names is `/home/` with the name of the
user behind it.

Following this path is another matter. A path is cut at each `/`, and empty and dotted pieces stand
for no step down. The directory is found under its own path exactly if the name of the user is one
step down (`Path.IsSegment`); otherwise no path at all leads to it (`Session.home_follows_user`).
-/

namespace PocketShell

namespace Tree

variable {tree : Tree} {dir : Nat} {names : List String}

/-- A child of a directory is in the view, behind the names of the directory. -/
theorem WellFormed.exists_at?_of_mem_children (h : tree.WellFormed)
    (h_dir : tree.follow root names = .ok dir) {id : Nat} (h_mem : id ∈ tree.children dir) :
    ∃ name entry, tree.child dir name = .ok id ∧ tree.at? (names ++ [name]) = some entry := by
  obtain ⟨name, h_child⟩ := mem_children_iff.1 h_mem
  obtain ⟨node, h_node, -⟩ := h.child_of h_child
  have h_follow : tree.follow root (names ++ [name]) = .ok id :=
    follow_append_singleton.2 ⟨dir, h_dir, h_child⟩
  exact ⟨name, node.entry, h_child, at?_eq_some_iff.2 ⟨id, node, h_follow, h_node, rfl⟩⟩

/-- The only name in a directory leads to its only child. -/
theorem WellFormed.children_eq_singleton (h : tree.WellFormed)
    (h_dir : tree.follow root names = .ok dir) {only : String} {id : Nat}
    (h_child : tree.child dir only = .ok id)
    (h_only : ∀ name entry, tree.at? (names ++ [name]) = some entry → name = only) :
    tree.children dir = [id] := by
  have h_mem : ∀ other, other ∈ tree.children dir ↔ other ∈ [id] := by
    intro other
    rw [List.mem_singleton]
    constructor
    · intro h_other
      obtain ⟨name, entry, h_name, h_at⟩ := h.exists_at?_of_mem_children h_dir h_other
      rw [h_only name entry h_at, h_child] at h_name
      exact (Except.ok.inj h_name).symm
    · rintro rfl
      exact mem_children_iff.2 ⟨only, h_child⟩
  have h_nodup : (tree.children dir).Nodup := (h.increasing dir).imp Nat.ne_of_lt
  exact List.perm_singleton.1
    ((List.perm_ext_iff_of_nodup h_nodup (List.nodup_singleton id)).2 h_mem)

/-- A directory that has children leads nowhere under a name that none of them has. -/
theorem child_eq_error (h_some : tree.children dir ≠ []) {name : String}
    (h_none : ∀ id, tree.child dir name ≠ .ok id) :
    tree.child dir name = .error (.noSuchNode name (tree.name dir)) := by
  unfold children at h_some
  unfold child at h_none ⊢
  cases h_node : tree.node? dir with
  | none => simp [h_node] at h_some
  | some node =>
    simp only [h_node] at h_none ⊢
    cases h_content : node.content with
    | file _ => simp [h_node, Node.children?, h_content] at h_some
    | directory children =>
      simp only [h_content] at h_none ⊢
      cases h_find : children.find? name with
      | none => simp [Tree.name, h_node]
      | some id => simp [h_find] at h_none

end Tree

namespace Session

open PocketShell.Tree (root)

variable {session : Session}

/-- The directory of the user is alone in the directory of all users, and empty. -/
theorem exists_home {options : Options} (h_start : start options = .ok session)
    (h_seeded : options.seeded = true)
    (h_extra : ∀ binding ∈ options.extraVariables, binding.1 ≠ Environment.userName) :
    session.tree.WellFormed ∧ ∃ home own, session.tree.follow root ["home"] = .ok home ∧
      session.tree.follow root ["home", options.user] = .ok own ∧
      session.tree.child home options.user = .ok own ∧ session.tree.children home = [own] ∧
      session.tree.isDirectory own = true ∧ session.tree.children own = [] := by
  obtain ⟨-, h_build, -⟩ := of_start h_start
  rw [if_pos h_seeded] at h_build
  have h_user : session.env.bindings.find? Environment.userName = some options.user :=
    find?_env_of_start h_start (by simp) h_extra
  obtain ⟨h_tree, h_listing⟩ := Manifest.listing_standard h_build h_user
  -- what is in the directory of all users, and in the one of this user
  have h_home : session.tree.at? ["home"] = some .directory :=
    h_tree.mem_listing_iff.1 (by simp [h_listing])
  have h_own : session.tree.at? ["home", options.user] = some .directory :=
    h_tree.mem_listing_iff.1 (by simp [h_listing])
  have h_only : ∀ name entry, session.tree.at? ["home", name] = some entry →
      name = options.user := by
    intro name entry h_at
    have h_mem : name = options.user ∧ entry = .directory := by
      simpa [h_listing] using h_tree.mem_listing_iff.2 h_at
    exact h_mem.1
  have h_none : ∀ name entry, session.tree.at? ["home", options.user, name] ≠ some entry := by
    intro name entry h_at
    simpa [h_listing] using h_tree.mem_listing_iff.2 h_at
  obtain ⟨home, -, h_follow_home, -, -⟩ := Tree.at?_eq_some_iff.1 h_home
  obtain ⟨own, node, h_follow, h_node, h_entry⟩ := Tree.at?_eq_some_iff.1 h_own
  have h_child : session.tree.child home options.user = .ok own := by
    obtain ⟨dir, h_dir, h_child⟩ := (@Tree.follow_append_singleton _ _ _ ["home"] _).1 h_follow
    rw [h_follow_home] at h_dir
    exact Except.ok.inj h_dir ▸ h_child
  have h_unnamed : session.tree.children own = [] := by
    refine List.eq_nil_iff_forall_not_mem.2 fun other h_other => ?_
    obtain ⟨name, entry, -, h_at⟩ := h_tree.exists_at?_of_mem_children h_follow h_other
    exact h_none name entry h_at
  have h_directory : session.tree.isDirectory own = true := by
    unfold Node.entry at h_entry
    split at h_entry
    · next children h_content =>
      have h_children := Node.children?_eq_some_iff.2 h_content
      exact Tree.isDirectory_iff.2 ⟨node, children, h_node, h_children⟩
    · cases h_entry
  exact ⟨h_tree, home, own, h_follow_home, h_follow, h_child,
    h_tree.children_eq_singleton h_follow_home h_child h_only, h_directory, h_unnamed⟩

/-- The path that is put together from the names leads to the directory of the user. -/
theorem exists_get_home {options : Options} (h_start : start options = .ok session)
    (h_seeded : options.seeded = true)
    (h_extra : ∀ binding ∈ options.extraVariables, binding.1 ≠ Environment.userName)
    (h_segments : ∀ segment ∈ ["home", options.user], Path.IsSegment segment) :
    ∃ own, session.tree.get session.env (Path.render ["home", options.user]) = .ok own ∧
      session.tree.isDirectory own = true := by
  obtain ⟨-, home, own, -, h_follow, -, -, h_directory, -⟩ :=
    exists_home h_start h_seeded h_extra
  rw [Tree.get_render _ _ h_segments]
  exact ⟨own, h_follow, h_directory⟩

/-- **Nobody else has a home directory.** -/
theorem get_home_of_ne {options : Options} (h_start : start options = .ok session)
    (h_seeded : options.seeded = true)
    (h_extra : ∀ binding ∈ options.extraVariables, binding.1 ≠ Environment.userName)
    {name : String} {rest : List String} (h_ne : name ≠ options.user)
    (h_segments : ∀ segment ∈ "home" :: name :: rest, Path.IsSegment segment) :
    session.tree.get session.env (Path.render ("home" :: name :: rest)) =
      .error (.noSuchNode name "home") := by
  obtain ⟨h_tree, home, own, h_home, -, h_own, h_children, -, -⟩ :=
    exists_home h_start h_seeded h_extra
  rw [Tree.follow_singleton] at h_home
  have h_none : ∀ id, session.tree.child home name ≠ .ok id := by
    intro id h_child
    have h_mem := Tree.mem_children_iff.2 ⟨name, h_child⟩
    rw [h_children, List.mem_singleton] at h_mem
    -- the only child has another name
    have h_name := h_tree.name_of_child h_child
    rw [h_mem, h_tree.name_of_child h_own] at h_name
    exact h_ne h_name.symm
  have h_error := Tree.child_eq_error (h_children ▸ List.cons_ne_nil own []) h_none
  rw [h_tree.name_of_child h_home] at h_error
  rw [Tree.get_render _ _ h_segments, Tree.follow, h_home]
  simp only [Tree.follow, h_error]

/-- **The home directory follows the user,** as far as there is a path to it. -/
theorem home_follows_user {options : Options} (h_start : start options = .ok session)
    (h_seeded : options.seeded = true)
    (h_extra : ∀ binding ∈ options.extraVariables, binding.1 ≠ Environment.userName) :
    ∃ home own, session.tree.get session.env "/home" = .ok home ∧
      session.tree.children home = [own] ∧
      session.tree.isDirectory own = true ∧ session.tree.name own = options.user ∧
      session.tree.parent? own = some home ∧ session.tree.children own = [] ∧
      session.tree.absolutePath own = .ok ("/home/" ++ options.user) ∧
      (session.tree.get session.env ("/home/" ++ options.user) = .ok own ↔
        Path.IsSegment options.user) ∧
      (¬ Path.IsSegment options.user → ∀ env path, session.tree.get env path ≠ .ok own) := by
  obtain ⟨h_tree, home, own, h_follow_home, h_follow, h_child, h_only, h_directory, h_unnamed⟩ :=
    exists_home h_start h_seeded h_extra
  have h_path : Path.render ["home", options.user] = "/home/" ++ options.user := by
    have h_top : Path.render ["home"] ++ "/" = "/home/" := rfl
    rw [← h_top]
    exact Path.render_append_singleton (List.cons_ne_nil "home" []) options.user
  have h_segment : Path.IsSegment "home" := by decide
  -- whatever path leads to the directory denotes its names
  have h_leads : ∀ env path, session.tree.get env path = .ok own → Path.IsSegment options.user := by
    intro env path h_get
    rw [Tree.get_eq_follow] at h_get
    apply @Path.isSegment_of_mem_segments env.cwd path
    rw [h_tree.follow_inj h_get h_follow]
    exact List.mem_cons_of_mem _ List.mem_cons_self
  refine ⟨home, own, ?_, h_only, h_directory, h_tree.name_of_child h_child,
    h_tree.parent?_of_child h_child, h_unnamed, ?_, ⟨h_leads _ _, ?_⟩,
    fun h_no env path h_get => h_no (h_leads env path h_get)⟩
  · have h_top : Path.render ["home"] = "/home" := rfl
    rw [← h_top, Tree.get_render _ _ (List.forall_mem_singleton.2 h_segment), h_follow_home]
  · rw [h_tree.absolutePath_of_follow h_follow, h_path]
  · intro h_own_segment
    have h_names : ∀ name ∈ ["home", options.user], Path.IsSegment name :=
      List.forall_mem_cons.2 ⟨h_segment, List.forall_mem_singleton.2 h_own_segment⟩
    rw [← h_path, Tree.get_render _ _ h_names, h_follow]

/-- A user whose name has a blank and what looks like a reference lives where expected. -/
theorem home_follows_user_referring :
    ∃ session home own,
      start { user := "a $USER", extraVariables := [("CWD", "tmp")] } = .ok session ∧
      session.tree.get session.env "/home" = .ok home ∧ session.tree.children home = [own] ∧
      session.tree.get session.env "/home/a $USER" = .ok own ∧
      session.tree.absolutePath own = .ok "/home/a $USER" := by
  have h_extra : ∀ binding ∈ [("CWD", "tmp")], binding.1 ≠ Environment.userName := by decide
  have h_segment : Path.IsSegment "a $USER" := by decide
  obtain ⟨session, h_start⟩ :=
    @exists_start { user := "a $USER", extraVariables := [("CWD", "tmp")] } _ rfl
  obtain ⟨home, own, h_home, h_children, -, -, -, -, h_path, h_get, -⟩ :=
    home_follows_user h_start rfl h_extra
  exact ⟨session, home, own, h_start, h_home, h_children, h_get.2 h_segment, h_path⟩

/-- The home directory of a user whose name has a separator is out of reach. -/
theorem home_out_of_reach :
    ∃ session, start { user := "a/b" } = .ok session ∧
      session.tree.get session.env ("/home/" ++ "a/b") = .error (.noSuchNode "a" "home") := by
  obtain ⟨session, h_start⟩ := @exists_start { user := "a/b" } _ rfl
  have h_get := @get_home_of_ne session _ h_start rfl (List.forall_mem_nil _) "a" ["b"] (by decide)
    (by decide)
  have h_path : Path.render ["home", "a", "b"] = "/home/" ++ "a/b" := by decide +kernel
  exact ⟨session, h_start, h_path ▸ h_get⟩

end Session

end PocketShell
