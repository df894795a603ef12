import Mathlib.Data.List.Induction
import PocketShell.Proofs.Tree.Run

/-!
# Addresses

Three readings of a place meet here: what a path denotes, where its segments lead from the root, and
the names on the way up from a node. In a well-formed tree the way down and the way up are the same
way (`WellFormed.follow_iff_ascent?`). If the names of the tree are segments, the path of a node is
therefore the one resolved path that leads to it (`WellFormed.get_iff_absolutePath`).

The names are segments (`Tree.Named Path.IsSegment`) as long as nodes get their names from paths, or
are given names that are segments: a step keeps the names as they are or adds a new one
(`Named.step`). A name with a `/` in it would be followed in two steps, and the empty name and the
dotted ones would not be followed at all.
-/

namespace PocketShell.Tree

/-! ### Names -/

/-- The names under which directories lead to nodes. -/
def Named (Name : String → Prop) (tree : Tree) : Prop :=
  ∀ {dir id : Nat} {name : String}, tree.child dir name = .ok id → Name name

theorem Named.empty (Name : String → Prop) : Named Name Tree.empty :=
  fun h_child => absurd h_child (child_empty_ne_ok _ _ _)

/-- **A step adds one name at most.** -/
theorem Named.step {Name : String → Prop} {tree after : Tree} (h : tree.WellFormed)
    (h_named : tree.Named Name) (h_step : Step Name tree after) : after.Named Name := by
  intro dir id name h_child
  cases h_step with
  | put h_name h_fresh h_put =>
    obtain ⟨node, children, h_node, h_content, h_none, h_eq⟩ := put_eq_ok_iff.1 h_put
    cases h_eq
    rcases (child_attach_iff h_node h_content h_none h_fresh).1 h_child with h_old | ⟨-, rfl, -⟩
    · exact h_named h_old
    · exact h_name
  | removeNode h_remove =>
    obtain ⟨-, h_removed, -⟩ := h.removed_of_removeNode h_remove
    exact h_named ((h_removed.child_iff h).1 h_child).1

theorem Named.steps {Name : String → Prop} {tree after : Tree} (h : tree.WellFormed)
    (h_named : tree.Named Name) (h_steps : Steps Name tree after) : after.Named Name := by
  induction h_steps with
  | refl => exact h_named
  | tail h_before h_step ih => exact Named.step (h.steps h_before) ih h_step

/-! ### The way down and the way up -/

section Ways

variable {tree : Tree}

/-- **Following names** is following the first ones and then the others. -/
theorem follow_append {start id : Nat} {front below : List String} :
    tree.follow start (front ++ below) = .ok id ↔
      ∃ middle, tree.follow start front = .ok middle ∧ tree.follow middle below = .ok id := by
  induction front generalizing start with
  | nil => simp [follow]
  | cons name front ih =>
    rw [List.cons_append, follow, follow]
    cases h_child : tree.child start name with
    | error e => simp
    | ok next => exact ih

theorem follow_singleton {start id : Nat} {name : String} :
    tree.follow start [name] = .ok id ↔ tree.child start name = .ok id := by
  rw [follow]
  cases h_child : tree.child start name with
  | error e => simp
  | ok next => simp [follow]

theorem follow_append_singleton {start id : Nat} {names : List String} {last : String} :
    tree.follow start (names ++ [last]) = .ok id ↔
      ∃ dir, tree.follow start names = .ok dir ∧ tree.child dir last = .ok id := by
  simp only [follow_append, follow_singleton]

theorem WellFormed.ascent?_of_child (h : tree.WellFormed) {dir id : Nat} {name : String}
    (h_child : tree.child dir name = .ok id) :
    tree.ascent? id = (tree.ascent? dir).map fun names => name :: names := by
  obtain ⟨node, h_node, rfl, h_parent⟩ := h.child_of h_child
  exact ascent?_of_parent h_node h_parent (h.lt_of_child h_child)

/-- Every way up starts at a node: at the root, or below a directory. -/
theorem WellFormed.eq_root_or_child (h : tree.WellFormed) {id : Nat} {names : List String}
    (h_ascent : tree.ascent? id = some names) :
    id = root ∨ ∃ dir name, tree.child dir name = .ok id := by
  by_cases h_root : id = root
  · exact .inl h_root
  · cases h_node : tree.node? id with
    | none =>
      rw [ascent?, h_node] at h_ascent
      cases h_ascent
    | some node =>
      obtain ⟨dir, -, -, h_child⟩ := h.parent_of h_node h_root
      exact .inr ⟨dir, node.name, h_child⟩

/-- **The way down is the way up.** Names lead from the root to a node exactly if the node meets
them, and then the root, on its way up. -/
theorem WellFormed.follow_iff_ascent? (h : tree.WellFormed) {id : Nat} {names : List String} :
    tree.follow root names = .ok id ↔ tree.ascent? id = some (names.reverse ++ [""]) := by
  -- from the last name on, since the way up meets the last name first
  induction names using List.reverseRecOn generalizing id with
  | nil =>
    constructor
    · intro h_follow
      cases h_follow
      exact h.ascent?_root
    · intro h_ascent
      rcases h.eq_root_or_child h_ascent with rfl | ⟨dir, name, h_child⟩
      · rfl
      · -- a way up from below a directory has two names at least
        obtain ⟨above, h_above, h_eq⟩ :=
          Option.map_eq_some_iff.1 ((h.ascent?_of_child h_child).symm.trans h_ascent)
        obtain ⟨-, rfl⟩ := List.cons.inj h_eq
        rcases h.eq_root_or_child h_above with rfl | ⟨upper, name', h_upper⟩
        · rw [h.ascent?_root] at h_above
          cases h_above
        · rw [h.ascent?_of_child h_upper] at h_above
          obtain ⟨_, -, h_nil⟩ := Option.map_eq_some_iff.1 h_above
          cases h_nil
  | append_singleton names last ih =>
    rw [follow_append_singleton, List.reverse_append]
    constructor
    · rintro ⟨dir, h_follow, h_child⟩
      rw [h.ascent?_of_child h_child, ih.1 h_follow]
      rfl
    · intro h_ascent
      -- the last name on the way down is the first one on the way up
      rcases h.eq_root_or_child h_ascent with rfl | ⟨dir, name, h_child⟩
      · rw [h.ascent?_root] at h_ascent
        simp at h_ascent
      · obtain ⟨above, h_above, h_eq⟩ :=
          Option.map_eq_some_iff.1 ((h.ascent?_of_child h_child).symm.trans h_ascent)
        obtain ⟨rfl, rfl⟩ := List.cons.inj h_eq
        exact ⟨dir, ih.2 h_above, h_child⟩

/-- The path of a node is written with the names that lead to it. -/
theorem WellFormed.absolutePath_of_follow (h : tree.WellFormed) {id : Nat} {names : List String}
    (h_follow : tree.follow root names = .ok id) :
    tree.absolutePath id = .ok (Path.render names) := by
  have h_names : (names.reverse ++ [""]).reverse = "" :: names := by simp
  rw [absolutePath, h.follow_iff_ascent?.1 h_follow]
  simp only [h_names]
  by_cases h_nil : names = []
  · subst h_nil
    rfl
  · rw [String.intercalate_cons_of_ne_nil h_nil, Path.render]
    simp

theorem Named.of_follow {Name : String → Prop} (h_named : tree.Named Name) {start id : Nat}
    {names : List String} (h_follow : tree.follow start names = .ok id) :
    ∀ name ∈ names, Name name := by
  induction names generalizing start with
  | nil => exact fun _ h_mem => nomatch h_mem
  | cons name names ih =>
    rw [follow] at h_follow
    split at h_follow
    · next next h_child =>
      intro other h_mem
      rcases List.mem_cons.1 h_mem with rfl | h_rest
      · exact h_named h_child
      · exact ih h_follow other h_rest
    · cases h_follow

/-- **Every node has an address:** the names of the tree that lead to it. -/
theorem WellFormed.exists_follow (h : tree.WellFormed) {id : Nat}
    (h_live : tree.isLive id = true) : ∃ names, tree.follow root names = .ok id := by
  induction h.reaches_root h_live using Relation.ReflTransGen.head_induction_on with
  | refl => exact ⟨[], rfl⟩
  | head h_step _ ih =>
    have h_child := h.child_of_parent? h_step.1
    obtain ⟨names, h_follow⟩ := ih (isLive_of_child h_child)
    exact ⟨names ++ [_], follow_append_singleton.2 ⟨_, h_follow, h_child⟩⟩

end Ways

/-! ### Paths and nodes -/

section Paths

variable {tree : Tree}

theorem isLive_of_absolutePath {id : Nat} {path : String}
    (h_path : tree.absolutePath id = .ok path) : tree.isLive id = true := by
  rw [isLive_iff]
  cases h_node : tree.node? id with
  | none =>
    rw [absolutePath, ascent?, h_node] at h_path
    cases h_path
  | some node => exact ⟨node, rfl⟩

/-- **A path leads to the node whose path it resolves to.** -/
theorem WellFormed.get_iff_absolutePath (h : tree.WellFormed)
    (h_named : tree.Named Path.IsSegment) (env : Environment) (path : String) (id : Nat) :
    tree.get env path = .ok id ↔ tree.absolutePath id = .ok (resolve env path) := by
  rw [get_eq_follow]
  constructor
  · exact h.absolutePath_of_follow
  · intro h_path
    obtain ⟨names, h_follow⟩ := h.exists_follow (isLive_of_absolutePath h_path)
    rw [h.absolutePath_of_follow h_follow, Except.ok.injEq] at h_path
    -- two lists of segments that are written in the same way are the same
    have h_names : names = Path.segments env.cwd path :=
      (Path.render_inj (h_named.of_follow h_follow) Path.isSegment_of_mem_segments).1 h_path
    exact h_names ▸ h_follow

/-- The path of a node leads to it, whatever the working directory is. -/
theorem WellFormed.get_absolutePath (h : tree.WellFormed) (h_named : tree.Named Path.IsSegment)
    (env : Environment) {id : Nat} {path : String} (h_path : tree.absolutePath id = .ok path) :
    tree.get env path = .ok id := by
  obtain ⟨names, h_follow⟩ := h.exists_follow (isLive_of_absolutePath h_path)
  rw [h.absolutePath_of_follow h_follow, Except.ok.injEq] at h_path
  -- what is written with segments is read as these segments
  rw [← h_path, get_render tree env (h_named.of_follow h_follow)]
  exact h_follow

end Paths

/-- **Paths and nodes correspond,** in every tree that is made of segments. A path leads to a node
exactly if it resolves to the path of the node; the path of a node leads back to it from every
working directory; no two nodes have the same path; and a path leads nowhere exactly if no node has
the path that it resolves to. -/
theorem paths_correspond {changes : List Change}
    (h_given : ∀ change ∈ changes, ∀ name ∈ change.givenName?, Path.IsSegment name) :
    (∀ env path id, (Tree.empty.run changes).get env path = .ok id ↔
      (Tree.empty.run changes).absolutePath id = .ok (resolve env path)) ∧
    (∀ env id, (Tree.empty.run changes).isLive id = true →
      ∃ path, (Tree.empty.run changes).absolutePath id = .ok path ∧
        (Tree.empty.run changes).get env path = .ok id) ∧
    (∀ id id' path, (Tree.empty.run changes).absolutePath id = .ok path →
      (Tree.empty.run changes).absolutePath id' = .ok path → id = id') ∧
    (∀ env path, (∃ e, (Tree.empty.run changes).get env path = .error e) ↔
      ¬ ∃ id, (Tree.empty.run changes).isLive id = true ∧
        (Tree.empty.run changes).absolutePath id = .ok (resolve env path)) := by
  have h := WellFormed.empty.run changes
  have h_named : (Tree.empty.run changes).Named Path.IsSegment :=
    Named.steps .empty (Named.empty _) (run_steps (fun _ h_name => h_name) h_given)
  have h_iff := h.get_iff_absolutePath h_named
  refine ⟨h_iff, fun env id h_live => ?_, fun id id' path h_path h_path' => ?_, fun env path => ?_⟩
  · obtain ⟨path, h_path⟩ := h.exists_absolutePath h_live
    exact ⟨path, h_path, h.get_absolutePath h_named env h_path⟩
  · have h_get := h.get_absolutePath h_named {} h_path
    have h_get' := h.get_absolutePath h_named {} h_path'
    exact Except.ok.inj (h_get.symm.trans h_get')
  · constructor
    · rintro ⟨e, h_error⟩ ⟨id, -, h_path⟩
      rw [(h_iff env path id).2 h_path] at h_error
      cases h_error
    · intro h_none
      cases h_get : (Tree.empty.run changes).get env path with
      | error e => exact ⟨e, rfl⟩
      | ok id => exact absurd ⟨id, h.isLive_get h_get, (h_iff env path id).1 h_get⟩ h_none

/-- In the tree of `filling`, the file is where its path says. -/
theorem paths_correspond_filling :
    (∀ change ∈ filling, ∀ name ∈ change.givenName?, Path.IsSegment name) ∧
      (Tree.empty.run filling).isLive 3 = true ∧
      ∃ path, (Tree.empty.run filling).absolutePath 3 = .ok path ∧
        (Tree.empty.run filling).get {} path = .ok 3 := by
  have h_given : ∀ change ∈ filling, ∀ name ∈ change.givenName?, Path.IsSegment name := by
    simp [filling, Change.givenName?, Path.IsSegment]
  have h_live : (Tree.empty.run filling).isLive 3 = true := by decide +kernel
  exact ⟨h_given, h_live, (paths_correspond h_given).2.1 {} 3 h_live⟩

end PocketShell.Tree
