import PocketShell.Proofs.Tree.Directories
import PocketShell.Proofs.Tree.Run

/-!
# Moving through a tree

Whoever changes the working directory twice could have changed it once. The working directory is a
text, so this is a fact about paths first: a path that is read behind a resolved one denotes what
the two paths denote when they are written one behind the other (`Path.segments_resolve`). A step
along such a path needs nothing of the way to it but where it has led, and where it leads is all
that is stored (`cd_eq_ok_iff`); so a tree in which both steps succeed lets one make them at once,
and the variables are the same in the end (`cd_cd`).

The tree may be any tree here, and the working directory any text: relative, with dots in it, or
with a `/` at its end. Only what is stored is normal.
-/

namespace PocketShell.Tree

variable {tree : Tree} {env middle after : Environment}

/-- The working directory is what it was changed to. -/
theorem cwd_of_cd {path : String} (h : tree.cd env path = .ok middle) :
    middle.cwd = resolve env path := by
  obtain ⟨-, h_put⟩ := cd_eq_ok_iff.1 h
  have h_get : middle.get Environment.cwdName = resolve env path := Environment.get_put_self h_put
  have h_some : resolve env path ≠ "" := by simp [resolve, Path.resolve, Path.render]
  rw [Environment.cwd, h_get, if_neg h_some]

/-- **Two changes at once.** If a path denotes, from the start, what the second one denotes behind
the first, then changing to it succeeds where both changes succeed, with the same variables. -/
theorem cd_cd {front back path : String} (h_front : tree.cd env front = .ok middle)
    (h_back : tree.cd middle back = .ok after)
    (h_path : Path.segments (resolve env front) back = Path.segments env.cwd path) :
    tree.cd env path = .ok after := by
  obtain ⟨⟨id, h_get, h_dir⟩, h_put⟩ := cd_eq_ok_iff.1 h_back
  obtain ⟨-, h_first⟩ := cd_eq_ok_iff.1 h_front
  -- the second change resolves its path to what the one change resolves to
  have h_same : Path.segments middle.cwd back = Path.segments env.cwd path := by
    rw [cwd_of_cd h_front, h_path]
  have h_resolve : resolve middle back = resolve env path := by
    show Path.render (Path.segments middle.cwd back) = Path.render (Path.segments env.cwd path)
    rw [h_same]
  refine cd_eq_ok_iff.2 ⟨⟨id, ?_, h_dir⟩, ?_⟩
  · rw [get_eq_follow, ← h_same, ← get_eq_follow]
    exact h_get
  · -- the first value of the variable does not matter any more
    rw [← h_resolve, ← Environment.put_put h_first]
    exact h_put

/-- **Resolving is normal, stable and goes step by step.** For all working directories and paths:

* what a path resolves to is normal, and the normal paths are those that resolve to themselves;
* it resolves to itself in every working directory;
* if the first path is not empty and the second not absolute, then resolving the second behind the
  first is resolving both with a `/` in between, and two changes of the working directory that
  succeed can be made at once, with the same variables in the end;
* an empty first path, and any path before an absolute one, may be left out instead. -/
theorem resolve_composes (cwd other front back : String) :
    (Path.IsNormal (Path.resolve cwd front) ∧
      ∀ path, Path.IsNormal path ↔ ∀ cwd, Path.resolve cwd path = path) ∧
    Path.resolve other (Path.resolve cwd front) = Path.resolve cwd front ∧
    (front ≠ "" → ¬ Path.IsAbsolute back →
      Path.resolve (Path.resolve cwd front) back = Path.resolve cwd (front ++ "/" ++ back) ∧
        ∀ (tree : Tree) (env middle after : Environment),
          tree.cd env front = .ok middle → tree.cd middle back = .ok after →
            tree.cd env (front ++ "/" ++ back) = .ok after) ∧
    (front = "" ∨ Path.IsAbsolute back →
      Path.resolve (Path.resolve cwd front) back = Path.resolve cwd back ∧
        ∀ (tree : Tree) (env middle after : Environment),
          tree.cd env front = .ok middle → tree.cd middle back = .ok after →
            tree.cd env back = .ok after) := by
  refine ⟨⟨Path.isNormal_render Path.isSegment_of_mem_segments, Path.isNormal_iff⟩,
    Path.resolve_resolve other cwd front, ?_, ?_⟩
  · intro h_front h_back
    have h_segments := Path.segments_resolve h_front h_back
    refine ⟨congrArg Path.render (h_segments cwd), ?_⟩
    intro tree env middle after h_first h_second
    exact cd_cd h_first h_second (h_segments env.cwd)
  · intro h_either
    have h_segments (cwd : String) :
        Path.segments (Path.resolve cwd front) back = Path.segments cwd back := by
      rcases h_either with rfl | h_absolute
      · exact Path.segments_resolve_empty cwd back
      · exact Path.segments_of_isAbsolute h_absolute _ _
    refine ⟨congrArg Path.render (h_segments cwd), ?_⟩
    intro tree env middle after h_first h_second
    exact cd_cd h_first h_second (h_segments env.cwd)

/-- From a working directory that is relative, dotted and ends in `/`, first down, and then up into
the part that the working directory was; and the same with an absolute path at the end. -/
theorem resolve_composes_up :
    let tree := Tree.empty.run [.mkdirp {} "d/e/f", .mkdirp {} "d/g"]
    let placed (cwd : String) : Environment := ⟨(∅ : OrderedMap String).insert "CWD" cwd⟩
    ("f" ≠ "" ∧ ¬ Path.IsAbsolute "../../g") ∧ ("f" = "" ∨ Path.IsAbsolute "/d/g") ∧
      Path.resolve (Path.resolve "d/./e/" "f") "../../g" = Path.resolve "d/./e/" "f/../../g" ∧
      tree.cd (placed "d/./e/") "f" = .ok (placed "/d/e/f") ∧
      tree.cd (placed "/d/e/f") "../../g" = .ok (placed "/d/g") ∧
      tree.cd (placed "d/./e/") "f/../../g" = .ok (placed "/d/g") ∧
      tree.cd (placed "/d/e/f") "/d/g" = .ok (placed "/d/g") ∧
      tree.cd (placed "d/./e/") "/d/g" = .ok (placed "/d/g") := by
  intro tree placed
  have h_relative : "f" ≠ "" ∧ ¬ Path.IsAbsolute "../../g" := by decide
  have h_absolute : "f" = "" ∨ Path.IsAbsolute "/d/g" := by decide
  have h_move {cwd path target : String} (id : Nat)
      (h_get : tree.get (placed cwd) path = .ok id) (h_dir : tree.isDirectory id = true)
      (h_target : resolve (placed cwd) path = target) :
      tree.cd (placed cwd) path = .ok (placed target) := by
    refine cd_eq_ok_iff.2 ⟨⟨id, h_get, h_dir⟩, ?_⟩
    rw [h_target, Environment.put, if_neg (by decide)]
    have h_map := OrderedMap.insert_insert ∅ "CWD" cwd target
    exact congrArg (fun map => Except.ok (Environment.mk map)) h_map
  have h_down : tree.cd (placed "d/./e/") "f" = .ok (placed "/d/e/f") :=
    h_move 3 (by decide +kernel) (by decide +kernel) (by decide +kernel)
  have h_up : tree.cd (placed "/d/e/f") "../../g" = .ok (placed "/d/g") :=
    h_move 4 (by decide +kernel) (by decide +kernel) (by decide +kernel)
  have h_there : tree.cd (placed "/d/e/f") "/d/g" = .ok (placed "/d/g") :=
    h_move 4 (by decide +kernel) (by decide +kernel) (by decide +kernel)
  clear_value tree placed
  obtain ⟨h_resolve, h_once⟩ :=
    (resolve_composes "d/./e/" "/" "f" "../../g").2.2.1 h_relative.1 h_relative.2
  obtain ⟨-, h_alone⟩ := (resolve_composes "d/./e/" "/" "f" "/d/g").2.2.2 h_absolute
  exact ⟨h_relative, h_absolute, h_resolve, h_down, h_up, h_once _ _ _ _ h_down h_up, h_there,
    h_alone _ _ _ _ h_down h_there⟩

end PocketShell.Tree
