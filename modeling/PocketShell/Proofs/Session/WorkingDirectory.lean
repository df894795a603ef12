import PocketShell.Proofs.Session.Execution
import PocketShell.Proofs.Session.Registering
import PocketShell.Proofs.Tree.Directories

/-!
# The working directory

The working directory of a session is the text of a variable, and nothing ties it to the tree but
what commands do. `Session.Placed` is the invariant: the tree is well formed, and the text is the
path of a directory in it.

* A command that works on the tree keeps every directory with its path
  (`Builtin.run_keepsDirectories`), so the text stays the path of a directory;
* `cd` stores the path that it has looked up;
* `set` may store anything. A line that executes `set` for a variable is one that assigns the
  variable, `Session.Assigns`, and all other lines leave the variable as it is unless they change
  the working directory.

So the invariant is kept by every line that does not assign the working directory (`Placed.invoke`).
`Session.cwd_never_dangles` is what follows for a session from its start.
-/

namespace PocketShell

namespace Session

/-- **Invoking lines** one after the other: the session that is left behind. -/
def invokeAll (session : Session) (lines : List String) : Session :=
  lines.foldl (fun session line => (session.invoke line).session) session

/-- **Assigning a variable:** the line executes `set` with a pair for the variable. -/
def Assigns (session : Session) (line key : String) : Prop :=
  isVariableName key = true ∧
    ∃ args value, session.Executes line .set args ∧ .ok ⟨key, value⟩ ∈ Pair.parse args

/-- **Sparing a variable:** no line assigns it when its turn comes. -/
def Spares (session : Session) (key : String) : List String → Prop
  | [] => True
  | line :: lines => ¬ session.Assigns line key ∧ (session.invoke line).session.Spares key lines

/-- **Placed sessions.** The tree is well formed, and the working directory is the path of one of
its directories. -/
structure Placed (session : Session) : Prop where
  tree : session.tree.WellFormed
  cwd : session.tree.HasDirectory (session.env.get Environment.cwdName)

variable {session : Session}

/-- A line that executes another command assigns nothing. -/
theorem not_assigns_of_executed? {line key : String}
    (h : (session.executed? line).map Prod.fst ≠ some .set) : ¬ session.Assigns line key := by
  rintro ⟨-, args, value, h_set, -⟩
  rw [executes_iff.1 h_set] at h
  exact h rfl

/-- Pairs for other variables leave a variable alone. -/
theorem get_setAll {key : String} {pairs : List (Except Error Pair)}
    (h_other : ∀ value, .ok ⟨key, value⟩ ∉ pairs) :
    (session.setAll pairs).session.env.get key = session.env.get key := by
  induction pairs generalizing session with
  | nil => rfl
  | cons pair pairs ih =>
    have h_rest : ∀ value, .ok ⟨key, value⟩ ∉ pairs := fun value h_mem =>
      h_other value (List.mem_cons_of_mem _ h_mem)
    cases pair with
    | error e => exact ih h_rest
    | ok pair =>
      rw [setAll]
      split
      · cases h_set : session.set pair.key pair.value with
        | error e => rfl
        | ok changed =>
          obtain ⟨env, h_put, h_eq⟩ := bind_eq_ok_iff.1 h_set
          cases h_eq
          have h_ne : key ≠ pair.key := by
            rintro rfl
            exact h_other pair.value List.mem_cons_self
          exact (ih h_rest).trans ((Environment.get_put h_put key).trans (if_neg h_ne))
      · exact ih h_rest

end Session

/-! ### Commands -/

namespace Builtin

variable {session : Session}

/-- **Commands keep directories.** Of the tree they remove files only, and move nothing. -/
theorem run_keepsDirectories (command : Builtin) (args : String) (h : session.tree.WellFormed) :
    (command.run args session).session.tree.WellFormed ∧
      session.tree.KeepsDirectories (command.run args session).session.tree := by
  have h_same : ∀ after : Tree, after = session.tree →
      after.WellFormed ∧ session.tree.KeepsDirectories after := by
    rintro _ rfl
    exact ⟨h, .refl _⟩
  cases command with
  | mkdirp =>
    have h_steps : Tree.Steps (fun _ => True) session.tree
        (session.tree.mkdirp session.env args).1 :=
      Tree.mkdirp_steps (fun _ _ => trivial) session.tree session.env args
    have h_kept := Tree.KeepsDirectories.mkdirp session.tree session.env args
    rw [run, Session.mkdirp]
    generalize session.tree.mkdirp session.env args = made at h_steps h_kept
    exact ⟨h.steps h_steps, h_kept⟩
  | rm =>
    rw [run]
    unfold Session.rm
    split
    · exact h_same _ rfl
    · split
      · next id _ h_file =>
        split
        · next after node h_remove =>
          have h_step : Tree.Step (fun _ => True) session.tree after := .removeNode h_remove
          refine ⟨h.step h_step, ?_⟩
          exact .removeNode h (Tree.isDirectory_eq_false_of_isFile h_file) h_remove
        · exact h_same _ rfl
      · exact h_same _ rfl
  | write =>
    rw [run]
    unfold Session.write
    split
    · exact h_same _ rfl
    · split
      · next after _ h_create =>
        have h_steps : Tree.Steps (fun _ => True) session.tree after :=
          Tree.createFile_steps (fun _ _ => trivial) h_create
        exact ⟨h.steps h_steps, .createFile h_create⟩
      · exact h_same _ rfl
  | _ => exact h_same _ (tree_run args session (by decide))

/-- **The working directory stays in place,** unless `set` assigns it. -/
theorem run_placed (command : Builtin) (args : String) (h : session.Placed)
    (h_set : command = .set → ∀ value, .ok ⟨Environment.cwdName, value⟩ ∉ Pair.parse args) :
    (command.run args session).session.Placed := by
  obtain ⟨h_tree, h_kept⟩ := command.run_keepsDirectories args h.tree
  -- as long as the variable is as it was, its directory is too
  have h_same : (command.run args session).session.env.get Environment.cwdName =
      session.env.get Environment.cwdName → (command.run args session).session.Placed := by
    intro h_env
    refine ⟨h_tree, ?_⟩
    rw [h_env]
    exact h.cwd.kept h.tree h_tree h_kept
  cases command with
  | cd =>
    refine ⟨h_tree, ?_⟩
    rw [run]
    unfold Session.cd
    split
    · next env h_cd => exact .of_cd h_cd
    · exact h.cwd
  | set =>
    refine h_same ?_
    rw [run]
    exact Session.get_setAll (h_set rfl)
  | _ => exact h_same (congrArg (Environment.get · _) (env_run args session (by decide)))

end Builtin

/-! ### Lines -/

namespace Session

variable {session : Session}

/-- Every line keeps every directory. -/
theorem invoke_keepsDirectories (h_plain : session.registry.IsPlain)
    (h : session.tree.WellFormed) (line : String) :
    (session.invoke line).session.tree.WellFormed ∧
      session.tree.KeepsDirectories (session.invoke line).session.tree := by
  rcases invoke_executes h_plain line with ⟨command, args, -, h_invoke⟩ | ⟨-, h_session⟩
  · rw [h_invoke]
    exact command.run_keepsDirectories args h
  · rw [h_session]
    exact ⟨h, .refl _⟩

theorem Placed.invoke (h : session.Placed) (h_plain : session.registry.IsPlain) {line : String}
    (h_spares : ¬ session.Assigns line Environment.cwdName) :
    (session.invoke line).session.Placed := by
  rcases invoke_executes h_plain line with ⟨command, args, h_executes, h_invoke⟩ | ⟨-, h_session⟩
  · rw [h_invoke]
    refine command.run_placed args h ?_
    rintro rfl value h_mem
    exact h_spares ⟨by decide, args, value, h_executes, h_mem⟩
  · rw [h_session]
    exact h

theorem invokeAll_cons (session : Session) (line : String) (lines : List String) :
    session.invokeAll (line :: lines) = (session.invoke line).session.invokeAll lines := by
  rw [invokeAll, List.foldl_cons, invokeAll]

theorem invokeAll_append_singleton (session : Session) (lines : List String) (line : String) :
    session.invokeAll (lines ++ [line]) = ((session.invokeAll lines).invoke line).session := by
  rw [invokeAll, List.foldl_append]
  rfl

theorem invokeAll_gains (session : Session) (lines : List String) :
    (session.invokeAll lines).registry.Gains session.registry := by
  induction lines generalizing session with
  | nil => exact .refl
  | cons line lines ih =>
    rw [invokeAll_cons]
    exact (ih _).trans (session.invoke_gains line)

theorem Placed.invokeAll (h : session.Placed) (h_plain : session.registry.IsPlain)
    {lines : List String} (h_spares : session.Spares Environment.cwdName lines) :
    (session.invokeAll lines).Placed := by
  induction lines generalizing session with
  | nil => exact h
  | cons line lines ih =>
    obtain ⟨h_first, h_rest⟩ := h_spares
    rw [invokeAll_cons]
    exact ih (h.invoke h_plain h_first) ((session.invoke_gains line).isPlain h_plain) h_rest

/-- **A new session is placed:** it starts at the root, unless the options say otherwise. -/
theorem start_placed {options : Options} (h_start : start options = .ok session)
    (h_extra : ∀ binding ∈ options.extraVariables, binding.1 ≠ Environment.cwdName) :
    session.Placed := by
  obtain ⟨-, h_build, -⟩ := of_start h_start
  have h_cwd : session.env.get Environment.cwdName = "/" := by
    rw [Environment.get, find?_env_of_start h_start List.mem_cons_self h_extra]
    rfl
  have h_tree : session.tree.WellFormed := by
    split at h_build
    · exact (Tree.Started.manifest h_build).wellFormed
    · exact Except.ok.inj h_build ▸ Tree.WellFormed.empty
  refine ⟨h_tree, ?_⟩
  rw [h_cwd]
  exact h_tree.hasDirectory_root

/-- **The working directory never dangles.** In a session that was started without a working
directory of its own among the extra variables, after any number of lines none of which assigns it:

* the empty path leads to a directory, and the working directory is the path of that directory;
* the working directory is written with segments;
* whatever line comes next, every directory is a directory after it, with the path that it had. -/
theorem cwd_never_dangles {options : Options} (h_start : start options = .ok session)
    (h_extra : ∀ binding ∈ options.extraVariables, binding.1 ≠ Environment.cwdName)
    {lines : List String} (h_spares : session.Spares Environment.cwdName lines) :
    (∃ id, (session.invokeAll lines).tree.get (session.invokeAll lines).env "" = .ok id ∧
        (session.invokeAll lines).tree.isDirectory id = true ∧
        (session.invokeAll lines).tree.absolutePath id =
          .ok ((session.invokeAll lines).env.get Environment.cwdName)) ∧
      (∃ names, (∀ name ∈ names, Path.IsSegment name) ∧
        (session.invokeAll lines).env.get Environment.cwdName = Path.render names) ∧
      ∀ line id, (session.invokeAll lines).tree.isDirectory id = true →
        ∃ path, (session.invokeAll lines).tree.absolutePath id = .ok path ∧
          (session.invokeAll (lines ++ [line])).tree.isDirectory id = true ∧
          (session.invokeAll (lines ++ [line])).tree.absolutePath id = .ok path := by
  have h_first := (start_equipped h_start).plain
  have h_plain := (session.invokeAll_gains lines).isPlain h_first
  have h_placed := (start_placed h_start h_extra).invokeAll h_first h_spares
  refine ⟨h_placed.tree.get_cwd h_placed.cwd, ?_, fun line id h_dir => ?_⟩
  · obtain ⟨names, -, h_names, h_path, -, -⟩ := h_placed.cwd
    exact ⟨names, h_names, h_path⟩
  · obtain ⟨node, -, h_node, -⟩ := Tree.isDirectory_iff.1 h_dir
    obtain ⟨path, h_path⟩ := h_placed.tree.exists_absolutePath (Tree.isLive_iff.2 ⟨node, h_node⟩)
    obtain ⟨h_after, h_kept⟩ := invoke_keepsDirectories h_plain h_placed.tree line
    rw [invokeAll_append_singleton]
    refine ⟨path, h_path, (h_kept id h_dir).1, ?_⟩
    rw [h_kept.absolutePath_eq h_placed.tree h_after h_dir]
    exact h_path

/-- In an empty tree a directory is made, and an alias changes the working directory to it. -/
theorem cwd_never_dangles_go :
    ∃ session, start { seeded := false, extraVariables := [("COLOR", "red")] } = .ok session ∧
      session.Spares Environment.cwdName ["mkdirp a/b", "alias go=cd", "go a/b"] ∧
      ∃ id, (session.invokeAll ["mkdirp a/b", "alias go=cd", "go a/b"]).tree.isDirectory id = true ∧
        (session.invokeAll ["mkdirp a/b", "alias go=cd", "go a/b"]).tree.absolutePath id =
          .ok "/a/b" := by
  obtain ⟨session, h_start⟩ : ∃ session,
      start { seeded := false, extraVariables := [("COLOR", "red")] } = .ok session := ⟨_, rfl⟩
  have h_spares : session.Spares Environment.cwdName ["mkdirp a/b", "alias go=cd", "go a/b"] := by
    cases h_start
    exact ⟨not_assigns_of_executed? (by decide +kernel),
      not_assigns_of_executed? (by decide +kernel),
      not_assigns_of_executed? (by decide +kernel), trivial⟩
  obtain ⟨⟨id, -, h_dir, h_path⟩, -⟩ := cwd_never_dangles h_start (by decide) h_spares
  refine ⟨session, h_start, h_spares, id, h_dir, h_path.trans ?_⟩
  cases h_start
  exact congrArg Except.ok (by decide +kernel)

end Session

end PocketShell
