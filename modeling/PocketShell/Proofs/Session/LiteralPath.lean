import PocketShell.Proofs.Environment.References
import PocketShell.Proofs.Session.Execution
import PocketShell.Proofs.Session.Home
import PocketShell.Proofs.Tree.Creating
import PocketShell.Proofs.Tree.Moving

/-!
# Paths are read as they stand

The commands that take a path, and nothing else, read their arguments as they stand: a reference in
them is not replaced, it is part of a name. This is said in two ways.

* No variable has a say but the working directory, and the indentation where names are listed: with
  all others bound in another way the reply is the same (`Session.run_sameIn`).
* So it makes a difference whether the references in the arguments are replaced first. There is no
  difference if the two texts denote the same path, and for `cd`, which repeats its arguments when
  it refuses them, if they are the same text or denote the root (`Builtin.ReadsAlike`). In any other
  case there is a tree in which the replies are not the same (`Session.exists_run_ne`).

For the second one, the path of one text is made in an empty tree. Then it is there, and the path of
the other text is not, unless it is on the way (`Tree.prefix_of_get_mkdirp_empty`).
-/

namespace PocketShell

/-- The commands whose arguments are a path and nothing else. -/
def Builtin.takesPath : Builtin → Bool
  | .cat | .cd | .ls | .mkdirp | .rm => true
  | _ => false

/-- **Alike as arguments.** Two texts denote the same path. The command `cd` repeats a text whose
path is not there, so for `cd` the texts have to be the same if the path can be missing. -/
def Builtin.ReadsAlike (command : Builtin) (env : Environment) (text other : String) : Prop :=
  Path.segments env.cwd text = Path.segments env.cwd other ∧
    (command = .cd → text = other ∨ Path.segments env.cwd text = [])

/-- **The same reply with other variables.** What is written, the outcome and the session that is
left are the same but for the variables. These are as they were, or the same directory became the
working directory. -/
structure Reply.SameIn (env other : Environment) (first second : Reply) : Prop where
  lines : second.lines = first.lines
  result : second.result = first.result
  pause : second.pause = first.pause
  session : second.session = { first.session with env := second.session.env }
  env :
    (first.session.env = env ∧ second.session.env = other) ∨
      ∃ dir, env.put Environment.cwdName dir = .ok first.session.env ∧
        other.put Environment.cwdName dir = .ok second.session.env

namespace Reply

variable {env : Environment}

theorem SameIn.say (session : Session) (env : Environment) (lines : List Line) (status : Int) :
    (Reply.say session lines status).SameIn session.env env
      (Reply.say { session with env } lines status) :=
  ⟨rfl, rfl, rfl, rfl, .inl ⟨rfl, rfl⟩⟩

theorem SameIn.fail (session : Session) (env : Environment) (e : Error) :
    (Reply.fail session e).SameIn session.env env (Reply.fail { session with env } e) :=
  ⟨rfl, rfl, rfl, rfl, .inl ⟨rfl, rfl⟩⟩

/-- With the same variables the replies are the same. -/
theorem SameIn.eq {first second : Reply} (h : first.SameIn env env second) : second = first := by
  have h_env : second.session.env = first.session.env := by
    rcases h.env with ⟨h_first, h_second⟩ | ⟨dir, h_first, h_second⟩
    · rw [h_first, h_second]
    · exact Except.ok.inj (h_second.symm.trans h_first)
  have h_session : second.session = first.session := by
    rw [h.session, h_env]
  calc second = ⟨second.session, second.lines, second.result, second.pause⟩ := rfl
    _ = ⟨first.session, first.lines, first.result, first.pause⟩ := by
      rw [h_session, h.lines, h.result, h.pause]

end Reply

namespace Tree

variable {env : Environment} {path text : String}

/-! ### A tree with one path -/

/-- There are no files in an empty tree, and nothing below the root. -/
theorem at?_empty_eq_some_iff {names : List String} {entry : Entry} :
    empty.at? names = some entry ↔ names = [] ∧ entry = .directory := by
  cases names with
  | nil =>
    have h_root : empty.at? [] = some .directory := rfl
    simp [h_root, eq_comm]
  | cons name names =>
    have h_none : empty.at? (name :: names) = none := rfl
    simp [h_none]

/-- Any path can be made in an empty tree, and there is a directory at its end. -/
theorem exists_mkdirp_empty (env : Environment) (path : String) :
    ∃ after id, empty.mkdirp env path = (after, .ok id) ∧ after.WellFormed ∧
      after.get env path = .ok id ∧ after.isDirectory id = true := by
  have h_no_file : ∀ names blob, empty.at? names ≠ some (.file blob) := fun names blob h_file =>
    nomatch (at?_empty_eq_some_iff.1 h_file).2
  have h_after := WellFormed.empty.mkdirp env path
  rcases h_made : empty.mkdirp env path with ⟨after, e | id⟩
  · obtain ⟨front, -, -, blob, -, h_file, -⟩ :=
      WellFormed.empty.mkdirp_eq_error_iff.1 (congrArg Prod.snd h_made)
    exact absurd h_file (h_no_file front blob)
  · rw [h_made] at h_after
    refine ⟨after, id, rfl, h_after, WellFormed.empty.get_mkdirp h_made, ?_⟩
    refine (WellFormed.empty.isDirectory_or_fileAt h_made).resolve_right ?_
    rintro ⟨last, file, h_file⟩
    obtain ⟨blob, h_content⟩ := h_file.exists_blob
    have h_entry : file.entry = .file blob := by rw [Node.entry, h_content]
    exact h_no_file _ blob (at?_eq_some_iff.2 ⟨last, file, h_file.1, h_file.2.1, h_entry⟩)

/-- In a tree with one path nothing is found but what is on the way. -/
theorem prefix_of_get_mkdirp_empty {id : Nat}
    (h_get : (empty.mkdirp env path).1.get env text = .ok id) :
    Path.segments env.cwd text <+: Path.segments env.cwd path := by
  obtain ⟨node, h_node⟩ := isLive_iff.1 ((WellFormed.empty.mkdirp env path).isLive_get h_get)
  rw [get_eq_follow] at h_get
  have h_at := at?_eq_some_iff.2 ⟨id, node, h_get, h_node, rfl⟩
  rcases (WellFormed.empty.at?_mkdirp_iff env path).1 h_at with h_before | ⟨-, -, -, h_prefix⟩
  · rw [(at?_empty_eq_some_iff.1 h_before).1]
    exact List.nil_prefix
  · exact h_prefix

end Tree

namespace Session

variable {session : Session} {env : Environment} {text other : String}

section SameIn

variable (h_get : session.tree.get env other = session.tree.get session.env text)

include h_get

theorem cat_sameIn :
    (session.cat text).SameIn session.env env (Session.cat { session with env } other) := by
  unfold cat
  rw [h_get]
  cases session.tree.get session.env text with
  | error e => exact .fail session env e
  | ok id =>
    dsimp only
    cases (session.tree.node? id).bind Node.blob? with
    | none => exact .say session env _ 1
    | some blob => exact .say session env _ 0

theorem rm_sameIn :
    (session.rm text).SameIn session.env env (Session.rm { session with env } other) := by
  unfold rm
  rw [h_get]
  cases session.tree.get session.env text with
  | error e => exact .fail session env e
  | ok id =>
    dsimp only
    split
    · cases session.tree.removeNode id with
      | error e => exact .fail session env e
      | ok removed => exact ⟨rfl, rfl, rfl, rfl, .inl ⟨rfl, rfl⟩⟩
    · exact .say session env _ 1

theorem ls_sameIn (h_cwd : env.cwd = session.env.cwd)
    (h_tab : env.get Environment.tabName = session.env.get Environment.tabName) :
    (session.ls text).SameIn session.env env (Session.ls { session with env } other) := by
  have h_list : session.tree.list env other = session.tree.list session.env text := by
    rw [Tree.list, Tree.list, h_get]
  unfold ls
  rw [h_list, h_tab]
  cases session.tree.list session.env text with
  | error e => exact .fail session env e
  | ok ids =>
    dsimp only
    rw [cwd, cwd, h_cwd]
    exact .say session env _ 0

/-- The text counts for `cd` only if there is nothing at its path. -/
theorem cd_sameIn (h_resolve : Tree.resolve env other = Tree.resolve session.env text)
    (h_text : text = other ∨ ∃ id, session.tree.get session.env text = .ok id) :
    (session.cd text).SameIn session.env env (Session.cd { session with env } other) := by
  unfold cd Tree.cd
  dsimp only
  rw [Tree.get_resolve, Tree.get_resolve, h_get, h_resolve]
  cases h_found : session.tree.get session.env text with
  | error e =>
    obtain rfl : text = other := h_text.resolve_right fun ⟨id, h_ok⟩ => by
      rw [h_found] at h_ok
      cases h_ok
    cases e <;> exact .fail session env _
  | ok id =>
    dsimp only
    cases session.tree.node? id with
    | none => exact .fail session env _
    | some node =>
      dsimp only
      cases node.isDirectory with
      | false => exact .fail session env _
      | true => exact ⟨rfl, rfl, rfl, rfl, .inr ⟨_, rfl, rfl⟩⟩

end SameIn

theorem mkdirp_sameIn
    (h_made : session.tree.mkdirp env other = session.tree.mkdirp session.env text) :
    (session.mkdirp text).SameIn session.env env (Session.mkdirp { session with env } other) := by
  unfold mkdirp
  rw [h_made]
  rcases session.tree.mkdirp session.env text with ⟨tree, result⟩
  exact ⟨rfl, rfl, rfl, rfl, .inl ⟨rfl, rfl⟩⟩

/-- **The same reply** to texts that denote the same path, whatever is bound but the working
directory and the indentation. -/
theorem run_sameIn {command : Builtin} (h_command : command.takesPath = true)
    (h_cwd : env.cwd = session.env.cwd)
    (h_tab : env.get Environment.tabName = session.env.get Environment.tabName)
    (h_alike : command.ReadsAlike session.env text other) :
    (command.run text session).SameIn session.env env
      (command.run other { session with env }) := by
  have h_segments : Path.segments env.cwd other = Path.segments session.env.cwd text := by
    rw [h_cwd, h_alike.1]
  have h_get : session.tree.get env other = session.tree.get session.env text := by
    rw [Tree.get_eq_follow, Tree.get_eq_follow, h_segments]
  cases command with
  | cat => exact @cat_sameIn session env text other h_get
  | cd =>
    have h_resolve : Tree.resolve env other = Tree.resolve session.env text :=
      congrArg Path.render h_segments
    have h_text : text = other ∨ ∃ id, session.tree.get session.env text = .ok id := by
      refine (h_alike.2 rfl).imp_right fun h_root => ⟨Tree.root, ?_⟩
      rw [Tree.get_eq_follow, h_root]
      rfl
    exact @cd_sameIn session env text other h_get h_resolve h_text
  | ls => exact @ls_sameIn session env text other h_get h_cwd h_tab
  | mkdirp =>
    have h_made : session.tree.mkdirp env other = session.tree.mkdirp session.env text := by
      rw [Tree.mkdirp_eq, Tree.mkdirp_eq, h_segments]
    exact @mkdirp_sameIn session env text other h_made
  | rm => exact @rm_sameIn session env text other h_get
  | _ => cases h_command

/-! ### Telling two texts apart -/

/-- A directory that is there is no error for any of the commands. -/
theorem exists_run_result_eq_ok {command : Builtin} (h_command : command.takesPath = true)
    (h_other : command ≠ .mkdirp) {id : Nat} (h_get : session.tree.get session.env text = .ok id)
    (h_dir : session.tree.isDirectory id = true) :
    ∃ status, (command.run text session).result = .ok status := by
  obtain ⟨node, children, h_node, h_children⟩ := Tree.isDirectory_iff.1 h_dir
  have h_blob : node.blob? = none := by
    unfold Node.blob?
    rw [Node.children?_eq_some_iff.1 h_children]
  cases command with
  | cat =>
    refine ⟨1, ?_⟩
    show (session.cat text).result = .ok 1
    unfold cat
    rw [h_get]
    simp only [h_node, Option.bind_some, h_blob]
    rfl
  | cd =>
    refine ⟨0, ?_⟩
    have h_cd := Tree.cd_eq_ok_iff.2 ⟨⟨id, h_get, h_dir⟩, rfl⟩
    show (session.cd text).result = .ok 0
    unfold cd
    rw [h_cd]
  | ls =>
    refine ⟨0, ?_⟩
    show (session.ls text).result = .ok 0
    unfold ls
    rw [Tree.list_of_isDirectory h_get h_dir]
    rfl
  | mkdirp => exact absurd rfl h_other
  | rm =>
    refine ⟨1, ?_⟩
    show (session.rm text).result = .ok 1
    unfold rm
    rw [h_get]
    simp only [h_node, Option.any_some, Node.isFile, h_blob]
    rfl
  | _ => cases h_command

/-- What is not there is an error for any of the commands but the one that makes it. -/
theorem exists_run_result_eq_error {command : Builtin} (h_command : command.takesPath = true)
    (h_other : command ≠ .mkdirp) (h_get : ∀ id, session.tree.get session.env text ≠ .ok id) :
    ∃ e, (command.run text session).result = .error e := by
  cases h_found : session.tree.get session.env text with
  | ok id => exact absurd h_found (h_get id)
  | error e =>
    cases command with
    | cat =>
      refine ⟨e, ?_⟩
      show (session.cat text).result = .error e
      unfold cat
      rw [h_found]
      rfl
    | cd =>
      show ∃ e, (session.cd text).result = .error e
      unfold cd
      split
      · next h_cd =>
        obtain ⟨⟨id, h_ok, -⟩, -⟩ := Tree.cd_eq_ok_iff.1 h_cd
        exact absurd h_ok (h_get id)
      · next e _ => exact ⟨e, rfl⟩
    | ls =>
      refine ⟨e, ?_⟩
      have h_list : session.tree.list session.env text = .error e := by
        rw [Tree.list, h_found]
        rfl
      show (session.ls text).result = .error e
      unfold ls
      rw [h_list]
      rfl
    | mkdirp => exact absurd rfl h_other
    | rm =>
      refine ⟨e, ?_⟩
      show (session.rm text).result = .error e
      unfold rm
      rw [h_found]
      rfl
    | _ => cases h_command

/-- What `mkdirp` leaves is what making the directory leaves. -/
theorem tree_mkdirp (session : Session) (path : String) :
    (session.mkdirp path).session.tree = (session.tree.mkdirp session.env path).1 := by
  unfold mkdirp
  rcases session.tree.mkdirp session.env path with ⟨tree, result⟩
  rfl

/-- The command `cd` repeats a text whose path is not there. -/
theorem cd_of_missing {path name parent : String}
    (h_get : session.tree.get session.env path = .error (.noSuchNode name parent)) :
    session.cd path = .fail session (.invalidPath path) := by
  unfold cd Tree.cd
  dsimp only
  rw [Tree.get_resolve, h_get]

/-- A session with the built-in commands. -/
def withTree (env : Environment) (tree : Tree) : Session where
  env := env
  tree := tree
  history := {}
  registry := Registry.standard

/-- Where the path of one text was made, and the path of the other is not on the way, the texts are
told apart. -/
theorem exists_run_ne_of_not_prefix {command : Builtin} (h_command : command.takesPath = true)
    (h : ¬ Path.segments env.cwd other <+: Path.segments env.cwd text) :
    ∃ tree : Tree, tree.WellFormed ∧
      command.run text (withTree env tree) ≠ command.run other (withTree env tree) := by
  obtain ⟨tree, id, h_made, h_tree, h_get, h_dir⟩ := Tree.exists_mkdirp_empty env text
  have h_missing : ∀ id, tree.get env other ≠ .ok id := by
    intro id h_found
    have h_first : (Tree.empty.mkdirp env text).1 = tree := by rw [h_made]
    exact h (Tree.prefix_of_get_mkdirp_empty (h_first ▸ h_found))
  by_cases h_which : command = .mkdirp
  · -- the path of the other text is there only after it was made
    subst h_which
    obtain ⟨after, last, h_other, -, h_found, -⟩ := Tree.exists_mkdirp_empty env other
    refine ⟨Tree.empty, .empty, fun h_same => h_missing last ?_⟩
    have h_replies :
        (withTree env Tree.empty).mkdirp text = (withTree env Tree.empty).mkdirp other := h_same
    have h_trees := (withTree env Tree.empty).tree_mkdirp text
    rw [h_replies, tree_mkdirp, withTree, h_made, h_other] at h_trees
    obtain rfl : after = tree := h_trees
    exact h_found
  · refine ⟨tree, h_tree, fun h_same => ?_⟩
    obtain ⟨status, h_ok⟩ :=
      @exists_run_result_eq_ok (withTree env tree) text command h_command h_which id h_get h_dir
    obtain ⟨e, h_error⟩ :=
      @exists_run_result_eq_error (withTree env tree) other command h_command h_which h_missing
    rw [h_same, h_error] at h_ok
    cases h_ok

/-- **Two texts that are not alike** are told apart in some tree. -/
theorem exists_run_ne {command : Builtin} (h_command : command.takesPath = true)
    (h : ¬ command.ReadsAlike env text other) :
    ∃ tree : Tree, tree.WellFormed ∧
      command.run text (withTree env tree) ≠ command.run other (withTree env tree) := by
  by_cases h_path : Path.segments env.cwd text = Path.segments env.cwd other
  · -- one path, so it is the text of an error that tells them apart
    obtain ⟨rfl, h_text, h_below⟩ :
        command = .cd ∧ text ≠ other ∧ Path.segments env.cwd text ≠ [] := by
      by_contra h_none
      exact h ⟨h_path, fun h_cd => by_contra fun h_or => h_none ⟨h_cd, not_or.1 h_or⟩⟩
    refine ⟨Tree.empty, .empty, fun h_same => h_text ?_⟩
    have h_fail : ∀ path, Path.segments env.cwd path ≠ [] →
        (withTree env Tree.empty).cd path =
          .fail (withTree env Tree.empty) (.invalidPath path) := by
      intro path h_some
      obtain ⟨name, names, h_names⟩ := List.exists_cons_of_ne_nil h_some
      have h_get : Tree.empty.get env path = .error (.noSuchNode name "") := by
        rw [Tree.get_eq_follow, h_names]
        rfl
      exact cd_of_missing h_get
    have h_replies : (withTree env Tree.empty).cd text = (withTree env Tree.empty).cd other :=
      h_same
    rw [h_fail text h_below, h_fail other (h_path ▸ h_below)] at h_replies
    simpa [Reply.fail] using h_replies
  · -- of two paths one is not on the way to the other
    by_cases h_prefix : Path.segments env.cwd other <+: Path.segments env.cwd text
    · have h_back : ¬ Path.segments env.cwd text <+: Path.segments env.cwd other := fun h_text =>
        h_path (h_text.eq_of_length_le h_prefix.length_le)
      obtain ⟨tree, h_tree, h_ne⟩ := exists_run_ne_of_not_prefix h_command h_back
      exact ⟨tree, h_tree, h_ne.symm⟩
    · exact exists_run_ne_of_not_prefix h_command h_prefix

/-! ### References in paths -/

/-- **References in paths are not replaced.** Let a command that takes a path be run by a line, with
any arguments.

* The reply does not depend on any variable but the working directory and the indentation.
* If the arguments and what they are with their references replaced are alike, the command does the
  same for both, in every session.
* If they are not, there is a session with the same variables, a well-formed tree and the built-in
  commands in which it does not. -/
theorem path_not_interpolated {command : Builtin} (h_command : command.takesPath = true)
    (args : String) :
    (∀ (session : Session) (env : Environment),
      session.registry.find? command.name = some (.builtin command) →
      env.cwd = session.env.cwd →
      env.get Environment.tabName = session.env.get Environment.tabName →
        (session.invoke (command.name ++ " " ++ args)).SameIn session.env env
          (Session.invoke { session with env } (command.name ++ " " ++ args))) ∧
    (∀ session : Session,
      session.registry.find? command.name = some (.builtin command) →
      command.ReadsAlike session.env (Text.trim args)
        (Text.trim (session.env.interpolate args)) →
          session.invoke (command.name ++ " " ++ session.env.interpolate args) =
            session.invoke (command.name ++ " " ++ args)) ∧
    ∀ env : Environment,
      ¬ command.ReadsAlike env (Text.trim args) (Text.trim (env.interpolate args)) →
        ∃ session : Session, session.env = env ∧ session.tree.WellFormed ∧
          session.registry.find? command.name = some (.builtin command) ∧
          session.invoke (command.name ++ " " ++ env.interpolate args) ≠
            session.invoke (command.name ++ " " ++ args) := by
  refine ⟨fun session env h_find h_cwd h_tab => ?_, fun session h_find h_alike => ?_,
    fun env h_alike => ?_⟩
  · rw [invoke_builtin h_find, @invoke_builtin { session with env } command h_find]
    exact run_sameIn h_command h_cwd h_tab ⟨rfl, fun _ => .inl rfl⟩
  · rw [invoke_builtin h_find, invoke_builtin h_find]
    exact (run_sameIn h_command rfl rfl h_alike).eq
  · obtain ⟨tree, h_tree, h_ne⟩ := exists_run_ne h_command h_alike
    have h_find : (withTree env tree).registry.find? command.name = some (.builtin command) := by
      cases command <;> rfl
    refine ⟨withTree env tree, rfl, h_tree, h_find, ?_⟩
    rw [invoke_builtin h_find, invoke_builtin h_find]
    exact h_ne.symm

/-- The user of a session, referred to in a text. -/
theorem interpolate_user {options : Options} (h_start : start options = .ok session)
    (h_extra : ∀ binding ∈ options.extraVariables, binding.1 ≠ Environment.userName)
    (front back : String) (h_back : ¬ Environment.BeginsInName back.toList) :
    session.env.interpolate (front ++ "$USER" ++ back) =
      session.env.interpolate front ++ options.user ++ session.env.interpolate back := by
  have h_user : session.env.bindings.find? Environment.userName = some options.user :=
    find?_env_of_start h_start (by simp) h_extra
  have h_text : front ++ "$USER" ++ back = front ++ "$" ++ Environment.userName ++ back := by
    have h_dollar : "$USER" = "$" ++ Environment.userName := by decide
    rw [h_dollar, ← String.append_assoc]
  have h_letters := Environment.isNameChar_of_mem_userName
  rw [h_text, Environment.interpolate_around session.env front (by decide) h_letters h_back, h_user,
    Option.getD_some]

/-- The user of a new session, by a reference that does not matter and by one that does. -/
theorem path_not_interpolated_user :
    ∃ session env, start { seeded := false } = .ok session ∧
      session.env.put "USER" "root" = .ok env ∧
      (session.invoke "cd $USER").SameIn session.env env
        (Session.invoke { session with env } "cd $USER") ∧
      session.invoke "cd spud/.." = session.invoke "cd $USER/.." ∧
      ∃ other : Session, other.env = session.env ∧ other.tree.WellFormed ∧
        other.invoke "cd spud" ≠ other.invoke "cd $USER" := by
  obtain ⟨session, h_start⟩ : ∃ session, start { seeded := false } = .ok session := ⟨_, rfl⟩
  obtain ⟨env, h_env⟩ : ∃ env, session.env.put "USER" "root" = .ok env := ⟨_, rfl⟩
  have h_find : session.registry.find? Builtin.cd.name = some (.builtin .cd) := by
    rw [registry_of_start h_start]
    rfl
  have h_cwd : session.env.cwd = "/" := by
    cases h_start
    rfl
  have h_plain {text : String} (h : '$' ∉ text.toList) : session.env.interpolate text = text :=
    Environment.interpolate_of_notMem h session.env
  have h_user : session.env.interpolate "$USER" = "spud" := by
    have h_text : "$USER" = "" ++ "$USER" ++ "" := by decide
    rw [h_text,
      interpolate_user h_start (List.forall_mem_nil _) "" "" Environment.not_beginsInName_nil,
      h_plain (by decide)]
    rfl
  have h_up : session.env.interpolate "$USER/.." = "spud/.." := by
    have h_text : "$USER/.." = "" ++ "$USER" ++ "/.." := by decide
    have h_slash : ¬ Environment.BeginsInName "/..".toList :=
      (Environment.beginsInName_cons '/' _).not.2 (by decide)
    rw [h_text, interpolate_user h_start (List.forall_mem_nil _) "" "/.." h_slash,
      h_plain (by decide), h_plain (by decide)]
    rfl
  have h_same : env.cwd = session.env.cwd ∧
      env.get Environment.tabName = session.env.get Environment.tabName := by
    have h_get (name : String) (h_name : name ≠ "USER") : env.get name = session.env.get name := by
      rw [Environment.get_put h_env, if_neg h_name]
    rw [Environment.cwd, Environment.cwd, h_get _ (by decide), h_get _ (by decide)]
    exact ⟨rfl, rfl⟩
  have h_cd : Builtin.cd.takesPath = true := rfl
  obtain ⟨h_others, -, h_apart⟩ := path_not_interpolated h_cd "$USER"
  obtain ⟨-, h_alike, -⟩ := path_not_interpolated h_cd "$USER/.."
  refine ⟨session, env, h_start, h_env, h_others session env h_find h_same.1 h_same.2, ?_, ?_⟩
  · have h_replaced := h_alike session h_find
    rw [h_up] at h_replaced
    refine h_replaced ⟨?_, fun _ => .inr ?_⟩ <;> rw [h_cwd] <;> decide +kernel
  · have h_ne : ¬ Builtin.cd.ReadsAlike session.env (Text.trim "$USER")
        (Text.trim (session.env.interpolate "$USER")) := by
      rw [h_user, Builtin.ReadsAlike, h_cwd]
      decide +kernel
    obtain ⟨other, h_other, h_tree, -, h_replies⟩ := h_apart session.env h_ne
    rw [h_user] at h_replies
    exact ⟨other, h_other, h_tree, h_replies⟩

/-- **The home directory is not reached** by a reference to the user, but only by the name. -/
theorem reference_not_followed :
    ∃ session, start {} = .ok session ∧
      session.env.interpolate "/home/$USER" = "/home/spud" ∧
      session.invoke "cd /home/$USER" = .fail session (.invalidPath "/home/$USER") ∧
      (session.invoke "cd /home/spud").result = .ok 0 ∧
      (session.invoke "cd /home/spud").session.cwd = "/home/spud" := by
  obtain ⟨session, h_start⟩ := @exists_start {} _ rfl
  have h_reference : session.tree.get session.env "/home/$USER" =
      .error (.noSuchNode "$USER" "home") := by
    have h_get := @get_home_of_ne session _ h_start rfl (List.forall_mem_nil _) "$USER" []
      (by decide) (by decide)
    have h_path : Path.render ["home", "$USER"] = "/home/$USER" := by decide +kernel
    exact h_path ▸ h_get
  have h_path : Path.render ["home", "spud"] = "/home/spud" := by decide +kernel
  have h_segments : ∀ name ∈ ["home", "spud"], Path.IsSegment name := by decide
  obtain ⟨own, h_home, h_dir⟩ :=
    exists_get_home h_start rfl (List.forall_mem_nil _) h_segments
  replace h_home : session.tree.get session.env "/home/spud" = .ok own := h_path ▸ h_home
  have h_resolve : Tree.resolve session.env "/home/spud" = "/home/spud" := by
    rw [← h_path, Tree.resolve, Path.resolve, Path.segments_render _ h_segments]
  have h_find : session.registry.find? Builtin.cd.name = some (.builtin .cd) := by
    rw [registry_of_start h_start]
    rfl
  have h_run (path : String) (h_trim : Text.trim path = path) :
      session.invoke ("cd " ++ path) = session.cd path := by
    have h_line := invoke_builtin h_find path
    rwa [h_trim] at h_line
  have h_text : "/home/$USER" = "/home/" ++ "$USER" ++ "" := by decide
  obtain ⟨env, h_cd⟩ : ∃ env, session.tree.cd session.env "/home/spud" = .ok env :=
    ⟨_, Tree.cd_eq_ok_iff.2 ⟨⟨own, h_home, h_dir⟩, rfl⟩⟩
  have h_own : session.cd "/home/spud" = { session := { session with env } } := by
    unfold cd
    rw [h_cd]
  have h_moved := (h_run "/home/spud" (by decide +kernel)).trans h_own
  refine ⟨session, h_start, ?_, ?_, ?_, ?_⟩
  · rw [h_text,
      interpolate_user h_start (List.forall_mem_nil _) "/home/" "" Environment.not_beginsInName_nil,
      Environment.interpolate_of_notMem (by decide) session.env,
      Environment.interpolate_of_notMem (by decide) session.env]
    rfl
  · exact (h_run "/home/$USER" (by decide +kernel)).trans (cd_of_missing h_reference)
  · exact congrArg Reply.result h_moved
  · exact (congrArg (fun reply => reply.session.cwd) h_moved).trans
      ((Tree.cwd_of_cd h_cd).trans h_resolve)

end Session

end PocketShell
