import PocketShell.Proofs.Tree.Failure
import PocketShell.Session.Builtins

/-!
# What a built-in command leaves behind

A session has four parts, and a built-in command changes one of them at most: `cd` and `set` the
variables, `mkdirp`, `rm` and `write` the tree, `history` the history, `alias` the registry. When it
ends in an error or with a status other than zero, it has changed nothing, and with an error it has
written nothing either. This is `Reply.Atomic`, and `Builtin.run_atomic` shows it for every command
in every session.

Which part it is depends on the command alone: `Builtin.part?` tells it, and
`Builtin.run_changesOnly` shows that the other parts stay as they are. For one part at a time this
is `Builtin.env_run`, `Builtin.tree_run`, `Builtin.history_run` and `Builtin.registry_run`.

The errors of built-in commands are never about lines inside lines (`Builtin.run_not_nesting`), and
in a session with a well-formed tree they are never about numbers that lead nowhere
(`Builtin.run_ne_danglingNode`).
-/

namespace PocketShell

/-- One part of a session has changed at most. -/
def Session.ChangesOnePart (before after : Session) : Prop :=
  (∃ env, after = { before with env }) ∨ (∃ tree, after = { before with tree }) ∨
    (∃ history, after = { before with history }) ∨ ∃ registry, after = { before with registry }

/-- **Parts** of a session. -/
inductive Session.Part where
  | environment
  | tree
  | history
  | registry
  deriving DecidableEq

/-- The part of a session that a command may change, if there is one. -/
def Builtin.part? : Builtin → Option Session.Part
  | .cd | .set => some .environment
  | .mkdirp | .rm | .write => some .tree
  | .history => some .history
  | .defineAlias => some .registry
  | .about | .cat | .echo | .env | .help | .ls | .potato | .pwd | .sleep => none

/-- Nothing has changed but the given part, if there is one. -/
def Session.ChangesOnly (before : Session) : Option Session.Part → Session → Prop
  | none, after => after = before
  | some .environment, after => ∃ env, after = { before with env }
  | some .tree, after => ∃ tree, after = { before with tree }
  | some .history, after => ∃ history, after = { before with history }
  | some .registry, after => ∃ registry, after = { before with registry }

theorem Session.ChangesOnly.refl (part? : Option Session.Part) (session : Session) :
    session.ChangesOnly part? session := by
  cases part? with
  | none => rfl
  | some part =>
    cases part with
    | environment => exact ⟨session.env, rfl⟩
    | tree => exact ⟨session.tree, rfl⟩
    | history => exact ⟨session.history, rfl⟩
    | registry => exact ⟨session.registry, rfl⟩

/-- **Frame.** Every part but the given one is as it was. -/
theorem Session.ChangesOnly.frame {before after : Session} {part? : Option Session.Part}
    (h : before.ChangesOnly part? after) :
    (part? ≠ some .environment → after.env = before.env) ∧
      (part? ≠ some .tree → after.tree = before.tree) ∧
      (part? ≠ some .history → after.history = before.history) ∧
      (part? ≠ some .registry → after.registry = before.registry) := by
  match part?, h with
  | none, h =>
    obtain rfl : after = before := h
    exact ⟨fun _ => rfl, fun _ => rfl, fun _ => rfl, fun _ => rfl⟩
  | some .environment, ⟨_, h⟩ =>
    subst h
    exact ⟨fun h_ne => absurd rfl h_ne, fun _ => rfl, fun _ => rfl, fun _ => rfl⟩
  | some .tree, ⟨_, h⟩ =>
    subst h
    exact ⟨fun _ => rfl, fun h_ne => absurd rfl h_ne, fun _ => rfl, fun _ => rfl⟩
  | some .history, ⟨_, h⟩ =>
    subst h
    exact ⟨fun _ => rfl, fun _ => rfl, fun h_ne => absurd rfl h_ne, fun _ => rfl⟩
  | some .registry, ⟨_, h⟩ =>
    subst h
    exact ⟨fun _ => rfl, fun _ => rfl, fun _ => rfl, fun h_ne => absurd rfl h_ne⟩

/-- **Atomic replies.** One part of the session has changed at most, and none without success; with
an error, nothing was written. -/
structure Reply.Atomic (before : Session) (reply : Reply) : Prop where
  /-- One part has changed at most. -/
  onePart : before.ChangesOnePart reply.session
  /-- An error leaves no trace. -/
  of_error : ∀ e, reply.result = .error e → reply.session = before ∧ reply.lines = []
  /-- A status other than zero leaves the session as it was. -/
  of_status : ∀ status, reply.result = .ok status → status ≠ 0 → reply.session = before

namespace Session

variable {session : Session}

/-! ### Kinds of replies -/

theorem ChangesOnePart.refl (session : Session) : session.ChangesOnePart session :=
  .inl ⟨session.env, rfl⟩

theorem say_atomic (session : Session) (lines : List Line) (status : Int) :
    (Reply.say session lines status).Atomic session where
  onePart := .refl session
  of_error _ h := nomatch h
  of_status _ _ _ := rfl

theorem fail_atomic (session : Session) (e : Error) : (Reply.fail session e).Atomic session where
  onePart := .refl session
  of_error _ _ := ⟨rfl, rfl⟩
  of_status _ _ _ := rfl

theorem atomic_of_ok {before : Session} {reply : Reply}
    (h_part : before.ChangesOnePart reply.session) (h_result : reply.result = .ok 0) :
    reply.Atomic before where
  onePart := h_part
  of_error e h := by
    rw [h_result] at h
    cases h
  of_status status h h_ne := by
    rw [h_result, Except.ok.injEq] at h
    exact absurd h.symm h_ne

/-! ### Binding several names -/

theorem set_eq_ok (session : Session) {key : String} (h : key ≠ "") (value : String) :
    ∃ env, session.set key value = .ok { session with env } := by
  have h_put : session.env.put key value = .ok ⟨session.env.bindings.insert key value⟩ := by
    rw [Environment.put, if_neg h]
  exact ⟨_, by rw [set, h_put]; rfl⟩

/-- `set` succeeds, and changes the variables only. -/
theorem setAll_eq (session : Session) (pairs : List (Except Error Pair)) :
    (∃ env, (session.setAll pairs).session = { session with env }) ∧
      (session.setAll pairs).result = .ok 0 := by
  induction pairs generalizing session with
  | nil => exact ⟨⟨session.env, rfl⟩, rfl⟩
  | cons pair pairs ih =>
    cases pair with
    | error e => exact ih session
    | ok pair =>
      rw [setAll]
      split
      · next h_name =>
        -- a name for a variable is not empty, so binding it does not fail
        have h_key : pair.key ≠ "" := by
          rintro h_empty
          simp [isVariableName, h_empty] at h_name
        obtain ⟨env, h_set⟩ := session.set_eq_ok h_key pair.value
        rw [h_set]
        exact ih { session with env }
      · exact ih session

/-- `alias` succeeds, and changes the registry only. -/
theorem aliasAll_eq (session : Session) (pairs : List (Except Error Pair)) :
    (∃ registry, (session.aliasAll pairs).session = { session with registry }) ∧
      (session.aliasAll pairs).result = .ok 0 := by
  induction pairs generalizing session with
  | nil => exact ⟨⟨session.registry, rfl⟩, rfl⟩
  | cons pair pairs ih =>
    cases pair with
    | error e => exact ih session
    | ok pair =>
      rw [aliasAll]
      split
      · exact ih session
      · -- a command that may not be replaced is complained of, which changes nothing
        cases h_register : session.register pair.key (.aliasOf pair.value) with
        | error e => exact ih session
        | ok changed =>
          obtain ⟨registry, -, h_eq⟩ := bind_eq_ok_iff.1 h_register
          cases h_eq
          exact ih { session with registry }

/-! ### Single commands -/

theorem cat_atomic (session : Session) (path : String) : (session.cat path).Atomic session := by
  unfold cat
  split
  · exact fail_atomic session _
  · split
    · exact say_atomic session _ 0
    · exact say_atomic session _ 1

theorem cat_error (session : Session) (path : String) {e : Error}
    (h : (session.cat path).result = .error e) : session.tree.Failure e := by
  unfold cat at h
  split at h
  · next h_get =>
    cases h
    exact .get h_get
  · split at h
    · cases h
    · cases h

theorem cd_atomic (session : Session) (path : String) : (session.cd path).Atomic session := by
  unfold cd
  split
  · next env _ => exact atomic_of_ok (.inl ⟨env, rfl⟩) rfl
  · exact fail_atomic session _

theorem cd_error (session : Session) (path : String) {e : Error}
    (h : (session.cd path).result = .error e) : session.tree.Failure e := by
  unfold cd at h
  split at h
  · cases h
  · next h_cd =>
    cases h
    exact .cd h_cd

theorem ls_atomic (session : Session) (path : String) : (session.ls path).Atomic session := by
  unfold ls
  split
  · exact fail_atomic session _
  · exact say_atomic session _ 0

theorem ls_error (session : Session) (path : String) {e : Error}
    (h : (session.ls path).result = .error e) : session.tree.Failure e := by
  unfold ls at h
  split at h
  · next h_list =>
    cases h
    exact .list h_list
  · cases h

/-- Making directories fails without a trace, because the tree does. -/
theorem mkdirp_atomic (session : Session) (path : String) :
    (session.mkdirp path).Atomic session := by
  rcases h_make : session.tree.mkdirp session.env path with ⟨after, result⟩
  unfold mkdirp
  rw [h_make]
  cases result with
  | ok id => exact atomic_of_ok (.inr (.inl ⟨after, rfl⟩)) rfl
  | error e =>
    -- what failed has made no directory
    obtain rfl : after = session.tree := (Tree.makePath_of_error h_make).1
    exact fail_atomic session e

theorem mkdirp_error (session : Session) (path : String) {e : Error}
    (h : (session.mkdirp path).result = .error e) : session.tree.Failure e := by
  rcases h_make : session.tree.mkdirp session.env path with ⟨after, result⟩
  unfold mkdirp at h
  rw [h_make] at h
  cases result with
  | ok id => cases h
  | error e' =>
    cases h
    exact .mkdirp (congrArg Prod.snd h_make)

theorem rm_atomic (session : Session) (path : String) : (session.rm path).Atomic session := by
  unfold rm
  split
  · exact fail_atomic session _
  · split
    · split
      · next tree _ _ => exact atomic_of_ok (.inr (.inl ⟨tree, rfl⟩)) rfl
      · exact fail_atomic session _
    · exact say_atomic session _ 1

theorem rm_error (session : Session) (path : String) {e : Error}
    (h : (session.rm path).result = .error e) : session.tree.Failure e := by
  unfold rm at h
  split at h
  · next h_get =>
    cases h
    exact .get h_get
  · next id h_get =>
    split at h
    · split at h
      · cases h
      · next h_remove =>
        cases h
        -- looking the file up and removing it is removing what is at the path
        exact .remove (bind_eq_error_iff.2 (.inr ⟨id, h_get, h_remove⟩))
    · cases h

theorem write_atomic (session : Session) (args : String) : (session.write args).Atomic session := by
  unfold write
  split
  · exact say_atomic session _ 1
  · split
    · next tree _ _ => exact atomic_of_ok (.inr (.inl ⟨tree, rfl⟩)) rfl
    · exact fail_atomic session _

theorem write_error (session : Session) (args : String) {e : Error}
    (h : (session.write args).result = .error e) : session.tree.Failure e := by
  unfold write at h
  split at h
  · cases h
  · split at h
    · cases h
    · next h_create =>
      cases h
      exact .createFile h_create

theorem showHelp_atomic (session : Session) (args : String) :
    (session.showHelp args).Atomic session := by
  unfold showHelp
  split
  · exact say_atomic session _ 0
  · split
    · exact say_atomic session _ 0
    · split
      · exact say_atomic session _ 0
      · exact say_atomic session _ 0

theorem showHelp_ne_error (session : Session) (args : String) (e : Error) :
    (session.showHelp args).result ≠ .error e := by
  unfold showHelp
  split
  · exact nofun
  · split
    · exact nofun
    · split
      · exact nofun
      · exact nofun

theorem showHistory_atomic (session : Session) (args : String) :
    (session.showHistory args).Atomic session := by
  unfold showHistory
  split
  · exact atomic_of_ok (.inr (.inr (.inl ⟨{}, rfl⟩))) rfl
  · exact say_atomic session _ 0

theorem showHistory_ne_error (session : Session) (args : String) (e : Error) :
    (session.showHistory args).result ≠ .error e := by
  unfold showHistory
  split
  · exact nofun
  · exact nofun

theorem sleep_atomic (session : Session) (args : String) : (session.sleep args).Atomic session := by
  unfold sleep
  dsimp only
  split
  · split
    · exact fail_atomic session _
    · exact atomic_of_ok (.refl session) rfl
  · exact say_atomic session _ 0

theorem sleep_error (session : Session) (args : String) {e : Error}
    (h : (session.sleep args).result = .error e) : ∃ text, e = .pauseTooLong text := by
  unfold sleep at h
  dsimp only at h
  split at h
  · split at h
    · cases h
      exact ⟨_, rfl⟩
    · cases h
  · cases h

end Session

/-! ### All commands -/

namespace Builtin

variable {command : Builtin} {args : String} {session : Session}

/-- **Built-in commands are atomic.** -/
theorem run_atomic (command : Builtin) (args : String) (session : Session) :
    (command.run args session).Atomic session := by
  cases command with
  | about => exact session.say_atomic _ 0
  | defineAlias =>
    -- without arguments it lists the aliases
    show (if args = "" then _ else _ : Reply).Atomic session
    split
    · exact session.say_atomic _ 0
    · obtain ⟨⟨registry, h_session⟩, h_result⟩ := session.aliasAll_eq (Pair.parse args)
      exact Session.atomic_of_ok (.inr (.inr (.inr ⟨registry, h_session⟩))) h_result
  | cat => exact session.cat_atomic args
  | cd => exact session.cd_atomic args
  | echo => exact session.say_atomic _ 0
  | env => exact session.say_atomic _ 0
  | help => exact session.showHelp_atomic args
  | history => exact session.showHistory_atomic args
  | ls => exact session.ls_atomic args
  | mkdirp => exact session.mkdirp_atomic args
  | potato => exact session.say_atomic _ 0
  | pwd => exact session.say_atomic _ 0
  | rm => exact session.rm_atomic args
  | set =>
    obtain ⟨⟨env, h_session⟩, h_result⟩ := session.setAll_eq (Pair.parse args)
    exact Session.atomic_of_ok (.inl ⟨env, h_session⟩) h_result
  | sleep => exact session.sleep_atomic args
  | write => exact session.write_atomic args

/-- **Each command has its part.** Whatever its arguments are, the other parts of the session stay
as they are. -/
theorem run_changesOnly (command : Builtin) (args : String) (session : Session) :
    session.ChangesOnly command.part? (command.run args session).session := by
  cases command with
  | set => exact (session.setAll_eq (Pair.parse args)).1
  | defineAlias =>
    rw [run]
    split
    · exact .refl _ session
    · exact (session.aliasAll_eq (Pair.parse args)).1
  | cd =>
    rw [run]
    unfold Session.cd
    split
    · next env _ => exact ⟨env, rfl⟩
    · exact .refl _ session
  | mkdirp =>
    rw [run]
    unfold Session.mkdirp
    rcases session.tree.mkdirp session.env args with ⟨tree, result⟩
    exact ⟨tree, rfl⟩
  | rm =>
    rw [run]
    unfold Session.rm
    split
    · exact .refl _ session
    · split
      · split
        · next tree _ _ => exact ⟨tree, rfl⟩
        · exact .refl _ session
      · exact .refl _ session
  | write =>
    rw [run]
    unfold Session.write
    split
    · exact .refl _ session
    · split
      · next tree _ _ => exact ⟨tree, rfl⟩
      · exact .refl _ session
  | history =>
    rw [run]
    unfold Session.showHistory
    split
    · exact ⟨{}, rfl⟩
    · exact .refl _ session
  | cat =>
    rw [run]
    unfold Session.cat
    repeat' split
    all_goals exact .refl _ session
  | help =>
    rw [run]
    unfold Session.showHelp
    repeat' split
    all_goals exact .refl _ session
  | ls =>
    rw [run]
    unfold Session.ls
    split
    all_goals exact .refl _ session
  | sleep =>
    rw [run]
    unfold Session.sleep
    dsimp only
    repeat' split
    all_goals exact .refl _ session
  | about => exact .refl _ session
  | echo => exact .refl _ session
  | env => exact .refl _ session
  | potato => exact .refl _ session
  | pwd => exact .refl _ session

theorem env_run (args : String) (session : Session) (h : command.part? ≠ some .environment) :
    (command.run args session).session.env = session.env :=
  (command.run_changesOnly args session).frame.1 h

theorem tree_run (args : String) (session : Session) (h : command.part? ≠ some .tree) :
    (command.run args session).session.tree = session.tree :=
  (command.run_changesOnly args session).frame.2.1 h

theorem history_run (args : String) (session : Session) (h : command.part? ≠ some .history) :
    (command.run args session).session.history = session.history :=
  (command.run_changesOnly args session).frame.2.2.1 h

theorem registry_run (args : String) (session : Session) (h : command.part? ≠ some .registry) :
    (command.run args session).session.registry = session.registry :=
  (command.run_changesOnly args session).frame.2.2.2 h

/-- **Where errors come from.** A built-in command ends in an error because the tree does, or
because a pause is too long. -/
theorem run_error {e : Error} (h : (command.run args session).result = .error e) :
    session.tree.Failure e ∨ ∃ text, e = .pauseTooLong text := by
  cases command with
  | cat => exact .inl (session.cat_error args h)
  | cd => exact .inl (session.cd_error args h)
  | ls => exact .inl (session.ls_error args h)
  | mkdirp => exact .inl (session.mkdirp_error args h)
  | rm => exact .inl (session.rm_error args h)
  | write => exact .inl (session.write_error args h)
  | sleep => exact .inr (session.sleep_error args h)
  | help => exact absurd h (session.showHelp_ne_error args e)
  | history => exact absurd h (session.showHistory_ne_error args e)
  | defineAlias =>
    rw [run] at h
    split at h
    · cases h
    · rw [(session.aliasAll_eq (Pair.parse args)).2] at h
      cases h
  | set =>
    rw [run, (session.setAll_eq (Pair.parse args)).2] at h
    cases h
  | about => cases h
  | echo => cases h
  | env => cases h
  | potato => cases h
  | pwd => cases h

/-- No error of a built-in command is about lines inside lines. -/
theorem run_not_nesting {e : Error} (h : (command.run args session).result = .error e) :
    e.isNesting = false := by
  rcases run_error h with h_failure | ⟨text, rfl⟩
  · exact h_failure.not_nesting
  · rfl

/-- With a well-formed tree, no error of a built-in command is about a number that leads nowhere. -/
theorem run_ne_danglingNode (h_tree : session.tree.WellFormed) :
    (command.run args session).result ≠ .error .danglingNode := by
  intro h
  rcases run_error h with h_failure | ⟨text, h_eq⟩
  · exact h_tree.failure_ne_danglingNode h_failure rfl
  · cases h_eq

end Builtin

end PocketShell
