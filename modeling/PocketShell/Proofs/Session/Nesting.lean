import PocketShell.Proofs.Session.Passes

/-!
# Running without a bound

`Session.dispatch` gives up on lines inside lines at some depth, so that it is a total function. A
custom command may have any line run, itself included, and nothing but the command says when it is
done. `Task.Ends` has the rules of `dispatch` and of `Script.run` without a depth: it says that a
line or a script comes to an end, with which reply, and how many lines were running one inside the
other at most.

The depth does not matter to what comes to an end: with a depth for all its lines `dispatch` gives
the same reply (`Task.Ends.run_eq`, by induction on the rules, at all depths at once). So there is
one reply at most (`Task.Ends.unique`), and `Session.invoke` gives it if its depth is enough
(`Session.invoke_of_ends`). In a session without custom commands every line comes to an end, with as
many lines inside each other as it has passes (`Session.Runs.ends`).
-/

namespace PocketShell

/-- **Tasks.** What is run behind a chain of commands: a line, or what is left of a script. -/
inductive Task where
  | line (line : String)
  | script (script : Script)

namespace Task

/-- What is run with lines inside lines up to a depth. -/
def run (depth : Nat) (chain : List String) : Task → Session → Reply
  | .line text, session => Session.dispatch depth chain text session
  | .script todo, session => todo.run (Session.dispatch depth chain) session

/-- **Coming to an end:** with a reply, and with a number of lines inside each other at most. -/
inductive Ends : List String → Task → Session → Nat → Reply → Prop where
  | blank {chain : List String} {line : String} {session : Session} :
      CommandLine.ofString? (Text.trim line) = none →
      Ends chain (.line line) session 1 (.say session [])
  | unknown {chain : List String} {line word args : String} {session : Session} :
      CommandLine.ofString? (Text.trim line) = some ⟨word, args⟩ →
      session.registry.find? word = none →
      Ends chain (.line line) session 1 (.fail session (.unknownCommand word))
  | builtin {chain : List String} {line word args : String} {command : Builtin}
      {session : Session} :
      CommandLine.ofString? (Text.trim line) = some ⟨word, args⟩ →
      session.registry.find? word = some (.builtin command) →
      Ends chain (.line line) session 1 (command.run args session)
  | refuse {chain : List String} {line word args text : String} {session : Session} :
      CommandLine.ofString? (Text.trim line) = some ⟨word, args⟩ →
      session.registry.find? word = some (.aliasOf text) → word ∈ chain →
      Ends chain (.line line) session 1 (.fail session (.cyclicAlias (chain ++ [word])))
  | enter {chain : List String} {line word args text : String} {session : Session} {n : Nat}
      {reply : Reply} :
      CommandLine.ofString? (Text.trim line) = some ⟨word, args⟩ →
      session.registry.find? word = some (.aliasOf text) → word ∉ chain →
      Ends (chain ++ [word]) (.line (text ++ " " ++ args)) session n reply →
      Ends chain (.line line) session (n + 1) reply
  | custom {chain : List String} {line word args : String} {custom : Custom} {session : Session}
      {n : Nat} {reply : Reply} :
      CommandLine.ofString? (Text.trim line) = some ⟨word, args⟩ →
      session.registry.find? word = some (.custom custom) →
      Ends (chain ++ [word]) (.script (custom.script ⟨word, args, chain⟩)) session n reply →
      Ends chain (.line line) session (n + 1) reply
  | finish {chain : List String} {result : Except Error Int} {session : Session} :
      Ends chain (.script (.finish result)) session 0 { session, result }
  | print {chain : List String} {line : Line} {next : Script} {session : Session} {n : Nat}
      {reply : Reply} :
      Ends chain (.script next) session n reply →
      Ends chain (.script (.print line next)) session n ((Reply.say session [line]).andThen reply)
  | consult {chain : List String} {next : View → Script} {session : Session} {n : Nat}
      {reply : Reply} :
      Ends chain (.script (next session.view)) session n reply →
      Ends chain (.script (.consult next)) session n reply
  | revise {chain : List String} {change : Workspace → Workspace} {next : Script}
      {session : Session} {n : Nat} {reply : Reply} :
      Ends chain (.script next) { session with toWorkspace := change session.toWorkspace } n reply →
      Ends chain (.script (.revise change next)) session n reply
  | register {chain : List String} {name : String} {command : Command}
      {next : Except Error Unit → Script} {session after : Session} {n : Nat} {reply : Reply} :
      session.register name command = .ok after →
      Ends chain (.script (next (.ok ()))) after n reply →
      Ends chain (.script (.register name command next)) session n reply
  | registerFails {chain : List String} {name : String} {command : Command}
      {next : Except Error Unit → Script} {session : Session} {e : Error} {n : Nat}
      {reply : Reply} :
      session.register name command = .error e →
      Ends chain (.script (next (.error e))) session n reply →
      Ends chain (.script (.register name command next)) session n reply
  | reenter {chain : List String} {line : String} {next : Except Error Int → Script}
      {session : Session} {n m : Nat} {first last : Reply} :
      Ends chain (.line line) session n first →
      Ends chain (.script (next first.result)) first.session m last →
      Ends chain (.script (.reenter line next)) session (max n m) (first.andThen last)

variable {chain : List String} {task : Task} {session : Session} {n : Nat} {reply : Reply}

/-- **A depth that is enough** for the lines inside each other does not matter. -/
theorem Ends.run_eq (h : Ends chain task session n reply) {depth : Nat} (h_depth : n ≤ depth) :
    task.run depth chain session = reply := by
  induction h generalizing depth with
  | finish => rfl
  | print _ ih => exact congrArg (Reply.andThen _) (ih h_depth)
  | consult _ ih => exact ih h_depth
  | revise _ ih => exact ih h_depth
  | register h_register _ ih =>
    rw [run, Script.run, h_register]
    exact ih h_depth
  | registerFails h_register _ ih =>
    rw [run, Script.run, h_register]
    exact ih h_depth
  | @reenter chain line next session n m first last _ _ ih_first ih_last =>
    have h_first : Session.dispatch depth chain line session = first :=
      ih_first (Nat.le_trans (Nat.le_max_left n m) h_depth)
    have h_last := ih_last (Nat.le_trans (Nat.le_max_right n m) h_depth)
    rw [run, Script.run, h_first]
    exact congrArg first.andThen h_last
  | @enter chain line word args text session n reply h_line h_find h_new _ ih =>
    -- the line inside has one depth less, and needs one less
    obtain ⟨depth, rfl⟩ := Nat.exists_eq_add_of_le' (Nat.one_le_of_lt h_depth)
    have h_rest : Session.dispatch depth (chain ++ [word]) (text ++ " " ++ args) session = reply :=
      ih (Nat.le_of_succ_le_succ h_depth)
    rw [run]
    unfold Session.dispatch
    simp [h_line, h_find, h_new, h_rest]
  | @custom chain line word args custom session n reply h_line h_find _ ih =>
    obtain ⟨depth, rfl⟩ := Nat.exists_eq_add_of_le' (Nat.one_le_of_lt h_depth)
    have h_rest : (custom.script ⟨word, args, chain⟩).run
        (Session.dispatch depth (chain ++ [word])) session = reply :=
      ih (Nat.le_of_succ_le_succ h_depth)
    rw [run]
    unfold Session.dispatch
    simp [h_line, h_find, h_rest]
  | _ =>
    -- the line is the only one
    obtain ⟨depth, rfl⟩ := Nat.exists_eq_add_of_le' h_depth
    rw [run]
    unfold Session.dispatch
    simp [*]

/-- **There is one reply** at most. -/
theorem Ends.unique (h : Ends chain task session n reply) {n' : Nat} {reply' : Reply}
    (h' : Ends chain task session n' reply') : reply' = reply := by
  rw [← h.run_eq (Nat.le_max_left n n'), h'.run_eq (Nat.le_max_right n n')]

end Task

namespace Session

variable {session : Session} {line : String}

/-- **A line that comes to an end** is run to its end, unless it has more lines inside each other
than there is depth for. -/
theorem invoke_of_ends {n : Nat} {reply : Reply} (h : Task.Ends [] (.line line) session n reply)
    (h_depth : n ≤ session.maxDepth) : session.invoke line = reply :=
  h.run_eq h_depth

/-- **Aliases come to an end,** with a line for each pass. -/
theorem Runs.ends {chain : List String} {passes : List Pass} {reply : Reply}
    (h : session.Runs chain line passes reply) :
    Task.Ends chain (.line line) session passes.length reply := by
  induction h with
  | blank h_line => exact .blank h_line
  | unknown h_line h_find => exact .unknown h_line h_find
  | builtin h_line h_find => exact .builtin h_line h_find
  | refuse h_line h_find h_mem => exact .refuse h_line h_find h_mem
  | enter h_line h_find h_new _ ih => exact .enter h_line h_find h_new ih

end Session

end PocketShell
