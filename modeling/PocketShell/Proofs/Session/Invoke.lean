import PocketShell.Proofs.Session.Builtins
import PocketShell.Proofs.Session.Expansion

/-!
# What a line leaves behind

In a session without custom commands a line comes down to one built-in command, or to none
(`Session.invoke_cases`). Aliases change nothing on the way, so a line leaves behind what the
command does: one part of the session has changed at most, and nothing has if the line failed
(`Session.invoke_atomic`).

The registry of a new session holds built-in commands only, and one more alias keeps it plain
(`Registry.standard_isPlain`, `Registry.IsPlain.insert`).
-/

namespace PocketShell

/-! ### Plain registries -/

namespace Registry

theorem IsPlain.insert {commands : OrderedMap Command} (h : IsPlain ⟨commands⟩) (name : String)
    {command : Command} (h_command : ∀ custom, command ≠ .custom custom) :
    IsPlain ⟨commands.insert name command⟩ := by
  intro other custom
  rw [find?, OrderedMap.find?_insert]
  split
  · exact fun h_eq => h_command custom (Option.some.inj h_eq)
  · exact h other custom

/-- **Registries of built-in commands** only. -/
def HoldsBuiltins (registry : Registry) : Prop :=
  ∀ name command, registry.find? name = some command → ∃ builtin, command = .builtin builtin

theorem HoldsBuiltins.insert {commands : OrderedMap Command} (h : HoldsBuiltins ⟨commands⟩)
    (name : String) (builtin : Builtin) :
    HoldsBuiltins ⟨commands.insert name (.builtin builtin)⟩ := by
  intro other command h_find
  rw [find?, OrderedMap.find?_insert] at h_find
  split at h_find
  · exact ⟨builtin, (Option.some.inj h_find).symm⟩
  · exact h other command h_find

theorem HoldsBuiltins.isPlain {registry : Registry} (h : registry.HoldsBuiltins) :
    registry.IsPlain := by
  intro name custom h_find
  obtain ⟨builtin, h_eq⟩ := h name _ h_find
  cases h_eq

theorem standard_holdsBuiltins : standard.HoldsBuiltins := by
  -- the registry is filled command by command, and holds only such commands at each stage
  have h_fold : ∀ (builtins : List Builtin) (commands : OrderedMap Command),
      HoldsBuiltins ⟨commands⟩ →
        HoldsBuiltins ⟨builtins.foldl (fun map builtin =>
          map.insert builtin.name (.builtin builtin)) commands⟩ := by
    intro builtins
    induction builtins with
    | nil => exact fun _ h => h
    | cons builtin builtins ih => exact fun commands h => ih _ (h.insert builtin.name builtin)
  exact h_fold Builtin.all ∅ fun _ _ h_find => nomatch h_find

theorem standard_isPlain : standard.IsPlain :=
  standard_holdsBuiltins.isPlain

end Registry

namespace Session

variable {session : Session}

/-! ### Settled lines -/

/-- A settled line runs a built-in command, or names no command, or is blank. -/
theorem settle_cases (session : Session) (line : String) :
    (∃ command args, session.settle line = Builtin.run command args session) ∨
      (∃ word, session.settle line = .fail session (.unknownCommand word)) ∨
      session.settle line = .say session [] := by
  unfold settle
  split
  · exact .inr (.inr rfl)
  · next word args _ =>
    split
    · next command _ => exact .inl ⟨command, args, rfl⟩
    · exact .inr (.inl ⟨word, rfl⟩)

theorem settle_atomic (session : Session) (line : String) :
    (session.settle line).Atomic session := by
  rcases session.settle_cases line with ⟨command, args, h⟩ | ⟨word, h⟩ | h
  · rw [h]
    exact Builtin.run_atomic command args session
  · rw [h]
    exact session.fail_atomic _
  · rw [h]
    exact session.say_atomic [] 0

theorem settle_not_nesting {line : String} {e : Error}
    (h_error : (session.settle line).result = .error e) : e.isNesting = false := by
  rcases session.settle_cases line with ⟨command, args, h⟩ | ⟨word, h⟩ | h
  · rw [h] at h_error
    exact Builtin.run_not_nesting h_error
  · rw [h] at h_error
    cases h_error
    rfl
  · rw [h] at h_error
    cases h_error

theorem settle_ne_danglingNode (h_tree : session.tree.WellFormed) (line : String) :
    (session.settle line).result ≠ .error .danglingNode := by
  rcases session.settle_cases line with ⟨command, args, h⟩ | ⟨word, h⟩ | h
  · rw [h]
    exact Builtin.run_ne_danglingNode h_tree
  · rw [h]
    exact nofun
  · rw [h]
    exact nofun

/-! ### Lines -/

/-- **Lines are atomic.** A line changes one part of the session at most. If it ends in an error, it
has changed nothing and written nothing; if it ends with a status other than zero, it has changed
nothing. It never meets a number that leads nowhere, and never runs out of depth. -/
theorem invoke_atomic (h_plain : session.registry.IsPlain) (h_tree : session.tree.WellFormed)
    (line : String) :
    (session.invoke line).Atomic session ∧
      (session.invoke line).result ≠ .error .danglingNode ∧
      (session.invoke line).result ≠ .error .nestedTooDeep := by
  obtain ⟨words, last, -, -, ⟨-, h_settle⟩ | ⟨word, next, -, -, h_cyclic⟩⟩ :=
    session.invoke_cases h_plain line
  · -- the line comes to one that is settled, and leaves behind what that one does
    rw [h_settle]
    refine ⟨session.settle_atomic last, settle_ne_danglingNode h_tree last, fun h_deep => ?_⟩
    exact Bool.noConfusion (settle_not_nesting h_deep)
  · -- an alias comes back, and the line is refused before anything is run
    rw [h_cyclic]
    exact ⟨session.fail_atomic _, nofun, nofun⟩

/-- A session with nothing in it but the built-in commands and one alias. -/
def withAlias (name text : String) : Session where
  env := {}
  tree := Tree.empty
  history := {}
  registry := ⟨Registry.standard.commands.insert name (.aliasOf text)⟩

theorem withAlias_isPlain (name text : String) : (withAlias name text).registry.IsPlain :=
  Registry.standard_isPlain.insert name nofun

/-- An alias leads to a command that fails, and the session is as it was. -/
theorem invoke_atomic_enter :
    (withAlias "enter" "cd").registry.IsPlain ∧ (withAlias "enter" "cd").tree.WellFormed ∧
      ((withAlias "enter" "cd").invoke "enter nowhere").result = .error (.invalidPath "nowhere") ∧
      ((withAlias "enter" "cd").invoke "enter nowhere").session = withAlias "enter" "cd" ∧
      ((withAlias "enter" "cd").invoke "enter nowhere").lines = [] := by
  have h_plain := withAlias_isPlain "enter" "cd"
  have h_tree : (withAlias "enter" "cd").tree.WellFormed := .empty
  have h_error : ((withAlias "enter" "cd").invoke "enter nowhere").result =
      .error (.invalidPath "nowhere") := by
    rfl
  obtain ⟨h_atomic, -⟩ := invoke_atomic h_plain h_tree "enter nowhere"
  exact ⟨h_plain, h_tree, h_error, h_atomic.of_error _ h_error⟩

end Session

end PocketShell
