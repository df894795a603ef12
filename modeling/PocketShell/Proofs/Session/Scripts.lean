import PocketShell.Session.Entry

/-!
# What lines keep

A line may have lines run, through aliases and through custom commands, and all that happens to the
session on the way is done by built-in commands or by scripts. A script changes the session in two
ways by itself: it makes a change to everything but the commands, or it registers a command. So what
built-in commands keep, what these changes keep and what registering keeps, every line keeps:
`Script.run_keeps` is the induction over a script, and `Session.dispatch_keeps` the one over the
depth of lines inside lines.

What a script changes by itself is `Script.Revises`. The lines that it has run do not count, but the
commands that it registers do, since they may be run later on.

Entering lines is running and recording them one after the other; `Session.enterAll_keeps` is the
induction over the lines.
-/

namespace PocketShell

mutual

/-- **The changes of a script** are allowed, and so are those of the commands that it registers,
whatever it sees and whatever comes of the lines that it has run. -/
def Script.Revises (Allowed : (Workspace → Workspace) → Prop) : Script → Prop
  | .finish _ => True
  | .print _ next => next.Revises Allowed
  | .consult next => ∀ view, (next view).Revises Allowed
  | .revise change next => Allowed change ∧ next.Revises Allowed
  | .register _ command next => command.Revises Allowed ∧ ∀ result, (next result).Revises Allowed
  | .reenter _ next => ∀ result, (next result).Revises Allowed

/-- The changes of a custom command are allowed. -/
def Custom.Revises (Allowed : (Workspace → Workspace) → Prop) : Custom → Prop
  | ⟨_, _, _, _, script⟩ => ∀ call, (script call).Revises Allowed

/-- The changes of a command are allowed, if it is a custom one. -/
def Command.Revises (Allowed : (Workspace → Workspace) → Prop) : Command → Prop
  | .builtin _ | .aliasOf _ => True
  | .custom custom => custom.Revises Allowed

end

/-- The changes of all custom commands are allowed. -/
def Registry.Revises (Allowed : (Workspace → Workspace) → Prop) (registry : Registry) : Prop :=
  ∀ name custom, registry.find? name = some (.custom custom) →
    ∀ call, (custom.script call).Revises Allowed

variable {Allowed : (Workspace → Workspace) → Prop} {Kept : Session → Prop}

mutual

theorem Script.revises_of_forall (h : ∀ change, Allowed change) (script : Script) :
    script.Revises Allowed := by
  cases script with
  | finish _ => trivial
  | print _ next => exact next.revises_of_forall h
  | consult next => exact fun view => (next view).revises_of_forall h
  | revise change next => exact ⟨h change, next.revises_of_forall h⟩
  | register _ command next =>
    exact ⟨command.revises_of_forall h, fun result => (next result).revises_of_forall h⟩
  | reenter _ next => exact fun result => (next result).revises_of_forall h

theorem Custom.revises_of_forall (h : ∀ change, Allowed change) (custom : Custom) :
    custom.Revises Allowed := by
  cases custom with
  | mk _ _ _ _ script => exact fun call => (script call).revises_of_forall h

theorem Command.revises_of_forall (h : ∀ change, Allowed change) (command : Command) :
    command.Revises Allowed := by
  cases command with
  | builtin _ => trivial
  | aliasOf _ => trivial
  | custom custom => exact custom.revises_of_forall h

end

/-- **Scripts keep** what the lines that they have run keep, what their changes keep and what
registering keeps. -/
theorem Script.run_keeps {enter : String → Session → Reply}
    (h_enter : ∀ line session, Kept session → Kept (enter line session).session)
    (h_change : ∀ change, Allowed change → ∀ session : Session, Kept session →
      Kept { session with toWorkspace := change session.toWorkspace })
    (h_register : ∀ name (command : Command), command.Revises Allowed →
      ∀ session after : Session, Kept session → session.register name command = .ok after →
        Kept after)
    (script : Script) (h_script : script.Revises Allowed) {session : Session} (h : Kept session) :
    Kept (script.run enter session).session := by
  -- by recursion on the script, which goes on with one of its parts
  cases script with
  | finish result => exact h
  | print line next => exact next.run_keeps h_enter h_change h_register h_script h
  | consult next =>
    exact (next session.view).run_keeps h_enter h_change h_register (h_script _) h
  | revise change next =>
    have h_changed := h_change change h_script.1 session h
    exact next.run_keeps h_enter h_change h_register h_script.2 h_changed
  | register name command next =>
    rw [Script.run]
    split
    · next after h_after =>
      have h_next := h_register name command h_script.1 session after h h_after
      exact (next (.ok ())).run_keeps h_enter h_change h_register (h_script.2 _) h_next
    · next e _ =>
      exact (next (.error e)).run_keeps h_enter h_change h_register (h_script.2 _) h
  | reenter line next =>
    have h_next := h_enter line session h
    exact (next _).run_keeps h_enter h_change h_register (h_script _) h_next

namespace Session

/-- **Lines keep** what built-in commands keep and what custom commands keep, as long as these can
rely on the lines that they have run. -/
theorem dispatch_keeps
    (h_builtin : ∀ (command : Builtin) args session, Kept session →
      Kept (command.run args session).session)
    (h_custom : ∀ (custom : Custom) word session, Kept session →
      session.registry.find? word = some (.custom custom) → ∀ enter : String → Session → Reply,
        (∀ line session, Kept session → Kept (enter line session).session) →
          ∀ call, Kept ((custom.script call).run enter session).session)
    (depth : Nat) (chain : List String) (line : String) {session : Session} (h : Kept session) :
    Kept (dispatch depth chain line session).session := by
  induction depth generalizing chain line session with
  | zero => exact h
  | succ depth ih =>
    unfold dispatch
    split
    · exact h
    · next word args _ =>
      dsimp only
      split
      · exact h
      · exact h_builtin _ args session h
      · -- an alias runs its text, or is refused
        split
        · exact h
        · exact ih _ _ h
      · next custom h_find =>
        exact h_custom custom word session h h_find _ (fun line session => ih _ line) _

theorem after_enterAll_cons (session : Session) (line : String) (lines : List String) :
    session.after (session.enterAll (line :: lines)) =
      (session.enter line).session.after ((session.enter line).session.enterAll lines) := by
  simp only [enterAll, after, List.foldl_cons]

/-- **Entering lines keeps** what entering each of them keeps. -/
theorem enterAll_keeps {lines : List String}
    (h_enter : ∀ line ∈ lines, ∀ session, Kept session → Kept (session.enter line).session)
    {session : Session} (h : Kept session) : Kept (session.after (session.enterAll lines)) := by
  induction lines generalizing session with
  | nil => exact h
  | cons line lines ih =>
    rw [after_enterAll_cons]
    exact ih (fun other h_mem => h_enter other (List.mem_cons_of_mem _ h_mem))
      (h_enter line List.mem_cons_self session h)

end Session

end PocketShell
