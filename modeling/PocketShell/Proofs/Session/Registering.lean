import PocketShell.Proofs.Environment
import PocketShell.Proofs.Session.Invoke
import PocketShell.Proofs.Session.Scripts
import PocketShell.Proofs.Tree.Standard

/-!
# What lines do to the registry

The registry of a session changes in one way only: commands are registered, one after the other
(`Registry.Registered`). Of the built-in commands `alias` alone does so, and all that it registers
are aliases; the script of a custom command may register commands of any kind. So the registry that
a line leaves behind has gained some commands, and only aliases if there are no custom commands to
begin with (`Session.invoke_gains`).

Two things never come of that: no immutable command is lost (`Registry.Registered.find?_immutable`),
and where there are built-in commands and aliases only, there is never anything else
(`Registry.Gains.isPlain`). A first use of this is `Registry.Equipped`: the registry of a session
that was started and has been used for any time holds built-in commands and aliases only, and the
command `alias` is what it was (`Session.equipped_of_start`).
-/

namespace PocketShell

def Command.IsAlias (command : Command) : Prop :=
  ∃ text, command = .aliasOf text

namespace Registry

/-- **Registering one after the other** some commands, all of them of a kind. -/
inductive Registered (Kind : Command → Prop) (after : Registry) : Registry → Prop where
  | refl : Registered Kind after after
  | register {registry middle : Registry} {name : String} {command : Command} :
      Kind command → registry.register name command = .ok middle →
      Registered Kind after middle → Registered Kind after registry

/-- **Gaining commands.** Some commands were registered; aliases only, if there was no custom
command to register others. -/
structure Gains (after registry : Registry) : Prop where
  registered : Registered (fun _ => True) after registry
  aliases : registry.IsPlain → Registered Command.IsAlias after registry

/-- **Equipped registries.** They are plain and hold the command that defines aliases. -/
structure Equipped (registry : Registry) : Prop where
  plain : registry.IsPlain
  alias_eq : registry.find? "alias" = some (.builtin .defineAlias)

variable {Kind : Command → Prop} {registry after : Registry}

namespace Registered

theorem trans {middle : Registry} (h : Registered Kind after middle)
    (h' : Registered Kind middle registry) : Registered Kind after registry := by
  induction h' with
  | refl => exact h
  | register h_kind h_register _ ih => exact .register h_kind h_register ih

theorem mono {Larger : Command → Prop} (h : Registered Kind after registry)
    (h_larger : ∀ command, Kind command → Larger command) : Registered Larger after registry := by
  induction h with
  | refl => exact .refl
  | register h_kind h_register _ ih => exact .register (h_larger _ h_kind) h_register ih

theorem single {name : String} {command : Command} (h_kind : Kind command)
    (h : registry.register name command = .ok after) : Registered Kind after registry :=
  .register h_kind h .refl

end Registered

theorem keys_prefix_of_register {name : String} {command : Command}
    (h : registry.register name command = .ok after) :
    registry.commands.keys <+: after.commands.keys := by
  unfold Registry.register at h
  split at h
  · cases h
  · cases h
    exact OrderedMap.keys_prefix_insert _ _ _

/-- What is found after a command was registered: the command, or what was found before. The name
was free, or belonged to a command that may be replaced. -/
theorem find?_of_register {name : String} {command : Command}
    (h : registry.register name command = .ok after) (other : String) :
    after.find? other = (if other = name then some command else registry.find? other) ∧
      ((registry.find? name).any Command.immutable) = false := by
  unfold Registry.register at h
  split at h
  · cases h
  · next h_free =>
    cases h
    exact ⟨OrderedMap.find?_insert _ _ _ _, Bool.not_eq_true _ ▸ h_free⟩

/-- **No immutable command is lost.** -/
theorem Registered.find?_immutable (h : Registered Kind after registry) {name : String}
    {command : Command} (h_find : registry.find? name = some command)
    (h_immutable : command.immutable = true) : after.find? name = some command := by
  induction h with
  | refl => exact h_find
  | register _ h_register _ ih =>
    obtain ⟨h_middle, h_free⟩ := find?_of_register h_register name
    refine ih ?_
    rw [h_middle, if_neg, h_find]
    rintro rfl
    rw [h_find, Option.any_some, h_immutable] at h_free
    cases h_free

/-- **No name leaves,** and names keep their order. -/
theorem Registered.keys_prefix (h : Registered Kind after registry) :
    registry.commands.keys <+: after.commands.keys := by
  induction h with
  | refl => exact List.prefix_refl _
  | register _ h_register _ ih => exact (keys_prefix_of_register h_register).trans ih

/-- Aliases are no custom commands. -/
theorem Registered.isPlain (h : Registered Command.IsAlias after registry)
    (h_plain : registry.IsPlain) : after.IsPlain := by
  induction h with
  | refl => exact h_plain
  | register h_alias h_register _ ih =>
    obtain ⟨text, rfl⟩ := h_alias
    refine ih fun other custom h_find => ?_
    rw [(find?_of_register h_register other).1] at h_find
    split at h_find
    · cases h_find
    · exact h_plain other custom h_find

namespace Gains

theorem refl : Gains registry registry :=
  ⟨.refl, fun _ => .refl⟩

theorem of_aliases (h : Registered Command.IsAlias after registry) : Gains after registry :=
  ⟨h.mono fun _ _ => trivial, fun _ => h⟩

/-- **Where there are no custom commands, there will be none.** -/
theorem isPlain (h_gains : Gains after registry) (h : registry.IsPlain) : after.IsPlain :=
  (h_gains.aliases h).isPlain h

theorem trans {middle : Registry} (h : Gains after middle) (h' : Gains middle registry) :
    Gains after registry where
  registered := h.registered.trans h'.registered
  aliases h_plain := (h.aliases (h'.isPlain h_plain)).trans (h'.aliases h_plain)

theorem equipped (h_gains : Gains after registry) (h : registry.Equipped) :
    after.Equipped :=
  ⟨h_gains.isPlain h.plain, h_gains.registered.find?_immutable h.alias_eq rfl⟩

end Gains

theorem standard_equipped : standard.Equipped :=
  ⟨standard_isPlain, by rfl⟩

section Revises

variable {Allowed : (Workspace → Workspace) → Prop}

/-- A registered command counts like those that were there before. -/
theorem Revises.register (h : registry.Revises Allowed) {name : String} {command : Command}
    (h_command : command.Revises Allowed)
    (h_register : registry.register name command = .ok after) : after.Revises Allowed := by
  intro other custom h_find
  rw [(find?_of_register h_register other).1] at h_find
  split at h_find
  · obtain rfl := Option.some.inj h_find
    cases custom with
    | mk _ _ _ script => exact h_command
  · exact h other custom h_find

theorem Registered.revises (h_registered : Registered Command.IsAlias after registry)
    (h : registry.Revises Allowed) : after.Revises Allowed := by
  induction h_registered with
  | refl => exact h
  | register h_alias h_register _ ih =>
    obtain ⟨text, rfl⟩ := h_alias
    have h_text : (Command.aliasOf text).Revises Allowed := trivial
    exact ih (h.register h_text h_register)

end Revises

end Registry

namespace Session

theorem registry_of_register {session after : Session} {name : String} {command : Command}
    (h : session.register name command = .ok after) :
    session.registry.register name command = .ok after.registry := by
  obtain ⟨registry, h_registry, h_eq⟩ := bind_eq_ok_iff.1 h
  cases h_eq
  exact h_registry

theorem history_of_register {session after : Session} {name : String} {command : Command}
    (h : session.register name command = .ok after) : after.history = session.history := by
  obtain ⟨registry, -, h_eq⟩ := bind_eq_ok_iff.1 h
  cases h_eq
  rfl

theorem aliasAll_registered (session : Session) (pairs : List (Except Error Pair)) :
    (session.aliasAll pairs).session.registry.Registered Command.IsAlias session.registry := by
  induction pairs generalizing session with
  | nil => exact .refl
  | cons pair pairs ih =>
    cases pair with
    | error e => exact ih session
    | ok pair =>
      rw [aliasAll]
      split
      · exact ih session
      · cases h_register : session.register pair.key (.aliasOf pair.value) with
        | error e => exact ih session
        | ok changed =>
          exact .register ⟨pair.value, rfl⟩ (registry_of_register h_register) (ih changed)

variable {session : Session}

theorem run_registered (command : Builtin) (args : String) (session : Session) :
    (command.run args session).session.registry.Registered Command.IsAlias session.registry := by
  cases command with
  | defineAlias =>
    rw [Builtin.run]
    split
    · exact .refl
    · exact session.aliasAll_registered _
  | _ =>
    -- the other commands have nothing to do with the registry
    rw [Builtin.registry_run args session (by decide)]
    exact .refl

/-- **A line registers commands,** and does nothing else to the registry. -/
theorem dispatch_gains (depth : Nat) (chain : List String) (line : String) (session : Session) :
    (dispatch depth chain line session).session.registry.Gains session.registry := by
  refine @dispatch_keeps (fun reached => reached.registry.Gains session.registry)
    (fun command args reached h => .trans (.of_aliases (run_registered command args reached)) h) ?_
    depth chain line session .refl
  intro custom word reached h_reached h_find enter h_enter call
  -- a custom command can only have come from one
  have h_custom : ¬ session.registry.IsPlain := fun h_plain =>
    h_reached.isPlain h_plain word custom h_find
  refine Script.run_keeps h_enter (fun _ _ _ h => h) ?_ _
    (Script.revises_of_forall (fun _ => trivial) _) h_reached
  intro name command _ before after h h_register
  have h_single : after.registry.Registered (fun _ => True) before.registry :=
    .single trivial (registry_of_register h_register)
  exact ⟨h_single.trans h.registered, fun h_plain => absurd h_plain h_custom⟩

theorem invoke_gains (session : Session) (line : String) :
    (session.invoke line).session.registry.Gains session.registry := by
  rw [invoke]
  exact dispatch_gains session.maxDepth [] line session

/-- **What the scripts of a registry may change stays allowed.** -/
theorem invoke_revises {Allowed : (Workspace → Workspace) → Prop}
    (h : session.registry.Revises Allowed) (line : String) :
    (session.invoke line).session.registry.Revises Allowed := by
  rw [invoke]
  refine @dispatch_keeps (fun reached => reached.registry.Revises Allowed)
    (fun command args reached h => (run_registered command args reached).revises h) ?_
    session.maxDepth [] line session h
  intro custom word reached h_reached h_find enter h_enter call
  refine Script.run_keeps h_enter (fun _ _ _ h => h) ?_ _ (h_reached word custom h_find call)
    h_reached
  intro name command h_command before after h h_register
  exact h.register h_command (registry_of_register h_register)

/-! ### Sessions in use -/

@[simp] theorem registry_record (session : Session) (line : String) :
    (session.record line).registry = session.registry := rfl

theorem enter_gains (session : Session) (line : String) :
    (session.enter line).session.registry.Gains session.registry := by
  unfold enter
  dsimp only
  split
  · exact .refl
  · rw [registry_record]
    exact session.invoke_gains (Text.trim line)

theorem enter_revises {Allowed : (Workspace → Workspace) → Prop}
    (h : session.registry.Revises Allowed) (line : String) :
    (session.enter line).session.registry.Revises Allowed := by
  unfold enter
  dsimp only
  split
  · exact h
  · rw [registry_record]
    exact invoke_revises h (Text.trim line)

/-- **What a session starts with.** -/
theorem of_start {options : Options} (h : start options = .ok session) :
    ({} : Environment).putAll options.bindings = .ok session.env ∧
      (if options.seeded then Manifest.standard.toTree session.env else .ok Tree.empty) =
        .ok session.tree ∧
      session.registry = Registry.standard := by
  unfold start at h
  obtain ⟨env, h_env, h_rest⟩ := bind_eq_ok_iff.1 h
  dsimp only at h_rest
  split at h_rest
  · next h_seeded =>
    obtain ⟨tree, h_tree, h_session⟩ := bind_eq_ok_iff.1 h_rest
    cases h_session
    rw [Manifest.build_standardText] at h_tree
    exact ⟨h_env, (if_pos h_seeded).trans h_tree, rfl⟩
  · next h_empty =>
    cases h_rest
    exact ⟨h_env, if_neg h_empty, rfl⟩

/-- **A session starts** if its variables can be bound. -/
theorem exists_start {options : Options} {env : Environment}
    (h_env : ({} : Environment).putAll options.bindings = .ok env) :
    ∃ session, start options = .ok session := by
  obtain ⟨tree, h_tree⟩ := Manifest.exists_toTree_standard env
  rw [← Manifest.build_standardText] at h_tree
  unfold start
  rw [h_env, bind_ok]
  dsimp only
  split
  · rw [h_tree, bind_ok]
    exact ⟨_, rfl⟩
  · exact ⟨_, rfl⟩

theorem registry_of_start {options : Options} (h : start options = .ok session) :
    session.registry = Registry.standard :=
  (of_start h).2.2

/-- **The variables with a meaning of their own** have the values of the options, unless an extra
variable has the name. -/
theorem find?_env_of_start {options : Options} (h : start options = .ok session)
    {key value : String} (h_own : (key, value) ∈ [(Environment.cwdName, "/"),
      (Environment.userName, options.user), (Environment.tabName, options.tab),
      (Environment.historyMaxName, toString options.historyMax),
      (Environment.promptName, options.prompt)])
    (h_extra : ∀ binding ∈ options.extraVariables, binding.1 ≠ key) :
    session.env.bindings.find? key = some value := by
  have h_nodup : [Environment.cwdName, Environment.userName, Environment.tabName,
      Environment.historyMaxName, Environment.promptName].Nodup := by decide
  exact Environment.find?_putAll_of_mem (of_start h).1 h_nodup h_own h_extra

theorem start_equipped {options : Options} (h : start options = .ok session) :
    session.registry.Equipped :=
  registry_of_start h ▸ Registry.standard_equipped

/-- Any number of lines registers commands, one after the other. -/
theorem enterAll_gains (session : Session) (lines : List String) :
    (session.after (session.enterAll lines)).registry.Gains session.registry :=
  @enterAll_keeps (fun reached => reached.registry.Gains session.registry) lines
    (fun line _ reached h => (reached.enter_gains line).trans h) session .refl

/-- **Sessions in use are equipped,** after any number of lines. -/
theorem equipped_of_start {options : Options} (h : start options = .ok session)
    (lines : List String) :
    (session.after (session.enterAll lines)).registry.Equipped :=
  (session.enterAll_gains lines).equipped (start_equipped h)

end Session

end PocketShell
