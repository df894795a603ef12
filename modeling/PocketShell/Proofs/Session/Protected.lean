import PocketShell.Proofs.Session.Execution
import PocketShell.Proofs.Session.Passes
import PocketShell.Proofs.Session.Registering

/-!
# Protected commands

A session is used from outside and from inside. From outside lines are typed and commands are
registered; from inside a custom command registers commands, has lines run behind a chain of others,
and makes changes to everything but the commands. Each of these is an `Event`, and `Session.live`
goes through events one after the other. Whatever state a session comes to, between two lines or in
the middle of one, it comes to by events: what a script does is made of events, too
(`Session.run_script_eq_live`).

Whatever happens, all that becomes of the registry is that commands are registered, one after the
other (`Session.live_registered`). It follows that an immutable command stays under its name, that
no name leaves, and that names keep the order in which they were first registered. For a session
that was started in the usual way this means that `alias` and `help` are always the built-in
commands (`Session.live_protects`), and `alias` alone lists exactly the names that are bound to
aliases at the time, and those of custom commands that report to be aliases.
-/

namespace PocketShell

/-! ### Aliases -/

namespace Registry

/-- Aliases are in the order of all names, each once. -/
theorem names_aliases_sublist (registry : Registry) :
    (registry.aliases.map Prod.fst).Sublist registry.commands.keys := by
  unfold aliases OrderedMap.keys
  induction registry.commands.entries with
  | nil => exact .slnil
  | cons entry entries ih =>
    obtain ⟨name, command⟩ := entry
    cases h_text : command.aliasText? with
    | none => simpa [h_text] using ih.cons name
    | some text => simpa [h_text] using ih.cons_cons name

end Registry

/-! ### Events -/

/-- **Events.** What happens to a session, from outside or inside a line. -/
inductive Event where
  | invoke (line : String)
  | register (name : String) (command : Command)
  /-- A line inside a line, behind a chain of commands. -/
  | reenter (depth : Nat) (chain : List String) (line : String)
  /-- Everything but the commands is changed. -/
  | revise (change : Workspace → Workspace)

namespace Session

/-- **What an event does to a session.** A command that cannot be registered is not. -/
def react (session : Session) : Event → Session
  | .invoke line => (session.invoke line).session
  | .register name command =>
    match session.register name command with
    | .ok after => after
    | .error _ => session
  | .reenter depth chain line => (dispatch depth chain line session).session
  | .revise change => { session with toWorkspace := change session.toWorkspace }

/-- **Living:** events one after the other. -/
def live (session : Session) (events : List Event) : Session :=
  events.foldl react session

theorem live_cons (session : Session) (event : Event) (events : List Event) :
    session.live (event :: events) = (session.react event).live events := by
  rw [live, List.foldl_cons, live]

theorem live_append_singleton (session : Session) (events : List Event) (event : Event) :
    session.live (events ++ [event]) = (session.live events).react event := by
  rw [live, List.foldl_append, List.foldl_cons, List.foldl_nil, live]

/-- **What a script does is made of events,** up to any line that it has run. -/
theorem run_script_eq_live (script : Script) (depth : Nat) (chain : List String)
    (session : Session) :
    ∃ events, (script.run (dispatch depth chain) session).session = session.live events := by
  -- the invariant: what has been done so far is made of events
  refine @Script.run_keeps (fun _ => True) (fun reached => ∃ events, reached = session.live events)
    _ ?_ ?_ ?_ script (script.revises_of_forall fun _ => trivial) session ⟨[], rfl⟩
  · rintro line _ ⟨events, rfl⟩
    refine ⟨events ++ [.reenter depth chain line], ?_⟩
    rw [live_append_singleton, react]
  · rintro change - _ ⟨events, rfl⟩
    refine ⟨events ++ [.revise change], ?_⟩
    rw [live_append_singleton, react]
  · rintro name command - _ after ⟨events, rfl⟩ h_register
    refine ⟨events ++ [.register name command], ?_⟩
    rw [live_append_singleton, react, h_register]

/-- **An event registers commands,** and does nothing else to the registry. -/
theorem react_registered (session : Session) (event : Event) :
    (session.react event).registry.Registered (fun _ => True) session.registry := by
  cases event with
  | invoke line =>
    rw [react]
    exact (session.invoke_gains line).registered
  | register name command =>
    rw [react]
    split
    · next after h_after => exact .single trivial (registry_of_register h_after)
    · exact .refl
  | reenter depth chain line =>
    rw [react]
    exact (dispatch_gains depth chain line session).registered
  | revise change =>
    rw [react]
    exact .refl

/-- **All that ever becomes of a registry** is that commands are registered. -/
theorem live_registered (session : Session) (events : List Event) :
    (session.live events).registry.Registered (fun _ => True) session.registry := by
  induction events generalizing session with
  | nil => exact .refl
  | cons event events ih =>
    rw [live_cons]
    exact (ih (session.react event)).trans (session.react_registered event)

/-! ### Protection -/

variable {session : Session}

/-- In a new session an immutable command is found under its name. -/
theorem find?_of_start {options : Options} (h_start : start options = .ok session)
    {command : Builtin} (h_command : command ∈ [Builtin.defineAlias, .help]) :
    session.registry.find? command.name = some (.builtin command) := by
  rw [registry_of_start h_start]
  rcases List.mem_pair.1 h_command with rfl | rfl
  · rfl
  · rfl

/-- **An immutable command is what it was at the start.** -/
theorem find?_live {options : Options} (h_start : start options = .ok session)
    (events : List Event) {command : Builtin} (h_command : command ∈ [Builtin.defineAlias, .help]) :
    (session.live events).registry.find? command.name = some (.builtin command) := by
  have h_immutable : (Command.builtin command).immutable = true := by
    rcases List.mem_pair.1 h_command with rfl | rfl
    · rfl
    · rfl
  exact (session.live_registered events).find?_immutable (find?_of_start h_start h_command)
    h_immutable

/-- The lines of `alias` on its own, for the aliases that there are. -/
theorem aliasLines_eq (session : Session) :
    session.aliasLines =
      if session.registry.aliases = [] then [.out "No aliases defined."]
      else session.registry.aliases.map fun entry => .out (entry.1 ++ "=" ++ entry.2) := by
  unfold aliasLines
  split
  · next h_none => rw [if_pos h_none]
  · next h_some => rw [if_neg h_some]

/-- **Protected commands stay protected.** Whatever happens to a session before and after a moment:

* an immutable command that is found under a name at that moment is found under it later on;
* the names of that moment are the first ones later on, in the same order;
* a command that is registered is found under its name;
* if the session was started in the usual way, `alias` and `help` name the built-in commands, and a
  line that begins with one of these words runs the command, on its own or behind any chain;
* in such a session, `alias` alone changes nothing and lists the names of the commands that report
  the text of an alias, each once and in the order of all names, with these texts. A name that is
  bound to an alias reports the text of the alias, and no other name is on the list unless it is
  bound to a custom command that reports a text. -/
theorem live_protects (session : Session) (before events : List Event) :
    let now := session.live before
    let later := session.live (before ++ events)
    (∀ name command, now.registry.find? name = some command → command.immutable = true →
        later.registry.find? name = some command) ∧
      now.registry.commands.keys <+: later.registry.commands.keys ∧
      (∀ name command after, now.register name command = .ok after →
        after.registry.find? name = some command) ∧
      ∀ options, start options = .ok session →
        (∀ command ∈ [Builtin.defineAlias, .help],
          now.registry.find? command.name = some (.builtin command) ∧
            ∀ line args, CommandLine.ofString? (Text.trim line) = some ⟨command.name, args⟩ →
              now.invoke line = command.run args now ∧
                ∀ depth chain, dispatch (depth + 1) chain line now = command.run args now) ∧
          ∀ line, CommandLine.ofString? (Text.trim line) = some ⟨"alias", ""⟩ →
            now.invoke line =
                .say now (if now.registry.aliases = [] then [.out "No aliases defined."]
                  else now.registry.aliases.map fun entry => .out (entry.1 ++ "=" ++ entry.2)) ∧
              (∀ name text, (name, text) ∈ now.registry.aliases ↔
                ∃ command, now.registry.find? name = some command ∧
                  command.aliasText? = some text) ∧
              (∀ name, (∀ custom, now.registry.find? name = some (.custom custom) →
                  custom.aliasText? = none) →
                ∀ text, (name, text) ∈ now.registry.aliases ↔
                  now.registry.find? name = some (.aliasOf text)) ∧
              (now.registry.aliases.map Prod.fst).Nodup ∧
              (now.registry.aliases.map Prod.fst).Sublist now.registry.commands.keys := by
  intro now later
  have h_later : later.registry.Registered (fun _ => True) now.registry := by
    have h_split : later = now.live events := List.foldl_append
    rw [h_split]
    exact now.live_registered events
  refine ⟨fun name command => h_later.find?_immutable, h_later.keys_prefix, ?_, ?_⟩
  · intro name command after h_after
    rw [(Registry.find?_of_register (registry_of_register h_after) name).1, if_pos rfl]
  · intro options h_start
    have h_named {command : Builtin} (h_command : command ∈ [Builtin.defineAlias, .help])
        {line args : String}
        (h_line : CommandLine.ofString? (Text.trim line) = some ⟨command.name, args⟩) :
        now.named? line = some (command, args) :=
      named?_eq_some_iff.2 ⟨command.name, h_line, find?_live h_start before h_command⟩
    constructor
    · intro command h_command
      refine ⟨find?_live h_start before h_command, fun line args h_line => ?_⟩
      exact ⟨invoke_of_named? (h_named h_command h_line),
        dispatch_of_named? (h_named h_command h_line)⟩
    · intro line h_line
      refine ⟨?_, fun name text => Registry.mem_aliases_iff,
        fun name h_custom text => Registry.mem_aliases_iff_of_find? h_custom, ?_,
        now.registry.names_aliases_sublist⟩
      · have h_alias : now.named? line = some (.defineAlias, "") :=
          h_named List.mem_cons_self h_line
        rw [invoke_of_named? h_alias, ← aliasLines_eq]
        rfl
      · exact now.registry.commands.distinct.sublist now.registry.names_aliases_sublist

/-- A custom command that cannot be replaced, and that tries to replace `help` and itself. -/
def usurper : Custom where
  immutable := true
  script := fun call =>
    .register "help" (.aliasOf "echo") fun _ =>
      .reenter ("alias ls=echo " ++ call.word ++ "=ls") .finish

/-- The command is registered and run, and so is an alias that defines aliases. -/
def attempts : List Event :=
  [.register "usurp" (.custom usurper), .invoke "usurp", .register "a" (.aliasOf "alias help=ls"),
    .invoke "a b=\"echo c\" ls=cat"]

/-- Nothing comes of it but aliases under other names, one of them in the place of `ls`. -/
theorem live_protects_attempts :
    ∃ session, start { seeded := false } = .ok session ∧
      (session.live (attempts.take 1)).registry.find? "usurp" = some (.custom usurper) ∧
      (session.live attempts).registry.find? "usurp" = some (.custom usurper) ∧
      (session.live attempts).registry.find? "help" = some (.builtin .help) ∧
      (session.live attempts).invoke "alias" =
        .say (session.live attempts) [.out "ls=cat", .out "a=alias help=ls", .out "b=echo c"] := by
  obtain ⟨session, h_start⟩ : ∃ session, start { seeded := false } = .ok session := ⟨_, rfl⟩
  have h_usurp :
      (session.live (attempts.take 1)).registry.find? "usurp" = some (.custom usurper) := by
    cases h_start
    rfl
  obtain ⟨h_kept, -⟩ := session.live_protects (attempts.take 1) (attempts.drop 1)
  obtain ⟨-, -, -, h_started⟩ := session.live_protects attempts []
  obtain ⟨h_builtins, h_listing⟩ := h_started _ h_start
  have h_line : CommandLine.ofString? (Text.trim "alias") = some ⟨"alias", ""⟩ := by decide +kernel
  have h_aliases : (session.live attempts).registry.aliases =
      [("ls", "cat"), ("a", "alias help=ls"), ("b", "echo c")] := by
    cases h_start
    decide +kernel
  have h_invoke := (h_listing "alias" h_line).1
  rw [h_aliases] at h_invoke
  exact ⟨session, h_start, h_usurp, h_kept _ _ h_usurp rfl,
    (h_builtins .help (by decide)).1, h_invoke⟩

end Session

end PocketShell
