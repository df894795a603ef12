import PocketShell.Session.Builtins

/-!
# Running a line

A line is run by the command that its first word names. A built-in command runs at once. An alias
has its text run in its place, with the arguments of the line behind it; a custom command may have
lines run as well. The names of the commands on the way, outermost first, are the **chain**. An
alias that is on the chain already would go on for ever, and is refused.

* `Script.run` — what a custom command does, given how a line is run;
* `Session.dispatch` — runs a line behind a chain of commands;
* `Session.invoke` — runs a line as it was typed.

Lines may have lines run only up to a depth, so that running is a total function. Aliases need no
more depth than there are names, since they are all different on a chain. A custom command may have
itself run as often as it likes; for these the depth that `Session.invoke` allows is larger than any
memory.
-/

namespace PocketShell

/-- **What a custom command does,** where `enter` is how a line is run. -/
def Script.run (enter : String → Session → Reply) : Script → Session → Reply
  | .finish result, session => { session, result }
  | .print line next, session =>
    (Reply.say session [line]).andThen (next.run enter session)
  | .consult next, session => (next session.view).run enter session
  | .revise change next, session =>
    next.run enter { session with toWorkspace := change session.toWorkspace }
  | .register name command next, session =>
    match session.register name command with
    | .ok session => (next (.ok ())).run enter session
    | .error e => (next (.error e)).run enter session
  | .reenter line next, session =>
    let reply := enter line session
    reply.andThen ((next reply.result).run enter reply.session)

namespace Session

/-- **Running a line** behind a chain of commands, with lines inside lines up to a depth. -/
def dispatch : Nat → List String → String → Session → Reply
  | 0, _, _, session => .fail session .nestedTooDeep
  | depth + 1, chain, line, session =>
    match CommandLine.ofString? (Text.trim line) with
    | none => .say session []
    | some ⟨word, args⟩ =>
      let enter := dispatch depth (chain ++ [word])
      match session.registry.find? word with
      | none => .fail session (.unknownCommand word)
      | some (.builtin command) => command.run args session
      | some (.aliasOf text) =>
        -- an alias may not come back, and its text is run with the arguments behind it
        if word ∈ chain then .fail session (.cyclicAlias (chain ++ [word]))
        else enter (text ++ " " ++ args) session
      | some (.custom command) => (command.script ⟨word, args, chain⟩).run enter session

/-- The depth up to which lines may have lines run: one for each name, and one for each address of
64 bits. -/
def maxDepth (session : Session) : Nat :=
  UInt64.size + session.registry.size

/-- **Running a line** as it was typed. -/
def invoke (session : Session) (line : String) : Reply :=
  dispatch session.maxDepth [] line session

end Session

end PocketShell
