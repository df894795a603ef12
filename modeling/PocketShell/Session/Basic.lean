import PocketShell.Command.Registry
import PocketShell.Tree.Manifest

/-!
# Sessions

A `Session` is everything that lines of input can see and change: variables, files, history and
commands. `Session.start` makes one from `Options`: the five variables with a meaning of their own,
then the extra ones, then a tree that is either the standard one or empty.

Some settings live in variables and are read when they are needed: `Session.prompt`,
`Session.historyLimit`.
-/

namespace PocketShell

/-- **Sessions.** -/
structure Session extends Workspace where
  registry : Registry

/-- **Options** of a new session. -/
structure Session.Options where
  user : String := "spud"
  /-- The prompt, with references to variables in it. -/
  prompt : String := "$CWD $"
  tab : String := "  "
  /-- The number of lines to remember; a negative number for all of them. -/
  historyMax : Int := 100
  /-- Does the session start with the standard tree, or with an empty one? -/
  seeded : Bool := true
  /-- Variables to bind after those above. -/
  extraVariables : List (String × String) := []
  deriving DecidableEq, Repr

namespace Session

def systemName : String := "🥔 PotatOS 0.2.0"

/-- The variables of a new session, in order. -/
def Options.bindings (options : Options) : List (String × String) :=
  [(Environment.cwdName, "/"), (Environment.userName, options.user),
    (Environment.tabName, options.tab), (Environment.historyMaxName, toString options.historyMax),
    (Environment.promptName, options.prompt)] ++ options.extraVariables

/-- **Starting a session.** -/
def start (options : Options) : Except Error Session := do
  let env ← ({} : Environment).putAll options.bindings
  let tree ← if options.seeded then Manifest.build env Manifest.standardText else .ok Tree.empty
  return { env, tree, history := {}, registry := Registry.standard }

/-- What is seen of a session from inside. -/
def view (session : Session) : View where
  toWorkspace := session.toWorkspace
  commands := session.registry.labels

def cwd (session : Session) : String :=
  session.env.cwd

/-- The prompt, with its references replaced. -/
def prompt (session : Session) : String :=
  session.env.interpolate (session.env.get Environment.promptName)

/-- The number of lines that are remembered at present, if there is a limit. -/
def historyLimit (session : Session) : Option Nat :=
  History.limitOf (session.env.number Environment.historyMaxName)

def record (session : Session) (line : String) : Session :=
  { session with history := session.history.push line session.historyLimit }

/-- Puts lines in the place of the history, as many of the newest as are remembered at present. -/
def load (session : Session) (lines : List String) : Session :=
  { session with history := History.truncate ⟨lines⟩ session.historyLimit }

def set (session : Session) (key value : String) : Except Error Session := do
  return { session with env := ← session.env.put key value }

def register (session : Session) (name : String) (command : Command) : Except Error Session := do
  return { session with registry := ← session.registry.register name command }

end Session

end PocketShell
