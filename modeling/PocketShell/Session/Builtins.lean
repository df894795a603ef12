import PocketShell.Decimal.Layout
import PocketShell.Pair
import PocketShell.Session.Reply
import PocketShell.Text.Table
import PocketShell.Token.CommandLine

/-!
# What the built-in commands do

`Builtin.run` says what each built-in command does with its arguments, the raw text behind the
command word. Commands that take a path or a text to show use it as it stands; `write`, `set` and
`alias` cut it into tokens.

A command that fails with an error leaves the session as it is. The commands that bind several names
at once, `set` and `alias`, write a line for each group they cannot use and go on with the next.
-/

namespace PocketShell.Session

/-! ### Showing -/

def about (session : Session) : Reply :=
  .say session [
    .out systemName,
    .out (String.ofList (List.replicate 80 '═')),
    .out (Text.table [["Source code", "https://github.com/dgrundel/PotatOS"],
      ["Terminal support", "Anything that renders UTF-8."]] 4)]

/-- Shows all variables, sorted by name. -/
def showVariables (session : Session) : Reply :=
  let sorted := session.env.toList.mergeSort fun a b => a.1 ≤ b.1
  .say session (sorted.map fun binding => .out (binding.1 ++ "=" ++ binding.2))

/-- The rows of the table of commands: those that say what they are for, by name. -/
def commandRows (session : Session) : List (List String) :=
  session.registry.names.filterMap fun name => do
    let summary ← (← session.registry.find? name).summary?
    return [session.env.get Environment.tabName ++ name, summary]

/-- Shows all commands, or how one of them is used. -/
def showHelp (session : Session) (args : String) : Reply :=
  if args = "" then
    .say session [
      .out "Use \"help [command]\" to get more info on a specific command.\n",
      .out "Available commands:\n",
      .out (Text.table session.commandRows 2)]
  else
    match session.registry.find? args with
    | none => .say session [.err ("Unknown command \"" ++ args ++ "\".")]
    | some command =>
      match command.usage? with
      | some usage => .say session [.out usage]
      | none =>
        .say session
          [.err ("Command \"" ++ args ++ "\" has not provided additional help info.")]

/-- Shows the history, each line with its number, or clears it. -/
def showHistory (session : Session) (args : String) : Reply :=
  if args = "--clear" then { session := { session with history := {} } }
  else
    .say session (session.history.entries.mapIdx fun i line => .out (toString i ++ " " ++ line))

/-! ### Files -/

def cat (session : Session) (path : String) : Reply :=
  match session.tree.get session.env path with
  | .error e => .fail session e
  | .ok id =>
    match (session.tree.node? id).bind Node.blob? with
    | some blob => .say session [.out blob.text]
    | none => .say session [.err ("\"" ++ session.tree.name id ++ "\" is not a file.")] 1

def cd (session : Session) (path : String) : Reply :=
  match session.tree.cd session.env path with
  | .ok env => { session := { session with env } }
  | .error e => .fail session e

/-- Lists a directory, or a file itself. -/
def ls (session : Session) (path : String) : Reply :=
  match session.tree.list session.env path with
  | .error e => .fail session e
  | .ok ids =>
    let tab := session.env.get Environment.tabName
    .say session (.out ("cwd: " ++ session.cwd) ::
      ids.map fun id => .out (tab ++ session.tree.name id))

/-- Makes a directory, with what is missing above it. -/
def mkdirp (session : Session) (path : String) : Reply :=
  let (tree, result) := session.tree.mkdirp session.env path
  { session := { session with tree }, result := result.map fun _ => 0 }

def rm (session : Session) (path : String) : Reply :=
  match session.tree.get session.env path with
  | .error e => .fail session e
  | .ok id =>
    if (session.tree.node? id).any Node.isFile then
      match session.tree.removeNode id with
      | .ok (tree, _) => { session := { session with tree } }
      | .error e => .fail session e
    else .say session [.err (session.tree.name id ++ " is not a file.")] 1

/-- Makes a file: its path is the first word of the arguments, its text the rest. -/
def write (session : Session) (args : String) : Reply :=
  match CommandLine.ofString? args with
  | none => .say session [.err "Usage: write [file path] [content...]"] 1
  | some ⟨path, content⟩ =>
    match session.tree.createFile session.env path (.plain content) with
    | .ok (tree, _) => { session := { session with tree } }
    | .error e => .fail session e

/-! ### Binding names -/

/-- The names that `set` may bind. -/
def isVariableName (key : String) : Bool :=
  key ≠ "" && key.toList.all Environment.isNameChar

/-- Binds a variable for each pair that has a name for one, and complains of every other group. -/
def setAll (session : Session) : List (Except Error Pair) → Reply
  | [] => .say session []
  | .error e :: rest => (Reply.say session [.err e.message]).andThen (session.setAll rest)
  | .ok pair :: rest =>
    if isVariableName pair.key then
      match session.set pair.key pair.value with
      | .ok session => session.setAll rest
      | .error e => .fail session e
    else
      let complaint := "Error: " ++ pair.key ++ " must match pattern /^[A-Za-z0-9_-]+$/"
      (Reply.say session [.err complaint]).andThen (session.setAll rest)

/-- Defines an alias for each pair that has a text, and complains of every other group. -/
def aliasAll (session : Session) : List (Except Error Pair) → Reply
  | [] => .say session []
  | .error e :: rest => (Reply.say session [.err e.message]).andThen (session.aliasAll rest)
  | .ok pair :: rest =>
    if pair.value = "" then
      let complaint :=
        "Error: Alias " ++ pair.key ++ " cannot be empty. Maybe try using double quotes."
      (Reply.say session [.err complaint]).andThen (session.aliasAll rest)
    else
      match session.register pair.key (.aliasOf pair.value) with
      | .ok session => session.aliasAll rest
      | .error e => (Reply.say session [.err e.message]).andThen (session.aliasAll rest)

/-- The lines of a listing of aliases. -/
def aliasLines (session : Session) : List Line :=
  match session.registry.aliases with
  | [] => [.out "No aliases defined."]
  | aliases => aliases.map fun entry => .out (entry.1 ++ "=" ++ entry.2)

/-! ### Waiting -/

/-- Numbers of seconds are written without an exponent, and without a point if they are integral. -/
def secondsLayout : Decimal.Layout where
  positional := fun _ => true
  integral := ""
  tie := .upward

/-- Waits for a number of seconds; what is no positive number is no time. A number of seconds must
fit 64 bits. -/
def sleep (session : Session) (args : String) : Reply :=
  let seconds := (readFloat? args).getD 0
  if 0 < seconds then
    let text := secondsLayout.text seconds
    if Float.ofScientific (Nat.pow 2 64) false 0 ≤ seconds then .fail session (.pauseTooLong text)
    else
      { session, lines := [.out ("Sleeping for " ++ text ++ " seconds.")], pause := seconds }
  else .say session []

end Session

/-- **What a built-in command does** with its arguments. -/
def Builtin.run (command : Builtin) (args : String) (session : Session) : Reply :=
  match command with
  | .about => session.about
  | .defineAlias =>
    if args = "" then .say session session.aliasLines else session.aliasAll (Pair.parse args)
  | .cat => session.cat args
  | .cd => session.cd args
  | .echo => .say session [.out (session.env.interpolate args)]
  | .env => session.showVariables
  | .help => session.showHelp args
  | .history => session.showHistory args
  | .ls => session.ls args
  | .mkdirp => session.mkdirp args
  | .potato => .say session [.out "🥔"]
  | .pwd => .say session [.out session.cwd]
  | .rm => session.rm args
  | .set => session.setAll (Pair.parse args)
  | .sleep => session.sleep args
  | .write => session.write args

end PocketShell
