import PocketShell.Session.Basic
import PocketShell.Settings.Statement

/-!
# Settings

What a user may set once for all sessions. A `Settings` value says for every setting whether it is
set, and to what; a settings file that gives a setting twice, gives it a value of the wrong sort, or
names an unknown one, is refused as a whole.

* `Settings.read?` — the settings of a file;
* `Settings.keepsHistory` — is the history kept for the next session? It is, unless set otherwise;
* `Settings.options` — how a session starts under the settings.

Variables are given in the table `env`, in one of three ways: one by one as its members, in one
value, or under its heading. The ways do not mix.
-/

namespace PocketShell

/-- **Settings.** -/
structure Settings where
  user? : Option String := none
  prompt? : Option String := none
  tab? : Option String := none
  historyMax? : Option Int := none
  seeded? : Option Bool := none
  /-- Is the history kept for the next session? -/
  keepsHistory? : Option Bool := none
  /-- The variables, ordered by name. -/
  extraVariables : List (String × String) := []
  deriving DecidableEq, Repr

namespace Settings

/-- Is the history kept for the next session? -/
def keepsHistory (settings : Settings) : Bool :=
  settings.keepsHistory?.getD true

/-- **The options of a session.** What is not set is as it is without settings. -/
def options (settings : Settings) : Session.Options :=
  let standard : Session.Options := {}
  { user := settings.user?.getD standard.user
    prompt := settings.prompt?.getD standard.prompt
    tab := settings.tab?.getD standard.tab
    historyMax := settings.historyMax?.getD standard.historyMax
    seeded := settings.seeded?.getD standard.seeded
    extraVariables := settings.extraVariables }

/-! ### Reading -/

/-- Adds a binding to a list that is ordered by name, unless the name is bound. -/
def insertNew? (name value : String) :
    List (String × String) → Option (List (String × String))
  | [] => some [(name, value)]
  | entry :: rest =>
    if name = entry.1 then none
    else if name < entry.1 then some ((name, value) :: entry :: rest)
    else (insertNew? name value rest).map (entry :: ·)

def addVariable? (settings : Settings) (name value : String) : Option Settings :=
  (insertNew? name value settings.extraVariables).map fun extraVariables =>
    { settings with extraVariables }

/-- The effect of a statement about one of the settings with a single value. -/
def setOption? (settings : Settings) : Statement → Option Settings
  | .entry "user" (.text text) =>
    if settings.user?.isSome then none else some { settings with user? := some text }
  | .entry "prompt" (.text text) =>
    if settings.prompt?.isSome then none else some { settings with prompt? := some text }
  | .entry "tab" (.text text) =>
    if settings.tab?.isSome then none else some { settings with tab? := some text }
  | .entry "history_max" (.integer number) =>
    if settings.historyMax?.isSome then none
    else some { settings with historyMax? := some number }
  | .entry "seed_filesystem" (.flag flag) =>
    if settings.seeded?.isSome then none else some { settings with seeded? := some flag }
  | .entry "save_history" (.flag flag) =>
    if settings.keepsHistory?.isSome then none
    else some { settings with keepsHistory? := some flag }
  | _ => none

/-- The name of the table of variables. -/
def variablesName : String := "env"

/-- Is the statement about the table of variables, from outside of it? -/
def isAboutVariables : Statement → Bool
  | .heading _ => false
  | .entry name _ => name = variablesName
  | .member table _ _ => table = variablesName

def isHeading : Statement → Bool
  | .heading _ => true
  | _ => false

/-- The effect of a statement about the table of variables. -/
def setMember? (settings : Settings) : Statement → Option Settings
  | .member _ name (.text text) => settings.addVariable? name text
  | _ => none

/-- The name of the variable that a date or a time gives, in the place of a table of variables. -/
def dateTimeName : String := "$__toml_private_datetime"

/-- The effect of all statements about the table of variables that stand before every heading:
either one value, or members one by one. A date or a time is a table of one variable. -/
def setVariables? (settings : Settings) : List Statement → Option Settings
  | [.entry _ (.table entries)] =>
    entries.foldlM (fun settings entry => settings.addVariable? entry.1 entry.2) settings
  | [.entry _ (.dateTime moment)] => settings.addVariable? dateTimeName moment.text
  | statements => statements.foldlM setMember? settings

/-- The effect of a statement under the heading of the variables. -/
def setUnderHeading? (settings : Settings) : Statement → Option Settings
  | .entry name (.text text) => settings.addVariable? name text
  | _ => none

/-- **The settings that statements give.** Only the table of variables has a heading, and it is not
given before its heading as well. -/
def ofStatements? (statements : List Statement) : Option Settings := do
  let (about, others) := (statements.takeWhile fun s => !isHeading s).partition isAboutVariables
  let settings ← setVariables? (← others.foldlM setOption? {}) about
  match statements.dropWhile fun s => !isHeading s with
  | .heading name :: members =>
    if name = variablesName ∧ about = [] then members.foldlM setUnderHeading? settings else none
  | _ => return settings

/-- **Reading.** The settings of a file. -/
def read? (text : String) : Option Settings := do
  ofStatements? (← statements? text)

end Settings

end PocketShell
