import PocketShell.Command.Builtin
import PocketShell.History
import PocketShell.Output
import PocketShell.Tree.Lookup

/-!
# Commands

A command is built in, an **alias** (a text to be run in its place, with the arguments behind it),
or custom. Custom commands are those that whoever embeds a session adds to it. What such a command
does is a `Script`: it may write lines, look at everything in a session, change the variables, the
files and the history, register commands, have a line run as if it had been typed, go on with the
result of that, and end with a result. The commands of a session it can look at only from outside,
by what they say of themselves, and it cannot take one away.
-/

namespace PocketShell

/-- **What scripts may change at will:** everything in a session but its commands. -/
structure Workspace where
  env : Environment
  tree : Tree
  history : History

/-- **What a command says of itself.** -/
structure Label where
  /-- What the command is for, in one line; without it `help` does not list the command. -/
  summary? : Option String
  usage? : Option String
  /-- May the command not be replaced by another one? -/
  immutable : Bool
  /-- The text of an alias, for the list of aliases. -/
  aliasText? : Option String

/-- **What scripts may see:** everything in a session, its commands by name and label. -/
structure View extends Workspace where
  commands : List (String × Label)

/-- **Calls.** What a command is told when it is run. -/
structure Call where
  word : String
  /-- The raw text of its arguments. -/
  args : String
  /-- The commands that had a line run on the way to this one, outermost first. -/
  chain : List String

mutual

/-- **Scripts.** What a custom command does. -/
inductive Script where
  /-- Ends with a status or an error. -/
  | finish (result : Except Error Int)
  | print (line : Line) (next : Script)
  | consult (next : View → Script)
  | revise (change : Workspace → Workspace) (next : Script)
  /-- Registers a command and goes on with the result. -/
  | register (name : String) (command : Command) (next : Except Error Unit → Script)
  /-- Has a line run and goes on with its result. -/
  | reenter (line : String) (next : Except Error Int → Script)

/-- **Custom commands.** -/
structure Custom where
  /-- What the command is for, in one line; without it `help` does not list the command. -/
  summary? : Option String := none
  usage? : Option String := none
  /-- May the command not be replaced by another one? -/
  immutable : Bool := false
  /-- The text of the alias that the command takes the place of, if it does. -/
  aliasText? : Option String := none
  /-- What the command does when it is called. -/
  script : Call → Script

/-- **Commands.** -/
inductive Command where
  | builtin (command : Builtin)
  | aliasOf (text : String)
  | custom (command : Custom)

end

namespace Command

/-- What the command is for, in one line. -/
def summary? : Command → Option String
  | .builtin command => some command.summary
  | .aliasOf _ => none
  | .custom command => command.summary?

def usage? : Command → Option String
  | .builtin command => command.usage?
  | .aliasOf _ => none
  | .custom command => command.usage?

/-- May the command not be replaced by another one? -/
def immutable : Command → Bool
  | .builtin command => command.immutable
  | .aliasOf _ => false
  | .custom command => command.immutable

/-- The text of an alias, for the list of aliases. -/
def aliasText? : Command → Option String
  | .builtin _ => none
  | .aliasOf text => some text
  | .custom command => command.aliasText?

def label (command : Command) : Label where
  summary? := command.summary?
  usage? := command.usage?
  immutable := command.immutable
  aliasText? := command.aliasText?

end Command

end PocketShell
