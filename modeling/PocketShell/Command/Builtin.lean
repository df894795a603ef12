/-!
# Built-in commands: names and help

Every session knows sixteen commands from the start. This module gives their names, the one line of
`help` about each, and the longer text that some of them have; what they do is said in
`PocketShell.Session.Builtins`. Two of them may not be replaced by other commands: `alias`, which
makes the replacements, and `help`.
-/

namespace PocketShell

/-- **Built-in commands.** -/
inductive Builtin where
  | about
  | defineAlias
  | cat
  | cd
  | echo
  | env
  | help
  | history
  | ls
  | mkdirp
  | potato
  | pwd
  | rm
  | set
  | sleep
  | write
  deriving DecidableEq, Repr

namespace Builtin

/-- All built-in commands, in the order in which a session registers them. -/
def all : List Builtin :=
  [about, defineAlias, cat, cd, echo, env, help, history, ls, mkdirp, potato, pwd, rm, set, sleep,
    write]

def name : Builtin → String
  | about => "about"
  | defineAlias => "alias"
  | cat => "cat"
  | cd => "cd"
  | echo => "echo"
  | env => "env"
  | help => "help"
  | history => "history"
  | ls => "ls"
  | mkdirp => "mkdirp"
  | potato => "potato"
  | pwd => "pwd"
  | rm => "rm"
  | set => "set"
  | sleep => "sleep"
  | write => "write"

/-- What a command is for, in one line. -/
def summary : Builtin → String
  | about => "About this project"
  | defineAlias => "List and create aliases for commands"
  | cat => "Show contents of a text file"
  | cd => "Change current working directory"
  | echo => "Say something"
  | env => "Display environment values"
  | help => "Prints this message"
  | history => "List previously used commands"
  | ls => "List files and folders"
  | mkdirp => "Create directories"
  | potato => "Print a cute, little potato"
  | pwd => "Print current working directory"
  | rm => "Remove a file"
  | set => "Set an environment value"
  | sleep => "Wait a while"
  | write => "Create a text file"

/-- How a command is used, if it has more to say about that. -/
def usage? : Builtin → Option String
  | defineAlias => some <|
    "Usage:\n  alias\n  alias [name=\"command...\"]\n\n" ++
    "With no arguments, lists defined aliases.\n" ++
    "Otherwise defines each alias.\n\n" ++
    "Pairs are read from the end of the line backward, three tokens at a\n" ++
    "time, so a command with spaces must be quoted.\n" ++
    "alias greet=\"echo hello\" defines greet.\n" ++
    "alias greet=echo hello is a syntax error (Got =echohello)."
  | cat => some "Usage:\n  cat [file path]\n\nDumps the contents of a text file to the screen."
  | cd => some "Usage:\n  cd [path]\n\nChange the current working directory."
  | help => some <|
    "Usage:\n  help [command?]\n\nLists available commands, or explains one of them."
  | history => some <|
    "Usage:\n  history [--clear]\n\n" ++
    "With no arguments, displays your previously used commands up to $HISTORY_MAX.\n\n" ++
    "When the --clear argument is supplied, clears your stored history."
  | ls => some <|
    "Usage:\n  ls [path?]\n\n" ++
    "List contents of path, or the current working directory if no path provided.\n" ++
    "Prints the working directory first, then one $TAB-indented name per line."
  | mkdirp => some "Usage:\n  mkdirp [path]\n\nCreate the provided path if it does not exist."
  | set => some <|
    "Usage:\n  set [key=value...]\n\n" ++
    "Assigns one or more environment values. Quote values that contain spaces."
  | write => some <|
    "Usage:\n  write [file path] [content...]\n\n" ++
    "Creates a new text file. The parent directory must exist, and the file must not."
  | about | echo | env | potato | pwd | rm | sleep => none

/-- May the command not be replaced by another one? -/
def immutable (command : Builtin) : Bool :=
  command == defineAlias || command == help

end Builtin

end PocketShell
