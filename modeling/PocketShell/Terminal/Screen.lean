import PocketShell.Session.Reply

/-!
# What a terminal shows

A terminal greets the user, shows lines of error output in red, and says when its input has ended.
A terminal that edits lines while they are typed shows the prompt by itself; a plain one, which
cannot, has it written to the regular output before every line, the one that never comes included.
-/

namespace PocketShell.Screen

/-- The greeting: the name of the system in bold, and where to find help. -/
def greeting : String :=
  "\x1b[1m" ++ Session.systemName ++ "\x1b[0m\nType \"help\" to see available commands.\n\n"

/-- What is shown at the end of the input. -/
def farewell : String := "^D\n"

/-- What is shown when a line cannot be read. -/
def breakdown : String := "\nA line cannot be read.\n"

/-- **Painting.** A line as a terminal shows it. -/
def paint : Line → String
  | .out text => text ++ "\n"
  | .err text => "\x1b[31m" ++ text ++ "\x1b[39m\n"

/-- All lines of regular output, or of error output, as a terminal shows them. -/
def paintAll (isErr : Bool) (lines : List Line) : String :=
  String.join ((lines.filter fun line => line.isErr = isErr).map paint)

/-- The kinds of plain terminals. -/
def plainKinds : List String := ["dumb", "cons25", "emacs"]

/-- Is a terminal plain, given the variables of its surroundings? -/
def isPlain (value? : String → Option String) : Bool :=
  (value? "TERM").any fun kind => plainKinds.contains (kind.map Char.toLower)

/-- What a plain terminal shows before a line. -/
def invitation (isPlain : Bool) (session : Session) : String :=
  if isPlain then session.prompt ++ " " else ""

end PocketShell.Screen
