/-!
# Where files are kept

A terminal reads its settings from one file and keeps its history in another. Both stand in
directories of the user: those that two variables name, if they are absolute, or the usual ones
below the home directory. A third variable names the settings file itself.
-/

namespace PocketShell

/-- **Places.** Where a terminal keeps its files. -/
structure Places where
  settingsFile : String
  historyDirectory : String
  deriving DecidableEq, Repr

namespace Places

/-- The path of a name below a directory. -/
def join (directory name : String) : String :=
  match directory.toList.getLast? with
  | none | some '/' => directory ++ name
  | some _ => directory ++ "/" ++ name

def isAbsolute (path : String) : Bool :=
  path.toList.head? = some '/'

/-- The home directory, or one for passing files if there is none. -/
def home (value? : String → Option String) : String :=
  ((value? "HOME").filter fun path => !path.isEmpty).getD "/tmp"

/-- The directory that a variable names, if it is absolute, or the usual one below the home
directory. -/
def directory (value? : String → Option String) (name usual : String) : String :=
  ((value? name).filter isAbsolute).getD (join (home value?) usual)

/-- The name of the directories that belong to this program. -/
def programName : String := "potatos"

/-- **The places** for given variables. -/
def ofVariables (value? : String → Option String) : Places where
  settingsFile :=
    (value? "POTATOS_CONFIG").getD
      (join (join (directory value? "XDG_CONFIG_HOME" ".config") programName) "config.toml")
  historyDirectory := join (directory value? "XDG_DATA_HOME" ".local/share") programName

def historyFile (places : Places) : String :=
  join places.historyDirectory "history.txt"

end Places

end PocketShell
