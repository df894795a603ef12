import PocketShell.Session.Entry
import PocketShell.Settings.Basic
import PocketShell.Terminal.Places

/-!
# Terminals

A terminal is a session of a user, with settings and with a history that outlives the session. The
terminal itself reads and writes no file: it is given what reading a file gave, a `Reading`, and
gives the text that is to be written.

* `Terminal.ofSettings`, `Terminal.restore` — starts a session, and brings back the history of the
  last one;
* `Terminal.start` — both together, for the files of a user; a `Failure` says why there is none;
* `Terminal.stored?` — the text of the history file for the next session.
-/

namespace PocketShell

/-- **Readings.** What comes of reading a file. -/
inductive Reading where
  | missing
  /-- There is something, but it cannot be read as text. -/
  | unreadable
  | text (text : String)
  deriving DecidableEq, Repr

/-- **Terminals.** -/
structure Terminal where
  session : Session
  /-- Is the history kept for the next session? -/
  keepsHistory : Bool

/-- **Reasons why a terminal does not start.** -/
inductive Terminal.Failure where
  | unreadable (path : String)
  | badSettings (path : String)
  | noSession (error : Error)
  deriving DecidableEq, Repr

namespace Terminal

/-! ### Failures -/

/-- The words for a settings file that is refused. -/
def badSettingsMessage : String := "invalid config"

def Failure.message : Failure → String
  | .unreadable path => "reading " ++ path
  | .badSettings path => "parsing " ++ path
  | .noSession _ => "failed to start session"

/-- The words for what led to a failure. -/
def Failure.cause? : Failure → Option String
  | .unreadable _ => none
  | .badSettings _ => some badSettingsMessage
  | .noSession error => some error.message

/-- **The words for a failure,** with what led to it. -/
def Failure.report (failure : Failure) : String :=
  "Error: " ++ failure.message ++
    match failure.cause? with
    | none => ""
    | some cause => "\n\nCaused by:\n    " ++ cause

/-! ### Starting -/

/-- The terminal of a new session. -/
def ofSettings (settings : Settings) : Except Failure Terminal :=
  match Session.start settings.options with
  | .ok session => .ok { session, keepsHistory := settings.keepsHistory }
  | .error error => .error (.noSession error)

/-- The lines that the text of a history file offers. A history that is not kept offers none. -/
def offered (terminal : Terminal) (text : String) : List String :=
  if terminal.keepsHistory then (History.ofText text).entries else []

/-- **Bringing back the history** of the last session from the text of its file. -/
def restore (terminal : Terminal) (text : String) : Terminal :=
  if terminal.keepsHistory then
    { terminal with session := terminal.session.load (terminal.offered text) }
  else terminal

/-- The settings that reading the settings file gives. Without a file nothing is set. -/
def readSettings (path : String) : Reading → Except Failure Settings
  | .missing => .ok {}
  | .unreadable => .error (.unreadable path)
  | .text text =>
    match Settings.read? text with
    | some settings => .ok settings
    | none => .error (.badSettings path)

/-- The terminal with the history that reading the history file gives. A file that is not wanted
does not matter. -/
def readHistory (terminal : Terminal) (path : String) : Reading → Except Failure Terminal
  | .missing => .ok terminal
  | .unreadable => if terminal.keepsHistory then .error (.unreadable path) else .ok terminal
  | .text text => .ok (terminal.restore text)

/-- **Starting a terminal,** given what reading its two files gave. -/
def start (places : Places) (settings history : Reading) : Except Failure Terminal := do
  let settings ← readSettings places.settingsFile settings
  let terminal ← ofSettings settings
  terminal.readHistory places.historyFile history

/-! ### Ending -/

/-- **The text of the history file** for the next session, if the history is kept. -/
def stored? (terminal : Terminal) : Option String :=
  if terminal.keepsHistory then some terminal.session.history.toText else none

end Terminal

end PocketShell
