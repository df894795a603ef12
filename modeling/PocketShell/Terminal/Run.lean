import PocketShell.Session.Entry
import PocketShell.Terminal.Disk
import PocketShell.Terminal.Screen
import PocketShell.Terminal.Typing

/-!
# Runs of the program

The whole program on input that is given at once, as a function: from the variables of its
surroundings, a disk and the input to what it shows and to the disk that it leaves behind. No time
passes in it.

* `Run.ofInput` — a run from its start, which may fail;
* `Run.ofLines` — what follows the start. A line that cannot be read ends the run at once, without a
  farewell and without the history being written.
-/

namespace PocketShell

/-- **Runs.** What comes of running the program. -/
structure Run where
  status : Nat
  stdout : String
  stderr : String
  disk : Disk

namespace Run

/-- The exit status of a run that does not start. -/
def failureStatus : Nat := 1

/-- The exit status of a run that ends at a line that cannot be read. -/
def breakdownStatus : Nat := 101

/-- The lines as they were meant, up to the first that cannot be read. -/
def readable (lines : List String) : List String :=
  (lines.map typed?).takeWhile Option.isSome |>.filterMap id

/-- **A run of a terminal** on typed lines. -/
def ofLines (terminal : Terminal) (isPlain : Bool) (historyFile : String) (disk : Disk)
    (lines : List String) : Run :=
  let replies := terminal.session.enterAll (readable lines)
  let stdout := Screen.greeting ++ Screen.invitation isPlain terminal.session ++
    String.join (replies.map fun reply =>
      Screen.paintAll false reply.shown ++ Screen.invitation isPlain reply.session)
  let stderr := String.join (replies.map fun reply => Screen.paintAll true reply.shown)
  if replies.length < lines.length then
    { status := breakdownStatus, stdout, stderr := stderr ++ Screen.breakdown, disk }
  else
    let terminal := { terminal with session := terminal.session.after replies }
    { status := 0
      stdout := stdout ++ Screen.farewell
      stderr
      disk := terminal.stored?.elim disk (disk.write historyFile) }

/-- **Running the program.** -/
def ofInput (value? : String → Option String) (disk : Disk) (input : String) : Run :=
  let places := Places.ofVariables value?
  let settings := disk.read places.settingsFile
  let history := disk.read places.historyFile
  match Terminal.start places settings history with
  | .error failure =>
    { status := failureStatus, stdout := "", stderr := failure.report ++ "\n", disk }
  | .ok terminal =>
    ofLines terminal (Screen.isPlain value?) places.historyFile disk (Text.lines input)

end Run

end PocketShell
