import PocketShell.Terminal.Run

/-!
# The program

The terminal over standard input and output: it reads its two files, runs the lines that come in
until there are no more, and writes the history.
-/

namespace PocketShell.Program

/-- What reading a file gives. -/
def read (path : String) : IO Reading := do
  try
    return .text (← IO.FS.readFile path)
  catch
    | .noFileOrDirectory .. => return .missing
    | _ => return .unreadable

/-- Shows lines, each on its own stream. -/
def print (lines : List Line) : IO Unit := do
  for line in lines do
    let stream ← if line.isErr then IO.getStderr else IO.getStdout
    stream.putStr (Screen.paint line)
    stream.flush

/-- Shows a text on standard output. -/
def printText (text : String) : IO Unit := do
  let stdout ← IO.getStdout
  stdout.putStr text
  stdout.flush

/-- Runs the lines that come in until there are no more. There is no session at the end if a line
cannot be read. -/
partial def converse (isPlain : Bool) (session : Session) : IO (Option Session) := do
  let stdin ← IO.getStdin
  printText (Screen.invitation (isPlain || (← stdin.isTty)) session)
  let line ← stdin.getLine
  if line.isEmpty then
    printText Screen.farewell
    return some session
  match typed? ((Text.lines line).headD "") with
  | none => return none
  | some line =>
    let reply := session.enter line
    print reply.shown
    IO.sleep (reply.pause * 1000).toUInt32
    converse isPlain reply.session

/-- Writes the history, if it is kept. A history that cannot be written is lost. -/
def store (places : Places) (terminal : Terminal) : IO Unit := do
  if let some text := terminal.stored? then
    try
      IO.FS.createDirAll places.historyDirectory
      IO.FS.writeFile places.historyFile text
    catch _ => pure ()

/-- The variables of the surroundings that matter. -/
def surroundings : IO (List (String × String)) :=
  ["HOME", "XDG_CONFIG_HOME", "XDG_DATA_HOME", "POTATOS_CONFIG", "TERM"].filterMapM fun name => do
    return (← IO.getEnv name).map fun value => (name, value)

/-- The program, with its exit status. -/
def run : IO UInt32 := do
  let surroundings ← surroundings
  let value? (name : String) := surroundings.lookup name
  let places := Places.ofVariables value?
  let settings ← read places.settingsFile
  let history ← read places.historyFile
  match Terminal.start places settings history with
  | .error failure =>
    IO.eprintln failure.report
    return Run.failureStatus.toUInt32
  | .ok terminal =>
    printText Screen.greeting
    match ← converse (Screen.isPlain value?) terminal.session with
    | some session =>
      store places { terminal with session }
      return 0
    | none =>
      IO.eprint Screen.breakdown
      return Run.breakdownStatus.toUInt32

end PocketShell.Program

/-- Runs the program. -/
def main : IO UInt32 :=
  PocketShell.Program.run
