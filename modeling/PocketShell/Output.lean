/-!
# Output

Commands write whole lines, each to one of two streams. A list of `Line`s keeps the order in which
they were written across both streams; `Line.stdout` and `Line.stderr` pick the text of one stream
out of it.
-/

namespace PocketShell

/-- **Lines of output.** A line may itself contain line feeds. -/
inductive Line where
  | out (text : String)
  | err (text : String)
  deriving DecidableEq, Repr

namespace Line

def text : Line → String
  | .out text | .err text => text

def isErr : Line → Bool
  | .out _ => false
  | .err _ => true

/-- The regular output, its lines joined by line feeds. -/
def stdout (lines : List Line) : String :=
  String.intercalate "\n" ((lines.filter fun line => !line.isErr).map text)

/-- The error output, its lines joined by line feeds. -/
def stderr (lines : List Line) : String :=
  String.intercalate "\n" ((lines.filter isErr).map text)

end Line

end PocketShell
