import PocketShell.Text.Pieces

/-!
# Paths

A path is text: segments with `/` between them. What it denotes is a list of **segments**, the names
to follow from the root. A path that begins with `/` is read on its own, any other behind the
working directory. Empty segments and `.` mean nothing, and `..` takes back the segment before it,
if there is one.

* `Path.enter` — the effect of one piece on the segments so far;
* `Path.pieces`, `Path.segments` — what is followed for a path, and what the path denotes;
* `Path.render`, `Path.resolve` — the segments written as an absolute path;
* `Path.names`, `Path.splitLast?` — what a resolved path is followed by, and its last name apart
  from the directory before it.
-/

namespace PocketShell.Path

/-- **One piece.** Its effect on the segments so far, which are given from the last to the
first. -/
def enter (walked : List String) (piece : String) : List String :=
  if piece = "" ∨ piece = "." then walked
  else if piece = ".." then walked.tail
  else piece :: walked

/-- The text that is read for a path: an absolute path alone, any other behind the working
directory. -/
def combine (cwd path : String) : String :=
  if path.toList.head? = some '/' then path else cwd ++ "/" ++ path

/-- The pieces to follow one after the other, from the root, for a path and a working directory. -/
def pieces (cwd path : String) : List String :=
  (Text.pieces '/' (combine cwd path).toList).map String.ofList

/-- **Segments.** The names to follow from the root for a path and a working directory. -/
def segments (cwd path : String) : List String :=
  ((pieces cwd path).foldl enter []).reverse

/-- **Writing.** The absolute path with these segments. -/
def render (segments : List String) : String :=
  "/" ++ String.intercalate "/" segments

/-- **Resolving.** The absolute path, without empty or dotted segments, that a path denotes. -/
def resolve (cwd path : String) : String :=
  render (segments cwd path)

/-- **Names.** What a resolved path is followed by: its pieces, without the empty ones. -/
def names (path : String) : List String :=
  ((Text.pieces '/' path.toList).map String.ofList).filter (· ≠ "")

/-- What stands before and behind the last `/` of a path, if there is one. -/
def splitLast? (path : String) : Option (String × String) :=
  (Text.cutLast? '/' path.toList).map fun cut => (String.ofList cut.1, String.ofList cut.2)

end PocketShell.Path
