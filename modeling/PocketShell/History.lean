import PocketShell.Text.Pieces

/-!
# History

The lines that were entered, oldest first. A limit keeps the newest ones only.

* `History.push`, `History.truncate` — a new line, and the newest lines of a history;
* `History.limitOf` — the limit that a number stands for: a negative number is no limit;
* `History.toText`, `History.ofText` — a history as a text file, one line per entry, and the
  history of such a file.
-/

namespace PocketShell

/-- **Histories.** Entered lines, oldest first. -/
structure History where
  /-- The lines, oldest first. -/
  entries : List String := []
  deriving DecidableEq, Repr

namespace History

def size (history : History) : Nat :=
  history.entries.length

/-- The newest `limit` lines, or all of them without a limit. -/
def truncate (history : History) (limit : Option Nat) : History :=
  match limit with
  | none => history
  | some limit => ⟨history.entries.drop (history.size - limit)⟩

/-- A history with one more line, cut down to the limit. -/
def push (history : History) (line : String) (limit : Option Nat) : History :=
  truncate ⟨history.entries ++ [line]⟩ limit

/-- **The limit that a number stands for.** A negative number is no limit; any other stands for its
integral part, or for the largest 64-bit word if that is smaller. -/
def limitOf (value : Float) : Option Nat :=
  if 0 ≤ value then some value.toUInt64.toNat else none

/-! ### As a text file -/

/-- **Writing.** The lines of a history, each ended by a line feed; a history whose lines have no
text at all is the empty file. -/
def toText (history : History) : String :=
  let text := String.intercalate "\n" history.entries
  if text.isEmpty then "" else text.push '\n'

/-- **Reading.** The history that a text file holds: its lines. -/
def ofText (text : String) : History :=
  ⟨Text.lines text⟩

end History

end PocketShell
