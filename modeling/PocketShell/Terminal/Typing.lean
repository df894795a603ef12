import PocketShell.Text.Grapheme.Cluster

/-!
# Typed lines

A line that comes in may hold backspaces. A backspace takes back the last cluster that still stands,
so a letter goes with its accents and a flag goes as a whole.

What a backspace takes back is known by its size: the number of its bytes, of which only the last
eight bits are kept. A cluster of 256 bytes therefore stays, and of a longer one only the end goes.
Where that would cut a character in two, the line cannot be read at all.

* `Typing.press?` — the effect of one cluster;
* `typed?` — a line as it was meant.
-/

namespace PocketShell

/-- **Typing.** A line while it is typed. -/
structure Typing where
  /-- The characters that stand, in reverse. -/
  chars : List Char := []
  /-- The sizes of the clusters that stand, in reverse. -/
  sizes : List Nat := []
  deriving DecidableEq, Repr

namespace Typing

/-- The character that takes back. -/
def backspace : Char := '\x08'

/-- The size of a cluster, as far as it is kept. -/
def keptSize (cluster : List Char) : Nat :=
  (String.ofList cluster).utf8ByteSize % 256

/-- Takes a number of bytes off the end of a text, whose characters are given in reverse, unless
that would cut a character in two. -/
def takeBack? (size : Nat) (chars : List Char) : Option (List Char) :=
  match size, chars with
  | 0, chars => some chars
  | _ + 1, [] => none
  | size + 1, c :: chars =>
    if c.utf8Size ≤ size + 1 then takeBack? (size + 1 - c.utf8Size) chars else none

/-- **One step.** The effect of the next cluster of the line. A backspace at the front does
nothing. -/
def press? (typing : Typing) (cluster : List Char) : Option Typing :=
  if cluster = [backspace] then
    match typing.sizes with
    | [] => some typing
    -- the size is what was kept of it, so fewer bytes may go than the cluster has
    | size :: sizes => (takeBack? size typing.chars).map fun chars => { chars, sizes }
  else
    some { chars := cluster.reverse ++ typing.chars, sizes := keptSize cluster :: typing.sizes }

end Typing

/-- **Reading a typed line.** The line without its backspaces and what they take back. -/
def typed? (line : String) : Option String :=
  ((Text.clusters line.toList).foldlM Typing.press? {}).map fun typing =>
    String.ofList typing.chars.reverse

end PocketShell
