import PocketShell.Token.Scanner

/-!
# Command lines

A line that is to be run splits into a **command word**, its first token, and the raw text of its
arguments. Only the first token is cut out of the line; the arguments are what the scanner had not
yet read when it was full, without the blanks at both ends. The character that ended the first
token counts as read, so a word that ends at an opening quote takes that quote with it.

* `dropBytes?` — a text without its first bytes, if they end at a character boundary;
* `CommandLine.ofString?` — the split, or `none` for a line without tokens.
-/

namespace PocketShell

/-- A text without its first `n` bytes, or `none` if no character ends there. -/
def dropBytes? : List Char → Nat → Option (List Char)
  | cs, 0 => some cs
  | [], _ + 1 => none
  | c :: cs, n + 1 =>
    if c.utf8Size ≤ n + 1 then dropBytes? cs (n + 1 - c.utf8Size) else none

/-- **Command lines.** A line that is cut into its first word and its arguments. -/
structure CommandLine where
  word : String
  /-- The raw text of the arguments, without blanks at its ends. -/
  args : String
  deriving DecidableEq, Repr

namespace CommandLine

/-- **Splitting a line.** Reads one token; the arguments are what is left of the line. A line
without tokens is no command line. -/
def ofString? (line : String) : Option CommandLine :=
  let scanner := (Scanner.new [] 1).append line
  -- the scanner counts whole characters, so the bytes that it read always end at one
  let rest := (dropBytes? line.toList scanner.consumed).getD []
  scanner.finish.1.head?.map fun word =>
    { word := word.content, args := String.ofList (Text.trimBlanks rest) }

end CommandLine

end PocketShell
