import PocketShell.Error
import PocketShell.Token.Scanner

/-!
# Pairs of keys and values

The commands that bind names take arguments of the form `key=value`. The line is cut into tokens
with `=` as a delimiter, blanks are dropped, and the rest is read **from the right end**, three
tokens at a time. A group whose last token is `=`, and whose token before that is not, is a key with
an empty value and has two tokens only.

* `Pair.ofParts` — a group of three: a pair if there is a key and an `=` between key and value;
* `Pair.scan` — the groups of a list of tokens that is given from its right end;
* `Pair.parse` — the groups of a line, from left to right.

A malformed group is an entry of the result and does not stop the reading. A token that is left over
at the front belongs to no group.
-/

namespace PocketShell

/-- **Pairs.** A key and the value that is to be bound to it. -/
structure Pair where
  key : String
  /-- The value, which may be empty. -/
  value : String
  deriving DecidableEq, Repr

namespace Pair

/-- A group of three tokens as a pair. The key must not be empty and the token in the middle must
be an `=`; what is malformed is reported as the text of the whole group. -/
def ofParts (key middle value : String) : Except Error Pair :=
  if key = "" ∨ middle ≠ "=" then .error (.malformedPair (key ++ middle ++ value))
  else .ok ⟨key, value⟩

/-- **Reading from the right.** The groups of a list of token contents, both given from the right
end of the line. -/
def scan : List String → List (Except Error Pair)
  | last :: middle :: first :: rest =>
    -- a group of two, read as if an empty value stood behind its `=`
    if last = "=" ∧ middle ≠ "=" then ofParts middle last "" :: scan (first :: rest)
    else ofParts first middle last :: scan rest
  | [last, middle] =>
    if last = "=" ∧ middle ≠ "=" then [ofParts middle last ""]
    else [ofParts "" middle last]
  | _ => []

/-- The contents of the tokens of a line that are not blank. -/
def contents (line : String) : List String :=
  let tokens := ((Scanner.new ['=']).append line).finish.1
  (tokens.filter fun token => !token.isBlank).map Token.content

/-- **Pairs of a line,** from left to right. A line of fewer than two tokens is one malformed
group. -/
def parse (line : String) : List (Except Error Pair) :=
  match contents line with
  | [] => [.error (.malformedPair "")]
  | [only] => [.error (.malformedPair only)]
  | texts => (scan texts.reverse).reverse

end Pair

end PocketShell
