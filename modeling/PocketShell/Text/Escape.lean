/-!
# Escaping by backslash

A backslash takes away the special meaning of the character after it. `escape` writes one before
every character of a given set; a reader that drops each backslash and keeps the character after it
gets the text back whenever the backslash itself is in the set.
-/

namespace PocketShell.Text

/-- The spelling of one character: with a backslash in front if it is special. -/
def escapeChar (special : List Char) (c : Char) : List Char :=
  if c ∈ special then ['\\', c] else [c]

/-- **Escaping.** Every special character of the text gets a backslash in front. -/
def escape (special : List Char) (text : String) : String :=
  String.ofList (text.toList.flatMap (escapeChar special))

@[simp] theorem toList_escape (special : List Char) (text : String) :
    (escape special text).toList = text.toList.flatMap (escapeChar special) := by
  simp [escape]

end PocketShell.Text
