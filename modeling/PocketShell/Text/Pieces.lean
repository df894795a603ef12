/-!
# Cutting a text at a separator

`pieces` cuts a text at every occurrence of one character; the pieces, with the separator put back
between them, are the text again. `cutLast?` cuts at the last occurrence only. `lines` cuts at line
feeds in the way of a text file: the last line need not end in a line feed, and a carriage return
before a line feed belongs to the line end.
-/

namespace PocketShell.Text

/-- **Cutting.** The pieces of a text between the occurrences of the separator, empty ones
included; there is always at least one. -/
def pieces (separator : Char) : List Char → List (List Char)
  | [] => [[]]
  | c :: cs =>
    if c = separator then [] :: pieces separator cs
    else
      match pieces separator cs with
      | [] => [[c]]
      | piece :: rest => (c :: piece) :: rest

/-- **Cutting once.** What stands before and behind the last occurrence of the separator, if there
is one. -/
def cutLast? (separator : Char) : List Char → Option (List Char × List Char)
  | [] => none
  | c :: cs =>
    match cutLast? separator cs with
    | some (front, back) => some (c :: front, back)
    | none => if c = separator then some ([], cs) else none

/-- A line without one carriage return at its end. -/
def dropReturn (line : List Char) : List Char :=
  if line.getLast? = some '\r' then line.dropLast else line

/-- The lines of a text, given its pieces between line feeds: all but the last piece were ended by a
line feed, and the last one is a line only if it is not empty. -/
def linesOfPieces : List (List Char) → List (List Char)
  | [] => []
  | [last] => if last.isEmpty then [] else [last]
  | piece :: rest => dropReturn piece :: linesOfPieces rest

/-- **Lines.** The lines of a text file, without their ends. -/
def lines (text : String) : List String :=
  (linesOfPieces (pieces '\n' text.toList)).map String.ofList

end PocketShell.Text
