import PocketShell.Settings.Value

/-!
# The statements of a settings file

A settings file is a list of statements, each on lines of its own. A statement gives a value to a
name, or to a member of a table, or is a heading: the statements behind it are about the members of
the table that it names. Blank lines and comments may stand between statements, blanks and a comment
may stand behind one.

* `Statement.read?` — one statement;
* `statements?` — the statements of a file.
-/

namespace PocketShell.Settings

/-- **Statements.** -/
inductive Statement where
  /-- A heading: `[name]`. -/
  | heading (name : String)
  /-- A value: `name = value`. -/
  | entry (name : String) (value : Value)
  /-- The value of a member of a table: `table.name = value`. -/
  | member (table name : String) (value : Value)
  deriving DecidableEq, Repr

/-- **Reading a statement.** -/
def Statement.read? : List Char → Option (Statement × List Char)
  | '[' :: cs => do
    let (name, rest) ← key? (skipBlanks cs)
    match skipBlanks rest with
    | ']' :: rest => return (.heading name, rest)
    | _ => none
  | cs => do
    let (first, rest) ← key? cs
    match skipBlanks rest with
    | '.' :: rest =>
      let (name, rest) ← key? (skipBlanks rest)
      let (value, rest) ← Value.read? (← equals? rest)
      return (.member first name value, rest)
    | rest =>
      let (value, rest) ← Value.read? (← equals? rest)
      return (.entry first value, rest)

/-- What follows a statement, up to the end of its line: blanks and a comment may, and nothing
else. -/
def lineEnd? (cs : List Char) : Option (List Char) :=
  let rest := skipBlanks cs
  if rest.head?.all fun c => c = '\n' || c = '#' then some rest else none

/-- The statements of a file whose line ends are single line feeds. -/
def statementsOfChars? : List Char → Option (List Statement)
  | [] => some []
  | c :: cs =>
    if isBlank c || c = '\n' then statementsOfChars? cs
    else if c = '#' then statementsOfChars? (cs.dropWhile isPlain)
    else do
      let (statement, rest) ← Statement.read? (c :: cs)
      let rest ← lineEnd? rest
      -- a statement has at least one character, so this never fails
      if _h : rest.length < (c :: cs).length then
        return statement :: (← statementsOfChars? rest)
      else none
  termination_by cs => cs.length
  decreasing_by
    · exact Nat.lt_succ_self _
    · exact Nat.lt_succ_of_le (List.dropWhile_sublist _).length_le
    · exact _h

/-- A text with single line feeds for its line ends. A carriage return may stand before a line feed
only. -/
def joinReturns? : List Char → Option (List Char)
  | [] => some []
  | '\r' :: '\n' :: cs => (joinReturns? cs).map ('\n' :: ·)
  | c :: cs => if c = '\r' then none else (joinReturns? cs).map (c :: ·)

/-- **The statements of a file,** which may begin with a byte order mark. -/
def statements? (text : String) : Option (List Statement) := do
  let cs :=
    match text.toList with
    | '\uFEFF' :: cs => cs
    | cs => cs
  statementsOfChars? (← joinReturns? cs)

end PocketShell.Settings
