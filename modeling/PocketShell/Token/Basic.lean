import PocketShell.Text.Escape

/-!
# Tokens

A line of the shell is a sequence of **tokens**: pieces of plain text, runs of blanks, quoted
spans and single delimiter characters. A token keeps its content without quotes and escapes, and a
`Kind` that says which sort of piece it was.

* `Token.spelling` — a quoted token gets its quotes back, and quotes and backslashes inside it are
  escaped; any other token is spelled by its content;
* `Token.join` — the spellings of a list of tokens, one after the other.
-/

namespace PocketShell

namespace Token

/-- **Kinds of tokens.** The scanner produces every kind but `singleQuoted`, which only `join`
knows. -/
inductive Kind where
  /-- Plain text outside quotes. -/
  | text
  | blank
  /-- The content of a span between double quotes. -/
  | doubleQuoted
  /-- The content of a span between single quotes. -/
  | singleQuoted
  /-- One delimiter character. -/
  | delimiter
  deriving DecidableEq, Repr

/-- The quote character around a token of this kind, if there is one. -/
def Kind.quote? : Kind → Option Char
  | .doubleQuoted => some '"'
  | .singleQuoted => some '\''
  | .text | .blank | .delimiter => none

end Token

/-- **Tokens.** A classified piece of a line, without its quotes and escapes. -/
structure Token where
  kind : Token.Kind
  content : String
  deriving DecidableEq, Repr

namespace Token

def isBlank (token : Token) : Bool :=
  token.kind == .blank

/-- **Spelling.** How the token is written in a line: a quoted token between its quotes, with
quotes of that sort and backslashes escaped, any other token as it is. -/
def spelling (token : Token) : String :=
  match token.kind.quote? with
  | some quote =>
    (String.singleton quote ++ Text.escape [quote, '\\'] token.content).push quote
  | none => token.content

/-- **Joining.** The line that the tokens spell, one after the other. -/
def join (tokens : List Token) : String :=
  String.join (tokens.map spelling)

@[simp] theorem join_nil : join [] = "" := rfl

@[simp] theorem toList_join_cons (token : Token) (tokens : List Token) :
    (join (token :: tokens)).toList = token.spelling.toList ++ (join tokens).toList := by
  simp [join, String.toList_join]

end Token

end PocketShell
