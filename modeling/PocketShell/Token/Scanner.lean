import PocketShell.Text.Blank
import PocketShell.Token.Basic

/-!
# The scanner

A `Scanner` cuts a text into tokens, one character at a time. What it has read but not yet emitted
waits in `pending`; its `Mode` says what sort of token the pending characters will become, and
`escaped` says that the character just read was a backslash.

* A backslash outside an escape takes away the special meaning of the next character.
* A double quote ends the pending token and enters or leaves a quoted span.
* Blanks outside quotes form one token per run.
* A delimiter outside quotes ends the pending token and is a token of its own.
* Everything else is text.

Main definitions:

* `Scanner.take` — the effect of one character;
* `Scanner.read`, `Scanner.append` — the effect of a text, one character after the other;
* `Scanner.finish` — the tokens so far, the pending one included, and the scanner to go on with;
* `tokenize` — the tokens of a text, without delimiters and without a limit.

A scanner may have a **limit** on the number of tokens. Once that many are emitted it is `full`:
the rest of the text is not read, and `consumed` stays at the number of bytes that were read until
then. A scanner that has finished is used again for the next text.
-/

namespace PocketShell

/-- What the pending characters of a scanner will become. -/
inductive Scanner.Mode where
  | plain
  | blank
  | quoted
  deriving DecidableEq, Repr

/-- The kind of token that pending characters become in a given mode. -/
def Scanner.Mode.kind : Scanner.Mode → Token.Kind
  | .plain => .text
  | .blank => .blank
  | .quoted => .doubleQuoted

/-- **Scanners.** The state of cutting a text into tokens. -/
structure Scanner where
  /-- The characters that are tokens of their own outside quotes. -/
  delimiters : List Char := []
  /-- The number of tokens after which nothing more is read, if there is one. -/
  limit : Option Nat := none
  emitted : Array Token := #[]
  pending : String := ""
  mode : Scanner.Mode := .plain
  /-- Was the last character a backslash that escapes the next one? -/
  escaped : Bool := false
  /-- The number of bytes read since the scanner was new, or since it finished last. -/
  consumed : Nat := 0
  deriving DecidableEq, Repr

namespace Scanner

/-- A new scanner with the given delimiters and a limit on the number of tokens, where zero stands
for no limit. -/
def new (delimiters : List Char) (limit : Nat := 0) : Scanner where
  delimiters := delimiters
  limit := if limit = 0 then none else some limit

/-- Has the scanner emitted as many tokens as it may? -/
def full (scanner : Scanner) : Bool :=
  scanner.limit.any fun limit => limit ≤ scanner.emitted.size

/-- Emits a token, or drops it when the scanner is full. -/
def emit (scanner : Scanner) (kind : Token.Kind) (content : String) : Scanner :=
  if scanner.full then scanner
  else { scanner with emitted := scanner.emitted.push ⟨kind, content⟩ }

/-- Puts a character behind the pending ones. -/
def hold (scanner : Scanner) (c : Char) : Scanner :=
  { scanner with pending := scanner.pending.push c }

/-- **Ending a token.** Emits the pending characters, if there are any, as a token of the kind that
the mode says, and returns to plain text. -/
def flush (scanner : Scanner) : Scanner :=
  let scanner :=
    if scanner.pending.isEmpty then scanner else scanner.emit scanner.mode.kind scanner.pending
  { scanner with pending := "", mode := .plain, escaped := false }

/-- Ends a run of blanks, if one is being read. -/
def endBlanks (scanner : Scanner) : Scanner :=
  if scanner.mode = .blank then scanner.flush else scanner

/-- The effect of a character outside an escape that is neither a quote nor a backslash nor
blank. -/
def takeOrdinary (scanner : Scanner) (c : Char) : Scanner :=
  if c ∈ scanner.delimiters ∧ scanner.mode ≠ .quoted then
    scanner.flush.emit .delimiter (String.singleton c)
  else scanner.hold c

/-- **The effect of a character** on what is emitted and pending. -/
def take (scanner : Scanner) (c : Char) : Scanner :=
  if scanner.escaped then { scanner.hold c with escaped := false }
  else if c = '\\' then { scanner.endBlanks with escaped := true }
  else if c = '"' then
    let mode : Mode := if scanner.mode = .quoted then .plain else .quoted
    { scanner.flush with mode }
  -- a blank begins a run only outside quotes, and goes on with a run or a quoted span
  else if Text.isBlank c then
    if scanner.mode = .plain then { scanner.flush with mode := .blank }.hold c
    else scanner.hold c
  else scanner.endBlanks.takeOrdinary c

/-- Takes characters up to the one at which the scanner is full. The number of bytes in front of
them, since the beginning of the text, is given, and all bytes are counted when the reading ends. -/
def read (scanner : Scanner) (bytes : Nat) : List Char → Scanner
  | [] => { scanner with consumed := scanner.consumed + bytes }
  | c :: cs =>
    if scanner.full then { scanner with consumed := scanner.consumed + bytes }
    else (scanner.take c).read (bytes + c.utf8Size) cs

/-- **Reading a text.** The effect of its characters, one after the other. -/
def append (scanner : Scanner) (text : String) : Scanner :=
  scanner.read 0 text.toList

/-- **Finishing.** The tokens so far, the pending one included, and the scanner without tokens and
without anything read. -/
def finish (scanner : Scanner) : List Token × Scanner :=
  let flushed := scanner.flush
  (flushed.emitted.toList, { flushed with emitted := #[], consumed := 0 })

end Scanner

/-- **Tokens of a text,** with no delimiters and no limit. -/
def tokenize (text : String) : List Token :=
  ((Scanner.new []).append text).finish.1

end PocketShell
