import PocketShell.Text.Hex

/-!
# Quoted text in settings

A settings file quotes text in four ways. Between double quotes a backslash begins an escape,
between single quotes it stands for itself; one quote on either side makes the text end on the line
it began on, three on either side let it go on over line ends.

* `Quotation.read?` — the text behind an opening quote, and what follows the closing one;
* `quoted?` — quoted text with its quotes.

All readers of settings take a list of characters whose line ends are single line feeds. They give
what they have read together with the rest of the list.
-/

namespace PocketShell.Settings

/-- Blanks within a line: space and tabulator. -/
def isBlank (c : Char) : Bool :=
  c = ' ' || c = '\t'

/-- A text without the blanks that it begins with. -/
def skipBlanks (cs : List Char) : List Char :=
  cs.dropWhile isBlank

/-- The characters that quoted text and comments are made of: no control character but the
tabulator. -/
def isPlain (c : Char) : Bool :=
  c = '\t' || (0x20 ≤ c.toNat && c.toNat ≠ 0x7F)

/-- **Ways of quoting.** -/
structure Quotation where
  mark : Char
  /-- Does a backslash begin an escape? -/
  escapes : Bool
  /-- May the text go on over line ends? It stands between three quotes then. -/
  block : Bool

/-- The character that a letter behind a backslash stands for. -/
def unescape? (c : Char) : Option Char :=
  match c with
  | '"' => some '"'
  | '\\' => some '\\'
  | 'b' => some '\x08'
  | 'f' => some '\x0c'
  | 'n' => some '\n'
  | 'r' => some '\r'
  | 't' => some '\t'
  | _ => none

/-- The character whose number is given in hexadecimal digits, if there is one. -/
def charOfHex? (digits : List Char) : Option Char := do
  let number ← Text.digits? 16 digits
  if number.isValidChar then some (Char.ofNat number) else none

namespace Quotation

/-- The end of a text at a quote. A block ends at three quotes; up to two more right before them
belong to the text. -/
def close? (quotation : Quotation) (cs : List Char) : Option (List Char × List Char) :=
  if quotation.block then
    let marks := (cs.takeWhile (· = quotation.mark)).length
    let inner := min (marks - 3) 2
    if marks < 3 then none
    else some (List.replicate inner quotation.mark, cs.drop (inner + 3))
  else some ([], cs.drop 1)

/-- Does a backslash before these characters end its line? -/
def joinsLines (quotation : Quotation) (cs : List Char) : Bool :=
  quotation.block && (skipBlanks cs).head? = some '\n'

/-- Puts a character before a text that was read. -/
def prepend (c : Char) (read? : Option (List Char × List Char)) : Option (List Char × List Char) :=
  read?.map fun (text, rest) => (c :: text, rest)

/-- **Reading** behind the opening quote: the text, and what follows the closing quote. In a block,
a backslash at the end of a line takes the line end and all blanks and line ends behind it out of
the text; `skipping` says that this is going on. -/
def read? (quotation : Quotation) (skipping : Bool) : List Char → Option (List Char × List Char)
  | [] => none
  | c :: cs =>
    if skipping && (isBlank c || c = '\n') then quotation.read? true cs
    else if c = quotation.mark then
      match quotation.close? (c :: cs) with
      | some found => some found
      | none => prepend c (quotation.read? false cs)
    else if c = '\\' && quotation.escapes then
      if quotation.joinsLines cs then quotation.read? true cs
      else
        match cs with
        | 'u' :: c₁ :: c₂ :: c₃ :: c₄ :: cs => do
          prepend (← charOfHex? [c₁, c₂, c₃, c₄]) (quotation.read? false cs)
        | 'U' :: c₁ :: c₂ :: c₃ :: c₄ :: c₅ :: c₆ :: c₇ :: c₈ :: cs => do
          prepend (← charOfHex? [c₁, c₂, c₃, c₄, c₅, c₆, c₇, c₈]) (quotation.read? false cs)
        | c :: cs => do prepend (← unescape? c) (quotation.read? false cs)
        | [] => none
    else if isPlain c || (quotation.block && c = '\n') then prepend c (quotation.read? false cs)
    else none

end Quotation

/-- A text without the line feed that it may begin with. -/
def skipNewline : List Char → List Char
  | '\n' :: cs => cs
  | cs => cs

/-- Text between one quote and one quote. -/
def quotedLine? : List Char → Option (List Char × List Char)
  | '"' :: cs => Quotation.read? ⟨'"', true, false⟩ false cs
  | '\'' :: cs => Quotation.read? ⟨'\'', false, false⟩ false cs
  | _ => none

/-- **Quoted text,** in any of the four ways. A line end right behind three opening quotes is not
part of the text. -/
def quoted? : List Char → Option (List Char × List Char)
  | '"' :: '"' :: '"' :: cs => Quotation.read? ⟨'"', true, true⟩ false (skipNewline cs)
  | '\'' :: '\'' :: '\'' :: cs => Quotation.read? ⟨'\'', false, true⟩ false (skipNewline cs)
  | cs => quotedLine? cs

end PocketShell.Settings
