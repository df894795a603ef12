import PocketShell.Json.Basic
import PocketShell.Text.Hex

/-!
# The words of JSON

A JSON text is read in two steps: first the characters are put together to `Lexeme`s, then the
lexemes to a value. This module does the first. A `Lexer` looks at one character at a time; what it
is in the middle of is a `Lexer.Reading`, and the lexemes it has found are kept in reverse.

Strings may not hold control characters. A `\u` escape stands for one unit of sixteen bits; a unit
of the upper half of a surrogate pair must be followed by one of the lower half, and a lower half
may not stand alone.
-/

namespace PocketShell.Json

/-- **Lexemes.** Brackets, separators, strings, and the values that are one word. -/
inductive Lexeme where
  | openArray
  | closeArray
  | openObject
  | closeObject
  | comma
  | colon
  /-- A string: a value or the name of a member. -/
  | string (text : String)
  /-- A number, a truth value or `null`. -/
  | word (value : Json)

/-- What a lexer is in the middle of. Characters read so far are given in reverse. -/
inductive Lexer.Reading where
  | between
  | number (text : List Char)
  | letters (text : List Char)
  | string (text : List Char)
  /-- Behind a backslash in a string. -/
  | escape (text : List Char)
  /-- In a `\u` escape with `left` digits to come, behind the upper half of a surrogate pair or
  not. -/
  | unit (text : List Char) (upper : Option Nat) (left value : Nat)
  /-- Behind the upper half of a surrogate pair, before the backslash of the lower half. -/
  | pair (text : List Char) (upper : Nat)
  /-- Behind the upper half of a surrogate pair and a backslash. -/
  | pairEscape (text : List Char) (upper : Nat)

/-- **Lexers.** -/
structure Lexer where
  /-- The lexemes found so far, in reverse. -/
  found : List Lexeme
  reading : Lexer.Reading

namespace Lexer

/-- Space, tabulator, line feed and carriage return may stand between lexemes. -/
def isSpace (c : Char) : Bool :=
  c = ' ' || c = '\t' || c = '\n' || c = '\r'

/-- The characters that numbers are made of. -/
def isNumeral (c : Char) : Bool :=
  c.isDigit || c = '-' || c = '+' || c = '.' || c = 'e' || c = 'E'

/-- The character that a letter behind a backslash stands for. -/
def unescape? (c : Char) : Option Char :=
  match c with
  | '"' => some '"'
  | '\\' => some '\\'
  | '/' => some '/'
  | 'b' => some '\x08'
  | 'f' => some '\x0c'
  | 'n' => some '\n'
  | 'r' => some '\r'
  | 't' => some '\t'
  | _ => none

def word? (letters : List Char) : Option Lexeme :=
  match String.ofList letters with
  | "null" => some (.word .null)
  | "true" => some (.word (.bool true))
  | "false" => some (.word (.bool false))
  | _ => none

/-- What a unit of sixteen bits in a string leads to. -/
def endUnit? (text : List Char) (upper : Option Nat) (value : Nat) : Option Reading :=
  match upper with
  | none =>
    -- an upper half waits for its lower half, a lower half has missed its upper half
    if 0xD800 ≤ value ∧ value < 0xDC00 then some (.pair text value)
    else if 0xDC00 ≤ value ∧ value < 0xE000 then none
    else some (.string (Char.ofNat value :: text))
  | some upper =>
    if 0xDC00 ≤ value ∧ value < 0xE000 then
      some (.string (Char.ofNat (0x10000 + (upper - 0xD800) * 0x400 + (value - 0xDC00)) :: text))
    else none

/-- The effect of a character between two lexemes. -/
def start? (found : List Lexeme) (c : Char) : Option Lexer :=
  if isSpace c then some ⟨found, .between⟩
  else if c = '"' then some ⟨found, .string []⟩
  else if c.isDigit ∨ c = '-' then some ⟨found, .number [c]⟩
  else if c.isAlpha then some ⟨found, .letters [c]⟩
  else
    let mark? : Option Lexeme :=
      match c with
      | '[' => some .openArray
      | ']' => some .closeArray
      | '\x7b' => some .openObject
      | '\x7d' => some .closeObject
      | ',' => some .comma
      | ':' => some .colon
      | _ => none
    mark?.map fun mark => ⟨mark :: found, .between⟩

/-- The lexemes found when a number or a word ends, or nothing if it is none. -/
def endWord? (lexer : Lexer) : Option (List Lexeme) :=
  match lexer.reading with
  | .between => some lexer.found
  | .number text =>
    (Number.ofText? text.reverse).map fun number => .word (.number number) :: lexer.found
  | .letters text => (word? text.reverse).map fun lexeme => lexeme :: lexer.found
  | _ => none

/-- **One step.** The effect of a character. -/
def step? (lexer : Lexer) (c : Char) : Option Lexer :=
  match lexer.reading with
  | .between => start? lexer.found c
  | .number text =>
    if isNumeral c then some { lexer with reading := .number (c :: text) }
    else do start? (← lexer.endWord?) c
  | .letters text =>
    if c.isAlpha then some { lexer with reading := .letters (c :: text) }
    else do start? (← lexer.endWord?) c
  | .string text =>
    if c = '"' then some ⟨.string (String.ofList text.reverse) :: lexer.found, .between⟩
    else if c = '\\' then some { lexer with reading := .escape text }
    else if c.toNat < 0x20 then none
    else some { lexer with reading := .string (c :: text) }
  | .escape text =>
    if c = 'u' then some { lexer with reading := .unit text none 4 0 }
    else (unescape? c).map fun char => { lexer with reading := .string (char :: text) }
  | .unit text upper left value => do
    let value := 16 * value + (← Text.hexValue? c)
    if left ≤ 1 then return { lexer with reading := ← endUnit? text upper value }
    else return { lexer with reading := .unit text upper (left - 1) value }
  | .pair text upper =>
    if c = '\\' then some { lexer with reading := .pairEscape text upper } else none
  | .pairEscape text upper =>
    if c = 'u' then some { lexer with reading := .unit text (some upper) 4 0 } else none

end Lexer

/-- **The lexemes of a text,** in order. -/
def lexemes? (text : String) : Option (List Lexeme) := do
  let lexer ← text.toList.foldlM Lexer.step? ⟨[], .between⟩
  return (← lexer.endWord?).reverse

end PocketShell.Json
