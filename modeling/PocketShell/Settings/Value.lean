import PocketShell.Settings.DateTime
import PocketShell.Settings.Quoted
import PocketShell.Text.Pieces

/-!
# Values in settings

The value of a setting is a text, an integer, a flag, a date or time, or a table of texts.

* `integer?` — the integer that a word denotes: decimal digits with a sign or without, or digits of
  base sixteen, eight or two behind `0x`, `0o` or `0b`. An underscore may stand between two digits,
  a decimal number has no leading zero, and the integer has at most 64 bits;
* `key?` — the name of a setting: a bare word, or quoted text on one line;
* `Value.read?` — a value.
-/

namespace PocketShell.Settings

/-- **Values.** -/
inductive Value where
  | text (text : String)
  | integer (number : Int)
  | flag (flag : Bool)
  | dateTime (moment : DateTime)
  | table (entries : List (String × String))
  deriving DecidableEq, Repr

/-! ### Integers -/

/-- The number that digits of a base denote, with underscores between digits. -/
def grouped? (base : Nat) (cs : List Char) : Option Nat :=
  let groups := Text.pieces '_' cs
  if groups.any List.isEmpty then none else Text.digits? base groups.flatten

/-- A decimal number without a sign. -/
def decimal? : List Char → Option Nat
  | '0' :: _ :: _ => none
  | cs => grouped? 10 cs

/-- A number with a sign or the mark of a base, of any size. -/
def number? : List Char → Option Int
  | '-' :: cs => (decimal? cs).map fun number => -(number : Int)
  | '+' :: cs => (decimal? cs).map Int.ofNat
  | '0' :: 'x' :: cs => (grouped? 16 cs).map Int.ofNat
  | '0' :: 'o' :: cs => (grouped? 8 cs).map Int.ofNat
  | '0' :: 'b' :: cs => (grouped? 2 cs).map Int.ofNat
  | cs => (decimal? cs).map Int.ofNat

/-- **Integers.** The integer of at most 64 bits that a word denotes. -/
def integer? (word : List Char) : Option Int :=
  let bound : Int := Nat.pow 2 63
  (number? word).filter fun number => decide (-bound ≤ number ∧ number < bound)

/-! ### Names -/

/-- The characters of a name without quotes. -/
def isBare (c : Char) : Bool :=
  c.isAlphanum || c = '_' || c = '-'

/-- **Names.** A bare word, or quoted text on one line. -/
def key? (cs : List Char) : Option (String × List Char) :=
  if (cs.takeWhile isBare).isEmpty then
    (quotedLine? cs).map fun (text, rest) => (String.ofList text, rest)
  else some (String.ofList (cs.takeWhile isBare), cs.dropWhile isBare)

/-- The rest behind an equals sign with blanks around it. -/
def equals? (cs : List Char) : Option (List Char) :=
  match skipBlanks cs with
  | '=' :: rest => some (skipBlanks rest)
  | _ => none

/-! ### Values -/

/-- The entries of a table that is not empty, up to its closing brace. -/
def entries? (cs : List Char) : Option (List (String × String) × List Char) := do
  let (name, rest) ← key? cs
  let (text, rest) ← quoted? (← equals? rest)
  let entry := (name, String.ofList text)
  match skipBlanks rest with
  | '\x7d' :: rest => return ([entry], rest)
  | ',' :: rest =>
    let rest := skipBlanks rest
    -- an entry has at least one character, so this never fails
    if _h : rest.length < cs.length then
      let (entries, rest) ← entries? rest
      return (entry :: entries, rest)
    else none
  | _ => none
  termination_by cs.length

/-- The value that a word without quotes denotes. -/
def word? (word : List Char) : Option Value :=
  match String.ofList word with
  | "true" => some (.flag true)
  | "false" => some (.flag false)
  | _ => (integer? word).map .integer

/-- The characters of words that are values. -/
def isWordChar (c : Char) : Bool :=
  isBare c || c = '+'

/-- **Reading a value.** -/
def Value.read? : List Char → Option (Value × List Char)
  | '\x7b' :: cs =>
    match skipBlanks cs with
    | '\x7d' :: rest => some (.table [], rest)
    | cs => (entries? cs).map fun (entries, rest) => (.table entries, rest)
  | cs =>
    match quoted? cs with
    | some (quoted, rest) => some (.text (String.ofList quoted), rest)
    | none =>
      match DateTime.read? cs with
      | some (moment, rest) => some (.dateTime moment, rest)
      | none => (word? (cs.takeWhile isWordChar)).map fun value => (value, cs.dropWhile isWordChar)

end PocketShell.Settings
