import PocketShell.Json.Number
import PocketShell.OrderedMap

/-!
# JSON values

A JSON value as it was written: the members of an object stay in their order, and a name that
occurs twice occurs twice.

* `Json.render` — the compact text of a value. The members of an object are sorted by name, and of
  two members of one name the last counts;
* `Json.text` — the text that stands for a value where only text can be kept: a string is its own
  text, `null` is the empty text, and any other value is rendered.
-/

namespace PocketShell

/-- **JSON values.** -/
inductive Json where
  | null
  | bool (value : Bool)
  | number (value : Json.Number)
  | string (value : String)
  | array (items : List Json)
  /-- An object, its members as they were written. -/
  | object (members : List (String × Json))

namespace Json

/-! ### Writing -/

/-- The hexadecimal digit of a number below sixteen, in lower case. -/
def hexDigit (n : Nat) : Char :=
  if n < 10 then Char.ofNat ('0'.toNat + n) else Char.ofNat ('a'.toNat + (n - 10))

/-- How a character is written inside a string. -/
def escapeChar (c : Char) : List Char :=
  if c = '"' then ['\\', '"']
  else if c = '\\' then ['\\', '\\']
  else if c = '\n' then ['\\', 'n']
  else if c = '\r' then ['\\', 'r']
  else if c = '\t' then ['\\', 't']
  else if c = '\x08' then ['\\', 'b']
  else if c = '\x0c' then ['\\', 'f']
  else if c.toNat < 0x20 then
    ['\\', 'u', '0', '0', hexDigit (c.toNat / 16), hexDigit (c.toNat % 16)]
  else [c]

/-- A string between quotes, with quotes, backslashes and control characters escaped. -/
def quote (text : String) : String :=
  String.ofList ('"' :: text.toList.flatMap escapeChar ++ ['"'])

/-- Members sorted by name, with the last of the members of one name. -/
def sortMembers {β : Type} (members : List (String × β)) : List (String × β) :=
  let last := members.foldl (fun map member => map.insert member.1 member.2) OrderedMap.empty
  last.entries.mergeSort fun a b => a.1 ≤ b.1

mutual

/-- **Rendering.** The compact text of a value. -/
def render : Json → String
  | .null => "null"
  | .bool true => "true"
  | .bool false => "false"
  | .number value => value.text
  | .string value => quote value
  | .array items => "[" ++ String.intercalate "," (renderItems items) ++ "]"
  | .object members =>
    let texts := (sortMembers (renderMembers members)).map fun member =>
      quote member.1 ++ ":" ++ member.2
    "\x7b" ++ String.intercalate "," texts ++ "\x7d"

/-- The texts of the items of an array. -/
def renderItems : List Json → List String
  | [] => []
  | item :: items => render item :: renderItems items

/-- The texts of the members of an object, with their names. -/
def renderMembers : List (String × Json) → List (String × String)
  | [] => []
  | (name, value) :: members => (name, render value) :: renderMembers members

end

/-- **The text of a value** where only text can be kept. -/
def text : Json → String
  | .null => ""
  | .string value => value
  | value => value.render

end Json

end PocketShell
