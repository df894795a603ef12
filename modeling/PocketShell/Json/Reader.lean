import PocketShell.Json.Lexeme

/-!
# Reading JSON

The second step of reading a JSON text: lexemes are put together to one value. Arrays and objects
that are not yet closed wait on a stack of `Frame`s; `Builder.Awaiting` says what may come next. No
more than `maxDepth` of them may be open at once, and nothing may follow the value.

* `Json.read?` — the value of a text, if it is one.
-/

namespace PocketShell.Json

/-- The number of arrays and objects that may be open at once. -/
def maxDepth : Nat := 127

/-- An array or object that is not yet closed, with its contents so far in reverse. -/
inductive Frame where
  | array (items : List Json)
  /-- An object, and the name of the member whose value is being read. -/
  | object (members : List (String × Json)) (name : String)

/-- What may come next. -/
inductive Builder.Awaiting where
  | value
  /-- The first item of an array, or its end. -/
  | firstItem
  | name
  /-- The first name of an object, or its end. -/
  | firstName
  | colon
  /-- A comma, or the end of the array or object. -/
  | comma
  deriving DecidableEq

/-- **Builders.** A value that is being read. -/
inductive Builder where
  | reading (frames : List Frame) (awaiting : Builder.Awaiting)
  | complete (value : Json)

namespace Builder

/-- Hands a complete value to the innermost open frame. -/
def deliver (frames : List Frame) (value : Json) : Builder :=
  match frames with
  | [] => .complete value
  | .array items :: rest => .reading (.array (value :: items) :: rest) .comma
  | .object members name :: rest => .reading (.object ((name, value) :: members) "" :: rest) .comma

def enter? (frames : List Frame) (frame : Frame) (awaiting : Awaiting) : Option Builder :=
  if frames.length < maxDepth then some (.reading (frame :: frames) awaiting) else none

/-- What a comma leads to. -/
def afterComma? : List Frame → Option Awaiting
  | .array _ :: _ => some .value
  | .object _ _ :: _ => some .name
  | [] => none

/-- The effect of a lexeme where a value may stand. -/
def takeValue? (frames : List Frame) : Lexeme → Option Builder
  | .word value => some (deliver frames value)
  | .string text => some (deliver frames (.string text))
  | .openArray => enter? frames (.array []) .firstItem
  | .openObject => enter? frames (.object [] "") .firstName
  | _ => none

/-- Closes the innermost frame, if it is of the sort that the lexeme closes. -/
def close? : List Frame → Lexeme → Option Builder
  | .array items :: rest, .closeArray => some (deliver rest (.array items.reverse))
  | .object members _ :: rest, .closeObject => some (deliver rest (.object members.reverse))
  | _, _ => none

/-- The effect of the name of a member. -/
def takeName? : List Frame → Lexeme → Option Builder
  | .object members _ :: rest, .string name =>
    some (.reading (.object members name :: rest) .colon)
  | _, _ => none

/-- **One step.** The effect of a lexeme. -/
def step? : Builder → Lexeme → Option Builder
  | .complete _, _ => none
  | .reading frames awaiting, lexeme =>
    match awaiting with
    | .value => takeValue? frames lexeme
    -- only an array without items may end where an item may stand
    | .firstItem => (takeValue? frames lexeme).or (close? frames lexeme)
    | .name => takeName? frames lexeme
    | .firstName => (takeName? frames lexeme).or (close? frames lexeme)
    | .colon =>
      match lexeme with
      | .colon => some (.reading frames .value)
      | _ => none
    | .comma =>
      match lexeme with
      | .comma => (afterComma? frames).map (.reading frames)
      | _ => close? frames lexeme

/-- The value, if it is complete. -/
def value? : Builder → Option Json
  | .complete value => some value
  | .reading _ _ => none

end Builder

/-- **Reading.** The value of a text, if the text is one JSON value and nothing else. -/
def read? (text : String) : Option Json := do
  (← (← lexemes? text).foldlM Builder.step? (.reading [] .value)).value?

end PocketShell.Json
