import PocketShell.Decimal.Basic
import PocketShell.Error
import PocketShell.OrderedMap
import PocketShell.Text.Blank

/-!
# Variables

A session keeps its settings in **variables**: names bound to text, in the order in which they were
first bound. A variable that is not bound reads as the empty text.

* `Environment.get`, `Environment.put` — reading and binding a variable;
* `Environment.number` — the number that a variable denotes;
* `Environment.interpolate` — a text in which every reference `$name` to a bound variable is
  replaced by its value. The name reaches as far as the characters allow, the value is not looked at
  again, and a reference to a variable that is not bound stays as it is.

Five variables have a meaning of their own: `cwdName`, `userName`, `tabName`, `historyMaxName` and
`promptName`.
-/

namespace PocketShell

/-- **Environments.** The variables of a session. -/
structure Environment where
  bindings : OrderedMap String := ∅

namespace Environment

/-- The variable that holds the working directory. -/
def cwdName : String := "CWD"

/-- The variable that holds the name of the user. -/
def userName : String := "USER"

/-- The variable that holds the indentation of listings. -/
def tabName : String := "TAB"

/-- The variable that holds the number of lines to remember. -/
def historyMaxName : String := "HISTORY_MAX"

/-- The variable that holds the prompt, with references in it. -/
def promptName : String := "PROMPT"

/-- The value of a variable, or the empty text if it is not bound. -/
def get (env : Environment) (key : String) : String :=
  (env.bindings.find? key).getD ""

def contains (env : Environment) (key : String) : Bool :=
  env.bindings.contains key

def toList (env : Environment) : List (String × String) :=
  env.bindings.entries

/-- **Binding a variable.** The name must not be empty. -/
def put (env : Environment) (key value : String) : Except Error Environment :=
  if key = "" then .error .emptyKey else .ok ⟨env.bindings.insert key value⟩

/-- Binds variables one after the other. -/
def putAll (env : Environment) (bindings : List (String × String)) : Except Error Environment :=
  bindings.foldlM (fun env binding => env.put binding.1 binding.2) env

/-- **The number that a variable denotes,** or zero if its text is no number. -/
def number (env : Environment) (key : String) : Float :=
  match readFloat? (Text.trim (env.get key)) with
  | some value => if value.isNaN then 0 else value
  | none => 0

/-- The working directory: the variable, or the root if it is empty. -/
def cwd (env : Environment) : String :=
  if env.get cwdName = "" then "/" else env.get cwdName

/-! ### References -/

/-- The characters of the name in a reference. -/
def isNameChar (c : Char) : Bool :=
  c.isAlphanum || c = '_' || c = '-'

/-- What a reference is replaced by: the value of the variable, or the reference itself. -/
def expand (env : Environment) (name : List Char) : List Char :=
  match env.bindings.find? (String.ofList name) with
  | some value => value.toList
  | none => '$' :: name

/-- **Replacing references** in a list of characters: at every `$` the longest name behind it is
taken, and a `$` without a name stays. -/
def interpolateChars (env : Environment) : List Char → List Char
  | [] => []
  | c :: cs =>
    if c = '$' ∧ cs.takeWhile isNameChar ≠ [] then
      -- what is put in is not read again
      env.expand (cs.takeWhile isNameChar) ++ env.interpolateChars (cs.dropWhile isNameChar)
    else c :: env.interpolateChars cs
  termination_by cs => cs.length
  decreasing_by
    · exact Nat.lt_succ_of_le (List.dropWhile_sublist _).length_le
    · exact Nat.lt_succ_self _

/-- **Replacing references.** The text with every reference to a bound variable replaced by its
value. -/
def interpolate (env : Environment) (text : String) : String :=
  String.ofList (env.interpolateChars text.toList)

end Environment

end PocketShell
