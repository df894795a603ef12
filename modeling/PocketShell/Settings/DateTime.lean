import PocketShell.Text.Hex

/-!
# Dates and times in settings

A value in a settings file may be a date, a time of day, or both, and a date with a time may say how
far that time is from universal time: `2024-02-29`, `07:32:00.25`, `2024-02-29T07:32:00Z`. A `T` of
either case or one space stands between date and time.

* `Date.read?`, `Time.read?`, `Offset.read?` — the parts;
* `DateTime.read?` — a date, a time, or both;
* `DateTime.text` — the text of one. It is not always the text that was read: it has the letters in
  upper case and a `T` before the time, the fraction of a second ends after nine digits and has no
  zeros at its end, and there is no negative offset of zero.
-/

namespace PocketShell.Settings

/-- **Dates.** -/
structure Date where
  year : Nat
  /-- The month, from 1. -/
  month : Nat
  /-- The day of the month, from 1. -/
  day : Nat
  deriving DecidableEq, Repr

/-- **Times of day.** -/
structure Time where
  hour : Nat
  minute : Nat
  /-- The second; the last one of a day may be the sixtieth. -/
  second : Nat
  /-- The digits of the fraction of the second. -/
  fraction : List Char
  deriving DecidableEq, Repr

/-- **Offsets** from universal time. -/
inductive Offset where
  | universal
  | minutes (minutes : Int)
  deriving DecidableEq, Repr

/-- **Dates and times.** -/
inductive DateTime where
  | dateOnly (date : Date)
  | timeOnly (time : Time)
  /-- A time of a certain day, with its offset if that is known. -/
  | both (date : Date) (time : Time) (offset? : Option Offset)
  deriving DecidableEq, Repr

/-! ### Numbers of a fixed width -/

/-- A number of so many decimal digits, between two bounds. -/
def fixed? (width low high : Nat) (cs : List Char) : Option (Nat × List Char) := do
  let number ← Text.digits? 10 (cs.take width)
  if width ≤ cs.length ∧ low ≤ number ∧ number ≤ high then some (number, cs.drop width) else none

/-- The decimal digits of a number, with zeros before them up to a width. -/
def fixed (width number : Nat) : String :=
  let digits := toString number
  "".pushn '0' (width - digits.length) ++ digits

/-- The rest behind a character. -/
def expect? (c : Char) : List Char → Option (List Char)
  | [] => none
  | first :: rest => if first = c then some rest else none

/-! ### Dates -/

namespace Date

def isLeap (year : Nat) : Bool :=
  year % 4 = 0 && (year % 100 ≠ 0 || year % 400 = 0)

def daysOf (year month : Nat) : Nat :=
  if month = 2 then if isLeap year then 29 else 28
  else if [4, 6, 9, 11].contains month then 30
  else 31

/-- **Reading a date:** `year-month-day`, of four, two and two digits. -/
def read? (cs : List Char) : Option (Date × List Char) := do
  let (year, rest) ← fixed? 4 0 9999 cs
  let (month, rest) ← fixed? 2 1 12 (← expect? '-' rest)
  let (day, rest) ← fixed? 2 1 (daysOf year month) (← expect? '-' rest)
  return ({ year, month, day }, rest)

def text (date : Date) : String :=
  fixed 4 date.year ++ "-" ++ fixed 2 date.month ++ "-" ++ fixed 2 date.day

end Date

/-! ### Times -/

namespace Time

/-- How many digits of the fraction of a second are kept. -/
def precision : Nat := 9

/-- The digits of a fraction without those that are not kept and without zeros at their end. -/
def trimFraction (digits : List Char) : List Char :=
  ((digits.take precision).reverse.dropWhile (· = '0')).reverse

/-- The fraction of a second, if there is one: digits behind a point. -/
def fraction? : List Char → Option (List Char × List Char)
  | '.' :: cs =>
    let digits := cs.takeWhile Char.isDigit
    if digits.isEmpty then none else some (trimFraction digits, cs.dropWhile Char.isDigit)
  | cs => some ([], cs)

/-- **Reading a time:** `hour:minute:second`, of two digits each, and a fraction of the second. -/
def read? (cs : List Char) : Option (Time × List Char) := do
  let (hour, rest) ← fixed? 2 0 23 cs
  let (minute, rest) ← fixed? 2 0 59 (← expect? ':' rest)
  let (second, rest) ← fixed? 2 0 60 (← expect? ':' rest)
  let (fraction, rest) ← fraction? rest
  return ({ hour, minute, second, fraction }, rest)

def text (time : Time) : String :=
  fixed 2 time.hour ++ ":" ++ fixed 2 time.minute ++ ":" ++ fixed 2 time.second ++
    if time.fraction.isEmpty then "" else "." ++ String.ofList time.fraction

end Time

/-! ### Offsets -/

namespace Offset

/-- The minutes of an offset: `hour:minute`, of two digits each. -/
def minutes? (cs : List Char) : Option (Int × List Char) := do
  let (hour, rest) ← fixed? 2 0 23 cs
  let (minute, rest) ← fixed? 2 0 59 (← expect? ':' rest)
  return (60 * hour + minute, rest)

/-- **Reading an offset,** if there is one: a `Z` of either case, or a sign with hours and
minutes. -/
def read? : List Char → Option (Option Offset × List Char)
  | 'Z' :: cs | 'z' :: cs => some (some .universal, cs)
  | '+' :: cs => (minutes? cs).map fun (number, rest) => (some (.minutes number), rest)
  | '-' :: cs => (minutes? cs).map fun (number, rest) => (some (.minutes (-number)), rest)
  | cs => some (none, cs)

def text : Offset → String
  | .universal => "Z"
  | .minutes number =>
    (if number < 0 then "-" else "+") ++ fixed 2 (number.natAbs / 60) ++ ":" ++
      fixed 2 (number.natAbs % 60)

end Offset

/-! ### Both -/

namespace DateTime

/-- The rest behind what stands between a date and a time. -/
def separator? : List Char → Option (List Char)
  | 'T' :: cs | 't' :: cs | ' ' :: cs => some cs
  | _ => none

/-- **Reading a date, a time, or both.** A date that no time follows is a date. -/
def read? (cs : List Char) : Option (DateTime × List Char) :=
  match Date.read? cs with
  | none => (Time.read? cs).map fun (time, rest) => (.timeOnly time, rest)
  | some (date, rest) =>
    match (separator? rest).bind Time.read? with
    | none => some (.dateOnly date, rest)
    | some (time, rest) =>
      (Offset.read? rest).map fun (offset?, rest) => (.both date time offset?, rest)

/-- **The text** of a date, a time, or both. -/
def text : DateTime → String
  | .dateOnly date => date.text
  | .timeOnly time => time.text
  | .both date time offset? =>
    date.text ++ "T" ++ time.text ++ offset?.elim "" Offset.text

end DateTime

end PocketShell.Settings
