/-!
# Decimal numerals

A `Decimal` is a natural number times a power of ten, with a sign: what a numeral such as `-1.5e3`
denotes, before it is rounded to a binary floating-point number.

* `Decimal.toFloat` — the nearest binary64 number, with ties to the even one;
* `Decimal.read?` — the decimal that a text denotes. Digits may stand on either side of the point
  only, an exponent may follow, and nothing else may.
-/

namespace PocketShell

/-- **Decimals.** The number `± significand · 10 ^ exponent`. -/
structure Decimal where
  /-- Is there a minus sign? Zero may have one. -/
  negative : Bool
  /-- The digits, without a point. -/
  significand : Nat
  /-- The power of ten that the digits are multiplied by. -/
  exponent : Int
  deriving DecidableEq, Repr

namespace Decimal

/-- The value of a decimal digit. -/
def digit (c : Char) : Nat :=
  c.toNat - '0'.toNat

/-- The number that a list of decimal digits denotes. -/
def ofDigits (digits : List Char) : Nat :=
  digits.foldl (fun value c => 10 * value + digit c) 0

/-- The decimal digits of a number. -/
def digits (n : Nat) : List Char :=
  Nat.toDigits 10 n

/-- The nearest binary64 number to `significand · 10 ^ exponent`. A number of more than 400 digits
before the point is beyond the range of the format, one with more than 400 zeros behind the point is
nearer to zero than to any other number of the format; neither needs its power of ten. -/
def magnitude (significand : Nat) (exponent : Int) : Float :=
  let leading := (digits significand).length + exponent
  if significand = 0 ∨ leading < -400 then 0
  else if 400 < leading then Float.ofScientific 1 false 400
  else Float.ofScientific significand (exponent < 0) exponent.natAbs

/-- **Rounding.** The nearest binary64 number, with ties to the even one. -/
def toFloat (decimal : Decimal) : Float :=
  let value := magnitude decimal.significand decimal.exponent
  if decimal.negative then -value else value

/-! ### Reading -/

/-- Splits a sign off a text: is it a minus sign, and what follows. -/
def readSign : List Char → Bool × List Char
  | '-' :: rest => (true, rest)
  | '+' :: rest => (false, rest)
  | rest => (false, rest)

/-- The exponent at the end of a numeral: nothing, or `e` and a signed number. -/
def readExponent? : List Char → Option Int
  | [] => some 0
  | c :: rest =>
    if c = 'e' ∨ c = 'E' then
      match readSign rest with
      | (_, []) => none
      | (negative, digits) =>
        if digits.all Char.isDigit then
          some (if negative then -(ofDigits digits : Int) else ofDigits digits)
        else none
    else none

/-- The fraction of a numeral, and what follows it. Without a point there is no fraction. -/
def readFraction : List Char → List Char × List Char
  | '.' :: rest => (rest.takeWhile Char.isDigit, rest.dropWhile Char.isDigit)
  | rest => ([], rest)

/-- **Reading a numeral.** A sign, digits with a point before, between or after them, and an
exponent; all but the digits may be missing. -/
def read? (text : List Char) : Option Decimal :=
  let (negative, rest) := readSign text
  let whole := rest.takeWhile Char.isDigit
  let (fraction, rest) := readFraction (rest.dropWhile Char.isDigit)
  if whole.isEmpty && fraction.isEmpty then none
  else
    (readExponent? rest).map fun exponent =>
      { negative, significand := ofDigits (whole ++ fraction),
        exponent := exponent - fraction.length }

end Decimal

/-- The words for a number that is none of the decimals, in lower case. -/
def specialFloat? (word : String) : Option Float :=
  if word = "inf" ∨ word = "infinity" then some (Float.ofBits 0x7FF0000000000000)
  else if word = "nan" then some (Float.ofBits 0x7FF8000000000000)
  else none

/-- **Reading a floating-point number.** A numeral, or one of the words `inf`, `infinity` and `nan`
in letters of any case and with a sign. -/
def readFloat? (text : String) : Option Float :=
  match Decimal.read? text.toList with
  | some decimal => some decimal.toFloat
  | none =>
    let (negative, word) := Decimal.readSign text.toList
    (specialFloat? (String.ofList (word.map Char.toLower))).map fun value =>
      if negative then -value else value

end PocketShell
