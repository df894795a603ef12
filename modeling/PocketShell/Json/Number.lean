import PocketShell.Decimal.Layout

/-!
# Numbers of JSON

A number without a point and without an exponent is an integer when it fits a word of 64 bits,
signed or not; every other number is a binary64 number.

A text may have more digits than a word holds. Digits are kept as long as the **significand** fits
64 bits: a digit of the whole part that no longer fits counts as a zero, a digit of the fraction
that no longer fits ends the fraction. The significand is rounded to binary64 and then scaled by one
power of ten, in binary64 arithmetic; a number that leaves the range of the format upwards is
refused, one that leaves it downwards is zero.

* `Json.Number.ofText?` — the number that a text denotes;
* `Json.Number.text` — its text: an integer in decimal, any other number in the `layout` of JSON.
-/

namespace PocketShell.Json

/-- **Numbers.** -/
inductive Number where
  /-- An integer that fits 64 bits. -/
  | integer (value : Int)
  | float (value : Float)

namespace Number

/-- **Layout.** Numbers are positional from `0.00001` up to sixteen digits before the point, and an
integral one keeps a zero behind the point. -/
def layout : Decimal.Layout where
  positional := fun place => -5 ≤ place && place < 16
  integral := ".0"
  tie := .toEven

def text : Number → String
  | .integer value => toString value
  | .float value => layout.text value

/-! ### Reading -/

/-- The digits of a number that are kept: `significand · 10 ^ exponent`. -/
structure Kept where
  /-- The digits that fit 64 bits. -/
  significand : Nat
  exponent : Int
  /-- Has a digit been left out? -/
  clipped : Bool

/-- The effect of one more digit that shifts the power of ten by `kept` if there is room for it and
by `lost` if there is none. -/
def Kept.more (kept lost : Int) (k : Kept) (c : Char) : Kept :=
  let next := 10 * k.significand + Decimal.digit c
  if k.clipped || Nat.pow 2 64 ≤ next then { k with exponent := k.exponent + lost, clipped := true }
  else { k with significand := next, exponent := k.exponent + kept }

/-- The digits kept of a whole part. -/
def Kept.ofWhole (whole : List Char) : Kept :=
  whole.foldl (Kept.more 0 1) ⟨0, 0, false⟩

/-- The digits kept of a whole part and a fraction behind it. -/
def Kept.withFraction (k : Kept) (fraction : List Char) : Kept :=
  fraction.foldl (Kept.more (-1) 0) { k with clipped := false }

/-- **Scaling.** A number times a power of ten, in binary64 arithmetic, if it does not leave the
range of the format upwards. Powers beyond the range are applied in steps. -/
def scale? (value : Float) (exponent : Int) : Option Float :=
  if exponent.natAbs ≤ 308 then
    let power := Float.ofScientific 1 false exponent.natAbs
    if exponent < 0 then some (value / power)
    else if (value * power).isInf then none
    else some (value * power)
  else if value == 0 then some value
  else if 0 < exponent then none
  -- too small a power for one division
  else scale? (value / 1e308) (exponent + 308)
  termination_by exponent.natAbs
  decreasing_by omega

/-- The binary64 number of the kept digits and an exponent. -/
def Kept.toFloat? (k : Kept) (exponent : Int) : Option Float :=
  scale? (Float.ofScientific k.significand false 0) (k.exponent + exponent)

/-- The number of a whole part alone. Zero with a sign and what does not fit 64 bits is no
integer. -/
def ofWhole? (negative : Bool) (k : Kept) : Option Number :=
  if !k.clipped && !negative then some (.integer k.significand)
  else if !k.clipped && 0 < k.significand && k.significand ≤ Nat.pow 2 63 then
    some (.integer (-k.significand))
  else (k.toFloat? 0).map fun value => .float (if negative then -value else value)

/-- A whole part is one zero, or digits that do not begin with a zero. -/
def isWhole (digits : List Char) : Bool :=
  digits = ['0'] || (!digits.isEmpty && digits.head? ≠ some '0')

/-- The number of a whole part and what follows it: a fraction, an exponent, or both. -/
def ofParts? (negative : Bool) (k : Kept) (rest : List Char) : Option Number :=
  let read (k : Kept) (rest : List Char) : Option Number := do
    let value ← k.toFloat? (← Decimal.readExponent? rest)
    return .float (if negative then -value else value)
  match rest with
  | [] => ofWhole? negative k
  | '.' :: rest =>
    let fraction := rest.takeWhile Char.isDigit
    if fraction.isEmpty then none
    else read (k.withFraction fraction) (rest.dropWhile Char.isDigit)
  | rest => read k rest

/-- **Reading a number:** a minus sign if it is negative, a whole part, a fraction and an exponent,
the last two of which may be missing. -/
def ofText? (text : List Char) : Option Number :=
  let negative := text.head? = some '-'
  let rest := if negative then text.tail else text
  let whole := rest.takeWhile Char.isDigit
  if isWhole whole then ofParts? negative (Kept.ofWhole whole) (rest.dropWhile Char.isDigit)
  else none

end Number

end PocketShell.Json
