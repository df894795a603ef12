import PocketShell.Decimal.Basic

/-!
# The shortest decimal of a binary number

A binary64 number stands for all reals that round to it. `Decimal.shortest` finds the decimal with
the fewest digits among them, and of those the one nearest to the number itself.

The number is `m · 2 ^ q`; the reals that round to it reach half way to its two neighbours, the ends
included exactly when `m` is even. On the grid of the multiples of a power of ten only the two
neighbours of the number can be nearest, so the search tries those two on one grid after the other,
from the power of the leading digit downwards, and takes the first that lies in the interval. All
arithmetic is on natural numbers: the ends of the interval and the points of a grid are compared
after multiplication by a common denominator.
-/

namespace PocketShell

/-- **Finite binary numbers:** `mantissa · 2 ^ exponent`, without the sign. -/
structure Binary where
  mantissa : Nat
  exponent : Int
  /-- Is the neighbour below only half as far away as the neighbour above? -/
  narrowBelow : Bool

/-- The magnitude of a finite binary64 number. -/
def Binary.ofFloat (value : Float) : Binary :=
  let bits : Nat := value.toBits.toNat
  let fraction : Nat := bits % Nat.pow 2 52
  let biased : Nat := bits / Nat.pow 2 52 % Nat.pow 2 11
  if biased = 0 then ⟨fraction, -1074, false⟩
  else ⟨Nat.pow 2 52 + fraction, (biased : Int) - 1075, fraction = 0 ∧ 1 < biased⟩

namespace Decimal

/-- Which of two equally near decimals is taken. -/
inductive Tie where
  | toEven
  | upward
  deriving DecidableEq, Repr

/-- A positive number with the ends of the interval of the reals that round to it, over a common
denominator. -/
structure Interval where
  lower : Nat
  value : Nat
  upper : Nat
  /-- What the three are to be divided by. -/
  denominator : Nat
  /-- Do the ends belong to the interval? -/
  closed : Bool

/-- The interval of the reals that round to a binary number. -/
def Interval.ofBinary (x : Binary) : Interval :=
  -- in quarters of the last place: half way up is two of them, half way down two or one
  let unit := Nat.pow 2 (x.exponent - 2).toNat
  { lower := (4 * x.mantissa - if x.narrowBelow then 1 else 2) * unit
    value := 4 * x.mantissa * unit
    upper := (4 * x.mantissa + 2) * unit
    denominator := Nat.pow 2 (2 - x.exponent).toNat
    closed := x.mantissa % 2 = 0 }

namespace Interval

/-- The interval in units of a power of ten: all numbers over the denominator that turns the points
of the grid into multiples of it. -/
def onGrid (i : Interval) (exponent : Int) : Interval :=
  let scale := Nat.pow 10 (-exponent).toNat
  { i with
    lower := i.lower * scale
    value := i.value * scale
    upper := i.upper * scale
    denominator := i.denominator * Nat.pow 10 exponent.toNat }

/-- Does the integer lie in the interval? -/
def contains (i : Interval) (point : Nat) : Bool :=
  let scaled := point * i.denominator
  if i.closed then i.lower ≤ scaled && scaled ≤ i.upper
  else i.lower < scaled && scaled < i.upper

/-- The nearer of the two integers around the number that lies in the interval, if one does. -/
def nearest? (i : Interval) (tie : Tie) : Option Nat :=
  let below := i.value / i.denominator
  match i.contains below, i.contains (below + 1) with
  | false, false => none
  | true, false => some below
  | false, true => some (below + 1)
  | true, true =>
    match compare (2 * i.value) ((2 * below + 1) * i.denominator), tie with
    | .lt, _ => some below
    | .gt, _ => some (below + 1)
    | .eq, .upward => some (below + 1)
    | .eq, .toEven => some (if below % 2 = 0 then below else below + 1)

/-- The power of ten of the leading digit of the number. No binary64 number is below
`10 ^ (-400)`. -/
def leading (i : Interval) : Int :=
  (digits (i.value * Nat.pow 10 400 / i.denominator)).length - 401

end Interval

/-- The number of zeros at the end of a list of digits. -/
def trailingZeros (ds : List Char) : Nat :=
  (ds.reverse.takeWhile (· = '0')).length

/-- The same number with no zero at the end of its digits. -/
def stripZeros (significand : Nat) (exponent : Int) : Decimal :=
  let ds := digits significand
  let zeros := trailingZeros ds
  { negative := false, significand := ofDigits (ds.take (ds.length - zeros)),
    exponent := exponent + zeros }

/-- **Shortest decimals.** The decimal of fewest digits that rounds to a finite positive number, and
of those the nearest to it. Seventeen digits are always enough; the exact value of the number in its
own units stands in for a search without result. -/
def shortest (tie : Tie) (value : Float) : Decimal :=
  let i := Interval.ofBinary (Binary.ofFloat value)
  let found := (List.range 17).findSome? fun (n : Nat) =>
    let exponent := i.leading - n
    ((i.onGrid exponent).nearest? tie).map fun point => stripZeros point exponent
  found.getD (stripZeros (i.value * Nat.pow 10 1100 / i.denominator) (-1100))

end Decimal

end PocketShell
