import PocketShell.Decimal.Shortest

/-!
# Texts of floating-point numbers

The digits of a number are chosen by `Decimal.shortest`; a `Layout` says how they are written: which
numbers are written positionally and which with an exponent, whether an integral number keeps a
fraction, and which of two equally near decimals is taken. Every place that writes numbers has one
value of this type.
-/

namespace PocketShell.Decimal

/-- **Layouts.** The decisions of a format for floating-point numbers. -/
structure Layout where
  /-- Is a number positional whose leading digit stands at this power of ten? -/
  positional : Int → Bool
  /-- What follows the digits of a positional number that has no fraction. -/
  integral : String
  /-- Which of two equally near decimals is written. -/
  tie : Tie

/-- Digits with a point after the first `place` of them, and zeros where there are none. -/
def positionalText (integral : String) (ds : List Char) (place : Int) : String :=
  if place ≤ 0 then
    String.ofList ('0' :: '.' :: List.replicate place.natAbs '0' ++ ds)
  else if place < ds.length then
    String.ofList (ds.take place.toNat ++ '.' :: ds.drop place.toNat)
  else
    String.ofList (ds ++ List.replicate (place.toNat - ds.length) '0') ++ integral

/-- Digits with a point after the first of them, and a signed power of ten. -/
def scientificText (ds : List Char) (exponent : Int) : String :=
  let fraction := if ds.length ≤ 1 then [] else '.' :: ds.drop 1
  let sign := if exponent < 0 then '-' else '+'
  String.ofList (ds.take 1 ++ fraction ++ 'e' :: sign :: digits exponent.natAbs)

/-- The text of a finite number without its sign. -/
def Layout.magnitude (layout : Layout) (value : Float) : String :=
  if value == 0 then "0" ++ layout.integral
  else
    let decimal := shortest layout.tie value
    let ds := digits decimal.significand
    let place := decimal.exponent + ds.length
    if layout.positional (place - 1) then positionalText layout.integral ds place
    else scientificText ds (place - 1)

/-- **Writing a number.** The sign, then the magnitude; infinities and what is no number have names
of their own. -/
def Layout.text (layout : Layout) (value : Float) : String :=
  let sign := if value.toBits.toNat / Nat.pow 2 63 = 1 then "-" else ""
  if value.isNaN then "NaN"
  else if value.isInf then sign ++ "inf"
  else sign ++ layout.magnitude value

end PocketShell.Decimal
