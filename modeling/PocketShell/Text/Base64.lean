/-!
# Base64

The standard alphabet writes three bytes as four characters of six bits each. A last group of one or
two bytes is filled up with `=` to four characters. Reading is strict: the fill characters are
required, nothing else may stand between the characters, and the bits that a last group does not
use must be zero, so that every sequence of bytes has one written form.
-/

namespace PocketShell.Text.Base64

/-- The six bits that a character of the alphabet stands for. -/
def value? (c : Char) : Option Nat :=
  if 'A' ≤ c ∧ c ≤ 'Z' then some (c.toNat - 'A'.toNat)
  else if 'a' ≤ c ∧ c ≤ 'z' then some (c.toNat - 'a'.toNat + 26)
  else if '0' ≤ c ∧ c ≤ '9' then some (c.toNat - '0'.toNat + 52)
  else if c = '+' then some 62
  else if c = '/' then some 63
  else none

/-- The byte of a last group of two characters. -/
def oneByte? (a b : Nat) : Option (List UInt8) :=
  if b % 16 = 0 then some [UInt8.ofNat (a * 4 + b / 16)] else none

/-- The bytes of a last group of three characters. -/
def twoBytes? (a b c : Nat) : Option (List UInt8) :=
  if c % 4 = 0 then
    some [UInt8.ofNat (a * 4 + b / 16), UInt8.ofNat (b % 16 * 16 + c / 4)]
  else none

/-- The bytes of a full group. -/
def threeBytes (a b c d : Nat) : List UInt8 :=
  [UInt8.ofNat (a * 4 + b / 16), UInt8.ofNat (b % 16 * 16 + c / 4), UInt8.ofNat (c % 4 * 64 + d)]

/-- **Reading.** The bytes that a text stands for, if it is the written form of some. -/
def decode? : List Char → Option (List UInt8)
  | [] => some []
  | [a, b, '=', '='] => do oneByte? (← value? a) (← value? b)
  | [a, b, c, '='] => do twoBytes? (← value? a) (← value? b) (← value? c)
  | a :: b :: c :: d :: rest => do
    let group := threeBytes (← value? a) (← value? b) (← value? c) (← value? d)
    return group ++ (← decode? rest)
  | _ => none

end PocketShell.Text.Base64
