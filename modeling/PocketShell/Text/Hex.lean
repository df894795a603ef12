/-!
# Hexadecimal digits

Escapes in JSON texts and in settings give a character by its number, in hexadecimal digits of
either case.
-/

namespace PocketShell.Text

/-- The value of a hexadecimal digit. -/
def hexValue? (c : Char) : Option Nat :=
  if c.isDigit then some (c.toNat - '0'.toNat)
  else if 'a' ≤ c ∧ c ≤ 'f' then some (c.toNat - 'a'.toNat + 10)
  else if 'A' ≤ c ∧ c ≤ 'F' then some (c.toNat - 'A'.toNat + 10)
  else none

/-- The number that digits denote in a base of at most sixteen; no digit at all denotes zero. -/
def digits? (base : Nat) (digits : List Char) : Option Nat :=
  digits.foldlM (fun number c => do
    let value ← hexValue? c
    if value < base then some (base * number + value) else none) 0

end PocketShell.Text
