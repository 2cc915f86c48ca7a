/-!
# Digits

The values of digits in radices up to sixteen.
-/

namespace Xps.Text

/-- The value of a hex digit, in either case. -/
def hexDigit? (c : Char) : Option Nat :=
  if c.isDigit then some (c.toNat - '0'.toNat)
  else if 'a' ≤ c ∧ c ≤ 'f' then some (c.toNat - 'a'.toNat + 10)
  else if 'A' ≤ c ∧ c ≤ 'F' then some (c.toNat - 'A'.toNat + 10)
  else none

/-- The value of a digit in some radix. -/
def digit? (radix : Nat) (c : Char) : Option Nat := (hexDigit? c).filter (· < radix)

end Xps.Text
