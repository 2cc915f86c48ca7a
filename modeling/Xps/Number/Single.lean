import Xps.Number.Power

/-!
# Single-precision numbers

Exact conversions of binary32 numbers: to and from binary64, from whole numbers, and to whole
numbers with a chosen rounding. Every conversion goes through the exact value `± m * 2 ^ e`.
-/

namespace Xps.Single

open Float.Model (Format UnpackedFloat)

/-- The exact value of a number. -/
def value (x : Float32) : UnpackedFloat :=
  .unpack .binary32 x.toBits.toBitVec

/-- Rounds a value to the nearest number of a format, ties to the even mantissa. -/
def roundTo (format : Format) : UnpackedFloat → UnpackedFloat
  | .finite sign mantissa exponent _ => .round format sign mantissa exponent
  | v => v

/-- The binary64 number of the same value. -/
def widen (x : Float32) : Float :=
  .ofBits ⟨(roundTo .binary64 (value x)).pack .binary64⟩

/-- The number nearest to a binary64 number. -/
def narrow (x : Float) : Float32 :=
  .ofBits ⟨(roundTo .binary32 (.unpack .binary64 x.toBits.toBitVec)).pack .binary32⟩

/-- The number nearest to a whole number. -/
def ofInt (n : Int) : Float32 :=
  .ofBits ⟨(UnpackedFloat.ofInt .binary32 n).pack .binary32⟩

def ofNat (n : Nat) : Float32 := ofInt n

/-- `a * b + c * d`, rounded to double precision after each operation and then to single. -/
def sumOfProducts (a b c d : Float32) : Float32 :=
  narrow (widen a * widen b + widen c * widen d)

/-- The smaller number. The first one in a tie, and the other one of a NaN. -/
def min (x y : Float32) : Float32 :=
  if x.isNaN then y else if y < x then y else x

/-- The larger number. The first one in a tie, and the other one of a NaN. -/
def max (x y : Float32) : Float32 :=
  if x.isNaN then y else if x < y then y else x

/-- The number itself inside of `low .. high`, and the nearer end outside of it. -/
def clamp (low high x : Float32) : Float32 :=
  if x < low then low else if high < x then high else x

/-- The largest finite number. -/
def largest : Float32 := .ofBits 0x7f7fffff

/-- The value as a fraction. A number that is not finite counts as zero. -/
def toRat (x : Float32) : Rat :=
  match value x with
  | .finite sign mantissa exponent _ =>
    let magnitude : Rat := mkRat mantissa 1 * (2 : Rat) ^ exponent
    match sign with
    | .positive => magnitude
    | .negative => -magnitude
  | _ => 0

/-! ## Whole numbers -/

/-- A positive value `± m * 2 ^ e` as a fraction. -/
def fraction (mantissa : Nat) (exponent : Int) : Nat × Nat :=
  if 0 ≤ exponent then (mantissa * 2 ^ exponent.toNat, 1)
  else (mantissa, 2 ^ (-exponent).toNat)

/-- The largest number of an unsigned 32-bit word. -/
def wordMax : Nat := 2 ^ 32 - 1

/-- Applies a rounding of positive fractions. Words saturate, and a NaN is zero. -/
def toWord (rounding : Nat → Nat → Nat) (x : Float32) : Nat :=
  match value x with
  | .finite .positive mantissa exponent _ =>
    let (n, d) := fraction mantissa exponent
    Nat.min wordMax (rounding n d)
  | .infinity .positive => wordMax
  | _ => 0

/-- The whole number next to it toward zero, at most 31 bits long. A NaN is zero. -/
def truncate (x : Float32) : Int :=
  match value x with
  | .finite sign mantissa exponent _ =>
    let (n, d) := fraction mantissa exponent
    match sign with
    | .positive => Nat.min (2 ^ 31 - 1) (n / d)
    | .negative => -(Nat.min (2 ^ 31) (n / d) : Int)
  | .infinity .positive => 2 ^ 31 - 1
  | .infinity .negative => -(2 ^ 31)
  | _ => 0

/-- The nearest whole number, half away from zero. -/
def round : Float32 → Nat := toWord fun n d => (2 * n + d) / (2 * d)

def ceil : Float32 → Nat := toWord fun n d => (n + d - 1) / d

def floor : Float32 → Nat := toWord fun n d => n / d

end Xps.Single
