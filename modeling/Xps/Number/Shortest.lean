import Xps.Number.Single

/-!
# Numbers as text

The fewest decimal digits that read back as the same number, and the notations made of them:
positional, positional or with an exponent by size, and with a fixed count of decimals.
-/

namespace Xps.Shortest

open Float.Model (UnpackedFloat)

/--
The values that round to `m * 2 ^ e`, as numerators over one denominator.
The ends belong to it when the mantissa is even.
-/
structure Interval where
  low : Nat
  middle : Nat
  high : Nat
  denominator : Nat
  closed : Bool

/-- The gap below a power of two is half of the gap above it, except among the smallest numbers. -/
def Interval.around (mantissa : Nat) (exponent : Int) : Interval :=
  let below := if mantissa = 2 ^ 23 ∧ -149 < exponent then 1 else 2
  let (n, d) := Single.fraction 1 (exponent - 2)
  ⟨(4 * mantissa - below) * n, 4 * mantissa * n, (4 * mantissa + 2) * n, d, mantissa % 2 = 0⟩

def Interval.contains (i : Interval) (n d : Nat) : Bool :=
  let x := n * i.denominator
  if i.closed then i.low * d ≤ x && x ≤ i.high * d else i.low * d < x && x < i.high * d

/-- The multiple of `10 ^ exponent` in an interval that is nearest to its middle. -/
def Interval.multiple? (i : Interval) (exponent : Int) : Option Nat :=
  let n := if 0 ≤ exponent then 10 ^ exponent.toNat else 1
  let d := if 0 ≤ exponent then 1 else 10 ^ (-exponent).toNat
  let below := (i.middle * d) / (n * i.denominator)
  let nearer := if 2 * i.middle * d < (2 * below + 1) * n * i.denominator then below else below + 1
  [nearer, below, below + 1].find? fun q => i.contains (q * n) d

/-- The exponents of ten of the last digit of any number, the largest first. -/
def exponents : List Int := (List.range 90).map fun (k : Nat) => 39 - Int.ofNat k

/-- The fewest digits that read back as `m * 2 ^ e`, and the power of ten of the last one. -/
def digits (mantissa : Nat) (exponent : Int) : Nat × Int :=
  let i := Interval.around mantissa exponent
  (exponents.findSome? fun k => (i.multiple? k).map (·, k)).getD (0, 0)

/-- Writes the number itself by a printer of positive numbers. -/
def withSign (zero : String) (positive : Nat → Int → String) (x : Float32) : String :=
  let signed : UnpackedFloat.Sign → String → String
    | .negative, s => "-" ++ s
    | .positive, s => s
  match Single.value x with
  | .notANumber => "NaN"
  | .infinity sign => signed sign "inf"
  | .zero sign => signed sign zero
  | .finite sign mantissa exponent _ => signed sign (positive mantissa exponent)

def zeros (n : Nat) : String := "".pushn '0' n

/-- Writes `digits * 10 ^ exponent` with at least `least` decimals. -/
def positional (least : Nat) (digits : Nat) (exponent : Int) : String :=
  let written := toString digits
  if 0 ≤ exponent then
    written ++ zeros exponent.toNat ++ (if least = 0 then "" else "." ++ zeros least)
  else
    let places := (-exponent).toNat
    let padded := (zeros (places + 1 - written.length) ++ written).toList
    let whole := padded.take (padded.length - places)
    let decimals := padded.drop (padded.length - places)
    String.ofList whole ++ "." ++ String.ofList decimals ++ zeros (least - places)

/-- Writes one digit before the point and the exponent after an `e`. -/
def scientific (digits : Nat) (exponent : Int) : String :=
  let written := (toString digits).toList
  let decimals := written.drop 1
  let point := if decimals.isEmpty then "" else "." ++ String.ofList decimals
  String.ofList (written.take 1) ++ point ++ "e" ++ toString (exponent + decimals.length)

/-- The shortest positional notation. -/
def plain : Float32 → String :=
  withSign "0" fun mantissa exponent =>
    let (n, k) := digits mantissa exponent
    positional 0 n k

/-- At least one decimal from `1e-4` to below `1e16`, and an exponent outside of that. -/
def detailed (x : Float32) : String :=
  let small := Float32.abs x < 1e-4
  let large := 1e16 ≤ Float32.abs x
  withSign "0.0" (fun mantissa exponent =>
    let (n, k) := digits mantissa exponent
    if small ∨ large then scientific n k else positional 1 n k) x

/-- The quotient nearest to `n / d`, a half to the even neighbour. -/
def roundHalfEven (n d : Nat) : Nat :=
  let q := n / d
  let twice := 2 * (n % d)
  if twice < d ∨ (twice = d ∧ q % 2 = 0) then q else q + 1

/-- Exactly `places` decimals of the exact value, a half to the even neighbour. -/
def fixed (places : Nat) : Float32 → String :=
  withSign ("0." ++ zeros places) fun mantissa exponent =>
    let (n, d) := Single.fraction mantissa exponent
    positional places (roundHalfEven (n * 10 ^ places) d) (-places)

end Xps.Shortest
