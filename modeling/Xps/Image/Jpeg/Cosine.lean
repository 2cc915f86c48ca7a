/-!
# The inverse cosine transform

A block of coefficients becomes a block of samples: first its columns are transformed, then its
rows. Numbers have 32 bits and wrap around. Factors have twelve binary places.
-/

namespace Xps.Jpeg.Cosine

/-- Shifts a number to where the products are. -/
def raise (x : Int32) : Int32 := x <<< 12

/-- The even half of a transform of eight numbers. -/
def even (bias s₀ s₂ s₄ s₆ : Int32) : List Int32 :=
  let p := (s₂ + s₆) * 2217
  let low := p + s₆ * -7567
  let high := p + s₂ * 3135
  let sum := raise (s₀ + s₄)
  let difference := raise (s₀ - s₄)
  [sum + high + bias, difference + low + bias, difference - low + bias, sum - high + bias]

/-- The odd half of a transform of eight numbers, from the last to the first. -/
def odd (s₁ s₃ s₅ s₇ : Int32) : List Int32 :=
  let p := (s₇ + s₃ + (s₅ + s₁)) * 4816
  let p₁ := p + (s₇ + s₁) * -3685
  let p₂ := p + (s₅ + s₃) * -10497
  let p₃ := (s₇ + s₃) * -8034
  let p₄ := (s₅ + s₁) * -1597
  [s₁ * 6149 + (p₁ + p₄), s₃ * 12586 + (p₂ + p₃), s₅ * 8410 + (p₂ + p₄), s₇ * 1223 + (p₁ + p₃)]

/-- Transforms eight numbers. `bias` is added to each result, for rounding. -/
def transform (bias : Int32) : List Int32 → List Int32
  | [s₀, s₁, s₂, s₃, s₄, s₅, s₆, s₇] =>
    let xs := even bias s₀ s₂ s₄ s₆
    let ts := odd s₁ s₃ s₅ s₇
    xs.zipWith (· + ·) ts ++ (xs.zipWith (· - ·) ts).reverse
  | _ => []

/-- A column keeps two binary places. One that is constant is not rounded. -/
def column (s : List Int32) : List Int32 :=
  match s with
  | mean :: others =>
    if others.all (· == 0) then List.replicate 8 (mean <<< 2)
    else (transform 512 s).map fun x => x >>> (10 : Int32)
  | [] => []

/-- A row ends with whole samples around the middle of the range of a byte: 128 and a half. -/
def row (s : List Int32) : List Int32 := (transform 16842752 s).map fun x => x >>> (17 : Int32)

def clamp (x : Int32) : Nat := Nat.min 255 x.toInt.toNat

/-- The numbers of an index in each of some lists. -/
def across (lists : List (List Int32)) (index : Nat) : List Int32 :=
  lists.map fun s => s[index]?.getD 0

/-- The samples of a block of coefficients in rows, which are not yet scaled by their factors. -/
def samples (coefficients : Array Int) (factors : Array Nat) : Array Nat :=
  let scaled (k : Nat) : Int32 :=
    Int32.ofInt ((coefficients[k]?.getD 0) * (factors[k]?.getD 0))
  let columns := (List.range 8).map fun x => column ((List.range 8).map fun y => scaled (8 * y + x))
  ((List.range 8).flatMap fun y => (row (across columns y)).map clamp).toArray

end Xps.Jpeg.Cosine
