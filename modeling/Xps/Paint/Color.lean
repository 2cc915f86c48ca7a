import Xps.Journal
import Xps.Text.Digit

/-!
# Color values

A color is written as `#RRGGBB` or `#AARRGGBB`.
-/

namespace Xps.Color

/-- The color of six or eight hex digits. -/
def ofDigits? : List Nat → Option Color
  | [r₁, r₀, g₁, g₀, b₁, b₀] => some (ofBytes (16 * r₁ + r₀) (16 * g₁ + g₀) (16 * b₁ + b₀) 255)
  | [a₁, a₀, r₁, r₀, g₁, g₀, b₁, b₀] =>
    some (ofBytes (16 * r₁ + r₀) (16 * g₁ + g₀) (16 * b₁ + b₀) (16 * a₁ + a₀))
  | _ => none

def parse (text : String) : Journaled (Option Color) := do
  match Text.trim text.toList with
  | 's' :: 'c' :: '#' :: rest =>
    Journaled.note (.scRgbColor (String.ofList ('s' :: 'c' :: '#' :: rest)))
    return none
  | '#' :: digits => return (digits.mapM Text.hexDigit?).bind ofDigits?
  | _ => return none

end Xps.Color
