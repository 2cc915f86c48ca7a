import Xps.Number.Single
import Xps.Text.Blank

/-!
# Decimal notation

Reads a number from a text: an optional sign, then `inf`, `infinity` or `nan` in either case, or
digits with an optional point and exponent. The result is the number nearest to what is written.
-/

namespace Xps.Decimal

/-- The whole number that a list of digits writes. -/
def natOfDigits (cs : List Char) : Nat :=
  cs.foldl (fun n c => 10 * n + (c.toNat - '0'.toNat)) 0

/-- Splits a sign off. The flag tells a minus. -/
def splitSign : List Char → Bool × List Char
  | '-' :: rest => (true, rest)
  | '+' :: rest => (false, rest)
  | cs => (false, cs)

/-- The names of the numbers that digits cannot write. -/
def named? (cs : List Char) : Option Float32 :=
  let name := String.ofList (cs.map Char.toLower)
  if name = "inf" ∨ name = "infinity" then some (.ofBits 0x7f800000)
  else if name = "nan" then some (.ofBits 0x7fc00000)
  else none

/-- Reads what follows the digits: nothing, or an exponent. -/
def exponent? : List Char → Option Int
  | [] => some 0
  | c :: rest =>
    if c = 'e' ∨ c = 'E' then
      let (negative, digits) := splitSign rest
      if digits.isEmpty ∨ !digits.all Char.isDigit then none
      else
        let n : Int := natOfDigits digits
        some (if negative then -n else n)
    else none

/-- Splits the digits after a point off, if there is one. -/
def splitFraction : List Char → List Char × List Char
  | '.' :: rest => (rest.takeWhile Char.isDigit, rest.dropWhile Char.isDigit)
  | cs => ([], cs)

/-- The number nearest to `mantissa * 10 ^ exponent`. -/
def nearest (mantissa : Nat) (exponent : Int) : Float32 :=
  .ofScientific mantissa (exponent < 0) exponent.natAbs

/-- Reads digits with an optional point, at least one digit on either side of it. The result is a
number and the power of ten to multiply it by. -/
def scientific? (cs : List Char) : Option (Nat × Int) :=
  let whole := cs.takeWhile Char.isDigit
  let (decimals, rest) := splitFraction (cs.dropWhile Char.isDigit)
  if whole.isEmpty ∧ decimals.isEmpty then none
  else (exponent? rest).map fun e => (natOfDigits (whole ++ decimals), e - decimals.length)

def unsigned? (cs : List Char) : Option Float32 :=
  (scientific? cs).map fun (mantissa, exponent) => nearest mantissa exponent

/-- Reads a number that fills the whole text. -/
def read? (cs : List Char) : Option Float32 :=
  let (negative, body) := splitSign cs
  (named? body <|> unsigned? body).map fun x => if negative then -x else x

/-- Reads a finite number that fills the whole text. -/
def readFinite? (cs : List Char) : Option Float32 :=
  (read? cs).filter Float32.isFinite

/-- Reads a finite number with blanks around it. -/
def readTrimmed? (s : String) : Option Float32 :=
  readFinite? (Text.trim s.toList)

end Xps.Decimal
