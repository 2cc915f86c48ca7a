import Xps.Journal

/-!
# Matrix values

A transform is written as six numbers with commas between them. Anything else is the identity, and
so is a reference to a resource.
-/

namespace Xps.Transform

def ofList? : List Float32 → Option Transform
  | [a, b, c, d, e, f] => some ⟨a, b, c, d, e, f⟩
  | _ => none

/-- Splits a text at its commas. -/
def splitCommas (s : String) : List (List Char) := s.toList.splitOn ','

/-- Six finite numbers, blanks around them. -/
def ofText? (text : String) : Option Transform := do
  let values ← (splitCommas text).mapM fun part => Decimal.readFinite? (Text.trim part)
  ofList? values

def parse (text : String) : Journaled Transform := do
  match ofText? text with
  | some t => return t
  | none =>
    Journaled.note (.invalidMatrix text)
    return identity

/-- Reads the value of an attribute, which may refer to a resource. -/
def resolve (text : String) : Journaled Transform := do
  if Text.isReference text then
    Journaled.note (.transformReference text)
    return identity
  else parse text

end Xps.Transform
