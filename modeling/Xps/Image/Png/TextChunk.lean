import Xps.Bytes

/-!
# Textual chunks

Three kinds of chunks hold a text under a keyword: as it is, compressed, or with its language. What
they say does not matter to an image, but a broken one makes the file broken.
-/

namespace Xps.Png.TextChunk

/-- What comes before and after the first zero. -/
def splitZero? (data : List UInt8) : Option (List UInt8 × List UInt8) :=
  match data.dropWhile (· != 0) with
  | _ :: rest => some (data.takeWhile (· != 0), rest)
  | [] => none

def isUtf8 (data : List UInt8) : Bool := ByteArray.validateUTF8 ⟨data.toArray⟩

/-- What follows the keyword of up to 79 bytes. -/
def dropKeyword? (data : List UInt8) : Option (List UInt8) := do
  let (keyword, rest) ← splitZero? data
  if 1 ≤ keyword.length ∧ keyword.length ≤ 79 then some rest else none

/-- A compressed text names the one method that there is. The text is not looked at. -/
def isCompressed (data : List UInt8) : Bool := ((dropKeyword? data).bind List.head?) == some 0

/-- A text in some language, with a translation of its keyword. -/
def isInternational (data : List UInt8) : Bool :=
  (do
    let compressed :: method :: rest ← dropKeyword? data | none
    let (language, rest) ← splitZero? rest
    let (keyword, text) ← splitZero? rest
    let fits :=
      if compressed = 0 then isUtf8 text else compressed == 1 && method == 0
    return fits && language.all (· < 128) && isUtf8 keyword) == some true

/-- A chunk of some kind is a text, or of a kind that holds none. -/
def isValid (kind : String) (data : ByteArray) : Bool :=
  match kind with
  | "tEXt" => (dropKeyword? data.toList).isSome
  | "zTXt" => isCompressed data.toList
  | "iTXt" => isInternational data.toList
  | _ => true

end Xps.Png.TextChunk
