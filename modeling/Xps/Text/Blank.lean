/-!
# Blank characters

The characters of the Unicode property `White_Space`, the trimming of texts by it, and the few of
them that markup knows.
-/

namespace Xps.Text

/-- The ranges of `White_Space`, both ends included. -/
def blankRanges : List (Nat × Nat) :=
  [(0x9, 0xd), (0x20, 0x20), (0x85, 0x85), (0xa0, 0xa0), (0x1680, 0x1680), (0x2000, 0x200a),
    (0x2028, 0x2029), (0x202f, 0x202f), (0x205f, 0x205f), (0x3000, 0x3000)]

def isBlank (c : Char) : Bool :=
  blankRanges.any fun (first, last) => first ≤ c.toNat && c.toNat ≤ last

/-- The blank characters that separate the words of markup. -/
def isSpace (c : Char) : Bool := c == ' ' || c == '\t' || c == '\n' || c == '\r'

/-- Drops the blank characters in front. -/
def trimStart (s : List Char) : List Char := s.dropWhile isBlank

/-- Drops the blank characters in front and at the end. -/
def trim (s : List Char) : List Char :=
  ((trimStart s).reverse.dropWhile isBlank).reverse

/-- A text that begins with a brace refers to a resource defined elsewhere. -/
def isReference (s : String) : Bool := (trimStart s.toList).head? == some '\x7b'

end Xps.Text
