import Xps.Geometry.Rect

/-!
# Text layouts

The characters of a page in markup order. Each one has a box in page-relative coordinates: `0, 0` is
the top left corner of the page and `1, 1` is the bottom right one.
-/

namespace Xps

structure PlacedChar where
  character : Char
  box : Rect

structure TextLayout where
  entries : List PlacedChar := []

namespace TextLayout

def push (l : TextLayout) (character : Char) (box : Rect) : TextLayout :=
  ⟨l.entries ++ [⟨character, box⟩]⟩

def length (l : TextLayout) : Nat := l.entries.length

def isEmpty (l : TextLayout) : Bool := l.entries.isEmpty

def text (l : TextLayout) : String := String.ofList (l.entries.map PlacedChar.character)

end TextLayout

end Xps
