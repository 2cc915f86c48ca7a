import Xps.Font.GlyphOutline
import Xps.Font.Names

/-!
# Font databases

A provider that reads the font files itself. It holds only the fonts that were loaded, each under an
id of its own, and a collection of fonts counts as its first usable one. Texts are shaped glyph by
glyph (`Face.shape`).
-/

namespace Xps

/-- A face of a loaded file. -/
structure LoadedFace where
  file : ByteArray
  index : Nat
  family : String

structure FontDatabase where
  /-- Every usable face of every file. -/
  faces : Array LoadedFace := #[]
  /-- The face of each id. -/
  issued : Array Nat := #[]

namespace FontDatabase

/-- A face of a file that has the names it needs. -/
def usableFace? (file : ByteArray) (index : Nat) : Option LoadedFace := do
  let tables ← FontTables.ofFile? file index
  let family ← FontNames.ofTables? tables
  return { file, index, family }

/-- The usable faces of a file, whose first face has to be complete. -/
def usableFaces (file : ByteArray) : List LoadedFace :=
  if (Face.ofFile? file 0).isSome then
    (List.range (FontTables.faceCount file)).filterMap (usableFace? file)
  else []

/-- Adds the faces of a file. The first one gets the next id. -/
def load (d : FontDatabase) (file : ByteArray) : Option FontId × FontDatabase :=
  match usableFaces file with
  | [] => (none, d)
  | faces =>
    (some ⟨d.issued.size⟩,
      { faces := d.faces ++ faces.toArray, issued := d.issued.push d.faces.size })

def loaded? (d : FontDatabase) (id : FontId) : Option LoadedFace := do
  d.faces[(← d.issued[id.index]?)]?

/-- The face of an id, if it is complete. -/
def face? (d : FontDatabase) (id : FontId) : Option Face := do
  let loaded ← d.loaded? id
  Face.ofFile? loaded.file loaded.index

instance : FontProvider FontDatabase where
  load := load
  familyName d id := (d.loaded? id).map LoadedFace.family
  metrics d id := (d.face? id).map Face.metrics
  advance d id c := do
    let face ← d.face? id
    return Single.ofNat (← face.advance? (face.glyph c))
  shape d id text := ((d.face? id).map (·.shape 0 text.toList)).getD []
  outline d id glyph := do GlyphOutline.ofFace? (← d.face? id) glyph.toNat

end FontDatabase

end Xps
