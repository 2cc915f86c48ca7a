import Xps.Archive.Basic
import Xps.Font.Obfuscation
import Xps.Font.Provider

/-!
# Font caches

The fonts of a document by part name. The first use of a name loads its font, and every later use
has the same result, whether that is a font or a failure. The size does not matter.
-/

namespace Xps

structure FontCache (σ : Type) where
  provider : σ
  /-- What became of each name, in the order of first use. -/
  fonts : List (String × Option FontId) := []

namespace FontCache

variable {σ : Type} [FontProvider σ]

/-- Hands data to the provider and writes that down. -/
def provide (provider : σ) (data : ByteArray) : Journaled (Option FontId × σ) := do
  Journaled.write (.load data)
  return FontProvider.load provider data

/-- Loads data that is not a plain font, with the GUID that its part is named by. -/
def loadObfuscated (provider : σ) (name : String) (data : ByteArray) :
    Journaled (Option FontId × σ) := do
  match Guid.parse? (PartName.baseName name) with
  | none =>
    Journaled.note (.notAFont name)
    return (none, provider)
  | some guid =>
    match guid.deobfuscate? data with
    | none =>
      Journaled.note (.obfuscatedTooShort name)
      return (none, provider)
    | some plain =>
      let (id, provider) ← provide provider plain
      let id ← noteNone id (.obfuscatedRejected name)
      return (id, provider)

/-- Loads the font of a part. Data that is not accepted as it is may be obfuscated. -/
def load (provider : σ) (archive : Archive) (name : String) : Journaled (Option FontId × σ) := do
  match ← archive.read name with
  | .error e =>
    Journaled.note (.fontUnreadable e)
    return (none, provider)
  | .ok data =>
    match ← provide provider data with
    | (some id, provider) => return (some id, provider)
    | (none, provider) => loadObfuscated provider name data

/-- The font of a part in some size. -/
def resolve (c : FontCache σ) (archive : Archive) (name : String) (size : Float32) :
    Journaled (Option Font × FontCache σ) := do
  Journaled.write (.request name size)
  match c.fonts.lookup name with
  | some id => return (id.map (⟨·, size⟩), c)
  | none =>
    let (id, provider) ← load c.provider archive name
    return (id.map (⟨·, size⟩), ⟨provider, c.fonts ++ [(name, id)]⟩)

/-- All names with their families, sorted. -/
def families (c : FontCache σ) : List (String × Option String) :=
  (c.fonts.map fun (name, id) => (name, id.bind (FontProvider.familyName c.provider))).mergeSort
    fun a b => a.1 ≤ b.1

def length (c : FontCache σ) : Nat := c.fonts.length

def isEmpty (c : FontCache σ) : Bool := c.fonts.isEmpty

end FontCache

end Xps
