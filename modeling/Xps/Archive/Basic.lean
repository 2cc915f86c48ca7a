import Xps.Journal
import Xps.PartName

/-!
# Archives

An archive holds the parts of a package by name. It may live in memory or be a directory of files.

A part is there and can be read, or it is missing. Parts that are there but cannot be read, on a
disk that fails or in a file that one may not open, are left out.
-/

namespace Xps

structure Archive where
  find? : String → Option ByteArray

namespace Archive

def contains (a : Archive) (name : String) : Bool := (a.find? name).isSome

/-- The whole part, or the error of a part that is not there. -/
def get (a : Archive) (name : String) : Except Error ByteArray :=
  match a.find? name with
  | some data => .ok data
  | none => .error (.partMissing name)

/-- Looks a part up and writes that down. -/
def read (a : Archive) (name : String) : Journaled (Except Error ByteArray) := do
  Journaled.write (.lookUp name)
  return a.get name

/-- Reads a part as text. -/
def readText (a : Archive) (name : String) : Journaled (Except Error String) := do
  let data ← a.read name
  return data.bind fun data =>
    match String.fromUTF8? data with
    | some text => .ok text
    | none => .error .notUtf8

end Archive

/-- Parts in memory, the latest first. Slashes in front of a name do not count. -/
structure MemoryArchive where
  parts : List (String × ByteArray) := []

namespace MemoryArchive

def insert (a : MemoryArchive) (name : String) (data : ByteArray) : MemoryArchive :=
  ⟨(PartName.dropRoot name, data) :: a.parts⟩

def find? (a : MemoryArchive) (name : String) : Option ByteArray :=
  a.parts.lookup (PartName.dropRoot name)

def toArchive (a : MemoryArchive) : Archive := ⟨a.find?⟩

/-- The latest part of a name takes the place of the others. -/
theorem find?_insert (a : MemoryArchive) (name key : String) (data : ByteArray) :
    (a.insert name data).find? key =
      if PartName.dropRoot key = PartName.dropRoot name then some data else a.find? key := by
  unfold insert find?
  by_cases h : PartName.dropRoot key = PartName.dropRoot name
  · simp [h]
  · simp [h, List.lookup_cons, beq_eq_false_iff_ne.2 h]

end MemoryArchive

end Xps
