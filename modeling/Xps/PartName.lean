/-!
# Part names

A part name is a list of segments with slashes between them, without a slash in front. References
are resolved against the part that holds them and never leave the package.
-/

namespace Xps.PartName

/-- The pieces of a text between slashes. -/
def split (s : List Char) : List (List Char) := s.splitOn '/'

def join (segments : List (List Char)) : List Char := List.intercalate ['/'] segments

/-- A reference without its fragment. -/
def dropFragment (s : List Char) : List Char := s.takeWhile (· != '#')

/-- The segments of the directory that a part lies in. -/
def directory (base : List Char) : List (List Char) :=
  ((split base).filter fun s => !s.isEmpty).dropLast

/-- Follows one segment of a reference. There is nothing above the root. -/
def follow (segments : List (List Char)) (segment : List Char) : List (List Char) :=
  if segment = [] ∨ segment = ['.'] then segments
  else if segment = ['.', '.'] then segments.dropLast
  else segments ++ [segment]

/--
The part that a reference in the part `base` means. A slash in front starts at the root, anything
else at the directory of `base`.
-/
def resolve (base reference : String) : String :=
  let path := dropFragment reference.toList
  let start := if path.head? = some '/' then [] else directory base.toList
  String.ofList (join ((split path).foldl follow start))

/-- The file name of a part up to its first point. -/
def baseName (name : String) : String :=
  String.ofList (((split name.toList).getLastD []).takeWhile (· != '.'))

/-- A name without the slashes in front. -/
def dropRoot (name : String) : String := String.ofList (name.toList.dropWhile (· == '/'))

end Xps.PartName
