import Xps.Markup.Error

/-!
# Errors

Why a part cannot be read, and why a package or page cannot be opened, rendered or read as text. A
part that is there can always be read, so that there is no error of a disk or file.
-/

namespace Xps

/-- Why a part is not a complete document. -/
inductive DocumentFault
  | invalidCharacter
  | unexpectedMarkup
  | invalidName
  | invalidReference
  | repeatedAttribute (name : String)
  | undeclaredPrefix (name : String)
  | documentType
  | mismatchedTag (expected found : String)
  | unclosed
  | noRoot
  | afterRoot

def DocumentFault.message : DocumentFault → String
  | invalidCharacter => "a character is not allowed"
  | unexpectedMarkup => "unexpected markup"
  | invalidName => "invalid name"
  | invalidReference => "invalid reference"
  | repeatedAttribute name => s!"attribute '{name}' is repeated"
  | undeclaredPrefix name => s!"namespace prefix '{name}' is not declared"
  | documentType => "document types are not supported"
  | mismatchedTag expected found => s!"expected '{expected}' tag, not '{found}'"
  | unclosed => "the root node was opened but never closed"
  | noRoot => "the document does not have a root node"
  | afterRoot => "unexpected content after the root node"

inductive Error
  | partMissing (name : String)
  | notUtf8
  | invalidDocument (fault : DocumentFault)
  | invalidMarkup (fault : MarkupError)
  | noFixedRepresentation
  | invalidPageSize
  | pageOutOfRange (index : Nat)

def Error.message : Error → String
  | partMissing name => "package part '" ++ name ++ "' doesn't exist"
  | notUtf8 => "provided data has not an UTF-8 encoding"
  | invalidDocument fault => "XML data parsing failed cause " ++ fault.message
  | invalidMarkup fault => "page markup parsing failed cause " ++ fault.message
  | noFixedRepresentation => "package doesn't have a fixed representation"
  | invalidPageSize => "page has an invalid size"
  | pageOutOfRange index => s!"page {index} doesn't exist"

end Xps
