import Xps.Document.Reader
import Xps.Page.Basic

/-!
# Packages

A package names a sequence of documents in its root relationships, and each document names its
pages. A document or page that cannot be loaded is left out and reported.
-/

namespace Xps

structure Package (σ : Type) where
  archive : Archive
  fonts : FontCache σ
  options : Options := {}
  pages : List Page

namespace Package

/-! ## Discovery -/

def rootRelationships : String := "_rels/.rels"

/-- The types of the relationship to the sequence of documents. -/
def fixedRepresentations : List String :=
  ["http://schemas.microsoft.com/xps/2005/06/fixedrepresentation",
    "http://schemas.openxps.org/oxps/v1.0/fixedrepresentation"]

/-- Reads a part that is a complete document. -/
def readDocument (archive : Archive) (part : String) :
    Journaled (Except Error DocumentElement) := do
  return (← archive.readText part).bind fun text => (Document.parse text).mapError .invalidDocument

def isFixedRepresentation (e : DocumentElement) : Bool :=
  e.name == "Relationship" && ((e.get? "Type").map fixedRepresentations.contains).getD false

/-- The target of the first relationship to a sequence of documents. -/
def sequenceOf (relationships : DocumentElement) : Except Error String :=
  match (relationships.children.find? isFixedRepresentation).bind (·.get? "Target") with
  | some target => .ok (PartName.resolve "" target)
  | none => .error .noFixedRepresentation

/-- The parts that the children of some name refer to. -/
def referencesOf (part child : String) (root : DocumentElement) : List String :=
  ((root.children.filter fun e => e.name == child).filterMap (·.get? "Source")).map
    (PartName.resolve part)

def findSequence (archive : Archive) : Journaled (Except Error String) := do
  return (← readDocument archive rootRelationships).bind sequenceOf

def listReferences (archive : Archive) (part child : String) :
    Journaled (Except Error (List String)) := do
  return (← readDocument archive part).map (referencesOf part child)

/-- Loads the page of a name, unless it is broken. -/
def loadPage (archive : Archive) (name : String) : Journaled (List Page) := do
  match ← Page.load archive name with
  | .ok page => return [page]
  | .error e =>
    Journaled.note (.pageSkipped name e)
    return []

/-- Joins what each member of a list is mapped to. -/
def collect {α β : Type} (f : α → Journaled (List β)) : List α → Journaled (List β)
  | [] => return []
  | a :: as => do
    let found ← f a
    let rest ← collect f as
    return found ++ rest

/-- Loads the pages of a document, unless it is broken. -/
def loadDocument (archive : Archive) (name : String) : Journaled (List Page) := do
  match ← listReferences archive name "PageContent" with
  | .ok pages => collect (loadPage archive) pages
  | .error e =>
    Journaled.note (.documentSkipped name e)
    return []

/-- The pages of all documents, in order. -/
def discover (archive : Archive) : Journaled (Except Error (List Page)) := do
  match ← findSequence archive with
  | .error e => return .error e
  | .ok sequence =>
    match ← listReferences archive sequence "DocumentReference" with
    | .error e => return .error e
    | .ok documents =>
      let pages ← collect (loadDocument archive) documents
      Journaled.note (.pagesFound pages.length)
      return .ok pages

variable {σ : Type}

/-- Opens a package with a font provider for its fonts. -/
def load (archive : Archive) (provider : σ) : Journaled (Except Error (Package σ)) := do
  return (← discover archive).map fun pages => { archive, fonts := ⟨provider, []⟩, pages }

/-! ## Operations -/

/-- Replaces the options and drops all images. -/
def setOptions (p : Package σ) (options : Options) : Package σ :=
  { p with options, pages := p.pages.map fun page => { page with image := none } }

def page (p : Package σ) (index : Nat) : Except Error Page :=
  match p.pages[index]? with
  | some page => .ok page
  | none => .error (.pageOutOfRange index)

variable [FontProvider σ]

/-- Renders a page on a canvas of some size. -/
def renderPage (p : Package σ) (index : Nat) (target : PixelSize) :
    Journaled (Except Error Canvas × Package σ) := do
  match p.page index with
  | .error e => return (.error e, p)
  | .ok page =>
    let (canvas, page, fonts) ← page.render p.archive p.fonts p.options target
    let p := { p with fonts, pages := p.pages.set index page }
    match canvas with
    | some canvas => return (.ok canvas, p)
    | none => return (.error .invalidPageSize, p)

/-- The characters of a page. -/
def extractText (p : Package σ) (index : Nat) :
    Journaled (Except Error TextLayout × Package σ) := do
  match p.page index with
  | .error e => return (.error e, p)
  | .ok page =>
    let (layout, fonts) ← page.extractText p.archive p.fonts p.options
    return (layout, { p with fonts })

end Package

end Xps
