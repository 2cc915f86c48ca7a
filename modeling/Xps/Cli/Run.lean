import Xps.Cli.Console
import Xps.Cli.Invocation
import Xps.Font.Database
import Xps.Package.Basic
import Xps.Text.Quoted

/-!
# Runs

A run does what the arguments ask for and ends with an exit code. The first error ends it, and what
was printed until then stays.
-/

namespace Xps.Cli

/-! ## Texts -/

def version : String := "0.1.0"

def help : String :=
  "resxps is an XPS page rendering application.

USAGE:
  resxps [OPTIONS] <in-dir> <out-png>
  resxps --text [OPTIONS] <in-dir>
  resxps --list-pages <in-dir>

  resxps doc/ page.png
  resxps --page 3 -w 1200 doc/ page.png
  resxps --text doc/

  <in-dir> is an unpacked XPS package, i.e. a directory that
  contains the '_rels/.rels' part.

OPTIONS:
      --help                    Prints this help
  -V, --version                 Prints version

      --page INDEX              Selects the page to process, starting from 1
                                [default: 1]
  -w, --width LENGTH            Sets the width in pixels
  -h, --height LENGTH           Sets the height in pixels
  -z, --zoom FACTOR             Zooms the image by a factor
      --no-anti-alias           Disables anti-aliasing

      --text                    Prints characters of the page with their
                                page-relative bounding boxes instead of rendering
      --list-pages              Prints all pages with their sizes
      --list-fonts              Prints fonts used by the page.
                                Useful for debugging

      --perf                    Prints performance stats
      --quiet                   Disables warnings
      --verbose                 Prints debug messages

ARGS:
  <in-dir>                      Input package directory
  <out-png>                     Output file"

/-- A page of the list of pages, counted from one. -/
def pageLine (page : Page) (index : Nat) : String :=
  s!"{index + 1}: " ++ page.partName ++ " " ++ Shortest.plain page.size.width ++ "x"
    ++ Shortest.plain page.size.height

/-- A character with the sides of its box. -/
def characterLine (p : PlacedChar) : String :=
  " ".intercalate (Text.quote p.character ::
    [p.box.left, p.box.top, p.box.right, p.box.bottom].map (Shortest.fixed 4))

/-- A font with its family. -/
def fontLine (name : String) (family : Option String) : String :=
  match family with
  | some family => name ++ ": '" ++ family ++ "'"
  | none => name ++ ": failed to load"

def noticeLine (n : Notice) : String :=
  (if n.isDetail then "Debug" else "Warning") ++ " (in " ++ n.source ++ "): " ++ n.message

def Verbosity.shows (v : Verbosity) (n : Notice) : Bool :=
  match v with
  | silent => false
  | warnings => !n.isDetail
  | details => true

/-! ## Steps -/

variable {m : Type → Type} [Monad m] [Console m]

/-- A run that an error may end. -/
abbrev Run (m : Type → Type) := ExceptT String m

def print (line : String) : Run m Unit := ExceptT.lift (Console.print line)

/-- Shows the notices of some work. -/
def report {α : Type} (v : Verbosity) (x : Journaled α) : m α := do
  for n in x.notices do
    if v.shows n then Console.complain (noticeLine n)
  return x.value

/-- Does some work, and shows how long it took if that is asked for. -/
def measured {α : Type} (i : Invocation) (name : String) (work : Unit → m α) : Run m α :=
  ExceptT.lift (if i.showTimes then Console.timed name work else work ())

/-- The result of some work whose error ends the run. -/
def checked {α : Type} : Except Error α → Run m α
  | .ok a => return a
  | .error e => throw e.message

def openPackage (i : Invocation) : Run m (Package FontDatabase) := do
  let archive ← ExceptT.lift (Console.archive i.directory)
  let package ← measured i "Package Parsing" fun _ =>
    report i.verbosity (Package.load archive {})
  return (← checked package).setOptions { antiAlias := i.antiAlias }

def listPages (pages : List Page) : Run m Unit :=
  (pages.zipIdx).forM fun (page, index) => print (pageLine page index)

def listFonts (i : Invocation) (fonts : FontCache FontDatabase) : Run m Unit :=
  if i.listFonts then fonts.families.forM fun (name, family) => print (fontLine name family)
  else return

def printText (i : Invocation) (package : Package FontDatabase) : Run m Unit := do
  let (layout, package) ← measured i "Text Extraction" fun _ =>
    report i.verbosity (package.extractText i.pageIndex)
  (← checked layout).entries.forM fun p => print (characterLine p)
  listFonts i package.fonts

def renderImage (i : Invocation) (image : String) (package : Package FontDatabase) :
    Run m Unit := do
  let page ← checked (package.page i.pageIndex)
  let some size := i.fit.apply? page.size.toPixels | throw "target size is zero"
  let (canvas, package) ← measured i "Rendering" fun _ =>
    report i.verbosity (package.renderPage i.pageIndex size)
  let canvas ← checked canvas
  if let some fault ← measured i "Saving" fun _ => Console.save image canvas then throw fault
  listFonts i package.fonts

/-- Does the task of an invocation. A package without pages can only be listed. -/
def Invocation.run (i : Invocation) : Run m Unit := do
  if i.ignoresImage then print "Warning: <out-png> has no effect when --text is set."
  let package ← openPackage i
  match i.task with
  | .listPages => listPages package.pages
  | .printText =>
    if package.pages.isEmpty then throw "the package has no pages"
    printText i package
  | .render image =>
    if package.pages.isEmpty then throw "the package has no pages"
    renderImage i image package

/-- Does what is requested. Wrong arguments are answered with the help. -/
def answer : Except UsageFault Request → Run m Unit
  | .ok .help => print help
  | .ok .version => print version
  | .ok (.run i) => i.run
  | .error fault => do
    print (help ++ "\n")
    throw fault.message

/-- The exit code of a run. -/
def run (args : List String) : m UInt32 := do
  match ← (answer (Request.ofArguments args)).run with
  | .ok () => return 0
  | .error message =>
    Console.complain ("Error: " ++ message ++ ".")
    return 1

end Xps.Cli
