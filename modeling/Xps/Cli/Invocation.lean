import Xps.Cli.Argument
import Xps.Geometry.Size
import Xps.Number.Decimal

/-!
# Invocations

What the arguments ask for: help, the version, or a run over one package.
-/

namespace Xps.Cli

/-- How the size of the image follows from the size of the page. -/
inductive Fit
  | page
  | width (pixels : Nat)
  | height (pixels : Nat)
  | box (width height : Nat)
  | zoom (factor : Float32)

/-- The size of the image, unless a side is zero. -/
def Fit.apply? (size : PixelSize) : Fit → Option PixelSize
  | page => some size
  | width pixels => size.scaleToWidth? pixels
  | height pixels => size.scaleToHeight? pixels
  | box w h => (PixelSize.ofSides? w h).bind size.scaleTo?
  | zoom factor => size.scaleBy? factor

/-- A box needs both sides, and the zoom counts only without any side. -/
def Fit.ofOptions : Option Nat → Option Nat → Option Float32 → Fit
  | some w, some h, _ => box w h
  | some w, none, _ => width w
  | none, some h, _ => height h
  | none, none, some z => zoom z
  | none, none, none => page

/-- What is done with the package. -/
inductive Task
  | listPages
  | printText
  | render (image : String)

/-- Which notices are shown. -/
inductive Verbosity
  | silent
  | warnings
  | details

structure Invocation where
  directory : String
  task : Task
  /-- Counted from zero. -/
  pageIndex : Nat
  fit : Fit
  antiAlias : Bool
  listFonts : Bool
  showTimes : Bool
  verbosity : Verbosity
  /-- An image was named, and none is made. -/
  ignoresImage : Bool

inductive Request
  | help
  | version
  | run (invocation : Invocation)

/-- Why the arguments ask for nothing. -/
inductive UsageFault
  | argument (fault : ArgumentFault)
  | imageMissing

def UsageFault.message : UsageFault → String
  | argument fault => fault.message
  | imageMissing => "<out-png> must be set"

/-! ## Values -/

/-- A whole number below a bound, with or without a plus in front. -/
def readNat? (bound : Nat) (s : String) : Option Nat :=
  let digits := match s.toList with
    | '+' :: rest => rest
    | rest => rest
  if digits.isEmpty ∨ digits.any (!·.isDigit) then none
  else
    let n := Decimal.natOfDigits digits
    if n < bound then some n else none

def readPage (s : String) : Except String Nat :=
  match readNat? (2 ^ 64) s with
  | none => .error "invalid page index"
  | some 0 => .error "page indices start from 1"
  | some n => .ok n

def readLength (s : String) : Except String Nat :=
  match readNat? (2 ^ 32) s with
  | none => .error "invalid length"
  | some 0 => .error "LENGTH cannot be zero"
  | some n => .ok n

def readZoom (s : String) : Except String Float32 :=
  match Decimal.read? s.toList with
  | none => .error "invalid zoom factor"
  | some z => if 0 < z then .ok z else .error "ZOOM should be positive"

/-! ## Invocations -/

/-- The task that the flags and the named image ask for. -/
def Task.ofFlags (listPages printText : Bool) (image : Option String) : Except UsageFault Task :=
  if listPages then .ok .listPages
  else if printText then .ok .printText
  else
    match image with
    | some image => .ok (.render image)
    | none => .error .imageMissing

def Verbosity.ofFlags (quiet verbose : Bool) : Verbosity :=
  if quiet then .silent else if verbose then .details else .warnings

/-- Takes an invocation that may still lack an image. -/
def takeInvocation : Taking (Except UsageFault Invocation) := do
  let page ← takeOption ["--page"] readPage
  let width ← takeOption ["-w", "--width"] readLength
  let height ← takeOption ["-h", "--height"] readLength
  let zoom ← takeOption ["-z", "--zoom"] readZoom
  let noAntiAlias ← takeFlag ["--no-anti-alias"]
  let printText ← takeFlag ["--text"]
  let listPages ← takeFlag ["--list-pages"]
  let listFonts ← takeFlag ["--list-fonts"]
  let showTimes ← takeFlag ["--perf"]
  let quiet ← takeFlag ["--quiet"]
  let verbose ← takeFlag ["--verbose"]
  let directory ← takeFree
  let image ← takeFree?
  return (Task.ofFlags listPages printText image).map fun task =>
    { directory, task, listFonts, showTimes,
      pageIndex := page.getD 1 - 1,
      fit := Fit.ofOptions width height zoom,
      antiAlias := !noAntiAlias,
      verbosity := Verbosity.ofFlags quiet verbose,
      ignoresImage := printText && image.isSome }

def takeRequest : Taking (Except UsageFault Request) := do
  if ← takeFlag ["--help"] then return .ok .help
  if ← takeFlag ["-V", "--version"] then return .ok .version
  return (← takeInvocation).map .run

/-- What arguments ask for. -/
def Request.ofArguments (args : List String) : Except UsageFault Request :=
  match takeRequest.run args with
  | .ok (request, _) => request
  | .error fault => .error (.argument fault)

end Xps.Cli
