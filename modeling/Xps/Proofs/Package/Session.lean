import Xps.Package.Basic

/-!
# Sessions

What can be done with a package: it is opened, and then options are set, pages rendered and their
texts read, in any order and any number of times.
-/

namespace Xps.Package

inductive Operation
  | setOptions (options : Options)
  | render (index : Nat) (target : PixelSize)
  | extract (index : Nat)

/-- The options that an operation sets. -/
def Operation.options? : Operation → Option Options
  | .setOptions options => some options
  | _ => none

/-- The latest change of options alone. -/
def latestChange (operations : List Operation) : List Operation :=
  (operations.filterMap Operation.options?).getLast?.toList.map .setOptions

inductive Answer
  | done
  | image (result : Except Error Canvas)
  | text (result : Except Error TextLayout)

variable {σ : Type} [FontProvider σ]

def perform (p : Package σ) : Operation → Journaled (Answer × Package σ)
  | .setOptions options => return (.done, p.setOptions options)
  | .render index target => do
    let (result, p) ← p.renderPage index target
    return (.image result, p)
  | .extract index => do
    let (result, p) ← p.extractText index
    return (.text result, p)

def performAll (p : Package σ) : List Operation → Journaled (List Answer × Package σ)
  | [] => return ([], p)
  | operation :: operations => do
    let (answer, p) ← p.perform operation
    let (answers, p) ← p.performAll operations
    return (answer :: answers, p)

/-- Opens a package and performs operations on it. -/
def session (archive : Archive) (provider : σ) (operations : List Operation) :
    Journaled (Except Error (List Answer)) := do
  match ← load archive provider with
  | .error e => return .error e
  | .ok p =>
    let (answers, _) ← p.performAll operations
    return .ok answers

/-- What an operation answers on a package that other operations came before on. -/
def answerAfter (archive : Archive) (provider : σ) (before : List Operation)
    (operation : Operation) : Except Error Answer :=
  (load archive provider).value.map fun p =>
    ((p.performAll before).value.2.perform operation).value.1

end Xps.Package
