import Xps.Element.Kind
import Xps.Geometry.Matrix
import Xps.Markup.Attributes

/-!
# Nodes

A node is an open or just closed element. It computes a brush or a transform for its parent, which
takes it from the first child of a name, and only once.
-/

namespace Xps

/-- What an element computes for its parent. -/
inductive ComputedData
  | brush (brush : Brush)
  | transform (transform : Transform)

structure Node where
  name : String
  attributes : Attributes := {}
  /-- The closed children, in document order. -/
  children : List Node := []
  data : Option ComputedData := none

namespace Node

def kind (n : Node) : ElementKind := .ofName n.name

def withoutData (n : Node) : Node := { n with data := none }

/-- Takes the data of the first of some nodes that has a property. -/
def takeFirst (p : Node → Bool) : List Node → Option ComputedData × List Node
  | [] => (none, [])
  | n :: nodes =>
    if p n then (n.data, n.withoutData :: nodes)
    else
      let (data, nodes) := takeFirst p nodes
      (data, n :: nodes)

/-- Takes the data of the first child of a name. -/
def takeChildData (n : Node) (name : String) : Option ComputedData × Node :=
  let (data, children) := takeFirst (fun c => c.name == name) n.children
  (data, { n with children })

/-- Takes the data of a child. A transform in place of a brush is lost. -/
def childBrush (n : Node) (name : String) : Option Brush × Node :=
  let (data, n) := n.takeChildData name
  match data with
  | some (.brush brush) => (some brush, n)
  | _ => (none, n)

/-- Takes the data of a child. A brush in place of a transform is lost. -/
def childTransform (n : Node) (name : String) : Option Transform × Node :=
  let (data, n) := n.takeChildData name
  match data with
  | some (.transform transform) => (some transform, n)
  | _ => (none, n)

/-- Takes the transform of a child and reports that it is not there. -/
def requiredChildTransform (n : Node) (name : String) : Journaled (Option Transform × Node) := do
  let (transform, n') := n.childTransform name
  let transform ← noteNone transform (.childMissing n.name name)
  return (transform, n')

/-- Moves the data of the first child into the node. More or fewer children are reported. -/
def forwardSingleChild (n : Node) : Journaled Node := do
  if n.children.length ≠ 1 then
    Journaled.note (.childCount n.name n.children.length)
  let (data, children) := takeFirst (fun _ => true) n.children
  return { n with children, data }

/-- Computes the matrix of a `MatrixTransform` element. -/
def resolveMatrix (n : Node) : Journaled Node := do
  let transform ← match n.attributes.get? "Matrix" with
    | some value => Transform.resolve value
    | none => do
      Journaled.note .matrixMissing
      pure Transform.identity
  return { n with data := some (.transform transform) }

end Node

/-- The open elements, the innermost first. -/
structure ScopeStack where
  nodes : List Node := []

namespace ScopeStack

def push (s : ScopeStack) (name : String) (attributes : Attributes) : ScopeStack :=
  ⟨{ name, attributes } :: s.nodes⟩

/-- Takes the innermost element off, whatever its name. Another name is reported. -/
def pop (s : ScopeStack) (name : String) : Journaled (Option Node × ScopeStack) := do
  match s.nodes with
  | [] =>
    Journaled.note (.endUnopened name)
    return (none, s)
  | node :: nodes =>
    if node.name ≠ name then Journaled.note (.endMismatch node.name name)
    return (some node, ⟨nodes⟩)

/-- Makes a closed element a child of the innermost one. Its own children are dropped. -/
def attach (s : ScopeStack) (node : Node) : ScopeStack :=
  match s.nodes with
  | [] => s
  | parent :: nodes =>
    ⟨{ parent with children := parent.children ++ [{ node with children := [] }] } :: nodes⟩

def top? (s : ScopeStack) : Option Node := s.nodes.head?

def depth (s : ScopeStack) : Nat := s.nodes.length

end ScopeStack

end Xps
