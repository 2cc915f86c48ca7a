import Xps.Element.Node

/-!
# Closed elements

An element around others sees of each closed child its tag and what it computed, and nothing of what
lies deeper. Taking data out of a child (`Node.takeChildData`) gives what the first child of the name
computed, and later takings by other names do not notice it.
-/

namespace Xps

/-- A closed element as its parent sees it. -/
structure Closed where
  name : String
  attributes : Attributes
  data : Option ComputedData

namespace Closed

/-- What the first element of a name computed. -/
def dataOf (children : List Closed) (name : String) : Option ComputedData :=
  (children.find? fun c => c.name == name).bind Closed.data

/-- The brush that the first element of a name computed. -/
def brushOf (children : List Closed) (name : String) : Option Brush :=
  match dataOf children name with
  | some (.brush brush) => some brush
  | _ => none

/-- The transform that the first element of a name computed. -/
def transformOf (children : List Closed) (name : String) : Option Transform :=
  match dataOf children name with
  | some (.transform transform) => some transform
  | _ => none

def toNode (c : Closed) : Node := { name := c.name, attributes := c.attributes, data := c.data }

end Closed

namespace Node

def toClosed (n : Node) : Closed := ⟨n.name, n.attributes, n.data⟩

/-- The children of a node as it sees them. -/
def closed (n : Node) : List Closed := n.children.map toClosed

theorem closed_toNode (name : String) (attributes : Attributes) (closed : List Closed) :
    Node.closed { name, attributes, children := closed.map Closed.toNode } = closed := by
  show (closed.map Closed.toNode).map toClosed = closed
  rw [List.map_map]
  exact List.map_id closed

theorem takeFirst_fst (p : Node → Bool) (nodes : List Node) :
    (takeFirst p nodes).1 = (nodes.find? p).bind Node.data := by
  induction nodes with
  | nil => rfl
  | cons n nodes ih =>
    unfold takeFirst
    by_cases h : p n = true
    · rw [if_pos h, List.find?_cons_of_pos h]
      rfl
    · rw [if_neg h, List.find?_cons_of_neg h]
      exact ih

/-- Taking from the nodes of one property does not change which node is the first of another. -/
theorem find?_takeFirst {p q : Node → Bool} (h : ∀ n, p n → ¬ q n ∧ ¬ q n.withoutData)
    (nodes : List Node) : (takeFirst p nodes).2.find? q = nodes.find? q := by
  induction nodes with
  | nil => rfl
  | cons n nodes ih =>
    unfold takeFirst
    by_cases hp : p n = true
    · rw [if_pos hp, List.find?_cons_of_neg (h n hp).1, List.find?_cons_of_neg (h n hp).2]
    · rw [if_neg hp]
      by_cases hq : q n = true
      · rw [List.find?_cons_of_pos hq, List.find?_cons_of_pos hq]
      · rw [List.find?_cons_of_neg hq, List.find?_cons_of_neg hq]
        exact ih

theorem dataOf_closed (n : Node) (name : String) :
    Closed.dataOf n.closed name = (n.children.find? fun c => c.name == name).bind Node.data := by
  unfold Closed.dataOf closed
  rw [List.find?_map, Option.bind_map]
  rfl

theorem takeChildData_fst (n : Node) (name : String) :
    (n.takeChildData name).1 = Closed.dataOf n.closed name := by
  rw [dataOf_closed]
  exact takeFirst_fst _ _

theorem dataOf_takeChildData {n : Node} {name other : String} (h : name ≠ other) :
    Closed.dataOf (n.takeChildData name).2.closed other = Closed.dataOf n.closed other := by
  rw [dataOf_closed, dataOf_closed]
  refine congrArg (·.bind Node.data) (find?_takeFirst (fun c hc => ?_) n.children)
  have hne : c.name ≠ other := (eq_of_beq hc) ▸ h
  exact ⟨mt eq_of_beq hne, mt eq_of_beq hne⟩

theorem childBrush_eq (n : Node) (name : String) :
    n.childBrush name = (Closed.brushOf n.closed name, (n.takeChildData name).2) := by
  unfold childBrush Closed.brushOf
  rw [← takeChildData_fst]
  rcases n.takeChildData name with ⟨_ | (_ | _), _⟩ <;> rfl

theorem childTransform_eq (n : Node) (name : String) :
    n.childTransform name = (Closed.transformOf n.closed name, (n.takeChildData name).2) := by
  unfold childTransform Closed.transformOf
  rw [← takeChildData_fst]
  rcases n.takeChildData name with ⟨_ | (_ | _), _⟩ <;> rfl

end Node

end Xps
