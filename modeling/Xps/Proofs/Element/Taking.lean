import Xps.Proofs.Element.Closed
import Xps.Proofs.Journal.View

/-!
# Taking data out of children

A node takes what its children computed by several calls with different rules: the first child of a
name or the first one of all, and data of any kind or of one kind only. All of them share the places
where the children keep their data.

One call changes nothing but the data of the child that it picks (`Taking.Touches`). So whatever the
calls are and in whichever order they come, the data of each child leaves it at most once and does
not come back (`Taking.takesOnce`).
-/

namespace Xps

/-- A call on a node that takes the data of a child. -/
inductive Taking
  | data (name : String)
  | brush (name : String)
  | transform (name : String)
  /-- A transform whose absence is reported. -/
  | required (name : String)
  /-- The data of a single child is given to the node itself. -/
  | forward

def ComputedData.isBrush : ComputedData → Bool
  | brush _ => true
  | transform _ => false

def ComputedData.isTransform : ComputedData → Bool
  | brush _ => false
  | transform _ => true

/-- The data of the child at a place. -/
def Node.dataAt (n : Node) (i : Nat) : Option ComputedData := n.children[i]?.bind Node.data

namespace Taking

/-- What a call gives, and the node behind it. -/
def call (n : Node) : Taking → Journaled (Option ComputedData × Node)
  | data name => return n.takeChildData name
  | brush name =>
    let (found, n) := n.childBrush name
    return (found.map .brush, n)
  | transform name =>
    let (found, n) := n.childTransform name
    return (found.map .transform, n)
  | required name => do
    let (found, n) ← n.requiredChildTransform name
    return (found.map .transform, n)
  | forward => do
    let n ← n.forwardSingleChild
    return (n.data, n)

/-- The node behind some calls. -/
def after (n : Node) (calls : List Taking) : Node :=
  calls.foldl (fun n t => (t.call n).value.2) n

/-! ## What a call is to do -/

/-- The children that a call may take from. -/
def picks : Taking → Node → Bool
  | data name | brush name | transform name | required name => fun c => c.name == name
  | forward => fun _ => true

/-- The place of the first such child. -/
def target (t : Taking) (n : Node) : Option Nat := n.children.findIdx? t.picks

/-- The data that a call gives. Data of another kind is lost. -/
def accepts : Taking → ComputedData → Bool
  | data _ | forward => fun _ => true
  | brush _ => ComputedData.isBrush
  | transform _ | required _ => ComputedData.isTransform

/-- A call gives the data at its target, and changes nothing of the children but that. -/
structure Touches (t : Taking) (n : Node) : Prop where
  given : (t.call n).value.1 = ((t.target n).bind n.dataAt).filter t.accepts
  left (i : Nat) : (t.call n).value.2.children[i]? =
    if t.target n = some i then n.children[i]?.map Node.withoutData else n.children[i]?

/-- The places of the children that have data in one state of a node and none in another. -/
def emptied (n n' : Node) : List Nat :=
  (List.range n.children.length).filter fun i => (n.dataAt i).isSome && (n'.dataAt i).isNone

/-- The places that data leaves in the course of some calls, in order. -/
def leaving (n : Node) : List Taking → List Nat
  | [] => []
  | t :: calls => emptied n (t.call n).value.2 ++ leaving (t.call n).value.2 calls

/-- What some calls on a node take, and what they leave to the calls behind them. -/
structure TakesOnce (n : Node) (calls : List Taking) : Prop where
  /-- No data leaves a child twice. -/
  nodup : (leaving n calls).Nodup
  /-- What has not left is still there, and what has left does not come back. -/
  dataAt (i : Nat) : (after n calls).dataAt i = if i ∈ leaving n calls then none else n.dataAt i
  /-- The children are as many as before, in the same order, and the same except for their data. -/
  bare : (after n calls).children.map Node.withoutData = n.children.map Node.withoutData
  /-- Calls by name always go to the first child of the name, and forwarding to the first child. -/
  target (t : Taking) : t.target (after n calls) = t.target n
  touches (t : Taking) : t.Touches (after n calls)

/-! ## One call -/

theorem getElem?_takeFirst (p : Node → Bool) (nodes : List Node) (i : Nat) :
    (Node.takeFirst p nodes).2[i]? =
      if nodes.findIdx? p = some i then nodes[i]?.map Node.withoutData else nodes[i]? := by
  induction nodes generalizing i with
  | nil => simp [Node.takeFirst]
  | cons n nodes ih =>
    unfold Node.takeFirst
    by_cases h : p n
    · cases i <;> simp [List.findIdx?_cons, h]
    · cases i <;> simp [List.findIdx?_cons, h, ih]

theorem find?_bind_data (n : Node) (p : Node → Bool) :
    (n.children.find? p).bind Node.data = (n.children.findIdx? p).bind n.dataAt := by
  unfold Node.dataAt
  generalize n.children = nodes
  induction nodes with
  | nil => rfl
  | cons c nodes ih =>
    by_cases h : p c
    · simp [List.findIdx?_cons, h]
    · rw [List.find?_cons_of_neg h, List.findIdx?_cons, if_neg h, ih, Option.bind_map]
      rfl

theorem value_forwardSingleChild (n : Node) :
    n.forwardSingleChild.value =
      { n with
        children := (Node.takeFirst (fun _ => true) n.children).2
        data := (Node.takeFirst (fun _ => true) n.children).1 } := by
  unfold Node.forwardSingleChild
  by_cases h : n.children.length = 1 <;> simp [h]

theorem map_brushOf (children : List Closed) (name : String) :
    (Closed.brushOf children name).map .brush =
      (Closed.dataOf children name).filter ComputedData.isBrush := by
  unfold Closed.brushOf
  rcases Closed.dataOf children name with _ | (_ | _) <;> rfl

theorem map_transformOf (children : List Closed) (name : String) :
    (Closed.transformOf children name).map .transform =
      (Closed.dataOf children name).filter ComputedData.isTransform := by
  unfold Closed.transformOf
  rcases Closed.dataOf children name with _ | (_ | _) <;> rfl

theorem filter_always (x : Option ComputedData) : x.filter (fun _ => true) = x := by
  cases x <;> rfl

theorem takes_transform (name : String) (n : Node) :
    ((transform name).call n).value.1 =
        ((n.children.find? fun c => c.name == name).bind Node.data).filter
          ComputedData.isTransform ∧
      ((transform name).call n).value.2.children =
        (Node.takeFirst (fun c => c.name == name) n.children).2 := by
  have hcall : ((transform name).call n).value =
      ((n.childTransform name).1.map .transform, (n.childTransform name).2) := rfl
  rw [hcall, Node.childTransform_eq]
  refine ⟨?_, rfl⟩
  rw [map_transformOf, Node.dataOf_closed]

/-- What a call gives and what it leaves, from the first child that it picks. -/
theorem call_takes (t : Taking) (n : Node) :
    (t.call n).value.1 = ((n.children.find? t.picks).bind Node.data).filter t.accepts ∧
      (t.call n).value.2.children = (Node.takeFirst t.picks n.children).2 := by
  cases t with
  | data name =>
    refine ⟨?_, rfl⟩
    rw [accepts, filter_always]
    exact Node.takeFirst_fst _ _
  | brush name =>
    have hcall : ((brush name).call n).value =
        ((n.childBrush name).1.map .brush, (n.childBrush name).2) := rfl
    rw [hcall, Node.childBrush_eq]
    refine ⟨?_, rfl⟩
    rw [map_brushOf, Node.dataOf_closed]
    rfl
  | transform name => exact takes_transform name n
  | required name =>
    have hcall : ((required name).call n).value = ((transform name).call n).value := by
      simp [call, Node.requiredChildTransform]
    rw [hcall]
    exact takes_transform name n
  | forward =>
    have hcall : (forward.call n).value =
        (n.forwardSingleChild.value.data, n.forwardSingleChild.value) := rfl
    rw [hcall, value_forwardSingleChild]
    refine ⟨?_, rfl⟩
    rw [accepts, filter_always]
    exact Node.takeFirst_fst _ _

theorem touches (t : Taking) (n : Node) : t.Touches n := by
  obtain ⟨hgiven, hleft⟩ := call_takes t n
  refine ⟨?_, fun i => ?_⟩
  · rw [hgiven, find?_bind_data]
    rfl
  · rw [hleft, getElem?_takeFirst]
    rfl

theorem bare_call (t : Taking) (n : Node) :
    (t.call n).value.2.children.map Node.withoutData = n.children.map Node.withoutData := by
  refine List.ext_getElem? fun i => ?_
  rw [List.getElem?_map, List.getElem?_map, (touches t n).left]
  split
  · cases n.children[i]? <;> rfl
  · rfl

theorem mem_emptied {n n' : Node} {i : Nat} :
    i ∈ emptied n n' ↔ (n.dataAt i).isSome ∧ n'.dataAt i = none := by
  have hlength (h : (n.dataAt i).isSome) : i < n.children.length := by
    refine Nat.lt_of_not_le fun hi => ?_
    rw [Node.dataAt, List.getElem?_eq_none hi] at h
    cases h
  simp only [emptied, List.mem_filter, List.mem_range, Bool.and_eq_true, Option.isNone_iff_eq_none]
  exact ⟨And.right, fun h => ⟨hlength h.1, h⟩⟩

/-- The data at a place leaves it or stays there. -/
theorem dataAt_call (t : Taking) (n : Node) (i : Nat) :
    (t.call n).value.2.dataAt i =
      if i ∈ emptied n (t.call n).value.2 then none else n.dataAt i := by
  have hstays : (t.call n).value.2.dataAt i = none ∨ (t.call n).value.2.dataAt i = n.dataAt i := by
    unfold Node.dataAt
    rw [(touches t n).left]
    split
    · cases n.children[i]? <;> exact .inl rfl
    · exact .inr rfl
  by_cases h : i ∈ emptied n (t.call n).value.2
  · rw [if_pos h]
    exact (mem_emptied.1 h).2
  · rw [if_neg h]
    rcases hstays with hnone | hsame
    · cases hdata : n.dataAt i with
      | none => exact hnone
      | some d => exact absurd (mem_emptied.2 ⟨by rw [hdata]; rfl, hnone⟩) h
    · exact hsame

theorem target_call (t u : Taking) (n : Node) : u.target (t.call n).value.2 = u.target n := by
  have hbare (n : Node) : u.target n = (n.children.map Node.withoutData).findIdx? u.picks := by
    rw [List.findIdx?_map]
    cases u <;> rfl
  rw [hbare, bare_call, ← hbare]

/-! ## Any number of calls -/

variable {n : Node} {calls : List Taking} {i : Nat}

theorem isSome_of_mem_leaving (h : i ∈ leaving n calls) : (n.dataAt i).isSome := by
  induction calls generalizing n with
  | nil => cases h
  | cons t calls ih =>
    rcases List.mem_append.1 h with hnow | hlater
    · exact (mem_emptied.1 hnow).1
    · have hdata := ih hlater
      rw [dataAt_call] at hdata
      split at hdata
      · cases hdata
      · exact hdata

/-- What has left a place is no longer there to leave it again. -/
theorem nodup_leaving (n : Node) (calls : List Taking) : (leaving n calls).Nodup := by
  induction calls generalizing n with
  | nil => exact .nil
  | cons t calls ih =>
    refine List.nodup_append.2 ⟨List.nodup_range.filter _, ih _, fun i hnow j hlater hij => ?_⟩
    subst hij
    have hdata := isSome_of_mem_leaving hlater
    rw [(mem_emptied.1 hnow).2] at hdata
    cases hdata

theorem dataAt_after (n : Node) (calls : List Taking) (i : Nat) :
    (after n calls).dataAt i = if i ∈ leaving n calls then none else n.dataAt i := by
  induction calls generalizing n with
  | nil => rfl
  | cons t calls ih =>
    have hafter : after n (t :: calls) = after (t.call n).value.2 calls := rfl
    rw [hafter, ih, dataAt_call]
    simp only [leaving, List.mem_append]
    by_cases hlater : i ∈ leaving (t.call n).value.2 calls <;> simp [hlater]

theorem bare_after (n : Node) (calls : List Taking) :
    (after n calls).children.map Node.withoutData = n.children.map Node.withoutData := by
  induction calls generalizing n with
  | nil => rfl
  | cons t calls ih => exact (ih _).trans (bare_call t n)

theorem target_after (u : Taking) (n : Node) (calls : List Taking) :
    u.target (after n calls) = u.target n := by
  induction calls generalizing n with
  | nil => rfl
  | cons t calls ih => exact (ih _).trans (target_call t u n)

theorem takesOnce (n : Node) (calls : List Taking) : TakesOnce n calls where
  nodup := nodup_leaving n calls
  dataAt := dataAt_after n calls
  bare := bare_after n calls
  target t := target_after t n calls
  touches t := touches t (after n calls)

end Taking

end Xps
