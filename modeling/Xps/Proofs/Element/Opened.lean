import Xps.Element.Node
import Xps.Markup.Reader

/-!
# Open elements

Which elements are open after some events depends on the events alone: a start opens an element, and
an end closes the innermost one, whatever its name. An open element is known with all that came
before its start.
-/

namespace Xps

structure OpenElement where
  name : String
  attributes : Attributes
  /-- The events before the start. -/
  before : List MarkupEvent

namespace OpenElement

def kind (o : OpenElement) : ElementKind := .ofName o.name

def tag (o : OpenElement) : String × Attributes := (o.name, o.attributes)

end OpenElement

/-- The open elements, the innermost first, from the events in reverse. -/
def openedBefore : List MarkupEvent → List OpenElement
  | [] => []
  | .document :: past => openedBefore past
  | .start name attributes :: past => ⟨name, attributes, past.reverse⟩ :: openedBefore past
  | .stop _ :: past => (openedBefore past).tail

/-- The elements that are open after some events, the innermost first. -/
def opened (events : List MarkupEvent) : List OpenElement := openedBefore events.reverse

@[simp] theorem opened_document (past : List MarkupEvent) :
    opened (past ++ [.document]) = opened past := by
  simp [opened, openedBefore]

@[simp] theorem opened_start (past : List MarkupEvent) (name : String) (attributes : Attributes) :
    opened (past ++ [.start name attributes]) = ⟨name, attributes, past⟩ :: opened past := by
  simp [opened, openedBefore]

@[simp] theorem opened_stop (past : List MarkupEvent) (name : String) :
    opened (past ++ [.stop name]) = (opened past).tail := by
  simp [opened, openedBefore]

theorem mem_openedBefore {past : List MarkupEvent} {o : OpenElement} (h : o ∈ openedBefore past) :
    ∃ later, past.reverse = o.before ++ .start o.name o.attributes :: later := by
  induction past with
  | nil => cases h
  | cons e past ih =>
    -- Later events come behind whatever an element has been open for.
    have hlater (h : o ∈ openedBefore past) :
        ∃ later, (e :: past).reverse = o.before ++ .start o.name o.attributes :: later := by
      obtain ⟨later, hpast⟩ := ih h
      exact ⟨later ++ [e], by simp [hpast]⟩
    cases e with
    | document => exact hlater h
    | stop name => exact hlater (List.mem_of_mem_tail h)
    | start name attributes =>
      rcases List.mem_cons.1 h with rfl | h
      · exact ⟨[], by simp⟩
      · exact hlater h

/-- An open element starts right after the events before it. -/
theorem mem_opened {events : List MarkupEvent} {o : OpenElement} (h : o ∈ opened events) :
    ∃ later, events = o.before ++ .start o.name o.attributes :: later := by
  obtain ⟨later, hevents⟩ := mem_openedBefore h
  exact ⟨later, by rw [← hevents, List.reverse_reverse]⟩

theorem opened_of_openedBefore {past : List MarkupEvent} {outer : List OpenElement}
    {o : OpenElement} (inner : List OpenElement) (h : openedBefore past = inner ++ o :: outer) :
    opened o.before = outer := by
  induction past generalizing inner with
  | nil => simp [openedBefore] at h
  | cons e past ih =>
    cases e with
    | document => exact ih inner h
    | stop name =>
      cases hpast : openedBefore past with
      | nil => simp [openedBefore, hpast] at h
      | cons closed rest =>
        have hrest : rest = inner ++ o :: outer := by simpa [openedBefore, hpast] using h
        exact ih (closed :: inner) (by rw [hpast, hrest]; rfl)
    | start name attributes =>
      rcases List.cons_eq_append_iff.1 h with ⟨-, ho⟩ | ⟨inner, -, hpast⟩
      · obtain ⟨rfl, rfl⟩ := List.cons.inj ho
        simp [opened]
      · exact ih inner hpast

/-- In front of an open element, the elements around it are open. -/
theorem opened_before {events : List MarkupEvent} {o : OpenElement} {outer : List OpenElement}
    (h : opened events = o :: outer) : opened o.before = outer :=
  opened_of_openedBefore [] h

namespace ScopeStack

/-- The tags of the open elements. -/
def tags (s : ScopeStack) : List (String × Attributes) :=
  s.nodes.map fun n => (n.name, n.attributes)

@[simp] theorem tags_attach (s : ScopeStack) (n : Node) : (s.attach n).tags = s.tags := by
  unfold attach tags
  split <;> simp [*]

theorem value_pop_nil {s : ScopeStack} (h : s.nodes = []) (name : String) :
    (s.pop name).value = (none, s) := by
  unfold pop
  rw [h]
  rfl

theorem value_pop_cons {s : ScopeStack} {n : Node} {nodes : List Node} (h : s.nodes = n :: nodes)
    (name : String) : (s.pop name).value = (some n, ⟨nodes⟩) := by
  unfold pop
  rw [h]
  dsimp only
  split <;> rfl

end ScopeStack

end Xps
