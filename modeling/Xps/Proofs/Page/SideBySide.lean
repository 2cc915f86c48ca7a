import Xps.Proofs.Page.Follower

/-!
# Followers side by side

Two followers of the same events stay in step if their parts other than the open elements are
related, and each open element of one looks like that of the other (`ScopeStack.Similar`). An
element that computes nothing from its children looks the same whatever they are, so that such
children may be there for one follower and not for the other.

The relation is carried over one event by what the start and the end of an element do to it
(`Follower.SideBySide`), and from there over all events (`agree_run`).
-/

namespace Xps

open Journaled

/-! ## Open elements that look alike -/

/-- An element of the kind computes nothing from its children. -/
def ElementKind.isContainer : ElementKind → Bool
  | fixedPage | canvas | unknown => true
  | _ => false

namespace Node

def withoutChildren (n : Node) : Node := { n with children := [] }

/-- The node as far as its end looks at it. -/
def seen (n : Node) : Node := if n.kind.isContainer then n.withoutChildren else n

theorem name_seen (n : Node) : n.seen.name = n.name := by
  unfold seen
  split <;> rfl

theorem name_eq_of_seen {n m : Node} (h : n.seen = m.seen) : n.name = m.name := by
  rw [← name_seen n, h, name_seen]

theorem kind_eq_of_seen {n m : Node} (h : n.seen = m.seen) : n.kind = m.kind :=
  congrArg ElementKind.ofName (name_eq_of_seen h)

/-- The children of a container are not looked at. -/
theorem seen_children {n : Node} (h : n.kind.isContainer) (children : List Node) :
    seen { n with children } = n.seen := by
  have hsame : (Node.kind { n with children }).isContainer = true := h
  unfold seen
  rw [if_pos h, if_pos hsame]
  rfl

/-- Nodes that look alike are the same, but for the children of a container. -/
theorem eq_or_isContainer_of_seen {n m : Node} (h : n.seen = m.seen) :
    n = m ∨ n.kind.isContainer ∧ n.withoutChildren = m.withoutChildren := by
  have hkind := kind_eq_of_seen h
  unfold seen at h
  rw [← hkind] at h
  by_cases hn : n.kind.isContainer = true
  · rw [if_pos hn, if_pos hn] at h
    exact .inr ⟨hn, h⟩
  · rw [if_neg hn, if_neg hn] at h
    exact .inl h

end Node

namespace ScopeStack

/-- The open elements look alike. -/
def Similar (s t : ScopeStack) : Prop := s.nodes.map Node.seen = t.nodes.map Node.seen

variable {s t : ScopeStack}

theorem Similar.refl (s : ScopeStack) : Similar s s := rfl

theorem Similar.push (h : Similar s t) (name : String) (attributes : Attributes) :
    Similar (s.push name attributes) (t.push name attributes) := by
  unfold Similar at h ⊢
  rw [ScopeStack.push, ScopeStack.push, List.map_cons, List.map_cons, h]

theorem Similar.attach (h : Similar s t) {n m : Node}
    (hnode : n.withoutChildren = m.withoutChildren) : Similar (s.attach n) (t.attach m) := by
  have hchild : ({ n with children := [] } : Node) = { m with children := [] } := hnode
  unfold Similar at h ⊢
  unfold ScopeStack.attach
  cases hs : s.nodes with
  | nil =>
    rw [hs, List.map_nil] at h
    have ht : t.nodes = [] := List.map_eq_nil_iff.1 h.symm
    simp only [ht, hs]
  | cons parent nodes =>
    rw [hs, List.map_cons] at h
    obtain ⟨parent', nodes', ht, hparent, hnodes⟩ := List.map_eq_cons_iff.1 h.symm
    simp only [ht, List.map_cons, hnodes]
    refine congrArg (· :: _) ?_
    rcases Node.eq_or_isContainer_of_seen hparent with rfl | ⟨hcontainer, -⟩
    · rw [hchild]
    · have hcontainer' : parent.kind.isContainer = true := by
        rwa [← Node.kind_eq_of_seen hparent]
      rw [Node.seen_children hcontainer, Node.seen_children hcontainer', hparent]

/-- What a container is given does not show. -/
theorem similar_attach (n : Node) (h : ∀ parent ∈ s.nodes.head?, parent.kind.isContainer) :
    Similar (s.attach n) s := by
  unfold Similar ScopeStack.attach
  cases hs : s.nodes with
  | nil => exact congrArg (List.map Node.seen) hs
  | cons parent nodes =>
    have hparent : parent.kind.isContainer = true := h parent (by rw [hs]; rfl)
    dsimp only
    rw [List.map_cons, List.map_cons, Node.seen_children hparent]

/-- Closing the innermost element reports the same and gives nodes that look alike. -/
theorem Similar.agree_pop {V : Type} {f : Entry → Option V} (h : Similar s t) (name : String) :
    Agree f (fun x y => x.1.map Node.seen = y.1.map Node.seen ∧ Similar x.2 y.2) (s.pop name)
      (t.pop name) := by
  unfold Similar at h
  unfold ScopeStack.pop
  cases hs : s.nodes with
  | nil =>
    rw [hs, List.map_nil] at h
    have ht : t.nodes = [] := List.map_eq_nil_iff.1 h.symm
    have hsimilar : Similar s t := by rw [Similar, hs, ht]
    rw [ht]
    exact .bind_left _ fun _ => .pure ⟨rfl, hsimilar⟩
  | cons n nodes =>
    rw [hs, List.map_cons] at h
    obtain ⟨m, nodes', ht, hnode, hnodes⟩ := List.map_eq_cons_iff.1 h.symm
    rw [ht]
    dsimp only
    rw [Node.name_eq_of_seen hnode]
    have hpopped : (some n).map Node.seen = (some m).map Node.seen ∧ Similar ⟨nodes⟩ ⟨nodes'⟩ :=
      ⟨congrArg some hnode.symm, hnodes.symm⟩
    split
    · exact .bind_left _ fun _ => .pure hpopped
    · exact .pure hpopped

end ScopeStack

/-! ## Followers -/

namespace Follower

variable {α β S V : Type}

/-- What the start and the end of an element do to two followers. The relation is about all but the
open elements. -/
structure SideBySide (v : Follower α S) (w : Follower β S) (f : Entry → Option V)
    (R : α → β → Prop) : Prop where
  withScopes {a : α} {b : β} (h : R a b) (s t : ScopeStack) :
    R (v.withScopes a s) (w.withScopes b t)
  start {a : α} {b : β} (h : R a b) (name : String) (attributes : Attributes) :
    Agree f R (v.step a (.start name attributes)) (w.step b (.start name attributes))
  /-- The node of a container is left as it is. -/
  process {a : α} {b : β} (h : R a b) {n m : Node} (hnode : n.seen = m.seen) :
    Agree f (fun x y => x.1.withoutChildren = y.1.withoutChildren ∧ R x.2 y.2) (v.process a n)
      (w.process b m)

/-- Besides, a start opens just an element, and an end leaves the other open ones as they are. -/
structure KeepsScopes (v : Follower α S) : Prop extends Scoped v where
  scopes_start (a : α) (name : String) (attributes : Attributes) :
    v.scopes (v.step a (.start name attributes)).value = (v.scopes a).push name attributes
  scopes_process (a : α) (n : Node) : v.scopes (v.process a n).value.2 = v.scopes a

/-- Two followers are in step. -/
structure InStep (v : Follower α S) (w : Follower β S) (R : α → β → Prop) (a : α) (b : β) :
    Prop where
  scopes : (v.scopes a).Similar (w.scopes b)
  others : R a b

variable {v : Follower α S} {w : Follower β S} {f : Entry → Option V} {R : α → β → Prop}

/-- Ends that do alike with each node do so with two that look alike, if at a container they only
leave it, whatever its children are. -/
theorem agree_of_seen {process : Node → Journaled (Node × α)}
    {process' : Node → Journaled (Node × β)}
    (leave : String → Journaled α) (leave' : String → Journaled β)
    (hcontainer : ∀ {n : Node}, n.kind.isContainer → process n = (n, ·) <$> leave n.name)
    (hcontainer' : ∀ {n : Node}, n.kind.isContainer → process' n = (n, ·) <$> leave' n.name)
    (hleave : ∀ name, Agree f R (leave name) (leave' name))
    (hsame : ∀ n, Agree f (fun x y => x.1 = y.1 ∧ R x.2 y.2) (process n) (process' n))
    {n m : Node} (hnode : n.seen = m.seen) :
    Agree f (fun x y => x.1.withoutChildren = y.1.withoutChildren ∧ R x.2 y.2) (process n)
      (process' m) := by
  rcases Node.eq_or_isContainer_of_seen hnode with rfl | ⟨hn, hchildren⟩
  · have hprocess := hsame n
    exact ⟨hprocess.view, congrArg Node.withoutChildren hprocess.value.1, hprocess.value.2⟩
  · have hm : m.kind.isContainer = true := by rwa [← Node.kind_eq_of_seen hnode]
    rw [hcontainer hn, hcontainer' hm, Node.name_eq_of_seen hnode, ← bind_pure_comp,
      ← bind_pure_comp]
    exact (hleave m.name).bind fun _ _ h => .pure ⟨hchildren, h⟩

theorem agree_stop (hv : v.KeepsScopes) (hw : w.KeepsScopes) (h : SideBySide v w f R)
    {a : α} {b : β} (hab : InStep v w R a b) (name : String) :
    Agree f (InStep v w R) (v.stop a name) (w.stop b name) := by
  unfold stop
  refine (hab.scopes.agree_pop name).bind ?_
  rintro ⟨found, s⟩ ⟨found', t⟩ ⟨hfound, hscopes⟩
  cases found with
  | none =>
    cases found' with
    | none => exact .pure hab
    | some m => cases hfound
  | some n =>
    cases found' with
    | none => cases hfound
    | some m =>
      have hprocess := h.process (h.withScopes hab.others s t) (Option.some.inj hfound)
      refine hprocess.bind_value (.pure ⟨?_, ?_⟩)
      · rw [hv.scopes_withScopes, hw.scopes_withScopes, hv.scopes_process, hw.scopes_process,
          hv.scopes_withScopes, hw.scopes_withScopes]
        exact hscopes.attach hprocess.value.1
      · exact h.withScopes hprocess.value.2 _ _

theorem agree_step (hv : v.KeepsScopes) (hw : w.KeepsScopes) (h : SideBySide v w f R)
    (a : α) (b : β) (hab : InStep v w R a b) (e : MarkupEvent) :
    Agree f (InStep v w R) (v.step a e) (w.step b e) := by
  cases e with
  | document =>
    rw [hv.document, hw.document]
    exact .pure hab
  | start name attributes =>
    have hstart := h.start hab.others name attributes
    refine ⟨hstart.view, ?_, hstart.value⟩
    rw [hv.scopes_start, hw.scopes_start]
    exact hab.scopes.push name attributes
  | stop name =>
    rw [hv.stop, hw.stop]
    exact agree_stop hv hw h hab name

/-- Followers that are in step show the same and stay in step. -/
theorem agree_run (hv : v.KeepsScopes) (hw : w.KeepsScopes) (h : SideBySide v w f R)
    {a : α} {b : β} (hab : InStep v w R a b) (events : List MarkupEvent) :
    Agree f (InStep v w R) (v.run a events) (w.run b events) :=
  Agree.foldlM (agree_step hv hw h) events hab

/-- What a follower has in common with itself stays so. -/
theorem others_run {R : α → α → Prop} (hv : v.KeepsScopes) (h : SideBySide v v f R) {a : α}
    (ha : R a a) (events : List MarkupEvent) : R (v.run a events).value (v.run a events).value := by
  have hself : InStep v v R a a := ⟨.refl _, ha⟩
  exact (agree_run hv hv h hself events).value.others

end Follower

end Xps
