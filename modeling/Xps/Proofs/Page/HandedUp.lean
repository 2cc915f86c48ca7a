import Xps.Proofs.Element.Taking
import Xps.Proofs.Page.SavedStates

/-!
# Handing data up

At its end an element takes data from its own closed children, and is then handed to the element
around it, without the children. Nothing else changes of what is open (`ScopeStack.HandsUp`). So
whatever events a painter or a collector follows, an open element has computed nothing yet, and the
closed elements in it have lost their children (`ScopeStack.Tidy`).
-/

namespace Xps

/-! ## Nodes at their end -/

namespace Taking

/-- What is left of the children depends on the children alone. -/
theorem children_after (n : Node) (calls : List Taking) :
    (after n calls).children =
      calls.foldl (fun children t => (Node.takeFirst t.picks children).2) n.children := by
  induction calls generalizing n with
  | nil => rfl
  | cons t calls ih =>
    rw [List.foldl_cons, ← (call_takes t n).2]
    exact ih _

end Taking

namespace Node

/-- A node after some calls that took from its children. It may have computed data meanwhile. -/
structure Serves (n n' : Node) : Prop where
  name : n'.name = n.name
  attributes : n'.attributes = n.attributes
  children : ∃ calls, n'.children = (Taking.after n calls).children

theorem Serves.of_data (n : Node) (data : Option ComputedData) : n.Serves { n with data } :=
  ⟨rfl, rfl, [], rfl⟩

theorem Serves.refl (n : Node) : n.Serves n := ⟨rfl, rfl, [], rfl⟩

theorem Serves.trans {n m k : Node} (h : n.Serves m) (h' : m.Serves k) : n.Serves k := by
  obtain ⟨calls, hm⟩ := h.children
  obtain ⟨calls', hk⟩ := h'.children
  refine ⟨h'.name.trans h.name, h'.attributes.trans h.attributes, calls ++ calls', ?_⟩
  rw [hk, Taking.children_after, hm, Taking.children_after, Taking.children_after,
    List.foldl_append]

theorem serves_takeChildData (n : Node) (name : String) : n.Serves (n.takeChildData name).2 :=
  ⟨rfl, rfl, [.data name], rfl⟩

theorem serves_requiredChildTransform (n : Node) (name : String) :
    n.Serves (n.requiredChildTransform name).value.2 := by
  unfold requiredChildTransform
  rw [childTransform_eq]
  exact n.serves_takeChildData name

theorem serves_forwardSingleChild (n : Node) : n.Serves n.forwardSingleChild.value := by
  refine ⟨?_, ?_, [.forward], rfl⟩ <;> rw [Taking.value_forwardSingleChild]

theorem serves_resolveMatrix (n : Node) : n.Serves n.resolveMatrix.value := by
  unfold resolveMatrix
  split <;> exact ⟨rfl, rfl, [], rfl⟩

end Node

namespace Painter

theorem serves_brush (n : Node) (name property : String) :
    n.Serves (brush n name property).value.2 := by
  rw [brush_eq]
  unfold afterBrush
  show n.Serves (if _ then n else _)
  split
  · exact .refl n
  · exact n.serves_takeChildData property

theorem serves_paintPath (state : PaintState) (context : PageContext) (n : Node) :
    n.Serves (paintPath state context n).value := by
  unfold paintPath
  simp only [Journaled.value_bind]
  split
  · exact .refl n
  · split
    · exact .refl n
    · have hbrushes :=
        (serves_brush n "Fill" "Path.Fill").trans (serves_brush _ "Stroke" "Path.Stroke")
      simp only [Journaled.value_bind]
      split <;> split <;> exact hbrushes

variable {σ : Type} [FontProvider σ]

theorem serves_paintText (state : PaintState) (context : PageContext) (provider : σ) (font : Font)
    (n : Node) : n.Serves (paintText state context provider font n).value := by
  have hbrush := serves_brush n "Fill" "Glyphs.Fill"
  unfold paintText
  simp only [Journaled.value_bind]
  split
  · exact hbrush
  · simp only [Journaled.value_bind]
    split
    · exact hbrush
    · simp only [Journaled.value_bind]
      split <;> exact hbrush

theorem serves_paintGlyphs (state : PaintState) (context : PageContext) (fonts : FontCache σ)
    (n : Node) : n.Serves (paintGlyphs state context fonts n).value.1 := by
  unfold paintGlyphs
  rw [Journaled.value_bind]
  split
  · exact .refl n
  · exact serves_paintText _ _ _ _ n

theorem serves_process (context : PageContext) (p : Painter σ) (n : Node) :
    n.Serves (process context p n).value.1 := by
  unfold process
  cases n.kind
  case canvas => exact .refl n
  case path => exact serves_paintPath _ _ n
  case glyphs => exact serves_paintGlyphs _ _ _ n
  case canvasRenderTransform | pathRenderTransform | glyphsRenderTransform =>
    have htransform := n.serves_requiredChildTransform "MatrixTransform"
    simp only [Journaled.value_bind]
    split <;> rename_i heq <;> rw [heq] at htransform <;> exact htransform
  case pathFill | pathStroke | glyphsFill => exact n.serves_forwardSingleChild
  case matrixTransform => exact n.serves_resolveMatrix
  case solidColorBrush => exact .of_data n _
  case imageBrush =>
    rw [Node.childTransform_eq]
    exact (n.serves_takeChildData "ImageBrush.Transform").trans (.of_data _ _)
  case imageBrushTransform =>
    exact (n.serves_requiredChildTransform "MatrixTransform").trans (.of_data _ _)
  case fixedPage | unknown => exact .refl n

end Painter

namespace TextCollector

variable {σ : Type} [FontProvider σ]

theorem serves_process (context : PageContext) (c : TextCollector σ) (n : Node) :
    n.Serves (process context c n).value.1 := by
  unfold process
  cases n.kind
  case canvasRenderTransform | glyphsRenderTransform =>
    have htransform := n.serves_requiredChildTransform "MatrixTransform"
    simp only [Journaled.value_bind]
    split <;> rename_i heq <;> rw [heq] at htransform <;> exact htransform
  case matrixTransform => exact n.serves_resolveMatrix
  all_goals exact .refl n

end TextCollector

/-! ## What is open -/

namespace ScopeStack

/-- What an event does to the open elements. A start opens an element. An end closes the innermost
one, which takes data from its own children, and hands it to the element around it. -/
inductive HandsUp : ScopeStack → MarkupEvent → ScopeStack → Prop
  | document (s : ScopeStack) : HandsUp s .document s
  | start (s : ScopeStack) (name : String) (attributes : Attributes) :
    HandsUp s (.start name attributes) (s.push name attributes)
  | unopened (name : String) : HandsUp {} (.stop name) {}
  | stop {n closed : Node} (nodes : List Node) (name : String) : n.Serves closed →
    HandsUp ⟨n :: nodes⟩ (.stop name) (attach ⟨nodes⟩ closed)

/-- What is open has computed nothing yet, and what is closed in it has lost its children. -/
structure Tidy (s : ScopeStack) : Prop where
  data {n : Node} : n ∈ s.nodes → n.data = none
  children {n c : Node} : n ∈ s.nodes → c ∈ n.children → c.children = []

theorem Tidy.tail {n : Node} {nodes : List Node} (h : Tidy ⟨n :: nodes⟩) : Tidy ⟨nodes⟩ where
  data hn := h.data (List.mem_cons_of_mem _ hn)
  children hn := h.children (List.mem_cons_of_mem _ hn)

theorem Tidy.push {s : ScopeStack} (h : s.Tidy) (name : String) (attributes : Attributes) :
    (s.push name attributes).Tidy where
  data hn := by
    rcases List.mem_cons.1 hn with rfl | hn
    · rfl
    · exact h.data hn
  children hn hc := by
    rcases List.mem_cons.1 hn with rfl | hn
    · cases hc
    · exact h.children hn hc

theorem Tidy.attach {s : ScopeStack} (h : s.Tidy) (closed : Node) : (s.attach closed).Tidy := by
  obtain ⟨_ | ⟨parent, nodes⟩⟩ := s
  · exact h
  · refine ⟨fun hn => ?_, fun hn hc => ?_⟩
    · rcases List.mem_cons.1 hn with rfl | hn
      · show parent.data = none
        exact h.data (List.mem_cons_self ..)
      · exact h.tail.data hn
    · rcases List.mem_cons.1 hn with rfl | hn
      · rcases List.mem_append.1 hc with hc | hc
        · exact h.children (List.mem_cons_self ..) hc
        · rw [List.mem_singleton.1 hc]
      · exact h.tail.children hn hc

theorem HandsUp.tidy {s s' : ScopeStack} {e : MarkupEvent} (h : HandsUp s e s') (hs : s.Tidy) :
    s'.Tidy := by
  cases h with
  | document => exact hs
  | start _ name attributes => exact hs.push name attributes
  | unopened => exact hs
  | stop nodes name _ => exact hs.tail.attach _

end ScopeStack

/-! ## Followers -/

namespace Follower

variable {α S : Type}

/-- What events do to the open elements, and what is open in between. -/
structure HandsUp (v : Follower α S) (a : α) (events : List MarkupEvent) : Prop where
  tidy : (v.scopes (v.after a events)).Tidy
  next (e : MarkupEvent) :
    (v.scopes (v.after a events)).HandsUp e (v.scopes (v.after a (events ++ [e])))

/-- A follower that touches what is open at starts and ends alone, and whose elements take from
nothing but their own children. -/
structure Serving (v : Follower α S) : Prop extends v.Scoped where
  scopes_start (a : α) (name : String) (attributes : Attributes) :
    v.scopes (v.step a (.start name attributes)).value = (v.scopes a).push name attributes
  scopes_process (a : α) (n : Node) : v.scopes (v.process a n).value.2 = v.scopes a
  serves_process (a : α) (n : Node) : n.Serves (v.process a n).value.1

namespace Serving

variable {v : Follower α S}

theorem handsUp_stop (hv : v.Serving) (a : α) (name : String) :
    (v.scopes a).HandsUp (.stop name) (v.scopes (v.step a (.stop name)).value) := by
  cases hnodes : (v.scopes a).nodes with
  | nil =>
    have hscopes : v.scopes a = {} := congrArg ScopeStack.mk hnodes
    rw [(hv.stop_unopened hnodes name).1, hscopes]
    exact .unopened name
  | cons n nodes =>
    have hscopes : v.scopes a = ⟨n :: nodes⟩ := congrArg ScopeStack.mk hnodes
    rw [(hv.stop_opened hnodes name).1, hv.scopes_withScopes, hv.scopes_process,
      hv.scopes_withScopes, hscopes]
    exact .stop nodes name (hv.serves_process _ n)

theorem handsUp_step (hv : v.Serving) (a : α) (e : MarkupEvent) :
    (v.scopes a).HandsUp e (v.scopes (v.step a e).value) := by
  cases e with
  | document =>
    rw [hv.document]
    exact .document _
  | start name attributes =>
    rw [hv.scopes_start]
    exact .start _ name attributes
  | stop name => exact hv.handsUp_stop a name

theorem tidy_after (hv : v.Serving) {a : α} (h : (v.scopes a).Tidy) (events : List MarkupEvent) :
    (v.scopes (v.after a events)).Tidy := by
  induction events generalizing a with
  | nil => exact h
  | cons e events ih => exact ih ((hv.handsUp_step a e).tidy h)

/-- A follower that begins without open elements hands data up. -/
theorem handsUp_of_fresh (hv : v.Serving) {a : α} (h : v.scopes a = {})
    (events : List MarkupEvent) : v.HandsUp a events := by
  have hfresh : (v.scopes a).Tidy := by
    rw [h]
    exact ⟨fun hn => (nomatch hn), fun hn => nomatch hn⟩
  refine ⟨hv.tidy_after hfresh events, fun e => ?_⟩
  rw [after_concat]
  exact hv.handsUp_step _ e

end Serving

end Follower

variable {σ : Type} [FontProvider σ]

theorem Painter.serving_follower (context : PageContext) :
    (follower (σ := σ) context).Serving where
  toScoped := scoped_follower context
  scopes_start p name attributes := congrArg (fun x => x.value.scopes) (start_eq p name attributes)
  scopes_process := scopes_process context
  serves_process := serves_process context

theorem TextCollector.serving_follower (context : PageContext) :
    (follower (σ := σ) context).Serving where
  toScoped := scoped_follower context
  scopes_start c name attributes := congrArg scopes (value_start c name attributes)
  scopes_process := scopes_process context
  serves_process := serves_process context

/-- **Computed data is taken once, and only by the element around.** Whatever events a painter or a
collector of an empty page has followed, in any order and with any names, what is open has computed
nothing yet, and what is closed in it has lost its children. One more event hands at most one
element up, which has taken from its own children only. And whatever calls a node makes to take from
its children, no data leaves a child twice, and each call changes nothing but the data of the first
child that it looks for. -/
theorem Page.handsUp_takesOnce (context : PageContext) (base : Transform) (fonts : FontCache σ)
    (events : List MarkupEvent) (n : Node) (calls : List Taking) :
    (Painter.follower context).HandsUp (painter base fonts) events ∧
      (TextCollector.follower context).HandsUp { fonts } events ∧ Taking.TakesOnce n calls :=
  ⟨(Painter.serving_follower context).handsUp_of_fresh rfl events,
    (TextCollector.serving_follower context).handsUp_of_fresh rfl events,
    Taking.takesOnce n calls⟩

end Xps
