import Xps.Proofs.Page.TextPlacement

/-!
# Frames of followers

What the frame of a painter or a collector is after some events (`Follower.Frames`): the start of a
canvas composes its attribute, the end of a property element composes the first matrix inside, and
the end of an element that saves the state gives back the frame in front of it. The base never
changes (`Follower.Frames.base_after`).

The matrices are handed on from element to element. Two followers may do this differently, but the
open elements have the same matrices inside (`Follower.sketches_step`).
-/

namespace Xps

open Journaled

/-! ## Frames of elements -/

namespace TreeReader

theorem base_withAttribute (attributes : Attributes) (f : Frame) :
    (withAttribute attributes f).base = f.base := by
  unfold withAttribute Painter.elementFrame
  cases attributes.get? "RenderTransform" <;> rfl

theorem composed_withAttribute {f g : Frame} (h : f.composed = g.composed)
    (attributes : Attributes) :
    (withAttribute attributes f).composed = (withAttribute attributes g).composed := by
  unfold withAttribute Painter.elementFrame
  cases attributes.get? "RenderTransform" with
  | none => exact h
  | some value => exact congrArg (· ++ _) h

theorem composed_enter {f g : Frame} (h : f.composed = g.composed) (name : String)
    (attributes : Attributes) :
    (enter name attributes f).composed = (enter name attributes g).composed := by
  unfold enter
  split
  · exact composed_withAttribute h attributes
  · exact h

end TreeReader

/-! ## Matrices of open elements -/

namespace Node

/-- What the closed `MatrixTransform` children computed. -/
def matrices (n : Node) : List (Option ComputedData) :=
  (n.closed.filter fun c => c.name == "MatrixTransform").map Closed.data

/-- The tag of an open element, and the matrices inside of it. -/
def sketch (n : Node) : String × Attributes × List (Option ComputedData) :=
  (n.name, n.attributes, n.matrices)

theorem transformOf_congr {n m : Node} (h : n.matrices = m.matrices) :
    Closed.transformOf n.closed "MatrixTransform" =
      Closed.transformOf m.closed "MatrixTransform" := by
  have hdata (n : Node) : Closed.dataOf n.closed "MatrixTransform" = n.matrices.head?.join := by
    unfold Closed.dataOf matrices
    rw [List.head?_map, List.head?_filter]
    cases n.closed.find? fun c => c.name == "MatrixTransform" <;> rfl
  unfold Closed.transformOf
  rw [hdata, hdata, h]

end Node

namespace ScopeStack

def sketches (s : ScopeStack) : List (String × Attributes × List (Option ComputedData)) :=
  s.nodes.map Node.sketch

/-- Of a closed element, its matrix counts. -/
theorem sketches_attach {s t : ScopeStack} {n m : Node} (h : s.sketches = t.sketches)
    (hname : n.name = m.name) (hdata : n.name = "MatrixTransform" → n.data = m.data) :
    (s.attach n).sketches = (t.attach m).sketches := by
  have hattach (s : ScopeStack) (n : Node) : (s.attach n).sketches =
      s.sketches.modifyHead fun k => (k.1, k.2.1,
        k.2.2 ++ if n.name = "MatrixTransform" then [n.data] else []) := by
    unfold attach sketches
    split
    · rename_i hnodes
      rw [hnodes]
      rfl
    · rename_i parent nodes hnodes
      rw [hnodes]
      by_cases hname : n.name = "MatrixTransform" <;>
        simp [Node.sketch, Node.matrices, Node.closed, Node.toClosed, hname]
  rw [hattach, hattach, h, hname]
  by_cases hm : m.name = "MatrixTransform"
  · rw [if_pos hm, if_pos hm, hdata (hname.trans hm)]
  · rw [if_neg hm, if_neg hm]

end ScopeStack

namespace Follower

variable {α β S T : Type}

/-- A follower keeps names, and hands the matrix of a `MatrixTransform` to the element around. -/
structure HandsMatrices (v : Follower α S) : Prop where
  start (a : α) (name : String) (attributes : Attributes) :
    v.scopes (v.step a (.start name attributes)).value = (v.scopes a).push name attributes
  scopes (a : α) (n : Node) : v.scopes (v.process a n).value.2 = v.scopes a
  name (a : α) (n : Node) : (v.process a n).value.1.name = n.name
  matrix (a : α) (n : Node) (hn : n.kind = .matrixTransform) :
    (v.process a n).value.1.data = some (.transform (TreePainter.matrix n.attributes).value)

/-- Two followers keep the same open elements with the same matrices inside. -/
theorem sketches_step {v : Follower α S} {w : Follower β T} (hv : v.Scoped) (hw : w.Scoped)
    (hvm : v.HandsMatrices) (hwm : w.HandsMatrices) {a : α} {b : β}
    (h : (v.scopes a).sketches = (w.scopes b).sketches) (e : MarkupEvent) :
    (v.scopes (v.step a e).value).sketches = (w.scopes (w.step b e).value).sketches := by
  cases e with
  | document =>
    rw [hv.document, hw.document]
    exact h
  | start name attributes =>
    rw [hvm.start, hwm.start]
    exact congrArg (List.cons _) h
  | stop name =>
    cases hn : (v.scopes a).nodes with
    | nil =>
      have hm : (w.scopes b).nodes = [] := by
        simpa [ScopeStack.sketches, hn] using h
      rw [(hv.stop_unopened hn name).1, (hw.stop_unopened hm name).1]
      exact h
    | cons n nodes =>
      have hnodes : (w.scopes b).nodes.map Node.sketch = n.sketch :: nodes.map Node.sketch := by
        rw [← List.map_cons, ← hn]
        exact h.symm
      obtain ⟨m, others, hm, hsketch, hothers⟩ := List.map_eq_cons_iff.1 hnodes
      have hname : n.name = m.name := (congrArg Prod.fst hsketch).symm
      have hattributes : n.attributes = m.attributes := (congrArg (·.2.1) hsketch).symm
      rw [(hv.stop_opened hn name).1, (hw.stop_opened hm name).1, hv.scopes_withScopes,
        hw.scopes_withScopes, hvm.scopes, hwm.scopes, hv.scopes_withScopes, hw.scopes_withScopes]
      refine ScopeStack.sketches_attach hothers.symm ?_ fun hmatrix => ?_
      · rw [hvm.name, hwm.name, hname]
      · rw [hvm.name] at hmatrix
        have hkind : n.kind = .matrixTransform := congrArg ElementKind.ofName hmatrix
        rw [hvm.matrix _ n hkind, hwm.matrix _ m (by rw [← hkind, Node.kind, Node.kind, hname]),
          hattributes]

/-! ## Frames -/

/-- Events one by one, where all shorter beginnings are known. -/
theorem prefix_induction {P : List MarkupEvent → Prop} (nil : P [])
    (concat : ∀ past e, (∀ q, q <+: past → P q) → P (past ++ [e])) (events : List MarkupEvent) :
    P events := by
  have hbounded (n : Nat) : ∀ events : List MarkupEvent, events.length ≤ n → P events := by
    induction n with
    | zero =>
      intro events hlength
      rwa [List.eq_nil_of_length_eq_zero (Nat.le_zero.1 hlength)]
    | succ n ih =>
      intro events hlength
      rcases List.eq_nil_or_concat events with rfl | ⟨past, e, rfl⟩
      · exact nil
      · rw [List.concat_eq_append] at hlength ⊢
        refine concat past e fun q hq => ih q (Nat.le_trans hq.length_le ?_)
        simpa using hlength
  exact hbounded events.length events (Nat.le_refl _)

/-- How the frame of a follower changes: at the start of a canvas, and at the end of the elements
that wrap the transform of their parent. -/
structure Frames (v : Follower α S) (frame : S → Frame) (composes : ElementKind → Bool) : Prop where
  start (a : α) (name : String) (attributes : Attributes) :
    frame (v.state (v.step a (.start name attributes)).value) =
      TreeReader.enter name attributes (frame (v.state a))
  process (a : α) (n : Node) (hn : v.saves n.kind = false) :
    let before := frame (v.state a)
    frame (v.state (v.process a n).value.2) =
      if composes n.kind then
        (Closed.transformOf n.closed "MatrixTransform").elim before before.compose
      else before

section

variable {v : Follower α S} {frame : S → Frame} {composes : ElementKind → Bool} {a : α}
  {past : List MarkupEvent}

/-- A surplus end changes nothing. -/
theorem Tracks.after_surplus (h : v.Tracks a past) (hv : v.Scoped) (hopened : opened past = [])
    (name : String) : v.after a (past ++ [.stop name]) = v.after a past := by
  have htags := h.tags
  rw [hopened, ScopeStack.tags] at htags
  rw [after_concat]
  exact (hv.stop_unopened (List.map_eq_nil_iff.1 htags) name).1

/-- The end of an element that saves no state composes its matrix, or changes nothing. -/
theorem Frames.stop (hf : v.Frames frame composes) (hv : v.Scoped) {n : Node} {nodes : List Node}
    (hnodes : (v.scopes (v.after a past)).nodes = n :: nodes) (hn : v.saves n.kind = false)
    (name : String) :
    let before := frame (v.state (v.after a past))
    frame (v.state (v.after a (past ++ [.stop name]))) =
      if composes n.kind then
        (Closed.transformOf n.closed "MatrixTransform").elim before before.compose
      else before := by
  rw [after_concat, (hv.stop_opened hnodes name).1, hv.state_withScopes, hf.process _ _ hn,
    hv.state_withScopes]

/-- Whatever is composed, the base stays. -/
theorem Frames.base_after (hf : v.Frames frame composes) (hv : v.Scoped) (hscopes : v.scopes a = {})
    (hsaved : v.saved a = []) (past : List MarkupEvent) :
    (frame (v.state (v.after a past))).base = (frame (v.state a)).base := by
  induction past using prefix_induction with
  | nil => rfl
  | concat past e ih =>
    have hpast := ih past List.prefix_rfl
    have h := hv.savesExactly_of_fresh hscopes hsaved past
    cases e with
    | document =>
      rw [after_concat, hv.document]
      exact hpast
    | start name attributes =>
      rw [after_concat, hf.start, ← hpast]
      unfold TreeReader.enter
      split
      · exact TreeReader.base_withAttribute attributes _
      · rfl
    | stop name =>
      cases hn : (v.scopes (v.after a past)).nodes with
      | nil =>
        rw [h.after_surplus hv (h.nodes_eq_nil hn)]
        exact hpast
      | cons n nodes =>
        obtain ⟨o, outer, ho, hkind, -⟩ := h.nodes_eq_cons hn
        cases hsaves : v.saves o.kind with
        | true =>
          obtain ⟨later, hlater⟩ := mem_opened (ho ▸ List.mem_cons_self : o ∈ opened past)
          rw [h.restored name ho hsaves]
          exact ih o.before ⟨_, hlater.symm⟩
        | false =>
          rw [hf.stop hv hn (hkind ▸ hsaves), ← hpast]
          split
          · cases Closed.transformOf n.closed "MatrixTransform" <;> rfl
          · rfl

end

end Follower

/-! ## Painters and collectors -/

variable {σ : Type} [FontProvider σ]

namespace Painter

theorem frame_enter (name : String) (attributes : Attributes) (state : PaintState) :
    (TreePainter.enter name attributes state).value.frame =
      TreeReader.enter name attributes state.frame := by
  unfold TreePainter.enter TreeReader.enter
  split <;> rfl

theorem name_paintPath (state : PaintState) (context : PageContext) (n : Node) :
    (paintPath state context n).value.name = n.name := by
  have h := congrArg (fun x => x.value.name) (paintPath_eq state context n)
  exact h

theorem name_paintGlyphs (state : PaintState) (context : PageContext) (fonts : FontCache σ)
    (n : Node) : (paintGlyphs state context fonts n).value.1.name = n.name := by
  have h := congrArg (fun x => x.value.1.name) (paintGlyphs_eq state context fonts n)
  exact h

theorem name_process (context : PageContext) (p : Painter σ) (n : Node) :
    (process context p n).value.1.name = n.name := by
  unfold process
  split
  case h_2 => exact name_paintPath p.state context n
  case h_3 => exact name_paintGlyphs p.state context p.fonts n
  case h_4 | h_5 | h_6 =>
    rw [requiredChildTransform_eq]
    cases h : (TreePainter.matrixChild n.name n.closed).value <;> simp [h, Node.takeChildData]
  case h_7 | h_8 | h_9 => exact congrArg (fun x => x.value.name) (forwardSingleChild_eq n)
  case h_10 => exact congrArg (fun x => x.value.name) (resolveMatrix_eq n)
  case h_12 =>
    rw [Node.childTransform_eq]
    rfl
  case h_13 =>
    rw [requiredChildTransform_eq]
    rfl
  all_goals rfl

theorem handsMatrices_follower (context : PageContext) :
    (follower (σ := σ) context).HandsMatrices where
  start p name attributes := by
    have hvalue := congrArg value (start_eq p name attributes)
    exact (congrArg Painter.scopes hvalue :)
  scopes := scopes_process context
  name := name_process context
  matrix p n hn := by
    show (process context p n).value.1.data = _
    unfold process
    rw [hn]
    exact congrArg (fun x => x.value.data) (resolveMatrix_eq n)

theorem frames_follower (context : PageContext) :
    (follower (σ := σ) context).Frames PaintState.frame ElementKind.isRenderTransform where
  start p name attributes := by
    have hvalue := congrArg value (start_eq p name attributes)
    exact (congrArg (·.state.frame) hvalue).trans (frame_enter name attributes p.state)
  process p n hn := by
    show (process context p n).value.2.state.frame = _
    unfold process
    cases hk : n.kind <;> simp only [ElementKind.isRenderTransform]
    case canvas | path | glyphs => simp [follower, hk, ElementKind.isScope] at hn
    case canvasRenderTransform | pathRenderTransform | glyphsRenderTransform =>
      rw [requiredChildTransform_eq]
      unfold TreePainter.matrixChild
      cases h : Closed.transformOf n.closed "MatrixTransform" <;> simp [compose, follower]
    all_goals rfl

end Painter

namespace TextCollector

theorem name_process (context : PageContext) (c : TextCollector σ) (n : Node) :
    (process context c n).value.1.name = n.name := by
  unfold process
  split
  case h_3 | h_4 =>
    rw [Painter.requiredChildTransform_eq]
    cases h : (TreePainter.matrixChild n.name n.closed).value <;> simp [h, Node.takeChildData]
  case h_5 => exact congrArg (fun x => x.value.name) (Painter.resolveMatrix_eq n)
  all_goals rfl

theorem handsMatrices_follower (context : PageContext) :
    (follower (σ := σ) context).HandsMatrices where
  start c name attributes := congrArg TextCollector.scopes (value_start c name attributes)
  scopes := scopes_process context
  name := name_process context
  matrix c n hn := by
    show (process context c n).value.1.data = _
    unfold process
    rw [hn]
    exact congrArg (fun x => x.value.data) (Painter.resolveMatrix_eq n)

/-- Collectors compose the transforms of canvases and runs of glyphs. -/
def composesMatrix : ElementKind → Bool
  | .canvasRenderTransform | .glyphsRenderTransform => true
  | _ => false

theorem frames_follower (context : PageContext) :
    (follower (σ := σ) context).Frames id composesMatrix where
  start c name attributes := congrArg TextCollector.frame (value_start c name attributes)
  process c n hn := by
    show (process context c n).value.2.frame = _
    unfold process
    cases hk : n.kind <;> simp only [composesMatrix]
    case canvas | glyphs => simp [follower, hk, savesFrame] at hn
    case canvasRenderTransform | glyphsRenderTransform =>
      rw [Painter.requiredChildTransform_eq]
      unfold TreePainter.matrixChild
      cases h : Closed.transformOf n.closed "MatrixTransform" <;> simp [compose, follower]
    all_goals rfl

end TextCollector

end Xps
