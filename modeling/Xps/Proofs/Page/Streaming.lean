import Xps.Proofs.Page.TreePainter

/-!
# Painting events is painting the forest

A painter that follows the events of a forest paints what the forest means (`Forest.paint`).

The painter keeps its open elements and saved states on stacks and moves data between nodes. The
invariant is that the events of a forest leave all that lies below as it was: they append the closed
elements to the children of the innermost open element, and the saved states come back unchanged
(`run_events`). At the end of an element its children are exactly the closed forest inside of it.
-/

namespace Xps

open TreePainter

/-! ## Nodes and closed elements -/

namespace Painter

/-- The node once a brush was looked for: a property element has lost its data. -/
def afterBrush (n : Node) (name property : String) : Node :=
  if (n.attributes.get? name).isSome then n else (n.takeChildData property).2

theorem toClosed_afterBrush (n : Node) (name property : String) :
    (afterBrush n name property).toClosed = n.toClosed := by
  unfold afterBrush
  split <;> rfl

theorem attributes_afterBrush (n : Node) (name property : String) :
    (afterBrush n name property).attributes = n.attributes := by
  unfold afterBrush
  split <;> rfl

theorem dataOf_afterBrush {n : Node} {name property other : String} (h : property ≠ other) :
    Closed.dataOf (afterBrush n name property).closed other = Closed.dataOf n.closed other := by
  unfold afterBrush
  split
  · rfl
  · exact Node.dataOf_takeChildData h

/-- Looking for one brush does not get in the way of looking for another. -/
theorem brush_afterBrush {n : Node} {name property other property' : String}
    (h : property ≠ property') :
    TreePainter.brush n.attributes (afterBrush n name property).closed other property' =
      TreePainter.brush n.attributes n.closed other property' := by
  unfold TreePainter.brush Closed.brushOf
  rw [dataOf_afterBrush h]

theorem brush_eq (n : Node) (name property : String) :
    brush n name property = do
      let b ← TreePainter.brush n.attributes n.closed name property
      return (b, afterBrush n name property) := by
  unfold brush TreePainter.brush afterBrush
  cases n.attributes.get? name with
  | some value => rfl
  | none =>
    rw [Node.childBrush_eq]
    rfl

/-! ## The end of an element -/

theorem paintPath_eq (state : PaintState) (context : PageContext) (n : Node) :
    Node.toClosed <$> paintPath state context n = do
      TreePainter.paintPath state context n.attributes n.closed
      return n.toClosed := by
  unfold paintPath TreePainter.paintPath
  rw [map_bind, bind_assoc]
  congr 1
  funext data
  cases data with
  | none => rfl
  | some data =>
    dsimp only
    cases data.outline? with
    | none => rfl
    | some outline =>
      have hne : "Path.Fill" ≠ "Path.Stroke" := by decide
      simp only [brush_eq, attributes_afterBrush, brush_afterBrush hne, map_bind, bind_assoc, pure_bind]
      congr 1; funext fill
      congr 1; funext line
      congr 1; funext opacity
      congr 1; funext frame
      cases fill.paint? (state.opacity * opacity) <;> cases line.paint? (state.opacity * opacity) <;>
        simp [toClosed_afterBrush]

variable {σ : Type} [FontProvider σ]

theorem paintText_eq (state : PaintState) (context : PageContext) (provider : σ) (font : Font)
    (n : Node) :
    Node.toClosed <$> paintText state context provider font n = do
      TreePainter.paintText state context provider font n.attributes n.closed
      return n.toClosed := by
  unfold paintText TreePainter.paintText
  simp only [brush_eq, attributes_afterBrush, map_bind, bind_assoc, pure_bind]
  congr 1; funext fill
  cases Glyphs.text? n.attributes with
  | none => simp [toClosed_afterBrush]
  | some text =>
    simp only [map_bind, bind_assoc]
    congr 1; funext opacity
    congr 1; funext frame
    cases fill.paint? (state.opacity * opacity) with
    | none => simp [toClosed_afterBrush]
    | some paint =>
      simp only [map_bind, bind_assoc]
      congr 1; funext origin
      cases textOutline? provider font origin text <;> simp [toClosed_afterBrush]

theorem paintGlyphs_eq (state : PaintState) (context : PageContext) (fonts : FontCache σ)
    (n : Node) :
    (fun x => (x.1.toClosed, x.2)) <$> paintGlyphs state context fonts n = do
      let fonts ← TreePainter.paintGlyphs context n.attributes n.closed ⟨state, fonts⟩
      return (n.toClosed, fonts) := by
  unfold paintGlyphs TreePainter.paintGlyphs
  simp only [map_bind, bind_assoc]
  congr 1; funext x
  obtain ⟨found, fonts⟩ := x
  cases found with
  | none => rfl
  | some font =>
    have h := congrArg (· >>= fun c => pure (c, fonts))
      (paintText_eq state context fonts.provider font n)
    simpa using h

omit [FontProvider σ] in
theorem requiredChildTransform_eq (n : Node) :
    n.requiredChildTransform "MatrixTransform" = do
      let t ← matrixChild n.name n.closed
      return (t, (n.takeChildData "MatrixTransform").2) := by
  unfold Node.requiredChildTransform matrixChild
  rw [Node.childTransform_eq]

omit [FontProvider σ] in
theorem forwardSingleChild_eq (n : Node) :
    Node.toClosed <$> n.forwardSingleChild = do
      let data ← forward n.name n.closed
      return ⟨n.name, n.attributes, data⟩ := by
  have hlength : n.closed.length = n.children.length := List.length_map _
  have hhead : n.closed.head?.bind Closed.data = (Node.takeFirst (fun _ => true) n.children).1 := by
    unfold Node.closed
    cases n.children <;> rfl
  unfold Node.forwardSingleChild forward
  rw [hlength, hhead]
  by_cases h : n.children.length ≠ 1
  · simp only [if_pos h]
    rfl
  · simp only [if_neg h]
    rfl

omit [FontProvider σ] in
theorem resolveMatrix_eq (n : Node) :
    Node.toClosed <$> n.resolveMatrix = do
      let t ← matrix n.attributes
      return ⟨n.name, n.attributes, some (.transform t)⟩ := by
  unfold Node.resolveMatrix matrix
  cases n.attributes.get? "Matrix" <;> simp [Node.toClosed]

omit [FontProvider σ] in
/-- The painter with the state and the fonts of a drawing. -/
def resume (p : Painter σ) (d : Drawing σ) : Painter σ := { p with state := d.state, fonts := d.fonts }

omit [FontProvider σ] in
/-- Gives the innermost saved state back at the end of an element that asks for it. -/
def leave (name : String) (p : Painter σ) : Journaled (Painter σ) :=
  if (ElementKind.ofName name).isScope then p.restore else pure p

/-- The end of an element does what it means, and then gives a saved state back. -/
theorem process_eq (context : PageContext) (p : Painter σ) (n : Node) (hn : n.data = none) :
    (fun x => (x.1.toClosed, x.2)) <$> process context p n = do
      let (data, d) ← close context n.name n.attributes n.closed ⟨p.state, p.fonts⟩
      let p ← (p.resume d).leave n.name
      return (⟨n.name, n.attributes, data⟩, p) := by
  have hclosed : n.toClosed = ⟨n.name, n.attributes, none⟩ := by rw [← hn]; rfl
  have hforward : (fun x => (x.1.toClosed, x.2)) <$> (return (← n.forwardSingleChild, p)) = do
      let data ← forward n.name n.closed
      return ((⟨n.name, n.attributes, data⟩ : Closed), p) := by
    have h := congrArg (· >>= fun c => pure (c, p)) (forwardSingleChild_eq n)
    simpa using h
  unfold process close leave
  cases hk : n.kind <;> rw [Node.kind] at hk <;> simp only [hk, ElementKind.isScope]
  case canvas => simp [hclosed, resume]
  case path =>
    have h := congrArg (· >>= fun c => (c, ·) <$> p.restore) (paintPath_eq p.state context n)
    simpa [hclosed, resume] using h
  case glyphs =>
    have h := congrArg (· >>= fun x => (x.1, ·) <$> restore { p with fonts := x.2 })
      (paintGlyphs_eq p.state context p.fonts n)
    simpa [hclosed, resume] using h
  case canvasRenderTransform | pathRenderTransform | glyphsRenderTransform =>
    simp only [requiredChildTransform_eq, map_bind, bind_assoc, pure_bind]
    congr 1; funext t
    cases t <;> exact congrArg (fun c => pure (c, _)) hclosed
  case pathFill | pathStroke | glyphsFill => simpa [resume] using hforward
  case matrixTransform =>
    have h := congrArg (· >>= fun c => pure (c, p)) (resolveMatrix_eq n)
    simpa [resume] using h
  case solidColorBrush => rfl
  case imageBrush =>
    rw [Node.childTransform_eq]
    rfl
  case imageBrushTransform =>
    simp only [requiredChildTransform_eq, map_bind, bind_assoc, pure_bind]
    rfl
  case fixedPage | unknown => simp [hclosed, resume]

/-! ## Events -/

omit [FontProvider σ] in
/-- Adds closed elements to the children of the innermost open one. -/
def attachAll (p : Painter σ) (closed : List Closed) : Painter σ :=
  { p with scopes := closed.foldl (fun s c => s.attach c.toNode) p.scopes }

omit [FontProvider σ] in
theorem foldl_attach (closed : List Closed) (n : Node) (nodes : List Node) :
    closed.foldl (fun s c => ScopeStack.attach s c.toNode) ⟨n :: nodes⟩ =
      ⟨{ n with children := n.children ++ closed.map Closed.toNode } :: nodes⟩ := by
  induction closed generalizing n with
  | nil =>
    rw [List.map_nil, List.append_nil]
    cases n
    rfl
  | cons c closed ih =>
    rw [List.foldl_cons]
    refine (ih _).trans ?_
    simp [Closed.toNode]

omit [FontProvider σ] in
/-- The painter inside of an element. -/
def inside (p : Painter σ) (name : String) (attributes : Attributes) (inner : PaintState) :
    Painter σ :=
  { p with
    scopes := p.scopes.push name attributes
    state := inner
    saved := if (ElementKind.ofName name).isScope then p.state :: p.saved else p.saved }

omit [FontProvider σ] in
theorem start_eq (p : Painter σ) (name : String) (attributes : Attributes) :
    p.start name attributes = do
      let inner ← enter name attributes p.state
      return p.inside name attributes inner := by
  unfold start enter inside
  cases ElementKind.ofName name <;> simp [ElementKind.isScope, save, enterCanvas]

theorem stop_eq (context : PageContext) (p : Painter σ) {name : String} {attributes : Attributes}
    {closed : List Closed} {nodes : List Node}
    (h : p.scopes = ⟨{ name, attributes, children := closed.map Closed.toNode } :: nodes⟩) :
    stop context p name = do
      let (data, d) ← close context name attributes closed ⟨p.state, p.fonts⟩
      let p ← (resume { p with scopes := ⟨nodes⟩ } d).leave name
      return p.attachAll [⟨name, attributes, data⟩] := by
  let n : Node := { name, attributes, children := closed.map Closed.toNode }
  have hclosed : n.closed = closed := Node.closed_toNode name attributes closed
  have hpop : p.scopes.pop name = pure (some n, ⟨nodes⟩) := by
    rw [h, ScopeStack.pop]
    simp [n]
  have hprocess := congrArg (· >>= fun x => pure (x.2.attachAll [x.1]))
    (process_eq context { p with scopes := ⟨nodes⟩ } n rfl)
  rw [hclosed] at hprocess
  unfold stop
  rw [hpop, pure_bind]
  simp only [bind_map_left, bind_assoc, pure_bind] at hprocess
  exact hprocess

omit [FontProvider σ] in
theorem leave_inside (p : Painter σ) (name : String) (attributes : Attributes)
    (inner : PaintState) (d : Drawing σ) :
    (resume { p.inside name attributes inner with scopes := p.scopes } d).leave name =
      pure (p.resume (TreePainter.leave name p.state d)) := by
  unfold leave TreePainter.leave inside
  cases (ElementKind.ofName name).isScope <;> rfl

/-- A painter that follows the events of a forest paints the forest. -/
theorem run_events (context : PageContext) (forest : Forest) (p : Painter σ) :
    run context p forest.events = do
      let (closed, d) ← forest.paint context ⟨p.state, p.fonts⟩
      return (p.resume d).attachAll closed := by
  induction forest generalizing p with
  | nil => rfl
  | cons name attributes children rest ihChildren ihRest =>
    -- The children are painted by a painter with one more open element, the rest by this one.
    have hchildren (inner : PaintState) := ihChildren (p.inside name attributes inner)
    unfold run at ihRest hchildren ⊢
    rw [Forest.events, List.foldlM_cons, Forest.paint]
    simp only [step, start_eq, bind_assoc, pure_bind, List.foldlM_append, List.foldlM_cons, hchildren]
    congr 1; funext inner
    congr 1; funext ⟨closed, d⟩
    have hstop := stop_eq context (((p.inside name attributes inner).resume d).attachAll closed)
      (foldl_attach closed _ _)
    rw [hstop]
    simp only [bind_assoc]
    congr 1; funext ⟨data, after⟩
    refine (congrArg (· >>= _) (leave_inside p name attributes inner after)).trans ?_
    simp only [pure_bind, ihRest]
    rfl

/-- **Painting a stream of events is painting the forest.** From the same state and fonts, both make
the same paint calls in the same order, report the same, and end in the same state. -/
theorem paintCalls_run_events (context : PageContext) (state : PaintState) (fonts : FontCache σ)
    (forest : Forest) :
    let streamed := run context { state, fonts } forest.events
    let painted := forest.paint context ⟨state, fonts⟩
    streamed.paintCalls = painted.paintCalls ∧ streamed.entries = painted.entries ∧
      streamed.value.state = painted.value.2.state ∧
      streamed.value.fonts = painted.value.2.fonts := by
  intro streamed painted
  have hrun : streamed = painted >>= fun x =>
      pure ((resume { state, fonts } x.2).attachAll x.1) := run_events context forest _
  have hentries : streamed.entries = painted.entries := by
    rw [hrun, Journaled.entries_bind, Journaled.entries_pure, List.append_nil]
  refine ⟨congrArg (List.filterMap Entry.paint?) hentries, hentries, ?_, ?_⟩
  · rw [hrun]; rfl
  · rw [hrun]; rfl

end Painter

end Xps
