import Xps.Page.Rendering
import Xps.Proofs.Journal.View
import Xps.Proofs.Page.Follower
import Xps.Proofs.Page.Streaming

/-!
# Saved states

A painter saves its state in front of each `Canvas`, `Path` and `Glyphs`, and a collector its frame
in front of each `Canvas` and `Glyphs`. Both give back exactly what was there, whatever is painted
or read in between, and whether or not the events nest.
-/

namespace Xps

variable {σ : Type} [FontProvider σ]

namespace Painter

/-- Painters save their state in front of canvases, paths and glyphs. -/
def follower (context : PageContext) : Follower (Painter σ) PaintState where
  step := step context
  process := process context
  scopes := scopes
  withScopes p scopes := { p with scopes }
  state := state
  saved := saved
  saves := ElementKind.isScope

/-- Whatever is painted at the end of a scope, the innermost saved state comes back. -/
theorem process_scope (context : PageContext) (p : Painter σ) (n : Node) {s : PaintState}
    {saved : List PaintState} (hn : n.kind.isScope) (hsaved : p.saved = s :: saved) :
    let x := process context p n
    x.value.2.scopes = p.scopes ∧ x.value.2.state = s ∧ x.value.2.saved = saved ∧ x.Quiet := by
  unfold process
  cases hk : n.kind <;> rw [hk] at hn <;> try cases hn
  all_goals simp [restore, hsaved]

/-- The end of other elements keeps the saved states. -/
theorem process_other (context : PageContext) (p : Painter σ) (n : Node)
    (hn : n.kind.isScope = false) :
    let x := process context p n
    x.value.2.scopes = p.scopes ∧ x.value.2.saved = p.saved ∧ x.Quiet := by
  unfold process
  cases hk : n.kind <;> rw [hk] at hn <;> try cases hn
  case canvasRenderTransform | pathRenderTransform | glyphsRenderTransform =>
    simp only [Journaled.quiet_bind, Journaled.value_bind]
    split <;> simp [compose]
  all_goals simp

omit [FontProvider σ] in
@[simp] theorem scopes_restore (p : Painter σ) : p.restore.value.scopes = p.scopes := by
  unfold restore
  split <;> rfl

theorem scopes_process (context : PageContext) (p : Painter σ) (n : Node) :
    (process context p n).value.2.scopes = p.scopes := by
  unfold process
  split
  case h_4 | h_5 | h_6 =>
    rw [Journaled.value_bind]
    split <;> rfl
  all_goals simp

theorem scoped_follower (context : PageContext) : (follower (σ := σ) context).Scoped where
  document p := rfl
  start p name attributes := by
    have hvalue := congrArg Journaled.value (start_eq p name attributes)
    exact ⟨congrArg (fun p => p.scopes.tags) hvalue, congrArg saved hvalue,
      quiet_start p name attributes⟩
  stop p name := rfl
  processScope := process_scope context
  processOther := process_other context
  scopes_withScopes p s := rfl
  state_withScopes p s := rfl
  saved_withScopes p s := rfl

end Painter

namespace TextCollector

/-- Collectors save their frame in front of canvases and glyphs. -/
def savesFrame : ElementKind → Bool
  | .canvas | .glyphs => true
  | _ => false

def follower (context : PageContext) : Follower (TextCollector σ) Frame where
  step := step context
  process := process context
  scopes := scopes
  withScopes c scopes := { c with scopes }
  state := frame
  saved := saved
  saves := savesFrame

omit [FontProvider σ] in
theorem value_composeAttribute (c : TextCollector σ) (attributes : Attributes) :
    (c.composeAttribute attributes).value =
      { c with frame := (Painter.elementFrame attributes c.frame).value } := by
  unfold composeAttribute Painter.elementFrame
  cases attributes.get? "RenderTransform" <;> rfl

theorem process_scope (context : PageContext) (c : TextCollector σ) (n : Node) {f : Frame}
    {saved : List Frame} (hn : savesFrame n.kind) (hsaved : c.saved = f :: saved) :
    let x := process context c n
    x.value.2.scopes = c.scopes ∧ x.value.2.frame = f ∧ x.value.2.saved = saved ∧ x.Quiet := by
  unfold process
  cases hk : n.kind <;> rw [hk] at hn <;> try cases hn
  case canvas => simp [restore, hsaved]
  case glyphs => simp [restore, value_composeAttribute, hsaved]

theorem process_other (context : PageContext) (c : TextCollector σ) (n : Node)
    (hn : savesFrame n.kind = false) :
    let x := process context c n
    x.value.2.scopes = c.scopes ∧ x.value.2.saved = c.saved ∧ x.Quiet := by
  unfold process
  cases hk : n.kind <;> rw [hk] at hn <;> try cases hn
  case canvasRenderTransform | glyphsRenderTransform =>
    simp only [Journaled.quiet_bind, Journaled.value_bind]
    split <;> simp [compose]
  all_goals simp

omit [FontProvider σ] in
/-- The collector inside of an element. -/
def inside (c : TextCollector σ) (name : String) (attributes : Attributes) : TextCollector σ :=
  { c with
    scopes := c.scopes.push name attributes
    frame :=
      if ElementKind.ofName name = .canvas then (Painter.elementFrame attributes c.frame).value
      else c.frame
    saved := if savesFrame (.ofName name) then c.frame :: c.saved else c.saved }

omit [FontProvider σ] in
theorem value_start (c : TextCollector σ) (name : String) (attributes : Attributes) :
    (c.start name attributes).value = c.inside name attributes := by
  unfold start inside
  cases ElementKind.ofName name
  case canvas => exact value_composeAttribute _ attributes
  all_goals rfl

omit [FontProvider σ] in
@[simp] theorem scopes_restore (c : TextCollector σ) : c.restore.value.scopes = c.scopes := by
  unfold restore
  split <;> rfl

theorem scopes_process (context : PageContext) (c : TextCollector σ) (n : Node) :
    (process context c n).value.2.scopes = c.scopes := by
  unfold process
  split
  case h_3 | h_4 =>
    rw [Journaled.value_bind]
    split <;> rfl
  all_goals simp [value_composeAttribute]

theorem scoped_follower (context : PageContext) : (follower (σ := σ) context).Scoped where
  document c := rfl
  start c name attributes := by
    have hvalue := value_start c name attributes
    exact ⟨congrArg (fun c => c.scopes.tags) hvalue, congrArg saved hvalue,
      quiet_start c name attributes⟩
  stop c name := rfl
  processScope := process_scope context
  processOther := process_other context
  scopes_withScopes c s := rfl
  state_withScopes c s := rfl
  saved_withScopes c s := rfl

end TextCollector

/-- **Saving and giving back is exact.** Whatever events a painter or a collector of an empty page
has followed, in any order and with any names, what it has saved are the states in front of the open
elements that save one, the end of such an element gives that state back, and no state is given back
that was not saved. -/
theorem Page.savesExactly (context : PageContext) (base : Transform) (fonts : FontCache σ)
    (events : List MarkupEvent) :
    (Painter.follower context).SavesExactly (painter base fonts) events ∧
      (TextCollector.follower context).SavesExactly { fonts } events :=
  ⟨(Painter.scoped_follower context).savesExactly_of_fresh rfl rfl events,
    (TextCollector.scoped_follower context).savesExactly_of_fresh rfl rfl events⟩

end Xps
