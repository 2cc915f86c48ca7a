import Xps.Proofs.Page.Deletion

/-!
# Elements around others

Elements of unknown names around a run of siblings do not show: neither in what is painted and
placed, nor in the fonts, nor in the painting state behind them (`Page.wrap_transparent`).

An unknown element opens and closes without any effect of its own. The siblings become its children
instead of those of the container around it, which sees one more child that it does not look at. So
a follower behind the wrapped run is in step with one behind the bare run (`Follower.InStep`), and
stays so whatever follows.
-/

namespace Xps

open Journaled

namespace Forest

/-- A forest inside of some elements, the first of which is the outermost. -/
def wrap : List (String × Attributes) → Forest → Forest
  | [], forest => forest
  | (name, attributes) :: wrappers, forest => cons name attributes (forest.wrap wrappers) nil

variable {wrappers : List (String × Attributes)}

/-- Painting a wrapped forest is painting the forest. -/
theorem paint_wrap {σ : Type} [FontProvider σ]
    (hunknown : ∀ w ∈ wrappers, ElementKind.ofName w.1 = .unknown) (context : PageContext)
    (forest : Forest) (d : Drawing σ) :
    ((forest.wrap wrappers).paint context d).entries = (forest.paint context d).entries ∧
      ((forest.wrap wrappers).paint context d).value.2 = (forest.paint context d).value.2 := by
  induction wrappers with
  | nil => exact ⟨rfl, rfl⟩
  | cons w wrappers ih =>
    obtain ⟨name, attributes⟩ := w
    obtain ⟨hname, hothers⟩ := List.forall_mem_cons.1 hunknown
    obtain ⟨hentries, hvalue⟩ := ih hothers
    have hwrapped : (forest.wrap ((name, attributes) :: wrappers)).paint context d =
        (forest.wrap wrappers).paint context d >>= fun x =>
          pure ([⟨name, attributes, none⟩], x.2) := by
      rw [wrap, paint, TreePainter.enter, if_neg (by rw [hname]; decide), pure_bind]
      congr 1
      funext x
      unfold TreePainter.close TreePainter.leave
      rw [hname]
      rfl
    rw [hwrapped, entries_bind, entries_pure, List.append_nil]
    exact ⟨hentries, hvalue⟩

/-- Reading a wrapped forest is reading the forest. -/
theorem read_wrap (hunknown : ∀ w ∈ wrappers, ElementKind.ofName w.1 = .unknown)
    (forest : Forest) (frame : Frame) :
    (forest.wrap wrappers).read frame = forest.read frame := by
  induction wrappers with
  | nil => rfl
  | cons w wrappers ih =>
    obtain ⟨name, attributes⟩ := w
    obtain ⟨hname, hothers⟩ := List.forall_mem_cons.1 hunknown
    rw [wrap, read]
    unfold TreeReader.enter TreeReader.run? TreeReader.leave
    rw [hname]
    dsimp only
    rw [if_neg (by decide), if_neg (by decide), ih hothers, read]
    exact Prod.ext (List.append_nil _) rfl

end Forest

/-! ## Children of a container -/

namespace ScopeStack

variable {s t u : ScopeStack}

theorem Similar.symm (h : Similar s t) : Similar t s := Eq.symm h

theorem Similar.trans (hst : Similar s t) (htu : Similar t u) : Similar s u := Eq.trans hst htu

/-- What a container is given, one node after the other, does not show. -/
theorem similar_attachAll (closed : List Closed)
    (h : ∀ parent ∈ s.nodes.head?, parent.kind.isContainer) :
    Similar (closed.foldl (fun s c => s.attach c.toNode) s) s := by
  induction closed generalizing s with
  | nil => exact .refl s
  | cons c closed ih =>
    have hattach := similar_attach c.toNode h
    refine (ih fun parent hparent => ?_).trans hattach
    have hseen := congrArg List.head? hattach
    rw [List.head?_map, List.head?_map, hparent] at hseen
    obtain ⟨old, hold, hsame⟩ := Option.map_eq_some_iff.1 hseen.symm
    rw [← Node.kind_eq_of_seen hsame]
    exact h old hold

end ScopeStack

/-! ## Followers -/

namespace Follower

variable {α S V : Type} {v : Follower α S} {f : Entry → Option V} {R : α → α → Prop} {a : α}
  {before span span' : List MarkupEvent}

/-- Events that leave a follower in step can stand for each other, whatever follows. -/
theorem agree_of_span (hv : v.KeepsScopes) (h : SideBySide v v f R)
    (hspan : Agree f (InStep v v R) (v.run (v.run a before).value span)
      (v.run (v.run a before).value span')) (after : List MarkupEvent) :
    Agree f (InStep v v R) (v.run a (before ++ span ++ after))
      (v.run a (before ++ span' ++ after)) := by
  have hfirst : Agree f (InStep v v R) (v.run a (before ++ span)) (v.run a (before ++ span')) := by
    rw [run_append, run_append]
    exact (Agree.refl _).bind_value hspan
  rw [run_append v a (before ++ span), run_append v a (before ++ span')]
  exact hfirst.bind fun _ _ hstep => agree_run hv hv h hstep after

end Follower

variable {σ : Type} [FontProvider σ] {wrappers : List (String × Attributes)}

/-- The same cache finds the same fonts. -/
theorem FontCache.resolves_eq (archive : Archive) :
    Resolves archive (fun c d : FontCache σ => c = d) := fun h name size => by
  rw [h]
  exact ⟨rfl, rfl⟩

theorem Painter.agree_wrap (hunknown : ∀ w ∈ wrappers, ElementKind.ofName w.1 = .unknown)
    (context : PageContext) (forest : Forest) {p : Painter σ}
    (hparent : ∀ parent ∈ p.scopes.nodes.head?, parent.kind.isContainer) :
    Agree Entry.paint? ((follower context).InStep (follower context) (Alike (· = ·)))
      (p.run context (forest.wrap wrappers).events) (p.run context forest.events) := by
  obtain ⟨hentries, hvalue⟩ := Forest.paint_wrap hunknown context forest ⟨p.state, p.fonts⟩
  rw [run_events, run_events]
  refine ⟨?_, ?_, ?_⟩
  · rw [view_bind, view_bind]
    exact congrArg (List.filterMap Entry.paint? · ++ []) hentries
  · exact (ScopeStack.similar_attachAll _ hparent).trans
      (ScopeStack.similar_attachAll _ hparent).symm
  · exact ⟨congrArg Drawing.state hvalue, rfl, congrArg Drawing.fonts hvalue⟩

theorem TextCollector.agree_wrap (hunknown : ∀ w ∈ wrappers, ElementKind.ofName w.1 = .unknown)
    (context : PageContext) (forest : Forest) {c : TextCollector σ}
    (hparent : ∀ parent ∈ c.scopes.nodes.head?, parent.kind.isContainer) :
    Agree Entry.place? ((follower context).InStep (follower context) (Alike (· = ·)))
      (c.run context (forest.wrap wrappers).events) (c.run context forest.events) := by
  have hread := Forest.read_wrap hunknown forest c.frame
  have hwrapped := places_run_events context (forest.wrap wrappers) c
  have hbare := places_run_events context forest c
  rw [hread] at hwrapped
  refine ⟨hwrapped.view.trans hbare.view.symm, ?_⟩
  rw [hwrapped.value, hbare.value]
  refine ⟨?_, congrArg Prod.snd hread, rfl, rfl⟩
  exact (ScopeStack.similar_attachAll _ hparent).trans
    (ScopeStack.similar_attachAll _ hparent).symm

/-! ## Pages -/

namespace Page

/-- **Unknown elements are transparent.** On any page, elements of unknown names around a run of
siblings, whose parent is the page, a canvas or an unknown element, change nothing, to any depth and
with any attributes: the same is painted and the same characters are placed, in the same order, and
the fonts, the painting state and the frame of the text are the same, right behind the run and
behind all that follows. -/
theorem wrap_transparent (context : PageContext) (base : Transform) (fonts : FontCache σ)
    (forest : Forest) {before : List MarkupEvent} (after : List MarkupEvent)
    (hparent : ∀ o ∈ (opened before).head?, o.kind.isContainer)
    (hunknown : ∀ w ∈ wrappers, ElementKind.ofName w.1 = .unknown) :
    let page (body : Forest) := before ++ body.events ++ after
    let painted (body : Forest) := (painter base fonts).run context (page body)
    let read (body : Forest) := TextCollector.run context { fonts } (page body)
    let wrapped := forest.wrap wrappers
    ((painted wrapped).paintCalls = (painted forest).paintCalls ∧
        (painted wrapped).value.state = (painted forest).value.state ∧
        (painted wrapped).value.fonts = (painted forest).value.fonts) ∧
      (read wrapped).placed = (read forest).placed ∧
        (read wrapped).value.frame = (read forest).value.frame ∧
        (read wrapped).value.fonts = (read forest).value.fonts := by
  intro page painted read wrapped
  obtain ⟨hpainter, hcollector⟩ := savesExactly context base fonts before
  have hpainted := Follower.agree_of_span (Painter.keepsScopes_follower context)
    (Painter.sideBySide_follower context (FontCache.resolves_eq _))
    (Painter.agree_wrap hunknown context forest (hpainter.isContainer_head hparent)) after
  have hread := Follower.agree_of_span (TextCollector.keepsScopes_follower context)
    (TextCollector.sideBySide_follower context (FontCache.resolves_eq _))
    (TextCollector.agree_wrap hunknown context forest (hcollector.isContainer_head hparent)) after
  exact ⟨⟨hpainted.view, hpainted.value.others.state, hpainted.value.others.fonts⟩, hread.view,
    hread.value.others.frame, hread.value.others.fonts⟩

/-- Two elements around a transform and a square, in a canvas with another square behind them. -/
theorem wrap_transparent_movedSquares :
    let square : Attributes := .ofList [("Data", "M0,0 H4 V4 H0 Z"), ("Fill", "#FF0000")]
    let moved : Forest :=
      .cons "Canvas.RenderTransform" {}
        (.cons "MatrixTransform" (.ofList [("Matrix", "1,0,0,1,4,4")]) .nil .nil)
        (.cons "Path" square .nil .nil)
    let before : List MarkupEvent := [.document, .start "FixedPage" {}, .start "Canvas" {}]
    let after : List MarkupEvent :=
      [.start "Path" square, .stop "Path", .stop "Canvas", .stop "FixedPage"]
    let wrappers : List (String × Attributes) :=
      [("Group", {}), ("Layer", .ofList [("Opacity", "0")])]
    let fonts : FontCache FontDatabase := ⟨{}, []⟩
    let painted (body : Forest) :=
      (painter .identity fonts).run glyphsContext (before ++ body.events ++ after)
    (∀ o ∈ (opened before).head?, o.kind.isContainer) ∧
      (∀ w ∈ wrappers, ElementKind.ofName w.1 = .unknown) ∧
      (painted moved).paintCalls.length = 2 ∧
      (painted (moved.wrap wrappers)).paintCalls = (painted moved).paintCalls := by
  intro square moved before after wrappers fonts painted
  have hparent : ∀ o ∈ (opened before).head?, o.kind.isContainer := by
    rintro o ⟨⟩
    rfl
  have hunknown : ∀ w ∈ wrappers, ElementKind.ofName w.1 = .unknown := by decide
  exact ⟨hparent, hunknown, by decide +kernel,
    (wrap_transparent glyphsContext .identity fonts moved after hparent hunknown).1.1⟩

end Page

end Xps
