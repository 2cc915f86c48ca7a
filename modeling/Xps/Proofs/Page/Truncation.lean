import Xps.Page.Rendering
import Xps.Proofs.Journal.View
import Xps.Proofs.Markup.Online

/-!
# Truncated pages

A page that is cut off somewhere is painted like the beginning of the whole page: its events are a
prefix of the events of the page, and so are its paint calls.
-/

namespace Xps

open Journaled

variable {σ : Type} [FontProvider σ]

theorem Painter.run_append (context : PageContext) (p : Painter σ) (first last : List MarkupEvent) :
    run context p (first ++ last) = run context p first >>= fun p => run context p last :=
  List.foldlM_append

namespace Page

/-- The error that ends a page is reported and paints nothing. -/
theorem paintCalls_paintMarkup (markup : String) (context : PageContext) (base : Transform)
    (fonts : FontCache σ) :
    (paintMarkup markup context base fonts).paintCalls =
      ((painter base fonts).run context (Markup.events markup).1).paintCalls := by
  unfold paintMarkup
  rw [paintCalls_eq_view, paintCalls_eq_view]
  rcases Markup.events markup with ⟨events, _ | e⟩
  · simp
  · simp [note, view_write, Entry.paint?]

theorem paintCalls_renderMarkup (markup : String) (context : PageContext) (fonts : FontCache σ)
    (target : PixelSize) :
    (renderMarkup markup context fonts target).paintCalls =
      if Canvas.fits target then
        (paintMarkup markup context (pageScale context.size target) fonts).paintCalls
      else [] := by
  unfold renderMarkup Canvas.blank?
  cases Canvas.fits target <;> rfl

/-- **Pages are read online.** The events of a page that is cut off are a prefix of the events of the
whole page, and its paint calls are a prefix of the paint calls. -/
theorem events_and_paintCalls_prefix (t u : String) :
    (Markup.events t).1 <+: (Markup.events (t ++ u)).1 ∧
      ∀ (σ : Type) [FontProvider σ] (context : PageContext) (fonts : FontCache σ)
        (target : PixelSize),
        (renderMarkup t context fonts target).paintCalls <+:
          (renderMarkup (t ++ u) context fonts target).paintCalls := by
  have hevents := Markup.events_append t u
  refine ⟨hevents, fun σ _ context fonts target => ?_⟩
  rw [paintCalls_renderMarkup, paintCalls_renderMarkup]
  split
  · obtain ⟨later, hlater⟩ := hevents
    rw [paintCalls_paintMarkup, paintCalls_paintMarkup, ← hlater, Painter.run_append,
      paintCalls_eq_view, paintCalls_eq_view, view_bind]
    exact List.prefix_append _ _
  · exact List.prefix_rfl

end Page

end Xps
