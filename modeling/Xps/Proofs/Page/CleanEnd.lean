import Mathlib.Data.List.Induction
import Xps.Proofs.Markup.WellNested
import Xps.Proofs.Page.SavedStates

/-!
# Clean ends

The events of a text nest (`Markup.nests_events`), so nothing that follows them ever sees an end
that closes another element or none. It says nothing about nesting, and if the text has no error,
then nothing is left open or saved at its end.

The reader of the markup, the stream of events and the follower each keep a stack of open elements.
The stream lists the names that the reader has in full (`MarkupReader.unclosed_openNames`). What the
events have left open stands between these two and the follower: the reader keeps their names
(`MarkupReader.Keeps`), and the follower keeps their tags (`Follower.Tracks`).
-/

namespace Xps

namespace Follower

variable {α S : Type} {v : Follower α S} {a : α}

/-- Nothing is open, and no state is saved. -/
structure Rests (v : Follower α S) (a : α) : Prop where
  nodes : (v.scopes a).nodes = []
  saved : v.saved a = []

/-- The end of the innermost element is quiet if processing the element is. -/
theorem Scoped.quiet_stop (hv : v.Scoped) {n : Node} {nodes : List Node}
    (h : (v.scopes a).nodes = n :: nodes) (hquiet : (v.process (v.withScopes a ⟨nodes⟩) n).Quiet) :
    (v.step a (.stop n.name)).Quiet := by
  have hpop : (v.scopes a).pop n.name = pure (some n, ⟨nodes⟩) := by
    unfold ScopeStack.pop
    rw [h]
    dsimp only
    rw [if_neg (not_not_intro rfl)]
  rw [hv.stop]
  unfold Follower.stop
  rw [hpop]
  exact Journaled.quiet_bind.2 ⟨Journaled.quiet_pure _,
    Journaled.quiet_bind.2 ⟨hquiet, Journaled.quiet_pure _⟩⟩

namespace Tracks

variable {past : List MarkupEvent}

/-- The end of an open element under its own name is quiet. -/
theorem quiet_stop (hv : v.Scoped) (h : v.Tracks a past) {name : String}
    (hname : (opened past).head?.map OpenElement.name = some name) :
    (v.step (v.after a past) (.stop name)).Quiet := by
  obtain ⟨o, outer, hopened, rfl⟩ : ∃ o outer, opened past = o :: outer ∧ o.name = name := by
    cases hopened : opened past with
    | nil => rw [hopened] at hname; cases hname
    | cons o outer => rw [hopened] at hname; exact ⟨o, outer, rfl, Option.some.inj hname⟩
  have htags := h.tags
  rw [hopened, List.map_cons] at htags
  obtain ⟨n, nodes, hnodes, htag, -⟩ := List.map_eq_cons_iff.1 htags
  have hn : n.name = o.name := congrArg Prod.fst htag
  have hkind : n.kind = o.kind := congrArg ElementKind.ofName hn
  rw [← hn]
  refine hv.quiet_stop hnodes ?_
  cases hsaves : v.saves n.kind with
  | false => exact (hv.processOther _ n hsaves).2.2
  | true =>
    -- The element saved a state at its start, and this is still there.
    have hsaved := h.saved
    rw [hopened, List.filter_cons_of_pos (by rw [← hkind, hsaves]), List.map_cons] at hsaved
    exact (hv.processScope _ n hsaves ((hv.saved_withScopes _ _).trans hsaved)).2.2.2

/-- If the events leave nothing open, then nothing is open or saved. -/
theorem rests (h : v.Tracks a past) (hopened : opened past = []) : v.Rests (v.after a past) := by
  have htags := h.tags
  have hsaved := h.saved
  rw [hopened] at htags hsaved
  exact ⟨List.map_eq_nil_iff.1 htags, hsaved⟩

end Tracks

/-- Events that are well nested are followed quietly. -/
theorem Scoped.quiet_run (hv : v.Scoped) (hscopes : v.scopes a = {}) (hsaved : v.saved a = [])
    {events : List MarkupEvent} (h : WellNested events) : (v.run a events).Quiet := by
  induction events using List.reverseRecOn with
  | nil => exact Journaled.quiet_pure a
  | append_singleton past e ih =>
    have hpast : v.Tracks a past := (hv.savesExactly_of_fresh hscopes hsaved past).toTracks
    rw [run_concat]
    refine Journaled.quiet_bind.2 ⟨ih (h.of_prefix (List.prefix_append _ _)), ?_⟩
    cases e with
    | document =>
      rw [hv.document]
      exact Journaled.quiet_pure _
    | start name attributes => exact (hv.start _ name attributes).2.2
    | stop name => exact hpast.quiet_stop hv (h past name List.prefix_rfl)

end Follower

/-! ## Pages -/

namespace Page

variable {σ : Type} [FontProvider σ]

theorem quiet_paintMarkup {text : String} {context : PageContext} {base : Transform}
    {fonts : FontCache σ}
    (h : ((painter base fonts).run context (Markup.events text).1).Quiet) :
    (paintMarkup text context base fonts).Quiet := by
  unfold paintMarkup
  rcases hevents : Markup.events text with ⟨events, _ | e⟩ <;> rw [hevents] at h <;> simpa using h

/-- **Pages nest, and end clean.** In the events of a text, each end closes the innermost open
element and has its name, whether or not an error ends them. Nothing is open behind a text without
an error, and an error comes behind the events of all pieces in front of it. Whoever paints the text
or collects it says nothing about nesting, and has nothing open or saved behind a text without an
error. -/
theorem nests_and_ends_clean (text : String) (context : PageContext) (base : Transform)
    (fonts : FontCache σ) :
    let (events, error) := Markup.events text
    Markup.Nests text events error ∧
      (paintMarkup text context base fonts).Quiet ∧ (extractMarkup text context fonts).Quiet ∧
      (error = none →
        (Painter.follower context).Rests ((painter base fonts).run context events).value ∧
        (TextCollector.follower context).Rests
          (TextCollector.run context { fonts } events).value) := by
  have hnests := Markup.nests_events text
  have hsaves := savesExactly context base fonts (Markup.events text).1
  have hpaint : ((painter base fonts).run context (Markup.events text).1).Quiet :=
    (Painter.scoped_follower context).quiet_run rfl rfl hnests.wellNested
  have hextract : (TextCollector.run context { fonts } (Markup.events text).1).Quiet :=
    (TextCollector.scoped_follower context).quiet_run rfl rfl hnests.wellNested
  exact ⟨hnests, quiet_paintMarkup hpaint, hextract, fun h =>
    ⟨hsaves.1.rests (hnests.closed h), hsaves.2.rests (hnests.closed h)⟩⟩

end Page

end Xps
