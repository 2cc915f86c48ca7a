import Xps.Page.Rendering
import Xps.Proofs.Font.Recalled
import Xps.Proofs.Journal.Reports
import Xps.Proofs.Page.SavedStates
import Xps.Proofs.Page.SideBySide

/-!
# Pages see the answers for their fonts

Two caches that find fonts of the same answers may have given out other ids and may have loaded
other fonts before (`FontCache.Resolves`). A page is painted with them alike and read with them
alike: whatever the painter or the collector does with a font depends on the answers for it alone
(`FontProvider.sized`). Caches that know the same archive are such caches.
-/

namespace Xps

open FontProvider FontCache Journaled

variable {σ τ : Type} [FontProvider σ] [FontProvider τ]

/-! ## Runs of text -/

section runs

variable {p : σ} {q : τ} {f g : Font}

theorem Painter.glyphSteps_congr {i j : FontId} (h : answers p i = answers q j)
    (scale y : Float32) (glyphs : List ShapedGlyph) (x : Float32) :
    glyphSteps p i scale y x glyphs = glyphSteps q j scale y x glyphs := by
  have houtline : FontProvider.outline p i = FontProvider.outline q j :=
    congrArg FontAnswers.outline h
  induction glyphs generalizing x with
  | nil => rfl
  | cons glyph glyphs ih => rw [glyphSteps, glyphSteps, houtline, ih]

theorem Painter.textOutline?_congr (h : sized p f = sized q g) (origin : Point) (text : String) :
    textOutline? p f origin text = textOutline? q g origin text := by
  obtain ⟨hanswers, hsize⟩ := Prod.mk.inj h
  have hmetrics : FontProvider.metrics p f.id = FontProvider.metrics q g.id :=
    congrArg FontAnswers.metrics hanswers
  have hshape : FontProvider.shape p f.id = FontProvider.shape q g.id :=
    congrArg FontAnswers.shape hanswers
  unfold textOutline?
  simp only [hmetrics, hshape, hsize, glyphSteps_congr hanswers]

theorem TextCollector.line?_congr (h : sized p f = sized q g) (origin : Point) (text : String) :
    line? p f origin text = line? q g origin text := by
  obtain ⟨hanswers, hsize⟩ := Prod.mk.inj h
  have hmetrics : FontProvider.metrics p f.id = FontProvider.metrics q g.id :=
    congrArg FontAnswers.metrics hanswers
  have hadvance : FontProvider.advance p f.id = FontProvider.advance q g.id :=
    congrArg FontAnswers.advance hanswers
  unfold line? advances
  simp only [hmetrics, hadvance, hsize]

end runs

/-! ## The font of a run -/

variable {R : FontCache σ → FontCache τ → Prop}

/-- Two fonts with the caches they come from have the same answers and size. -/
structure FontsAlike (R : FontCache σ → FontCache τ → Prop) (x : Option Font × FontCache σ)
    (y : Option Font × FontCache τ) : Prop where
  caches : R x.2 y.2
  sized : x.1.map (sized x.2.provider) = y.1.map (sized y.2.provider)

/-- Related caches find the same fonts in an archive, and are still related then. -/
def FontCache.Resolves (archive : Archive) (R : FontCache σ → FontCache τ → Prop) : Prop :=
  ∀ {c d}, R c d → ∀ (name : String) (size : Float32),
    FontsAlike R (c.resolve archive name size).value (d.resolve archive name size).value

/-- A view in which looking for a font does not show. -/
def HidesFonts {V : Type} (view : Entry → Option V) : Prop :=
  ∀ part e, Entry.OfFont part e → view e = none

theorem hidesFonts_paint : HidesFonts Entry.paint? := by
  intro part e he
  cases e with
  | paint call => cases he
  | _ => rfl

theorem hidesFonts_place : HidesFonts Entry.place? := by
  intro part e he
  cases e with
  | place character => cases he
  | _ => rfl

theorem Glyphs.agree_font {V : Type} {view : Entry → Option V} (hview : HidesFonts view)
    (attributes : Attributes) (context : PageContext) (hR : Resolves context.archive R)
    {c : FontCache σ} {d : FontCache τ} (h : R c d) :
    Agree view (FontsAlike R) (font attributes context c) (font attributes context d) := by
  have hnone {ρ : Type} [FontProvider ρ] (fonts : FontCache ρ) :
      (font attributes context fonts).view view = [] := by
    refine List.filterMap_eq_nil_iff.2 fun e he => ?_
    obtain ⟨reference, he⟩ := ofFont_font attributes context fonts e he
    exact hview _ e he
  refine ⟨(hnone c).trans (hnone d).symm, ?_⟩
  unfold font
  simp only [value_bind, value_noteNone]
  cases attributes.get? "FontUri" with
  | none => exact ⟨h, rfl⟩
  | some uri =>
    simp only [value_bind, value_noteNone]
    cases (attributes.number? "FontRenderingEmSize").value.filter (0 < ·) with
    | none => exact ⟨h, rfl⟩
    | some size =>
      simp only [value_bind, value_noteNone, value_pure]
      exact hR h (PartName.resolve context.partName uri) size

/-! ## Painting -/

namespace Painter

theorem paintText_congr {p : σ} {q : τ} {f g : Font} (h : sized p f = sized q g)
    (state : PaintState) (context : PageContext) (n : Node) :
    paintText state context p f n = paintText state context q g n := by
  unfold paintText
  simp only [textOutline?_congr h]

theorem agree_paintGlyphs {state state' : PaintState} (hstate : state = state')
    (context : PageContext) (hR : Resolves context.archive R) {c : FontCache σ} {d : FontCache τ}
    (h : R c d) (n : Node) :
    Agree Entry.paint? (fun x y => x.1 = y.1 ∧ R x.2 y.2) (paintGlyphs state context c n)
      (paintGlyphs state' context d n) := by
  subst hstate
  unfold paintGlyphs
  refine (Glyphs.agree_font hidesFonts_paint n.attributes context hR h).bind ?_
  rintro ⟨f, c⟩ ⟨g, d⟩ ⟨hcaches, hsized⟩
  cases f with
  | none =>
    cases g with
    | none => exact .pure ⟨rfl, hcaches⟩
    | some g => cases hsized
  | some f =>
    cases g with
    | none => cases hsized
    | some g =>
      dsimp only
      rw [paintText_congr (Option.some.inj hsized)]
      exact .bind_left _ fun n => .pure ⟨rfl, hcaches⟩

/-- Two painters differ in their open elements and in their fonts at most. -/
structure Alike (R : FontCache σ → FontCache τ → Prop) (p : Painter σ) (q : Painter τ) : Prop where
  state : p.state = q.state
  saved : p.saved = q.saved
  fonts : R p.fonts q.fonts

section

omit [FontProvider σ] [FontProvider τ]

theorem agree_restore {p : Painter σ} {q : Painter τ} (h : Alike R p q) :
    Agree Entry.paint? (Alike R) p.restore q.restore := by
  unfold restore
  rw [h.saved]
  cases q.saved with
  | nil => exact .bind_left _ fun _ => .pure h
  | cons state saved => exact .pure ⟨rfl, rfl, h.fonts⟩

theorem agree_leave {p : Painter σ} {q : Painter τ} (h : Alike R p q) (name : String) :
    Agree Entry.paint? (Alike R) (p.leave name) (q.leave name) := by
  unfold leave
  split
  · exact agree_restore h
  · exact .pure h

theorem agree_enterCanvas {p : Painter σ} {q : Painter τ} (h : Alike R p q)
    (attributes : Attributes) :
    Agree Entry.paint? (Alike R) (p.enterCanvas attributes) (q.enterCanvas attributes) := by
  unfold enterCanvas
  rw [h.state]
  exact .bind_left _ fun _ => .bind_left _ fun _ => .pure ⟨rfl, h.saved, h.fonts⟩

theorem agree_start {p : Painter σ} {q : Painter τ} (h : Alike R p q) (name : String)
    (attributes : Attributes) :
    Agree Entry.paint? (Alike R) (p.start name attributes) (q.start name attributes) := by
  have hsave : Alike R (if (ElementKind.ofName name).isScope then p.save else p)
      (if (ElementKind.ofName name).isScope then q.save else q) := by
    split
    · exact ⟨h.state, congr (congrArg List.cons h.state) h.saved, h.fonts⟩
    · exact h
  have hpush {p : Painter σ} {q : Painter τ} (h : Alike R p q) :
      Agree Entry.paint? (Alike R) (pure { p with scopes := p.scopes.push name attributes })
        (pure { q with scopes := q.scopes.push name attributes }) :=
    .pure ⟨h.state, h.saved, h.fonts⟩
  unfold start
  dsimp only
  split
  · exact (agree_enterCanvas hsave attributes).bind fun _ _ h => hpush h
  · exact hpush hsave

end

/-- What the end of an element does to painters that are alike. -/
theorem agree_process (context : PageContext) (hR : Resolves context.archive R) {p : Painter σ}
    {q : Painter τ} (h : Alike R p q) (n : Node) :
    Agree Entry.paint? (fun x y => x.1 = y.1 ∧ Alike R x.2 y.2) (process context p n)
      (process context q n) := by
  have hrestore {p : Painter σ} {q : Painter τ} (h : Alike R p q) (n : Node) :
      Agree Entry.paint? (fun x y => x.1 = y.1 ∧ Alike R x.2 y.2) (do return (n, ← p.restore))
        (do return (n, ← q.restore)) :=
    (agree_restore h).bind fun _ _ h => .pure ⟨rfl, h⟩
  unfold process
  split
  case h_1 => exact hrestore h n
  case h_2 =>
    rw [h.state]
    exact .bind_left _ fun n => hrestore h n
  case h_3 =>
    refine (agree_paintGlyphs h.state context hR h.fonts n).bind ?_
    rintro ⟨n, c⟩ ⟨_, d⟩ ⟨rfl, hfonts⟩
    exact hrestore (p := { p with fonts := c }) (q := { q with fonts := d })
      ⟨h.state, h.saved, hfonts⟩ n
  case h_4 | h_5 | h_6 =>
    refine .bind_left _ ?_
    rintro ⟨_ | t, n⟩
    · exact .pure ⟨rfl, h⟩
    · refine .pure ⟨rfl, ?_, h.saved, h.fonts⟩
      unfold compose
      rw [h.state]
  case h_14 | h_15 => exact .pure ⟨rfl, h⟩
  -- Brushes and matrices are computed without any font.
  all_goals exact .bind_left _ fun _ => .pure ⟨rfl, h⟩

/-- The end of a container has no use for its children. -/
theorem process_container (context : PageContext) (p : Painter σ) {n : Node}
    (hn : n.kind.isContainer) : process context p n = (n, ·) <$> p.leave n.name := by
  have hleave : p.leave n.name = if n.kind.isScope then p.restore else pure p := rfl
  rw [hleave]
  unfold process
  cases hk : n.kind <;> rw [hk] at hn <;> first | rfl | cases hn

theorem sideBySide_follower (context : PageContext) (hR : Resolves context.archive R) :
    (follower context).SideBySide (follower context) Entry.paint? (Alike R) where
  withScopes h _ _ := ⟨h.state, h.saved, h.fonts⟩
  start h name attributes := agree_start h name attributes
  process {p q} h _ _ hnode :=
    Follower.agree_of_seen (leave · p) (leave · q) (process_container context p)
      (process_container context q) (agree_leave h) (agree_process context hR h) hnode

theorem keepsScopes_follower (context : PageContext) :
    (follower (σ := σ) context).KeepsScopes where
  toScoped := scoped_follower context
  scopes_start p name attributes :=
    congrArg (fun x : Journaled (Painter σ) => x.value.scopes) (start_eq p name attributes)
  scopes_process := scopes_process context

end Painter

/-! ## Reading -/

namespace TextCollector

theorem placeText_congr {p : σ} {q : τ} {f g : Font} (h : sized p f = sized q g) (frame : Frame)
    (size : Size) (attributes : Attributes) :
    placeText p f frame size attributes = placeText q g frame size attributes := by
  unfold placeText
  simp only [line?_congr h]

theorem agree_placeGlyphs {frame frame' : Frame} (hframe : frame = frame') (context : PageContext)
    (hR : Resolves context.archive R) {c : FontCache σ} {d : FontCache τ} (h : R c d)
    (attributes : Attributes) :
    Agree Entry.place? R (placeGlyphs frame context c attributes)
      (placeGlyphs frame' context d attributes) := by
  subst hframe
  unfold placeGlyphs
  refine (Glyphs.agree_font hidesFonts_place attributes context hR h).bind ?_
  rintro ⟨f, c⟩ ⟨g, d⟩ ⟨hcaches, hsized⟩
  cases f with
  | none =>
    cases g with
    | none => exact .bind_left _ fun _ => .pure hcaches
    | some g => cases hsized
  | some f =>
    cases g with
    | none => cases hsized
    | some g =>
      dsimp only
      rw [placeText_congr (Option.some.inj hsized)]
      exact .bind_left _ fun _ => .pure hcaches

/-- Two collectors differ in their open elements and in their fonts at most. -/
structure Alike (R : FontCache σ → FontCache τ → Prop) (c : TextCollector σ)
    (d : TextCollector τ) : Prop where
  frame : c.frame = d.frame
  saved : c.saved = d.saved
  fonts : R c.fonts d.fonts

section

omit [FontProvider σ] [FontProvider τ]

theorem Alike.save {c : TextCollector σ} {d : TextCollector τ} (h : Alike R c d) :
    Alike R c.save d.save :=
  ⟨h.frame, congr (congrArg List.cons h.frame) h.saved, h.fonts⟩

theorem Alike.compose {c : TextCollector σ} {d : TextCollector τ} (h : Alike R c d)
    (t : Transform) : Alike R (c.compose t) (d.compose t) :=
  ⟨congrArg (Frame.compose · t) h.frame, h.saved, h.fonts⟩

theorem agree_restore {c : TextCollector σ} {d : TextCollector τ} (h : Alike R c d) :
    Agree Entry.place? (Alike R) c.restore d.restore := by
  unfold restore
  rw [h.saved]
  cases d.saved with
  | nil => exact .bind_left _ fun _ => .pure h
  | cons frame saved => exact .pure ⟨rfl, rfl, h.fonts⟩

/-- Gives the innermost saved frame back at the end of an element that asks for it. -/
def giveBack (name : String) (c : TextCollector σ) : Journaled (TextCollector σ) :=
  if savesFrame (.ofName name) then c.restore else pure c

theorem agree_giveBack {c : TextCollector σ} {d : TextCollector τ} (h : Alike R c d)
    (name : String) : Agree Entry.place? (Alike R) (c.giveBack name) (d.giveBack name) := by
  unfold giveBack
  split
  · exact agree_restore h
  · exact .pure h

theorem agree_composeAttribute {c : TextCollector σ} {d : TextCollector τ} (h : Alike R c d)
    (attributes : Attributes) :
    Agree Entry.place? (Alike R) (c.composeAttribute attributes)
      (d.composeAttribute attributes) := by
  unfold composeAttribute
  split
  · exact .bind_left _ fun t => .pure (h.compose t)
  · exact .pure h

theorem agree_start {c : TextCollector σ} {d : TextCollector τ} (h : Alike R c d) (name : String)
    (attributes : Attributes) :
    Agree Entry.place? (Alike R) (c.start name attributes) (d.start name attributes) := by
  have hopen : Alike R { c with scopes := c.scopes.push name attributes }
      { d with scopes := d.scopes.push name attributes } := ⟨h.frame, h.saved, h.fonts⟩
  unfold start
  split
  · exact agree_composeAttribute hopen.save attributes
  · exact .pure hopen.save
  · exact .pure hopen

end

/-- What the end of an element does to collectors that are alike. -/
theorem agree_process (context : PageContext) (hR : Resolves context.archive R)
    {c : TextCollector σ} {d : TextCollector τ} (h : Alike R c d) (n : Node) :
    Agree Entry.place? (fun x y => x.1 = y.1 ∧ Alike R x.2 y.2) (process context c n)
      (process context d n) := by
  unfold process
  split
  case h_1 => exact (agree_restore h).bind fun _ _ h => .pure ⟨rfl, h⟩
  case h_2 =>
    refine (agree_composeAttribute h n.attributes).bind fun c d h => ?_
    refine (agree_placeGlyphs h.frame context hR h.fonts n.attributes).bind fun c' d' hfonts => ?_
    have hnext : Alike R { c with fonts := c' } { d with fonts := d' } :=
      ⟨h.frame, h.saved, hfonts⟩
    exact (agree_restore hnext).bind fun _ _ h => .pure ⟨rfl, h⟩
  case h_3 | h_4 =>
    refine .bind_left _ ?_
    rintro ⟨_ | t, n⟩
    · exact .pure ⟨rfl, h⟩
    · exact .pure ⟨rfl, h.compose t⟩
  case h_5 => exact .bind_left _ fun _ => .pure ⟨rfl, h⟩
  case h_6 => exact .pure ⟨rfl, h⟩

/-- The end of a container has no use for its children. -/
theorem process_container (context : PageContext) (c : TextCollector σ) {n : Node}
    (hn : n.kind.isContainer) : process context c n = (n, ·) <$> c.giveBack n.name := by
  have hgiven : c.giveBack n.name = if savesFrame n.kind then c.restore else pure c := rfl
  rw [hgiven]
  unfold process
  cases hk : n.kind <;> rw [hk] at hn <;> first | rfl | cases hn

theorem sideBySide_follower (context : PageContext) (hR : Resolves context.archive R) :
    (follower context).SideBySide (follower context) Entry.place? (Alike R) where
  withScopes h _ _ := ⟨h.frame, h.saved, h.fonts⟩
  start h name attributes := agree_start h name attributes
  process {c d} h _ _ hnode :=
    Follower.agree_of_seen (giveBack · c) (giveBack · d) (process_container context c)
      (process_container context d) (agree_giveBack h) (agree_process context hR h) hnode

theorem keepsScopes_follower (context : PageContext) :
    (follower (σ := σ) context).KeepsScopes where
  toScoped := scoped_follower context
  scopes_start c name attributes := congrArg scopes (value_start c name attributes)
  scopes_process := scopes_process context

end TextCollector

/-! ## Pages -/

variable {answersOf : ByteArray → Option FontAnswers} {archive : Archive}

/-- Two caches know the same archive. -/
structure FontCache.Alike (answersOf : ByteArray → Option FontAnswers) (archive : Archive)
    (c : FontCache σ) (d : FontCache τ) : Prop where
  left : Knows answersOf archive c
  right : Knows answersOf archive d

/-- Two results are the same, and the caches that come with them know the same archive. -/
def ResultsAlike {ρ : Type} (answersOf : ByteArray → Option FontAnswers) (archive : Archive)
    (x : ρ × FontCache σ) (y : ρ × FontCache τ) : Prop :=
  x.1 = y.1 ∧ FontCache.Alike answersOf archive x.2 y.2

/-- Caches that recall the same fonts find the same fonts. -/
theorem FontCache.resolves_recalls (font : String → Option FontAnswers) :
    Resolves archive (RecallAlike (σ := σ) (τ := τ) answersOf archive font) :=
  fun ⟨hc, hd⟩ name size => ⟨⟨hc.resolve name size, hd.resolve name size⟩,
    (hc.sized_resolve name size).trans (hd.sized_resolve name size).symm⟩

theorem FontCache.resolves_alike :
    Resolves archive (Alike (σ := σ) (τ := τ) answersOf archive) := by
  intro c d h name size
  have hrecalls := And.intro (knows_iff_recalls.1 h.left) (knows_iff_recalls.1 h.right)
  obtain ⟨⟨hc, hd⟩, hsized⟩ := resolves_recalls _ hrecalls name size
  exact ⟨⟨knows_iff_recalls.2 hc, knows_iff_recalls.2 hd⟩, hsized⟩

namespace Page

theorem agree_paintMarkup (markup : String) (context : PageContext) (base : Transform)
    {c : FontCache σ} {d : FontCache τ} (h : FontCache.Alike answersOf context.archive c d) :
    Agree Entry.paint? (FontCache.Alike answersOf context.archive)
      (paintMarkup markup context base c) (paintMarkup markup context base d) := by
  have hstart : (Painter.follower context).InStep (Painter.follower context)
      (Painter.Alike (FontCache.Alike answersOf context.archive)) (painter base c)
      (painter base d) := ⟨.refl _, rfl, rfl, h⟩
  have hrun := Follower.agree_run (Painter.keepsScopes_follower context)
    (Painter.keepsScopes_follower context) (Painter.sideBySide_follower context resolves_alike)
    hstart (Markup.events markup).1
  unfold paintMarkup
  refine Agree.bind hrun fun p q h => ?_
  split
  · exact .bind_left _ fun _ => .pure h.others.fonts
  · exact .pure h.others.fonts

theorem renderMarkup_alike (markup : String) (context : PageContext) {c : FontCache σ}
    {d : FontCache τ} (h : FontCache.Alike answersOf context.archive c d) (target : PixelSize) :
    ResultsAlike answersOf context.archive (renderMarkup markup context c target).value
      (renderMarkup markup context d target).value := by
  unfold renderMarkup
  cases Canvas.blank? target context.options.background with
  | none => exact ⟨rfl, h⟩
  | some canvas =>
    have hpaint := agree_paintMarkup markup context (pageScale context.size target) h
    refine ⟨congrArg some ?_, hpaint.value⟩
    unfold Canvas.paint
    exact congrArg (fun calls => { canvas with calls := canvas.calls ++ calls }) hpaint.view

theorem extractMarkup_alike (markup : String) (context : PageContext) {c : FontCache σ}
    {d : FontCache τ} (h : FontCache.Alike answersOf context.archive c d) :
    ResultsAlike answersOf context.archive (extractMarkup markup context c).value
      (extractMarkup markup context d).value := by
  have hstart : (TextCollector.follower context).InStep (TextCollector.follower context)
      (TextCollector.Alike (FontCache.Alike answersOf context.archive))
      ({ fonts := c } : TextCollector σ) ({ fonts := d } : TextCollector τ) :=
    ⟨.refl _, rfl, rfl, h⟩
  have hrun := Follower.agree_run (TextCollector.keepsScopes_follower context)
    (TextCollector.keepsScopes_follower context)
    (TextCollector.sideBySide_follower context resolves_alike) hstart (Markup.events markup).1
  unfold extractMarkup
  rcases hevents : Markup.events markup with ⟨events, error⟩
  rw [hevents] at hrun
  refine ⟨?_, hrun.value.others.fonts⟩
  cases error with
  | some e => rfl
  | none => exact congrArg (fun placed => Except.ok (⟨placed⟩ : TextLayout)) hrun.view

end Page

end Xps
