import Mathlib.Data.List.Forall2
import Xps.Proofs.Page.TextPlacement

/-!
# Glyphs and their boxes

The painter goes along the glyphs of a run and the collector along its characters, each with a sum
of advances of its own. Where the font sets each character as one glyph that is as wide
(`FontProvider.SetsEach`), both sums are the same at every character: a glyph is placed where the
box of its character begins, and that box ends where the next one begins
(`TextCollector.glyphs_begin_boxes`).

A font without metrics has neither glyphs nor boxes, so that a box for each character takes metrics
(`TextCollector.no_box_without_metrics`).
-/

namespace Xps

variable {σ : Type} [FontProvider σ]

namespace FontProvider

/-- A glyph that is as wide as the character. -/
def Sets (provider : σ) (id : FontId) (c : Char) (glyph : ShapedGlyph) : Prop :=
  Single.ofInt glyph.advance.toInt = (advance provider id c).getD 0

/-- The font sets each character of the text as one glyph, in their order. -/
def SetsEach (provider : σ) (id : FontId) (text : String) : Prop :=
  List.Forall₂ (Sets provider id) text.toList (shape provider id text)

end FontProvider

open FontProvider (Sets SetsEach)

/-! ## Glyphs -/

namespace Painter

/-- Where the pen stands in front of a glyph, whether or not the glyphs before it have outlines. -/
def penAt (scale x : Float32) (glyphs : List ShapedGlyph) (i : Nat) : Float32 :=
  (glyphs.take i).foldl (advance scale) x

theorem penAt_succ (scale x : Float32) {glyphs : List ShapedGlyph} {i : Nat}
    (h : i < glyphs.length) :
    penAt scale x glyphs (i + 1) = advance scale (penAt scale x glyphs i) glyphs[i] := by
  unfold penAt
  rw [List.take_succ_eq_append_getElem h, List.foldl_append]
  rfl

/-- The outline of a glyph in front of which the pen stands at `x`. -/
def glyphAt (provider : σ) (id : FontId) (scale y x : Float32) (glyph : ShapedGlyph) :
    List OutlineStep :=
  (((FontProvider.outline provider id glyph.glyph).bind
    (Outline.transform? (glyphTransform scale x y glyph))).map Outline.steps).getD []

theorem glyphSteps_eq (provider : σ) (id : FontId) (scale y x : Float32)
    (glyphs : List ShapedGlyph) :
    glyphSteps provider id scale y x glyphs =
      (glyphs.mapIdx fun i glyph =>
        glyphAt provider id scale y (penAt scale x glyphs i) glyph).flatten := by
  induction glyphs generalizing x with
  | nil => rfl
  | cons glyph glyphs ih =>
    rw [glyphSteps, ih, List.mapIdx_cons, List.flatten_cons]
    rfl

end Painter

open Painter (penAt)

/-! ## Boxes -/

namespace TextCollector

/-- The characters of a run, each in the box from its glyph to the next one. -/
def penBoxes (height scale x y : Float32) (text : List Char) (glyphs : List ShapedGlyph) :
    List PlacedChar :=
  text.mapIdx fun i c =>
    ⟨c, penAt scale x glyphs i, y - height, penAt scale x glyphs (i + 1), y⟩

section

variable (height scale x y : Float32) (text : List Char) (glyphs : List ShapedGlyph)

theorem characters_penBoxes :
    (penBoxes height scale x y text glyphs).map PlacedChar.character = text := by
  refine List.ext_getElem? fun i => ?_
  unfold penBoxes
  rw [List.getElem?_map, List.getElem?_mapIdx, Option.map_map]
  exact congrFun Option.map_id _

theorem length_penBoxes : (penBoxes height scale x y text glyphs).length = text.length :=
  List.length_mapIdx

theorem box_penBoxes {i : Nat} (h : i < (penBoxes height scale x y text glyphs).length) :
    (penBoxes height scale x y text glyphs)[i].box =
      ⟨penAt scale x glyphs i, y - height, penAt scale x glyphs (i + 1), y⟩ := by
  simp only [penBoxes, List.getElem_mapIdx]

end

theorem zipWith_boxes_eq_penBoxes {provider : σ} {font : Font} {text : List Char}
    {glyphs : List ShapedGlyph} (h : List.Forall₂ (Sets provider font.id) text glyphs)
    (height scale x y : Float32) :
    text.zipWith PlacedChar.mk (boxes height y x (advances provider font scale text)) =
      penBoxes height scale x y text glyphs := by
  -- Both loops go one character on, from the same point to the same point.
  induction h generalizing x with
  | nil => rfl
  | @cons c glyph text glyphs hwidth _ ih =>
    have hnext : x + (FontProvider.advance provider font.id c).getD 0 * scale =
        Painter.advance scale x glyph := by
      unfold Painter.advance
      rw [hwidth]
    have hrest := ih (Painter.advance scale x glyph)
    unfold advances penBoxes at hrest ⊢
    rw [List.map_cons, boxes, List.zipWith_cons_cons, List.mapIdx_cons, hnext, hrest]
    rfl

/-- **Glyphs are placed where their boxes begin.** If the font sets each character as one glyph that
is as wide, and has metrics, the outlines of the glyphs are placed at the pen, which each glyph
moves on by its width. There is one box for each character, it begins at the pen of the glyph, and
it ends where the next one begins. A font without metrics places neither outlines nor boxes. What is
placed on the page are these boxes as the frame maps them. -/
theorem glyphs_begin_boxes (provider : σ) (font : Font) (origin : Point) (text : String)
    (h : SetsEach provider font.id text) :
    let glyphs := FontProvider.shape provider font.id text
    (FontProvider.metrics provider font.id = none →
      Painter.textOutline? provider font origin text = none ∧
        line? provider font origin text = none) ∧
    (∀ metrics, FontProvider.metrics provider font.id = some metrics →
      let scale := metrics.scale font.size
      let pen := penAt scale origin.x glyphs
      Painter.textOutline? provider font origin text =
          Outline.ofSteps? (glyphs.mapIdx fun i glyph =>
            Painter.glyphAt provider font.id scale origin.y (pen i) glyph).flatten ∧
        (∀ i (h : i < glyphs.length),
          pen (i + 1) = pen i + Single.ofInt glyphs[i].advance.toInt * scale) ∧
        ∃ row, line? provider font origin text = some row ∧
          row.map PlacedChar.character = text.toList ∧ row.length = glyphs.length ∧
          (∀ i (h : i < row.length),
            row[i].box.left = pen i ∧ row[i].box.right = pen (i + 1)) ∧
          ∀ i (h : i + 1 < row.length), row[i].box.right = row[i + 1].box.left) ∧
    ∀ (frame : Frame) (size : Size) (attributes : Attributes),
      Glyphs.text? attributes = some text → (Glyphs.origin attributes).value = origin →
        (placeText provider font frame size attributes).placed =
          ((line? provider font origin text).getD []).map
            fun c => ⟨c.character, normalize frame.total size c.box⟩ := by
  intro glyphs
  refine ⟨fun hnone => ?_, fun metrics hmetrics => ?_, ?_⟩
  · unfold Painter.textOutline? line?
    rw [hnone]
    exact ⟨rfl, rfl⟩
  · intro scale pen
    have hline : line? provider font origin text =
        some (penBoxes (metrics.height font.size) scale origin.x origin.y text.toList glyphs) := by
      unfold line?
      rw [hmetrics, ← zipWith_boxes_eq_penBoxes h]
      rfl
    have hsteps := Painter.glyphSteps_eq provider font.id scale origin.y origin.x glyphs
    refine ⟨?_, fun i hi => Painter.penAt_succ scale origin.x hi, _, hline,
      characters_penBoxes .., ?_, fun i hi => ?_, fun i hi => ?_⟩
    · unfold Painter.textOutline?
      rw [hmetrics]
      exact congrArg Outline.ofSteps? hsteps
    · rw [length_penBoxes, h.length_eq]
    · rw [box_penBoxes]
      exact ⟨rfl, rfl⟩
    · rw [box_penBoxes, box_penBoxes]
  · rintro frame size attributes htext rfl
    exact placed_placeText_of_text htext provider font frame size

/-- A provider of fonts in which each character is half an em wide and all but spaces are lines. -/
structure FixedPitch where
  metrics : Option FontMetrics

instance : FontProvider FixedPitch where
  load p _ := (some ⟨0⟩, p)
  familyName _ _ := none
  metrics p _ := p.metrics
  advance _ _ _ := some 500
  shape _ _ text := text.toList.mapIdx fun i c => ⟨c.toNat.toUInt16, i, 500, 0, 0⟩
  outline _ _ glyph := if glyph = 32 then none else Outline.ofSteps? [.move .zero, .line ⟨400, 700⟩]

/-- Two letters with a space between them, which moves the pen without an outline. -/
theorem glyphs_begin_boxes_fixedPitch :
    let provider : FixedPitch := ⟨some ⟨1000, 800, -200⟩⟩
    let font : Font := ⟨⟨0⟩, 10⟩
    SetsEach provider font.id "a b" ∧
      Painter.glyphAt provider font.id 1 0 0 ⟨32, 1, 500, 0, 0⟩ = [] ∧
      ∃ row, line? provider font ⟨5, 20⟩ "a b" = some row ∧
        row.map PlacedChar.character = ['a', ' ', 'b'] ∧
        ∃ h : 2 < row.length, row[1].box.right = row[2].box.left ∧ row[2].box.left = 15 := by
  intro provider font
  have hsets : SetsEach provider font.id "a b" :=
    .cons rfl (.cons rfl (.cons rfl .nil))
  obtain ⟨-, hmetrics, -⟩ := glyphs_begin_boxes provider font ⟨5, 20⟩ "a b" hsets
  obtain ⟨-, -, row, hline, hcharacters, hlength, hboxes, hnext⟩ := hmetrics _ rfl
  have htwo : 2 < row.length := by
    rw [hlength]
    decide
  have hpen : penAt (FontMetrics.scale ⟨1000, 800, -200⟩ 10) 5
      (FontProvider.shape provider font.id "a b") 2 = 15 := by
    decide +kernel
  exact ⟨hsets, rfl, row, hline, hcharacters, htwo, hnext 1 htwo, (hboxes 2 htwo).1.trans hpen⟩

/-- A font that sets each character as one glyph has no boxes if it has no metrics. -/
theorem no_box_without_metrics :
    ¬ ∀ (provider : FixedPitch) (font : Font) (frame : Frame) (size : Size)
      (attributes : Attributes) (text : String), SetsEach provider font.id text →
        Glyphs.text? attributes = some text →
          (placeText provider font frame size attributes).placed.length = text.length := by
  intro h
  have hsets : SetsEach (⟨none⟩ : FixedPitch) ⟨0⟩ "a" := .cons rfl .nil
  have htext : Glyphs.text? ⟨[("UnicodeString", "a")]⟩ = some "a" := by decide +kernel
  have size : Size :=
    ⟨100, 100, by decide +kernel, by decide +kernel, by decide +kernel, by decide +kernel⟩
  have hlength := h ⟨none⟩ ⟨⟨0⟩, 10⟩ ⟨.identity, []⟩ size _ "a" hsets htext
  rw [placed_placeText_of_text htext] at hlength
  cases hlength

end TextCollector

end Xps
