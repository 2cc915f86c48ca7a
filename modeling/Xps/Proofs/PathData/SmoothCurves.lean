import Xps.Proofs.PathData.Course

/-!
# What a smooth curve continues

A smooth curve leaves opposite to the second control point of the latest cubic curve. If a curve was
drawn since the last command that is none of curves, this is the segment just drawn, and it ends at
the current point (`smooth_continues_curve`).

A command of curves without any operands draws nothing, and still counts as the previous command. So
a smooth curve behind it leaves opposite to a control point that may be far from the current point
(`not_smooth_continues_curve`).
-/

namespace Xps

namespace PathSegment

/-- The second control point of a cubic curve. -/
def cubicControl? : PathSegment → Option Point
  | cubic _ c₂ _ => some c₂
  | _ => none

end PathSegment

namespace PathReading

open PathReader

/-- The letter of a command of cubic curves. -/
def IsCurve (letter : Char) : Prop :=
  PathCommand.ofLetter? letter.toLower = some .cubic ∨
    PathCommand.ofLetter? letter.toLower = some .smooth

/-- The first control point of a smooth curve is to be a reflection. -/
def Reflects (r : PathReader) : Prop := r.previous = some .cubic ∨ r.previous = some .smooth

/-- Readers of a text in front of a command. -/
abbrev Reads (text : String) : PathReader → Prop :=
  Follows (fun _ => True) { cursor := .ofText text }

/-- A reader in front of a group of a smooth curve, behind commands of some letters only. -/
structure ReachesSmooth (among : Char → Prop) (first r : PathReader) : Prop where
  command : ∃ (q : PathReader) (letter : Char), Follows among first q ∧
    q.cursor.token = .command letter ∧ PathCommand.ofLetter? letter.toLower = some .smooth ∧
    InGroups .smooth letter.isLower q.advance r
  isNumber : r.cursor.token.isNumber

/-- The last segment that was drawn, fill rules apart. -/
def lastDrawn? (r : PathReader) : Option PathSegment := r.segments.find? fun s => !s.isFillRule

/-! ## The latest curve -/

/-- The second control point of the latest cubic curve is kept. -/
def KeepsControl (p : PathPlace) (segments : List PathSegment) : Prop :=
  p.control = (segments.findSome? PathSegment.cubicControl?).getD .zero

theorem kept_keepsControl (c : PathCommand) : Kept KeepsControl c := by
  intro p segments relative operands h
  unfold KeepsControl at h ⊢
  match c, operands with
  | .fillRule, .number x .nil =>
    rw [PathPlace.trace_fillRule]
    cases PathPlace.fillRule? x <;> exact h
  | .cubic, .point _ (.point _ (.point _ .nil)) | .smooth, .point _ (.point _ .nil) => rfl
  | .move, .point _ .nil | .line, .point _ .nil | .horizontal, .number _ .nil
  | .vertical, .number _ .nil | .quad, .point _ (.point _ .nil) | .arc, _ | .close, .nil => exact h

/-- Since some segments nothing was drawn, or else a curve last, which ends at the current point. -/
def DrawsCurves (earlier : List PathSegment) (p : PathPlace) (segments : List PathSegment) : Prop :=
  segments = earlier ∨
    (p.previous = some .cubic ∨ p.previous = some .smooth) ∧
      ∃ c₁ before, segments = .cubic c₁ p.control p.current :: before

theorem kept_drawsCurves (earlier : List PathSegment) {c : PathCommand}
    (hc : c = .cubic ∨ c = .smooth) : Kept (DrawsCurves earlier) c := by
  intro p segments relative operands _
  rcases hc with rfl | rfl
  · match operands with
    | .point _ (.point _ (.point _ .nil)) => exact .inr ⟨.inl rfl, _, _, rfl⟩
  · match operands with
    | .point _ (.point _ .nil) => exact .inr ⟨.inr rfl, _, _, rfl⟩

theorem DrawsCurves.previous {earlier segments : List PathSegment} {p : PathPlace}
    (h : DrawsCurves earlier p segments) {c : PathCommand} (hc : c = .cubic ∨ c = .smooth) :
    DrawsCurves earlier { p with previous := some c } segments :=
  h.imp_right fun hdrawn => ⟨hc.imp (congrArg some) (congrArg some), hdrawn.2⟩

/-! ## Readers in front of a smooth curve -/

variable {among : Char → Prop} {first r : PathReader}

/-- What all groups keep, and the ends of commands, holds in front of every command. -/
theorem Reads.stands {text : String} {P : PathPlace → List PathSegment → Prop}
    (h : Reads text r) (hstart : P {} []) (hkept : ∀ c, Kept P c)
    (hend : ∀ c p segments, P p segments → P { p with previous := some c } segments) :
    Stands P r :=
  Follows.stands h (stands_ofText text hstart) fun _ c _ _ => ⟨hkept c, hend c⟩

/-- What the commands on the way keep, and smooth curves too, holds in front of a group. -/
theorem ReachesSmooth.stands {P : PathPlace → List PathSegment → Prop}
    (h : ReachesSmooth among first r) (hfirst : Stands P first)
    (hkept : ∀ letter c, among letter → PathCommand.ofLetter? letter.toLower = some c →
      Kept P c ∧ ∀ p segments, P p segments → P { p with previous := some c } segments)
    (hsmooth : Kept P .smooth) : Stands P r := by
  obtain ⟨q, letter, hq, htoken, -, hgroups⟩ := h.command
  have hcommand := (hq.stands hfirst hkept).advance htoken
  exact hgroups.stands (fun h => nomatch h) hcommand hsmooth

theorem Reads.keepsControl {text : String} (h : Reads text first) : Stands KeepsControl first :=
  h.stands rfl kept_keepsControl fun _ _ _ h => h

theorem ReachesSmooth.keepsControl (hr : ReachesSmooth among first r)
    (hfirst : Stands KeepsControl first) : Stands KeepsControl r :=
  hr.stands hfirst (fun _ c _ _ => ⟨kept_keepsControl c, fun _ _ h => h⟩)
    (kept_keepsControl .smooth)

theorem ReachesSmooth.drawsCurves (hr : ReachesSmooth IsCurve first r)
    (hfirst : ∃ ts fault, first.cursor.Ahead ts fault) :
    Stands (DrawsCurves first.segments) r := by
  refine hr.stands ⟨hfirst, .inl rfl⟩ (fun letter c hletter hc => ?_)
    (kept_drawsCurves _ (.inr rfl))
  have hc : c = .cubic ∨ c = .smooth :=
    hletter.imp (fun h => Option.some.inj (hc.symm.trans h))
      fun h => Option.some.inj (hc.symm.trans h)
  exact ⟨kept_drawsCurves _ hc, fun _ _ h => h.previous hc⟩

/-- A smooth curve that is to be a reflection leaves opposite to the kept control point. -/
theorem segments_of_reflects {s : PathReader} {ts : List PathToken} {fault : Option PathFault}
    (h : r.cursor.Ahead ts fault) (hreflects : Reflects r) {relative : Bool}
    (hs : group .smooth relative r = .ok () s) :
    ∃ c₂ p, s.segments = .cubic (r.current.reflect r.control) c₂ p :: r.segments := by
  obtain ⟨operands, rest, -, -, hsegments⟩ := group_draws (c := .smooth) (fun h => nomatch h) h hs
  have hcontrol : r.place.smoothControl = r.current.reflect r.control := if_pos hreflects
  rw [hsegments, ← hcontrol]
  unfold PathPlace.draw
  match if relative then operands.absolute r.place.current else operands with
  | .point c₂ (.point p .nil) => exact ⟨c₂, p, rfl⟩

/-- **A smooth curve continues the curve before it.** In front of each group of a smooth curve, the
kept control point is the second one of the latest cubic curve, or zero without one. If something
was drawn since a command behind which there are only commands of curves, then the last segment is
that curve and ends at the current point, and the group draws a curve that leaves opposite to its
second control point. -/
theorem smooth_continues_curve (text : String) {first r : PathReader} (hfirst : Reads text first)
    (hr : ReachesSmooth IsCurve first r) :
    r.control = (r.segments.findSome? PathSegment.cubicControl?).getD .zero ∧
      (first.segments.length < r.segments.length →
        Reflects r ∧ (∃ c₁ before, r.segments = .cubic c₁ r.control r.current :: before) ∧
        ∀ relative s, group .smooth relative r = .ok () s →
          ∃ c₂ p, s.segments = .cubic (r.current.reflect r.control) c₂ p :: r.segments) := by
  have hstart := Reads.keepsControl hfirst
  obtain ⟨⟨ts, fault, hahead⟩, hdraws⟩ := hr.drawsCurves hstart.ahead
  refine ⟨(hr.keepsControl hstart).property, fun hdrawn => ?_⟩
  rcases hdraws with hsame | ⟨hreflects, hcurve⟩
  · exact absurd (congrArg List.length hsame) (Nat.ne_of_gt hdrawn)
  · exact ⟨hreflects, hcurve, fun _ _ hs => segments_of_reflects hahead hreflects hs⟩

def frontOfCurve : PathReader := { cursor := .ofText "C 0,4 4,4 4,0 S 8,4 8,0" }

/-- The reader behind a curve, in front of a smooth one. -/
def behindCurve : PathReader where
  cursor := ⟨⟨" 8,4 8,0".toList, 15⟩, .command 'S', none, 11⟩
  current := ⟨4, 0⟩
  control := ⟨4, 4⟩
  previous := some .cubic
  segments := [.cubic ⟨0, 4⟩ ⟨4, 4⟩ ⟨4, 0⟩]

theorem smooth_continues_curve_behindCurve :
    let r := behindCurve.advance
    Reads "C 0,4 4,4 4,0 S 8,4 8,0" frontOfCurve ∧ ReachesSmooth IsCurve frontOfCurve r ∧
      frontOfCurve.segments.length < r.segments.length ∧ Reflects r ∧
      (∃ c₁ before, r.segments = .cubic c₁ r.control r.current :: before) ∧
      ∃ s c₂ p, group .smooth false r = .ok () s ∧
        s.segments = .cubic (r.current.reflect r.control) c₂ p :: r.segments := by
  intro r
  have htoken : frontOfCurve.cursor.token = .command 'C' := by
    with_unfolding_all rfl
  have hcurve : command 'C' frontOfCurve.advance = .ok () behindCurve := by
    with_unfolding_all rfl
  have hnumber : r.cursor.token.isNumber = true := by decide +kernel
  have hbehind : Follows IsCurve frontOfCurve behindCurve :=
    .command .refl htoken (.inl rfl) hcurve
  have hreach : ReachesSmooth IsCurve frontOfCurve r :=
    ⟨⟨behindCurve, 'S', hbehind, rfl, rfl, .refl⟩, hnumber⟩
  have hdrawn : frontOfCurve.segments.length < r.segments.length := Nat.zero_lt_one
  have hgroup : ∃ s, group .smooth false r = .ok () s := by
    with_unfolding_all exact ⟨_, rfl⟩
  obtain ⟨-, hcontinues⟩ := smooth_continues_curve "C 0,4 4,4 4,0 S 8,4 8,0" .refl hreach
  obtain ⟨hreflects, hlast, hsmooth⟩ := hcontinues hdrawn
  obtain ⟨s, hs⟩ := hgroup
  obtain ⟨c₂, p, hsegments⟩ := hsmooth false s hs
  exact ⟨.refl, hreach, hdrawn, hreflects, hlast, s, c₂, p, hs, hsegments⟩

/-! ## Commands without operands -/

def frontOfMove : PathReader := { cursor := .ofText "M 10,10 C S 20,20 30,10" }

/-- A reader behind a move, in front of a command of curves. -/
def behindMove : PathReader where
  cursor := ⟨⟨" S 20,20 30,10".toList, 9⟩, .command 'C', none, 5⟩
  current := ⟨10, 10⟩
  start := ⟨10, 10⟩
  previous := some .move
  segments := [.move ⟨10, 10⟩]

/-- The reader behind that command, which has no operands. -/
def behindEmptyCurve : PathReader :=
  { behindMove with
    cursor := ⟨⟨" 20,20 30,10".toList, 11⟩, .command 'S', none, 6⟩
    previous := some .cubic }

/-- Behind a command of curves without operands, a smooth curve is a reflection, although the last
segment is no curve. -/
theorem not_smooth_continues_curve :
    ¬ ∀ r, ReachesSmooth (fun _ => True) frontOfMove r → Reflects r →
      ∃ c₁, lastDrawn? r = some (.cubic c₁ r.control r.current) := by
  intro h
  have htoken : frontOfMove.cursor.token = .command 'M' := by
    with_unfolding_all rfl
  have hmove : command 'M' frontOfMove.advance = .ok () behindMove := by
    with_unfolding_all rfl
  have hcurve : command 'C' behindMove.advance = .ok () behindEmptyCurve := by
    with_unfolding_all rfl
  have hsmooth : PathCommand.ofLetter? 'S'.toLower = some .smooth := by decide
  have hnumber : behindEmptyCurve.advance.cursor.token.isNumber = true := by decide +kernel
  have hbehind : Follows (fun _ => True) frontOfMove behindEmptyCurve :=
    .command (.command .refl htoken trivial hmove) rfl trivial hcurve
  have hreach : ReachesSmooth (fun _ => True) frontOfMove behindEmptyCurve.advance :=
    ⟨⟨behindEmptyCurve, 'S', hbehind, rfl, hsmooth, .refl⟩, hnumber⟩
  obtain ⟨c₁, hc₁⟩ := h _ hreach (.inl rfl)
  cases hc₁

end PathReading

end Xps
