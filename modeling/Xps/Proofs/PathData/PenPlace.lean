import Xps.Proofs.PathData.SmoothCurves

/-!
# The pen is where the reader is

The reader of path data keeps a current point and the start of the subpath. The pen that draws the
segments keeps a position and the point of its last move, by other rules: it lets a move take the
place of a move, adds the moves that are left out, and leaves out closes. Both are always at the
same points (`PathReading.current_eq_position`), at every place that a text is read through
(`PathReading.Passes`). Every segment is drawn between two such places
(`PathReading.exists_passes`).
-/

namespace Xps

/-! ## The pen -/

def OutlineStep.move? : OutlineStep → Option Point
  | move p => some p
  | _ => none

namespace Pen

/-- The last move among the steps that were drawn. -/
def lastMove? (pen : Pen) : Option Point := pen.drawn.findSome? OutlineStep.move?

@[simp] theorem start_move (pen : Pen) (p : Point) : (pen.move p).start = p := by
  unfold move
  split <;> rfl

@[simp] theorem position_move (pen : Pen) (p : Point) : (pen.move p).position = p := by
  unfold move
  split <;> rfl

@[simp] theorem start_lower (pen : Pen) : pen.lower.start = pen.start := by
  unfold lower
  split
  · exact start_move pen pen.start
  · rfl

@[simp] theorem start_draw (pen : Pen) (step : OutlineStep) : (pen.draw step).start = pen.start :=
  start_lower pen

@[simp] theorem start_close (pen : Pen) : pen.close.start = pen.start := by
  unfold close
  split <;> rfl

/-- After a close the pen is at its last move, also if the close draws nothing. -/
@[simp] theorem position_close (pen : Pen) : pen.close.position = pen.start := by
  obtain ⟨drawn, start, lifted⟩ := pen
  rcases drawn with _ | ⟨_ | _ | _ | _ | _, drawn⟩ <;> rfl

/-- The start is the last move that was drawn, and zero without one. -/
def StartsAtMove (pen : Pen) : Prop := pen.start = pen.lastMove?.getD .zero

theorem startsAtMove_move (pen : Pen) (p : Point) : (pen.move p).StartsAtMove := by
  unfold StartsAtMove lastMove? move
  split <;> rfl

theorem StartsAtMove.draw {pen : Pen} (h : pen.StartsAtMove) {step : OutlineStep}
    (hstep : step.move? = none) : (pen.draw step).StartsAtMove := by
  have hlower : pen.lower.StartsAtMove := by
    unfold lower
    split
    · exact startsAtMove_move pen pen.start
    · exact h
  unfold StartsAtMove lastMove? Pen.draw at *
  rwa [List.findSome?_cons, hstep]

theorem StartsAtMove.close {pen : Pen} (h : pen.StartsAtMove) : pen.close.StartsAtMove := by
  unfold Pen.close
  split <;> exact h

theorem StartsAtMove.segment {pen : Pen} (h : pen.StartsAtMove) (s : PathSegment) :
    (s.draw pen).StartsAtMove := by
  cases s with
  | fillRule => exact h
  | move p => exact startsAtMove_move pen p
  | line | cubic | quad => exact h.draw rfl
  | close => exact h.close

theorem startsAtMove_pen (data : PathData) : data.pen.StartsAtMove := by
  unfold PathData.pen
  have hstart : ({} : Pen).StartsAtMove := rfl
  generalize ({} : Pen) = pen at hstart ⊢
  induction data.segments generalizing pen with
  | nil => exact hstart
  | cons s segments ih => exact ih _ (hstart.segment s)

end Pen

/-- The pen that has drawn the segments read so far. -/
def PathReader.pen (r : PathReader) : Pen := PathData.pen ⟨r.segments.reverse⟩

/-- The place and the pen are at the same points. -/
structure PathPlace.At (p : PathPlace) (pen : Pen) : Prop where
  current_eq : p.current = pen.position
  start_eq : p.start = pen.start

theorem PathPlace.at_trace {p : PathPlace} {pen : Pen} (h : p.At pen) (relative : Bool)
    (c : PathCommand) (operands : Operands c.layout) :
    (p.trace relative c operands).2.At
      ((p.trace relative c operands).1.foldl PathSegment.draw pen) := by
  match c, operands with
  | .fillRule, .number x .nil =>
    rw [trace_fillRule]
    cases fillRule? x <;> exact h
  | .move, .point q .nil => exact ⟨(Pen.position_move pen q).symm, (Pen.start_move pen q).symm⟩
  | .line, .point _ .nil | .horizontal, .number _ .nil | .vertical, .number _ .nil
  | .cubic, .point _ (.point _ (.point _ .nil)) | .smooth, .point _ (.point _ .nil)
  | .quad, .point _ (.point _ .nil) => exact ⟨rfl, h.start_eq.trans (Pen.start_draw pen _).symm⟩
  | .arc, _ => exact h
  | .close, .nil =>
    exact ⟨h.start_eq.trans (Pen.position_close pen).symm,
      h.start_eq.trans (Pen.start_close pen).symm⟩

namespace PathReading

/-- The pen of the segments, the latest one first. -/
def AtPen (p : PathPlace) (segments : List PathSegment) : Prop :=
  p.At (PathData.pen ⟨segments.reverse⟩)

theorem kept_atPen (c : PathCommand) : Kept AtPen c := by
  intro p segments relative operands h
  have hpen : PathData.pen ⟨((p.trace relative c operands).1.reverse ++ segments).reverse⟩ =
      (p.trace relative c operands).1.foldl PathSegment.draw
        (PathData.pen ⟨segments.reverse⟩) := by
    unfold PathData.pen
    rw [List.reverse_append, List.reverse_reverse, List.foldl_append]
  unfold AtPen
  rw [hpen]
  exact p.at_trace h relative c operands

/-! ## Readers on the way -/

/-- Readers that a text goes through, in front of a command or in front of a group of one. -/
inductive Passes (text : String) : PathReader → Prop
  | command {r : PathReader} : Reads text r → Passes text r
  | group {q r : PathReader} {letter : Char} {c : PathCommand} : Reads text q →
    q.cursor.token = .command letter → PathCommand.ofLetter? letter.toLower = some c →
    c.repeats → InGroups c letter.isLower q.advance r → Passes text r

variable {text : String} {q r s : PathReader} {c : PathCommand} {relative : Bool}

/-- What all groups keep, and the ends of commands, holds all the way. -/
theorem Passes.stands {P : PathPlace → List PathSegment → Prop} (h : Passes text r)
    (hstart : P {} []) (hkept : ∀ c, Kept P c)
    (hend : ∀ c p segments, P p segments → P { p with previous := some c } segments) :
    Stands P r := by
  cases h with
  | command hreads => exact hreads.stands hstart hkept hend
  | group hreads htoken _ hrepeats hgroups =>
    have hcommand := (hreads.stands hstart hkept hend).advance htoken
    exact hgroups.stands (ne_close_of_repeats hrepeats) hcommand (hkept _)

theorem Reads.ahead_advance {letter : Char} (h : Reads text r)
    (htoken : r.cursor.token = .command letter) : ∃ ts fault, r.advance.cursor.Ahead ts fault :=
  have hstands : Stands (fun _ _ => True) r :=
    h.stands trivial (fun _ _ _ _ _ _ => trivial) fun _ _ _ _ => trivial
  (hstands.advance htoken).ahead

/-! ## Every segment -/

/-- Between two readers there is one of some kind behind each segment. -/
structure Covers (kind : PathReader → Prop) (r s : PathReader) : Prop where
  suffix : r.segments <:+ s.segments
  attains : ∀ drawn, r.segments <:+ drawn → drawn <:+ s.segments → ∃ q, kind q ∧ q.segments = drawn

variable {kind : PathReader → Prop}

theorem Covers.of_eq (hr : kind r) (h : s.segments = r.segments) : Covers kind r s where
  suffix := h ▸ List.suffix_rfl
  attains drawn hfirst hlast := by
    rw [h] at hlast
    exact ⟨r, hr, hfirst.eq_of_length_le hlast.length_le⟩

/-- One step that draws at most one segment skips none. -/
theorem Covers.of_step {added : List PathSegment} (hr : kind r) (hs : kind s)
    (h : s.segments = added ++ r.segments) (hadded : added.length ≤ 1) : Covers kind r s := by
  match added, hadded with
  | [], _ => exact .of_eq hr h
  | [x], _ =>
    refine ⟨h ▸ List.suffix_append _ _, fun drawn hfirst hlast => ?_⟩
    rw [h, List.singleton_append, List.suffix_cons_iff, ← List.singleton_append, ← h] at hlast
    rcases hlast with rfl | hlast
    · exact ⟨s, hs, rfl⟩
    · exact ⟨r, hr, hfirst.eq_of_length_le hlast.length_le⟩

theorem Covers.trans (h : Covers kind r q) (h' : Covers kind q s) : Covers kind r s where
  suffix := h.suffix.trans h'.suffix
  attains drawn hfirst hlast := by
    rcases List.suffix_or_suffix_of_suffix hlast h'.suffix with hbefore | hbehind
    · exact h.attains drawn hfirst hbefore
    · exact h'.attains drawn hbehind hlast

theorem Covers.imp {other : PathReader → Prop} (h : Covers kind r s)
    (himp : ∀ q, kind q → other q) : Covers other r s :=
  ⟨h.suffix, fun drawn hfirst hlast => (h.attains drawn hfirst hlast).imp fun q hq =>
    ⟨himp q hq.1, hq.2⟩⟩

theorem Covers.congr {r' s' : PathReader} (h : Covers kind r s) (hr : r'.segments = r.segments)
    (hs : s'.segments = s.segments) : Covers kind r' s' := by
  refine ⟨?_, ?_⟩
  · rw [hr, hs]
    exact h.suffix
  · rw [hr, hs]
    exact h.attains

theorem length_trace_le (p : PathPlace) (relative : Bool) (c : PathCommand)
    (operands : Operands c.layout) : (p.trace relative c operands).1.length ≤ 1 := by
  match c, operands with
  | .fillRule, .number x .nil =>
    rw [PathPlace.trace_fillRule]
    cases PathPlace.fillRule? x <;> simp
  | .move, .point _ .nil | .line, .point _ .nil | .horizontal, .number _ .nil
  | .vertical, .number _ .nil | .cubic, .point _ (.point _ (.point _ .nil))
  | .smooth, .point _ (.point _ .nil) | .quad, .point _ (.point _ .nil) | .close, .nil =>
    exact Nat.le_refl 1
  | .arc, _ => exact Nat.zero_le 1

/-- Groups draw one after the other, and the reader in front of each is on the way. -/
theorem covers_groups (hc : c.repeats) {ts : List PathToken} {fault : Option PathFault}
    (hr : InGroups c relative q r) (h : r.cursor.Ahead ts fault) :
    Covers (InGroups c relative q) r (ending (groups c relative r)) := by
  fun_induction PathCommand.readGroups c hc ts generalizing r with
  | case1 ts hnumber operands rest hread later stop hlater ih =>
    have htoken : r.cursor.token.isNumber := h.isNumber_eq.trans hnumber
    have hends := ends_group (ne_close_of_repeats hc) relative h hread
    rw [groups_apply, if_pos htoken]
    generalize hgroup : group c relative r = result at hends ⊢
    cases hends with
    | @ok s _ hahead hplace hdraws =>
      have hs : InGroups c relative q s := hr.group htoken hgroup
      have hshort : (r.place.draw c relative operands).1.reverse.length ≤ 1 := by
        rw [List.length_reverse]
        exact length_trace_le r.place relative c _
      exact (Covers.of_step hr hs hdraws.segments hshort).trans (ih hs hahead)
  | case2 ts hnumber stop hread =>
    have htoken : r.cursor.token.isNumber := h.isNumber_eq.trans hnumber
    have hends := ends_group_broken (ne_close_of_repeats hc) relative h hread r.place
    rw [groups_apply, if_pos htoken]
    generalize group c relative r = result at hends ⊢
    cases hends with
    | error hdraws => exact .of_eq hr hdraws.segments
  | case3 ts hnumber =>
    have htoken : ¬ r.cursor.token.isNumber := by
      rwa [h.isNumber_eq]
    rw [groups_apply, if_neg htoken]
    exact .of_eq hr rfl

/-- A command that repeats draws what its groups draw. -/
theorem segments_operands (hc : c.repeats) (relative : Bool) (r : PathReader) :
    (ending (operands c relative r)).segments = (ending (groups c relative r)).segments := by
  cases c
  case fillRule | close => cases hc
  case arc =>
    show (ending (EStateM.bind (groups .arc relative) _ r)).segments = _
    unfold EStateM.bind
    cases groups .arc relative r <;> rfl
  all_goals rfl

/-- A command that does not repeat has one group, which draws at most one segment. -/
theorem exists_segments_operands (hc : ¬ c.repeats) {ts : List PathToken}
    {fault : Option PathFault} (h : r.cursor.Ahead ts fault) (relative : Bool) :
    ∃ added, (ending (operands c relative r)).segments = added ++ r.segments ∧ added.length ≤ 1 ∧
      ∀ fault s, operands c relative r = .error fault s → added = [] := by
  have hends := ends_operands c relative h
  unfold PathCommand.readOperands at hends
  rw [dif_neg hc] at hends
  generalize operands c relative r = result at hends ⊢
  cases hfound : Operands.read c.layout ts with
  | ok found =>
    rw [hfound] at hends
    cases hends with
    | ok _ _ hdraws =>
      rw [drawEach_singleton] at hdraws
      refine ⟨_, hdraws.segments, ?_, fun _ _ h => nomatch h⟩
      rw [List.length_reverse]
      exact length_trace_le r.place relative c _
  | error stop =>
    rw [hfound] at hends
    cases hends with
    | error hdraws => exact ⟨[], hdraws.segments, Nat.zero_le 1, fun _ _ _ => rfl⟩

theorem covers_command {letter : Char} (hr : Reads text r)
    (htoken : r.cursor.token = .command letter) :
    Covers (Passes text) r (ending (command letter r.advance)) := by
  obtain ⟨ts, fault, hahead⟩ := hr.ahead_advance htoken
  cases hletter : PathCommand.ofLetter? letter.toLower with
  | none =>
    unfold command
    rw [hletter]
    exact .of_eq (.command hr) rfl
  | some c =>
    -- There are readers between the groups of a command only if it repeats. Any other command is one
    -- step, from the reader in front of it to the one behind.
    by_cases hc : c.repeats
    · have hfirst : InGroups c letter.isLower r.advance r.advance := .refl
      have hgroups := (covers_groups hc hfirst hahead).imp
        fun s hs => Passes.group hr htoken hletter hc hs
      refine hgroups.congr rfl ?_
      rw [← segments_operands hc, command_apply hletter]
      cases operands c letter.isLower r.advance <;> rfl
    · obtain ⟨added, hsegments, hshort, herror⟩ := exists_segments_operands hc hahead letter.isLower
      have hnext (s : PathReader) (hs : command letter r.advance = .ok () s) : Passes text s :=
        .command (hr.command htoken trivial hs)
      rw [command_apply hletter] at hnext ⊢
      cases hresult : operands c letter.isLower r.advance with
      | ok _ s =>
        rw [hresult] at hsegments hnext
        exact .of_step (.command hr) (hnext _ rfl) hsegments hshort
      | error fault s =>
        rw [hresult, herror fault s hresult] at hsegments
        exact .of_eq (.command hr) hsegments

theorem covers_commands {r : PathReader} (hr : Reads text r) :
    Covers (Passes text) r (ending (commands r)) := by
  induction hn : r.remaining using Nat.strongRecOn generalizing r with
  | ind n ih =>
    have hstay : Covers (Passes text) r r := .of_eq (.command hr) rfl
    rw [commands_apply]
    split
    · rename_i letter htoken
      have hcommand := covers_command hr htoken
      cases hresult : command letter r.advance with
      | error fault s => rwa [hresult] at hcommand
      | ok _ s =>
        rw [hresult] at hcommand
        have hs : Reads text s := hr.command htoken trivial hresult
        have hless : s.remaining < n := by
          have hadvance : r.advance.remaining < r.remaining :=
            PathCursor.remaining_advance_lt (by rw [htoken]; rfl)
          have hkeeps := keeps_command letter hresult
          omega
        exact hcommand.trans (ih _ hless hs rfl)
    · split <;> exact hstay
    · exact hstay

/-- Each part of the segments, from the first one on, is what some reader on the way has drawn. -/
theorem exists_passes {drawn : List PathSegment}
    (h : drawn <+: (PathData.parse text).value.segments) :
    ∃ r, Passes text r ∧ r.segments.reverse = drawn := by
  have hcovers := covers_commands (@Follows.refl (fun _ => True) { cursor := .ofText text })
  rw [segments_parse, ← List.reverse_suffix, List.reverse_reverse] at h
  obtain ⟨r, hr, hdrawn⟩ := hcovers.attains drawn.reverse (List.nil_suffix) h
  exact ⟨r, hr, by rw [hdrawn, List.reverse_reverse]⟩

/-! ## The main statement -/

theorem Passes.atPen (h : Passes text r) : Stands AtPen r :=
  h.stands ⟨rfl, rfl⟩ kept_atPen fun _ _ _ h => ⟨h.current_eq, h.start_eq⟩

/-- The place of a reader as its pen knows it. -/
def penPlace (r : PathReader) : PathPlace :=
  { r.place with current := r.pen.position, start := r.pen.start }

/-- **The current point is where the pen is.** At every place that a text is read through, the
current point is the position of the pen that has drawn the segments so far, and the start of the
subpath is its last move. So each group draws its operands from the position of the pen on. There is
such a place behind every segment of the path. -/
theorem current_eq_position (text : String) :
    (∀ r, Passes text r →
      r.current = r.pen.position ∧ r.start = r.pen.start ∧ r.start = r.pen.lastMove?.getD .zero ∧
      ∀ (c : PathCommand) (relative : Bool) (ts rest : List PathToken) (fault : Option PathFault)
        (operands : Operands c.layout), c ≠ .close → r.cursor.Ahead ts fault →
          Operands.read c.layout ts = .ok (operands, rest) →
            ∃ s, group c relative r = .ok () s ∧
              s.segments = ((penPlace r).draw c relative operands).1.reverse ++ r.segments) ∧
    ∀ drawn, drawn <+: (PathData.parse text).value.segments →
      ∃ r, Passes text r ∧ r.segments.reverse = drawn := by
  refine ⟨fun r hr => ?_, fun drawn h => exists_passes h⟩
  obtain ⟨-, hcurrent, hstart⟩ := hr.atPen
  refine ⟨hcurrent, hstart, hstart.trans (Pen.startsAtMove_pen _),
    fun c relative ts rest fault operands hc hahead hread => ?_⟩
  have hplace : penPlace r = r.place := by
    unfold penPlace PathReader.pen
    rw [← hcurrent, ← hstart]
  have hends := ends_group hc relative hahead hread
  rw [hplace]
  generalize group c relative r = result at hends ⊢
  cases hends with
  | @ok s _ _ _ hdraws => exact ⟨s, rfl, hdraws.segments⟩

def frontOfMoves : PathReader := { cursor := .ofText "M 1,1 2,2 z z l 3,4" }

/-- The reader behind two moves, of which the second takes the place of the first. -/
def behindMoves : PathReader where
  cursor := ⟨⟨" z l 3,4".toList, 11⟩, .command 'z', none, 8⟩
  current := ⟨2, 2⟩
  start := ⟨2, 2⟩
  previous := some .move
  segments := [.move ⟨2, 2⟩, .move ⟨1, 1⟩]

/-- The reader behind two closes, of which the pen draws one. -/
def behindCloses : PathReader :=
  { behindMoves with
    cursor := ⟨⟨" 3,4".toList, 15⟩, .command 'l', none, 10⟩
    previous := some .close
    segments := [.close, .close, .move ⟨2, 2⟩, .move ⟨1, 1⟩] }

theorem current_eq_position_behindCloses :
    let text := "M 1,1 2,2 z z l 3,4"
    let r := behindCloses.advance
    Passes text r ∧ r.pen.steps.length = 2 ∧ r.pen.lifted ∧
      r.current = r.pen.position ∧ r.start = r.pen.lastMove?.getD .zero ∧
      (∃ s operands, group .line true r = .ok () s ∧
        s.segments = ((penPlace r).draw .line true operands).1.reverse ++ r.segments) ∧
      ∃ r, Passes text r ∧ r.segments.reverse = (PathData.parse text).value.segments := by
  intro text r
  have htoken : frontOfMoves.cursor.token = .command 'M' := by
    with_unfolding_all rfl
  have hmoves : command 'M' frontOfMoves.advance = .ok () behindMoves := by
    with_unfolding_all rfl
  have hclose : command 'z' behindMoves.advance =
      .ok () { behindCloses with
        cursor := ⟨⟨" l 3,4".toList, 13⟩, .command 'z', none, 9⟩
        segments := [.close, .move ⟨2, 2⟩, .move ⟨1, 1⟩] } := by
    with_unfolding_all rfl
  have hreads : Reads text behindCloses :=
    .command (.command (.command .refl htoken trivial hmoves) rfl trivial hclose) rfl trivial rfl
  have hline : PathCommand.ofLetter? 'l'.toLower = some .line := by decide
  have hpasses : Passes text r := .group hreads rfl hline rfl .refl
  obtain ⟨hplaces, hevery⟩ := current_eq_position text
  obtain ⟨hcurrent, -, hstart, hgroup⟩ := hplaces r hpasses
  obtain ⟨ts, fault, hahead⟩ := hreads.ahead_advance rfl
  refine ⟨hpasses, by with_unfolding_all rfl, by with_unfolding_all rfl, hcurrent, hstart, ?_,
    hevery _ List.prefix_rfl⟩
  have hread : ∃ s, group .line true r = .ok () s := by
    with_unfolding_all exact ⟨_, rfl⟩
  cases hfound : Operands.read PathCommand.line.layout ts with
  | ok found =>
    obtain ⟨operands, rest⟩ := found
    obtain ⟨s, hs, hsegments⟩ :=
      hgroup .line true ts rest fault operands (fun h => nomatch h) hahead hfound
    exact ⟨s, operands, hs, hsegments⟩
  | error rest =>
    have hends := ends_group_broken (c := .line) (fun h => nomatch h) true hahead hfound r.place
    obtain ⟨s, hs⟩ := hread
    rw [hs] at hends
    cases hends

end PathReading

end Xps
