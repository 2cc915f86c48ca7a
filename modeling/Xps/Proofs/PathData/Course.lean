import Xps.Proofs.PathData.Reading

/-!
# The course of reading path data

The readers that a text goes through: one in front of each command (`Follows`), and one in front of
each group of operands of a command (`InGroups`).

A group and a command draw what the grammar draws. So a property of the place and the segments that
the groups of a command keep (`Kept`) holds in the course of it.
-/

namespace Xps.PathReading

open PathReader

/-! ## Readers on the way -/

/-- Readers in front of commands, from one reader on and only behind commands of some letters. -/
inductive Follows (among : Char → Prop) (r : PathReader) : PathReader → Prop
  | refl : Follows among r r
  | command {q s : PathReader} {letter : Char} : Follows among r q →
    q.cursor.token = .command letter → among letter → command letter q.advance = .ok () s →
      Follows among r s

/-- Readers in front of the groups of a command, and the reader behind them. -/
inductive InGroups (c : PathCommand) (relative : Bool) (r : PathReader) : PathReader → Prop
  | refl : InGroups c relative r r
  | group {q s : PathReader} : InGroups c relative r q → q.cursor.token.isNumber →
    group c relative q = .ok () s → InGroups c relative r s

variable {among : Char → Prop} {c : PathCommand} {relative : Bool} {r s : PathReader}

/-! ## What is drawn on the way -/

variable {ts : List PathToken} {fault : Option PathFault}

/-- A group that is read draws its operands. -/
theorem group_draws (hc : c ≠ .close) (h : r.cursor.Ahead ts fault)
    (hs : group c relative r = .ok () s) :
    ∃ (operands : Operands c.layout) (rest : List PathToken), s.cursor.Ahead rest fault ∧
      s.place = (r.place.draw c relative operands).2 ∧
        s.segments = (r.place.draw c relative operands).1.reverse ++ r.segments := by
  cases hread : Operands.read c.layout ts with
  | ok found =>
    have hends := ends_group hc relative h hread
    rw [hs] at hends
    cases hends with
    | ok hahead hplace hdraws => exact ⟨_, _, hahead, hplace, hdraws.segments⟩
  | error rest =>
    have hends := ends_group_broken hc relative h hread r.place
    rw [hs] at hends
    cases hends

/-- A command that is read draws its groups, one after the other. -/
theorem command_draws {letter : Char} (h : r.cursor.Ahead ts fault)
    (htoken : r.cursor.token = .command letter) (hs : command letter r.advance = .ok () s) :
    ∃ (c : PathCommand) (groups : List (Operands c.layout)) (rest : List PathToken),
      PathCommand.ofLetter? letter.toLower = some c ∧ s.cursor.Ahead rest fault ∧
      s.place = { (r.place.drawEach c letter.isLower groups).2 with previous := some c } ∧
        s.segments = (r.place.drawEach c letter.isLower groups).1.reverse ++ r.segments := by
  have hnext : r.advance.cursor.Ahead r.cursor.lexer.tokens.list fault := by
    cases h with
    | finish hend => cases htoken.symm.trans hend
    | next _ hfault => exact PathCursor.ahead_advance hfault
  cases hc : PathCommand.ofLetter? letter.toLower with
  | none =>
    unfold command at hs
    rw [hc] at hs
    cases hs
  | some c =>
    have hends := ends_operands c letter.isLower hnext
    rw [command_apply hc] at hs
    generalize operands c letter.isLower r.advance = result at hends hs
    generalize (c.readOperands r.cursor.lexer.tokens.list).2 = stop at hends
    cases hends with
    | ok hahead hplace hdraws =>
      cases hs
      refine ⟨c, _, _, rfl, hahead, ?_, hdraws.segments⟩
      exact congrArg (fun p : PathPlace => { p with previous := some c }) hplace
    | error => cases hs

/-! ## Properties that are kept -/

variable {P : PathPlace → List PathSegment → Prop}

/-- Each group of a command keeps a property of the place and the segments, the latest one first. -/
def Kept (P : PathPlace → List PathSegment → Prop) (c : PathCommand) : Prop :=
  ∀ (p : PathPlace) (segments : List PathSegment) (relative : Bool) (operands : Operands c.layout),
    P p segments →
      P (p.trace relative c operands).2 ((p.trace relative c operands).1.reverse ++ segments)

theorem Kept.drawEach (h : Kept P c) (relative : Bool) (groups : List (Operands c.layout))
    {p : PathPlace} {segments : List PathSegment} (hp : P p segments) :
    P (p.drawEach c relative groups).2 ((p.drawEach c relative groups).1.reverse ++ segments) := by
  induction groups generalizing p segments with
  | nil => exact hp
  | cons group groups ih =>
    have hfirst : P (p.draw c relative group).2 ((p.draw c relative group).1.reverse ++ segments) :=
      h p segments relative _ hp
    have hlater := ih hfirst
    rwa [← List.append_assoc, ← List.reverse_append] at hlater

/-- A reader in front of tokens, with a property of its place and its segments. -/
structure Stands (P : PathPlace → List PathSegment → Prop) (r : PathReader) : Prop where
  ahead : ∃ ts fault, r.cursor.Ahead ts fault
  property : P r.place r.segments

theorem stands_ofText (text : String) (h : P {} []) :
    Stands P { cursor := .ofText text } :=
  ⟨⟨_, _, PathCursor.ahead_ofText text⟩, h⟩

theorem Stands.advance {letter : Char} (h : Stands P r)
    (htoken : r.cursor.token = .command letter) : Stands P r.advance := by
  obtain ⟨⟨ts, fault, hahead⟩, hproperty⟩ := h
  cases hahead with
  | finish hend => cases htoken.symm.trans hend
  | next _ hfault => exact ⟨⟨_, _, PathCursor.ahead_advance hfault⟩, hproperty⟩

/-- A property is kept by commands if their groups and their ends keep it. -/
theorem Follows.stands (h : Follows among r s) (hr : Stands P r)
    (hkept : ∀ letter c, among letter → PathCommand.ofLetter? letter.toLower = some c →
      Kept P c ∧ ∀ p segments, P p segments → P { p with previous := some c } segments) :
    Stands P s := by
  induction h with
  | refl => exact hr
  | command _ htoken hamong hcommand ih =>
    obtain ⟨⟨ts, fault, hahead⟩, hproperty⟩ := ih
    obtain ⟨c, groups, rest, hc, hrest, hplace, hsegments⟩ := command_draws hahead htoken hcommand
    obtain ⟨hgroups, hend⟩ := hkept _ c hamong hc
    refine ⟨⟨rest, fault, hrest⟩, ?_⟩
    rw [hplace, hsegments]
    exact hend _ _ (hgroups.drawEach _ groups hproperty)

theorem InGroups.stands (h : InGroups c relative r s) (hc : c ≠ .close) (hr : Stands P r)
    (hkept : Kept P c) : Stands P s := by
  induction h with
  | refl => exact hr
  | group _ _ hgroup ih =>
    obtain ⟨⟨ts, fault, hahead⟩, hproperty⟩ := ih
    obtain ⟨operands, rest, hrest, hplace, hsegments⟩ := group_draws hc hahead hgroup
    refine ⟨⟨rest, fault, hrest⟩, ?_⟩
    rw [hplace, hsegments]
    exact hkept _ _ _ _ hproperty

end Xps.PathReading
