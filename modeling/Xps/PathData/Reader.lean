import Xps.Journal
import Xps.PathData.Segment

/-!
# Reading path data

A command is a letter with groups of operands, in lower case relative to the current point. Inside
of a group each point is relative to the one before it. Reading stops at the first fault, and the
groups before it are kept.

The reader looks one token ahead. Every group takes at least one token, so that reading ends.
-/

namespace Xps

inductive PathCommand
  | fillRule
  | move
  | line
  | horizontal
  | vertical
  | cubic
  | smooth
  | quad
  | arc
  | close
deriving DecidableEq

def PathCommand.ofLetter? : Char → Option PathCommand
  | 'f' => some fillRule
  | 'm' => some move
  | 'l' => some line
  | 'h' => some horizontal
  | 'v' => some vertical
  | 'c' => some cubic
  | 's' => some smooth
  | 'q' => some quad
  | 'a' => some arc
  | 'z' => some close
  | _ => none

/-- A lexer with one token taken from it. A fault of the lexer hides behind the end of input. -/
structure PathCursor where
  lexer : PathLexer
  token : PathToken
  fault : Option PathFault := none
  /-- How many tokens were asked for. -/
  pulls : Nat := 0

namespace PathCursor

def advance (c : PathCursor) : PathCursor :=
  match c.lexer.next with
  | .ok (token, lexer) => { c with lexer, token, pulls := c.pulls + 1 }
  | .error fault => { c with token := .endOfInput, fault := some fault, pulls := c.pulls + 1 }

def ofText (text : String) : PathCursor := advance ⟨⟨text.toList, 0⟩, .endOfInput, none, 0⟩

/-- The fault of a token that does not fit. -/
def unexpected (c : PathCursor) : PathFault := c.fault.getD (.unexpectedToken c.token)

/-- A bound on the tokens to come. -/
def remaining (c : PathCursor) : Nat :=
  c.lexer.rest.length + if c.token.isEnd then 0 else 1

theorem remaining_advance_lt {c : PathCursor} (h : c.token.isEnd = false) :
    c.advance.remaining < c.remaining := by
  unfold advance
  split
  · rename_i t l hn
    cases ht : t.isEnd
    · have := PathLexer.rest_next_lt hn ht
      simp only [remaining, ht, h, Bool.false_eq_true, if_false]
      omega
    · have := PathLexer.rest_next_le hn
      simp only [remaining, ht, h, Bool.false_eq_true, if_true, if_false]
      omega
  · simp only [remaining, h, Bool.false_eq_true, if_false]
    exact Nat.lt_succ_self _

end PathCursor

/-- The state of reading. Segments and notices are kept with the latest one first. -/
structure PathReader where
  cursor : PathCursor
  current : Point := .zero
  /-- Where a close returns to. -/
  start : Point := .zero
  /-- The second control point of the last cubic curve. -/
  control : Point := .zero
  previous : Option PathCommand := none
  segments : List PathSegment := []
  notices : List Notice := []

/-- A step of reading that may stop at a fault. -/
abbrev PathReading := EStateM PathFault PathReader

namespace PathReader

def remaining (r : PathReader) : Nat := r.cursor.remaining

def advance (r : PathReader) : PathReader := { r with cursor := r.cursor.advance }

def draw (r : PathReader) (s : PathSegment) : PathReader := { r with segments := s :: r.segments }

def moveTo (r : PathReader) (p : Point) : PathReader :=
  { r.draw (.move p) with current := p, start := p }

def lineTo (r : PathReader) (p : Point) : PathReader :=
  { r.draw (.line p) with current := p }

def quadTo (r : PathReader) (c p : Point) : PathReader :=
  { r.draw (.quad c p) with current := p }

def cubicTo (r : PathReader) (command : PathCommand) (c₁ c₂ p : Point) : PathReader :=
  { r.draw (.cubic c₁ c₂ p) with current := p, control := c₂, previous := some command }

def closePath (r : PathReader) : PathReader := { r.draw .close with current := r.start }

/-- Only 0 and 1 name a fill rule. -/
def setFillRule (r : PathReader) (x : Float32) : PathReader :=
  if x == 0 then r.draw (.fillRule .evenOdd)
  else if x == 1 then r.draw (.fillRule .winding)
  else { r with notices := .invalidFillRule x :: r.notices }

/-- The first control point of a smooth curve continues the curve before it. -/
def smoothControl (r : PathReader) : Point :=
  if r.previous = some .cubic ∨ r.previous = some .smooth then r.current.reflect r.control
  else r.current

/-- What the points of a command are relative to. -/
def origin? (relative : Bool) (p : Point) : Option Point := if relative then some p else none

end PathReader

namespace PathReading

open PathReader

def number : PathReading Float32 := fun r =>
  match r.cursor.token with
  | .number x => .ok x r.advance
  | _ => .error r.cursor.unexpected r

def skipComma : PathReading Unit := fun r =>
  match r.cursor.token with
  | .comma => .ok () r.advance
  | _ => .ok () r

/-- Two numbers with an optional comma between them. -/
def point (origin : Option Point) : PathReading Point := do
  let x ← number
  skipComma
  let y ← number
  return match origin with
    | some o => o + ⟨x, y⟩
    | none => ⟨x, y⟩

/-- One group of operands of a repeatable command. -/
def group (command : PathCommand) (relative : Bool) : PathReading Unit := do
  let r ← get
  match command with
  | .move =>
    let p ← point (origin? relative r.current)
    modify (·.moveTo p)
  | .line =>
    let p ← point (origin? relative r.current)
    modify (·.lineTo p)
  | .horizontal =>
    let x ← number
    modify (·.lineTo ⟨if relative then x + r.current.x else x, r.current.y⟩)
  | .vertical =>
    let y ← number
    modify (·.lineTo ⟨r.current.x, if relative then y + r.current.y else y⟩)
  | .cubic =>
    let c₁ ← point (origin? relative r.current)
    let c₂ ← point (origin? relative c₁)
    let p ← point (origin? relative c₂)
    modify (·.cubicTo .cubic c₁ c₂ p)
  | .smooth =>
    let c₂ ← point (origin? relative r.current)
    let p ← point (origin? relative c₂)
    modify (·.cubicTo .smooth r.smoothControl c₂ p)
  | .quad =>
    let c ← point (origin? relative r.current)
    let p ← point (origin? relative c)
    modify (·.quadTo c p)
  | .arc =>
    let _ ← point none
    let _ ← number
    let _ ← number
    let _ ← number
    let _ ← point (origin? relative r.current)
  | .fillRule =>
    let x ← number
    modify (·.setFillRule x)
  | .close => throw r.cursor.unexpected

/-! ## Progress -/

/-- A step that leaves no more tokens to come than there were. -/
def Keeps {α : Type} (m : PathReading α) : Prop :=
  ∀ ⦃r a r'⦄, m r = .ok a r' → r'.remaining ≤ r.remaining

/-- A step that takes a token. -/
def Takes {α : Type} (m : PathReading α) : Prop :=
  ∀ ⦃r a r'⦄, m r = .ok a r' → r'.remaining < r.remaining

theorem bind_eq_ok {α β : Type} {m : PathReading α} {f : α → PathReading β} {r r'' : PathReader}
    {b : β} (h : (m >>= f) r = .ok b r'') : ∃ a r', m r = .ok a r' ∧ f a r' = .ok b r'' := by
  change EStateM.bind m f r = _ at h
  unfold EStateM.bind at h
  split at h
  · exact ⟨_, _, ‹_›, h⟩
  · cases h

theorem Takes.keeps {α : Type} {m : PathReading α} (h : Takes m) : Keeps m :=
  fun _ _ _ hm => Nat.le_of_lt (h hm)

theorem Keeps.bind {α β : Type} {m : PathReading α} {f : α → PathReading β} (hm : Keeps m)
    (hf : ∀ a, Keeps (f a)) : Keeps (m >>= f) := by
  intro r b r'' h
  obtain ⟨a, r', h₁, h₂⟩ := bind_eq_ok h
  exact Nat.le_trans (hf a h₂) (hm h₁)

theorem Takes.bind {α β : Type} {m : PathReading α} {f : α → PathReading β} (hm : Takes m)
    (hf : ∀ a, Keeps (f a)) : Takes (m >>= f) := by
  intro r b r'' h
  obtain ⟨a, r', h₁, h₂⟩ := bind_eq_ok h
  exact Nat.lt_of_le_of_lt (hf a h₂) (hm h₁)

theorem Keeps.bind_takes {α β : Type} {m : PathReading α} {f : α → PathReading β} (hm : Keeps m)
    (hf : ∀ a, Takes (f a)) : Takes (m >>= f) := by
  intro r b r'' h
  obtain ⟨a, r', h₁, h₂⟩ := bind_eq_ok h
  exact Nat.lt_of_lt_of_le (hf a h₂) (hm h₁)

theorem keeps_pure {α : Type} (a : α) : Keeps (pure a : PathReading α) := by
  intro r b r' h
  cases h
  exact Nat.le_refl _

theorem keeps_get : Keeps (get : PathReading PathReader) := by
  intro r b r' h
  cases h
  exact Nat.le_refl _

theorem takes_throw {α : Type} (fault : PathFault) : Takes (throw fault : PathReading α) := by
  intro r b r' h
  cases h

theorem keeps_modify {f : PathReader → PathReader} (hf : ∀ r, (f r).remaining ≤ r.remaining) :
    Keeps (modify f : PathReading PUnit) := by
  intro r b r' h
  cases h
  exact hf r

theorem takes_number : Takes number := by
  intro r x r' h
  unfold number at h
  split at h
  · rename_i ht
    cases h
    exact PathCursor.remaining_advance_lt (by rw [ht]; rfl)
  · cases h

theorem keeps_skipComma : Keeps skipComma := by
  intro r x r' h
  unfold skipComma at h
  split at h
  · rename_i ht
    cases h
    exact Nat.le_of_lt (PathCursor.remaining_advance_lt (by rw [ht]; rfl))
  · cases h
    exact Nat.le_refl _

theorem takes_point (origin : Option Point) : Takes (point origin) :=
  takes_number.bind fun _ => keeps_skipComma.bind fun _ => takes_number.keeps.bind fun _ =>
    keeps_pure _

theorem takes_group (command : PathCommand) (relative : Bool) : Takes (group command relative) := by
  refine keeps_get.bind_takes fun r => ?_
  have pt := fun o => takes_point o
  have md := fun f hf => @keeps_modify f hf
  cases command
  case fillRule =>
    refine takes_number.bind fun x => md _ fun r => ?_
    unfold PathReader.setFillRule
    split
    · exact Nat.le_refl _
    · split <;> exact Nat.le_refl _
  case move => exact (pt _).bind fun _ => md _ fun _ => Nat.le_refl _
  case line => exact (pt _).bind fun _ => md _ fun _ => Nat.le_refl _
  case horizontal => exact takes_number.bind fun _ => md _ fun _ => Nat.le_refl _
  case vertical => exact takes_number.bind fun _ => md _ fun _ => Nat.le_refl _
  case cubic =>
    exact (pt _).bind fun _ => (pt _).keeps.bind fun _ => (pt _).keeps.bind fun _ =>
      md _ fun _ => Nat.le_refl _
  case smooth =>
    exact (pt _).bind fun _ => (pt _).keeps.bind fun _ => md _ fun _ => Nat.le_refl _
  case quad =>
    exact (pt _).bind fun _ => (pt _).keeps.bind fun _ => md _ fun _ => Nat.le_refl _
  case arc =>
    exact (pt _).bind fun _ => takes_number.keeps.bind fun _ => takes_number.keeps.bind fun _ =>
      takes_number.keeps.bind fun _ => (pt _).keeps.bind fun _ => keeps_pure _
  case close => exact takes_throw _

/-! ## Commands -/

/-- Reads groups of operands as long as a number comes next. -/
def groups (command : PathCommand) (relative : Bool) : PathReading Unit := fun r =>
  if r.cursor.token.isNumber then
    match _h : group command relative r with
    | .ok _ r' => groups command relative r'
    | .error fault r' => .error fault r'
  else .ok () r
termination_by r => r.remaining
decreasing_by exact takes_group _ _ _h

/-- Reads what follows the letter of a command. -/
def operands (command : PathCommand) (relative : Bool) : PathReading Unit :=
  match command with
  | .fillRule => group .fillRule relative
  | .close => modify PathReader.closePath
  | .arc => do
    groups .arc relative
    modify fun r => { r with notices := .arcsIgnored :: r.notices }
  | command => groups command relative

/-- A letter in either case, with its operands. -/
def command (letter : Char) : PathReading Unit := do
  match PathCommand.ofLetter? letter.toLower with
  | none => throw (.unknownCommand letter.toLower)
  | some command =>
    operands command letter.isLower
    modify fun r => { r with previous := some command }

theorem keeps_groups (command : PathCommand) (relative : Bool) :
    Keeps (groups command relative) := by
  intro r
  induction hn : r.remaining using Nat.strongRecOn generalizing r with
  | ind n ih =>
    intro a r' h
    unfold groups at h
    split at h
    · split at h
      · rename_i r'' hg
        have hlt := takes_group _ _ hg
        exact Nat.le_trans (ih _ (hn ▸ hlt) rfl h) (hn ▸ Nat.le_of_lt hlt)
      · cases h
    · cases h
      exact Nat.le_of_eq hn

theorem keeps_command (letter : Char) : Keeps (command letter) := by
  unfold command
  split
  · exact (takes_throw _).keeps
  · refine Keeps.bind ?_ fun _ => keeps_modify fun _ => Nat.le_refl _
    unfold operands
    split
    · exact (takes_group _ _).keeps
    · exact keeps_modify fun _ => Nat.le_refl _
    · exact (keeps_groups _ _).bind fun _ => keeps_modify fun _ => Nat.le_refl _
    · exact keeps_groups _ _

/-- Reads commands up to the end of the text. -/
def commands : PathReading Unit := fun r =>
  match _ht : r.cursor.token with
  | .command letter =>
    match _h : command letter r.advance with
    | .ok _ r' => commands r'
    | .error fault r' => .error fault r'
  | .endOfInput =>
    match r.cursor.fault with
    | some fault => .error fault r
    | none => .ok () r
  | _ => .error r.cursor.unexpected r
termination_by r => r.remaining
decreasing_by
  exact Nat.lt_of_le_of_lt (keeps_command _ _h)
    (PathCursor.remaining_advance_lt (by rw [_ht]; rfl))

end PathReading

namespace PathData

/-- Reads path data. What stands before the first fault is kept. -/
def parse (text : String) : Journaled PathData :=
  let finish (r : PathReader) (last : List Notice) : Journaled PathData :=
    ⟨⟨r.segments.reverse⟩, (r.notices.reverse ++ last).map .notice⟩
  match PathReading.commands { cursor := .ofText text } with
  | .ok _ r => finish r []
  | .error fault r => finish r [.pathBroken text fault]

end PathData

end Xps
