import Xps.PathData.Reader

/-!
# The grammar of path data

Path data in two phases: the whole text becomes tokens (`PathTokens.ofText`), and the tokens become
statements, each a command with groups of operands (`PathTokens.statements`). What a command expects
is its layout, a list of numbers and points. Reading stops in front of the first token that does not
fit, and the groups before it are kept. The statements are then drawn group by group
(`PathPlace.drawAll`).

Reading comes to the end of the tokens exactly if they spell statements, and it finds those
statements (`statements_eq_iff`).
-/

namespace Xps

/-! ## Tokens -/

/-- The tokens of a text in front of its end, and the fault that ends them early. -/
structure PathTokens where
  list : List PathToken
  fault : Option PathFault := none

def PathLexer.tokens (l : PathLexer) : PathTokens :=
  match _h : l.next with
  | .error fault => ⟨[], some fault⟩
  | .ok (t, l') =>
    if _ht : t.isEnd then ⟨[], none⟩
    else { l'.tokens with list := t :: l'.tokens.list }
termination_by l.rest.length
decreasing_by all_goals exact rest_next_lt _h (Bool.eq_false_iff.2 _ht)

/-- The tokens of a whole text. -/
def PathTokens.ofText (text : String) : PathTokens := PathLexer.tokens ⟨text.toList, 0⟩

/-! ## Operands -/

/-- What a command expects: a number, or a point written as two numbers. -/
inductive Operand
  | number
  | point

namespace PathCommand

/-- One group of operands. -/
@[reducible]
def layout : PathCommand → List Operand
  | fillRule | horizontal | vertical => [.number]
  | move | line => [.point]
  | cubic => [.point, .point, .point]
  | smooth | quad => [.point, .point]
  | arc => [.point, .number, .number, .number, .point]
  | close => []

/-- The command takes any number of groups, and not just one. -/
def repeats : PathCommand → Bool
  | fillRule | close => false
  | _ => true

theorem layout_ne_nil {c : PathCommand} (h : c.repeats) : c.layout ≠ [] := by
  cases c
  case close => cases h
  all_goals exact List.cons_ne_nil _ _

end PathCommand

/-- A number or a point for each operand of a layout. -/
inductive Operands : List Operand → Type
  | nil : Operands []
  | number {layout : List Operand} (x : Float32) (others : Operands layout) :
    Operands (.number :: layout)
  | point {layout : List Operand} (p : Point) (others : Operands layout) :
    Operands (.point :: layout)

namespace Operands

/-- Every point is relative to the one before it, and the first one to a reference. -/
def absolute (reference : Point) : {layout : List Operand} → Operands layout → Operands layout
  | _, nil => nil
  | _, number x others => number x (others.absolute reference)
  | _, point p others => point (reference + p) (others.absolute (reference + p))

/-- Tokens that spell operands. A comma may stand inside of a point and nowhere else. -/
inductive Spells : {layout : List Operand} → Operands layout → List PathToken → Prop
  | nil : Spells nil []
  | number {layout : List Operand} {others : Operands layout} {ts : List PathToken} (x : Float32) :
    Spells others ts → Spells (number x others) (.number x :: ts)
  | point {layout : List Operand} {others : Operands layout} {ts : List PathToken} (x y : Float32) :
    Spells others ts → Spells (point ⟨x, y⟩ others) (.number x :: .number y :: ts)
  | commaPoint {layout : List Operand} {others : Operands layout} {ts : List PathToken}
      (x y : Float32) :
    Spells others ts → Spells (point ⟨x, y⟩ others) (.number x :: .comma :: .number y :: ts)

/-- Reads a point, or stops in front of the token that does not fit. -/
def readPoint : List PathToken → Except (List PathToken) (Point × List PathToken)
  | .number x :: .number y :: ts => .ok (⟨x, y⟩, ts)
  | .number x :: .comma :: .number y :: ts => .ok (⟨x, y⟩, ts)
  | .number _ :: .comma :: ts => .error ts
  | .number _ :: ts => .error ts
  | ts => .error ts

/-- Reads the operands of a layout. -/
def read : (layout : List Operand) → List PathToken →
    Except (List PathToken) (Operands layout × List PathToken)
  | [], ts => .ok (nil, ts)
  | .number :: layout, .number x :: ts =>
    match read layout ts with
    | .ok (others, rest) => .ok (number x others, rest)
    | .error rest => .error rest
  | .number :: _, ts => .error ts
  | .point :: layout, ts =>
    match readPoint ts with
    | .ok (p, ts) =>
      match read layout ts with
      | .ok (others, rest) => .ok (point p others, rest)
      | .error rest => .error rest
    | .error rest => .error rest

theorem readPoint_eq_ok_iff {ts rest : List PathToken} {p : Point} :
    readPoint ts = .ok (p, rest) ↔
      ts = .number p.x :: .number p.y :: rest ∨
        ts = .number p.x :: .comma :: .number p.y :: rest := by
  constructor
  · intro h
    unfold readPoint at h
    split at h <;> cases h
    · exact .inl rfl
    · exact .inr rfl
  · rintro (rfl | rfl) <;> rfl

theorem spells_of_read {layout : List Operand} {ts rest : List PathToken} {group : Operands layout}
    (h : read layout ts = .ok (group, rest)) : ∃ used, Spells group used ∧ ts = used ++ rest := by
  fun_induction read layout ts with
  | case1 ts =>
    cases h
    exact ⟨[], .nil, rfl⟩
  | case2 layout x ts others rest' hread ih =>
    cases h
    obtain ⟨used, hspells, rfl⟩ := ih hread
    exact ⟨_, .number x hspells, rfl⟩
  | case5 layout ts p ts' hpoint others rest' hread ih =>
    cases h
    obtain ⟨used, hspells, rfl⟩ := ih hread
    rcases readPoint_eq_ok_iff.1 hpoint with rfl | rfl
    · exact ⟨_, .point p.x p.y hspells, rfl⟩
    · exact ⟨_, .commaPoint p.x p.y hspells, rfl⟩
  | case3 | case4 | case6 | case7 => cases h

theorem Spells.read {layout : List Operand} {used : List PathToken} {group : Operands layout}
    (h : Spells group used) (rest : List PathToken) :
    read layout (used ++ rest) = .ok (group, rest) := by
  induction h with
  | nil => rfl
  | number x _ ih => simp [Operands.read, ih]
  | point x y _ ih | commaPoint x y _ ih => simp [Operands.read, readPoint, ih]

/-- A group takes at least as many tokens as it has operands. -/
theorem Spells.length_le {layout : List Operand} {used : List PathToken} {group : Operands layout}
    (h : Spells group used) : layout.length ≤ used.length := by
  induction h <;> simp only [List.length_nil, List.length_cons] <;> omega

theorem Spells.exists_number {layout : List Operand} {used : List PathToken}
    {group : Operands layout} (h : Spells group used) (hne : layout ≠ []) :
    ∃ x ts, used = .number x :: ts := by
  cases h with
  | nil => exact absurd rfl hne
  | number x _ | point x _ _ | commaPoint x _ _ => exact ⟨x, _, rfl⟩

end Operands

/-! ## Statements -/

/-- A command with the groups that are read for it. -/
structure PathStatement where
  command : PathCommand
  relative : Bool
  groups : List (Operands command.layout)

/-- Tokens that spell one group after the other. -/
inductive Operands.SpellEach {layout : List Operand} :
    List (Operands layout) → List PathToken → Prop
  | nil : SpellEach [] []
  | cons {group : Operands layout} {groups : List (Operands layout)} {ts us : List PathToken} :
    Spells group ts → SpellEach groups us → SpellEach (group :: groups) (ts ++ us)

/-- Tokens that spell statements: letters in either case, each with groups. -/
inductive PathStatement.Spell : List PathStatement → List PathToken → Prop
  | nil : Spell [] []
  | cons {letter : Char} {command : PathCommand} {groups : List (Operands command.layout)}
      {statements : List PathStatement} {ts us : List PathToken} :
    PathCommand.ofLetter? letter.toLower = some command →
    (command.repeats ∨ groups.length = 1) → Operands.SpellEach groups ts → Spell statements us →
      Spell (⟨command, letter.isLower, groups⟩ :: statements) (.command letter :: (ts ++ us))

namespace PathCommand

def nextIsNumber (ts : List PathToken) : Bool := ts.head?.any PathToken.isNumber

/-- Reads groups as long as a number comes next. Without the last group that breaks off, they come
with what is left behind them, and otherwise with the place of the break. -/
def readGroups (c : PathCommand) (hc : c.repeats) (ts : List PathToken) :
    List (Operands c.layout) × Except (List PathToken) (List PathToken) :=
  if nextIsNumber ts then
    match _h : Operands.read c.layout ts with
    | .ok (group, rest) =>
      let (groups, stop) := readGroups c hc rest
      (group :: groups, stop)
    | .error stop => ([], .error stop)
  else ([], .ok ts)
termination_by ts.length
decreasing_by
  obtain ⟨used, hspells, rfl⟩ := Operands.spells_of_read _h
  have := hspells.length_le
  have := List.length_pos_iff.2 (layout_ne_nil hc)
  rw [List.length_append]
  omega

/-- Reads what belongs to a command. -/
def readOperands (c : PathCommand) (ts : List PathToken) :
    List (Operands c.layout) × Except (List PathToken) (List PathToken) :=
  if hc : c.repeats then c.readGroups hc ts
  else
    match Operands.read c.layout ts with
    | .ok (group, rest) => ([group], .ok rest)
    | .error stop => ([], .error stop)

open Operands (SpellEach)

theorem spellEach_of_readGroups {c : PathCommand} {hc : c.repeats} {ts rest : List PathToken}
    {groups : List (Operands c.layout)} (h : c.readGroups hc ts = (groups, .ok rest)) :
    ∃ used, SpellEach groups used ∧ ts = used ++ rest := by
  fun_induction readGroups c hc ts generalizing groups with
  | case1 ts hnumber group rest' hread groups' stop hgroups ih =>
    cases h
    obtain ⟨used, hgroup, rfl⟩ := Operands.spells_of_read hread
    obtain ⟨more, hmore, rfl⟩ := ih hgroups
    exact ⟨used ++ more, .cons hgroup hmore, (List.append_assoc _ _ _).symm⟩
  | case2 => cases h
  | case3 =>
    cases h
    exact ⟨[], .nil, rfl⟩

theorem readGroups_cons {c : PathCommand} (hc : c.repeats) {ts rest : List PathToken}
    {group : Operands c.layout} (hread : Operands.read c.layout ts = .ok (group, rest))
    (hnumber : nextIsNumber ts) :
    c.readGroups hc ts = (group :: (c.readGroups hc rest).1, (c.readGroups hc rest).2) := by
  rw [readGroups, if_pos hnumber]
  split
  · rename_i heq
    cases hread.symm.trans heq
    rfl
  · rename_i heq
    cases hread.symm.trans heq

/-- Groups are read up to a token that is no number. -/
theorem readGroups_of_spellEach {c : PathCommand} (hc : c.repeats)
    {used : List PathToken} {groups : List (Operands c.layout)} (h : SpellEach groups used)
    {rest : List PathToken} (hrest : nextIsNumber rest = false) :
    c.readGroups hc (used ++ rest) = (groups, .ok rest) := by
  induction h with
  | nil => simp [readGroups, hrest]
  | @cons group groups ts us hgroup _ ih =>
    obtain ⟨x, more, hts⟩ := hgroup.exists_number (layout_ne_nil hc)
    have hnumber : nextIsNumber (ts ++ us ++ rest) := by rw [hts]; rfl
    rw [List.append_assoc] at hnumber ⊢
    rw [readGroups_cons hc (hgroup.read _) hnumber, ih]

theorem spellEach_of_readOperands {c : PathCommand} {ts rest : List PathToken}
    {groups : List (Operands c.layout)} (h : c.readOperands ts = (groups, .ok rest)) :
    (c.repeats ∨ groups.length = 1) ∧ ∃ used, SpellEach groups used ∧ ts = used ++ rest := by
  unfold readOperands at h
  split at h
  · rename_i hc
    exact ⟨.inl hc, spellEach_of_readGroups h⟩
  · split at h
    · rename_i hread
      cases h
      obtain ⟨used, hgroup, rfl⟩ := Operands.spells_of_read hread
      exact ⟨.inr rfl, used, List.append_nil used ▸ .cons hgroup .nil, rfl⟩
    · cases h

theorem readOperands_of_spellEach {c : PathCommand} {used rest : List PathToken}
    {groups : List (Operands c.layout)} (hlength : c.repeats ∨ groups.length = 1)
    (h : SpellEach groups used) (hrest : nextIsNumber rest = false) :
    c.readOperands (used ++ rest) = (groups, .ok rest) := by
  unfold readOperands
  split
  · rename_i hc
    exact readGroups_of_spellEach hc h hrest
  · rename_i hc
    obtain ⟨group, rfl⟩ := List.length_eq_one_iff.1 (hlength.resolve_left hc)
    cases h with
    | cons hgroup hnil =>
      cases hnil
      rw [List.append_nil, hgroup.read]

theorem length_le_of_readOperands {c : PathCommand} {ts rest : List PathToken}
    {groups : List (Operands c.layout)} (h : c.readOperands ts = (groups, .ok rest)) :
    rest.length ≤ ts.length := by
  obtain ⟨-, used, -, rfl⟩ := spellEach_of_readOperands h
  rw [List.length_append]
  omega

end PathCommand

namespace PathTokens

/-- The fault in front of some tokens: the first one does not fit, or there are none. -/
def stop (fault : Option PathFault) : List PathToken → PathFault
  | [] => fault.getD (.unexpectedToken .endOfInput)
  | t :: _ => .unexpectedToken t

/-- The statements that tokens begin with, and the fault that ends them early. The last statement
may have lost a group that breaks off. -/
def statementsOf (fault : Option PathFault) (ts : List PathToken) :
    List PathStatement × Option PathFault :=
  match ts with
  | [] => ([], fault)
  | .command letter :: ts =>
    match PathCommand.ofLetter? letter.toLower with
    | none => ([], some (.unknownCommand letter.toLower))
    | some command =>
      match _h : command.readOperands ts with
      | (groups, .ok rest) =>
        let (later, fault) := statementsOf fault rest
        (⟨command, letter.isLower, groups⟩ :: later, fault)
      | (groups, .error rest) => ([⟨command, letter.isLower, groups⟩], some (stop fault rest))
  | t :: _ => ([], some (.unexpectedToken t))
termination_by ts.length
decreasing_by exact Nat.lt_succ_of_le (PathCommand.length_le_of_readOperands _h)

/-- The statements of a text that was tokenized, and the fault that ends them early. -/
def statements (tokens : PathTokens) : List PathStatement × Option PathFault :=
  statementsOf tokens.fault tokens.list

theorem spell_of_statementsOf {fault : Option PathFault} {ts : List PathToken}
    {found : List PathStatement} (h : statementsOf fault ts = (found, none)) :
    fault = none ∧ PathStatement.Spell found ts := by
  fun_induction statementsOf fault ts generalizing found with
  | case1 =>
    cases h
    exact ⟨rfl, .nil⟩
  | case3 letter ts command hcommand groups rest hread later fault' hlater ih =>
    cases h
    obtain ⟨hfault, hspell⟩ := ih hlater
    obtain ⟨hlength, used, hgroups, rfl⟩ := PathCommand.spellEach_of_readOperands hread
    exact ⟨hfault, .cons hcommand hlength hgroups hspell⟩
  | case2 | case4 | case5 => cases h

theorem statementsOf_command {fault : Option PathFault} {letter : Char} {ts rest : List PathToken}
    {command : PathCommand} {groups : List (Operands command.layout)}
    (hcommand : PathCommand.ofLetter? letter.toLower = some command)
    (hread : command.readOperands ts = (groups, .ok rest)) :
    statementsOf fault (.command letter :: ts) =
      (⟨command, letter.isLower, groups⟩ :: (statementsOf fault rest).1,
        (statementsOf fault rest).2) := by
  rw [statementsOf]
  split
  · rename_i hnone
    cases hcommand.symm.trans hnone
  · rename_i command' hcommand'
    cases hcommand.symm.trans hcommand'
    split
    · rename_i heq
      cases hread.symm.trans heq
      rfl
    · rename_i heq
      cases hread.symm.trans heq

theorem statementsOf_of_spell {found : List PathStatement} {ts : List PathToken}
    (h : PathStatement.Spell found ts) : statementsOf none ts = (found, none) := by
  induction h with
  | nil => rw [statementsOf]
  | @cons letter command groups statements ts us hcommand hlength hgroups hspell ih =>
    have hrest : PathCommand.nextIsNumber us = false := by cases hspell <;> rfl
    have hread := PathCommand.readOperands_of_spellEach hlength hgroups hrest
    rw [statementsOf_command hcommand hread, ih]

/-- Tokens are read to their end exactly if they spell statements, and these are then found. -/
theorem statements_eq_iff {tokens : PathTokens} {found : List PathStatement} :
    tokens.statements = (found, none) ↔
      tokens.fault = none ∧ PathStatement.Spell found tokens.list := by
  constructor
  · exact spell_of_statementsOf
  · rintro ⟨hfault, h⟩
    unfold statements
    rw [hfault]
    exact statementsOf_of_spell h

end PathTokens

/-! ## Drawing -/

/-- Where drawing stands between two groups. -/
structure PathPlace where
  current : Point := .zero
  /-- Where the subpath began. -/
  start : Point := .zero
  /-- The second control point of the latest cubic curve. -/
  control : Point := .zero
  /-- The command of the latest cubic curve or of the latest statement. -/
  previous : Option PathCommand := none

namespace PathPlace

/-- Where a smooth curve leaves: opposite to a cubic curve that was the command before it. -/
def smoothControl (s : PathPlace) : Point :=
  if s.previous = some .cubic ∨ s.previous = some .smooth then s.current.reflect s.control
  else s.current

/-- Only 0 and 1 name a fill rule. -/
def fillRule? (x : Float32) : Option FillRule :=
  if x == 0 then some .evenOdd else if x == 1 then some .winding else none

/-- What one group of absolute points draws, and where it leads. -/
def trace (s : PathPlace) (relative : Bool) :
    (c : PathCommand) → Operands c.layout → List PathSegment × PathPlace
  | .fillRule, .number x .nil => ((fillRule? x).toList.map .fillRule, s)
  | .move, .point p .nil => ([.move p], { s with current := p, start := p })
  | .line, .point p .nil => ([.line p], { s with current := p })
  | .horizontal, .number x .nil =>
    let p : Point := ⟨if relative then x + s.current.x else x, s.current.y⟩
    ([.line p], { s with current := p })
  | .vertical, .number y .nil =>
    let p : Point := ⟨s.current.x, if relative then y + s.current.y else y⟩
    ([.line p], { s with current := p })
  | .cubic, .point c₁ (.point c₂ (.point p .nil)) =>
    ([.cubic c₁ c₂ p], { s with current := p, control := c₂, previous := some .cubic })
  | .smooth, .point c₂ (.point p .nil) =>
    ([.cubic s.smoothControl c₂ p],
      { s with current := p, control := c₂, previous := some .smooth })
  | .quad, .point c (.point p .nil) => ([.quad c p], { s with current := p })
  | .arc, _ => ([], s)
  | .close, .nil => ([.close], { s with current := s.start })

theorem trace_fillRule (s : PathPlace) (relative : Bool) (x : Float32) :
    s.trace relative .fillRule (.number x .nil) = ((fillRule? x).toList.map .fillRule, s) := rfl

/-- What one group draws. -/
def draw (c : PathCommand) (relative : Bool) (s : PathPlace) (group : Operands c.layout) :
    List PathSegment × PathPlace :=
  s.trace relative c (if relative then group.absolute s.current else group)

/-- What the groups of a command draw. -/
def drawEach (c : PathCommand) (relative : Bool) :
    PathPlace → List (Operands c.layout) → List PathSegment × PathPlace
  | s, [] => ([], s)
  | s, group :: groups =>
    let (segments, s) := draw c relative s group
    let (later, s) := drawEach c relative s groups
    (segments ++ later, s)

/-- What statements draw. -/
def drawAll : PathPlace → List PathStatement → List PathSegment
  | _, [] => []
  | s, ⟨command, relative, groups⟩ :: statements =>
    let (segments, s) := drawEach command relative s groups
    segments ++ drawAll { s with previous := some command } statements

end PathPlace

end Xps
