import Xps.Proofs.PathData.Grammar

/-!
# Tokens ahead of a cursor

The reader of path data takes tokens one by one, looks one ahead, and hides a fault of the lexer
behind the lookahead. What is ahead of its cursor is a list of tokens and the fault behind them
(`PathCursor.Ahead`).

Reading operands only moves the cursor, and it takes from that list what the grammar takes
(`moves_written`).
-/

namespace Xps

/-! ## What is ahead -/

namespace PathCursor

/-- The tokens ahead of a cursor, and the fault that ends them, which shows only at the end. -/
inductive Ahead : PathCursor → List PathToken → Option PathFault → Prop
  | finish {c : PathCursor} : c.token = .endOfInput → Ahead c [] c.fault
  | next {c : PathCursor} : c.token.isEnd = false → c.fault = none →
    Ahead c (c.token :: c.lexer.tokens.list) c.lexer.tokens.fault

theorem ahead_advance {c : PathCursor} (h : c.fault = none) :
    c.advance.Ahead c.lexer.tokens.list c.lexer.tokens.fault := by
  rw [PathLexer.tokens]
  split
  · rename_i fault hnext
    have hadvance : c.advance =
        { c with token := .endOfInput, fault := some fault, pulls := c.pulls + 1 } := by
      unfold advance
      rw [hnext]
    rw [hadvance]
    exact .finish rfl
  · rename_i t l hnext
    have hadvance : c.advance = { c with lexer := l, token := t, pulls := c.pulls + 1 } := by
      unfold advance
      rw [hnext]
    rw [hadvance]
    cases ht : t.isEnd with
    | true =>
      have ht : t = .endOfInput := by
        cases t <;> first | rfl | cases ht
      simpa [h] using Ahead.finish (c := { c with lexer := l, token := t, pulls := c.pulls + 1 }) ht
    | false =>
      exact Ahead.next (c := { c with lexer := l, token := t, pulls := c.pulls + 1 }) ht h

theorem ahead_ofText (text : String) :
    (ofText text).Ahead (PathTokens.ofText text).list (PathTokens.ofText text).fault :=
  ahead_advance (c := ⟨⟨text.toList, 0⟩, .endOfInput, none, 0⟩) rfl

variable {c : PathCursor} {t : PathToken} {ts : List PathToken} {fault : Option PathFault}

theorem Ahead.token_eq (h : c.Ahead (t :: ts) fault) : c.token = t := by
  cases h
  rfl

theorem Ahead.token_nil (h : c.Ahead [] fault) : c.token = .endOfInput ∧ c.fault = fault := by
  cases h with
  | finish hend => exact ⟨hend, rfl⟩

theorem Ahead.advance (h : c.Ahead (t :: ts) fault) : c.advance.Ahead ts fault := by
  cases h with
  | next _ hfault => exact ahead_advance hfault

theorem Ahead.unexpected_eq (h : c.Ahead ts fault) : c.unexpected = PathTokens.stop fault ts := by
  unfold unexpected
  cases h with
  | finish hend => rw [hend]; rfl
  | next _ hfault => rw [hfault]; rfl

theorem Ahead.isNumber_eq (h : c.Ahead ts fault) :
    c.token.isNumber = PathCommand.nextIsNumber ts := by
  cases h with
  | finish hend => rw [hend]; rfl
  | next => rfl

end PathCursor

/-! ## Steps that only move the cursor -/

namespace PathReading

open PathReader PathCommand

variable {α β : Type}

/-- A reading of a list of tokens: the result and the tokens left, or the place where it stops. -/
abbrev ListReading (α : Type) := List PathToken → Except (List PathToken) (α × List PathToken)

/-- The outcomes of a step that only moves the cursor, and of a list reading that does the same. -/
inductive MovesTo (r : PathReader) (fault : Option PathFault) :
    EStateM.Result PathFault PathReader α → Except (List PathToken) (α × List PathToken) → Prop
  | ok {cursor : PathCursor} {rest : List PathToken} (a : α) :
    cursor.Ahead rest fault → MovesTo r fault (.ok a { r with cursor }) (.ok (a, rest))
  | error {cursor : PathCursor} {rest : List PathToken} :
    MovesTo r fault (.error (PathTokens.stop fault rest) { r with cursor }) (.error rest)

def Moves (m : PathReading α) (read : ListReading α) : Prop :=
  ∀ (r : PathReader) (ts : List PathToken) (fault : Option PathFault), r.cursor.Ahead ts fault →
    MovesTo r fault (m r) (read ts)

theorem Moves.pure (a : α) : Moves (Pure.pure a) fun ts => .ok (a, ts) :=
  fun _ _ _ h => .ok a h

theorem Moves.bind {m : PathReading α} {f : α → PathReading β} {read : ListReading α}
    {next : α → ListReading β} (hm : Moves m read) (hf : ∀ a, Moves (f a) (next a)) :
    Moves (m >>= f) fun ts => (read ts).bind fun x => next x.1 x.2 := by
  intro r ts fault h
  have hfirst := hm r ts fault h
  show MovesTo r fault (EStateM.bind m f r) ((read ts).bind _)
  unfold EStateM.bind
  generalize m r = result at hfirst ⊢
  generalize read ts = found at hfirst ⊢
  cases hfirst with
  | error => exact .error
  | @ok cursor rest a hahead =>
    have hsecond := hf a { r with cursor } rest fault hahead
    dsimp only [Except.bind]
    generalize f a { r with cursor } = result at hsecond ⊢
    generalize next a rest = found at hsecond ⊢
    cases hsecond with
    | error => exact .error
    | ok b hahead => exact .ok b hahead

def readNumber : ListReading Float32
  | .number x :: ts => .ok (x, ts)
  | ts => .error ts

def dropComma : List PathToken → List PathToken
  | .comma :: ts => ts
  | ts => ts

theorem moves_number : Moves number readNumber := by
  intro r ts fault h
  have herror (ht : ∀ x, r.cursor.token ≠ .number x) :
      number r = .error (PathTokens.stop fault ts) r := by
    unfold number
    rw [← h.unexpected_eq]
    split
    · rename_i heq
      exact absurd heq (ht _)
    · rfl
  unfold readNumber
  split
  · rename_i x ts
    have hnumber : number r = .ok x r.advance := by
      unfold number
      rw [h.token_eq]
    rw [hnumber]
    exact .ok x h.advance
  · rename_i ts hts
    rw [herror]
    · exact .error
    · intro x hx
      cases h with
      | finish hend => cases hend.symm.trans hx
      | next => exact hts x _ (congrArg (· :: _) hx)

theorem moves_skipComma : Moves skipComma fun ts => .ok ((), dropComma ts) := by
  intro r ts fault h
  dsimp only
  unfold skipComma dropComma
  cases h with
  | finish hend => simpa [hend] using MovesTo.ok (r := r) () (.finish hend)
  | next hnext hfault =>
    have h := PathCursor.Ahead.next hnext hfault
    split
    · rename_i heq
      rw [heq] at h ⊢
      exact .ok () h.advance
    · rename_i heq
      split
      · rename_i ht
        exact absurd (List.cons.inj ht).1 heq
      · exact .ok () h

theorem readPoint_eq (ts : List PathToken) :
    Operands.readPoint ts = (readNumber ts).bind fun x =>
      (readNumber (dropComma x.2)).bind fun y => .ok (⟨x.1, y.1⟩, y.2) := by
  rcases ts with _ | ⟨_ | _ | _ | _, _ | ⟨_ | _ | _ | _, _ | ⟨_ | _ | _ | _, ts⟩⟩⟩ <;> rfl

theorem moves_point : Moves (point none) Operands.readPoint := by
  have hread : Operands.readPoint = _ := funext readPoint_eq
  rw [hread]
  exact moves_number.bind fun x => moves_skipComma.bind fun _ => moves_number.bind fun y => .pure _

/-- Reads the operands of a layout as they are written. -/
def written : (layout : List Operand) → PathReading (Operands layout)
  | [] => return .nil
  | .number :: layout => return .number (← number) (← written layout)
  | .point :: layout => return .point (← point none) (← written layout)

theorem read_number (layout : List Operand) (ts : List PathToken) :
    Operands.read (.number :: layout) ts = (readNumber ts).bind fun x =>
      (Operands.read layout x.2).bind fun others => .ok (.number x.1 others.1, others.2) := by
  rcases ts with _ | ⟨x | _ | _ | _, ts⟩
  case cons.number =>
    rw [Operands.read, readNumber, Except.bind]
    dsimp only
    cases Operands.read layout ts <;> rfl
  all_goals rfl

theorem read_point (layout : List Operand) (ts : List PathToken) :
    Operands.read (.point :: layout) ts = (Operands.readPoint ts).bind fun p =>
      (Operands.read layout p.2).bind fun others => .ok (.point p.1 others.1, others.2) := by
  rw [Operands.read]
  rcases Operands.readPoint ts with _ | ⟨p, rest⟩
  · rfl
  · rw [Except.bind]
    dsimp only
    cases Operands.read layout rest <;> rfl

theorem moves_written (layout : List Operand) : Moves (written layout) (Operands.read layout) := by
  induction layout with
  | nil => exact .pure _
  | cons operand layout ih =>
    cases operand with
    | number =>
      rw [funext (read_number layout)]
      exact moves_number.bind fun x => ih.bind fun others => .pure _
    | point =>
      rw [funext (read_point layout)]
      exact moves_point.bind fun p => ih.bind fun others => .pure _

end PathReading

end Xps
