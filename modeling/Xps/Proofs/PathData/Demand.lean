import Xps.Proofs.PathData.Bytes
import Xps.Proofs.PathData.Reading

/-!
# How tokens are asked for

The reader of path data asks for the next token only while the one at hand is not the end
(`PathCursor.Asks`). A fault of the lexer shows as the end, so that nothing is asked for behind it
either. Every token but the end takes a byte of the text. So there is at most one call more than
there are bytes (`PathData.asksWell_parse`).

Each of these calls is followed on the bytes of the text (`ByteLexer.Call`).
-/

namespace Xps

/-! ## Cursors -/

namespace PathCursor

/-- A cursor and those that come from it by asking for tokens, but not behind the end. -/
inductive Asks (c : PathCursor) : PathCursor → Prop
  | refl : Asks c c
  | advance {d : PathCursor} : Asks c d → d.token.isEnd = false → Asks c d.advance

theorem Asks.trans {c d e : PathCursor} (h : c.Asks d) (h' : d.Asks e) : c.Asks e := by
  induction h' with
  | refl => exact h
  | advance _ hend ih => exact .advance ih hend

theorem asks_advance {c : PathCursor} (h : c.token.isEnd = false) : c.Asks c.advance :=
  .advance .refl h

end PathCursor

/-! ## Readers -/

namespace PathReading

variable {α β : Type}

/-- The outcomes of a step that asks for tokens, but not behind the end. -/
inductive AsksFrom (c : PathCursor) : EStateM.Result PathFault PathReader α → Prop
  | ok (a : α) {r : PathReader} : c.Asks r.cursor → AsksFrom c (.ok a r)
  | error (fault : PathFault) {r : PathReader} : c.Asks r.cursor → AsksFrom c (.error fault r)

def Asking (m : PathReading α) : Prop := ∀ r : PathReader, AsksFrom r.cursor (m r)

theorem AsksFrom.of_asks {c d : PathCursor} {result : EStateM.Result PathFault PathReader α}
    (h : c.Asks d) (hresult : AsksFrom d result) : AsksFrom c result := by
  cases hresult with
  | ok a h' => exact .ok a (h.trans h')
  | error fault h' => exact .error fault (h.trans h')

theorem Asking.bind {m : PathReading α} {f : α → PathReading β} (hm : Asking m)
    (hf : ∀ a, Asking (f a)) : Asking (m >>= f) := by
  intro r
  have hfirst := hm r
  show AsksFrom r.cursor (EStateM.bind m f r)
  unfold EStateM.bind
  generalize m r = result at hfirst ⊢
  cases hfirst with
  | @ok a r' h => exact .of_asks h (hf a r')
  | error fault h => exact .error fault h

theorem asking_pure (a : α) : Asking (pure a) := fun _ => .ok a .refl

theorem asking_get : Asking (get : PathReading PathReader) := fun r => .ok r .refl

theorem asking_throw (fault : PathFault) : Asking (throw fault : PathReading α) :=
  fun _ => .error fault .refl

theorem asking_modify {f : PathReader → PathReader} (hf : ∀ r, (f r).cursor = r.cursor) :
    Asking (modify f : PathReading PUnit) :=
  fun r => .ok _ (show r.cursor.Asks (f r).cursor from (hf r).symm ▸ .refl)

theorem asking_number : Asking number := by
  intro r
  unfold number
  split
  · rename_i x htoken
    exact .ok x (PathCursor.asks_advance (by rw [htoken]; rfl))
  · exact .error _ .refl

theorem asking_skipComma : Asking skipComma := by
  intro r
  unfold skipComma
  split
  · rename_i htoken
    exact .ok () (PathCursor.asks_advance (by rw [htoken]; rfl))
  · exact .ok () .refl

theorem asking_point (origin : Option Point) : Asking (point origin) :=
  asking_number.bind fun _ => asking_skipComma.bind fun _ => asking_number.bind fun _ =>
    asking_pure _

theorem asking_group (command : PathCommand) (relative : Bool) :
    Asking (group command relative) := by
  refine asking_get.bind fun r => ?_
  cases command
  case fillRule =>
    refine asking_number.bind fun x => asking_modify fun r => ?_
    unfold PathReader.setFillRule
    split
    · rfl
    · split <;> rfl
  case move | line => exact (asking_point _).bind fun _ => asking_modify fun _ => rfl
  case horizontal | vertical => exact asking_number.bind fun _ => asking_modify fun _ => rfl
  case cubic =>
    exact (asking_point _).bind fun _ => (asking_point _).bind fun _ => (asking_point _).bind
      fun _ => asking_modify fun _ => rfl
  case smooth | quad =>
    exact (asking_point _).bind fun _ => (asking_point _).bind fun _ => asking_modify fun _ => rfl
  case arc =>
    exact (asking_point _).bind fun _ => asking_number.bind fun _ => asking_number.bind fun _ =>
      asking_number.bind fun _ => (asking_point _).bind fun _ => asking_pure _
  case close => exact asking_throw _

theorem asking_groups (command : PathCommand) (relative : Bool) :
    Asking (groups command relative) := by
  intro r
  have hgroup := asking_group command relative
  fun_induction groups command relative r with
  | case1 r hnumber _ r' heq ih =>
    have hfirst := hgroup r
    rw [heq] at hfirst
    cases hfirst with
    | ok _ h => exact .of_asks h ih
  | case2 r hnumber fault r' heq =>
    have hfirst := hgroup r
    rwa [heq] at hfirst
  | case3 r hnumber => exact .ok () .refl

theorem asking_operands (command : PathCommand) (relative : Bool) :
    Asking (operands command relative) := by
  unfold operands
  split
  · exact asking_group _ _
  · exact asking_modify fun _ => rfl
  · exact (asking_groups _ _).bind fun _ => asking_modify fun _ => rfl
  · exact asking_groups _ _

theorem asking_command (letter : Char) : Asking (command letter) := by
  unfold command
  split
  · exact asking_throw _
  · exact (asking_operands _ _).bind fun _ => asking_modify fun _ => rfl

theorem asking_commands : Asking commands := by
  intro r
  fun_induction commands r with
  | case1 r letter htoken _ r' heq ih =>
    have hletter := asking_command letter r.advance
    rw [heq] at hletter
    cases hletter with
    | ok _ h =>
      have hadvance := PathCursor.asks_advance (c := r.cursor) (by rw [htoken]; rfl)
      exact .of_asks (hadvance.trans h) ih
  | case2 r letter htoken fault r' heq =>
    have hletter := asking_command letter r.advance
    rw [heq] at hletter
    exact .of_asks (PathCursor.asks_advance (c := r.cursor) (by rw [htoken]; rfl)) hletter
  | case3 r htoken fault hfault => exact .error fault .refl
  | case4 r htoken hfault => exact .ok () .refl
  | case5 r hcommand hend => exact .error _ .refl

/-- Where the reading of a text stops, whether it is complete or breaks off. -/
theorem asks_ending (text : String) :
    (PathCursor.ofText text).Asks (ending (commands { cursor := .ofText text })).cursor := by
  have h := asking_commands { cursor := .ofText text }
  generalize commands { cursor := .ofText text } = result at h ⊢
  cases h with
  | ok _ h | error _ h => exact h

end PathReading

/-! ## Calls, one after the other -/

/-- The cursor of a text after a number of calls, whatever they answered. -/
def PathCursor.after (text : String) : Nat → PathCursor
  | 0 => ⟨⟨text.toList, 0⟩, .endOfInput, none, 0⟩
  | n + 1 => (after text n).advance

/-- The lexer on the bytes of a text after a number of calls, unless a slice has failed. -/
def ByteLexer.after? (text : String) : Nat → Option ByteLexer
  | 0 => some ⟨text, 0⟩
  | n + 1 => (after? text n).bind fun l => l.next.map Prod.snd

namespace PathCursor

/-- What a cursor keeps of the last answer. -/
inductive Shows (c : PathCursor) : Except PathFault PathToken → Prop
  | token : c.fault = none → Shows c (.ok c.token)
  | fault {fault : PathFault} : c.token = .endOfInput → c.fault = some fault →
    Shows c (.error fault)

theorem Shows.eq_ok {c : PathCursor} {answer : Except PathFault PathToken} (h : c.Shows answer)
    (hend : c.token.isEnd = false) : answer = .ok c.token := by
  cases h with
  | token => rfl
  | fault htoken =>
    rw [htoken] at hend
    cases hend

theorem pulls_advance (c : PathCursor) : c.advance.pulls = c.pulls + 1 := by
  unfold advance
  split <;> rfl

theorem pulls_after (text : String) (n : Nat) : (after text n).pulls = n := by
  induction n with
  | zero => rfl
  | succ n ih => rw [after, pulls_advance, ih]

/-- A cursor that has not asked behind the end is known from the number of its calls. -/
theorem Asks.after {text : String} {c : PathCursor} (h : (ofText text).Asks c) :
    0 < c.pulls ∧ c = .after text c.pulls ∧
      ∀ k, 0 < k → k < c.pulls → (PathCursor.after text k).token.isEnd = false := by
  induction h with
  | refl =>
    have hpulls : (ofText text).pulls = 1 := pulls_after text 1
    rw [hpulls]
    exact ⟨Nat.one_pos, rfl, fun k hk hlt => by omega⟩
  | @advance d _ hend ih =>
    obtain ⟨hpos, hd, hearlier⟩ := ih
    rw [pulls_advance]
    refine ⟨Nat.succ_pos _, congrArg PathCursor.advance hd, fun k hk hlt => ?_⟩
    rcases Nat.lt_succ_iff_lt_or_eq.1 hlt with hlt | rfl
    · exact hearlier k hk hlt
    · rw [← hd]
      exact hend

end PathCursor

/-- After some calls, both lexers of a text stand at the same place. -/
structure ByteLexer.Beside (text : String) (n : Nat) : Prop where
  bytes : after? text n = some ⟨text, (PathCursor.after text n).lexer.position⟩
  standsIn : (PathCursor.after text n).lexer.StandsIn text
  fault : (PathCursor.after text n).fault = none

namespace ByteLexer

variable {text : String} {n : Nat}

theorem beside_zero (text : String) : Beside text 0 where
  bytes := rfl
  standsIn := PathLexer.standsIn_start text
  fault := rfl

/-- One more call. -/
theorem Beside.call (h : Beside text n) :
    ∃ answer l', Call ⟨text, (PathCursor.after text n).lexer.position⟩ answer l' ∧
      (PathCursor.after text (n + 1)).Shows answer ∧
      ((PathCursor.after text (n + 1)).token.isEnd = false →
        l' = ⟨text, (PathCursor.after text (n + 1)).lexer.position⟩ ∧ Beside text (n + 1)) := by
  obtain ⟨answer, l', hcall, hagrees⟩ := exists_call h.standsIn
  have hbytes : after? text (n + 1) = some l' := by
    rw [after?, h.bytes, Option.bind_some, hcall.next_eq]
    rfl
  have hadvance : PathCursor.after text (n + 1) = (PathCursor.after text n).advance := rfl
  refine ⟨answer, l', hcall, ?_⟩
  unfold PathCursor.advance at hadvance
  generalize (PathCursor.after text n).lexer.next = taken at hagrees hadvance
  cases hagrees with
  | @token lexer t hstands =>
    refine ⟨?_, fun _ => ⟨by rw [hadvance], ?_⟩⟩
    · have ht : (PathCursor.after text (n + 1)).token = t := by rw [hadvance]
      exact ht ▸ .token (by rw [hadvance]; exact h.fault)
    · exact
        { bytes := by rw [hbytes, hadvance]
          standsIn := by rw [hadvance]; exact hstands
          fault := by rw [hadvance]; exact h.fault }
  | fault fault _ =>
    have htoken : (PathCursor.after text (n + 1)).token = .endOfInput := by rw [hadvance]
    refine ⟨.fault htoken (by rw [hadvance]), fun hend => ?_⟩
    rw [htoken] at hend
    cases hend

/-- Each token in front of the end has taken a byte. -/
theorem beside_of_tokens
    (h : ∀ k, 0 < k → k ≤ n → (PathCursor.after text k).token.isEnd = false) :
    Beside text n ∧ n ≤ (PathCursor.after text n).lexer.position := by
  induction n with
  | zero => exact ⟨beside_zero text, Nat.zero_le _⟩
  | succ n ih =>
    obtain ⟨hbeside, hle⟩ := ih fun k hk hkn => h k hk (Nat.le_succ_of_le hkn)
    obtain ⟨answer, l', hcall, hshows, hbehind⟩ := hbeside.call
    have hend := h (n + 1) (Nat.succ_pos n) (Nat.le_refl _)
    obtain ⟨rfl, hnext⟩ := hbehind hend
    have hlt := hcall.position_lt (hshows.eq_ok hend) hend
    exact ⟨hnext, Nat.succ_le_of_lt (Nat.lt_of_le_of_lt hle hlt)⟩

end ByteLexer

/-! ## Parsing -/

namespace PathData

open PathReading (ending commands)

/-- Where the parsing of a text comes to, whether it is complete or breaks off. -/
def reader (text : String) : PathReader := ending (commands { cursor := .ofText text })

/-- How a reader has asked for the tokens of a text. -/
structure AsksWell (text : String) (r : PathReader) : Prop where
  /-- What is at hand is what the last call has answered. -/
  cursor_eq : r.cursor = .after text r.cursor.pulls
  pulls_pos : 0 < r.cursor.pulls
  pulls_le : r.cursor.pulls ≤ text.utf8ByteSize + 1
  /-- Every call goes on at some byte, and no call follows a fault or the end. -/
  call {k : Nat} : k < r.cursor.pulls → ∃ i answer l',
    ByteLexer.after? text k = some ⟨text, i⟩ ∧ ByteLexer.Call ⟨text, i⟩ answer l' ∧
      (PathCursor.after text (k + 1)).Shows answer ∧
      (k + 1 < r.cursor.pulls → ∃ t, answer = .ok t ∧ t.isEnd = false)

/-- **How parsing asks for tokens**, also where it breaks off. -/
theorem asksWell_parse (text : String) :
    AsksWell text (reader text) ∧
      (parse text).value.segments = (reader text).segments.reverse := by
  obtain ⟨hpos, hcursor, hearlier⟩ := (PathReading.asks_ending text).after
  have hbeside (k : Nat) (hk : k < (reader text).cursor.pulls) :
      ByteLexer.Beside text k ∧ k ≤ (PathCursor.after text k).lexer.position :=
    ByteLexer.beside_of_tokens fun j hj hjk => hearlier j hj (Nat.lt_of_le_of_lt hjk hk)
  refine ⟨⟨hcursor, hpos, ?_, fun {k} hk => ?_⟩, PathReading.segments_parse text⟩
  · -- The calls but the last one have each taken a byte.
    obtain ⟨hlast, hle⟩ := hbeside _ (Nat.sub_lt hpos Nat.one_pos)
    have := hlast.standsIn.position_le
    omega
  · obtain ⟨hat, -⟩ := hbeside k hk
    obtain ⟨answer, l', hcall, hshows, -⟩ := hat.call
    refine ⟨_, answer, l', hat.bytes, hcall, hshows, fun hlt => ?_⟩
    have hend := hearlier (k + 1) (Nat.succ_pos k) hlt
    exact ⟨_, hshows.eq_ok hend, hend⟩

/-- Two commands that stand alone, and a call for each byte and for the end. -/
example : (reader "zz").cursor.pulls = "zz".utf8ByteSize + 1 := by
  with_unfolding_all rfl

end PathData

end Xps
