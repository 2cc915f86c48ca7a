import Xps.Number.Decimal
import Xps.Number.Shortest
import Xps.Text.Split

/-!
# Tokens of path data

Path data is made of numbers, commas and one-letter commands. A lexer yields one token at a time and
stands at the byte where the next one begins. The rest of the text gets shorter with every token but
the last.
-/

namespace Xps

open Text (byteLength length_dropWhile_le)

inductive PathToken
  | number (x : Float32)
  | comma
  | command (letter : Char)
  | endOfInput

/-- Why the reading of path data stops. -/
inductive PathFault
  | unexpectedChar (position : Nat)
  | invalidNumber (position : Nat)
  | unexpectedToken (token : PathToken)
  | unknownCommand (letter : Char)

namespace PathToken

def describe : PathToken → String
  | number x => "Number(" ++ Shortest.detailed x ++ ")"
  | comma => "Comma"
  | command letter => "Command(" ++ toString letter.toNat ++ ")"
  | endOfInput => "EndOfInput"

def isNumber : PathToken → Bool
  | number _ => true
  | _ => false

def isEnd : PathToken → Bool
  | endOfInput => true
  | _ => false

end PathToken

def PathFault.message : PathFault → String
  | unexpectedChar position => s!"unexpected character at {position}"
  | invalidNumber position => s!"invalid number at {position}"
  | unexpectedToken token => "unexpected token " ++ token.describe
  | unknownCommand letter => "unknown command '" ++ letter.toString ++ "'"

/-- What is left of a text, and the byte where it begins. -/
structure PathLexer where
  rest : List Char
  position : Nat := 0

namespace PathLexer

def isSpace (c : Char) : Bool :=
  c == ' ' || c == '\t' || c == '\n' || c == '\x0c' || c == '\r'

def startsNumber (c : Char) : Bool := c.isDigit || c == '+' || c == '-' || c == '.'

/-- A number runs up to a space, a comma or a letter that is no exponent mark. -/
def continuesNumber (c : Char) : Bool :=
  !isSpace c && c != ',' && (!c.isAlpha || c == 'e' || c == 'E')

/-- Skips the spaces. -/
def skip (l : PathLexer) : PathLexer :=
  { rest := l.rest.dropWhile isSpace
    position := l.position + byteLength (l.rest.takeWhile isSpace) }

/-- Reads the token that begins right here. -/
def token (position : Nat) : List Char → Except PathFault (PathToken × PathLexer)
  | [] => .ok (.endOfInput, ⟨[], position⟩)
  | c :: cs =>
    if startsNumber c then
      let run := c :: cs.takeWhile continuesNumber
      match Decimal.readFinite? run with
      | some x => .ok (.number x, ⟨cs.dropWhile continuesNumber, position + byteLength run⟩)
      | none => .error (.invalidNumber position)
    else if c = ',' then .ok (.comma, ⟨cs, position + 1⟩)
    else if c.isAlpha then .ok (.command c, ⟨cs, position + 1⟩)
    else .error (.unexpectedChar position)

def next (l : PathLexer) : Except PathFault (PathToken × PathLexer) :=
  let l := l.skip
  token l.position l.rest

theorem rest_token_lt {position : Nat} {cs : List Char} {t : PathToken} {l : PathLexer}
    (h : token position cs = .ok (t, l)) (ht : t.isEnd = false) : l.rest.length < cs.length := by
  unfold token at h
  split at h
  · cases h; cases ht
  · rename_i c cs
    have := length_dropWhile_le continuesNumber cs
    split at h
    · dsimp only at h
      split at h
      · cases h; simp only [List.length_cons]; omega
      · cases h
    · split at h
      · cases h; simp
      · split at h
        · cases h; simp
        · cases h

theorem rest_token_le {position : Nat} {cs : List Char} {t : PathToken} {l : PathLexer}
    (h : token position cs = .ok (t, l)) : l.rest.length ≤ cs.length := by
  cases ht : t.isEnd
  · exact Nat.le_of_lt (rest_token_lt h ht)
  · unfold token at h
    split at h
    · cases h; simp
    · split at h
      · dsimp only at h
        split at h <;> cases h
        cases ht
      · split at h
        · cases h; cases ht
        · split at h <;> cases h
          cases ht

theorem rest_next_lt {l l' : PathLexer} {t : PathToken} (h : l.next = .ok (t, l'))
    (ht : t.isEnd = false) : l'.rest.length < l.rest.length :=
  Nat.lt_of_lt_of_le (rest_token_lt h ht) (length_dropWhile_le _ _)

theorem rest_next_le {l l' : PathLexer} {t : PathToken} (h : l.next = .ok (t, l')) :
    l'.rest.length ≤ l.rest.length :=
  Nat.le_trans (rest_token_le h) (length_dropWhile_le _ _)

end PathLexer

end Xps
