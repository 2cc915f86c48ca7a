import Xps.Markup.Error
import Xps.Number.Power
import Xps.Text.Digit
import Xps.Text.Split

/-!
# References in attribute values

A value may hold the five predefined entities and characters by number. Each reference runs from an
ampersand to a semicolon.
-/

namespace Xps.Reference

open Text (byteLength digit? length_dropWhile_le)

def entity? (name : String) : Option Char :=
  match name with
  | "lt" => some '<'
  | "gt" => some '>'
  | "amp" => some '&'
  | "quot" => some '"'
  | "apos" => some '\''
  | _ => none

/-- Appends a digit to a number that has to fit into 32 bits. -/
def pushDigit (radix n : Nat) (c : Char) : Except CharacterFault Nat :=
  match digit? radix c with
  | none => .error .invalidDigit
  | some d => if radix * n + d < 2 ^ 32 then .ok (radix * n + d) else .error .tooLarge

def number (radix : Nat) : List Char → Except CharacterFault Nat
  | [] => .error .empty
  | c :: cs => if c = '+' ∨ c = '-' then .error .sign else (c :: cs).foldlM (pushDigit radix) 0

/-- The character of a number, in hex digits after an `x`. -/
def character (digits : List Char) : Except CharacterFault Char := do
  let code ← match digits with
    | 'x' :: hex => number 16 hex
    | decimal => number 10 decimal
  if code = 0 then throw .zero
  else if code.isValidChar then return .ofNat code
  else throw (.noCharacter code)

/-- The character of a reference that takes the bytes after `start`. -/
def resolve (start : Nat) (name : List Char) : Except ReferenceFault Char :=
  match name with
  | '#' :: digits => (character digits).mapError .character
  | name =>
    match entity? (String.ofList name) with
    | some c => .ok c
    | none =>
      .error (.unknownEntity (start + 1) (start + 1 + byteLength name) (String.ofList name))

/-- Replaces the references of the rest of a value of `total` bytes. -/
def unescapeFrom (total position : Nat) : List Char → Except ReferenceFault (List Char)
  | [] => .ok []
  | c :: s =>
    if c = '&' then
      match hs : s.dropWhile fun c => c != '&' && c != ';' with
      | ';' :: rest => do
        let name := s.takeWhile fun c => c != '&' && c != ';'
        let c ← resolve position name
        return c :: (← unescapeFrom total (position + byteLength name + 2) rest)
      | _ => .error (.unterminated position total)
    else do return c :: (← unescapeFrom total (position + c.utf8Size) s)
termination_by s => s.length
decreasing_by
  · have := length_dropWhile_le (fun c => c != '&' && c != ';') s
    rw [hs] at this
    simp only [List.length_cons] at this ⊢
    omega
  · simp

def unescape (value : List Char) : Except ReferenceFault (List Char) :=
  unescapeFrom (byteLength value) 0 value

end Xps.Reference
