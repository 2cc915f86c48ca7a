import Xps.Markup.Attributes
import Xps.Markup.Reference

/-!
# Tags

What stands between the brackets of a start tag: a full name and attributes. Positions are bytes of
the tag. Names are used without their namespace prefix, and namespace declarations are skipped.
-/

namespace Xps

open Text (byteLength isSpace length_dropWhile_le)

namespace Markup

/-- A name without its prefix. -/
def localName (name : List Char) : List Char :=
  match name.dropWhile (· != ':') with
  | _ :: rest => rest
  | [] => name

end Markup

open Markup

structure Tag where
  name : List Char
  /-- What follows the name. -/
  body : List Char

namespace Tag

/-- A name runs up to the first space. -/
def ofContent (content : List Char) : Tag :=
  ⟨content.takeWhile fun c => !isSpace c, content.dropWhile fun c => !isSpace c⟩

/-- A key and a value as they stand in a tag. -/
structure RawAttribute where
  key : List Char
  value : List Char

def isKeyChar (c : Char) : Bool := c != '=' && !isSpace c

/-- Splits the spaces in front off and moves the position behind them. -/
def skipSpace (position : Nat) (s : List Char) : Nat × List Char :=
  (position + byteLength (s.takeWhile isSpace), s.dropWhile isSpace)

/-- Reads the quoted value behind an equals sign. -/
def quoted (position : Nat) (s : List Char) :
    Except AttributeFault (List Char × Nat × List Char) :=
  let (position, s) := skipSpace position s
  match s with
  | [] => .error (.missingValue position)
  | quote :: s =>
    if quote = '"' ∨ quote = '\'' then
      let value := s.takeWhile (· != quote)
      let stop := position + 1 + byteLength value
      match s.dropWhile (· != quote) with
      | [] => .error (.missingQuote stop quote)
      | _ :: rest => .ok (value, stop + 1, rest)
    else .error (.unquotedValue position)

/-- Reads the next attribute, if there is one. -/
def nextAttribute (position : Nat) (s : List Char) :
    Except AttributeFault (Option (RawAttribute × Nat × List Char)) :=
  let (position, s) := skipSpace position s
  match s with
  | [] => .ok none
  | c :: s =>
    let key := c :: s.takeWhile isKeyChar
    let (position, s) := skipSpace (position + byteLength key) (s.dropWhile isKeyChar)
    match s with
    | '=' :: s => do
      let (value, position, rest) ← quoted (position + 1) s
      return some (⟨key, value⟩, position, rest)
    | _ => .error (.missingEquals position)

theorem length_quoted_lt {position position' : Nat} {s value rest : List Char}
    (h : quoted position s = .ok (value, position', rest)) : rest.length < s.length := by
  unfold quoted skipSpace at h
  dsimp only at h
  have hs := length_dropWhile_le isSpace s
  split at h
  · cases h
  · rename_i quote s' hs'
    rw [hs'] at hs
    split at h
    · have := length_dropWhile_le (· != quote) s'
      split at h
      · cases h
      · rename_i heq
        cases h
        rw [heq] at this
        simp only [List.length_cons] at this hs
        omega
    · cases h

theorem length_nextAttribute_lt {position position' : Nat} {s rest : List Char} {a : RawAttribute}
    (h : nextAttribute position s = .ok (some (a, position', rest))) :
    rest.length < s.length := by
  unfold nextAttribute skipSpace at h
  dsimp only at h
  have hs := length_dropWhile_le isSpace s
  split at h
  · cases h
  · rename_i c s₁ hs₁
    rw [hs₁] at hs
    have h₂ := length_dropWhile_le isKeyChar s₁
    have h₃ := length_dropWhile_le isSpace (s₁.dropWhile isKeyChar)
    split at h
    · rename_i s₂ hs₂
      rw [hs₂] at h₃
      simp only [bind, Except.bind] at h
      split at h
      · cases h
      · rename_i x hx
        obtain ⟨value, position₁, rest₁⟩ := x
        have h₄ := length_quoted_lt hx
        cases h
        simp only [List.length_cons] at hs h₃ ⊢
        omega
    · cases h

/-- A key that declares a namespace. -/
def isNamespace (key : List Char) : Bool :=
  key == "xmlns".toList || "xmlns:".toList.isPrefixOf key

/-- Reads the attributes behind a position and appends them to others. -/
def attributesFrom (attributes : Attributes) (position : Nat) (s : List Char) :
    Except MarkupError Attributes :=
  match _h : nextAttribute position s with
  | .error fault => .error (.attributes fault)
  | .ok none => .ok attributes
  | .ok (some (raw, position', rest)) =>
    if isNamespace raw.key then attributesFrom attributes position' rest
    else
      match Reference.unescape raw.value with
      | .error fault => .error (.reference fault)
      | .ok value =>
        attributesFrom
          (attributes.push (String.ofList (localName raw.key)) (String.ofList value)) position' rest
termination_by s.length
decreasing_by all_goals exact length_nextAttribute_lt _h

def attributes (t : Tag) : Except MarkupError Attributes :=
  attributesFrom {} (byteLength t.name) t.body

def localName (t : Tag) : String := String.ofList (Markup.localName t.name)

end Tag

end Xps
