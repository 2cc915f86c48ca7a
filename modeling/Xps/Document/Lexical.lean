import Xps.Error
import Xps.Number.Power
import Xps.Text.Blank
import Xps.Text.Digit
import Xps.Text.Split

/-!
# Names, characters and references of documents

The lexical rules of complete XML documents: which characters may stand in them and in names, and
what references mean. Nothing but the five predefined entities is declared.
-/

namespace Xps.Document

open Text (isSpace)

def isChar (c : Char) : Bool :=
  if c.toNat < 0x20 then isSpace c else c.toNat != 0xfffe && c.toNat != 0xffff

def inRanges (ranges : List (Nat × Nat)) (c : Char) : Bool :=
  ranges.any fun (first, last) => first ≤ c.toNat && c.toNat ≤ last

/-- The characters beyond ASCII that a name may begin with. -/
def nameStartRanges : List (Nat × Nat) :=
  [(0xc0, 0xd6), (0xd8, 0xf6), (0xf8, 0x2ff), (0x370, 0x37d), (0x37f, 0x1fff), (0x200c, 0x200d),
    (0x2070, 0x218f), (0x2c00, 0x2fef), (0x3001, 0xd7ff), (0xf900, 0xfdcf), (0xfdf0, 0xfffd),
    (0x10000, 0xeffff)]

/-- The characters beyond ASCII that may only follow in a name. -/
def nameRanges : List (Nat × Nat) := [(0xb7, 0xb7), (0x300, 0x36f), (0x203f, 0x2040)]

def isNameStart (c : Char) : Bool := c.isAlpha || c == '_' || inRanges nameStartRanges c

def isNameChar (c : Char) : Bool :=
  isNameStart c || c.isDigit || c == '-' || c == '.' || inRanges nameRanges c

def isName (s : List Char) : Bool := (s.head?.map isNameStart).getD false

/-- A name with a namespace prefix, which may be empty. -/
structure QName where
  qualifier : String
  name : String
deriving DecidableEq

def QName.text (q : QName) : String :=
  if q.qualifier.isEmpty then q.name else q.qualifier ++ ":" ++ q.name

/-- Reads a name that may have one colon in it. -/
def qname (s : List Char) : Except DocumentFault (QName × List Char) :=
  let word := s.takeWhile fun c => isNameChar c || c == ':'
  let rest := s.dropWhile fun c => isNameChar c || c == ':'
  match word.splitOn ':' with
  | [name] =>
    if isName name then .ok (⟨"", String.ofList name⟩, rest) else .error .invalidName
  | [qualifier, name] =>
    if isName name && (qualifier.isEmpty || isName qualifier) then
      .ok (⟨String.ofList qualifier, String.ofList name⟩, rest)
    else .error .invalidName
  | _ => .error .invalidName

def skipSpace (s : List Char) : List Char := s.dropWhile isSpace

/-- Takes a text that has to come next. -/
def expect (text : String) (s : List Char) : Except DocumentFault (List Char) :=
  if text.toList.isPrefixOf s then .ok (s.drop text.length) else .error .unexpectedMarkup

/-- Reads up to a mark that has to come, all of it allowed characters. -/
def upTo (mark : String) (s : List Char) : Except DocumentFault (List Char × List Char) :=
  match Text.splitAt? mark.toList s with
  | some (before, after) =>
    if before.all isChar then .ok (before, after) else .error .invalidCharacter
  | none => .error .unclosed

/-! ## References -/

/-- The character of a number. One that is no character is replaced. -/
def charOfNumber? (radix : Nat) (digits : List Char) : Option Char := do
  let values ← digits.mapM (Text.digit? radix)
  let n := values.foldl (fun n d => radix * n + d) 0
  let c := if n.isValidChar then Char.ofNat n else '\ufffd'
  if !digits.isEmpty && n < 2 ^ 32 && isChar c then some c else none

/-- The character that a reference stands for. -/
def charOfName? (name : List Char) : Option Char :=
  match name with
  | '#' :: 'x' :: digits => charOfNumber? 16 digits
  | '#' :: digits => charOfNumber? 10 digits
  | name =>
    match String.ofList name with
    | "quot" => some '"'
    | "amp" => some '&'
    | "apos" => some '\''
    | "lt" => some '<'
    | "gt" => some '>'
    | _ => none

/-- Replaces references, and the other characters by a function. -/
def expand (plain : Char → Char) : List Char → Except DocumentFault (List Char)
  | [] => .ok []
  | '&' :: s =>
    match _h : s.dropWhile (· != ';') with
    | _ :: rest =>
      match charOfName? (s.takeWhile (· != ';')) with
      | some c => do return c :: (← expand plain rest)
      | none => .error .invalidReference
    | [] => .error .invalidReference
  | c :: s => do return plain c :: (← expand plain s)
termination_by s => s.length
decreasing_by
  · have := Text.length_dropWhile_le (· != ';') s
    rw [_h] at this
    simp only [List.length_cons] at this ⊢
    omega
  · simp

/-- A line end of two characters counts as one. -/
def joinLineEnds : List Char → List Char
  | '\r' :: '\n' :: s => '\n' :: joinLineEnds s
  | c :: s => c :: joinLineEnds s
  | [] => []

/-- The value of an attribute: every space is a blank. -/
def attributeValue (s : List Char) : Except DocumentFault String := do
  return String.ofList (← expand (fun c => if isSpace c then ' ' else c) (joinLineEnds s))

end Xps.Document
