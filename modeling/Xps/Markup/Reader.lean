import Xps.Markup.Tag

/-!
# Reading markup

Markup is read as a stream of pieces from left to right. Every start and end of an element before an
error is an event. Text, comments, instructions and document types are skipped.

Each piece depends only on the text up to its end, and takes at least one character.

The open elements are listed twice: by their full names, which end tags have to repeat, and by the
names of their events, of which one is reported as unclosed.
-/

namespace Xps

inductive MarkupEvent
  | document
  | start (name : String) (attributes : Attributes)
  | stop (name : String)
deriving DecidableEq

namespace Markup

open Text (isSpace)

/-- What stands between two texts. -/
inductive Piece
  | start (tag : Tag)
  /-- An element that ends where it starts. -/
  | empty (tag : Tag)
  | stop (name : List Char)
  /-- A comment, instruction, document type or verbatim text. -/
  | other

/-! ## Delimiters -/

/-- What comes before and after the first closing bracket that is not quoted. -/
def splitTag? (quote : Option Char) : List Char → Option (List Char × List Char)
  | [] => none
  | c :: s =>
    if quote = none ∧ c = '>' then some ([], s)
    else
      let next :=
        match quote with
        | some q => if c = q then none else quote
        | none => if c = '"' ∨ c = '\'' then some c else none
      (splitTag? next s).map fun (before, after) => (c :: before, after)

/-- What comes before and after the closing bracket that has no opening one. -/
def splitDoctype? (depth : Nat) : List Char → Option (List Char × List Char)
  | [] => none
  | c :: s =>
    if depth = 0 ∧ c = '>' then some ([], s)
    else
      let next := if c = '<' then depth + 1 else if c = '>' then depth - 1 else depth
      (splitDoctype? next s).map fun (before, after) => (c :: before, after)

/-- The text begins with a word of capital letters, in either case. -/
def startsWith (word : String) (s : List Char) : Bool :=
  word.toList.isPrefixOf (s.map Char.toUpper)

/-- What follows a piece that begins with `<!`. Only the word of a document type may be in small
letters. -/
def bang : List Char → Except MarkupError (List Char)
  | '[' :: s =>
    match Text.splitAt? "]]>".toList s with
    | some (_, rest) =>
      if "CDATA[".toList.isPrefixOf s then .ok rest else .error (.delimiter .unclosedCData)
    | none => .error (.delimiter .unclosedCData)
  | '-' :: '-' :: s =>
    match Text.splitAt? "-->".toList s with
    | some (_, rest) => .ok rest
    | none => .error (.delimiter .unclosedComment)
  | '-' :: _ => .error (.delimiter .unclosedComment)
  | c :: s =>
    if c = 'D' ∨ c = 'd' then
      match splitDoctype? 0 s with
      | some (content, rest) =>
        if !startsWith "OCTYPE" content then .error (.delimiter .unclosedDoctype)
        else if (content.drop 6).all isSpace then .error (.nesting .namelessDoctype)
        else .ok rest
      | none => .error (.delimiter .unclosedDoctype)
    else .error (.delimiter .unknownBang)
  | [] => .error (.delimiter .unknownBang)

/-- What follows an instruction that begins with `<?`. -/
def instruction (s : List Char) : Except MarkupError (List Char) :=
  match s with
  | '>' :: _ => .error (.delimiter .unclosedInstruction)
  | s =>
    match Text.splitAt? "?>".toList s with
    | some (_, rest) => .ok rest
    | none => .error (.delimiter .unclosedInstruction)

/-- The name in an end tag. Spaces behind a name do not belong to it. -/
def endName (content : List Char) : List Char :=
  let trimmed := (content.reverse.dropWhile isSpace).reverse
  if trimmed.isEmpty then content else trimmed

/-- A slash at the end of a start tag also ends the element. -/
def startPiece (content : List Char) : Piece :=
  match content.getLast? with
  | some '/' => .empty (Tag.ofContent content.dropLast)
  | _ => .start (Tag.ofContent content)

/-- The piece behind an opening bracket, and what follows it. -/
def piece : List Char → Except MarkupError (Piece × List Char)
  | [] => .error (.delimiter .unclosedTag)
  | '!' :: s => return (.other, ← bang s)
  | '?' :: s => return (.other, ← instruction s)
  | '/' :: s =>
    match splitTag? none s with
    | some (content, rest) => .ok (.stop (endName content), rest)
    | none => .error (.delimiter .unclosedTag)
  | s =>
    match splitTag? none s with
    | some (content, rest) => .ok (startPiece content, rest)
    | none => .error (.delimiter .unclosedTag)

/-! ## Progress -/

theorem length_splitTag_le {quote : Option Char} {s before after : List Char}
    (h : splitTag? quote s = some (before, after)) : after.length ≤ s.length := by
  induction s generalizing quote before with
  | nil => cases h
  | cons c s ih =>
    unfold splitTag? at h
    split at h
    · cases h; simp
    · dsimp only at h
      obtain ⟨x, hx, he⟩ := Option.map_eq_some_iff.1 h
      obtain ⟨x₁, x₂⟩ := x
      cases he
      exact Nat.le_succ_of_le (ih hx)

theorem length_splitDoctype_le {depth : Nat} {s before after : List Char}
    (h : splitDoctype? depth s = some (before, after)) : after.length ≤ s.length := by
  induction s generalizing depth before with
  | nil => cases h
  | cons c s ih =>
    unfold splitDoctype? at h
    split at h
    · cases h; simp
    · dsimp only at h
      obtain ⟨x, hx, he⟩ := Option.map_eq_some_iff.1 h
      obtain ⟨x₁, x₂⟩ := x
      cases he
      exact Nat.le_succ_of_le (ih hx)

theorem length_bang_le {s rest : List Char} (h : bang s = .ok rest) : rest.length ≤ s.length := by
  unfold bang at h
  split at h
  · split at h
    · rename_i hs
      have := Text.length_splitAt_le hs
      split at h
      · cases h; simp only [List.length_cons]; omega
      · cases h
    · cases h
  · split at h
    · rename_i hs
      have := Text.length_splitAt_le hs
      cases h; simp only [List.length_cons]; omega
    · cases h
  · cases h
  · split at h
    · split at h
      · rename_i hs
        have := length_splitDoctype_le hs
        split at h
        · cases h
        · split at h
          · cases h
          · cases h; simp only [List.length_cons]; omega
      · cases h
    · cases h
  · cases h

theorem length_instruction_le {s rest : List Char} (h : instruction s = .ok rest) :
    rest.length ≤ s.length := by
  unfold instruction at h
  split at h
  · cases h
  · split at h
    · rename_i hs
      cases h
      exact Text.length_splitAt_le hs
    · cases h

theorem length_piece_le {s rest : List Char} {p : Piece} (h : piece s = .ok (p, rest)) :
    rest.length ≤ s.length := by
  unfold piece at h
  split at h
  · cases h
  · simp only [bind, Except.bind] at h
    split at h
    · cases h
    · rename_i hb
      cases h
      exact Nat.le_succ_of_le (length_bang_le hb)
  · simp only [bind, Except.bind] at h
    split at h
    · cases h
    · rename_i hb
      cases h
      exact Nat.le_succ_of_le (length_instruction_le hb)
  · split at h
    · rename_i hs
      cases h
      exact Nat.le_succ_of_le (length_splitTag_le hs)
    · cases h
  · split at h
    · rename_i hs
      cases h
      exact length_splitTag_le hs
    · cases h

end Markup

/-! ## The stream -/

open Markup

/-- The text to come, and the full names of the open elements, the innermost first. -/
structure MarkupReader where
  rest : List Char
  opened : List (List Char) := []

namespace MarkupReader

def ofText (text : String) : MarkupReader := ⟨Text.dropByteOrderMarks text.toList, []⟩

/-- An end tag closes the innermost element of the same full name. -/
def enter (opened : List (List Char)) : Piece → Except MarkupError (List (List Char))
  | .start tag => .ok (tag.name :: opened)
  | .stop name =>
    match opened with
    | [] => .error (.nesting (.unmatchedEnd (String.ofList name)))
    | expected :: opened =>
      if name = expected then .ok opened
      else
        .error (.nesting (.mismatchedEnd (String.ofList expected) (String.ofList name)))
  | _ => .ok opened

/-- The next piece of the text, if there is one. -/
def next (r : MarkupReader) : Except MarkupError (Option (Piece × MarkupReader)) :=
  match r.rest.dropWhile (· != '<') with
  | [] => .ok none
  | _ :: s => do
    let (piece, rest) ← piece s
    return some (piece, ⟨rest, ← enter r.opened piece⟩)

theorem length_next_lt {r r' : MarkupReader} {p : Piece} (h : r.next = .ok (some (p, r'))) :
    r'.rest.length < r.rest.length := by
  unfold next at h
  have hr := Text.length_dropWhile_le (· != '<') r.rest
  split at h
  · cases h
  · rename_i s hs
    rw [hs] at hr
    simp only [bind, Except.bind] at h
    split at h
    · cases h
    · rename_i x hx
      have := length_piece_le hx
      split at h
      · cases h
      · cases h
        simp only [List.length_cons] at hr ⊢
        omega

/-- The events of a piece. -/
def pieceEvents : Piece → Except MarkupError (List MarkupEvent)
  | .start tag => return [.start tag.localName (← tag.attributes)]
  | .empty tag => return [.start tag.localName (← tag.attributes), .stop tag.localName]
  | .stop name => .ok [.stop (String.ofList (Markup.localName name))]
  | .other => .ok []

/-- The elements whose start but not whose end was an event, by the names that events have. They are
listed apart from the full names of the reader. -/
def unclosed (names : List String) : Piece → List String
  | .start tag => tag.localName :: names
  | .stop _ => names.tail
  | _ => names

/-- The events of the rest of the text behind those that have left some elements open, and the error
that ends them early. -/
def events (r : MarkupReader) (names : List String) : List MarkupEvent × Option MarkupError :=
  match _h : r.next with
  | .error e => ([], some e)
  | .ok none => ([], names.head?.map fun name => .nesting (.missingEnd name))
  | .ok (some (piece, r')) =>
    match pieceEvents piece with
    | .error e => ([], some e)
    | .ok found =>
      let (later, e) := events r' (unclosed names piece)
      (found ++ later, e)
termination_by r.rest.length
decreasing_by exact length_next_lt _h

/-- The attributes of the first element of the rest of the text. -/
def rootAttributes (r : MarkupReader) : Except MarkupError Attributes :=
  match _h : r.next with
  | .error e => .error e
  | .ok none => .error (.nesting (.missingEnd ""))
  | .ok (some (.start tag, _)) => tag.attributes
  | .ok (some (.empty tag, _)) => tag.attributes
  | .ok (some (_, r')) => rootAttributes r'
termination_by r.rest.length
decreasing_by exact length_next_lt _h

end MarkupReader

namespace Markup

/-- The events of a page, in document order, and the error that ends them early. -/
def events (text : String) : List MarkupEvent × Option MarkupError :=
  let (found, e) := (MarkupReader.ofText text).events []
  (.document :: found, e)

/-- The attributes of the root element. Nothing behind its tag is looked at. -/
def rootAttributes (text : String) : Except MarkupError Attributes :=
  (MarkupReader.ofText text).rootAttributes

end Markup

end Xps
