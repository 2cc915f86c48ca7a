import Xps.Proofs.Markup.Online

/-!
# The root tag

The reader of the root attributes goes from piece to piece up to the first tag that starts an
element (`MarkupReader.RootTag`). Nothing behind the closing bracket of the tag is looked at
(`rootTag_append`), and there the stream of events has its first start (`rootAttributes_eq_ok_iff`).
-/

namespace Xps

namespace Markup

/-- The tag of the element that a piece starts. -/
def Piece.tag? : Piece → Option Tag
  | .start tag | .empty tag => some tag
  | _ => none

end Markup

/-- The attributes of the element that an event starts. -/
def MarkupEvent.attributes? : MarkupEvent → Option Attributes
  | .start _ attributes => some attributes
  | _ => none

namespace MarkupReader

open Markup

/-! ## The first tag of a start -/

theorem rootAttributes_eq_bind (r : MarkupReader) :
    r.rootAttributes = r.next.bind fun
      | none => .error (.nesting (.missingEnd ""))
      | some (p, r') => (p.tag?.map Tag.attributes).getD r'.rootAttributes := by
  rw [rootAttributes]
  split
  · rename_i hn; rw [hn]; rfl
  · rename_i hn; rw [hn]; rfl
  · rename_i hn; rw [hn]; rfl
  · rename_i hn; rw [hn]; rfl
  · rename_i p r' hstart hempty hn
    rw [hn]
    cases p with
    | start tag => exact absurd rfl (hstart tag)
    | empty tag => exact absurd rfl (hempty tag)
    | stop name => rfl
    | other => rfl

/-- The reader comes to a tag before any other one that starts an element, and the rest of the text
is what stands behind the closing bracket of the tag. -/
inductive RootTag : MarkupReader → Tag → List Char → Prop
  | here {r q : MarkupReader} {p : Piece} {tag : Tag} (hnext : r.next = .ok (some (p, q)))
    (htag : p.tag? = some tag) : RootTag r tag q.rest
  | later {r q : MarkupReader} {p : Piece} {tag : Tag} {rest : List Char}
    (hnext : r.next = .ok (some (p, q))) (htag : p.tag? = none) (h : RootTag q tag rest) :
    RootTag r tag rest

namespace RootTag

variable {r : MarkupReader} {tag : Tag} {rest : List Char}

/-- The attributes of the root are those of its tag, broken ones included. -/
theorem rootAttributes_eq (h : RootTag r tag rest) : r.rootAttributes = tag.attributes := by
  induction h with
  | here hnext htag =>
    rw [rootAttributes_eq_bind, hnext]
    simp only [Except.bind, htag, Option.map_some, Option.getD_some]
  | later hnext htag _ ih =>
    rw [rootAttributes_eq_bind, hnext]
    simp only [Except.bind, htag, Option.map_none, Option.getD_none, ih]

/-- The root tag ends with a closing bracket, and what stands behind it does not move it. -/
theorem used (h : RootTag r tag rest) :
    ∃ used, r.rest = used ++ '>' :: rest ∧ ∀ u, RootTag ⟨used ++ '>' :: u, r.opened⟩ tag u := by
  induction h with
  | here hnext htag =>
    obtain ⟨used, hr, hused⟩ := next_used hnext
    exact ⟨used, hr, fun u => .here (hused u) htag⟩
  | @later r q p tag rest hnext htag h ih =>
    obtain ⟨first, hr, hfirst⟩ := next_used hnext
    obtain ⟨last, hq, hlast⟩ := ih
    refine ⟨first ++ '>' :: last, by rw [hr, hq, List.append_assoc, List.cons_append], fun u => ?_⟩
    rw [List.append_assoc, List.cons_append]
    exact .later (hfirst (last ++ '>' :: u)) htag (hlast u)

end RootTag

/-! ## Headers of texts -/

variable {header body : String} {tag : Tag}

/-- A text up to its root tag ends with the closing bracket of the tag, and has the same root tag
whatever follows. -/
theorem rootTag_header (h : RootTag (ofText (header ++ body)) tag body.toList) :
    ∃ used, (ofText header).rest = used ++ ['>'] ∧ ∀ u, RootTag ⟨used ++ '>' :: u, []⟩ tag u := by
  obtain ⟨used, hrest, hused⟩ := h.used
  rw [ofText_append] at hrest
  split at hrest
  · -- the tag itself cannot stand in the body
    have hlen : (ofText body).rest.length ≤ body.toList.length := Text.length_dropWhile_le _ _
    rw [hrest] at hlen
    simp only [List.length_append, List.length_cons] at hlen
    omega
  · have hsplit : (ofText header).rest ++ body.toList = used ++ ['>'] ++ body.toList := by
      rw [List.append_assoc]
      exact hrest
    exact ⟨used, List.append_cancel_right hsplit, hused⟩

/-- The root tag stays the same when another text is put behind it. -/
theorem rootTag_append (h : RootTag (ofText (header ++ body)) tag body.toList) (body' : String) :
    RootTag (ofText (header ++ body')) tag body'.toList := by
  obtain ⟨used, hrest, hused⟩ := rootTag_header h
  rw [ofText_append, if_neg (by rw [hrest]; simp), extend, hrest, List.append_assoc]
  exact hused body'.toList

theorem getLast?_header (h : RootTag (ofText (header ++ body)) tag body.toList) :
    header.toList.getLast? = some '>' := by
  obtain ⟨used, hrest, -⟩ := rootTag_header h
  rw [← List.takeWhile_append_dropWhile (p := (· == '\ufeff')) (l := header.toList),
    show header.toList.dropWhile (· == '\ufeff') = used ++ ['>'] from hrest, ← List.append_assoc,
    List.getLast?_concat]

/-! ## The first event of a start -/

/-- A tag that has no events starts an element and has broken attributes. -/
theorem pieceEvents_eq_error {p : Piece} {e : MarkupError} (h : pieceEvents p = .error e) :
    ∃ tag, p.tag? = some tag ∧ tag.attributes = .error e := by
  cases p with
  | start tag | empty tag =>
    dsimp only [pieceEvents] at h
    cases hattributes : tag.attributes with
    | error e' => rw [hattributes] at h; cases h; exact ⟨tag, rfl, hattributes⟩
    | ok attributes => rw [hattributes] at h; cases h
  | stop name => cases h
  | other => cases h

/-- The attributes of a tag that starts an element are those of its events. -/
theorem attributes_of_pieceEvents {p : Piece} {found : List MarkupEvent}
    (h : pieceEvents p = .ok found) :
    p.tag?.map Tag.attributes = (found.findSome? MarkupEvent.attributes?).map .ok := by
  cases p with
  | start tag | empty tag =>
    dsimp only [pieceEvents] at h
    cases hattributes : tag.attributes with
    | error e => rw [hattributes] at h; cases h
    | ok attributes =>
      rw [hattributes] at h
      cases h
      exact congrArg some hattributes
  | stop name => cases h; rfl
  | other => cases h; rfl

/-- The reader of the root attributes stops where the stream of events has its first start. -/
theorem rootAttributes_eq_ok_iff (r : MarkupReader) (names : List String)
    (attributes : Attributes) :
    r.rootAttributes = .ok attributes ↔
      (r.events names).1.findSome? MarkupEvent.attributes? = some attributes := by
  fun_induction events r names with
  | case1 r names e hn =>
    rw [rootAttributes_eq_bind, hn]
    exact iff_of_false (fun h => by cases h) fun h => by cases h
  | case2 r names hn =>
    rw [rootAttributes_eq_bind, hn]
    exact iff_of_false (fun h => by cases h) fun h => by cases h
  | case3 r names p r' hn e he =>
    obtain ⟨tag, htag, hattributes⟩ := pieceEvents_eq_error he
    rw [RootTag.rootAttributes_eq (.here hn htag), hattributes]
    exact iff_of_false (fun h => by cases h) fun h => by cases h
  | case4 r names p r' hn found hf later e hl ih =>
    rw [hl] at ih
    rw [rootAttributes_eq_bind, hn, List.findSome?_append]
    simp only [Except.bind, attributes_of_pieceEvents hf]
    cases found.findSome? MarkupEvent.attributes? with
    | none => exact ih
    | some first => simp

end MarkupReader

end Xps
