import Xps.Proofs.Element.Forest
import Xps.Proofs.Markup.Online

/-!
# Markup nests

The events of markup without an error are those of a forest.

While markup is read, elements are open. What is yet to come closes them from the inside to the
outside, with a forest in front of each end and another one behind the last (`Markup.Closes`). The
stream of events has a list of its own of these elements, and it agrees with that of the reader
(`MarkupReader.unclosed_openNames`).
-/

namespace Xps

namespace Markup

/-- Events that close open elements, given by their names from the innermost one on. -/
inductive Closes : List String → List MarkupEvent → Prop
  | nil (forest : Forest) : Closes [] forest.events
  | cons (forest : Forest) {name : String} {names : List String} {later : List MarkupEvent}
    (h : Closes names later) : Closes (name :: names) (forest.events ++ .stop name :: later)

theorem Closes.stop {names : List String} {later : List MarkupEvent} (h : Closes names later)
    (name : String) : Closes (name :: names) (.stop name :: later) := .cons .nil h

/-- An element that is closed later belongs to the forest in front of the next end. -/
theorem Closes.start {name : String} {names : List String} {events : List MarkupEvent}
    (h : Closes (name :: names) events) (attributes : Attributes) :
    Closes names (.start name attributes :: events) := by
  cases h with
  | cons children h =>
    cases h with
    | nil rest => exact .nil (.cons name attributes children rest)
    | @cons rest outer names later h =>
      have hevents : MarkupEvent.start name attributes ::
          (children.events ++ .stop name :: (rest.events ++ .stop outer :: later)) =
            (Forest.cons name attributes children rest).events ++ .stop outer :: later := by
        simp [Forest.events]
      rw [hevents]
      exact .cons _ h

end Markup

open Markup

namespace MarkupReader

/-- The open elements by the names that events have. -/
def openNames (r : MarkupReader) : List String :=
  r.opened.map fun name => String.ofList (localName name)

/-! ## Events of pieces -/

theorem pieceEvents_start {tag : Tag} {found : List MarkupEvent}
    (h : pieceEvents (.start tag) = .ok found) :
    ∃ attributes, found = [.start tag.localName attributes] := by
  dsimp only [pieceEvents] at h
  cases hattributes : tag.attributes with
  | error e => rw [hattributes] at h; cases h
  | ok attributes =>
    rw [hattributes] at h
    exact ⟨attributes, (Except.ok.inj h).symm⟩

theorem pieceEvents_empty {tag : Tag} {found : List MarkupEvent}
    (h : pieceEvents (.empty tag) = .ok found) :
    ∃ attributes, found = [.start tag.localName attributes, .stop tag.localName] := by
  dsimp only [pieceEvents] at h
  cases hattributes : tag.attributes with
  | error e => rw [hattributes] at h; cases h
  | ok attributes =>
    rw [hattributes] at h
    exact ⟨attributes, (Except.ok.inj h).symm⟩

/-- An end has the full name of the innermost open element. -/
theorem enter_stop {opened inner : List (List Char)} {name : List Char}
    (h : enter inner (.stop name) = .ok opened) : inner = name :: opened := by
  unfold enter at h
  cases inner with
  | nil => cases h
  | cons expected outer =>
    by_cases hname : name = expected
    · simp only [if_pos hname] at h
      rw [hname, Except.ok.inj h]
    · simp only [if_neg hname] at h
      cases h

/-- Over each piece, the elements that events have left open are those of the reader. -/
theorem unclosed_openNames {r r' : MarkupReader} {p : Piece}
    (henter : enter r.opened p = .ok r'.opened) : unclosed r.openNames p = r'.openNames := by
  unfold openNames
  cases p with
  | start tag =>
    rw [← Except.ok.inj henter]
    rfl
  | empty tag | other =>
    rw [← Except.ok.inj henter]
    rfl
  | stop name =>
    rw [enter_stop henter]
    rfl

/-- The events of a piece come in front of events that close what is open behind it. -/
theorem closes_pieceEvents {r r' : MarkupReader} {p : Piece} {found later : List MarkupEvent}
    (henter : enter r.opened p = .ok r'.opened) (hfound : pieceEvents p = .ok found)
    (h : Closes r'.openNames later) : Closes r.openNames (found ++ later) := by
  unfold openNames at h ⊢
  cases p with
  | start tag =>
    obtain ⟨attributes, rfl⟩ := pieceEvents_start hfound
    rw [← Except.ok.inj henter] at h
    exact h.start attributes
  | empty tag =>
    obtain ⟨attributes, rfl⟩ := pieceEvents_empty hfound
    rw [← Except.ok.inj henter] at h
    exact (h.stop tag.localName).start attributes
  | stop name =>
    rw [← Except.ok.inj hfound, enter_stop henter]
    exact h.stop _
  | other =>
    rw [← Except.ok.inj henter] at h
    rw [← Except.ok.inj hfound]
    exact h

/-- The events of the rest of a text without an error close what is open. -/
theorem closes_events {r : MarkupReader} {names : List String} (hnames : names = r.openNames)
    (h : (r.events names).2 = none) : Closes r.openNames (r.events names).1 := by
  fun_induction events r names with
  | case1 => cases h
  | case2 r names hn =>
    rw [← hnames, List.head?_eq_none_iff.1 (Option.map_eq_none_iff.1 h)]
    exact .nil .nil
  | case3 => cases h
  | case4 r names piece r' hn found hf later e hl ih =>
    obtain ⟨_, _, -, -, henter⟩ := next_eq_some_iff.1 hn
    rw [hl] at ih
    rw [hnames] at ih
    exact closes_pieceEvents henter hf (ih (unclosed_openNames henter) h)

end MarkupReader

/-- Markup without an error is a forest. -/
theorem Markup.exists_forest {text : String} (h : (events text).2 = none) :
    ∃ forest : Forest, (events text).1 = .document :: forest.events := by
  have hclosed : Closes [] ((MarkupReader.ofText text).events []).1 :=
    MarkupReader.closes_events rfl h
  have hevents : (events text).1 = .document :: ((MarkupReader.ofText text).events []).1 := rfl
  rw [hevents]
  generalize ((MarkupReader.ofText text).events []).1 = found at hclosed
  cases hclosed with
  | nil forest => exact ⟨forest, rfl⟩

end Xps
