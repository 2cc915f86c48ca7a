import Xps.Proofs.Element.Opened
import Xps.Proofs.Markup.Nested

/-!
# Events are well nested

Each end in the events of a text closes the innermost element that is open, and has its name,
whether or not the text goes on to an error (`Markup.nests_events`).

Pieces are read one after the other, up to a piece that is no event: the end of the text, an error
in front of the next piece, or a tag whose attributes cannot be read (`MarkupReader.Reads`,
`MarkupReader.Ends`). The invariant of reading is that the elements that the events so far have left
open are the open elements of the reader.
-/

namespace Xps

/-- Each end closes the innermost open element, and has its name. -/
def WellNested (events : List MarkupEvent) : Prop :=
  ∀ (past : List MarkupEvent) (name : String), past ++ [.stop name] <+: events →
    (opened past).head?.map OpenElement.name = some name

namespace WellNested

variable {past : List MarkupEvent}

theorem of_prefix {events : List MarkupEvent} (h : WellNested events) (hpast : past <+: events) :
    WellNested past :=
  fun q name hq => h q name (hq.trans hpast)

theorem nil : WellNested [] := fun q name hq => by
  have := hq.length_le
  simp at this

/-- Anything but an end keeps what is well nested. -/
theorem concat_of_ne (h : WellNested past) {e : MarkupEvent} (he : ∀ name, e ≠ .stop name) :
    WellNested (past ++ [e]) := by
  intro q name hq
  rcases List.prefix_concat_iff.1 hq with heq | hq
  · have hlast : MarkupEvent.stop name = e := by
      simpa using congrArg List.getLast? heq
    exact absurd hlast.symm (he name)
  · exact h q name hq

theorem concat_stop (h : WellNested past) {name : String}
    (hname : (opened past).head?.map OpenElement.name = some name) :
    WellNested (past ++ [.stop name]) := by
  intro q other hq
  rcases List.prefix_concat_iff.1 hq with heq | hq
  · obtain ⟨rfl, hlast⟩ := List.append_inj' heq rfl
    cases hlast
    exact hname
  · exact h q other hq

end WellNested

namespace MarkupReader

open Markup

/-! ## Runs of a reader -/

/-- Pieces are read one after the other, each one with its events. -/
inductive Reads : MarkupReader → List MarkupEvent → MarkupReader → Prop
  | nil (r : MarkupReader) : Reads r [] r
  | cons {r r' last : MarkupReader} {p : Piece} {found later : List MarkupEvent}
    (hnext : r.next = .ok (some (p, r'))) (hfound : pieceEvents p = .ok found)
    (h : Reads r' later last) : Reads r (found ++ later) last

/-- Why no more is read: the text is over, with or without open elements, or there is no next piece
in it, or the next piece is a tag that has no events. The names are those of the open elements. -/
inductive Ends (r : MarkupReader) (names : List String) : Option MarkupError → Prop
  | closed (h : r.next = .ok none) (hnames : names = []) : Ends r names none
  | missingEnd {name : String} {outer : List String} (h : r.next = .ok none)
    (hnames : names = name :: outer) : Ends r names (some (.nesting (.missingEnd name)))
  | brokenPiece {e : MarkupError} (h : r.next = .error e) : Ends r names (some e)
  | brokenTag {r' : MarkupReader} {p : Piece} {e : MarkupError} (h : r.next = .ok (some (p, r')))
    (htag : pieceEvents p = .error e) : Ends r names (some e)

/-- The events of the rest of a text are those of its pieces up to the last one. -/
theorem exists_reads {r : MarkupReader} {names : List String} (hnames : names = r.openNames) :
    ∃ last, Reads r (r.events names).1 last ∧ Ends last last.openNames (r.events names).2 := by
  fun_induction events r names with
  | case1 r names e hn => exact ⟨r, .nil r, .brokenPiece hn⟩
  | case2 r names hn =>
    refine ⟨r, .nil r, ?_⟩
    rw [← hnames]
    cases names with
    | nil => exact .closed hn rfl
    | cons name outer => exact .missingEnd hn rfl
  | case3 r names p r' hn e he => exact ⟨r, .nil r, .brokenTag hn he⟩
  | case4 r names p r' hn found hf later e hl ih =>
    obtain ⟨_, _, -, -, henter⟩ := next_eq_some_iff.1 hn
    rw [hnames] at ih
    obtain ⟨last, hreads, hends⟩ := ih (unclosed_openNames henter)
    rw [← hnames] at hreads hends
    rw [hl] at hreads hends
    exact ⟨last, .cons hn hf hreads, hends⟩

theorem document_notMem_pieceEvents {p : Piece} {found : List MarkupEvent}
    (hfound : pieceEvents p = .ok found) : .document ∉ found := by
  cases p with
  | start tag =>
    obtain ⟨attributes, rfl⟩ := pieceEvents_start hfound
    simp
  | empty tag =>
    obtain ⟨attributes, rfl⟩ := pieceEvents_empty hfound
    simp
  | stop name | other =>
    rw [← Except.ok.inj hfound]
    simp

/-- No piece starts a document. -/
theorem Reads.document_notMem {r last : MarkupReader} {found : List MarkupEvent}
    (hreads : Reads r found last) : .document ∉ found := by
  induction hreads with
  | nil r => exact List.not_mem_nil
  | cons _ hfound _ ih =>
    exact fun h => (List.mem_append.1 h).elim (document_notMem_pieceEvents hfound) ih

/-! ## Open elements -/

/-- The events behind some others keep to the open elements of a reader. -/
structure Keeps (r : MarkupReader) (past : List MarkupEvent) : Prop where
  wellNested : WellNested past
  opened : (Xps.opened past).map OpenElement.name = r.openNames

theorem Keeps.start {r r' : MarkupReader} {past : List MarkupEvent} (h : r.Keeps past)
    {name : List Char} (hopened : r'.opened = name :: r.opened) (attributes : Attributes) :
    r'.Keeps (past ++ [.start (String.ofList (localName name)) attributes]) where
  wellNested := h.wellNested.concat_of_ne fun _ => MarkupEvent.noConfusion
  opened := by rw [opened_start, List.map_cons, h.opened, openNames, openNames, hopened,
    List.map_cons]

theorem Keeps.stop {r r' : MarkupReader} {past : List MarkupEvent} (h : r.Keeps past)
    {name : List Char} (hopened : r.opened = name :: r'.opened) :
    r'.Keeps (past ++ [.stop (String.ofList (localName name))]) := by
  have hpast := h.opened
  rw [openNames, hopened, List.map_cons] at hpast
  refine ⟨h.wellNested.concat_stop ?_, ?_⟩
  · rw [← List.head?_map, hpast, List.head?_cons]
  · rw [opened_stop, List.map_tail, hpast, List.tail_cons, openNames]

theorem keeps_piece {r r' : MarkupReader} {p : Piece} {past found : List MarkupEvent}
    (h : r.Keeps past) (henter : enter r.opened p = .ok r'.opened)
    (hfound : pieceEvents p = .ok found) : r'.Keeps (past ++ found) := by
  cases p with
  | start tag =>
    obtain ⟨attributes, rfl⟩ := pieceEvents_start hfound
    exact h.start (Except.ok.inj henter).symm attributes
  | empty tag =>
    obtain ⟨attributes, rfl⟩ := pieceEvents_empty hfound
    rw [List.append_cons]
    -- Between its two events, the element is open.
    have hinside : (⟨r.rest, tag.name :: r.opened⟩ : MarkupReader).Keeps _ :=
      h.start rfl attributes
    exact hinside.stop (congrArg (tag.name :: ·) (Except.ok.inj henter))
  | stop name =>
    rw [← Except.ok.inj hfound]
    exact h.stop (enter_stop henter)
  | other =>
    rw [← Except.ok.inj hfound, List.append_nil]
    have hopened : r'.opened = r.opened := (Except.ok.inj henter).symm
    exact ⟨h.wellNested, by rw [h.opened, openNames, openNames, hopened]⟩

theorem Reads.keeps {r last : MarkupReader} {found : List MarkupEvent} (hreads : Reads r found last)
    {past : List MarkupEvent} (h : r.Keeps past) : last.Keeps (past ++ found) := by
  induction hreads generalizing past with
  | nil r => rwa [List.append_nil]
  | cons hnext hfound _ ih =>
    obtain ⟨_, _, -, -, henter⟩ := next_eq_some_iff.1 hnext
    rw [← List.append_assoc]
    exact ih (keeps_piece h henter hfound)

end MarkupReader

namespace Markup

/-- The events of a text nest, up to the error that ends them. -/
structure Nests (text : String) (events : List MarkupEvent) (error : Option MarkupError) :
    Prop where
  wellNested : WellNested events
  /-- The document starts first, and only once. Then come the events of the pieces of the text, up
  to the end or the error. -/
  reads : ∃ found last, events = .document :: found ∧ .document ∉ found ∧
    (MarkupReader.ofText text).Reads found last ∧
    last.Ends ((opened events).map OpenElement.name) error
  closed (h : error = none) : opened events = []

theorem nests_events (text : String) : Nests text (events text).1 (events text).2 := by
  obtain ⟨last, hreads, hends⟩ :=
    MarkupReader.exists_reads (show [] = (MarkupReader.ofText text).openNames from rfl)
  have hfirst : (MarkupReader.ofText text).Keeps [.document] :=
    ⟨WellNested.nil.concat_of_ne fun _ => MarkupEvent.noConfusion, rfl⟩
  have hlast : last.Keeps (events text).1 := hreads.keeps hfirst
  have hends : last.Ends ((opened (events text).1).map OpenElement.name) (events text).2 := by
    rw [hlast.opened]
    exact hends
  refine ⟨hlast.wellNested, ⟨_, last, rfl, hreads.document_notMem, hreads, hends⟩, fun h => ?_⟩
  rw [h] at hends
  cases hends with
  | closed _ hnames => exact List.map_eq_nil_iff.1 hnames

end Markup

end Xps
