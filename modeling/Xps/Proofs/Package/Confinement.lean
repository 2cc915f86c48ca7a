import Xps.Font.Database
import Xps.Proofs.Journal.View
import Xps.Proofs.Package.Discovery
import Xps.Proofs.Package.Session
import Xps.Proofs.PartName.Canonical

/-!
# Packages stay inside

Whatever a package holds, the parts that are looked up while it is opened, rendered and read have
canonical names, but for the root relationships.

Names come from references, which are resolved in a part of canonical name. That is carried from the
root relationships to the sequence, the documents, the pages, and the fonts and images of a page.
-/

namespace Xps

open PartName (IsCanonical isCanonical_resolve isCanonical_empty)

/-- A part that is looked up has a canonical name, or is where a package begins. -/
def Entry.StaysInside : Entry → Prop
  | .lookUp part => part = Package.rootRelationships ∨ IsCanonical part
  | _ => True

open Entry (StaysInside)

theorem Journaled.Reports.staysInside {α : Type} {x : Journaled α} (h : x.Reports) :
    x.All StaysInside := h.all fun _ => trivial

open Journaled.Reports (staysInside)

theorem Entry.OfMarks.staysInside {e : Entry} (h : e.OfMarks) : e.StaysInside := by
  cases e with
  | lookUp part => cases h
  | _ => trivial

/-- The part that is looked up. -/
def Entry.lookUp? : Entry → Option String
  | lookUp part => some part
  | _ => none

/-- The parts that are looked up, in order. -/
def Journaled.lookUps {α : Type} (x : Journaled α) : List String := x.view Entry.lookUp?

theorem Journaled.mem_lookUps {α : Type} {x : Journaled α} {part : String} :
    part ∈ x.lookUps ↔ .lookUp part ∈ x.entries := by
  refine List.mem_filterMap.trans ⟨?_, fun h => ⟨_, h, rfl⟩⟩
  rintro ⟨e, he, hpart⟩
  cases e <;> cases hpart
  exact he

/-! ## Parts -/

namespace Archive

theorem staysInside_read (a : Archive) {part : String}
    (h : part = Package.rootRelationships ∨ IsCanonical part) : (a.read part).All StaysInside := by
  simp [read, StaysInside, h]

theorem staysInside_readText (a : Archive) {part : String}
    (h : part = Package.rootRelationships ∨ IsCanonical part) :
    (a.readText part).All StaysInside := by
  simp [readText, staysInside_read a h]

end Archive

theorem Brush.staysInside_ofImage (attributes : Attributes) (t : Option Transform)
    {context : PageContext} (h : IsCanonical context.partName) :
    (ofImage attributes t context).All StaysInside := by
  refine (ofImage_ofImage attributes t context).imp fun e he => ?_
  obtain ⟨reference, he⟩ := he
  cases e with
  | lookUp part =>
    have hpart : part = PartName.resolve context.partName reference := he
    rw [hpart]
    exact .inr (isCanonical_resolve h reference)
  | _ => trivial

variable {σ : Type} [FontProvider σ]

theorem Glyphs.staysInside_font (attributes : Attributes) {context : PageContext}
    (h : IsCanonical context.partName) (fonts : FontCache σ) :
    (font attributes context fonts).All StaysInside := by
  refine (ofFont_font attributes context fonts).imp fun e he => ?_
  obtain ⟨reference, he⟩ := he
  cases e with
  | lookUp part =>
    have hpart : part = PartName.resolve context.partName reference := he
    rw [hpart]
    exact .inr (isCanonical_resolve h reference)
  | _ => trivial

/-! ## Painting and reading a page -/

namespace Painter

theorem staysInside_paintPath (state : PaintState) (context : PageContext) (n : Node) :
    (paintPath state context n).All StaysInside :=
  (ofMarks_paintPath state context n).imp fun _ => Entry.OfMarks.staysInside

theorem staysInside_paintText (state : PaintState) (context : PageContext) (provider : σ)
    (font : Font) (n : Node) : (paintText state context provider font n).All StaysInside :=
  (ofMarks_paintText state context provider font n).imp fun _ => Entry.OfMarks.staysInside

theorem staysInside_paintGlyphs (state : PaintState) {context : PageContext}
    (h : IsCanonical context.partName) (fonts : FontCache σ) (n : Node) :
    (paintGlyphs state context fonts n).All StaysInside := by
  unfold paintGlyphs
  simp only [Journaled.all_bind, Glyphs.staysInside_font _ h, true_and]
  split <;> simp [staysInside_paintText]

theorem staysInside_process {context : PageContext} (h : IsCanonical context.partName)
    (p : Painter σ) (n : Node) : (process context p n).All StaysInside := by
  unfold process
  split
  case h_3 => simp [staysInside, staysInside_paintGlyphs _ h]
  case h_4 | h_5 | h_6 =>
    simp only [Journaled.all_bind, staysInside (Node.reports_requiredChildTransform _ _), true_and]
    split <;> simp
  case h_12 => simp [Brush.staysInside_ofImage _ _ h]
  all_goals simp [staysInside, staysInside_paintPath]

theorem staysInside_step {context : PageContext} (h : IsCanonical context.partName)
    (p : Painter σ) (e : MarkupEvent) : (step context p e).All StaysInside := by
  unfold step
  split
  · simp
  · simp [staysInside]
  · unfold stop
    simp only [Journaled.all_bind, staysInside (ScopeStack.reports_pop _ _), true_and]
    split <;> simp [staysInside_process h]

theorem staysInside_run {context : PageContext} (h : IsCanonical context.partName)
    (p : Painter σ) (events : List MarkupEvent) : (p.run context events).All StaysInside :=
  Journaled.all_foldlM (staysInside_step h) events p

end Painter

namespace TextCollector

theorem staysInside_placeText (provider : σ) (font : Font) (frame : Frame) (size : Size)
    (attributes : Attributes) :
    (placeText provider font frame size attributes).All StaysInside :=
  (ofMarks_placeText provider font frame size attributes).imp fun _ => Entry.OfMarks.staysInside

theorem staysInside_placeGlyphs (frame : Frame) {context : PageContext}
    (h : IsCanonical context.partName) (fonts : FontCache σ) (attributes : Attributes) :
    (placeGlyphs frame context fonts attributes).All StaysInside := by
  unfold placeGlyphs
  simp only [Journaled.all_bind, Glyphs.staysInside_font _ h, true_and]
  split <;> simp [staysInside, staysInside_placeText]

theorem staysInside_process {context : PageContext} (h : IsCanonical context.partName)
    (c : TextCollector σ) (n : Node) : (process context c n).All StaysInside := by
  unfold process
  split
  case h_2 => simp [staysInside, staysInside_placeGlyphs _ h]
  case h_3 | h_4 =>
    simp only [Journaled.all_bind, staysInside (Node.reports_requiredChildTransform _ _), true_and]
    split <;> simp
  all_goals simp [staysInside]

theorem staysInside_step {context : PageContext} (h : IsCanonical context.partName)
    (c : TextCollector σ) (e : MarkupEvent) : (step context c e).All StaysInside := by
  unfold step
  split
  · simp
  · simp [staysInside]
  · unfold stop
    simp only [Journaled.all_bind, staysInside (ScopeStack.reports_pop _ _), true_and]
    split <;> simp [staysInside_process h]

theorem staysInside_run {context : PageContext} (h : IsCanonical context.partName)
    (c : TextCollector σ) (events : List MarkupEvent) : (c.run context events).All StaysInside :=
  Journaled.all_foldlM (staysInside_step h) events c

end TextCollector

/-! ## Pages -/

namespace Page

theorem staysInside_paintMarkup (markup : String) {context : PageContext}
    (h : IsCanonical context.partName) (base : Transform) (fonts : FontCache σ) :
    (paintMarkup markup context base fonts).All StaysInside := by
  unfold paintMarkup
  simp only [Journaled.all_bind, Painter.staysInside_run h, true_and]
  split <;> simp [staysInside]

theorem staysInside_renderMarkup (markup : String) {context : PageContext}
    (h : IsCanonical context.partName) (fonts : FontCache σ) (target : PixelSize) :
    (renderMarkup markup context fonts target).All StaysInside := by
  unfold renderMarkup
  split
  · simp
  · exact staysInside_paintMarkup markup h _ fonts

theorem staysInside_extractMarkup (markup : String) {context : PageContext}
    (h : IsCanonical context.partName) (fonts : FontCache σ) :
    (extractMarkup markup context fonts).All StaysInside :=
  TextCollector.staysInside_run h _ _

theorem staysInside_headerSize (markup : String) : (headerSize markup).All StaysInside := by
  unfold headerSize
  split <;> simp [staysInside]

theorem staysInside_load (archive : Archive) {name : String} (h : IsCanonical name) :
    (load archive name).All StaysInside := by
  unfold load
  simp only [Journaled.all_bind, archive.staysInside_readText (.inr h), true_and]
  split <;> simp [staysInside_headerSize]

theorem staysInside_render {p : Page} (h : IsCanonical p.partName) (archive : Archive)
    (fonts : FontCache σ) (options : Options) (target : PixelSize) :
    (p.render archive fonts options target).All StaysInside := by
  have hmarkup : (p.markupOrEmpty archive).All StaysInside := by
    unfold markupOrEmpty
    simp only [Journaled.all_bind, archive.staysInside_readText (.inr h), true_and]
    split <;> simp [staysInside]
  unfold render
  split
  · simp
  · have hcontext : IsCanonical (p.context archive options).partName := h
    have hrender := staysInside_renderMarkup (p.markupOrEmpty archive).value hcontext fonts target
    simp only [Journaled.all_bind, hmarkup, hrender, true_and]
    split <;> simp

theorem staysInside_extractText {p : Page} (h : IsCanonical p.partName) (archive : Archive)
    (fonts : FontCache σ) (options : Options) :
    (p.extractText archive fonts options).All StaysInside := by
  unfold extractText
  simp only [Journaled.all_bind, archive.staysInside_readText (.inr h), true_and]
  split
  · simp
  · exact staysInside_extractMarkup _ h fonts

theorem partName_render (p : Page) (archive : Archive) (fonts : FontCache σ) (options : Options)
    (target : PixelSize) :
    (p.render archive fonts options target).value.2.1.partName = p.partName := by
  unfold render
  split
  · rfl
  · simp only [Journaled.value_bind]
    split <;> rfl

end Page

/-! ## Opening a package -/

namespace Package

theorem staysInside_readDocument (archive : Archive) {part : String}
    (h : part = rootRelationships ∨ IsCanonical part) :
    (readDocument archive part).All StaysInside := by
  simp [readDocument, archive.staysInside_readText h]

theorem staysInside_listReferences (archive : Archive) {part : String} (h : IsCanonical part)
    (child : String) : (listReferences archive part child).All StaysInside := by
  simp [listReferences, staysInside_readDocument archive (.inr h)]

/-- The sequence is named by a reference of the root relationships. -/
theorem isCanonical_findSequence {archive : Archive} {sequence : String}
    (h : (findSequence archive).value = .ok sequence) : IsCanonical sequence := by
  obtain ⟨relationships, -, h⟩ := exists_of_bind_eq_ok h
  unfold sequenceOf at h
  split at h
  · rw [← Except.ok.inj h]
    exact isCanonical_resolve isCanonical_empty _
  · cases h

theorem isCanonical_listReferences {archive : Archive} {part child : String} {names : List String}
    (hpart : IsCanonical part) (h : (listReferences archive part child).value = .ok names) :
    ∀ name ∈ names, IsCanonical name := by
  obtain ⟨root, -, rfl⟩ := exists_of_map_eq_ok h
  intro name hname
  obtain ⟨reference, -, rfl⟩ := List.mem_map.1 hname
  exact isCanonical_resolve hpart reference

/-- Pages that names lead to from within the package. -/
def Confined (pages : List Page) : Prop := ∀ page ∈ pages, IsCanonical page.partName

theorem staysInside_loadPage (archive : Archive) {name : String} (h : IsCanonical name) :
    (loadPage archive name).All StaysInside := by
  unfold loadPage
  simp only [Journaled.all_bind, Page.staysInside_load archive h, true_and]
  split <;> simp [staysInside]

theorem staysInside_loadDocument (archive : Archive) {name : String} (h : IsCanonical name) :
    (loadDocument archive name).All StaysInside := by
  unfold loadDocument
  simp only [Journaled.all_bind, staysInside_listReferences archive h, true_and]
  split
  · rename_i pages hpages
    exact all_collect fun page hpage =>
      staysInside_loadPage archive (isCanonical_listReferences h hpages page hpage)
  · simp [staysInside]

theorem confined_loadDocument (archive : Archive) {name : String} (h : IsCanonical name) :
    Confined (loadDocument archive name).value := by
  unfold loadDocument
  rw [Journaled.value_bind]
  split
  · rename_i pages hpages
    refine forall_mem_collect fun name hname page hpage => ?_
    rw [mem_loadPage hpage]
    exact isCanonical_listReferences h hpages name hname
  · exact fun page hpage => nomatch hpage

theorem confined_discover (archive : Archive) :
    (discover archive).All StaysInside ∧
      ∀ pages, (discover archive).value = .ok pages → Confined pages := by
  have hroot : (findSequence archive).All StaysInside := by
    simp [findSequence, staysInside_readDocument archive (.inl rfl)]
  unfold discover
  simp only [Journaled.all_bind, Journaled.value_bind, hroot, true_and]
  split
  · refine ⟨Journaled.all_pure _, fun pages h => ?_⟩
    cases h
  · rename_i sequence hsequence
    have hseq := isCanonical_findSequence hsequence
    simp only [Journaled.all_bind, Journaled.value_bind, staysInside_listReferences archive hseq,
      true_and]
    split
    · refine ⟨Journaled.all_pure _, fun pages h => ?_⟩
      cases h
    · rename_i documents hdocuments
      have hdocument := isCanonical_listReferences hseq hdocuments
      have hentries : (collect (loadDocument archive) documents).All StaysInside :=
        all_collect fun name hname => staysInside_loadDocument archive (hdocument name hname)
      refine ⟨by simp [hentries, staysInside], fun pages h => ?_⟩
      cases h
      exact forall_mem_collect fun name hname =>
        confined_loadDocument archive (hdocument name hname)

/-! ## Using a package -/

omit [FontProvider σ] in
theorem mem_of_page_eq_ok {p : Package σ} {index : Nat} {page : Page}
    (h : p.page index = .ok page) : page ∈ p.pages := by
  unfold Package.page at h
  split at h
  · rename_i hpage
    cases h
    exact List.mem_of_getElem? hpage
  · cases h

theorem confined_renderPage {p : Package σ} (h : Confined p.pages) (index : Nat)
    (target : PixelSize) :
    (p.renderPage index target).All StaysInside ∧
      Confined (p.renderPage index target).value.2.pages := by
  unfold renderPage
  split
  · exact ⟨Journaled.all_pure _, h⟩
  · rename_i page hpage
    have hname := h page (mem_of_page_eq_ok hpage)
    have hset : Confined
        (p.pages.set index (page.render p.archive p.fonts p.options target).value.2.1) := by
      intro page' hpage'
      rcases List.mem_or_eq_of_mem_set hpage' with hpage' | rfl
      · exact h page' hpage'
      · rwa [Page.partName_render]
    simp only [Journaled.all_bind, Journaled.value_bind, Page.staysInside_render hname, true_and]
    split <;> exact ⟨Journaled.all_pure _, hset⟩

theorem confined_extractText {p : Package σ} (h : Confined p.pages) (index : Nat) :
    (p.extractText index).All StaysInside ∧ Confined (p.extractText index).value.2.pages := by
  unfold extractText
  split
  · exact ⟨Journaled.all_pure _, h⟩
  · rename_i page hpage
    have hname := h page (mem_of_page_eq_ok hpage)
    exact ⟨by simp [Page.staysInside_extractText hname], h⟩

/-- No operation looks outside or renames a page. -/
theorem confined_perform {p : Package σ} (h : Confined p.pages) (operation : Operation) :
    (p.perform operation).All StaysInside ∧ Confined (p.perform operation).value.2.pages := by
  cases operation with
  | setOptions options =>
    refine ⟨Journaled.all_pure _, fun page hpage => ?_⟩
    obtain ⟨page', hpage', rfl⟩ := List.mem_map.1 hpage
    exact h page' hpage'
  | render index target =>
    obtain ⟨hentries, hpages⟩ := confined_renderPage h index target
    exact ⟨by simp [perform, hentries], hpages⟩
  | extract index =>
    obtain ⟨hentries, hpages⟩ := confined_extractText h index
    exact ⟨by simp [perform, hentries], hpages⟩

theorem staysInside_performAll {p : Package σ} (h : Confined p.pages)
    (operations : List Operation) : (p.performAll operations).All StaysInside := by
  induction operations generalizing p with
  | nil => exact Journaled.all_pure _
  | cons operation operations ih =>
    obtain ⟨hentries, hpages⟩ := confined_perform h operation
    simp [performAll, hentries, ih hpages]

theorem staysInside_session (archive : Archive) (provider : σ) (operations : List Operation) :
    (session archive provider operations).All StaysInside := by
  obtain ⟨hentries, hpages⟩ := confined_discover archive
  unfold session load
  simp only [bind_pure_comp, Journaled.all_bind, Journaled.all_map, Journaled.value_map, hentries,
    true_and]
  split
  · exact Journaled.all_pure _
  · rename_i p hp
    obtain ⟨pages, hpages', rfl⟩ := exists_of_map_eq_ok hp
    have hentries := staysInside_performAll
      (p := { archive, fonts := ⟨provider, []⟩, pages }) (hpages pages hpages') operations
    simp [hentries]

/-- **A package cannot name anything outside.** Each part that is looked up while a package is opened,
rendered and read has a canonical name, but for the root relationships. So its path in a directory
is the path of the directory and ordinary names behind it, and no step of it leads above the
directory. -/
theorem lookUps_session_confined (archive : Archive) (provider : σ) (operations : List Operation)
    {part : String} (h : part ∈ (session archive provider operations).lookUps) :
    (part = rootRelationships ∨ IsCanonical part) ∧
      (∀ s ∈ FileTree.segments part, FileTree.IsOrdinary s) ∧
      ∀ (root : List String) (steps : Nat),
        FileTree.straighten (root ++ (FileTree.segments part).take steps) =
          FileTree.straighten root ++ (FileTree.segments part).take steps := by
  have hpart : part = rootRelationships ∨ IsCanonical part :=
    staysInside_session archive provider operations _ (Journaled.mem_lookUps.1 h)
  have hordinary : ∀ s ∈ FileTree.segments part, FileTree.IsOrdinary s := by
    rcases hpart with rfl | hpart
    · decide
    · exact fun s hs => FileTree.isOrdinary_of_mem_segments hpart hs
  exact ⟨hpart, hordinary, fun root steps =>
    FileTree.straighten_append root fun s hs => hordinary s (List.mem_of_mem_take hs)⟩

end Package

/-- An archive whose root relationships point above it. -/
def Package.hostileArchive : Archive :=
  MemoryArchive.toArchive <| MemoryArchive.insert {} rootRelationships
    ("<Relationships><Relationship Target=\"../../../etc/passwd\" Type=" ++
      "\"http://schemas.openxps.org/oxps/v1.0/fixedrepresentation\"/></Relationships>").toUTF8

/-- The part is looked up within the package. -/
theorem Package.lookUps_session_hostileArchive :
    "etc/passwd" ∈ (session hostileArchive ({} : FontDatabase) []).lookUps ∧
      (("etc/passwd" = rootRelationships ∨ IsCanonical "etc/passwd") ∧
        (∀ s ∈ FileTree.segments "etc/passwd", FileTree.IsOrdinary s) ∧
        ∀ (root : List String) (steps : Nat),
          FileTree.straighten (root ++ (FileTree.segments "etc/passwd").take steps) =
            FileTree.straighten root ++ (FileTree.segments "etc/passwd").take steps) := by
  have h : "etc/passwd" ∈ (session hostileArchive ({} : FontDatabase) []).lookUps := by
    decide +kernel
  exact ⟨h, lookUps_session_confined hostileArchive ({} : FontDatabase) [] h⟩

end Xps
