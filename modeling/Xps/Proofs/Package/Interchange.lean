import Xps.Proofs.Archive.Stored
import Xps.Proofs.Package.Contents

/-!
# Archives that can be interchanged

A package sees its archive only through the names that references lead to, which are canonical. So
archives that hold the same parts under these names cannot be told apart by opening a package,
rendering it and reading it (`session_sameParts`). Parts in memory and the same parts in a directory
are such archives (`session_memory_eq_directory`).
-/

namespace Xps

open PartName (IsCanonical isCanonical_resolve IsPlain)

/-- Another archive holds the same parts under the names that references lead to. -/
def Archive.SameParts (archive other : Archive) : Prop :=
  ∀ name, IsCanonical name → other.find? name = archive.find? name

variable {archive other : Archive} {name : String}

/-! ## Reading parts -/

namespace Archive

theorem read_sameParts (h : SameParts archive other) (hname : IsCanonical name) :
    other.read name = archive.read name := by
  unfold read get
  rw [h name hname]

theorem readText_sameParts (h : SameParts archive other) (hname : IsCanonical name) :
    other.readText name = archive.readText name := by
  unfold readText
  rw [read_sameParts h hname]

end Archive

/-- The same page of another archive. -/
def PageContext.within (context : PageContext) (other : Archive) : PageContext :=
  { context with archive := other }

section context

variable {context : PageContext}

theorem Archive.read_reference_within (h : SameParts context.archive other)
    (hpart : IsCanonical context.partName) (reference : String) :
    (context.within other).archive.read
        (PartName.resolve (context.within other).partName reference) =
      context.archive.read (PartName.resolve context.partName reference) :=
  read_sameParts h (isCanonical_resolve hpart reference)

namespace Brush

theorem loadImage_within (h : context.archive.SameParts other)
    (hpart : IsCanonical context.partName) (attributes : Attributes) :
    loadImage attributes (context.within other) = loadImage attributes context := by
  unfold loadImage
  simp only [Archive.read_reference_within h hpart]

theorem ofImage_within (h : context.archive.SameParts other)
    (hpart : IsCanonical context.partName) (attributes : Attributes) (t : Option Transform) :
    ofImage attributes t (context.within other) = ofImage attributes t context := by
  unfold ofImage
  rw [loadImage_within h hpart]

end Brush

variable {σ : Type} [FontProvider σ]

namespace FontCache

theorem load_sameParts (h : archive.SameParts other) (hname : IsCanonical name) (provider : σ) :
    load provider other name = load provider archive name := by
  unfold load
  rw [Archive.read_sameParts h hname]

theorem resolve_sameParts (h : archive.SameParts other) (hname : IsCanonical name) (c : FontCache σ)
    (size : Float32) : c.resolve other name size = c.resolve archive name size := by
  unfold resolve
  rw [load_sameParts h hname]

end FontCache

theorem Glyphs.font_within (h : context.archive.SameParts other)
    (hpart : IsCanonical context.partName) (attributes : Attributes) (fonts : FontCache σ) :
    font attributes (context.within other) fonts = font attributes context fonts := by
  have hresolve (reference : String) (size : Float32) :
      fonts.resolve (context.within other).archive
          (PartName.resolve (context.within other).partName reference) size =
        fonts.resolve context.archive (PartName.resolve context.partName reference) size :=
    FontCache.resolve_sameParts h (isCanonical_resolve hpart reference) fonts size
  unfold font
  simp only [hresolve]
  rfl

/-! ## Following the events of a page -/

namespace Painter

theorem paintGlyphs_within (h : context.archive.SameParts other)
    (hpart : IsCanonical context.partName) (state : PaintState) (fonts : FontCache σ) (n : Node) :
    paintGlyphs state (context.within other) fonts n = paintGlyphs state context fonts n := by
  have htext (provider : σ) (font : Font) :
      paintText state (context.within other) provider font n =
        paintText state context provider font n := rfl
  unfold paintGlyphs
  simp only [Glyphs.font_within h hpart, htext]

theorem process_within (h : context.archive.SameParts other)
    (hpart : IsCanonical context.partName) (p : Painter σ) (n : Node) :
    process (context.within other) p n = process context p n := by
  have hpath : paintPath p.state (context.within other) n = paintPath p.state context n := rfl
  unfold process
  simp only [hpath, paintGlyphs_within h hpart, Brush.ofImage_within h hpart]

theorem run_within (h : context.archive.SameParts other) (hpart : IsCanonical context.partName)
    (p : Painter σ) (events : List MarkupEvent) :
    p.run (context.within other) events = p.run context events := by
  have hstep : step (σ := σ) (context.within other) = step context := by
    funext p e
    cases e with
    | document => rfl
    | start name attributes => rfl
    | stop name =>
      show stop (context.within other) p name = stop context p name
      unfold stop
      simp only [process_within h hpart]
  unfold run
  rw [hstep]

end Painter

namespace TextCollector

theorem placeGlyphs_within (h : context.archive.SameParts other)
    (hpart : IsCanonical context.partName) (frame : Frame) (fonts : FontCache σ)
    (attributes : Attributes) :
    placeGlyphs frame (context.within other) fonts attributes =
      placeGlyphs frame context fonts attributes := by
  unfold placeGlyphs
  rw [Glyphs.font_within h hpart]
  rfl

theorem process_within (h : context.archive.SameParts other)
    (hpart : IsCanonical context.partName) (c : TextCollector σ) (n : Node) :
    process (context.within other) c n = process context c n := by
  unfold process
  simp only [placeGlyphs_within h hpart]

theorem run_within (h : context.archive.SameParts other) (hpart : IsCanonical context.partName)
    (c : TextCollector σ) (events : List MarkupEvent) :
    c.run (context.within other) events = c.run context events := by
  have hstep : step (σ := σ) (context.within other) = step context := by
    funext c e
    cases e with
    | document => rfl
    | start name attributes => rfl
    | stop name =>
      show stop (context.within other) c name = stop context c name
      unfold stop
      simp only [process_within h hpart]
  unfold run
  rw [hstep]

end TextCollector

end context

variable {σ : Type} [FontProvider σ]

/-! ## Pages -/

namespace Page

theorem load_sameParts (h : archive.SameParts other) (hname : IsCanonical name) :
    load other name = load archive name := by
  unfold load
  rw [Archive.readText_sameParts h hname]

variable {p : Page}

theorem render_sameParts (h : archive.SameParts other) (hname : IsCanonical p.partName)
    (fonts : FontCache σ) (options : Options) (target : PixelSize) :
    p.render other fonts options target = p.render archive fonts options target := by
  have hmarkup : p.markupOrEmpty other = p.markupOrEmpty archive := by
    unfold markupOrEmpty
    rw [Archive.readText_sameParts h hname]
  have hcontext : (p.context archive options).archive.SameParts other := h
  have hpaint (markup : String) : renderMarkup markup (p.context other options) fonts target =
      renderMarkup markup (p.context archive options) fonts target := by
    have hrun (base : Transform) (events : List MarkupEvent) :
        (painter base fonts).run (p.context other options) events =
          (painter base fonts).run (p.context archive options) events :=
      Painter.run_within hcontext hname _ events
    unfold renderMarkup paintMarkup
    simp only [hrun]
    rfl
  unfold render
  rw [hmarkup]
  simp only [hpaint]

theorem extractText_sameParts (h : archive.SameParts other) (hname : IsCanonical p.partName)
    (fonts : FontCache σ) (options : Options) :
    p.extractText other fonts options = p.extractText archive fonts options := by
  have hcontext : (p.context archive options).archive.SameParts other := h
  have hread (markup : String) : extractMarkup markup (p.context other options) fonts =
      extractMarkup markup (p.context archive options) fonts := by
    have hrun (events : List MarkupEvent) :
        TextCollector.run (p.context other options) { fonts } events =
          TextCollector.run (p.context archive options) { fonts } events :=
      TextCollector.run_within hcontext hname _ events
    unfold extractMarkup
    simp only [hrun]
  unfold extractText
  rw [Archive.readText_sameParts h hname]
  simp only [hread]

end Page

/-! ## Packages -/

namespace Journaled

variable {α β : Type}

/-- How a computation goes on matters for its result alone. -/
theorem bind_congr_value {x : Journaled α} {f g : α → Journaled β} (h : f x.value = g x.value) :
    x >>= f = x >>= g := by
  show (⟨(f x.value).value, x.entries ++ (f x.value).entries⟩ : Journaled β) =
    ⟨(g x.value).value, x.entries ++ (g x.value).entries⟩
  rw [h]

end Journaled

namespace Package

theorem collect_congr {α β : Type} {f g : α → Journaled (List β)} {as : List α}
    (h : ∀ a ∈ as, f a = g a) : collect f as = collect g as := by
  induction as with
  | nil => rfl
  | cons a as ih =>
    have hrest : collect f as = collect g as := ih fun a ha => h a (List.mem_cons_of_mem _ ha)
    rw [collect, collect, h a List.mem_cons_self, hrest]

theorem listReferences_sameParts (h : archive.SameParts other) (hname : IsCanonical name)
    (child : String) : listReferences other name child = listReferences archive name child := by
  unfold listReferences readDocument
  rw [Archive.readText_sameParts h hname]

theorem findSequence_sameParts (h : archive.SameParts other) :
    findSequence other = findSequence archive := by
  have hroot : IsCanonical rootRelationships := by decide
  unfold findSequence readDocument
  rw [Archive.readText_sameParts h hroot]

theorem loadPage_sameParts (h : archive.SameParts other) (hname : IsCanonical name) :
    loadPage other name = loadPage archive name := by
  unfold loadPage
  rw [Page.load_sameParts h hname]

theorem loadDocument_sameParts (h : archive.SameParts other) (hname : IsCanonical name) :
    loadDocument other name = loadDocument archive name := by
  unfold loadDocument
  rw [listReferences_sameParts h hname]
  refine Journaled.bind_congr_value ?_
  cases hlist : (listReferences archive name "PageContent").value with
  | error e => rfl
  | ok pages =>
    have hpages := isCanonical_listReferences hname hlist
    exact collect_congr fun page hpage => loadPage_sameParts h (hpages page hpage)

theorem discover_sameParts (h : archive.SameParts other) : discover other = discover archive := by
  unfold discover
  rw [findSequence_sameParts h]
  refine Journaled.bind_congr_value ?_
  cases hfound : (findSequence archive).value with
  | error e => rfl
  | ok sequence =>
    have hsequence := isCanonical_findSequence hfound
    dsimp only
    rw [listReferences_sameParts h hsequence]
    refine Journaled.bind_congr_value ?_
    cases hlist : (listReferences archive sequence "DocumentReference").value with
    | error e => rfl
    | ok documents =>
      have hdocuments := isCanonical_listReferences hsequence hlist
      have hcollect : collect (loadDocument other) documents =
          collect (loadDocument archive) documents :=
        collect_congr fun document hdocument =>
          loadDocument_sameParts h (hdocuments document hdocument)
      dsimp only
      rw [hcollect]

/-- The same package with another archive. -/
def withArchive (p : Package σ) (other : Archive) : Package σ := { p with archive := other }

omit [FontProvider σ] in
theorem load_sameParts (h : archive.SameParts other) (provider : σ) :
    load other provider = Except.map (·.withArchive other) <$> load archive provider := by
  unfold load
  rw [discover_sameParts h, map_bind]
  refine Journaled.bind_congr_value ?_
  cases (discover archive).value <;> rfl

variable {p : Package σ}

theorem renderPage_sameParts (h : p.archive.SameParts other) (hp : Confined p.pages) (index : Nat)
    (target : PixelSize) : (p.withArchive other).renderPage index target =
      (fun r => (r.1, r.2.withArchive other)) <$> p.renderPage index target := by
  have hsame : (p.withArchive other).page index = p.page index := rfl
  unfold renderPage
  rw [hsame]
  cases hpage : p.page index with
  | error e => rfl
  | ok page =>
    have hname : IsCanonical page.partName := hp page (mem_of_page_eq_ok hpage)
    have hrender : page.render (p.withArchive other).archive (p.withArchive other).fonts
        (p.withArchive other).options target = page.render p.archive p.fonts p.options target :=
      Page.render_sameParts h hname p.fonts p.options target
    dsimp only
    rw [hrender, map_bind]
    refine Journaled.bind_congr_value ?_
    rcases (page.render p.archive p.fonts p.options target).value with
      ⟨_ | canvas, page', fonts⟩ <;> rfl

theorem extractText_sameParts (h : p.archive.SameParts other) (hp : Confined p.pages)
    (index : Nat) : (p.withArchive other).extractText index =
      (fun r => (r.1, r.2.withArchive other)) <$> p.extractText index := by
  have hsame : (p.withArchive other).page index = p.page index := rfl
  unfold extractText
  rw [hsame]
  cases hpage : p.page index with
  | error e => rfl
  | ok page =>
    have hname : IsCanonical page.partName := hp page (mem_of_page_eq_ok hpage)
    have hread : page.extractText (p.withArchive other).archive (p.withArchive other).fonts
        (p.withArchive other).options = page.extractText p.archive p.fonts p.options :=
      Page.extractText_sameParts h hname p.fonts p.options
    dsimp only
    rw [hread, map_bind]
    rfl

/-- An operation does the same on a package with another archive, and leaves its archive as it
is. -/
theorem perform_sameParts (h : p.archive.SameParts other) (hp : Confined p.pages)
    (operation : Operation) : (p.withArchive other).perform operation =
      (fun r => (r.1, r.2.withArchive other)) <$> p.perform operation := by
  cases operation with
  | setOptions options => rfl
  | render index target =>
    unfold perform
    dsimp only
    rw [renderPage_sameParts h hp, map_bind, bind_map_left]
    rfl
  | extract index =>
    unfold perform
    dsimp only
    rw [extractText_sameParts h hp, map_bind, bind_map_left]
    rfl

theorem archive_perform (p : Package σ) (operation : Operation) :
    (p.perform operation).value.2.archive = p.archive := by
  cases operation with
  | setOptions options => rfl
  | render index target =>
    show (p.renderPage index target).value.2.archive = p.archive
    unfold renderPage
    cases p.page index with
    | error e => rfl
    | ok page =>
      dsimp only
      rw [Journaled.value_bind]
      rcases (page.render p.archive p.fonts p.options target).value with
        ⟨_ | canvas, page', fonts⟩ <;> rfl
  | extract index =>
    show (p.extractText index).value.2.archive = p.archive
    unfold extractText
    cases p.page index <;> rfl

theorem performAll_sameParts (operations : List Operation) {p : Package σ}
    (h : p.archive.SameParts other) (hp : Confined p.pages) :
    (p.withArchive other).performAll operations =
      (fun r => (r.1, r.2.withArchive other)) <$> p.performAll operations := by
  induction operations generalizing p with
  | nil => rfl
  | cons operation operations ih =>
    unfold performAll
    rw [perform_sameParts h hp, map_bind, bind_map_left]
    refine Journaled.bind_congr_value ?_
    have hnext := ih (p := (p.perform operation).value.2)
      (by rwa [archive_perform]) (confined_perform hp operation).2
    dsimp only
    rw [hnext, map_bind, bind_map_left]
    rfl

/-- A session does not depend on parts that no reference leads to. -/
theorem session_sameParts (h : archive.SameParts other) (provider : σ)
    (operations : List Operation) :
    session other provider operations = session archive provider operations := by
  unfold session
  rw [load_sameParts h, bind_map_left]
  refine Journaled.bind_congr_value ?_
  cases hload : (load archive provider).value with
  | error e => rfl
  | ok p =>
    obtain ⟨pages, hpages, rfl⟩ := exists_of_map_eq_ok hload
    have hconfined : Confined pages := (confined_discover archive).2 pages hpages
    have hperform := performAll_sameParts operations
      (p := ({ archive, fonts := ⟨provider, []⟩, pages } : Package σ)) h hconfined
    dsimp only [Except.map]
    rw [hperform, bind_map_left]

/-- **Parts in memory and in a directory are the same package.** Parts of plain names, none of which
leads through another, can be kept in a directory. A plain name then finds the same in memory and in
any directory that holds them: the last part of that name, or that there is none. So the package
opens with the same pages, and all that is done with it has the same results. -/
theorem session_memory_eq_directory {parts : List (String × ByteArray)} (h : Storable parts)
    (provider : σ) (operations : List Operation) :
    (FileTree.ofParts parts).Holds parts ∧
      ∀ (tree : FileTree) (root : List String) (d : FileTree),
        FileTree.walk [tree] root = some d → d.Holds parts →
          let memory := (MemoryArchive.ofParts parts).toArchive
          let directory := tree.archive root
          (∀ name, IsPlain name →
            memory.contains name = directory.contains name ∧
              memory.read name = directory.read name ∧
              (memory.read name).value =
                match latest? parts (PartName.dropRoot · = PartName.dropRoot name) with
                | some data => .ok data
                | none => .error (.partMissing name)) ∧
            openedPages memory provider = openedPages directory provider ∧
            session memory provider operations = session directory provider operations := by
  refine ⟨FileTree.holds_ofParts h, ?_⟩
  intro tree root d hroot hd memory directory
  have hsame : directory.SameParts memory := fun name hname =>
    find?_memory_eq_directory_of_isCanonical h hroot hd hname
  refine ⟨fun name hname => ?_, ?_, session_sameParts hsame provider operations⟩
  · have hfind : memory.find? name = directory.find? name :=
      find?_memory_eq_directory h hroot hd hname
    have hstored : memory.find? name = _ := MemoryArchive.find?_ofParts parts name
    refine ⟨?_, ?_, ?_⟩
    · unfold Archive.contains
      rw [hfind]
    · unfold Archive.read Archive.get
      rw [hfind]
    · have hget : memory.get name = match memory.find? name with
          | some data => .ok data
          | none => .error (.partMissing name) := rfl
      exact hget.trans (by rw [hstored])
  · unfold openedPages
    rw [load_sameParts hsame, Journaled.value_map]
    cases (load directory provider).value <;> rfl

/-- A package of one page with a font beside it. The page is stored twice, with and without a slash
in front. -/
def spreadParts : List (String × ByteArray) :=
  [(rootRelationships, "<R><Relationship Target=\"/s\" Type=" ++
      "\"http://schemas.openxps.org/oxps/v1.0/fixedrepresentation\"/></R>"),
    ("s", "<S><DocumentReference Source=\"docs/a\"/></S>"),
    ("/docs/a", "<D><PageContent Source=\"pages/1.fpage\"/></D>"),
    ("//docs/pages/1.fpage", "<P/>"),
    ("docs/pages/1.fpage", "<P Width=\"8\" Height=\"8\"/>"),
    ("docs/fonts/1.ttf", "")].map fun part => (part.1, part.2.toUTF8)

/-- The directory lies in another one, and a path that goes up and down leads to it. -/
theorem session_memory_eq_directory_spreadParts :
    let d := FileTree.ofParts spreadParts
    let tree : FileTree := .directory [("tmp", .directory []), ("package", d)]
    let memory := (MemoryArchive.ofParts spreadParts).toArchive
    let directory := tree.archive ["tmp", "..", "package"]
    let operations : List Operation := [.extract 0, .setOptions { antiAlias := false }, .extract 0]
    Storable spreadParts ∧ d.Holds spreadParts ∧
      FileTree.walk [tree] ["tmp", "..", "package"] = some d ∧
      IsPlain "/docs/pages/1.fpage" ∧
      memory.read "/docs/pages/1.fpage" = directory.read "/docs/pages/1.fpage" ∧
      openedPages memory ({} : FontDatabase) = openedPages directory ({} : FontDatabase) ∧
      session memory ({} : FontDatabase) operations =
        session directory ({} : FontDatabase) operations := by
  intro d tree memory directory operations
  have hparts : Storable spreadParts := ⟨by decide +kernel, by decide +kernel⟩
  have hname : IsPlain "/docs/pages/1.fpage" := by decide +kernel
  have hroot : FileTree.walk [tree] ["tmp", "..", "package"] = some d := rfl
  obtain ⟨hd, hall⟩ := session_memory_eq_directory hparts ({} : FontDatabase) operations
  obtain ⟨hread, hpages, hsession⟩ := hall tree ["tmp", "..", "package"] d hroot hd
  exact ⟨hparts, hd, hroot, hname, (hread _ hname).2.1, hpages, hsession⟩

end Package

end Xps
