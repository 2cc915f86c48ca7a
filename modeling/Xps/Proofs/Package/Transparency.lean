import Xps.Proofs.Package.Discovery
import Xps.Proofs.Package.Session
import Xps.Proofs.Page.FontAgreement

/-!
# Caches do not show

What an operation on a package answers depends on the archive, the pages, the options that hold and
the operation, and on nothing that was done before (`answer_perform`). The images that pages keep
are the images that would be rendered again (`Page.Fresh`), and fonts are what their data says,
whenever they were loaded (`FontCache.Knows`).
-/

namespace Xps

open FontCache FontProvider

variable {σ : Type} [FontProvider σ] {answersOf : ByteArray → Option FontAnswers}
  {archive : Archive}

/-! ## Pages -/

namespace Page

/-- A page without its image. -/
def bare (p : Page) : Page := { p with image := none }

/-- The image of a page, rendered anew. -/
def rendering (p : Page) (archive : Archive) (fonts : FontCache σ) (options : Options)
    (target : PixelSize) : Option Canvas :=
  (renderMarkup (p.markupOrEmpty archive).value (p.context archive options) fonts target).value.1

theorem size_rendering {p : Page} {fonts : FontCache σ} {options : Options} {target : PixelSize}
    {image : Canvas} (h : p.rendering archive fonts options target = some image) :
    image.size = target := by
  unfold rendering renderMarkup Canvas.blank? at h
  split at h
  · cases h
  · rename_i canvas hcanvas
    cases h
    split at hcanvas
    · cases hcanvas
      rfl
    · cases hcanvas

/-- The image that a page keeps is the one that is rendered anew, whichever cache that knows the
archive is at hand. -/
def Fresh (answersOf : ByteArray → Option FontAnswers) (archive : Archive) (σ : Type)
    [FontProvider σ] (options : Options) (p : Page) : Prop :=
  ∀ image, p.image = some image → ∀ fonts : FontCache σ, Knows answersOf archive fonts →
    p.rendering archive fonts options image.size = some image

theorem rendering_congr (p : Page) (options : Options) {fonts other : FontCache σ}
    (h : Knows answersOf archive fonts) (hother : Knows answersOf archive other)
    (target : PixelSize) :
    p.rendering archive fonts options target = p.rendering archive other options target :=
  (renderMarkup_alike (p.markupOrEmpty archive).value (p.context archive options)
    (c := fonts) (d := other) ⟨h, hother⟩ target).1

/-- The page and the cache that rendering leaves behind. -/
structure Keeps (answersOf : ByteArray → Option FontAnswers) (archive : Archive)
    (options : Options) (p : Page) (result : Page × FontCache σ) : Prop where
  bare : result.1.bare = p.bare
  fresh : result.1.Fresh answersOf archive σ options
  fonts : Knows answersOf archive result.2

/-- Rendering a page gives the image that is rendered anew with any other cache. -/
theorem render_fresh {p : Page} {fonts other : FontCache σ} {options : Options}
    (hp : p.Fresh answersOf archive σ options) (hfonts : Knows answersOf archive fonts)
    (hother : Knows answersOf archive other) (target : PixelSize) :
    (p.render archive fonts options target).value.1 = p.rendering archive other options target ∧
      Keeps answersOf archive options p (p.render archive fonts options target).value.2 := by
  unfold render
  cases hcached : p.cached? target with
  | some image =>
    obtain ⟨himage, hsize⟩ := Option.filter_eq_some_iff.1 hcached
    have hsize : image.size = target := of_decide_eq_true hsize
    refine ⟨?_, rfl, hp, hfonts⟩
    rw [← hsize]
    exact (hp image himage other hother).symm
  | none =>
    -- The image is made with the cache at hand, but any other one would have made it, too.
    have hknows : Knows answersOf archive (renderMarkup (p.markupOrEmpty archive).value
        (p.context archive options) fonts target).value.2 :=
      (renderMarkup_alike (p.markupOrEmpty archive).value (p.context archive options)
        (c := fonts) (d := fonts) ⟨hfonts, hfonts⟩ target).2.left
    have himage : p.rendering archive fonts options target = (renderMarkup
        (p.markupOrEmpty archive).value (p.context archive options) fonts target).value.1 := rfl
    rw [← rendering_congr p options hfonts hother]
    simp only [Journaled.value_bind]
    rcases hrender : (renderMarkup (p.markupOrEmpty archive).value (p.context archive options) fonts
      target).value with ⟨_ | image, fonts'⟩ <;> rw [hrender] at hknows himage
    · exact ⟨himage.symm, rfl, hp, hknows⟩
    · refine ⟨himage.symm, rfl, ?_, hknows⟩
      rintro _ ⟨⟩ other hother
      rw [size_rendering himage]
      exact (rendering_congr p options hother hfonts target).trans himage

theorem extractText_congr (p : Page) (options : Options) {fonts other : FontCache σ}
    (h : Knows answersOf archive fonts) (hother : Knows answersOf archive other) :
    (p.extractText archive fonts options).value.1 = (p.extractText archive other options).value.1 ∧
      Knows answersOf archive (p.extractText archive fonts options).value.2 := by
  unfold extractText
  simp only [Journaled.value_bind]
  split
  · exact ⟨rfl, h⟩
  · rename_i markup _
    have halike := extractMarkup_alike markup (p.context archive options) (c := fonts) (d := other)
      ⟨h, hother⟩
    exact ⟨halike.1, halike.2.left⟩

end Page

/-! ## Operations -/

namespace Package

/-- What an operation answers without images and with a cache of its own. -/
def answer (archive : Archive) (options : Options) (pages : List Page) (fonts : FontCache σ) :
    Operation → Answer
  | .setOptions _ => .done
  | .render index target =>
    .image <| match pages[index]? with
      | none => .error (.pageOutOfRange index)
      | some page =>
        match page.rendering archive fonts options target with
        | some image => .ok image
        | none => .error .invalidPageSize
  | .extract index =>
    .text <| match pages[index]? with
      | none => .error (.pageOutOfRange index)
      | some page => (page.extractText archive fonts options).value.1

/-- The package of an archive with some pages and options, whatever its caches hold. -/
structure Transparent (answersOf : ByteArray → Option FontAnswers) (archive : Archive)
    (options : Options) (pages : List Page) (p : Package σ) : Prop where
  sameArchive : p.archive = archive
  sameOptions : p.options = options
  samePages : p.pages.map Page.bare = pages
  fresh : ∀ page ∈ p.pages, page.Fresh answersOf archive σ options
  fonts : Knows answersOf archive p.fonts

variable {options : Options} {pages : List Page} {p : Package σ} {fonts : FontCache σ}

theorem getElem?_bare (h : Transparent answersOf archive options pages p) (index : Nat) :
    pages[index]? = p.pages[index]?.map Page.bare := by
  rw [← h.samePages, List.getElem?_map]

theorem transparent_setOptions (h : Transparent answersOf archive options pages p)
    (change : Options) : Transparent answersOf archive change pages (p.setOptions change) := by
  refine ⟨h.sameArchive, rfl, ?_, fun page hpage image himage => ?_, h.fonts⟩
  · rw [← h.samePages]
    unfold setOptions
    rw [List.map_map]
    rfl
  · obtain ⟨page, -, rfl⟩ := List.mem_map.1 hpage
    cases himage

theorem value_renderPage {index : Nat} {page : Page} (h : p.pages[index]? = some page)
    (target : PixelSize) :
    (p.renderPage index target).value =
      let rendered := (page.render p.archive p.fonts p.options target).value
      (match rendered.1 with
        | some image => .ok image
        | none => .error .invalidPageSize,
        { p with fonts := rendered.2.2, pages := p.pages.set index rendered.2.1 }) := by
  unfold renderPage Package.page
  rw [h]
  dsimp only
  rw [Journaled.value_bind]
  rcases (page.render p.archive p.fonts p.options target).value with ⟨_ | image, page', fonts⟩ <;> rfl

theorem renderPage_answer (h : Transparent answersOf archive options pages p)
    (hfonts : Knows answersOf archive fonts) (index : Nat) (target : PixelSize) :
    .image (p.renderPage index target).value.1 =
        answer archive options pages fonts (.render index target) ∧
      Transparent answersOf archive options pages (p.renderPage index target).value.2 := by
  have hpage := getElem?_bare h index
  unfold answer
  dsimp only
  rw [hpage]
  cases hindex : p.pages[index]? with
  | none =>
    unfold renderPage Package.page
    rw [hindex]
    exact ⟨rfl, h⟩
  | some page =>
    have hmem := List.mem_of_getElem? hindex
    obtain ⟨himage, hkeeps⟩ := Page.render_fresh (h.fresh page hmem) h.fonts hfonts target
    rw [value_renderPage hindex, h.sameArchive, h.sameOptions]
    dsimp only
    refine ⟨congrArg _ ?_, rfl, rfl, ?_, ?_, hkeeps.fonts⟩
    · rw [himage]
      rfl
    · obtain ⟨hi, rfl⟩ := List.getElem?_eq_some_iff.1 hindex
      rw [List.map_set, hkeeps.bare, ← List.map_set, List.set_getElem_self, h.samePages]
    · intro page' hpage'
      rcases List.mem_or_eq_of_mem_set hpage' with hpage' | rfl
      · exact h.fresh page' hpage'
      · exact hkeeps.fresh

theorem extractText_answer (h : Transparent answersOf archive options pages p)
    (hfonts : Knows answersOf archive fonts) (index : Nat) :
    .text (p.extractText index).value.1 = answer archive options pages fonts (.extract index) ∧
      Transparent answersOf archive options pages (p.extractText index).value.2 := by
  have hpage := getElem?_bare h index
  unfold answer extractText Package.page
  dsimp only
  rw [hpage]
  cases hindex : p.pages[index]? with
  | none => exact ⟨rfl, h⟩
  | some page =>
    obtain ⟨htext, hknows⟩ := page.extractText_congr options h.fonts hfonts
    rw [h.sameArchive, h.sameOptions]
    exact ⟨congrArg _ htext, rfl, rfl, h.samePages, h.fresh, hknows⟩

/-- An operation answers what it would answer without images and with any other cache. -/
theorem answer_perform (h : Transparent answersOf archive options pages p)
    (hfonts : Knows answersOf archive fonts) (operation : Operation) :
    (p.perform operation).value.1 = answer archive options pages fonts operation ∧
      Transparent answersOf archive (operation.options?.getD options) pages
        (p.perform operation).value.2 := by
  cases operation with
  | setOptions change => exact ⟨rfl, transparent_setOptions h change⟩
  | render index target => exact renderPage_answer h hfonts index target
  | extract index => exact extractText_answer h hfonts index

/-! ## Sessions -/

/-- The options that hold after some operations. -/
def optionsAfter (options : Options) (operations : List Operation) : Options :=
  (operations.filterMap Operation.options?).getLast?.getD options

theorem optionsAfter_cons (options : Options) (operation : Operation)
    (operations : List Operation) :
    optionsAfter options (operation :: operations) =
      optionsAfter (operation.options?.getD options) operations := by
  unfold optionsAfter
  cases h : operation.options? with
  | none => rw [List.filterMap_cons_none h, Option.getD_none]
  | some change => rw [List.filterMap_cons_some h, List.getLast?_cons, Option.getD_some]; rfl

theorem optionsAfter_latestChange (options : Options) (operations : List Operation) :
    optionsAfter options (latestChange operations) = optionsAfter options operations := by
  unfold latestChange
  unfold optionsAfter
  cases (operations.filterMap Operation.options?).getLast? <;> rfl

theorem transparent_performAll (operations : List Operation)
    (h : Transparent answersOf archive options pages p) :
    Transparent answersOf archive (optionsAfter options operations) pages
      (p.performAll operations).value.2 := by
  induction operations generalizing options p with
  | nil => exact h
  | cons operation operations ih =>
    rw [optionsAfter_cons]
    exact ih (answer_perform h h.fonts operation).2

theorem transparent_load {provider : σ} (hprovider : Determines answersOf provider)
    (h : (load archive provider).value = .ok p) :
    Transparent answersOf archive {} p.pages p := by
  obtain ⟨pages, hpages, rfl⟩ := exists_of_map_eq_ok h
  have himage : ∀ page ∈ pages, page.image = none := image_discover hpages
  refine ⟨rfl, rfl, ?_, fun page hpage image hsome => ?_, knows_empty hprovider⟩
  · refine (List.map_congr_left fun page hpage => ?_).trans (List.map_id pages)
    unfold Page.bare
    rw [← himage page hpage]
    rfl
  · rw [himage page hpage] at hsome
    cases hsome

theorem getElem?_performAll (p : Package σ) (before after : List Operation)
    (operation : Operation) :
    (p.performAll (before ++ operation :: after)).value.1[before.length]? =
      some ((p.performAll before).value.2.perform operation).value.1 := by
  induction before generalizing p with
  | nil => rfl
  | cons first before ih => exact ih (p.perform first).value.2

theorem value_session (archive : Archive) (provider : σ) (operations : List Operation) :
    (session archive provider operations).value =
      (load archive provider).value.map fun p => (p.performAll operations).value.1 := by
  unfold session
  rw [Journaled.value_bind]
  cases (load archive provider).value <;> rfl

/-- **Caches do not show.** In a session of any operations, each one answers what it answers on a
package that was just opened and had its options set to the latest ones. The images that pages keep
are such answers, too. -/
theorem session_transparent {provider : σ} (h : DataDetermined provider) (archive : Archive)
    (before after : List Operation) (operation : Operation) :
    (session archive provider (before ++ operation :: after)).value.map (·[before.length]?) =
        (answerAfter archive provider (latestChange before) operation).map some ∧
      ∀ p, (load archive provider).value = .ok p →
        ∀ (index : Nat) (page : Page) (image : Canvas),
          (p.performAll before).value.2.pages[index]? = some page → page.image = some image →
            answerAfter archive provider (latestChange before) (.render index image.size) =
              .ok (.image (.ok image)) := by
  obtain ⟨answersOf, hprovider⟩ := h
  unfold answerAfter
  rw [value_session]
  cases hload : (load archive provider).value with
  | error e => exact ⟨rfl, fun p hp => nomatch hp⟩
  | ok p =>
    have hopen := transparent_load hprovider hload
    have hused := transparent_performAll before hopen
    have hfresh := transparent_performAll (latestChange before) hopen
    -- Now both packages have the same options and pages, and the same answers to compare with.
    rw [optionsAfter_latestChange] at hfresh
    refine ⟨congrArg Except.ok ?_, ?_⟩
    · dsimp only
      rw [getElem?_performAll, (answer_perform hused hopen.fonts operation).1,
        (answer_perform hfresh hopen.fonts operation).1]
    · rintro _ ⟨⟩ index page image hpage himage
      have hrender := hused.fresh page (List.mem_of_getElem? hpage) image himage p.fonts hopen.fonts
      refine congrArg Except.ok ((answer_perform hfresh hopen.fonts _).1.trans ?_)
      have hbare := getElem?_bare hused index
      rw [hpage] at hbare
      unfold answer
      dsimp only
      rw [hbare]
      exact congrArg (fun rendered => Answer.image (match rendered with
        | some image => .ok image
        | none => .error .invalidPageSize)) hrender

/-- A package of one page, on which a square is painted. -/
def squareArchive : Archive :=
  let parts : List (String × String) :=
    [(rootRelationships, "<Relationships><Relationship Target=\"/seq.fdseq\" Type=" ++
        "\"http://schemas.openxps.org/oxps/v1.0/fixedrepresentation\"/></Relationships>"),
      ("seq.fdseq", "<FixedDocumentSequence><DocumentReference Source=\"doc.fdoc\"/>" ++
        "</FixedDocumentSequence>"),
      ("doc.fdoc", "<FixedDocument><PageContent Source=\"1.fpage\"/></FixedDocument>"),
      ("1.fpage", "<FixedPage Width=\"8\" Height=\"8\">" ++
        "<Path Data=\"M2,2 H6 V6 H2 Z\" Fill=\"#FF0000\"/></FixedPage>")]
  MemoryArchive.toArchive <|
    parts.foldl (fun archive part => archive.insert part.1 part.2.toUTF8) {}

/-- The page is rendered, the options change, and the page is rendered again. -/
theorem session_transparent_squareArchive :
    let size : PixelSize := ⟨8, 8, by decide, by decide⟩
    let before : List Operation := [.render 0 size, .setOptions { antiAlias := false }]
    let operation : Operation := .render 0 size
    DataDetermined ({} : FontDatabase) ∧
      (session squareArchive ({} : FontDatabase) (before ++ operation :: [])).value.map
          (·[before.length]?) =
        (answerAfter squareArchive ({} : FontDatabase) (latestChange before) operation).map some ∧
      ∀ p, (load squareArchive ({} : FontDatabase)).value = .ok p →
        ∀ (index : Nat) (page : Page) (image : Canvas),
          (p.performAll before).value.2.pages[index]? = some page → page.image = some image →
            answerAfter squareArchive ({} : FontDatabase) (latestChange before)
              (.render index image.size) = .ok (.image (.ok image)) := by
  intro size before operation
  have h : DataDetermined ({} : FontDatabase) := ⟨_, FontDatabase.determines {}⟩
  exact ⟨h, session_transparent h squareArchive before [] operation⟩

end Package

end Xps
