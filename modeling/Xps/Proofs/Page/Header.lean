import Xps.Proofs.Markup.RootTag
import Xps.Proofs.Package.Contents

/-!
# Headers of pages

A page is loaded from the text up to its root tag. Whatever stands behind the tag, well formed or
not, the page has the same size or is rejected in the same way.
-/

namespace Xps

open MarkupReader (ofText)

/-- A part that is text is read as that text. -/
theorem Archive.readText_of_text {archive : Archive} {part text : String}
    (h : archive.text? part = some text) :
    archive.readText part = ⟨.ok text, [.lookUp part]⟩ := by
  have hvalue := toOption_eq_some.1 ((archive.toOption_readText part).trans h)
  exact congrArg (Journaled.mk · [.lookUp part]) hvalue

namespace Page

theorem load_eq {archive : Archive} {part markup : String}
    (h : archive.text? part = some markup) :
    load archive part = do
      Journaled.write (.lookUp part)
      return (← headerSize markup).map fun size => { partName := part, size } := by
  unfold load
  rw [Archive.readText_of_text h]
  rfl

/-- A page depends on its markup through the root attributes alone. -/
theorem load_congr {archive archive' : Archive} {part markup markup' : String}
    (h : archive.text? part = some markup) (h' : archive'.text? part = some markup')
    (hroot : Markup.rootAttributes markup = Markup.rootAttributes markup') :
    load archive part = load archive' part := by
  have hsize : headerSize markup = headerSize markup' := by
    unfold headerSize
    rw [hroot]
  rw [load_eq h, load_eq h', hsize]

/-- **The header of a page decides its size.** The reader of the root attributes succeeds exactly
on the texts whose events have the start of an element, with the attributes of the first one. On two
texts that are the same up to the closing bracket of the root tag it gives the same, and so the two
pages are loaded with the same size and the same reports, or rejected with the same error. -/
theorem header_decides :
    (∀ (text : String) (attributes : Attributes),
      Markup.rootAttributes text = .ok attributes ↔
        (Markup.events text).1.findSome? MarkupEvent.attributes? = some attributes) ∧
    ∀ (header body body' : String) (tag : Tag),
      (ofText (header ++ body)).RootTag tag body.toList →
        header.toList.getLast? = some '>' ∧
        Markup.rootAttributes (header ++ body') = Markup.rootAttributes (header ++ body) ∧
        ∀ (archive archive' : Archive) (part : String),
          archive.text? part = some (header ++ body) →
          archive'.text? part = some (header ++ body') →
            load archive' part = load archive part := by
  constructor
  · intro text attributes
    exact MarkupReader.rootAttributes_eq_ok_iff (ofText text) [] attributes
  · intro header body body' tag h
    have hroot : Markup.rootAttributes (header ++ body') = Markup.rootAttributes (header ++ body) :=
      (MarkupReader.rootTag_append h body').rootAttributes_eq.trans h.rootAttributes_eq.symm
    exact ⟨MarkupReader.getLast?_header h, hroot, fun _ _ _ hpart hpart' =>
      load_congr hpart' hpart hroot⟩

/-- A page with marks, a declaration and a comment in front of its root tag. Its body breaks off in
a tag, and the body in its place has an end tag that nothing opens. -/
theorem header_decides_tornBody :
    let header := "\ufeff<?xml version='1.0'?><!-- <P> --><FixedPage Width='816' Height='1056'>"
    let body := "<Path Data='M 0,0"
    let body' := "</Canvas>"
    let tag := Tag.ofContent "FixedPage Width='816' Height='1056'".toList
    let archive := (MemoryArchive.insert {} "a.fpage" (header ++ body).toUTF8).toArchive
    let archive' := (MemoryArchive.insert {} "a.fpage" (header ++ body').toUTF8).toArchive
    (ofText (header ++ body)).RootTag tag body.toList ∧
      archive.text? "a.fpage" = some (header ++ body) ∧
      archive'.text? "a.fpage" = some (header ++ body') ∧
      (load archive "a.fpage").value.toOption.isSome ∧
      load archive' "a.fpage" = load archive "a.fpage" := by
  intro header body body' tag archive archive'
  have hroot : (ofText (header ++ body)).RootTag tag body.toList := by
    simp only [header, body, tag, ofText, Text.dropByteOrderMarks, String.toList_append,
      String.reduceToList, List.cons_append, List.nil_append, List.dropWhile_cons,
      Char.reduceBEq]
    refine .later (p := .other) (q := ⟨_, []⟩) rfl rfl ?_
    refine .later (p := .other) (q := ⟨_, []⟩) rfl rfl ?_
    exact .here (p := .start (.ofContent _)) (q := ⟨_, [_]⟩) rfl rfl
  have hpart : archive.text? "a.fpage" = some (header ++ body) := by decide +kernel
  have hpart' : archive'.text? "a.fpage" = some (header ++ body') := by decide +kernel
  exact ⟨hroot, hpart, hpart', by decide +kernel,
    (header_decides.2 header body body' tag hroot).2.2 archive archive' "a.fpage" hpart hpart'⟩

end Page

end Xps
