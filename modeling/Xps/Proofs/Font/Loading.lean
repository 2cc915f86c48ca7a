import Xps.Proofs.Font.GuidText
import Xps.Proofs.Font.History

/-!
# Plain and hidden fonts

The font of a part is loaded from the data of the part as it is. If that is no font, the name of
the part and the length of the data decide whether there is a second load, of the data without its
cover (`FontCache.LoadsOf`). A font that was covered with the GUID in the name of its part is found
behind the cover (`FontCache.hidden?_covered`).
-/

namespace Xps

open Journaled

/-- The base name of a file is what stands between the last slash and the first point behind it. -/
theorem PartName.baseName_file {directory file extension : String} (hslash : '/' ∉ file.toList)
    (hpoint : '.' ∉ file.toList) (hextension : '/' ∉ extension.toList) :
    baseName (directory ++ "/" ++ file ++ "." ++ extension) = file := by
  have hname : (directory ++ "/" ++ file ++ "." ++ extension).toList =
      directory.toList ++ '/' :: (file.toList ++ '.' :: extension.toList) := by
    simp
  have hfile : '/' ∉ file.toList ++ '.' :: extension.toList := by
    simp [hslash, hextension]
  have hbefore : ∀ c ∈ file.toList, (c != '.') := fun c hc =>
    bne_iff_ne.2 fun h => hpoint (h ▸ hc)
  unfold baseName split
  rw [hname, List.splitOn_append_cons_self, List.splitOn_eq_singleton hfile, List.getLastD_concat,
    List.takeWhile_append_of_pos hbefore, List.takeWhile_cons_of_neg (by decide), List.append_nil,
    String.ofList_toList]

namespace FontCache

variable {σ : Type} [FontProvider σ]

/-- Data is hidden where the name of the part begins with a GUID and the data is long enough. -/
theorem isSome_hidden? {part : String} {data : ByteArray} :
    (hidden? part data).isSome ↔
      Guid.Begins (PartName.baseName part).toUTF8 ∧ Guid.obfuscatedLength ≤ data.size := by
  unfold hidden?
  rw [← Guid.parse?_isSome_iff]
  cases Guid.parse? (PartName.baseName part) with
  | none => simp
  | some guid => simp [Guid.deobfuscate?_isSome_iff]

/-- Data that is no font as it is gets a second load where it is hidden, and none elsewhere. -/
theorem load_of_rejected {provider : σ} {archive : Archive} {part : String} {data : ByteArray}
    (hdata : archive.find? part = some data) (hnone : (FontProvider.load provider data).1 = none) :
    (load provider archive part).loads = data :: (hidden? part data).toList ∧
      (load provider archive part).value =
        match hidden? part data with
        | none => (none, (FontProvider.load provider data).2)
        | some clear => FontProvider.load (FontProvider.load provider data).2 clear := by
  obtain ⟨loaded, hload⟩ : ∃ loaded, FontProvider.load provider data = (none, loaded) :=
    ⟨_, Prod.ext hnone rfl⟩
  rw [loads_load, value_load, hdata]
  dsimp only
  rw [hload]
  exact ⟨rfl, value_loadObfuscated loaded part data⟩

/-- How often the provider is asked for the font of a part, with what data, and what comes of it. -/
structure LoadsOf (provider : σ) (archive : Archive) (part : String) : Prop where
  missing : archive.find? part = none →
    (load provider archive part).loads = [] ∧
      (load provider archive part).value = (none, provider)
  plain {data : ByteArray} {id : FontId} : archive.find? part = some data →
    (FontProvider.load provider data).1 = some id →
      (load provider archive part).loads = [data] ∧
        (load provider archive part).value = FontProvider.load provider data
  /-- The second load decides, in the state that the first one leaves. -/
  hidden {data : ByteArray} : archive.find? part = some data →
    (FontProvider.load provider data).1 = none →
      Guid.Begins (PartName.baseName part).toUTF8 → Guid.obfuscatedLength ≤ data.size →
        ∃ guid clear, Guid.parse? (PartName.baseName part) = some guid ∧
          guid.deobfuscate? data = some clear ∧
          (load provider archive part).loads = [data, clear] ∧
          (load provider archive part).value =
            FontProvider.load (FontProvider.load provider data).2 clear
  neither {data : ByteArray} : archive.find? part = some data →
    (FontProvider.load provider data).1 = none →
      ¬ (Guid.Begins (PartName.baseName part).toUTF8 ∧ Guid.obfuscatedLength ≤ data.size) →
        (load provider archive part).loads = [data] ∧
          (load provider archive part).value = (none, (FontProvider.load provider data).2)
  /-- A cache that does not know the part answers with what is loaded. -/
  resolved (fonts : List (String × Option FontId)) (size : Float32) : fonts.lookup part = none →
    let answer := resolve ⟨provider, fonts⟩ archive part size
    answer.loads = (load provider archive part).loads ∧
      answer.value.1 = (load provider archive part).value.1.map (⟨·, size⟩)

theorem loadsOf (provider : σ) (archive : Archive) (part : String) :
    LoadsOf provider archive part where
  missing hdata := by
    rw [loads_load, value_load, hdata]
    exact ⟨rfl, rfl⟩
  plain {data id} hdata hid := by
    obtain ⟨loaded, hload⟩ : ∃ loaded, FontProvider.load provider data = (some id, loaded) :=
      ⟨_, Prod.ext hid rfl⟩
    rw [loads_load, value_load, hdata]
    dsimp only
    rw [hload]
    exact ⟨rfl, rfl⟩
  hidden {data} hdata hnone hname hsize := by
    obtain ⟨clear, hclear⟩ := Option.isSome_iff_exists.1 (isSome_hidden?.2 ⟨hname, hsize⟩)
    obtain ⟨guid, hguid, hdeobfuscate⟩ := Option.bind_eq_some_iff.1 hclear
    obtain ⟨hloads, hvalue⟩ := load_of_rejected hdata hnone
    rw [hclear] at hloads hvalue
    exact ⟨guid, clear, hguid, hdeobfuscate, hloads, hvalue⟩
  neither {data} hdata hnone h := by
    have hhidden : hidden? part data = none := by
      rw [← Option.not_isSome_iff_eq_none, isSome_hidden?]
      exact h
    obtain ⟨hloads, hvalue⟩ := load_of_rejected hdata hnone
    rw [hhidden] at hloads hvalue
    exact ⟨hloads, hvalue⟩
  resolved fonts size hnew := by
    have hcall : (⟨provider, fonts⟩ : FontCache σ).fonts.lookup
        (⟨archive, part, size⟩ : FontCall).part = none := hnew
    exact ⟨view_answer_of_new hcall fun _ _ => rfl, congrArg Prod.fst (value_answer_of_new hcall)⟩

/-- Data that is covered with the GUID that its part is named by is found behind the cover. -/
theorem hidden?_covered {directory text extension : String} {guid : Guid}
    {clear covered : ByteArray} (htext : Guid.IsText text) (hguid : Guid.parse? text = some guid)
    (hextension : '/' ∉ extension.toList) (hcovered : guid.deobfuscate? clear = some covered) :
    hidden? (directory ++ "/" ++ text ++ "." ++ extension) covered = some clear := by
  have hslash : '/' ∉ text.toList := htext.not_mem 0x2f (by decide) (by decide) (by decide)
  have hpoint : '.' ∉ text.toList := htext.not_mem 0x2e (by decide) (by decide) (by decide)
  unfold hidden?
  rw [PartName.baseName_file hslash hpoint hextension, hguid, Option.bind_some]
  exact Guid.deobfuscate?_deobfuscate? hcovered

/-- **Plain and hidden fonts are told apart.** The provider is asked for a part that is there, with
its data as it is, and once more if that is rejected and the data is hidden. So a font that is
covered with the GUID in the name of its part is found by two loads, the second one of the font
itself. -/
theorem loads_plain_or_hidden (provider : σ) (archive : Archive) (part : String) :
    LoadsOf provider archive part ∧
    ∀ (directory text extension : String) (clear : ByteArray),
      part = directory ++ "/" ++ text ++ "." ++ extension → Guid.IsText text →
      '/' ∉ extension.toList → Guid.obfuscatedLength ≤ clear.size →
        ∃ guid covered, Guid.parse? text = some guid ∧
          guid.deobfuscate? clear = some covered ∧
          ∀ id, archive.find? part = some covered → (FontProvider.load provider covered).1 = none →
            (FontProvider.load (FontProvider.load provider covered).2 clear).1 = some id →
              ∀ (fonts : List (String × Option FontId)) (size : Float32),
                fonts.lookup part = none →
                  let answer := resolve ⟨provider, fonts⟩ archive part size
                  answer.loads = [covered, clear] ∧ answer.value.1 = some ⟨id, size⟩ := by
  refine ⟨loadsOf provider archive part, ?_⟩
  rintro directory text extension clear rfl htext hextension hsize
  obtain ⟨guid, hguid⟩ := htext.exists_parse
  obtain ⟨covered, hcovered⟩ := Option.isSome_iff_exists.1 (Guid.deobfuscate?_isSome_iff.2 hsize)
  refine ⟨guid, covered, hguid, hcovered, ?_⟩
  intro id hdata hnone hid fonts size hnew
  obtain ⟨hloads, hvalue⟩ := load_of_rejected hdata hnone
  rw [hidden?_covered htext hguid hextension hcovered] at hloads hvalue
  obtain ⟨hanswered, hfont⟩ := (loadsOf provider archive _).resolved fonts size hnew
  refine ⟨hanswered.trans hloads, hfont.trans ?_⟩
  rw [hvalue]
  dsimp only
  rw [hid]
  rfl

/-- A provider that takes what begins with a mark for a font, and has one font only. -/
structure MarkedFonts where
  mark : List UInt8

instance : FontProvider MarkedFonts where
  load p data := (if Bytes.startsWith data p.mark then some ⟨0⟩ else none, p)
  familyName _ _ := none
  metrics _ _ := none
  advance _ _ _ := none
  shape _ _ _ := []
  outline _ _ _ := none

/-- A font of 34 bytes, covered with a GUID in letters of both cases. -/
theorem loads_plain_or_hidden_markedFont :
    let text := "0a1B2c3D-4e5F-6071-8293-A4b5C6d7E8f9"
    let part := "Resources" ++ "/" ++ text ++ "." ++ "odttf"
    let clear := "FONT and thirty more bytes of data".toUTF8
    let provider : MarkedFonts := ⟨"FONT".toUTF8.toList⟩
    let covered := ((Guid.parse? text).bind (·.deobfuscate? clear)).getD ByteArray.empty
    let archive : Archive := ⟨fun name => if name = part then some covered else none⟩
    Guid.IsText text ∧ Guid.obfuscatedLength ≤ clear.size ∧
      (FontProvider.load provider covered).1 = none ∧
      (FontProvider.load provider clear).1 = some ⟨0⟩ ∧
      (resolve ⟨provider, []⟩ archive part 12).loads = [covered, clear] ∧
      (resolve ⟨provider, []⟩ archive part 12).value.1 = some ⟨⟨0⟩, 12⟩ := by
  intro text part clear provider covered archive
  have htext : Guid.IsText text := by decide +kernel
  have hsize : Guid.obfuscatedLength ≤ clear.size := by decide +kernel
  have hnone : (FontProvider.load provider covered).1 = none := by decide +kernel
  have hid : (FontProvider.load provider clear).1 = some ⟨0⟩ := by decide +kernel
  obtain ⟨guid, covered', hguid, hcovered, hresolve⟩ :=
    (loads_plain_or_hidden provider archive part).2 "Resources" text "odttf" clear rfl htext
      (by decide) hsize
  have hdata : archive.find? part = some covered := by
    show (if part = part then some covered else none) = some covered
    rw [if_pos rfl]
  have heq : covered = covered' := by
    show ((Guid.parse? text).bind (·.deobfuscate? clear)).getD ByteArray.empty = covered'
    rw [hguid, Option.bind_some, hcovered, Option.getD_some]
  rw [← heq] at hresolve
  exact ⟨htext, hsize, hnone, hid, hresolve ⟨0⟩ hdata hnone hid [] 12 rfl⟩

end FontCache

end Xps
