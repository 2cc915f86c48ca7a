import Xps.Font.Cache
import Xps.Font.Database
import Xps.Proofs.Journal.View

/-!
# Fonts are what their data says

The id of a font tells in which order fonts were loaded and nothing else. With a provider whose
answers are determined by the data of a font (`DataDetermined`), a font that is loaded has the answers
of the embedded font of its name, whatever was loaded before (`FontCache.answers_load`).
-/

namespace Xps

/-- What a provider answers about the measures and glyphs of a font. -/
structure FontAnswers where
  metrics : Option FontMetrics
  advance : Char → Option Float32
  shape : String → List ShapedGlyph
  outline : UInt16 → Option Outline

namespace FontProvider

variable {σ : Type} [FontProvider σ]

def answers (provider : σ) (id : FontId) : FontAnswers :=
  ⟨metrics provider id, advance provider id, shape provider id, outline provider id⟩

/-- The answers for a font, and its size. -/
def sized (provider : σ) (font : Font) : FontAnswers × Float32 :=
  (answers provider font.id, font.size)

/-- The states of a provider that loads lead to. -/
inductive Later (provider : σ) : σ → Prop
  | refl : Later provider provider
  | load {later : σ} (data : ByteArray) :
    Later provider later → Later provider (FontProvider.load later data).2

theorem Later.trans {p q r : σ} (hpq : Later p q) (hqr : Later q r) : Later p r := by
  induction hqr with
  | refl => exact hpq
  | load data _ ih => exact .load data ih

/-- Whether data is a font, and all later answers for that font, are a function of the data. -/
def Determines (answersOf : ByteArray → Option FontAnswers) (provider : σ) : Prop :=
  ∀ (later : σ) (data : ByteArray) (latest : σ), Later provider later →
    Later (load later data).2 latest → (load later data).1.map (answers latest) = answersOf data

def DataDetermined (provider : σ) : Prop := ∃ answersOf, Determines answersOf provider

theorem Determines.later {answersOf : ByteArray → Option FontAnswers} {p q : σ}
    (h : Determines answersOf p) (hpq : Later p q) : Determines answersOf q :=
  fun later data latest hlater hlatest => h later data latest (hpq.trans hlater) hlatest

end FontProvider

open FontProvider

/-! ## Loading a font -/

namespace FontCache

/-- The font that is hidden in data with the GUID of its part. -/
def hidden? (name : String) (data : ByteArray) : Option ByteArray :=
  (Guid.parse? (PartName.baseName name)).bind fun guid => guid.deobfuscate? data

/-- The answers for the font of a name, which is there as it is or hidden. -/
def embedded (answersOf : ByteArray → Option FontAnswers) (archive : Archive) (name : String) :
    Option FontAnswers :=
  (archive.find? name).bind fun data =>
    (answersOf data).or ((hidden? name data).bind answersOf)

variable {σ : Type} [FontProvider σ]

theorem value_loadObfuscated (provider : σ) (name : String) (data : ByteArray) :
    (loadObfuscated provider name data).value =
      match hidden? name data with
      | none => (none, provider)
      | some plain => FontProvider.load provider plain := by
  unfold loadObfuscated hidden?
  cases Guid.parse? (PartName.baseName name) with
  | none => rfl
  | some guid =>
    rw [Option.bind_some]
    dsimp only
    cases guid.deobfuscate? data with
    | none => rfl
    | some plain =>
      have hprovide : (provide provider plain).value = FontProvider.load provider plain := rfl
      simp only [Journaled.value_bind, Journaled.value_pure, Journaled.value_noteNone, hprovide]

theorem value_load (provider : σ) (archive : Archive) (name : String) :
    (load provider archive name).value =
      match archive.find? name with
      | none => (none, provider)
      | some data =>
        match FontProvider.load provider data with
        | (some id, loaded) => (some id, loaded)
        | (none, loaded) => (loadObfuscated loaded name data).value := by
  have hread : (archive.read name).value = archive.get name := rfl
  unfold load
  rw [Journaled.value_bind, hread, Archive.get]
  cases archive.find? name with
  | none => rfl
  | some data =>
    have hprovide : (provide provider data).value = FontProvider.load provider data := rfl
    dsimp only
    rw [Journaled.value_bind, hprovide]
    rcases FontProvider.load provider data with ⟨_ | id, loaded⟩ <;> rfl

variable {answersOf : ByteArray → Option FontAnswers} {archive : Archive}

theorem later_loadObfuscated (provider : σ) (name : String) (data : ByteArray) :
    Later provider (loadObfuscated provider name data).value.2 := by
  rw [value_loadObfuscated]
  cases hidden? name data with
  | none => exact .refl
  | some plain => exact .load plain .refl

theorem later_load (provider : σ) (archive : Archive) (name : String) :
    Later provider (load provider archive name).value.2 := by
  rw [value_load]
  cases archive.find? name with
  | none => exact .refl
  | some data =>
    have hlater : Later provider (FontProvider.load provider data).2 := .load data .refl
    dsimp only
    rcases hload : FontProvider.load provider data with ⟨_ | id, loaded⟩ <;> rw [hload] at hlater
    · exact hlater.trans (later_loadObfuscated loaded name data)
    · exact hlater

theorem answers_loadObfuscated {provider : σ} (h : Determines answersOf provider) (name : String)
    (data : ByteArray) {latest : σ}
    (hlatest : Later (loadObfuscated provider name data).value.2 latest) :
    (loadObfuscated provider name data).value.1.map (answers latest) =
      (hidden? name data).bind answersOf := by
  rw [value_loadObfuscated] at hlatest ⊢
  cases hhidden : hidden? name data with
  | none => rfl
  | some plain =>
    rw [hhidden] at hlatest
    exact h provider plain latest .refl hlatest

/-- Loading finds the embedded font. A first load that fails leaves a trace in the provider, but none
that matters. -/
theorem answers_load {provider : σ} (h : Determines answersOf provider) (name : String) {latest : σ}
    (hlatest : Later (load provider archive name).value.2 latest) :
    (load provider archive name).value.1.map (answers latest) = embedded answersOf archive name := by
  rw [value_load] at hlatest ⊢
  unfold embedded
  cases hdata : archive.find? name with
  | none => rfl
  | some data =>
    rw [hdata] at hlatest
    have hlater : Later provider (FontProvider.load provider data).2 := .load data .refl
    have hplain := fun latest => h provider data latest .refl
    rw [Option.bind_some]
    rcases hload : FontProvider.load provider data with ⟨_ | id, loaded⟩ <;>
      simp only [hload] at hlatest hlater hplain ⊢
    · have hnone : answersOf data = none := (hplain loaded .refl).symm
      rw [hnone, Option.none_or]
      exact answers_loadObfuscated (h.later hlater) name data hlatest
    · rw [← hplain latest hlatest]
      rfl

/-! ## Caches -/

/-- All that a cache remembers is true of the archive, and stays so. -/
structure Knows (answersOf : ByteArray → Option FontAnswers) (archive : Archive)
    (c : FontCache σ) : Prop where
  determined : Determines answersOf c.provider
  remembered : ∀ name id, c.fonts.lookup name = some id → ∀ latest, Later c.provider latest →
    id.map (answers latest) = embedded answersOf archive name

theorem knows_empty {provider : σ} (h : Determines answersOf provider) :
    Knows answersOf archive (⟨provider, []⟩ : FontCache σ) :=
  ⟨h, fun _ _ h => nomatch h⟩

theorem value_resolve (c : FontCache σ) (archive : Archive) (name : String) (size : Float32) :
    (c.resolve archive name size).value =
      match c.fonts.lookup name with
      | some id => (id.map (⟨·, size⟩), c)
      | none =>
        let loaded := (load c.provider archive name).value
        (loaded.1.map (⟨·, size⟩), ⟨loaded.2, c.fonts ++ [(name, loaded.1)]⟩) := by
  unfold resolve
  rw [Journaled.value_bind]
  cases c.fonts.lookup name <;> rfl

end FontCache

/-! ## Font databases -/

namespace FontDatabase

/-- What is answered for a face, or for none. -/
def answersFor (face : Option Face) : FontAnswers where
  metrics := face.map Face.metrics
  advance c := do
    let face ← face
    return Single.ofNat (← face.advance? (face.glyph c))
  shape text := (face.map (·.shape 0 text.toList)).getD []
  outline glyph := do GlyphOutline.ofFace? (← face) glyph.toNat

/-- A file counts as its first usable face. -/
def answersOf (file : ByteArray) : Option FontAnswers :=
  (usableFaces file).head?.map fun first => answersFor (Face.ofFile? first.file first.index)

theorem loaded?_eq_some {d : FontDatabase} {id : FontId} {face : LoadedFace} :
    d.loaded? id = some face ↔ ∃ i, d.issued[id.index]? = some i ∧ d.faces[i]? = some face := by
  simp [loaded?, Option.bind_eq_some_iff]

theorem getElem?_of_push {α : Type} {xs : Array α} {i : Nat} {x : α} (y : α)
    (h : xs[i]? = some x) : (xs.push y)[i]? = some x := by
  have hi : i < xs.size := (Array.getElem?_eq_some_iff.1 h).1
  rw [Array.getElem?_push_lt hi, ← h, Array.getElem?_eq_getElem hi]

/-- What an id stands for does not change. -/
theorem loaded?_load {d : FontDatabase} {id : FontId} {face : LoadedFace}
    (h : d.loaded? id = some face) (file : ByteArray) : (d.load file).2.loaded? id = some face := by
  obtain ⟨i, hid, hface⟩ := loaded?_eq_some.1 h
  have hi : i < d.faces.size := (Array.getElem?_eq_some_iff.1 hface).1
  unfold load
  split
  · exact h
  · refine loaded?_eq_some.2 ⟨i, getElem?_of_push _ hid, ?_⟩
    rw [Array.getElem?_append_left hi, hface]

theorem loaded?_later {d e : FontDatabase} (h : Later d e) {id : FontId} {face : LoadedFace}
    (hid : d.loaded? id = some face) : e.loaded? id = some face := by
  induction h with
  | refl => exact hid
  | load data _ ih => exact loaded?_load ih data

theorem loaded?_new {d : FontDatabase} {file : ByteArray} {first : LoadedFace}
    {others : List LoadedFace} (h : usableFaces file = first :: others) :
    (d.load file).1 = some ⟨d.issued.size⟩ ∧
      (d.load file).2.loaded? ⟨d.issued.size⟩ = some first := by
  unfold load
  rw [h]
  refine ⟨rfl, loaded?_eq_some.2 ⟨d.faces.size, Array.getElem?_push_size, ?_⟩⟩
  rw [Array.getElem?_append_right (Nat.le_refl _), Nat.sub_self]
  rfl

/-- A database answers for a font by its data alone. -/
theorem determines (d : FontDatabase) : Determines answersOf d := by
  intro later file latest _ hlatest
  have hload : (FontProvider.load later file) = later.load file := rfl
  rw [hload] at hlatest ⊢
  unfold answersOf
  cases hfaces : usableFaces file with
  | nil =>
    unfold load
    rw [hfaces]
    rfl
  | cons first others =>
    obtain ⟨hid, hfirst⟩ := loaded?_new (d := later) hfaces
    have hface : latest.face? ⟨later.issued.size⟩ = Face.ofFile? first.file first.index := by
      unfold face?
      rw [loaded?_later hlatest hfirst]
      rfl
    rw [hid, List.head?_cons, Option.map_some, Option.map_some, ← hface]
    rfl

end FontDatabase

end Xps
