import Xps.Proofs.Font.Embedded

/-!
# Stores of faces

A store takes the faces of font files and lists each one under a key. A font database need not know
how it chooses the keys: the face of a file that was loaded last is found as one whose key was not
listed before (`FontIndex`). If keys are never given twice and faces never change
(`FaceStore.Lawful`), this key is that of a face of the file.

Nor need it know how files are read and texts shaped (`FaceReader`). So nothing that is said of all
readers depends on what the shaping of `FontDatabase` leaves out (`Face.shape`).

The table of faces that `FontDatabase` keeps is such a store (`lawful_faceTable`), and the database
is the index of its table with its own reader (`FontDatabase.load_index`).
-/

namespace Xps

/-- A face as a store keeps it: its place in a file, and the families that it is listed by. -/
structure StoredFace where
  file : ByteArray
  index : Nat
  families : List String

/-- How the faces of font files are read. -/
structure FaceReader where
  /-- A bound on the places of the faces of a file. -/
  faceCount : ByteArray → Nat
  /-- The first face of a file is complete. -/
  accepts : ByteArray → Bool
  families : ByteArray → Nat → List String
  /-- The measures and glyphs of a face. -/
  answers : ByteArray → Nat → FontAnswers

/-- No measures and no glyphs. -/
def FontAnswers.nothing : FontAnswers where
  metrics := none
  advance _ := none
  shape _ := []
  outline _ := none

class FaceStore (σ : Type) (κ : outParam Type) where
  /-- The keys of all faces. -/
  keys : σ → List κ
  face? : σ → κ → Option StoredFace
  /-- Takes the faces of a file. -/
  load : σ → ByteArray → σ

/-- A load adds faces of its file, whose families are read from there. It neither takes nor changes
the faces that there are, so that it gives none of their keys again. -/
structure FaceStore.Lawful (σ : Type) {κ : Type} [FaceStore σ κ] (reader : FaceReader) :
    Prop where
  mem_keys_load {s : σ} {key : κ} (h : key ∈ keys s) (file : ByteArray) : key ∈ keys (load s file)
  face?_load {s : σ} {key : κ} (h : key ∈ keys s) (file : ByteArray) :
    face? (load s file) key = face? s key
  face?_new {s : σ} {key : κ} {file : ByteArray} (hold : key ∉ keys s)
    (hnew : key ∈ keys (load s file)) :
    ∃ index < reader.faceCount file,
      face? (load s file) key = some ⟨file, index, reader.families file index⟩

/-! ## Indices -/

/-- A font database over some store of faces, with some reader of font files. -/
structure FontIndex (reader : FaceReader) (σ κ : Type) where
  store : σ
  /-- The key of each id. -/
  issued : Array κ := #[]

namespace FontIndex

variable {reader : FaceReader} {σ κ : Type} [FaceStore σ κ] [DecidableEq κ]

/-- Adds a file whose first face is complete. The next id stands for the first key that is new. -/
def load (d : FontIndex reader σ κ) (file : ByteArray) :
    Option FontId × FontIndex reader σ κ :=
  if reader.accepts file then
    let store := FaceStore.load d.store file
    match (FaceStore.keys store).find? (!(FaceStore.keys d.store).contains ·) with
    | some key => (some ⟨d.issued.size⟩, { store, issued := d.issued.push key })
    | none => (none, { d with store })
  else (none, d)

omit [DecidableEq κ] in
def stored? (d : FontIndex reader σ κ) (id : FontId) : Option StoredFace := do
  FaceStore.face? d.store (← d.issued[id.index]?)

omit [DecidableEq κ] in
/-- The answers for the face of an id, which is read from its file again. -/
def answersAt (d : FontIndex reader σ κ) (id : FontId) : FontAnswers :=
  match d.stored? id with
  | some stored => reader.answers stored.file stored.index
  | none => .nothing

instance : FontProvider (FontIndex reader σ κ) where
  load := load
  familyName d id := do (← d.stored? id).families.head?
  metrics d id := (d.answersAt id).metrics
  advance d id := (d.answersAt id).advance
  shape d id := (d.answersAt id).shape
  outline d id := (d.answersAt id).outline

end FontIndex

/-! ## Tables -/

/-- The families of a face that has the names it needs. -/
def FontNames.families (file : ByteArray) (index : Nat) : List String :=
  ((FontTables.ofFile? file index).bind ofTables?).toList

namespace FontDatabase

/-- How the database reads the faces of a file. -/
def reader : FaceReader where
  faceCount := FontTables.faceCount
  accepts file := (Face.ofFile? file 0).isSome
  families := FontNames.families
  answers file index := answersFor (Face.ofFile? file index)

/-- The faces of a file that have the names they need. -/
def namedFaces (file : ByteArray) : List LoadedFace :=
  (List.range (FontTables.faceCount file)).filterMap (usableFace? file)

theorem usableFaces_eq (file : ByteArray) :
    usableFaces file = if (Face.ofFile? file 0).isSome then namedFaces file else [] := rfl

/-- A named face has its place and its family from the file. -/
theorem exists_of_mem_namedFaces {file : ByteArray} {face : LoadedFace}
    (h : face ∈ namedFaces file) :
    ∃ index < reader.faceCount file,
      face = ⟨file, index, face.family⟩ ∧ reader.families file index = [face.family] := by
  obtain ⟨index, hindex, hface⟩ := List.mem_filterMap.1 h
  refine ⟨index, List.mem_range.1 hindex, ?_⟩
  unfold usableFace? at hface
  obtain ⟨tables, htables, hface⟩ := Option.bind_eq_some_iff.1 hface
  obtain ⟨family, hfamily, hface⟩ := Option.bind_eq_some_iff.1 hface
  cases hface
  refine ⟨rfl, ?_⟩
  show FontNames.families file index = _
  unfold FontNames.families
  rw [htables, Option.bind_some, hfamily]
  rfl

end FontDatabase

/-- Faces in the order of loading, each with its place as its key. -/
abbrev FaceTable := Array LoadedFace

instance : FaceStore FaceTable Nat where
  keys t := List.range t.size
  face? t key := t[key]?.map fun face => ⟨face.file, face.index, [face.family]⟩
  load t file := t ++ (FontDatabase.namedFaces file).toArray

theorem mem_keys_faceTable {t : FaceTable} {key : Nat} :
    key ∈ FaceStore.keys t ↔ key < t.size := List.mem_range

theorem lawful_faceTable : FaceStore.Lawful FaceTable FontDatabase.reader where
  mem_keys_load {t key} h file := by
    simp only [mem_keys_faceTable, FaceStore.load, Array.size_append] at h ⊢
    omega
  face?_load {t key} h file := by
    rw [mem_keys_faceTable] at h
    simp only [FaceStore.face?, FaceStore.load]
    rw [Array.getElem?_append_left h]
  face?_new {t key file} hold hnew := by
    have hle : t.size ≤ key := Nat.le_of_not_lt fun hlt => hold (mem_keys_faceTable.2 hlt)
    have hlt := mem_keys_faceTable.1 hnew
    simp only [FaceStore.load, Array.size_append, List.size_toArray] at hlt
    have hkey : key - t.size < (FontDatabase.namedFaces file).length := by omega
    obtain ⟨index, hindex, hface, hfamily⟩ :=
      FontDatabase.exists_of_mem_namedFaces (List.getElem_mem hkey)
    refine ⟨index, hindex, ?_⟩
    simp only [FaceStore.face?, FaceStore.load]
    rw [Array.getElem?_append_right hle, List.getElem?_toArray, List.getElem?_eq_getElem hkey,
      hfamily, hface]
    rfl

/-- The first key that a table gives a file is the next place. -/
theorem find?_new_faceTable (t : FaceTable) (file : ByteArray) :
    (FaceStore.keys (FaceStore.load t file)).find? (!(FaceStore.keys t).contains ·) =
      if FontDatabase.namedFaces file = [] then none else some t.size := by
  have hold : (List.range t.size).find? (!(FaceStore.keys t).contains ·) = none := by
    simp [mem_keys_faceTable]
  have hkeys : FaceStore.keys (FaceStore.load t file) =
      List.range (t.size + (FontDatabase.namedFaces file).length) := by
    simp only [FaceStore.keys, FaceStore.load, Array.size_append, List.size_toArray]
  rw [hkeys, List.range_add, List.find?_append, hold, Option.none_or]
  cases FontDatabase.namedFaces file with
  | nil => rfl
  | cons first others => simp [List.range_succ_eq_map, mem_keys_faceTable]

/-! ## The database -/

namespace FontDatabase

/-- A database as the index of its table. -/
def index (d : FontDatabase) : FontIndex reader FaceTable Nat := ⟨d.faces, d.issued⟩

theorem load_index (d : FontDatabase) (file : ByteArray) :
    d.index.load file = ((d.load file).1, (d.load file).2.index) := by
  obtain ⟨faces, issued⟩ := d
  simp only [index, FontIndex.load, reader, load, usableFaces_eq, find?_new_faceTable]
  split
  · cases hnamed : namedFaces file with
    | nil => simp [FaceStore.load, hnamed]
    | cons first others => simp [FaceStore.load, hnamed]
  · rfl

theorem stored?_index (d : FontDatabase) (id : FontId) :
    d.index.stored? id =
      (d.loaded? id).map fun face => ⟨face.file, face.index, [face.family]⟩ := by
  show d.issued[id.index]?.bind _ = (d.issued[id.index]?.bind _).map _
  cases d.issued[id.index]? <;> rfl

theorem familyName_index (d : FontDatabase) (id : FontId) :
    FontProvider.familyName d.index id = FontProvider.familyName d id := by
  show (d.index.stored? id).bind _ = (d.loaded? id).map _
  rw [stored?_index]
  cases d.loaded? id <;> rfl

theorem answers_index (d : FontDatabase) (id : FontId) :
    FontProvider.answers d.index id = FontProvider.answers d id := by
  show d.index.answersAt id = answersFor ((d.loaded? id).bind _)
  unfold FontIndex.answersAt
  rw [stored?_index]
  cases d.loaded? id <;> rfl

end FontDatabase

end Xps
