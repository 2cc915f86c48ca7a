import Xps.Proofs.Font.FaceStore

/-!
# Ids denote the data that they were issued for

Over any lawful store of faces, and however files are read, a font database numbers its fonts in the
order of loading, and an id has for ever the answers of a face of the file that it was issued for. A
load fails exactly if the first face of the file is broken or the store takes no face of it. Then it
changes no answer, and an id that was not issued has none (`ids_denote_files`).

A store keeps faces that have no id: a file may have several, and only one of them is issued. So the
faces of a database do not tell its answers. They are followed through what stands behind the ids
(`FontIndex.Extends`), which is all that answers depend on.
-/

namespace Xps

/-! ## Loads in a row -/

namespace FontProvider

variable {σ : Type} [FontProvider σ]

def loadAll (provider : σ) (files : List ByteArray) : σ :=
  files.foldl (fun provider file => (load provider file).2) provider

/-- The ids that files are given, in order. A file that is refused has none. -/
def issuedIds (provider : σ) : List ByteArray → List FontId
  | [] => []
  | file :: files => (load provider file).1.toList ++ issuedIds (load provider file).2 files

theorem loadAll_nil (provider : σ) : loadAll provider [] = provider := rfl

theorem loadAll_cons (provider : σ) (file : ByteArray) (files : List ByteArray) :
    loadAll provider (file :: files) = loadAll (load provider file).2 files := rfl

theorem loadAll_append (provider : σ) (before after : List ByteArray) :
    loadAll provider (before ++ after) = loadAll (loadAll provider before) after :=
  List.foldl_append

theorem issuedIds_cons (provider : σ) (file : ByteArray) (files : List ByteArray) :
    issuedIds provider (file :: files) =
      (load provider file).1.toList ++ issuedIds (load provider file).2 files := rfl

/-- The family of a font, and the answers for it. -/
def named (provider : σ) (id : FontId) : Option String × FontAnswers :=
  (familyName provider id, answers provider id)

/-- What is answered for a face of a file. -/
def faceAnswers (reader : FaceReader) (file : ByteArray) (index : Nat) :
    Option String × FontAnswers :=
  ((reader.families file index).head?, reader.answers file index)

def noAnswers : Option String × FontAnswers := (none, .nothing)

/-- Whatever files are loaded, ids are the numbers from zero on, and each one denotes its file. -/
structure IdsDenote (reader : FaceReader) (first : σ) : Prop where
  numbered (files : List ByteArray) :
    issuedIds first files = (List.range (issuedIds first files).length).map FontId.mk
  /-- An id keeps the answers of one face of its file. -/
  denotes {before : List ByteArray} {file : ByteArray} {id : FontId}
    (h : (load (loadAll first before) file).1 = some id) :
    ∃ index < reader.faceCount file, ∀ after,
      named (loadAll first (before ++ file :: after)) id = faceAnswers reader file index
  failed {before : List ByteArray} {file : ByteArray}
    (h : (load (loadAll first before) file).1 = none) (id : FontId) :
    named (loadAll first (before ++ [file])) id = named (loadAll first before) id
  silent {files : List ByteArray} {id : FontId} (h : id ∉ issuedIds first files) :
    named (loadAll first files) id = noAnswers

/-! A provider that stands for another one has the ids of the other. -/

section

variable {τ : Type} [FontProvider τ] {view : σ → τ}
  (hload : ∀ provider file,
    load (view provider) file = ((load provider file).1, view (load provider file).2))
include hload

theorem loadAll_view (provider : σ) (files : List ByteArray) :
    loadAll (view provider) files = view (loadAll provider files) := by
  induction files generalizing provider with
  | nil => rfl
  | cons file files ih => rw [loadAll_cons, loadAll_cons, hload, ih]

theorem issuedIds_view (provider : σ) (files : List ByteArray) :
    issuedIds (view provider) files = issuedIds provider files := by
  induction files generalizing provider with
  | nil => rfl
  | cons file files ih => rw [issuedIds_cons, issuedIds_cons, hload, ih]

theorem IdsDenote.of_view {reader : FaceReader} {first : σ}
    (hnamed : ∀ provider id, named (view provider) id = named provider id)
    (h : IdsDenote reader (view first)) : IdsDenote reader first where
  numbered files := by
    have hids := h.numbered files
    rwa [issuedIds_view hload] at hids
  denotes {before file id} hid := by
    have hview : (load (loadAll (view first) before) file).1 = some id := by
      rw [loadAll_view hload, hload, hid]
    obtain ⟨index, hindex, hall⟩ := h.denotes hview
    refine ⟨index, hindex, fun after => ?_⟩
    rw [← hall after, loadAll_view hload, hnamed]
  failed {before file} hnone id := by
    have hview : (load (loadAll (view first) before) file).1 = none := by
      rw [loadAll_view hload, hload, hnone]
    have hsame := h.failed hview id
    rwa [loadAll_view hload, loadAll_view hload, hnamed, hnamed] at hsame
  silent {files id} hid := by
    rw [← issuedIds_view hload] at hid
    have hnone := h.silent hid
    rwa [loadAll_view hload, hnamed] at hnone

end

end FontProvider

open FontProvider

/-! ## Indices of lawful stores -/

namespace FontIndex

variable {reader : FaceReader} {σ κ : Type} [FaceStore σ κ] {d e : FontIndex reader σ κ}

theorem stored?_eq_none {id : FontId} (h : d.issued.size ≤ id.index) : d.stored? id = none := by
  show d.issued[id.index]?.bind _ = none
  rw [Array.getElem?_eq_none h]
  rfl

theorem stored?_eq_face? {id : FontId} (h : id.index < d.issued.size) :
    d.stored? id = FaceStore.face? d.store d.issued[id.index] := by
  show d.issued[id.index]?.bind _ = _
  rw [Array.getElem?_eq_getElem h]
  rfl

/-- The store lists all keys that stand behind ids. -/
def Sound (d : FontIndex reader σ κ) : Prop := ∀ key ∈ d.issued, key ∈ FaceStore.keys d.store

/-- A later index has the ids of an index, with the same faces behind them. -/
structure Extends (d e : FontIndex reader σ κ) : Prop where
  sound : e.Sound
  size_le : d.issued.size ≤ e.issued.size
  stored?_eq {id : FontId} (h : id.index < d.issued.size) : e.stored? id = d.stored? id

theorem Extends.refl (h : d.Sound) : Extends d d := ⟨h, Nat.le_refl _, fun _ => rfl⟩

theorem Extends.trans {f : FontIndex reader σ κ} (hde : Extends d e) (hef : Extends e f) :
    Extends d f where
  sound := hef.sound
  size_le := Nat.le_trans hde.size_le hef.size_le
  stored?_eq h :=
    (hef.stored?_eq (Nat.lt_of_lt_of_le h hde.size_le)).trans (hde.stored?_eq h)

/-- One more id, which stands for a key of the store. -/
theorem extends_push (hd : d.Sound) {key : κ} (hkey : key ∈ FaceStore.keys d.store) :
    Extends d { d with issued := d.issued.push key } where
  sound := by
    intro other hother
    rcases Array.mem_push.1 hother with hold | rfl
    · exact hd other hold
    · exact hkey
  size_le := by simp
  stored?_eq {id} h := by
    have hlt : id.index < (d.issued.push key).size := by
      rw [Array.size_push]
      omega
    rw [stored?_eq_face? h, stored?_eq_face? hlt]
    dsimp only
    rw [Array.getElem_push_lt h]

variable (hstore : FaceStore.Lawful σ reader)
include hstore

theorem extends_store (hd : d.Sound) (file : ByteArray) :
    Extends d { d with store := FaceStore.load d.store file } where
  sound key hkey := hstore.mem_keys_load (hd key hkey) file
  size_le := Nat.le_refl _
  stored?_eq {id} h := by
    rw [stored?_eq_face? h, stored?_eq_face? (d := ⟨FaceStore.load d.store file, d.issued⟩) h]
    exact hstore.face?_load (hd _ (Array.getElem_mem h)) file

omit hstore

variable [DecidableEq κ]

/-- The first face of a file is complete, and the store takes a face of the file. -/
def Accepts (d : FontIndex reader σ κ) (file : ByteArray) : Prop :=
  reader.accepts file ∧
    ∃ key ∈ FaceStore.keys (FaceStore.load d.store file), key ∉ FaceStore.keys d.store

/-- A load leaves an index alone, fills its store, or issues a key that is new there. -/
theorem load_cases (d : FontIndex reader σ κ) (file : ByteArray) :
    (¬ d.Accepts file ∧ (d.load file = (none, d) ∨
      d.load file = (none, { d with store := FaceStore.load d.store file }))) ∨
    (d.Accepts file ∧
      ∃ key ∈ FaceStore.keys (FaceStore.load d.store file), key ∉ FaceStore.keys d.store ∧
        d.load file =
          (some ⟨d.issued.size⟩, ⟨FaceStore.load d.store file, d.issued.push key⟩)) := by
  unfold load Accepts
  split
  · rename_i hface
    dsimp only
    split
    · rename_i key hfind
      have hkey := List.mem_of_find?_eq_some hfind
      have hnew : key ∉ FaceStore.keys d.store := by simpa using List.find?_some hfind
      exact .inr ⟨⟨hface, key, hkey, hnew⟩, key, hkey, hnew, rfl⟩
    · rename_i hfind
      have hold := List.find?_eq_none.1 hfind
      refine .inl ⟨fun ⟨_, key, hkey, hnew⟩ => hold key hkey ?_, .inr rfl⟩
      simpa using hnew
  · rename_i hface
    exact .inl ⟨fun h => hface h.1, .inl rfl⟩

theorem isSome_load_iff (d : FontIndex reader σ κ) (file : ByteArray) :
    (d.load file).1.isSome ↔ d.Accepts file := by
  rcases d.load_cases file with ⟨hrefused, h | h⟩ | ⟨haccepted, _, -, -, h⟩ <;> rw [h]
  · exact ⟨nofun, fun haccepted => absurd haccepted hrefused⟩
  · exact ⟨nofun, fun haccepted => absurd haccepted hrefused⟩
  · exact ⟨fun _ => haccepted, fun _ => rfl⟩

include hstore

theorem extends_load (hd : d.Sound) (file : ByteArray) : Extends d (d.load file).2 := by
  have hfilled := extends_store hstore hd file
  rcases d.load_cases file with ⟨-, h | h⟩ | ⟨-, key, hkey, -, h⟩ <;> rw [h]
  · exact .refl hd
  · exact hfilled
  · exact hfilled.trans (extends_push hfilled.sound hkey)

theorem extends_loadAll (hd : d.Sound) (files : List ByteArray) : Extends d (loadAll d files) := by
  induction files generalizing d with
  | nil => exact .refl hd
  | cons file files ih =>
    have hload := extends_load hstore hd file
    exact hload.trans (ih hload.sound)

/-- Behind a new id there is a face of its file. -/
theorem stored?_load {file : ByteArray} {id : FontId} (h : (d.load file).1 = some id) :
    id.index < (d.load file).2.issued.size ∧
      ∃ index < reader.faceCount file,
        (d.load file).2.stored? id = some ⟨file, index, reader.families file index⟩ := by
  rcases d.load_cases file with ⟨-, hload | hload⟩ | ⟨-, key, hkey, hnew, hload⟩ <;>
    rw [hload] at h ⊢
  · cases h
  · cases h
  · cases h
    have hlt : d.issued.size < (d.issued.push key).size := by simp
    obtain ⟨index, hindex, hface⟩ := hstore.face?_new hnew hkey
    refine ⟨hlt, index, hindex, ?_⟩
    rw [stored?_eq_face? hlt]
    dsimp only
    rw [Array.getElem_push_eq, hface]

/-- A load that fails may fill the store, but there is no id for what it adds. -/
theorem stored?_load_none (hd : d.Sound) {file : ByteArray} (h : (d.load file).1 = none)
    (id : FontId) : (d.load file).2.stored? id = d.stored? id := by
  rcases Nat.lt_or_ge id.index d.issued.size with hlt | hge
  · exact (extends_load hstore hd file).stored?_eq hlt
  · have hsize : (d.load file).2.issued = d.issued := by
      rcases d.load_cases file with ⟨-, hload | hload⟩ | ⟨-, _, -, -, hload⟩ <;>
        rw [hload] at h ⊢
      cases h
    rw [stored?_eq_none hge, stored?_eq_none (hsize ▸ hge)]

omit hstore

/-! ## Answers -/

/-- Answers depend on what stands behind an id, and on nothing else. -/
theorem named_eq (d : FontIndex reader σ κ) (id : FontId) :
    named d id = match d.stored? id with
      | some stored => (stored.families.head?, reader.answers stored.file stored.index)
      | none => noAnswers := by
  have hnamed : named d id =
      ((d.stored? id).bind fun stored => stored.families.head?, d.answersAt id) := rfl
  rw [hnamed, answersAt]
  cases d.stored? id <;> rfl

theorem named_congr {id : FontId} (h : e.stored? id = d.stored? id) : named e id = named d id := by
  rw [named_eq, named_eq, h]

theorem named_of_stored {id : FontId} {file : ByteArray} {index : Nat}
    (h : d.stored? id = some ⟨file, index, reader.families file index⟩) :
    named d id = faceAnswers reader file index := by
  rw [named_eq, h]
  rfl

theorem named_of_not_stored {id : FontId} (h : d.stored? id = none) : named d id = noAnswers := by
  rw [named_eq, h]

/-! ## Numbers -/

/-- Files are given the next numbers, which are then the number of ids. -/
theorem issuedIds_eq (d : FontIndex reader σ κ) (files : List ByteArray) :
    (loadAll d files).issued.size = d.issued.size + (issuedIds d files).length ∧
      issuedIds d files =
        (List.range' d.issued.size (issuedIds d files).length).map FontId.mk := by
  induction files generalizing d with
  | nil => exact ⟨rfl, rfl⟩
  | cons file files ih =>
    obtain ⟨hsize, hids⟩ := ih (d.load file).2
    have hload : FontProvider.load d file = d.load file := rfl
    rw [loadAll_cons, issuedIds_cons, hload]
    rcases d.load_cases file with ⟨-, h | h⟩ | ⟨-, key, -, -, h⟩ <;> rw [h] at hsize hids ⊢
    · exact ⟨hsize, hids⟩
    · exact ⟨hsize, hids⟩
    · simp only [Option.toList_some, List.singleton_append, List.length_cons, Array.size_push,
        List.range'_succ, List.map_cons] at hsize hids ⊢
      exact ⟨by omega, congrArg _ hids⟩

theorem idsDenote_new (hstore : FaceStore.Lawful σ reader) (store : σ) :
    IdsDenote reader (⟨store, #[]⟩ : FontIndex reader σ κ) := by
  have hsound : (⟨store, #[]⟩ : FontIndex reader σ κ).Sound := fun key hkey => by simp at hkey
  have hextends := extends_loadAll hstore hsound
  constructor
  case numbered =>
    intro files
    rw [List.range_eq_range']
    exact (issuedIds_eq _ files).2
  case denotes =>
    intro before file id hid
    obtain ⟨hlt, index, hindex, hface⟩ := stored?_load hstore hid
    refine ⟨index, hindex, fun after => named_of_stored ?_⟩
    have hnext := extends_load hstore (hextends before).sound file
    have hlast := (extends_loadAll hstore hnext.sound after).stored?_eq hlt
    rw [loadAll_append, loadAll_cons]
    exact hlast.trans hface
  case failed =>
    intro before file hnone id
    rw [loadAll_append]
    exact named_congr (stored?_load_none hstore (hextends before).sound hnone id)
  case silent =>
    intro files id hid
    obtain ⟨hsize, hids⟩ := issuedIds_eq (⟨store, #[]⟩ : FontIndex reader σ κ) files
    refine named_of_not_stored (stored?_eq_none (Nat.le_of_not_lt fun hlt => hid ?_))
    rw [hsize] at hlt
    rw [hids]
    exact List.mem_map.2 ⟨id.index, by simpa using hlt, rfl⟩

end FontIndex

/-! ## The database -/

namespace FontDatabase

theorem named_index (d : FontDatabase) (id : FontId) : named d.index id = named d id := by
  unfold named
  rw [familyName_index, answers_index]

theorem idsDenote : IdsDenote reader ({} : FontDatabase) :=
  .of_view load_index named_index (FontIndex.idsDenote_new lawful_faceTable #[])

/-- Whether a file is accepted does not depend on what was loaded before it. -/
theorem isSome_load_iff (d : FontDatabase) (file : ByteArray) :
    (d.load file).1.isSome ↔ (Face.ofFile? file 0).isSome ∧ namedFaces file ≠ [] := by
  unfold load
  rw [usableFaces_eq]
  by_cases hface : (Face.ofFile? file 0).isSome
  · rw [if_pos hface]
    cases namedFaces file <;> simp [hface]
  · rw [if_neg hface]
    simp [hface]

end FontDatabase

/-- **Ids denote the files that they were issued for.** So it is over any lawful store and however
files are read, and for the database with its table. -/
theorem ids_denote_files :
    (∀ (σ κ : Type) [FaceStore σ κ] [DecidableEq κ] (reader : FaceReader),
      FaceStore.Lawful σ reader →
        (∀ (d : FontIndex reader σ κ) (file : ByteArray), (load d file).1.isSome ↔ d.Accepts file) ∧
        ∀ store : σ, IdsDenote reader (⟨store, #[]⟩ : FontIndex reader σ κ)) ∧
    (∀ (d : FontDatabase) (file : ByteArray),
      (load d file).1.isSome ↔
        (Face.ofFile? file 0).isSome ∧ FontDatabase.namedFaces file ≠ []) ∧
    IdsDenote FontDatabase.reader ({} : FontDatabase) := by
  refine ⟨fun σ κ _ _ reader hstore => ⟨?_, ?_⟩, FontDatabase.isSome_load_iff,
    FontDatabase.idsDenote⟩
  · exact FontIndex.isSome_load_iff
  · exact FontIndex.idsDenote_new hstore

/-- A collection of two faces with one directory for both, whose family is A. -/
def twoFaces : ByteArray :=
  let words :=
    [ -- Both faces begin at byte 20.
      0x74746366, 0x00010000, 2, 20, 20,
      0x00010000, 0x00040000, 0, 0x68656164, 0, 96, 56, 0x68686561, 0, 152, 36,
      0x6d617870, 0, 188, 8, 0x6e616d65, 0, 196, 32,
      -- The tables head, hhea, maxp and name.
      0, 0, 0, 0, 1000, 0, 0, 0, 0, 0, 0, 0, 0, 0,
      0x00010000, 0x0320ff38, 0, 0, 0, 0, 0, 0, 1,
      0x00005000, 0x00010000,
      0x00000002, 0x001e0003, 0x00010409, 0x00010002, 0x00000003, 0x00010409, 0x00060002, 0x41 ]
  ⟨(words.flatMap fun word => (Bytes.ofWord32 word).data.toList).toArray⟩

def emptyTable : FontIndex FontDatabase.reader FaceTable Nat := ⟨#[], #[]⟩

/-- The second face of the collection is in the table, but it has no id. -/
theorem ids_denote_files_twoFaces :
    FaceStore.Lawful FaceTable FontDatabase.reader ∧
      FontTables.faceCount twoFaces = 2 ∧ FontNames.families twoFaces 1 = ["A"] ∧
      emptyTable.Accepts twoFaces ∧ issuedIds emptyTable [twoFaces, .empty] = [⟨0⟩] ∧
      (∃ index < FontDatabase.reader.faceCount twoFaces, ∀ after,
        named (loadAll emptyTable (twoFaces :: after)) ⟨0⟩ =
          faceAnswers FontDatabase.reader twoFaces index) ∧
      (∀ id, named (loadAll emptyTable [twoFaces, .empty]) id =
        named (loadAll emptyTable [twoFaces]) id) ∧
      named (loadAll emptyTable [twoFaces, .empty]) ⟨1⟩ = noAnswers := by
  obtain ⟨hstores, -⟩ := ids_denote_files
  obtain ⟨haccepts, hnew⟩ := hstores FaceTable Nat FontDatabase.reader lawful_faceTable
  have hnew : IdsDenote FontDatabase.reader emptyTable := hnew #[]
  have hfirst : (load emptyTable twoFaces).1 = some ⟨0⟩ := by decide +kernel
  have haccepted : emptyTable.Accepts twoFaces := by
    rw [← haccepts, hfirst]
    rfl
  have hsecond : (load (loadAll emptyTable [twoFaces]) .empty).1 = none := by decide +kernel
  have hids : issuedIds emptyTable [twoFaces, .empty] = [⟨0⟩] := by
    have hlast : issuedIds (loadAll emptyTable [twoFaces]) [.empty] = [] := by
      rw [issuedIds_cons, hsecond]
      rfl
    rw [loadAll_cons, loadAll_nil] at hlast
    rw [issuedIds_cons, hfirst, hlast]
    rfl
  have hother : (⟨1⟩ : FontId) ∉ issuedIds emptyTable [twoFaces, .empty] := by
    rw [hids]
    decide
  have hdenotes := hnew.denotes (show (load (loadAll emptyTable []) twoFaces).1 = _ from hfirst)
  have hfailed := hnew.failed hsecond
  exact ⟨lawful_faceTable, by decide +kernel, by decide +kernel, haccepted, hids, hdenotes,
    hfailed, hnew.silent hother⟩

end Xps
