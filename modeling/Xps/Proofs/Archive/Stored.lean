import Mathlib.Data.List.Basic
import Mathlib.Data.List.Find
import Mathlib.Data.List.Induction
import Xps.Proofs.Archive.FileTree

/-!
# Parts in memory and in files

Parts that are stored one after the other are found again, in memory under their names without the
slashes in front, in a directory at the paths of their names. For plain names, none of which leads
through another, that is the same (`find?_memory_eq_directory`).
-/

namespace Xps

namespace PartName

/-- A name that may lead to a file. Slashes in front of it do not count. -/
def IsPlain (name : String) : Prop := ∀ s ∈ split (dropRoot name).toList, IsOrdinary s

instance : DecidablePred IsPlain := fun name =>
  inferInstanceAs (Decidable (∀ s ∈ split (dropRoot name).toList, IsOrdinary s))

theorem isPlain_of_isCanonical {name : String} (h : IsCanonical name) (hne : name ≠ "") :
    IsPlain name := by
  have hordinary := h.ordinary
  rw [segments, if_neg hne] at hordinary
  unfold IsPlain
  rwa [dropRoot_of_isCanonical h]

theorem filter_split_dropWhile (s : List Char) :
    (split (s.dropWhile (· == '/'))).filter (fun t => !t.isEmpty) =
      (split s).filter fun t => !t.isEmpty := by
  induction s with
  | nil => rfl
  | cons c s ih =>
    by_cases hc : c = '/'
    · subst hc
      rw [List.dropWhile_cons_of_pos rfl, ih]
      unfold split
      rw [List.splitOn_cons_eq_if_modifyHead]
      rfl
    · rw [List.dropWhile_cons_of_neg (by simpa using hc)]

end PartName

namespace FileTree

open PartName (IsPlain dropRoot)

theorem segments_of_isPlain {name : String} (h : IsPlain name) :
    segments name = (PartName.split (dropRoot name).toList).map String.ofList := by
  have hnonempty : ∀ s ∈ PartName.split (dropRoot name).toList, (!s.isEmpty) = true := by
    intro s hs
    have hs := (h s hs).1
    simpa using hs
  have hroot : (dropRoot name).toList = name.toList.dropWhile (· == '/') := by
    rw [dropRoot, String.toList_ofList]
  unfold segments
  rw [← PartName.filter_split_dropWhile, ← hroot, List.filter_eq_self.2 hnonempty]

theorem isOrdinary_of_isPlain {name : String} (h : IsPlain name) :
    ∀ s ∈ segments name, IsOrdinary s := by
  rw [segments_of_isPlain h]
  intro s hs
  obtain ⟨t, ht, rfl⟩ := List.mem_map.1 hs
  exact isOrdinary_ofList (h t ht)

theorem segments_ne_nil {name : String} (h : IsPlain name) : segments name ≠ [] := by
  rw [segments_of_isPlain h]
  intro hnil
  exact List.splitOn_ne_nil '/' _ (List.map_eq_nil_iff.1 hnil)

/-- Plain names lead to the same file exactly if they differ in slashes in front alone. -/
theorem segments_eq_iff {name other : String} (h : IsPlain name) (hother : IsPlain other) :
    segments name = segments other ↔ dropRoot name = dropRoot other := by
  rw [segments_of_isPlain h, segments_of_isPlain hother]
  constructor
  · intro heq
    have hofList : Function.Injective String.ofList := fun _ _ => String.ofList_injective
    have hsplit : PartName.split (dropRoot name).toList = PartName.split (dropRoot other).toList :=
      List.map_injective_iff.2 hofList heq
    have hjoin (s : List Char) : PartName.join (PartName.split s) = s :=
      List.intercalate_splitOn '/'
    have hlist : (dropRoot name).toList = (dropRoot other).toList := by
      rw [← hjoin (dropRoot name).toList, hsplit, hjoin]
    rw [← String.ofList_toList (s := dropRoot name), hlist, String.ofList_toList]
  · intro heq
    rw [heq]

end FileTree

/-! ## Storing parts -/

section latest

variable {parts : List (String × ByteArray)} {P Q : String → Prop} [DecidablePred P]
  [DecidablePred Q]

/-- The data of the last part whose name has a property. -/
def latest? (parts : List (String × ByteArray)) (P : String → Prop) [DecidablePred P] :
    Option ByteArray :=
  (parts.reverse.find? fun part => P part.1).map Prod.snd

theorem latest?_concat (part : String × ByteArray) :
    latest? (parts ++ [part]) P = if P part.1 then some part.2 else latest? parts P := by
  unfold latest?
  rw [List.reverse_concat, List.find?_cons]
  by_cases h : P part.1 <;> simp [h]

theorem latest?_congr (h : ∀ part ∈ parts, P part.1 ↔ Q part.1) :
    latest? parts P = latest? parts Q := by
  unfold latest?
  refine congrArg _ (List.find?_congr fun part hpart => ?_)
  rw [decide_eq_decide]
  exact h part (List.mem_reverse.1 hpart)

theorem latest?_eq_none (h : ∀ part ∈ parts, ¬P part.1) : latest? parts P = none := by
  unfold latest?
  rw [Option.map_eq_none_iff, List.find?_eq_none]
  intro part hpart
  simpa using h part (List.mem_reverse.1 hpart)

end latest

open PartName (IsPlain IsCanonical dropRoot)

/-- Stores parts in memory, one after the other. -/
def MemoryArchive.ofParts (parts : List (String × ByteArray)) : MemoryArchive :=
  parts.foldl (fun archive part => archive.insert part.1 part.2) {}

theorem MemoryArchive.find?_ofParts (parts : List (String × ByteArray)) (name : String) :
    (ofParts parts).find? name = latest? parts fun key => dropRoot key = dropRoot name := by
  induction parts using List.reverseRecOn with
  | nil => rfl
  | append_singleton parts part ih =>
    have hinsert : ofParts (parts ++ [part]) = (ofParts parts).insert part.1 part.2 :=
      List.foldl_concat ..
    rw [hinsert, find?_insert, ih, latest?_concat]
    simp only [eq_comm]

/-- Names that each can be given a file of its own. -/
structure Storable (parts : List (String × ByteArray)) : Prop where
  plain : ∀ part ∈ parts, IsPlain part.1
  /-- No file is on the way to another. -/
  apart : ∀ part ∈ parts, ∀ other ∈ parts,
    FileTree.segments part.1 <+: FileTree.segments other.1 →
      FileTree.segments part.1 = FileTree.segments other.1

namespace FileTree

/-- The files in a directory are the given parts, the last of each name. -/
def Holds (d : FileTree) (parts : List (String × ByteArray)) : Prop :=
  ∀ path, d.fileAt? path = latest? parts fun name => segments name = path

/-- Writes parts to an empty directory, one after the other. -/
def ofParts (parts : List (String × ByteArray)) : FileTree :=
  parts.foldl (fun d part => d.insert (segments part.1) part.2) empty

theorem holds_ofParts {parts : List (String × ByteArray)} (h : Storable parts) :
    (ofParts parts).Holds parts := by
  induction parts using List.reverseRecOn with
  | nil => exact fileAt?_empty
  | append_singleton parts part ih =>
    have hparts : Storable parts :=
      ⟨fun p hp => h.plain p (List.mem_append_left _ hp), fun p hp q hq =>
        h.apart p (List.mem_append_left _ hp) q (List.mem_append_left _ hq)⟩
    have hpart : part ∈ parts ++ [part] := List.mem_append_right _ List.mem_cons_self
    have hinsert : ofParts (parts ++ [part]) = (ofParts parts).insert (segments part.1) part.2 :=
      List.foldl_concat ..
    intro path
    rw [hinsert, fileAt?_insert, ih hparts, latest?_concat]
    by_cases hpath : segments part.1 = path
    · rw [if_pos hpath, if_pos hpath.symm]
    · rw [if_neg hpath, if_neg (Ne.symm hpath)]
      split
      · -- Nothing is overwritten, since no other part is on the way or below.
        rename_i hcomparable
        refine (latest?_eq_none fun other hother hsegments => ?_).symm
        have hother : other ∈ parts ++ [part] := List.mem_append_left _ hother
        subst hsegments
        rcases hcomparable with hprefix | hprefix
        · exact hpath (h.apart other hother part hpart hprefix).symm
        · exact hpath (h.apart part hpart other hother hprefix)
      · rfl

theorem find?_archive {tree d : FileTree} {root : List String}
    {parts : List (String × ByteArray)} (hroot : walk [tree] root = some d) (hd : d.Holds parts)
    {name : String} (hname : ∀ s ∈ segments name, IsOrdinary s) :
    (tree.archive root).find? name = latest? parts fun key => segments key = segments name := by
  have hfind : (tree.archive root).find? name = tree.find? (root ++ segments name) := rfl
  rw [hfind, find?_append tree root hname, hroot]
  exact hd _

end FileTree

/-! ## The two archives -/

variable {parts : List (String × ByteArray)} {tree d : FileTree} {root : List String}

/-- A plain name finds the same part in memory and in a directory. -/
theorem find?_memory_eq_directory (h : Storable parts) (hroot : FileTree.walk [tree] root = some d)
    (hd : d.Holds parts) {name : String} (hname : IsPlain name) :
    (MemoryArchive.ofParts parts).toArchive.find? name = (tree.archive root).find? name := by
  have hmemory : (MemoryArchive.ofParts parts).toArchive.find? name = _ :=
    MemoryArchive.find?_ofParts parts name
  rw [hmemory, FileTree.find?_archive hroot hd (FileTree.isOrdinary_of_isPlain hname)]
  refine latest?_congr fun part hpart => ?_
  exact (FileTree.segments_eq_iff (h.plain part hpart) hname).symm

/-- The empty name, which references may lead to, finds nothing in either. -/
theorem find?_memory_eq_directory_empty (h : Storable parts)
    (hroot : FileTree.walk [tree] root = some d) (hd : d.Holds parts) :
    (MemoryArchive.ofParts parts).toArchive.find? "" = (tree.archive root).find? "" := by
  have hmemory : (MemoryArchive.ofParts parts).toArchive.find? "" = _ :=
    MemoryArchive.find?_ofParts parts ""
  rw [hmemory, FileTree.find?_archive hroot hd (by decide)]
  rw [latest?_eq_none, latest?_eq_none]
  · intro part hpart hsegments
    exact FileTree.segments_ne_nil (h.plain part hpart) (hsegments.trans (by decide))
  · intro part hpart hempty
    have hplain := h.plain part hpart
    unfold IsPlain at hplain
    rw [hempty] at hplain
    exact absurd hplain (by decide)

theorem find?_memory_eq_directory_of_isCanonical (h : Storable parts)
    (hroot : FileTree.walk [tree] root = some d) (hd : d.Holds parts) {name : String}
    (hname : IsCanonical name) :
    (MemoryArchive.ofParts parts).toArchive.find? name = (tree.archive root).find? name := by
  by_cases hempty : name = ""
  · subst hempty
    exact find?_memory_eq_directory_empty h hroot hd
  · exact find?_memory_eq_directory h hroot hd (PartName.isPlain_of_isCanonical hname hempty)

end Xps
