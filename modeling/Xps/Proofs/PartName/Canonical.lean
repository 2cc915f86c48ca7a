import Xps.Archive.FileTree

/-!
# Canonical part names

A canonical name has no slash in front, no fragment, and only ordinary segments: none is empty, a
point or two points. Resolving any reference in a part of canonical name gives a canonical name, so
that names found by following references stay canonical (`isCanonical_resolve`).

The path of a canonical name in a directory is the path of the directory with ordinary names behind
it. No step of it goes up (`straighten_append`).
-/

namespace Xps

namespace PartName

/-- A segment that leads down to something. -/
def IsOrdinary (segment : List Char) : Prop :=
  segment ≠ [] ∧ segment ≠ ['.'] ∧ segment ≠ ['.', '.']

instance : DecidablePred IsOrdinary := fun s =>
  inferInstanceAs (Decidable (s ≠ [] ∧ s ≠ ['.'] ∧ s ≠ ['.', '.']))

/-- The segments of a name. The empty name has none. -/
def segments (name : String) : List (List Char) := if name = "" then [] else split name.toList

structure IsCanonical (name : String) : Prop where
  relative : name.toList.head? ≠ some '/'
  noFragment : '#' ∉ name.toList
  ordinary : ∀ s ∈ segments name, IsOrdinary s

instance : DecidablePred IsCanonical := fun name =>
  decidable_of_iff
    (name.toList.head? ≠ some '/' ∧ '#' ∉ name.toList ∧ ∀ s ∈ segments name, IsOrdinary s)
    ⟨fun h => ⟨h.1, h.2.1, h.2.2⟩, fun h => ⟨h.1, h.2, h.3⟩⟩

/-! ## Splitting and joining -/

theorem mem_of_mem_split {s segment : List Char} (h : segment ∈ split s) {c : Char}
    (hc : c ∈ segment) : c ∈ s ∧ c ≠ '/' := by
  unfold split at h
  induction s generalizing segment with
  | nil =>
    rw [List.splitOn_nil, List.mem_singleton] at h
    subst h
    cases hc
  | cons d s ih =>
    rw [List.splitOn_cons_eq_if_modifyHead] at h
    split at h
    · rcases List.mem_cons.1 h with rfl | h
      · cases hc
      · exact ⟨List.mem_cons_of_mem _ (ih h hc).1, (ih h hc).2⟩
    · rename_i hd
      obtain ⟨first, rest, hs⟩ := List.exists_cons_of_ne_nil (List.splitOn_ne_nil '/' s)
      rw [hs] at h ih
      rcases List.mem_cons.1 h with rfl | h
      · rcases List.mem_cons.1 hc with rfl | hc
        · exact ⟨List.mem_cons_self, by simpa using hd⟩
        · have := ih List.mem_cons_self hc
          exact ⟨List.mem_cons_of_mem _ this.1, this.2⟩
      · have := ih (List.mem_cons_of_mem _ h) hc
        exact ⟨List.mem_cons_of_mem _ this.1, this.2⟩

theorem split_join {segments : List (List Char)} (hne : segments ≠ [])
    (h : ∀ s ∈ segments, '/' ∉ s) : split (join segments) = segments :=
  List.splitOn_intercalate '/' h hne

theorem not_mem_join {segments : List (List Char)} {c : Char} (hc : c ≠ '/')
    (h : ∀ s ∈ segments, c ∉ s) : c ∉ join segments := by
  unfold join
  induction segments with
  | nil => simp
  | cons s segments ih =>
    have hs := h s List.mem_cons_self
    have hrest := ih fun t ht => h t (List.mem_cons_of_mem _ ht)
    cases segments with
    | nil => simpa using hs
    | cons t segments =>
      rw [List.intercalate_cons_cons]
      simp only [List.mem_append, List.mem_singleton, not_or]
      exact ⟨⟨hs, hc⟩, hrest⟩

/-! ## Following references -/

theorem mem_follow {segments : List (List Char)} {s t : List Char} (h : t ∈ follow segments s) :
    t ∈ segments ∨ t = s ∧ IsOrdinary s := by
  unfold follow at h
  split at h
  · exact .inl h
  · rename_i hstay
    split at h
    · exact .inl (List.dropLast_subset _ h)
    · rename_i hup
      rw [not_or] at hstay
      rcases List.mem_append.1 h with h | h
      · exact .inl h
      · exact .inr ⟨List.mem_singleton.1 h, hstay.1, hstay.2, hup⟩

/-- Following a path adds nothing but its ordinary segments. -/
theorem mem_foldl_follow {path segments : List (List Char)} {t : List Char}
    (h : t ∈ path.foldl follow segments) : t ∈ segments ∨ t ∈ path ∧ IsOrdinary t := by
  induction path generalizing segments with
  | nil => exact .inl h
  | cons s path ih =>
    rcases ih h with h | ⟨hpath, hordinary⟩
    · rcases mem_follow h with h | ⟨rfl, hordinary⟩
      · exact .inl h
      · exact .inr ⟨List.mem_cons_self, hordinary⟩
    · exact .inr ⟨List.mem_cons_of_mem _ hpath, hordinary⟩

/-- Segments that a canonical name may be made of. -/
def Clean (segments : List (List Char)) : Prop :=
  ∀ s ∈ segments, IsOrdinary s ∧ '/' ∉ s ∧ '#' ∉ s

theorem Clean.foldl_follow {path : List (List Char)} (hpath : ∀ s ∈ path, '/' ∉ s ∧ '#' ∉ s)
    {segments : List (List Char)} (h : Clean segments) : Clean (path.foldl follow segments) := by
  intro s hs
  rcases mem_foldl_follow hs with hs | ⟨hs, hordinary⟩
  · exact h s hs
  · exact ⟨hordinary, hpath s hs⟩

theorem Clean.isCanonical {path : List (List Char)} (h : Clean path) :
    IsCanonical (String.ofList (join path)) := by
  cases path with
  | nil => decide
  | cons s path =>
    obtain ⟨t, ht⟩ : ∃ t, join (s :: path) = s ++ t := by
      cases path with
      | nil => exact ⟨[], by simp [join]⟩
      | cons t path => exact ⟨_, by rw [join, List.intercalate_cons_cons, List.append_assoc]⟩
    obtain ⟨⟨hne, -, -⟩, hslash, -⟩ := h s List.mem_cons_self
    refine ⟨?_, ?_, ?_⟩
    · rw [String.toList_ofList, ht]
      obtain ⟨c, s', rfl⟩ := List.exists_cons_of_ne_nil hne
      rintro ⟨⟩
      exact hslash List.mem_cons_self
    · rw [String.toList_ofList]
      exact not_mem_join (by decide) fun t ht => (h t ht).2.2
    · intro t ht
      unfold segments at ht
      split at ht
      · cases ht
      · rw [String.toList_ofList, split_join (List.cons_ne_nil _ _) fun t ht => (h t ht).2.1] at ht
        exact (h t ht).1

theorem clean_directory {base : String} (h : IsCanonical base) : Clean (directory base.toList) := by
  intro s hs
  obtain ⟨hs, hne⟩ := List.mem_filter.1 (List.dropLast_subset _ hs)
  have hbase : base ≠ "" := by
    rintro rfl
    rw [split, String.toList_empty, List.splitOn_nil, List.mem_singleton] at hs
    subst hs
    cases hne
  have hordinary : IsOrdinary s := h.ordinary s (by rwa [segments, if_neg hbase])
  exact ⟨hordinary, fun hc => (mem_of_mem_split hs hc).2 rfl,
    fun hc => h.noFragment (mem_of_mem_split hs hc).1⟩

/-- What a reference in a part of canonical name means has a canonical name. -/
theorem isCanonical_resolve {base : String} (h : IsCanonical base) (reference : String) :
    IsCanonical (resolve base reference) := by
  unfold resolve
  refine (Clean.foldl_follow (fun s hs => ⟨?_, ?_⟩) ?_).isCanonical
  · exact fun hc => (mem_of_mem_split hs hc).2 rfl
  · intro hc
    have := List.all_eq_true.1 List.all_takeWhile _ (mem_of_mem_split hs hc).1
    exact absurd this (by decide)
  · split
    · exact fun s hs => nomatch hs
    · exact clean_directory h

theorem isCanonical_empty : IsCanonical "" := by decide

theorem dropRoot_of_isCanonical {name : String} (h : IsCanonical name) : dropRoot name = name := by
  have hhead := h.relative
  unfold dropRoot
  cases hname : name.toList with
  | nil => rw [List.dropWhile_nil, ← hname, String.ofList_toList]
  | cons c s =>
    rw [hname, List.head?_cons] at hhead
    have hc : c ≠ '/' := fun hc => hhead (congrArg some hc)
    rw [List.dropWhile_cons_of_neg (by simpa using hc), ← hname, String.ofList_toList]

end PartName

/-! ## Paths of a directory -/

namespace FileTree

/-- A segment of a path that leads down to something. -/
def IsOrdinary (segment : String) : Prop := segment ≠ "" ∧ segment ≠ "." ∧ segment ≠ ".."

instance : DecidablePred IsOrdinary := fun s =>
  inferInstanceAs (Decidable (s ≠ "" ∧ s ≠ "." ∧ s ≠ ".."))

theorem isOrdinary_ofList {s : List Char} (h : PartName.IsOrdinary s) :
    IsOrdinary (String.ofList s) := by
  have hinj {t : String} (ht : String.ofList s = t) : s = t.toList := by
    rw [← ht, String.toList_ofList]
  exact ⟨fun ht => h.1 (hinj ht), fun ht => h.2.1 (hinj ht), fun ht => h.2.2 (hinj ht)⟩

theorem isOrdinary_of_mem_segments {name s : String} (h : PartName.IsCanonical name)
    (hs : s ∈ segments name) : IsOrdinary s := by
  obtain ⟨t, ht, rfl⟩ := List.mem_map.1 hs
  obtain ⟨ht, hne⟩ := List.mem_filter.1 ht
  refine isOrdinary_ofList (h.ordinary t ?_)
  unfold PartName.segments
  split
  · rename_i hname
    subst hname
    rw [PartName.split, String.toList_empty, List.splitOn_nil, List.mem_singleton] at ht
    subst ht
    cases hne
  · exact ht

theorem straighten_append (root : List String) {names : List String}
    (h : ∀ s ∈ names, IsOrdinary s) : straighten (root ++ names) = straighten root ++ names := by
  unfold straighten
  rw [List.foldl_append]
  generalize root.foldl _ [] = straight
  induction names generalizing straight with
  | nil => rw [List.foldl_nil, List.append_nil]
  | cons s names ih =>
    obtain ⟨-, hstay, hup⟩ := h s List.mem_cons_self
    rw [List.foldl_cons, if_neg hstay, if_neg hup, ih (fun t ht => h t (List.mem_cons_of_mem _ ht)),
      List.append_assoc]
    rfl

end FileTree

end Xps
