import Mathlib.Data.List.DropRight
import Xps.Font.Database
import Xps.Page.Glyphs
import Xps.Proofs.PartName.Canonical

/-!
# References from different places

A reference in the part that another reference leads to can be followed from the first part at once,
with the folder of the first reference in front. And a canonical name with a slash in front leads to
the part of that name from everywhere. So references to one part give one name, by which a cache is
asked for one font (`resolve_composes`).
-/

namespace Xps

namespace PartName

/-- A path up to its last slash. -/
def folder (path : List Char) : List Char := path.rdropWhile (· != '/')

/-- What a path has behind its last slash. -/
def lastSegment (path : List Char) : List Char := path.rtakeWhile (· != '/')

/-- The segments that a path in a part leads to. -/
def route (base path : List Char) : List (List Char) :=
  (split path).foldl follow (if path.head? = some '/' then [] else directory base)

theorem resolve_eq (base reference : String) :
    resolve base reference =
      String.ofList (join (route base.toList (dropFragment reference.toList))) := rfl

/-! ## Paths up to a slash -/

theorem folder_append_lastSegment (path : List Char) : folder path ++ lastSegment path = path :=
  List.rdropWhile_append_rtakeWhile

theorem not_mem_lastSegment (path : List Char) : '/' ∉ lastSegment path := fun h => by
  simpa using List.mem_rtakeWhile_imp h

theorem folder_eq_nil_or_concat (path : List Char) :
    folder path = [] ∨ ∃ front, folder path = front ++ ['/'] := by
  rcases List.eq_nil_or_concat' (folder path) with hnil | ⟨front, c, hfolder⟩
  · exact .inl hnil
  · have hne : folder path ≠ [] := by simp [hfolder]
    have hlast := List.rdropWhile_last_not (· != '/') path hne
    simp only [← folder.eq_1, hfolder, List.getLast_concat, bne_iff_ne, not_not] at hlast
    exact .inr ⟨front, hlast ▸ hfolder⟩

theorem split_of_not_mem {s : List Char} (h : '/' ∉ s) : split s = [s] :=
  List.splitOn_eq_singleton h

theorem split_append_slash (front back : List Char) :
    split (front ++ '/' :: back) = split front ++ split back :=
  List.splitOn_append_cons_self front back

/-! ## Following paths -/

theorem follow_of_isOrdinary {s : List Char} (h : IsOrdinary s) (segments : List (List Char)) :
    follow segments s = segments ++ [s] := by
  obtain ⟨hne, hpoint, hpoints⟩ := h
  unfold follow
  rw [if_neg (by simp [hne, hpoint]), if_neg hpoints]

theorem foldl_follow_of_isOrdinary {path : List (List Char)} (h : ∀ s ∈ path, IsOrdinary s)
    (segments : List (List Char)) : path.foldl follow segments = segments ++ path := by
  induction path generalizing segments with
  | nil => rw [List.foldl_nil, List.append_nil]
  | cons s path ih =>
    obtain ⟨hs, hpath⟩ := List.forall_mem_cons.1 h
    rw [List.foldl_cons, follow_of_isOrdinary hs, ih hpath, List.append_assoc,
      List.singleton_append]

/-- Segments that a joined name can be split into again. -/
def Solid (segments : List (List Char)) : Prop := ∀ s ∈ segments, s ≠ [] ∧ '/' ∉ s

theorem not_mem_of_mem_split {path s : List Char} (hs : s ∈ split path) : '/' ∉ s :=
  fun hc => (mem_of_mem_split hs hc).2 rfl

theorem solid_directory (base : List Char) : Solid (directory base) := by
  intro s hs
  obtain ⟨hsplit, hne⟩ := List.mem_filter.1 (List.dropLast_subset _ hs)
  exact ⟨by simpa using hne, not_mem_of_mem_split hsplit⟩

theorem solid_route (base path : List Char) : Solid (route base path) := by
  intro s hs
  rcases mem_foldl_follow hs with hs | ⟨hs, hordinary⟩
  · split at hs
    · cases hs
    · exact solid_directory base s hs
  · exact ⟨hordinary.1, not_mem_of_mem_split hs⟩

/-- A part lies in the directory of all its segments but the last. -/
theorem directory_join {segments : List (List Char)} {s : List Char} (h : Solid (segments ++ [s])) :
    directory (join (segments ++ [s])) = segments := by
  have hnonempty : ∀ t ∈ segments ++ [s], (!t.isEmpty) = true := fun t ht => by
    simpa using (h t ht).1
  unfold directory
  rw [split_join (by simp) fun t ht => (h t ht).2, List.filter_eq_self.2 hnonempty,
    List.dropLast_concat]

/-- Up to its last slash, a path leads to some segments, and from there on it does not matter how it
has come there. -/
theorem exists_foldl_route (base path : List Char) :
    ∃ segments, ∀ next, next.head? ≠ some '/' →
      route base (folder path ++ next) = (split next).foldl follow segments := by
  rcases folder_eq_nil_or_concat path with hfolder | ⟨front, hfolder⟩
  · refine ⟨directory base, fun next hnext => ?_⟩
    rw [hfolder, List.nil_append, route, if_neg hnext]
  · refine ⟨route base (front ++ ['/']), fun next _ => ?_⟩
    have hhead : (front ++ '/' :: next).head? = (front ++ ['/']).head? := by
      cases front <;> rfl
    have hslash : split (front ++ ['/']) = split front ++ [[]] := split_append_slash front []
    rw [hfolder, List.append_assoc, List.singleton_append, route, route, hhead, split_append_slash,
      hslash, List.foldl_append, List.foldl_append]
    rfl

/-- A path that ends in an ordinary segment leads to a part with this name, and a path from there
leads to where it leads behind the folder of the first one. -/
theorem exists_route_eq (base : List Char) {path : List Char}
    (h : IsOrdinary (lastSegment path)) :
    ∃ segments, route base path = segments ++ [lastSegment path] ∧
      ∀ next, next.head? ≠ some '/' →
        route base (folder path ++ next) = route (join (route base path)) next := by
  obtain ⟨segments, hroute⟩ := exists_foldl_route base path
  have hpath : route base path = segments ++ [lastSegment path] := by
    have hhead : (lastSegment path).head? ≠ some '/' := fun hslash =>
      not_mem_lastSegment path (List.mem_of_mem_head? hslash)
    have hlast := hroute (lastSegment path) hhead
    rwa [folder_append_lastSegment, split_of_not_mem (not_mem_lastSegment path), List.foldl_cons,
      List.foldl_nil, follow_of_isOrdinary h] at hlast
  refine ⟨segments, hpath, fun next hnext => ?_⟩
  have hsolid := solid_route base path
  rw [hpath] at hsolid ⊢
  rw [hroute next hnext, route, if_neg hnext, directory_join hsolid]

/-! ## Names -/

theorem dropFragment_of_not_mem {s : List Char} (h : '#' ∉ s) : dropFragment s = s :=
  List.takeWhile_eq_self_iff.2 fun _ hc => bne_iff_ne.2 fun heq => h (heq ▸ hc)

theorem dropFragment_append {front : List Char} (h : '#' ∉ front) (back : List Char) :
    dropFragment (front ++ back) = front ++ dropFragment back :=
  List.takeWhile_append_of_pos fun _ hc => bne_iff_ne.2 fun heq => h (heq ▸ hc)

theorem head?_dropFragment_ne {s : List Char} (h : s.head? ≠ some '/') :
    (dropFragment s).head? ≠ some '/' := by
  cases s with
  | nil => exact h
  | cons c s =>
    unfold dropFragment
    rw [List.takeWhile_cons]
    split
    · exact h
    · exact fun hnil => nomatch hnil

theorem resolve_resolve (base : String) {reference next : String} (hfragment : '#' ∉ reference.toList)
    (hlast : IsOrdinary (lastSegment reference.toList)) (hnext : next.toList.head? ≠ some '/') :
    resolve (resolve base reference) next =
      resolve base (String.ofList (folder reference.toList) ++ next) := by
  obtain ⟨_, -, hroute⟩ := exists_route_eq base.toList hlast
  have hfolder : '#' ∉ folder reference.toList := fun hc =>
    hfragment ((List.rdropWhile_prefix _ _).subset hc)
  rw [resolve_eq, resolve_eq, resolve_eq, String.toList_append, String.toList_ofList,
    String.toList_ofList, dropFragment_of_not_mem hfragment, dropFragment_append hfolder,
    hroute _ (head?_dropFragment_ne hnext)]

theorem join_segments (name : String) : join (segments name) = name.toList := by
  unfold segments
  split
  · rename_i hname
    rw [hname]
    rfl
  · exact List.intercalate_splitOn '/'

/-- A canonical name is where its own segments lead from the root. -/
theorem foldl_follow_split {name : String} (h : IsCanonical name) :
    (split name.toList).foldl follow [] = segments name := by
  have hordinary := h.ordinary
  unfold segments at hordinary ⊢
  split at hordinary
  · rename_i hname
    rw [if_pos hname, hname]
    rfl
  · rename_i hname
    rw [if_neg hname, foldl_follow_of_isOrdinary hordinary, List.nil_append]

theorem resolve_slash (base : String) {name : String} (h : IsCanonical name) :
    resolve base ("/" ++ name) = name := by
  have hslash : ("/" ++ name).toList = '/' :: name.toList := by simp
  have hfragment : '#' ∉ '/' :: name.toList := by simp [h.noFragment]
  have hsplit : split ('/' :: name.toList) = [] :: split name.toList :=
    split_append_slash [] name.toList
  have hroute : route base.toList ('/' :: name.toList) = segments name := by
    rw [route, hsplit]
    exact foldl_follow_split h
  rw [resolve_eq, hslash, dropFragment_of_not_mem hfragment, hroute, join_segments,
    String.ofList_toList]

theorem resolve_root {name : String} (h : IsCanonical name) : resolve "" name = name := by
  have hroute : route "".toList name.toList = segments name := by
    rw [route, if_neg h.relative]
    exact foldl_follow_split h
  rw [resolve_eq, dropFragment_of_not_mem h.noFragment, hroute, join_segments, String.ofList_toList]

end PartName

open PartName

/-! ## Fonts -/

/-- In two parts of one package, two references to fonts do the same to every cache. -/
def SameFont (σ : Type) [FontProvider σ] (part uri part' uri' : String) : Prop :=
  ∀ (a a' : Attributes) (c c' : PageContext) (fonts : FontCache σ),
    c.partName = part → c'.partName = part' → c.archive = c'.archive →
    a.get? "FontUri" = some uri → a'.get? "FontUri" = some uri' →
    a.number? "FontRenderingEmSize" = a'.number? "FontRenderingEmSize" →
    Glyphs.font a c fonts = Glyphs.font a' c' fonts

theorem sameFont_of_resolve_eq (σ : Type) [FontProvider σ] {part uri part' uri' : String}
    (h : resolve part uri = resolve part' uri') : SameFont σ part uri part' uri' := by
  intro a a' c c' fonts hpart hpart' harchive huri huri' hsize
  have hnote (name : String) : noteNone (some name) .fontUriMissing = pure (some name) := rfl
  unfold Glyphs.font
  simp only [huri, huri', hsize, hpart, hpart', harchive, hnote, pure_bind, h]

/-- **References compose.** A reference without a slash in front, in the part that another reference
leads to, leads to the same part as behind the folder of that reference, in the part that it stands
in. A canonical name with a slash in front leads to the part of that name from everywhere, as the
name alone does from the root. Such references find one font in every cache. -/
theorem resolve_composes (σ : Type) [FontProvider σ] :
    (∀ base reference next : String, '#' ∉ reference.toList →
      IsOrdinary (lastSegment reference.toList) → next.toList.head? ≠ some '/' →
        resolve (resolve base reference) next =
            resolve base (String.ofList (folder reference.toList) ++ next) ∧
          SameFont σ (resolve base reference) next base
            (String.ofList (folder reference.toList) ++ next)) ∧
      ∀ base name : String, IsCanonical name →
        resolve base ("/" ++ name) = name ∧ resolve "" name = name ∧
          SameFont σ base ("/" ++ name) "" name := by
  constructor
  · intro base reference next hfragment hlast hnext
    have hresolve := resolve_resolve base hfragment hlast hnext
    exact ⟨hresolve, sameFont_of_resolve_eq σ hresolve⟩
  · intro base name hname
    have hslash := resolve_slash base hname
    have hroot := resolve_root hname
    exact ⟨hslash, hroot, sameFont_of_resolve_eq σ (hslash.trans hroot.symm)⟩

/-- A page above the root of the package and a font beside its folder. -/
theorem resolve_composes_surplusPoints :
    let base := "Documents/1/FixedDoc.fdoc"
    let reference := "../../../Pages//1.fpage"
    let next := "../Fonts/./ink.odttf#bold"
    ('#' ∉ reference.toList ∧ IsOrdinary (lastSegment reference.toList) ∧
        next.toList.head? ≠ some '/' ∧ IsCanonical "Fonts/ink.odttf") ∧
      resolve (resolve base reference) next =
        resolve base "../../../Pages//../Fonts/./ink.odttf#bold" ∧
      resolve base "/Fonts/ink.odttf" = "Fonts/ink.odttf" ∧
      SameFont FontDatabase base "/Fonts/ink.odttf" "" "Fonts/ink.odttf" := by
  intro base reference next
  have hfragment : '#' ∉ reference.toList := by decide +kernel
  have hlast : IsOrdinary (lastSegment reference.toList) := by decide +kernel
  have hnext : next.toList.head? ≠ some '/' := by decide +kernel
  have hname : IsCanonical "Fonts/ink.odttf" := by decide +kernel
  have hbehind : String.ofList (folder reference.toList) ++ next =
      "../../../Pages//../Fonts/./ink.odttf#bold" := by decide +kernel
  have hrooted : "/" ++ "Fonts/ink.odttf" = "/Fonts/ink.odttf" := by decide +kernel
  obtain ⟨hcomposes, hcanonical⟩ := resolve_composes FontDatabase
  have hnames := (hcomposes base reference next hfragment hlast hnext).1
  obtain ⟨hslash, -, hfont⟩ := hcanonical base "Fonts/ink.odttf" hname
  rw [hbehind] at hnames
  rw [hrooted] at hslash hfont
  exact ⟨⟨hfragment, hlast, hnext, hname⟩, hnames, hslash, hfont⟩

end Xps
