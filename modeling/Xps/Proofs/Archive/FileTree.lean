import Xps.Proofs.PartName.Canonical

/-!
# What a file tree holds

A tree holds a file at each of some paths of names (`fileAt?`). Walking down ordinary names from a
directory finds the file at their path, wherever the directory lies (`find?_append`). Writing a file
puts it at its path, in the place of what is below it or in its way (`fileAt?_insert`).
-/

namespace Xps.FileTree

/-- The entries of a directory. A file has none. -/
def entries : FileTree → List (String × FileTree)
  | file _ => []
  | directory entries => entries

/-- The content of a file. -/
def content? : FileTree → Option ByteArray
  | file content => some content
  | directory _ => none

/-- The file at a path of names. -/
def fileAt? : FileTree → List String → Option ByteArray
  | tree, [] => tree.content?
  | tree, name :: path => (tree.entries.lookup name).bind fun tree => fileAt? tree path

/-! ## Walking -/

theorem find?_eq_walk (tree : FileTree) (path : List String) :
    tree.find? path = (walk [tree] path).bind content? := by
  unfold find?
  rcases walk [tree] path with _ | _ | _ <;> rfl

/-- Ordinary names lead down, so that what lies above does not matter. -/
theorem walk_of_isOrdinary {path : List String} (h : ∀ s ∈ path, IsOrdinary s) (tree : FileTree)
    (above : List FileTree) : (walk (tree :: above) path).bind content? = tree.fileAt? path := by
  induction path generalizing tree above with
  | nil => rw [walk, fileAt?]; rfl
  | cons s path ih =>
    obtain ⟨-, hstay, hup⟩ := h s List.mem_cons_self
    have hpath : ∀ t ∈ path, IsOrdinary t := fun t ht => h t (List.mem_cons_of_mem _ ht)
    cases tree with
    | file content => rfl
    | directory list =>
      rw [walk, if_neg hstay, if_neg hup, fileAt?, entries]
      cases list.lookup s with
      | none => rfl
      | some tree => exact ih hpath tree _

theorem walk_append {path : List String} (h : ∀ s ∈ path, IsOrdinary s) (trail : List FileTree)
    (root : List String) : (walk trail (root ++ path)).bind content? =
      (walk trail root).bind fun tree => tree.fileAt? path := by
  fun_induction walk trail root with
  | case1 trail =>
    cases trail with
    | nil => cases path <;> rfl
    | cons tree above => exact walk_of_isOrdinary h tree above
  | case2 list above root ih => rwa [List.cons_append, walk, if_pos rfl]
  | case3 list above root hstay ih => rwa [List.cons_append, walk, if_neg hstay, if_pos rfl]
  | case4 list above s root hstay hup tree hlookup ih =>
    rw [List.cons_append, walk, if_neg hstay, if_neg hup, hlookup]
    exact ih
  | case5 list above s root hstay hup hlookup =>
    rw [List.cons_append, walk, if_neg hstay, if_neg hup, hlookup]
    rfl
  | case6 trail s root htrail =>
    rw [List.cons_append, walk]
    · rfl
    · exact htrail

/-- Behind the path of a directory, ordinary names lead to the files of the directory. -/
theorem find?_append (tree : FileTree) (root : List String) {path : List String}
    (h : ∀ s ∈ path, IsOrdinary s) :
    tree.find? (root ++ path) = (walk [tree] root).bind fun d => d.fileAt? path := by
  rw [find?_eq_walk, walk_append h]

/-! ## Writing -/

/-- The entry of a name, or an empty directory in its place. -/
def child (tree : FileTree) (name : String) : FileTree := (tree.entries.lookup name).getD empty

theorem fileAt?_empty (path : List String) : empty.fileAt? path = none := by
  cases path <;> rfl

theorem fileAt?_cons (tree : FileTree) (name : String) (path : List String) :
    tree.fileAt? (name :: path) = (tree.child name).fileAt? path := by
  rw [fileAt?, child]
  cases tree.entries.lookup name with
  | none => exact (fileAt?_empty path).symm
  | some tree => rfl

theorem lookup_map_replaced (name : String) (tree : FileTree) (list : List (String × FileTree))
    (key : String) :
    (list.map fun entry => if entry.1 = name then (name, tree) else entry).lookup key =
      (list.lookup key).map fun old => if key = name then tree else old := by
  induction list with
  | nil => rfl
  | cons entry list ih =>
    obtain ⟨first, old⟩ := entry
    have hfirst : (if first = name then (name, tree) else (first, old)) =
        (first, if first = name then tree else old) := by
      split
      · rename_i h
        rw [h]
      · rfl
    rw [List.map_cons, hfirst, List.lookup_cons, List.lookup_cons, ih]
    by_cases hkey : key = first
    · subst hkey
      rw [beq_self_eq_true]
      rfl
    · rw [beq_eq_false_iff_ne.2 hkey]

theorem lookup_replace (name : String) (tree : FileTree) (list : List (String × FileTree))
    (key : String) :
    (replace name tree list).lookup key = if key = name then some tree else list.lookup key := by
  unfold replace
  split
  · rename_i hsome
    obtain ⟨old, hold⟩ := Option.isSome_iff_exists.1 hsome
    rw [lookup_map_replaced]
    by_cases hkey : key = name
    · rw [hkey, hold, if_pos rfl, Option.map_some, if_pos rfl]
    · simp only [if_neg hkey, Option.map_id']
  · rename_i hnone
    have hnone : list.lookup name = none := Option.not_isSome_iff_eq_none.1 hnone
    rw [List.lookup_append]
    by_cases hkey : key = name
    · rw [hkey, hnone, if_pos rfl, List.lookup_cons_self, Option.none_or]
    · rw [if_neg hkey, List.lookup_cons, beq_eq_false_iff_ne.2 hkey, List.lookup_nil,
        Option.or_none]

theorem insert_cons (tree : FileTree) (name : String) (path : List String) (content : ByteArray) :
    tree.insert (name :: path) content =
      directory (replace name ((tree.child name).insert path content) tree.entries) := by
  cases tree with
  | file old => rw [insert]; rfl
  | directory list => rw [insert]; rfl

theorem child_insert (tree : FileTree) (name : String) (path : List String) (content : ByteArray)
    (key : String) : (tree.insert (name :: path) content).child key =
      if key = name then (tree.child name).insert path content else tree.child key := by
  rw [insert_cons, child, entries, lookup_replace]
  split <;> rfl

/-- A file is at the path that it was written to. Nothing is left below it or on its way, and every
other file stays. -/
theorem fileAt?_insert (tree : FileTree) (path : List String) (content : ByteArray)
    (other : List String) :
    (tree.insert path content).fileAt? other =
      if other = path then some content
      else if other <+: path ∨ path <+: other then none
      else tree.fileAt? other := by
  induction path generalizing tree other with
  | nil =>
    rw [insert]
    cases other with
    | nil => rfl
    | cons key other =>
      have hbelow : [] <+: key :: other := List.nil_prefix
      rw [if_neg (List.cons_ne_nil _ _), if_pos (.inr hbelow)]
      rfl
  | cons name path ih =>
    cases other with
    | nil =>
      have habove : [] <+: name :: path := List.nil_prefix
      rw [if_neg (List.cons_ne_nil _ _).symm, if_pos (.inl habove), insert_cons]
      rfl
    | cons key other =>
      rw [fileAt?_cons, child_insert, fileAt?_cons]
      by_cases hkey : key = name
      · subst hkey
        rw [if_pos rfl, ih]
        simp only [List.cons.injEq, true_and, List.cons_prefix_cons]
      · have hne : key :: other ≠ name :: path := fun h => hkey (List.cons.inj h).1
        have hapart : ¬(key :: other <+: name :: path ∨ name :: path <+: key :: other) := by
          rintro (h | h)
          · exact hkey (List.cons_prefix_cons.1 h).1
          · exact hkey (List.cons_prefix_cons.1 h).1.symm
        rw [if_neg hkey, if_neg hne, if_neg hapart]

end Xps.FileTree
