/-!
# Splitting texts

Lengths in UTF-8, and the splitting of a text at the first place where something stands.
-/

namespace Xps.Text

/-- The length of a text in UTF-8. -/
def byteLength (s : List Char) : Nat := (s.map Char.utf8Size).foldr (· + ·) 0

theorem length_dropWhile_le {α : Type} (p : α → Bool) (l : List α) :
    (l.dropWhile p).length ≤ l.length :=
  (List.dropWhile_sublist p).length_le

/-- What comes before and after the first `mark` of a text. -/
def splitAt? (mark : List Char) : List Char → Option (List Char × List Char)
  | [] => none
  | c :: s =>
    if mark.isPrefixOf (c :: s) then some ([], (c :: s).drop mark.length)
    else (splitAt? mark s).map fun (before, after) => (c :: before, after)

theorem length_splitAt_le {mark s before after : List Char}
    (h : splitAt? mark s = some (before, after)) : after.length ≤ s.length := by
  induction s generalizing before with
  | nil => cases h
  | cons c s ih =>
    unfold splitAt? at h
    split at h
    · cases h
      simp only [List.length_drop]
      omega
    · cases hs : splitAt? mark s with
      | none => simp [hs] at h
      | some x =>
        simp only [hs, Option.map_some, Option.some.injEq, Prod.mk.injEq] at h
        have := @ih x.1 (by rw [hs, ← h.2])
        simp only [List.length_cons]
        omega

/-- The text itself without the marks in front of it that say how it is encoded. -/
def dropByteOrderMarks (s : List Char) : List Char := s.dropWhile (· == '\ufeff')

end Xps.Text
