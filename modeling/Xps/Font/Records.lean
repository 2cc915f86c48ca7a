/-!
# Records

Lists of records in font files: they are read up to a broken one, and searched by halving, which
finds a record only if they are in order.
-/

namespace Xps.Records

/-- The members of a list up to the first that is missing. -/
def takeSome {α : Type} : List (Option α) → List α
  | some a :: rest => a :: takeSome rest
  | _ => []

/-- Halves a range of records down to one of them. `isAfter` tells the records that lie behind what
is looked for, and the last record that it is not true of is kept in the range. -/
def bisect (isAfter : Nat → Bool) (base size : Nat) : Nat :=
  if size ≤ 1 then base
  else
    let half := size / 2
    bisect isAfter (if isAfter (base + half) then base else base + half) (size - half)
termination_by size

/-- The index of the record that compares as equal, if halving meets it. -/
def search? (count : Nat) (compare : Nat → Ordering) : Option Nat :=
  if count = 0 then none
  else
    let index := bisect (fun k => compare k == .gt) 0 count
    if compare index = .eq then some index else none

end Xps.Records
