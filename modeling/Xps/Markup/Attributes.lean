import Xps.Journal

/-!
# Attributes

The attributes of an element in document order. The first of a name holds.
-/

namespace Xps

structure Attributes where
  list : List (String × String) := []
deriving DecidableEq

namespace Attributes

def get? (a : Attributes) (name : String) : Option String := a.list.lookup name

/-- Appends an attribute, unless there is one of the same name. -/
def push (a : Attributes) (name value : String) : Attributes :=
  if (a.get? name).isSome then a else ⟨a.list ++ [(name, value)]⟩

def ofList (list : List (String × String)) : Attributes :=
  list.foldl (fun a (name, value) => a.push name value) {}

def isEmpty (a : Attributes) : Bool := a.list.isEmpty

/-- The finite number that an attribute holds. Anything else is reported. -/
def number? (a : Attributes) (name : String) : Journaled (Option Float32) :=
  match a.get? name with
  | none => return none
  | some value => noteNone (Decimal.readTrimmed? value) (.invalidNumber name value)

theorem get?_push (a : Attributes) (name value key : String) :
    (a.push name value).get? key = (a.get? key).or (if key = name then some value else none) := by
  unfold push get?
  split
  · rename_i h
    split
    · rename_i hk
      subst hk
      cases hl : List.lookup key a.list
      · rw [hl] at h; cases h
      · rfl
    · rw [Option.or_none]
  · rw [List.lookup_append]
    congr 1
    by_cases hk : key = name
    · simp [hk]
    · simp [hk, List.lookup_cons, beq_eq_false_iff_ne.2 hk]

end Attributes

end Xps
