import Xps.Notice
import Xps.Paint.Basic
import Xps.TextLayout.Basic

/-!
# Journals

A computation writes down, in order, everything that it does besides its result: what it reports,
which parts it looks up, which fonts it asks for and loads, what it paints, and which characters it
places.
-/

namespace Xps

inductive Entry
  | notice (notice : Notice)
  /-- A part is looked up in the archive. -/
  | lookUp (part : String)
  /-- A font is asked for by part name and size. -/
  | request (part : String) (size : Float32)
  /-- Data is handed to the font provider. -/
  | load (data : ByteArray)
  | paint (call : PaintCall)
  | place (character : PlacedChar)

namespace Entry

def notice? : Entry → Option Notice
  | notice n => some n
  | _ => none

def paint? : Entry → Option PaintCall
  | paint call => some call
  | _ => none

def place? : Entry → Option PlacedChar
  | place character => some character
  | _ => none

end Entry

/-- A result and the journal of its computation. -/
structure Journaled (α : Type) where
  value : α
  entries : List Entry := []

namespace Journaled

protected def pure {α : Type} (a : α) : Journaled α := ⟨a, []⟩

protected def bind {α β : Type} (x : Journaled α) (f : α → Journaled β) : Journaled β :=
  let y := f x.value
  ⟨y.value, x.entries ++ y.entries⟩

instance : Monad Journaled where
  pure := Journaled.pure
  bind := Journaled.bind

@[simp] theorem value_pure {α : Type} (a : α) : (pure a : Journaled α).value = a := rfl

@[simp] theorem entries_pure {α : Type} (a : α) : (pure a : Journaled α).entries = [] := rfl

@[simp] theorem value_bind {α β : Type} (x : Journaled α) (f : α → Journaled β) :
    (x >>= f).value = (f x.value).value := rfl

@[simp] theorem entries_bind {α β : Type} (x : Journaled α) (f : α → Journaled β) :
    (x >>= f).entries = x.entries ++ (f x.value).entries := rfl

theorem bind_assoc {α β γ : Type} (x : Journaled α) (f : α → Journaled β) (g : β → Journaled γ) :
    x >>= f >>= g = x >>= fun a => f a >>= g := by
  show (⟨_, (x.entries ++ (f x.value).entries) ++ _⟩ : Journaled γ) = ⟨_, _ ++ (_ ++ _)⟩
  rw [List.append_assoc]
  rfl

theorem bind_pure {α : Type} (x : Journaled α) : x >>= pure = x := by
  show (⟨x.value, x.entries ++ []⟩ : Journaled α) = x
  rw [List.append_nil]

instance : LawfulMonad Journaled :=
  LawfulMonad.mk' Journaled bind_pure (fun _ _ => rfl) bind_assoc

/-- Writes an entry down. -/
def write (e : Entry) : Journaled Unit := ⟨(), [e]⟩

def note (n : Notice) : Journaled Unit := write (.notice n)

/-- The notices of a journal, in order. -/
def notices {α : Type} (x : Journaled α) : List Notice := x.entries.filterMap Entry.notice?

/-- The paintings of a journal, in order. -/
def paintCalls {α : Type} (x : Journaled α) : List PaintCall := x.entries.filterMap Entry.paint?

/-- The characters that a journal places, in order. -/
def placed {α : Type} (x : Journaled α) : List PlacedChar := x.entries.filterMap Entry.place?

end Journaled

/-- Reports the absence of a value. -/
def noteNone {α : Type} (x : Option α) (n : Notice) : Journaled (Option α) := do
  if x.isNone then Journaled.note n
  return x

end Xps
