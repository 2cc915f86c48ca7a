import Xps.Journal

/-!
# Views of journals

A view keeps some of the entries of a journal: its paint calls, say. The view of a sequence of
computations is one view after the other, and a computation that only reports shows nothing.

Two computations agree in a view when they show the same and have related results (`Agree`).
-/

namespace Xps.Journaled

variable {α β γ δ V : Type}

def view (f : Entry → Option V) (x : Journaled α) : List V := x.entries.filterMap f

theorem paintCalls_eq_view (x : Journaled α) : x.paintCalls = x.view Entry.paint? := rfl

theorem placed_eq_view (x : Journaled α) : x.placed = x.view Entry.place? := rfl

@[simp] theorem view_pure (f : Entry → Option V) (a : α) : (pure a : Journaled α).view f = [] := rfl

@[simp] theorem view_bind (f : Entry → Option V) (x : Journaled α) (g : α → Journaled β) :
    (x >>= g).view f = x.view f ++ (g x.value).view f := List.filterMap_append

@[simp] theorem view_map (f : Entry → Option V) (x : Journaled α) (g : α → β) :
    (g <$> x).view f = x.view f := by
  rw [← bind_pure_comp, view_bind, view_pure, List.append_nil]

@[simp] theorem value_map (x : Journaled α) (g : α → β) : (g <$> x).value = g x.value := rfl

@[simp] theorem value_noteNone (x : Option α) (n : Notice) : (noteNone x n).value = x := by
  unfold noteNone
  split <;> rfl

theorem view_write (f : Entry → Option V) (e : Entry) : (write e).view f = (f e).toList := by
  show List.filterMap f [e] = _
  cases h : f e <;> simp [h]

/-! ## Agreement -/

/-- Two computations show the same and have related results. -/
structure Agree (f : Entry → Option V) (R : α → β → Prop) (x : Journaled α) (y : Journaled β) :
    Prop where
  view : x.view f = y.view f
  value : R x.value y.value

namespace Agree

variable {f : Entry → Option V} {R : α → β → Prop} {S : γ → δ → Prop}

theorem pure {a : α} {b : β} (h : R a b) : Agree f R (Pure.pure a) (Pure.pure b) := ⟨rfl, h⟩

theorem refl (x : Journaled α) : Agree f (· = ·) x x := ⟨rfl, rfl⟩

/-- Computations that go on from the results of others agree if those do. -/
theorem bind_value {x : Journaled α} {y : Journaled β} {g : α → Journaled γ}
    {h : β → Journaled δ} (hxy : Agree f R x y) (hgh : Agree f S (g x.value) (h y.value)) :
    Agree f S (x >>= g) (y >>= h) :=
  ⟨by rw [view_bind, view_bind, hxy.view, hgh.view], hgh.value⟩

theorem bind {x : Journaled α} {y : Journaled β} {g : α → Journaled γ} {h : β → Journaled δ}
    (hxy : Agree f R x y) (hgh : ∀ a b, R a b → Agree f S (g a) (h b)) :
    Agree f S (x >>= g) (y >>= h) :=
  hxy.bind_value (hgh _ _ hxy.value)

/-- What shows nothing may follow on one side. -/
theorem bind_hidden {x : Journaled α} {y : Journaled β} {T : γ → β → Prop} {g : α → Journaled γ}
    (hxy : Agree f R x y) (hg : ∀ a b, R a b → (g a).view f = [] ∧ T (g a).value b) :
    Agree f T (x >>= g) y := by
  obtain ⟨hview, hvalue⟩ := hg _ _ hxy.value
  exact ⟨by rw [view_bind, hview, List.append_nil, hxy.view], hvalue⟩

/-- What shows nothing may come first on one side. -/
theorem hidden_bind {x : Journaled α} {y : Journaled δ} {g : α → Journaled γ}
    (hx : x.view f = []) (hg : Agree f S (g x.value) y) : Agree f S (x >>= g) y :=
  ⟨by rw [view_bind, hx, List.nil_append, hg.view], hg.value⟩

/-- A common beginning does not matter. -/
theorem bind_left (x : Journaled α) {g : α → Journaled γ} {h : α → Journaled δ}
    (hgh : ∀ a, Agree f S (g a) (h a)) : Agree f S (x >>= g) (x >>= h) :=
  (refl x).bind fun a _ hab => hab ▸ hgh a

/-- A fold of steps that agree from related states agrees. -/
theorem foldlM {ι : Type} {step : α → ι → Journaled α} {step' : β → ι → Journaled β}
    (hstep : ∀ a b, R a b → ∀ i, Agree f R (step a i) (step' b i)) (is : List ι) :
    ∀ {a : α} {b : β}, R a b → Agree f R (is.foldlM step a) (is.foldlM step' b) := by
  induction is with
  | nil => exact fun h => pure h
  | cons i is ih =>
    intro a b h
    rw [List.foldlM_cons, List.foldlM_cons]
    exact (hstep a b h i).bind fun _ _ h' => ih h'

end Agree

end Xps.Journaled
