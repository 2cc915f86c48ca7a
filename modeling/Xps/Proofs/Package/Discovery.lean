import Xps.Package.Basic
import Xps.Proofs.Journal.Reports

/-!
# What opening a package finds

A page that is found has the name that a document gives it, the size that its header gives, and no
image yet.
-/

namespace Xps

theorem exists_of_map_eq_ok {ε α β : Type} {f : α → β} {x : Except ε α} {b : β}
    (h : x.map f = .ok b) : ∃ a, x = .ok a ∧ f a = b := by
  cases x with
  | error e => cases h
  | ok a => exact ⟨a, rfl, Except.ok.inj h⟩

theorem exists_of_bind_eq_ok {ε α β : Type} {f : α → Except ε β} {x : Except ε α} {b : β}
    (h : x.bind f = .ok b) : ∃ a, x = .ok a ∧ f a = .ok b := by
  cases x with
  | error e => cases h
  | ok a => exact ⟨a, rfl, h⟩

theorem Page.eq_of_load {archive : Archive} {name : String} {page : Page}
    (h : (load archive name).value = .ok page) : page = { partName := name, size := page.size } := by
  unfold load at h
  rw [Journaled.value_bind] at h
  split at h
  · cases h
  · obtain ⟨size, -, rfl⟩ := exists_of_map_eq_ok h
    rfl

namespace Package

section collect

variable {α β : Type} {f : α → Journaled (List β)} {as : List α}

theorem all_collect {P : Entry → Prop} (h : ∀ a ∈ as, (f a).All P) : (collect f as).All P := by
  induction as with
  | nil => exact Journaled.all_pure _
  | cons a as ih =>
    have hfirst := h a List.mem_cons_self
    have hrest := ih fun a ha => h a (List.mem_cons_of_mem _ ha)
    simp [collect, hfirst, hrest]

theorem forall_mem_collect {Q : β → Prop} (h : ∀ a ∈ as, ∀ b ∈ (f a).value, Q b) :
    ∀ b ∈ (collect f as).value, Q b := by
  induction as with
  | nil => exact fun b hb => nomatch hb
  | cons a as ih =>
    intro b hb
    rcases List.mem_append.1 hb with hb | hb
    · exact h a List.mem_cons_self b hb
    · exact ih (fun a ha => h a (List.mem_cons_of_mem _ ha)) b hb

end collect

/-! ## Pages that are found -/

theorem mem_loadPage {archive : Archive} {name : String} {page : Page}
    (h : page ∈ (loadPage archive name).value) : page = { partName := name, size := page.size } := by
  unfold loadPage at h
  rw [Journaled.value_bind] at h
  split at h
  · rename_i found hfound
    rw [Journaled.value_pure, List.mem_singleton] at h
    subst h
    exact Page.eq_of_load hfound
  · cases h

theorem image_loadDocument {archive : Archive} {name : String} :
    ∀ page ∈ (loadDocument archive name).value, page.image = none := by
  unfold loadDocument
  rw [Journaled.value_bind]
  split
  · refine forall_mem_collect fun name _ page hpage => ?_
    rw [mem_loadPage hpage]
  · exact fun page hpage => nomatch hpage

/-- No page has an image at first. -/
theorem image_discover {archive : Archive} {pages : List Page}
    (h : (discover archive).value = .ok pages) : ∀ page ∈ pages, page.image = none := by
  unfold discover at h
  rw [Journaled.value_bind] at h
  split at h
  · cases h
  · rw [Journaled.value_bind] at h
    split at h
    · cases h
    · cases h
      exact forall_mem_collect fun _ _ => image_loadDocument

end Package

end Xps
