import Xps.Page.Glyphs
import Xps.Proofs.Journal.Reports
import Xps.Proofs.Journal.View

/-!
# Requests for fonts

What a cache does is determined by the requests that are made of it, in their order
(`FontCache.resolveAll`). Once all of some requests were made, making them again loads nothing and
leaves the cache as it is (`FontCache.Settled`).
-/

namespace Xps

open Journaled

/-- Requests and loads show how a cache of fonts is used. -/
def Entry.fontUse? : Entry → Option Entry
  | request name size => some (request name size)
  | load data => some (load data)
  | _ => none

/-- The data that is handed to a provider. -/
def Entry.load? : Entry → Option ByteArray
  | load data => some data
  | _ => none

namespace Journaled

variable {α β : Type}

/-- The requests and loads of a journal, in order. -/
def fontUses (x : Journaled α) : List Entry := x.view Entry.fontUse?

/-- The loads of a journal, in order. -/
def loads (x : Journaled α) : List ByteArray := x.view Entry.load?

theorem loads_eq_filterMap (x : Journaled α) : x.loads = x.fontUses.filterMap Entry.load? := by
  unfold loads fontUses view
  rw [List.filterMap_filterMap]
  congr 1
  funext e
  cases e <;> rfl

/-- Computations that use fonts alike load alike. -/
theorem loads_congr {x : Journaled α} {y : Journaled β} (h : x.fontUses = y.fontUses) :
    x.loads = y.loads := by
  rw [loads_eq_filterMap, h, loads_eq_filterMap]

/-- No font is asked for or loaded. -/
def NoFonts (x : Journaled α) : Prop := x.All fun e => e.fontUse? = none

@[simp] theorem noFonts_pure (a : α) : (pure a : Journaled α).NoFonts := all_pure a

@[simp] theorem noFonts_bind {x : Journaled α} {f : α → Journaled β} :
    (x >>= f).NoFonts ↔ x.NoFonts ∧ (f x.value).NoFonts := all_bind

@[simp] theorem noFonts_map {x : Journaled α} {f : α → β} : (f <$> x).NoFonts ↔ x.NoFonts := all_map

theorem Reports.noFonts {x : Journaled α} (h : x.Reports) : x.NoFonts := h.all fun _ => rfl

theorem NoFonts.view {x : Journaled α} (h : x.NoFonts) : x.view Entry.fontUse? = [] := All.view h

end Journaled

variable {σ : Type} [FontProvider σ]

namespace FontCache

/-- Makes requests in order, and keeps nothing but the cache. -/
def resolveAll (archive : Archive) (c : FontCache σ) (requests : List (String × Float32)) :
    Journaled (FontCache σ) :=
  requests.foldlM (fun c r => Prod.snd <$> c.resolve archive r.1 r.2) c

@[simp] theorem resolveAll_nil (archive : Archive) (c : FontCache σ) :
    c.resolveAll archive [] = pure c := rfl

theorem resolveAll_singleton (archive : Archive) (c : FontCache σ) (r : String × Float32) :
    c.resolveAll archive [r] = Prod.snd <$> c.resolve archive r.1 r.2 := by
  unfold resolveAll
  simp

theorem resolveAll_append (archive : Archive) (c : FontCache σ)
    (first last : List (String × Float32)) :
    c.resolveAll archive (first ++ last) =
      c.resolveAll archive first >>= fun c => c.resolveAll archive last := by
  unfold resolveAll
  rw [List.foldlM_append]

/-! ## Settled requests -/

/-- The cache knows what became of a name. -/
def Settled (c : FontCache σ) (name : String) : Prop := (c.fonts.lookup name).isSome

omit [FontProvider σ] in
theorem Settled.append {c : FontCache σ} {name : String} (h : c.Settled name) (provider : σ)
    (fonts : List (String × Option FontId)) :
    Settled (⟨provider, c.fonts ++ fonts⟩ : FontCache σ) name := by
  unfold Settled at h ⊢
  rw [List.lookup_append, Option.isSome_or, h, Bool.true_or]

/-- A settled name is answered without a load. -/
theorem Settled.resolve_eq {c : FontCache σ} {name : String} (h : c.Settled name)
    (archive : Archive) (size : Float32) :
    ∃ font, c.resolve archive name size = ⟨(font, c), [.request name size]⟩ := by
  obtain ⟨id, hid⟩ := Option.isSome_iff_exists.1 h
  unfold resolve
  rw [hid]
  exact ⟨_, rfl⟩

/-- A request settles its name. -/
theorem settled_resolve (c : FontCache σ) (archive : Archive) (name : String) (size : Float32) :
    (c.resolve archive name size).value.2.Settled name := by
  unfold resolve
  rw [value_bind]
  cases hlookup : c.fonts.lookup name with
  | some id => exact Option.isSome_iff_exists.2 ⟨id, hlookup⟩
  | none =>
    unfold Settled
    simp [List.lookup_append, hlookup]

/-- What is settled stays so. -/
theorem Settled.resolve {c : FontCache σ} {name : String} (h : c.Settled name) (archive : Archive)
    (other : String) (size : Float32) : (c.resolve archive other size).value.2.Settled name := by
  unfold FontCache.resolve
  rw [value_bind]
  cases hlookup : c.fonts.lookup other with
  | some id => exact h
  | none => exact h.append _ _

theorem Settled.resolveAll {c : FontCache σ} {name : String} (h : c.Settled name)
    (archive : Archive) (requests : List (String × Float32)) :
    (c.resolveAll archive requests).value.Settled name := by
  induction requests generalizing c with
  | nil => exact h
  | cons r requests ih => exact ih (h.resolve archive r.1 r.2)

/-- Requests settle their names. -/
theorem settled_resolveAll (archive : Archive) (c : FontCache σ)
    (requests : List (String × Float32)) :
    ∀ r ∈ requests, (c.resolveAll archive requests).value.Settled r.1 := by
  induction requests generalizing c with
  | nil => exact fun _ h => nomatch h
  | cons r requests ih =>
    intro s hs
    rcases List.mem_cons.1 hs with rfl | hs
    · exact (c.settled_resolve archive s.1 s.2).resolveAll archive requests
    · exact ih _ s hs

/-- Requests for settled names load nothing and leave the cache as it is. -/
theorem resolveAll_of_settled (archive : Archive) {c : FontCache σ}
    {requests : List (String × Float32)} (h : ∀ r ∈ requests, c.Settled r.1) :
    (c.resolveAll archive requests).value = c ∧ (c.resolveAll archive requests).loads = [] := by
  induction requests with
  | nil => exact ⟨rfl, rfl⟩
  | cons r requests ih =>
    obtain ⟨hr, hrequests⟩ := List.forall_mem_cons.1 h
    obtain ⟨font, hfont⟩ := hr.resolve_eq archive r.2
    obtain ⟨hvalue, hloads⟩ := ih hrequests
    rw [← List.singleton_append, resolveAll_append, resolveAll_singleton, hfont]
    exact ⟨hvalue, hloads⟩

/-- Making requests again loads nothing and leaves the cache as it is. -/
theorem resolveAll_again {archive : Archive} {c d : FontCache σ}
    {requests : List (String × Float32)} (hd : d = (c.resolveAll archive requests).value) :
    (d.resolveAll archive requests).value = d ∧ (d.resolveAll archive requests).loads = [] := by
  subst hd
  exact resolveAll_of_settled archive (settled_resolveAll archive c requests)

end FontCache

/-! ## The request of a run of glyphs -/

namespace Glyphs

/-- The name and size that a run of glyphs asks for, if it has both. -/
def request? (attributes : Attributes) (context : PageContext) : Option (String × Float32) := do
  let uri ← attributes.get? "FontUri"
  let size ← (attributes.number? "FontRenderingEmSize").value.filter (0 < ·)
  return (PartName.resolve context.partName uri, size)

/-- The font of a run is looked for by the request of the run alone. -/
theorem fontUse_font (attributes : Attributes) (context : PageContext) (fonts : FontCache σ) :
    Agree Entry.fontUse? (fun x c => x.2 = c) (font attributes context fonts)
      (fonts.resolveAll context.archive (request? attributes context).toList) := by
  have hnote {α : Type} (x : Option α) (n : Notice) : (noteNone x n).view Entry.fontUse? = [] :=
    (reports_noteNone x n).noFonts.view
  have hnumber := (Attributes.reports_number attributes "FontRenderingEmSize").noFonts.view
  unfold font request?
  cases attributes.get? "FontUri" with
  | none =>
    constructor
    · simp [hnote]
    · simp
  | some uri =>
    cases hsize : (attributes.number? "FontRenderingEmSize").value.filter (0 < ·) with
    | none =>
      constructor
      · simp [hnote, hnumber, hsize]
      · simp [hsize]
    | some size =>
      constructor
      · simp [hnote, hnumber, hsize, FontCache.resolveAll_singleton]
      · simp [hsize, FontCache.resolveAll_singleton]

end Glyphs

end Xps
