import Mathlib.Data.Finset.Card
import Mathlib.Data.Finset.Dedup
import Mathlib.Data.List.Induction
import Xps.Proofs.Font.Embedded
import Xps.Proofs.Font.Requests
import Xps.Proofs.Package.Confinement

/-!
# Histories of a font cache

A cache that begins empty answers calls, each one with its own archive and size. What becomes of a
part is decided by the first call for it. All other calls for the part look nothing up, load nothing
and answer the same, whatever is in the archive by then (`FontCache.AnswersOnce`). So the cache
lists exactly the parts that were called for (`FontCache.Lists`).

Ids come from the provider alone. If it never repeats one (`FontProvider.NeverRepeats`), two parts
never share one (`FontCache.Apart`).
-/

namespace Xps

open Journaled

structure FontCall where
  archive : Archive
  part : String
  size : Float32

namespace FontProvider

variable {σ : Type} [FontProvider σ]

/-- A load between two states of a provider had an id. -/
def Issued (first latest : σ) (id : FontId) : Prop :=
  ∃ (later : σ) (data : ByteArray), Later first later ∧ (load later data).1 = some id ∧
    Later (load later data).2 latest

theorem Issued.later {first latest next : σ} {id : FontId} (h : Issued first latest id)
    (hnext : Later latest next) : Issued first next id := by
  obtain ⟨later, data, hlater, hid, hlatest⟩ := h
  exact ⟨later, data, hlater, hid, hlatest.trans hnext⟩

/-- No load has an id that an earlier load had. -/
def NeverRepeats (provider : σ) : Prop :=
  ∀ (latest : σ) (data : ByteArray) (id : FontId), Issued provider latest id →
    (load latest data).1 ≠ some id

/-- A provider that numbers its fonts by a count that only grows never repeats an id. -/
theorem neverRepeats_of_count (count : σ → Nat)
    (hgrows : ∀ (p : σ) (data : ByteArray), count p ≤ count (load p data).2)
    (hcounts : ∀ (p : σ) (data : ByteArray) (id : FontId), (load p data).1 = some id →
      count p ≤ id.index ∧ id.index < count (load p data).2) (provider : σ) :
    NeverRepeats provider := by
  have hlater {p q : σ} (h : Later p q) : count p ≤ count q := by
    induction h with
    | refl => exact Nat.le_refl _
    | load data _ ih => exact ih.trans (hgrows _ data)
  rintro latest data id ⟨later, earlier, -, hid, hlatest⟩ hagain
  have hold : id.index < count (load later earlier).2 := (hcounts later earlier id hid).2
  have hnew : count latest ≤ id.index := (hcounts latest data id hagain).1
  have hgrown : count (load later earlier).2 ≤ count latest := hlater hlatest
  omega

end FontProvider

open FontProvider

namespace FontCache

variable {σ : Type} [FontProvider σ]

/-! ## Loads of a part -/

@[simp] theorem loads_provide (provider : σ) (data : ByteArray) :
    (provide provider data).loads = [data] := by
  simp [provide, loads, view_write, Entry.load?]

/-- Hidden data is loaded, if there is any. -/
theorem loads_loadObfuscated (provider : σ) (part : String) (data : ByteArray) :
    (loadObfuscated provider part data).loads = (hidden? part data).toList := by
  unfold loadObfuscated hidden?
  cases Guid.parse? (PartName.baseName part) with
  | none => rfl
  | some guid =>
    rw [Option.bind_some]
    dsimp only
    cases guid.deobfuscate? data with
    | none => rfl
    | some plain =>
      have hnote (id : Option FontId) :
          (noteNone id (.obfuscatedRejected part)).view Entry.load? = [] :=
        ((reports_noteNone id _).all fun _ => rfl).view
      have hprovide := loads_provide provider plain
      unfold loads at hprovide ⊢
      simp [hprovide, hnote]

/-- The data of a part is loaded as it is, and if that is no font, then without its cover. -/
theorem loads_load (provider : σ) (archive : Archive) (part : String) :
    (load provider archive part).loads =
      match archive.find? part with
      | none => []
      | some data =>
        if (FontProvider.load provider data).1.isSome then [data]
        else data :: (hidden? part data).toList := by
  have hread : (archive.read part).value = archive.get part := rfl
  have hreadLoads : (archive.read part).loads = [] := rfl
  unfold load
  unfold loads at hreadLoads ⊢
  rw [view_bind, hreadLoads, hread, Archive.get, List.nil_append]
  cases archive.find? part with
  | none => rfl
  | some data =>
    have hprovide : (provide provider data).value = FontProvider.load provider data := rfl
    have hloads := loads_provide provider data
    unfold loads at hloads
    dsimp only
    rw [view_bind, hloads, hprovide]
    rcases FontProvider.load provider data with ⟨_ | id, loaded⟩
    · exact congrArg (data :: ·) (loads_loadObfuscated loaded part data)
    · rfl

theorem length_loads_load_le (provider : σ) (archive : Archive) (part : String) :
    (load provider archive part).loads.length ≤ 2 := by
  rw [loads_load]
  cases archive.find? part with
  | none => simp
  | some data =>
    dsimp only
    split
    · simp
    · cases hidden? part data <;> simp

theorem lookUps_loadObfuscated (provider : σ) (part : String) (data : ByteArray) :
    (loadObfuscated provider part data).lookUps = [] := by
  have hall : (loadObfuscated provider part data).All fun e => e.lookUp? = none := by
    have hreports {α : Type} {x : Journaled α} (h : x.Reports) :
        x.All fun e => e.lookUp? = none := h.all fun _ => rfl
    have hprovide (plain : ByteArray) :
        (provide provider plain).All fun e => e.lookUp? = none := by
      simp [provide, Entry.lookUp?]
    unfold loadObfuscated
    split
    · simp [hreports]
    · split <;> simp [hreports, hprovide]
  exact hall.view

/-- The part is looked up once, and nothing else. -/
theorem lookUps_load (provider : σ) (archive : Archive) (part : String) :
    (load provider archive part).lookUps = [part] := by
  have hread : (archive.read part).lookUps = [part] := rfl
  unfold load
  unfold lookUps at hread ⊢
  rw [view_bind, hread]
  split
  · simp [note, view_write, Entry.lookUp?]
  · rw [view_bind]
    split
    · simp [provide, view_write, Entry.lookUp?]
    · refine (congrArg (fun found => [part] ++ ([] ++ found)) ?_).trans rfl
      exact lookUps_loadObfuscated _ part _

/-- The id of a part was issued by the last load of its data. -/
theorem issued_load {provider : σ} {archive : Archive} {part : String} {id : FontId}
    (h : (load provider archive part).value.1 = some id) :
    ∃ (later : σ) (data : ByteArray), Later provider later ∧
      (FontProvider.load later data).1 = some id ∧
      (FontProvider.load later data).2 = (load provider archive part).value.2 := by
  rw [value_load] at h ⊢
  cases hdata : archive.find? part with
  | none => rw [hdata] at h; cases h
  | some data =>
    rw [hdata] at h
    dsimp only at h ⊢
    rcases hload : FontProvider.load provider data with ⟨_ | plainId, loaded⟩ <;>
      simp only [hload] at h ⊢
    · rw [value_loadObfuscated] at h ⊢
      cases hhidden : hidden? part data with
      | none => rw [hhidden] at h; cases h
      | some plain =>
        rw [hhidden] at h
        have hlater : Later provider (FontProvider.load provider data).2 := .load data .refl
        rw [hload] at hlater
        exact ⟨loaded, plain, hlater, h, rfl⟩
    · exact ⟨provider, data, .refl, by rw [hload]; exact h, by rw [hload]⟩

/-! ## Calls -/

def answer (c : FontCache σ) (call : FontCall) : Journaled (Option Font × FontCache σ) :=
  c.resolve call.archive call.part call.size

def answerAll (c : FontCache σ) (calls : List FontCall) : FontCache σ :=
  calls.foldl (fun c call => (c.answer call).value.2) c

/-- A cache that began empty and has answered some calls. -/
def after (provider : σ) (calls : List FontCall) : FontCache σ := answerAll ⟨provider, []⟩ calls

variable {c : FontCache σ} {call : FontCall}

theorem answer_of_known {id : Option FontId} (h : c.fonts.lookup call.part = some id) :
    c.answer call = ⟨(id.map (⟨·, call.size⟩), c), [.request call.part call.size]⟩ := by
  unfold answer resolve
  rw [h]
  rfl

theorem value_answer_of_new (h : c.fonts.lookup call.part = none) :
    (c.answer call).value =
      let loaded := (load c.provider call.archive call.part).value
      (loaded.1.map (⟨·, call.size⟩), ⟨loaded.2, c.fonts ++ [(call.part, loaded.1)]⟩) := by
  unfold answer
  rw [value_resolve, h]

/-- A new part is looked up and loaded. -/
theorem view_answer_of_new (h : c.fonts.lookup call.part = none) {V : Type} {f : Entry → Option V}
    (hf : ∀ part size, f (.request part size) = none) :
    (c.answer call).view f = (load c.provider call.archive call.part).view f := by
  unfold answer resolve
  rw [view_bind, view_write, hf, h]
  simp

theorem lookup_answer_of_new (h : c.fonts.lookup call.part = none) (part : String) :
    (c.answer call).value.2.fonts.lookup part =
      if part = call.part then some (load c.provider call.archive call.part).value.1
      else c.fonts.lookup part := by
  rw [value_answer_of_new h]
  dsimp only
  rw [List.lookup_append]
  split
  · rename_i hpart
    simp [hpart, h]
  · rename_i hpart
    simp [List.lookup_cons, beq_eq_false_iff_ne.2 hpart]

theorem later_answer (c : FontCache σ) (call : FontCall) :
    Later c.provider (c.answer call).value.2.provider := by
  cases h : c.fonts.lookup call.part with
  | some id =>
    rw [answer_of_known h]
    exact .refl
  | none =>
    rw [value_answer_of_new h]
    exact later_load c.provider call.archive call.part

theorem size_of_answer {font : Font} (h : (c.answer call).value.1 = some font) :
    font.size = call.size := by
  have hsize (id : Option FontId) (hid : id.map (⟨·, call.size⟩) = some font) :
      font.size = call.size := by
    obtain ⟨_, -, rfl⟩ := Option.map_eq_some_iff.1 hid
    rfl
  cases hcall : c.fonts.lookup call.part with
  | some id =>
    rw [answer_of_known hcall] at h
    exact hsize id h
  | none =>
    rw [value_answer_of_new hcall] at h
    exact hsize _ h

/-! ## Memory -/

/-- What a call answers is what the cache remembers of its part from then on. -/
theorem lookup_answer (c : FontCache σ) (call : FontCall) :
    (c.answer call).value.2.fonts.lookup call.part =
      some ((c.answer call).value.1.map Font.id) := by
  cases h : c.fonts.lookup call.part with
  | some id =>
    rw [answer_of_known h]
    dsimp only
    rw [h]
    cases id <;> rfl
  | none =>
    rw [lookup_answer_of_new h, if_pos rfl, value_answer_of_new h]
    dsimp only
    cases (load c.provider call.archive call.part).value.1 <;> rfl

/-- What is remembered stays so. -/
theorem lookup_answer_of_some {part : String} {id : Option FontId}
    (h : c.fonts.lookup part = some id) (call : FontCall) :
    (c.answer call).value.2.fonts.lookup part = some id := by
  cases hcall : c.fonts.lookup call.part with
  | some other =>
    rw [answer_of_known hcall]
    exact h
  | none =>
    have hpart : part ≠ call.part := fun hpart => by
      rw [hpart, hcall] at h
      cases h
    rw [lookup_answer_of_new hcall, if_neg hpart, h]

theorem lookup_answerAll {part : String} {id : Option FontId} (h : c.fonts.lookup part = some id)
    (calls : List FontCall) : (c.answerAll calls).fonts.lookup part = some id := by
  induction calls generalizing c with
  | nil => exact h
  | cons call calls ih => exact ih (lookup_answer_of_some h call)

/-- What a call has answered is remembered behind all later ones. -/
theorem lookup_after (provider : σ) (before : List FontCall) (first : FontCall)
    (between : List FontCall) :
    (after provider (before ++ first :: between)).fonts.lookup first.part =
      some (((after provider before).answer first).value.1.map Font.id) := by
  unfold after answerAll
  rw [List.foldl_append]
  exact lookup_answerAll (lookup_answer _ first) between

omit [FontProvider σ] in
theorem settled_iff {c : FontCache σ} {part : String} :
    c.Settled part ↔ part ∈ c.fonts.map Prod.fst := by
  unfold Settled
  rw [List.lookup_isSome_iff, List.mem_map]
  simp only [beq_iff_eq]
  exact exists_congr fun _ => and_congr_right fun _ => eq_comm

/-- The cache remembers each of some parts once. -/
structure Remembers (c : FontCache σ) (parts : List String) : Prop where
  nodup : (c.fonts.map Prod.fst).Nodup
  mem (part : String) : part ∈ c.fonts.map Prod.fst ↔ part ∈ parts

namespace Remembers

variable {parts : List String}

omit [FontProvider σ] in
theorem lookup_eq_none (h : c.Remembers parts) {part : String} (hpart : part ∉ parts) :
    c.fonts.lookup part = none := by
  rw [← h.mem, ← settled_iff] at hpart
  exact Option.not_isSome_iff_eq_none.1 hpart

omit [FontProvider σ] in
theorem exists_lookup (h : c.Remembers parts) {part : String} (hpart : part ∈ parts) :
    ∃ id, c.fonts.lookup part = some id := by
  rw [← h.mem, ← settled_iff] at hpart
  exact Option.isSome_iff_exists.1 hpart

theorem answer (h : c.Remembers parts) (call : FontCall) :
    (c.answer call).value.2.Remembers (parts ++ [call.part]) := by
  by_cases hpart : call.part ∈ parts
  · obtain ⟨id, hid⟩ := h.exists_lookup hpart
    rw [answer_of_known hid]
    refine ⟨h.nodup, fun part => ?_⟩
    rw [List.mem_append, List.mem_singleton, h.mem]
    exact ⟨Or.inl, fun hmem => hmem.elim (fun hmem => hmem) fun heq => heq ▸ hpart⟩
  · rw [value_answer_of_new (h.lookup_eq_none hpart)]
    refine ⟨?_, fun part => ?_⟩
    · rw [List.map_append, List.nodup_append]
      refine ⟨h.nodup, by simp, fun a ha b hb => ?_⟩
      rw [List.mem_singleton.1 hb]
      rintro rfl
      exact hpart ((h.mem _).1 ha)
    · rw [List.map_append, List.mem_append, List.mem_append, h.mem]
      rfl

theorem answerAll (h : c.Remembers parts) (calls : List FontCall) :
    (c.answerAll calls).Remembers (parts ++ calls.map FontCall.part) := by
  induction calls generalizing c parts with
  | nil => rwa [List.map_nil, List.append_nil]
  | cons call calls ih =>
    rw [List.map_cons, List.append_cons]
    exact ih (h.answer call)

end Remembers

theorem remembers_after (provider : σ) (calls : List FontCall) :
    (after provider calls).Remembers (calls.map FontCall.part) := by
  have hempty : Remembers (⟨provider, []⟩ : FontCache σ) [] := ⟨List.nodup_nil, fun _ => Iff.rfl⟩
  exact hempty.answerAll calls

/-- The length of a cache is the number of some parts, and the families are listed by exactly these
parts, each one once and in order. -/
structure Lists (c : FontCache σ) (parts : List String) : Prop where
  length : c.length = parts.toFinset.card
  sorted : (c.families.map Prod.fst).Pairwise (· < ·)
  mem (part : String) : part ∈ c.families.map Prod.fst ↔ part ∈ parts

theorem Remembers.lists {parts : List String} (h : c.Remembers parts) : c.Lists parts := by
  have hperm : (c.families.map Prod.fst).Perm (c.fonts.map Prod.fst) := by
    refine ((List.mergeSort_perm _ _).map Prod.fst).trans ?_
    rw [List.map_map]
    exact List.Perm.refl _
  refine ⟨?_, ?_, fun part => (hperm.mem_iff).trans (h.mem part)⟩
  · have hparts : parts.toFinset = (c.fonts.map Prod.fst).toFinset := by
      ext part
      rw [List.mem_toFinset, List.mem_toFinset, h.mem]
    rw [hparts, List.toFinset_card_of_nodup h.nodup, List.length_map]
    rfl
  · have hsorted : (c.families.map Prod.fst).Pairwise (· ≤ ·) := by
      have hle : c.families.Pairwise fun a b => decide (a.1 ≤ b.1) :=
        List.pairwise_mergeSort
          (by simpa using fun _ _ _ => String.le_trans) (by simpa using String.le_total) _
      exact List.pairwise_map.2 (hle.imp of_decide_eq_true)
    have hnodup : (c.families.map Prod.fst).Nodup := hperm.nodup_iff.2 h.nodup
    refine (hsorted.and hnodup).imp fun hab => ?_
    exact String.not_le.1 fun hba => hab.2 (String.le_antisymm hab.1 hba)

/-! ## Ids -/

/-- The ids of a cache come from its provider, and each one belongs to one part. -/
structure Apart (provider : σ) (c : FontCache σ) : Prop where
  later : Later provider c.provider
  issued {part : String} {id : FontId} (h : c.fonts.lookup part = some (some id)) :
    Issued provider c.provider id
  unique {part other : String} {id : FontId} (h : c.fonts.lookup part = some (some id))
    (hother : c.fonts.lookup other = some (some id)) : part = other

namespace Apart

variable {provider : σ}

/-- What a load issues is not in the cache. -/
theorem lookup_ne (hprovider : NeverRepeats provider) (h : Apart provider c) {archive : Archive}
    {part other : String} {id : FontId} (hload : (load c.provider archive part).value.1 = some id) :
    c.fonts.lookup other ≠ some (some id) := by
  intro hother
  obtain ⟨later, data, hlater, hid, -⟩ := issued_load hload
  exact hprovider later data id ((h.issued hother).later hlater) hid

theorem answer (hprovider : NeverRepeats provider) (h : Apart provider c) (call : FontCall) :
    Apart provider (c.answer call).value.2 := by
  cases hcall : c.fonts.lookup call.part with
  | some id =>
    rw [answer_of_known hcall]
    exact h
  | none =>
    have hlater := later_answer c call
    have hlookup := lookup_answer_of_new hcall
    refine ⟨h.later.trans hlater, fun {part id} hid => ?_, fun {part other id} hid hother => ?_⟩
    · rw [hlookup] at hid
      split at hid
      · obtain ⟨later, data, hload, hissued, hprovider⟩ := issued_load (Option.some.inj hid)
        refine ⟨later, data, h.later.trans hload, hissued, ?_⟩
        rw [value_answer_of_new hcall, hprovider]
        exact .refl
      · exact (h.issued hid).later hlater
    · rw [hlookup] at hid hother
      by_cases hpart : part = call.part <;> by_cases hothers : other = call.part
      · rw [hpart, hothers]
      · rw [if_pos hpart] at hid
        rw [if_neg hothers] at hother
        exact absurd hother (h.lookup_ne hprovider (Option.some.inj hid))
      · rw [if_neg hpart] at hid
        rw [if_pos hothers] at hother
        exact absurd hid (h.lookup_ne hprovider (Option.some.inj hother))
      · rw [if_neg hpart] at hid
        rw [if_neg hothers] at hother
        exact h.unique hid hother

theorem answerAll (hprovider : NeverRepeats provider) (h : Apart provider c)
    (calls : List FontCall) : Apart provider (c.answerAll calls) := by
  induction calls generalizing c with
  | nil => exact h
  | cons call calls ih => exact ih (h.answer hprovider call)

end Apart

theorem apart_after {provider : σ} (hprovider : NeverRepeats provider) (calls : List FontCall) :
    Apart provider (after provider calls) := by
  have hempty : Apart provider (⟨provider, []⟩ : FontCache σ) :=
    ⟨.refl, (nomatch ·), fun h => nomatch h⟩
  exact hempty.answerAll hprovider calls

/-! ## Histories -/

/-- How a call is answered behind others. -/
structure AnswersOnce (provider : σ) (past : List FontCall) (call : FontCall) : Prop where
  /-- The answer to an earlier call for the part is repeated, in the size that is asked for. -/
  again {before between : List FontCall} {first : FontCall}
    (hpast : past = before ++ first :: between) (hpart : first.part = call.part) :
    ((after provider past).answer call).value.1 =
      ((after provider before).answer first).value.1.map fun font => ⟨font.id, call.size⟩
  /-- Then nothing is looked up or loaded. -/
  known (h : call.part ∈ past.map FontCall.part) :
    ((after provider past).answer call).lookUps = [] ∧
      ((after provider past).answer call).loads = []
  /-- The first call for a part looks it up once, and loads its data at most twice. -/
  new (h : call.part ∉ past.map FontCall.part) :
    ((after provider past).answer call).lookUps = [call.part] ∧
      ((after provider past).answer call).loads.length ≤ 2
  size {font : Font} (h : ((after provider past).answer call).value.1 = some font) :
    font.size = call.size

theorem answersOnce_after (provider : σ) (past : List FontCall) (call : FontCall) :
    AnswersOnce provider past call where
  again {before between first} hpast hpart := by
    have hlookup := lookup_after provider before first between
    rw [hpast, answer_of_known (hpart ▸ hlookup), Option.map_map]
    rfl
  known h := by
    obtain ⟨id, hid⟩ := (remembers_after provider past).exists_lookup h
    rw [answer_of_known hid]
    exact ⟨rfl, rfl⟩
  new h := by
    have hcall := (remembers_after provider past).lookup_eq_none h
    unfold lookUps loads
    rw [view_answer_of_new hcall fun _ _ => rfl, view_answer_of_new hcall fun _ _ => rfl]
    exact ⟨lookUps_load _ call.archive call.part, length_loads_load_le _ call.archive call.part⟩
  size h := size_of_answer h

/-- **The first call for a part decides.** A cache that begins empty looks a part up for the first
call alone, once, and loads its data at most twice. All later calls answer the same, in their own
size. The cache has as many entries as there were parts called for, and lists these in order. If the
provider never repeats an id, the fonts of two parts have two ids. -/
theorem first_call_decides (provider : σ) (past : List FontCall) (call : FontCall) :
    AnswersOnce provider past call ∧
      (after provider past).Lists (past.map FontCall.part) ∧
      (NeverRepeats provider → ∀ before first between font other,
        past = before ++ first :: between → first.part ≠ call.part →
        ((after provider before).answer first).value.1 = some font →
        ((after provider past).answer call).value.1 = some other → font.id ≠ other.id) := by
  refine ⟨answersOnce_after provider past call, (remembers_after provider past).lists, ?_⟩
  intro hprovider before first between font other hpast hparts hfont hother hid
  have hlast := (apart_after hprovider past).answer hprovider call
  have hfirst : (after provider past).fonts.lookup first.part = some (some font.id) := by
    rw [hpast, lookup_after, hfont]
    rfl
  have hcall : ((after provider past).answer call).value.2.fonts.lookup call.part =
      some (some font.id) := by
    rw [lookup_answer, hother, hid]
    rfl
  exact hparts (hlast.unique (lookup_answer_of_some hfirst call) hcall)

/-- A provider that takes anything for a font, and numbers the fonts. -/
structure Numbering where
  next : Nat := 0

instance : FontProvider Numbering where
  load n _ := (some ⟨n.next⟩, ⟨n.next + 1⟩)
  familyName _ _ := none
  metrics _ _ := none
  advance _ _ _ := none
  shape _ _ _ := []
  outline _ _ _ := none

theorem Numbering.neverRepeats (n : Numbering) : NeverRepeats n :=
  neverRepeats_of_count Numbering.next (fun _ _ => Nat.le_succ _) (fun n _ _ h => by
    cases h
    exact ⟨Nat.le_refl _, Nat.lt_succ_self _⟩) n

/-- Two parts of the same data have two fonts. -/
theorem first_call_decides_twoParts :
    let archive : Archive := ⟨fun _ => some ByteArray.empty⟩
    let first : FontCall := ⟨archive, "a.ttf", 8⟩
    let call : FontCall := ⟨archive, "b.ttf", 12⟩
    let provider : Numbering := {}
    NeverRepeats provider ∧ first.part ≠ call.part ∧
      ∃ font other, ((after provider []).answer first).value.1 = some font ∧
        ((after provider [first]).answer call).value.1 = some other ∧ font.id ≠ other.id := by
  intro archive first call provider
  have hparts : first.part ≠ call.part := by decide
  have hapart := (first_call_decides provider [first] call).2.2 provider.neverRepeats
  exact ⟨provider.neverRepeats, hparts, _, _, rfl, rfl, hapart [] first [] _ _ rfl hparts rfl rfl⟩

end FontCache

/-- A database gives each font an id of its own. -/
theorem FontDatabase.neverRepeats (d : FontDatabase) : NeverRepeats d := by
  refine neverRepeats_of_count (fun d => d.issued.size) (fun d file => ?_) (fun d file id h => ?_) d
  · show d.issued.size ≤ (d.load file).2.issued.size
    unfold load
    split <;> simp
  · change (d.load file).1 = some id at h
    show d.issued.size ≤ id.index ∧ id.index < (d.load file).2.issued.size
    unfold load at h ⊢
    split at h
    · cases h
    · cases h
      simp

end Xps
