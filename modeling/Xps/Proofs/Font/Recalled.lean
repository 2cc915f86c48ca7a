import Xps.Proofs.Font.Embedded

/-!
# Fonts that a cache recalls

A cache may remember fonts of another archive than the one it is used with. Still, what it answers
for a name is fixed (`FontCache.Recalls`): for a name that it remembers this is what it remembers,
and for any other the embedded font of the name. Resolving one name changes nothing about the
others.
-/

namespace Xps.FontCache

open FontProvider

variable {σ : Type} [FontProvider σ] {answersOf : ByteArray → Option FontAnswers}
  {archive : Archive} {font : String → Option FontAnswers} {c : FontCache σ}

/-- The answers that a cache gives for each name in an archive. -/
structure Recalls (answersOf : ByteArray → Option FontAnswers) (archive : Archive)
    (font : String → Option FontAnswers) (c : FontCache σ) : Prop where
  determined : Determines answersOf c.provider
  remembered {name : String} {id : Option FontId} (h : c.fonts.lookup name = some id) {latest : σ}
    (hlatest : Later c.provider latest) : id.map (answers latest) = font name
  new {name : String} (h : c.fonts.lookup name = none) : font name = embedded answersOf archive name

theorem Recalls.resolve (h : Recalls answersOf archive font c) (name : String) (size : Float32) :
    Recalls answersOf archive font (c.resolve archive name size).value.2 := by
  rw [value_resolve]
  cases hlookup : c.fonts.lookup name with
  | some id => exact h
  | none =>
    have hlater := later_load c.provider archive name
    refine ⟨h.determined.later hlater, fun {other id} hid latest hlatest => ?_,
      fun {other} hother => ?_⟩
    -- A name is either an old one, whose font has moved on with the provider, or the new one.
    · rw [List.lookup_append] at hid
      rcases Option.or_eq_some_iff.1 hid with hid | ⟨hother, hid⟩
      · exact h.remembered hid (hlater.trans hlatest)
      · by_cases hname : other = name
        · subst hname
          have hid : (load c.provider archive other).value.1 = id := by simpa using hid
          rw [← hid, h.new hother]
          exact answers_load h.determined other hlatest
        · simp [List.lookup_cons, beq_eq_false_iff_ne.2 hname] at hid
    · rw [List.lookup_append] at hother
      exact h.new (Option.or_eq_none_iff.1 hother).1

/-- A name is resolved to the font that the cache recalls. -/
theorem Recalls.sized_resolve (h : Recalls answersOf archive font c) (name : String)
    (size : Float32) :
    (c.resolve archive name size).value.1.map
        (sized (c.resolve archive name size).value.2.provider) = (font name).map (·, size) := by
  rw [value_resolve]
  cases hlookup : c.fonts.lookup name with
  | some id =>
    have hid := h.remembered hlookup .refl
    rw [← hid]
    cases id <;> rfl
  | none =>
    have hload : (load c.provider archive name).value.1.map
        (answers (load c.provider archive name).value.2) = font name := by
      rw [h.new hlookup]
      exact answers_load h.determined name .refl
    dsimp only
    rw [← hload]
    cases (load c.provider archive name).value.1 <;> rfl

/-- Two caches recall the same fonts. -/
abbrev RecallAlike {τ : Type} [FontProvider τ] (answersOf : ByteArray → Option FontAnswers)
    (archive : Archive) (font : String → Option FontAnswers) (c : FontCache σ)
    (d : FontCache τ) : Prop :=
  Recalls answersOf archive font c ∧ Recalls answersOf archive font d

/-! ## Caches that know their archive -/

/-- A cache knows an archive exactly if it recalls the embedded fonts. -/
theorem knows_iff_recalls :
    Knows answersOf archive c ↔ Recalls answersOf archive (embedded answersOf archive) c :=
  ⟨fun h => ⟨h.determined, fun hid _ hlatest => h.remembered _ _ hid _ hlatest, fun _ => rfl⟩,
    fun h => ⟨h.determined, fun _ _ hid _ hlatest => h.remembered hid hlatest⟩⟩

/-! ## Caches with a history -/

/-- Each font that a cache remembers has answers that stay. -/
structure Steady (answersOf : ByteArray → Option FontAnswers) (c : FontCache σ) : Prop where
  determined : Determines answersOf c.provider
  remembered {name : String} {id : Option FontId} (h : c.fonts.lookup name = some id) :
    ∃ font, ∀ {latest : σ}, Later c.provider latest → id.map (answers latest) = font

theorem steady_empty {provider : σ} (h : Determines answersOf provider) :
    Steady answersOf (⟨provider, []⟩ : FontCache σ) :=
  ⟨h, fun h => nomatch h⟩

theorem Recalls.steady (h : Recalls answersOf archive font c) : Steady answersOf c :=
  ⟨h.determined, fun {name} _ hid => ⟨font name, h.remembered hid⟩⟩

/-- The answers that a cache gives now for each name in an archive. -/
def recalled (answersOf : ByteArray → Option FontAnswers) (archive : Archive) (c : FontCache σ)
    (name : String) : Option FontAnswers :=
  (c.fonts.lookup name).elim (embedded answersOf archive name) (Option.map (answers c.provider))

/-- What is remembered of any archives is recalled in this one. -/
theorem Steady.recalls (h : Steady answersOf c) (archive : Archive) :
    Recalls answersOf archive (recalled answersOf archive c) c := by
  refine ⟨h.determined, fun {name id} hid latest hlatest => ?_, fun {name} hname => ?_⟩
  · obtain ⟨answered, hanswered⟩ := h.remembered hid
    have hnow : recalled answersOf archive c name = id.map (answers c.provider) := by
      unfold recalled
      rw [hid]
      rfl
    rw [hnow, hanswered hlatest, hanswered .refl]
  · unfold recalled
    rw [hname]
    rfl

/-- A cache stays steady, whichever archives it is used with. -/
theorem Steady.resolve (h : Steady answersOf c) (archive : Archive) (name : String)
    (size : Float32) : Steady answersOf (c.resolve archive name size).value.2 :=
  ((h.recalls archive).resolve name size).steady

end Xps.FontCache
