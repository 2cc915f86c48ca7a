import Xps.Font.Obfuscation
import Xps.Proofs.Text.Utf8

/-!
# GUIDs in texts

The bytes of a text begin with a GUID when they have the dashes and the digits of its canonical form
(`Guid.Begins`), and these are the texts that a GUID is read from (`parse?_isSome_iff`). Mixing with
its key is its own inverse on data that is long enough (`deobfuscate?_deobfuscate?`).
-/

namespace Xps.Guid

/-! ## Texts that begin with a GUID -/

/-- The bytes of a text begin with a GUID in canonical form, with letters of either case. -/
structure Begins (bytes : ByteArray) : Prop where
  size_le : 36 ≤ bytes.size
  dash : ∀ i ∈ dashOffsets, bytes[i]? = some 0x2d
  digit : ∀ i < 36, i ∉ dashOffsets → (bytes[i]?.bind hexDigit?).isSome

instance : DecidablePred Begins := fun bytes =>
  decidable_of_iff
    (36 ≤ bytes.size ∧ (∀ i ∈ dashOffsets, bytes[i]? = some 0x2d) ∧
      ∀ i < 36, i ∉ dashOffsets → (bytes[i]?.bind hexDigit?).isSome)
    ⟨fun h => ⟨h.1, h.2.1, h.2.2⟩, fun h => ⟨h.1, h.2, h.3⟩⟩

theorem isSome_mapM {α β : Type} {n : Nat} (f : α → Option β) (v : Vector α n) :
    (v.mapM f).isSome ↔ ∀ a ∈ v.toList, (f a).isSome := by
  have hlist (l : List α) : (l.mapM f).isSome ↔ ∀ a ∈ l, (f a).isSome := by
    induction l with
    | nil => simp
    | cons a l ih =>
      rw [List.mapM_cons, List.forall_mem_cons, ← ih]
      cases f a <;> cases l.mapM f <;> simp
  rw [← hlist, Vector.toList, ← Array.toList_mapM, ← Vector.toArray_mapM]
  cases v.mapM f <;> rfl

theorem byteAt?_isSome_iff {bytes : ByteArray} {offset : Nat} :
    (byteAt? bytes offset).isSome ↔
      (bytes[offset]?.bind hexDigit?).isSome ∧ (bytes[offset + 1]?.bind hexDigit?).isSome := by
  unfold byteAt?
  cases bytes[offset]? with
  | none => simp
  | some high =>
    cases hhigh : hexDigit? high with
    | none => simp [hhigh]
    | some =>
      cases bytes[offset + 1]? with
      | none => simp [hhigh]
      | some low => cases hlow : hexDigit? low <;> simp [hhigh, hlow]

/-- The digits stand in pairs where no dash stands. -/
theorem digits_iff_bytes {bytes : ByteArray} :
    (∀ i < 36, i ∉ dashOffsets → (bytes[i]?.bind hexDigit?).isSome) ↔
      ∀ offset ∈ digitOffsets.toList, (byteAt? bytes offset).isSome := by
  have hfree : ∀ offset ∈ digitOffsets.toList,
      offset + 1 < 36 ∧ offset ∉ dashOffsets ∧ offset + 1 ∉ dashOffsets := by decide
  have hcovered : ∀ i < 36, i ∉ dashOffsets →
      ∃ offset ∈ digitOffsets.toList, i = offset ∨ i = offset + 1 := by decide
  constructor
  · intro h offset hoffset
    obtain ⟨hlt, hfirst, hsecond⟩ := hfree offset hoffset
    exact byteAt?_isSome_iff.2 ⟨h offset (Nat.lt_of_succ_lt hlt) hfirst, h (offset + 1) hlt hsecond⟩
  · intro h i hi hdash
    obtain ⟨offset, hoffset, rfl | rfl⟩ := hcovered i hi hdash
    · exact (byteAt?_isSome_iff.1 (h i hoffset)).1
    · exact (byteAt?_isSome_iff.1 (h offset hoffset)).2

/-- A GUID is read exactly from the texts that begin with one. -/
theorem parse?_isSome_iff {text : String} : (parse? text).isSome ↔ Begins text.toUTF8 := by
  have hdash : dashOffsets.all (fun i => text.toUTF8[i]? == some 0x2d) ↔
      ∀ i ∈ dashOffsets, text.toUTF8[i]? = some 0x2d := by
    rw [List.all_eq_true]
    simp only [beq_iff_eq]
  unfold parse?
  dsimp only
  split
  · rename_i h
    refine ⟨fun h => (nomatch h), fun hbegins => absurd h (not_or.2 ⟨?_, ?_⟩)⟩
    · exact Nat.not_lt_of_le hbegins.size_le
    · rw [hdash.2 hbegins.dash]
      decide
  · rename_i h
    obtain ⟨hsize, hall⟩ := not_or.1 h
    rw [isSome_mapM, ← digits_iff_bytes]
    refine ⟨fun hdigit => ⟨Nat.le_of_not_lt hsize, hdash.1 ?_, hdigit⟩, Begins.digit⟩
    simpa using hall

/-- The text is a GUID in canonical form and nothing else. -/
structure IsText (text : String) : Prop where
  begins : Begins text.toUTF8
  size_eq : text.toUTF8.size = 36

instance : DecidablePred IsText := fun text =>
  decidable_of_iff (Begins text.toUTF8 ∧ text.toUTF8.size = 36)
    ⟨fun h => ⟨h.1, h.2⟩, fun h => ⟨h.1, h.2⟩⟩

/-- A character of one byte that is no dash and no digit does not stand in a GUID. -/
theorem IsText.not_mem {text : String} (h : IsText text) {c : Char} (byte : UInt8)
    (hbyte : String.utf8EncodeChar c = [byte]) (hdash : byte ≠ 0x2d)
    (hdigit : hexDigit? byte = none) : c ∉ text.toList := by
  intro hc
  have hmem : byte ∈ text.toUTF8.data.toList := by
    rw [Text.toList_toUTF8]
    exact List.mem_flatMap.2 ⟨c, hc, by rw [hbyte]; exact List.mem_singleton_self byte⟩
  obtain ⟨i, hi, hget⟩ := List.getElem_of_mem hmem
  have hlt : i < 36 := h.size_eq ▸ hi
  have hget' : text.toUTF8[i]? = some byte := by
    rw [getElem?_pos text.toUTF8 i hi]
    exact congrArg some hget
  by_cases hi' : i ∈ dashOffsets
  · rw [h.begins.dash i hi'] at hget'
    exact hdash (Option.some.inj hget').symm
  · have := h.begins.digit i hlt hi'
    rw [hget', Option.bind_some, hdigit] at this
    cases this

theorem IsText.exists_parse {text : String} (h : IsText text) : ∃ guid, parse? text = some guid :=
  Option.isSome_iff_exists.1 (parse?_isSome_iff.2 h.begins)

/-! ## Mixing -/

/-- What becomes of a byte at an offset. -/
def mixAt (guid : Guid) (i : Nat) (byte : UInt8) : UInt8 :=
  if i < obfuscatedLength then byte ^^^ guid.key[i % 16]?.getD 0 else byte

@[simp] theorem mixAt_mixAt (guid : Guid) (i : Nat) (byte : UInt8) :
    guid.mixAt i (guid.mixAt i byte) = byte := by
  unfold mixAt
  split
  · rw [UInt8.xor_assoc, UInt8.xor_self, UInt8.xor_zero]
  · rfl

theorem deobfuscate?_eq_some_iff {guid : Guid} {data mixed : ByteArray} :
    guid.deobfuscate? data = some mixed ↔
      obfuscatedLength ≤ data.size ∧ mixed = ⟨data.data.mapIdx guid.mixAt⟩ := by
  unfold deobfuscate?
  split
  · rename_i h
    exact ⟨fun h => (nomatch h), fun h' => absurd h'.1 (Nat.not_le_of_lt h)⟩
  · rename_i h
    exact ⟨fun h' => ⟨Nat.le_of_not_lt h, (Option.some.inj h').symm⟩,
      fun h' => congrArg some h'.2.symm⟩

theorem deobfuscate?_isSome_iff {guid : Guid} {data : ByteArray} :
    (guid.deobfuscate? data).isSome ↔ obfuscatedLength ≤ data.size := by
  rw [Option.isSome_iff_exists]
  exact ⟨fun ⟨_, h⟩ => (deobfuscate?_eq_some_iff.1 h).1,
    fun h => ⟨_, deobfuscate?_eq_some_iff.2 ⟨h, rfl⟩⟩⟩

/-- Mixing twice with one key leaves the data as it was. -/
theorem deobfuscate?_deobfuscate? {guid : Guid} {data mixed : ByteArray}
    (h : guid.deobfuscate? data = some mixed) : guid.deobfuscate? mixed = some data := by
  obtain ⟨hsize, rfl⟩ := deobfuscate?_eq_some_iff.1 h
  refine deobfuscate?_eq_some_iff.2 ⟨?_, ?_⟩
  · show obfuscatedLength ≤ (data.data.mapIdx guid.mixAt).size
    rwa [Array.size_mapIdx]
  · ext i <;> simp

end Xps.Guid
