import Mathlib.Data.String.Basic
import Xps.Text.Split

/-!
# Texts as bytes

The bytes of a text are those of its characters, one character after the other. A character of ASCII
is one byte, and all other characters are bytes of their own class. So a test on bytes that treats
them all alike cuts a text at a character (`Bytewise.takeWhile_flatMap`).

The places between characters are those that lie behind the bytes of the characters in front
(`isValid_byteLength`).
-/

namespace Xps.Text

/-! ## Lengths -/

@[simp] theorem byteLength_nil : byteLength [] = 0 := rfl

@[simp] theorem byteLength_cons (c : Char) (s : List Char) :
    byteLength (c :: s) = c.utf8Size + byteLength s := rfl

theorem byteLength_eq_utf8Len (s : List Char) : byteLength s = String.utf8Len s := by
  induction s with
  | nil => rfl
  | cons c s ih => rw [byteLength_cons, String.utf8Len_cons, ih, Nat.add_comm]

@[simp] theorem byteLength_append (s t : List Char) :
    byteLength (s ++ t) = byteLength s + byteLength t := by
  simp only [byteLength_eq_utf8Len, String.utf8Len_append]

theorem byteLength_toList (text : String) : byteLength text.toList = text.utf8ByteSize := by
  rw [byteLength_eq_utf8Len, String.utf8Len_toList]

/-! ## Bytes -/

theorem toList_toUTF8 (text : String) :
    text.toUTF8.data.toList = text.toList.flatMap String.utf8EncodeChar := by
  conv => lhs; rw [← String.ofList_toList (s := text)]
  exact List.toList_data_toByteArray

theorem length_flatMap_utf8EncodeChar (s : List Char) :
    (s.flatMap String.utf8EncodeChar).length = byteLength s := by
  induction s with
  | nil => rfl
  | cons c s ih =>
    rw [List.flatMap_cons, List.length_append, String.length_utf8EncodeChar, ih, byteLength_cons]

/-- A character of ASCII is one byte of the same number. All bytes of others have higher numbers. -/
theorem mem_utf8EncodeChar {c : Char} {b : UInt8} (h : b ∈ String.utf8EncodeChar c) :
    (c.toNat < 128 ∧ b.toNat = c.toNat) ∨ (128 ≤ c.toNat ∧ 128 ≤ b.toNat) := by
  have hnumber : c.val.toNat = c.toNat := rfl
  have hhigh (n : Nat) (h₁ : 128 ≤ n) (h₂ : n < 256) : 128 ≤ (UInt8.ofNat n).toNat := by
    rw [UInt8.toNat_ofNat']
    omega
  simp only [String.utf8EncodeChar, hnumber] at h
  split at h
  · rw [List.mem_singleton.1 h, UInt8.toNat_ofNat']
    omega
  · refine .inr ⟨by omega, ?_⟩
    -- The first byte of two, three or four is marked from 192 on, and the others from 128 on.
    split at h
    · rcases List.mem_pair.1 h with rfl | rfl <;> apply hhigh <;> omega
    · split at h <;> simp only [List.mem_cons, List.not_mem_nil, or_false] at h
      · rcases h with rfl | rfl | rfl <;> apply hhigh <;> omega
      · rcases h with rfl | rfl | rfl | rfl <;> apply hhigh <;> omega

theorem exists_utf8EncodeChar (c : Char) : ∃ b bs, String.utf8EncodeChar c = b :: bs := by
  refine List.exists_cons_of_length_pos ?_
  rw [String.length_utf8EncodeChar]
  exact c.utf8Size_pos

/-- Each byte of a character is told of what is told of the character. -/
def Bytewise (p : UInt8 → Bool) (q : Char → Bool) : Prop :=
  ∀ c, ∀ b ∈ String.utf8EncodeChar c, p b = q c

theorem Bytewise.takeWhile_flatMap {p : UInt8 → Bool} {q : Char → Bool} (h : Bytewise p q)
    (s : List Char) :
    (s.flatMap String.utf8EncodeChar).takeWhile p =
      (s.takeWhile q).flatMap String.utf8EncodeChar := by
  induction s with
  | nil => rfl
  | cons c s ih =>
    rw [List.flatMap_cons]
    cases hq : q c with
    | true =>
      rw [List.takeWhile_cons_of_pos hq, List.flatMap_cons, ← ih]
      exact List.takeWhile_append_of_pos fun b hb => (h c b hb).trans hq
    | false =>
      rw [List.takeWhile_cons_of_neg (by rw [hq]; decide)]
      obtain ⟨b, bs, hbytes⟩ := exists_utf8EncodeChar c
      have hb : p b = false := (h c b (by rw [hbytes]; exact List.mem_cons_self ..)).trans hq
      rw [hbytes, List.cons_append, List.takeWhile_cons_of_neg (by rw [hb]; decide)]
      rfl

/-! ## Places between characters -/

theorem isValid_byteLength {text : String} {before after : List Char}
    (h : text.toList = before ++ after) : String.Pos.Raw.IsValid text ⟨byteLength before⟩ := by
  refine String.Pos.Raw.isValid_iff_exists_append.2 ⟨.ofList before, .ofList after, ?_, ?_⟩
  · rw [← String.ofList_append, ← h, String.ofList_toList]
  · rw [String.rawEndPos_ofList, byteLength_eq_utf8Len]

theorem extract_byteLength {text : String} {before slice after : List Char}
    (h : text.toList = before ++ slice ++ after) :
    String.Pos.Raw.extract text ⟨byteLength before⟩ ⟨byteLength (before ++ slice)⟩ =
      .ofList slice := by
  rw [← String.ofList_toList (s := text), h, byteLength_append, byteLength_eq_utf8Len,
    byteLength_eq_utf8Len]
  exact String.extract_of_valid before slice after

end Xps.Text
