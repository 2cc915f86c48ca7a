import Xps.Proofs.Font.GuidText

/-!
# The digits of a GUID as a key

A GUID is stored in another order than it is written, and its key takes it in a third order. Both
together are the written order from back to front: the first byte of a font is mixed with the last
two digits of the text (`byteAt?_undashed`). So mixing depends on the digits of the text alone,
where letters of either case are the same digit, and texts with other digits are other GUIDs
(`parse?_eq_iff`).
-/

namespace Xps.Guid

/-! ## Digits -/

/-- Capital letters become small ones. -/
def foldCase (c : UInt8) : UInt8 := if 0x41 ≤ c ∧ c ≤ 0x5a then c + 0x20 else c

/-- The hex digits by their values, with small letters. -/
def hexDigits : List UInt8 := "0123456789abcdef".toUTF8.data.toList

theorem forall_byte {P : UInt8 → Prop} (h : ∀ n < 256, P (.ofNat n)) (c : UInt8) : P c := by
  have hc := h c.toNat c.toNat_lt
  rwa [UInt8.ofNat_toNat] at hc

@[simp] theorem hexDigit?_foldCase : ∀ c, hexDigit? (foldCase c) = hexDigit? c :=
  forall_byte (by decide +kernel)

theorem hexDigit?_hexDigits : ∀ v < 16, hexDigits[v]?.bind hexDigit? = some (.ofNat v) := by
  decide +kernel

theorem getElem?_hexDigits : ∀ c, ∀ v ∈ hexDigit? c, hexDigits[v.toNat]? = some (foldCase c) :=
  forall_byte (by decide +kernel)

/-- A hex digit, in either case, has the value that is its place among all of them. -/
theorem hexDigit?_eq_some_iff {c v : UInt8} :
    hexDigit? c = some v ↔ hexDigits[v.toNat]? = some (foldCase c) := by
  refine ⟨getElem?_hexDigits c v, fun h => ?_⟩
  have hlt : v.toNat < 16 := (List.getElem?_eq_some_iff.1 h).1
  have hvalue := hexDigit?_hexDigits v.toNat hlt
  rwa [h, Option.bind_some, hexDigit?_foldCase, UInt8.ofNat_toNat] at hvalue

theorem lt_of_hexDigit? {c v : UInt8} (h : hexDigit? c = some v) : v.toNat < 16 :=
  (List.getElem?_eq_some_iff.1 (hexDigit?_eq_some_iff.1 h)).1

/-- Two digits are the same up to case if they have the same value. -/
theorem foldCase_eq_iff {c d v : UInt8} (hc : hexDigit? c = some v) :
    foldCase c = foldCase d ↔ hexDigit? d = some v := by
  rw [hexDigit?_eq_some_iff] at hc ⊢
  rw [hc, Option.some_inj]

/-! ## Bytes -/

theorem byteAt?_eq_some_iff {bytes : ByteArray} {offset : Nat} {b : UInt8} :
    byteAt? bytes offset = some b ↔
      ∃ high low, bytes[offset]?.bind hexDigit? = some high ∧
        bytes[offset + 1]?.bind hexDigit? = some low ∧ 16 * high + low = b := by
  have hbyte : byteAt? bytes offset = (bytes[offset]?.bind hexDigit?).bind fun high =>
      (bytes[offset + 1]?.bind hexDigit?).bind fun low => some (16 * high + low) := by
    unfold byteAt?
    rw [Option.bind_assoc]
    simp only [Option.bind_assoc]
    rfl
  rw [hbyte]
  simp only [Option.bind_eq_some_iff, Option.some_inj]
  grind

theorem digits_inj {a b c d : UInt8} (ha : a.toNat < 16) (hb : b.toNat < 16) (hc : c.toNat < 16)
    (hd : d.toNat < 16) (h : 16 * a + b = 16 * c + d) : a = c ∧ b = d := by
  have h := congrArg UInt8.toNat h
  simp only [UInt8.toNat_add, UInt8.toNat_mul, UInt8.reduceToNat] at h
  exact ⟨UInt8.toNat_inj.1 (by omega), UInt8.toNat_inj.1 (by omega)⟩

/-! ## Reading order -/

/-- The digits of a text in reading order, without the dashes. -/
def undashed (bytes : ByteArray) : ByteArray :=
  ⟨((bytes.data.toList.take 36).filter (· != 0x2d)).toArray⟩

/-- Where the digits stand. -/
def digitPlaces : List Nat := (List.range 36).filter (· ∉ dashOffsets)

theorem mem_digitPlaces {i : Nat} : i ∈ digitPlaces ↔ i < 36 ∧ i ∉ dashOffsets := by
  simp [digitPlaces]

theorem getElem?_toList (bytes : ByteArray) (i : Nat) : bytes.data.toList[i]? = bytes[i]? := by
  by_cases h : i < bytes.size
  · rw [getElem?_pos bytes i h, Array.getElem?_toList]
    exact getElem?_pos bytes.data i h
  · rw [getElem?_neg bytes i h, Array.getElem?_toList]
    exact getElem?_neg bytes.data i h

theorem Begins.exists_digit {bytes : ByteArray} (h : Begins bytes) {i : Nat}
    (hi : i ∈ digitPlaces) : ∃ c v, bytes[i]? = some c ∧ hexDigit? c = some v := by
  obtain ⟨hlt, hdash⟩ := mem_digitPlaces.1 hi
  obtain ⟨v, hv⟩ := Option.isSome_iff_exists.1 (h.digit i hlt hdash)
  obtain ⟨c, hc, hdigit⟩ := Option.bind_eq_some_iff.1 hv
  exact ⟨c, v, hc, hdigit⟩

theorem take_toList {bytes : ByteArray} {n : Nat} (h : n ≤ bytes.size) :
    bytes.data.toList.take n = (List.range n).map fun i => bytes[i]?.getD 0 := by
  have hlength : n ≤ bytes.data.toList.length := h
  refine List.ext_getElem ?_ fun i hi _ => ?_
  · rw [List.length_take, List.length_map, List.length_range, Nat.min_eq_left hlength]
  have hi : i < bytes.data.toList.length := by
    rw [List.length_take] at hi
    omega
  rw [List.getElem_map, List.getElem_range, ← getElem?_toList, List.getElem_take,
    getElem?_pos bytes.data.toList i hi, Option.getD_some]

theorem toList_undashed {bytes : ByteArray} (h : Begins bytes) :
    (undashed bytes).data.toList = digitPlaces.map fun i => bytes[i]?.getD 0 := by
  have hdash : ∀ i ∈ List.range 36,
      ((· != 0x2d) ∘ fun i => bytes[i]?.getD 0) i = decide (i ∉ dashOffsets) := by
    intro i hi
    by_cases hi' : i ∈ dashOffsets
    · simp [h.dash i hi', hi']
    · obtain ⟨c, v, hc, hv⟩ := h.exists_digit (mem_digitPlaces.2 ⟨List.mem_range.1 hi, hi'⟩)
      have hne : c ≠ 0x2d := by
        rintro rfl
        cases hv
      simp [hc, hi', hne]
  unfold undashed digitPlaces
  rw [take_toList h.size_le, List.filter_map, List.filter_congr hdash]

theorem getElem?_undashed {bytes : ByteArray} (h : Begins bytes) {k i : Nat}
    (hi : digitPlaces[k]? = some i) : (undashed bytes)[k]? = bytes[i]? := by
  obtain ⟨c, -, hc, -⟩ := h.exists_digit (List.mem_of_getElem? hi)
  rw [← getElem?_toList, toList_undashed h, List.getElem?_map, hi, Option.map_some, hc,
    Option.getD_some]

/-! ## GUIDs -/

theorem mapM_eq_some_iff {α β : Type} {n : Nat} {f : α → Option β} {v : Vector α n}
    {w : Vector β n} : v.mapM f = some w ↔ ∀ i (h : i < n), f v[i] = some w[i] := by
  have hlist (l : List α) (l' : List β) : l.mapM f = some l' ↔ l.map f = l'.map some := by
    induction l generalizing l' with
    | nil => cases l' <;> simp
    | cons a l ih =>
      rw [List.mapM_cons]
      cases l' with
      | nil => cases f a <;> cases l.mapM f <;> simp
      | cons b l' =>
        rw [List.map_cons, List.map_cons, List.cons.injEq, ← ih]
        cases f a <;> cases l.mapM f <;> simp
  have htoList : v.mapM f = some w ↔ v.toList.mapM f = some w.toList := by
    rw [Vector.toList, ← Array.toList_mapM, ← Vector.toArray_mapM]
    cases v.mapM f <;> simp [Vector.toList]
  rw [htoList, hlist]
  constructor
  · intro h i hi
    have hget := congrArg (·[i]?) h
    simpa [hi] using hget
  · intro h
    refine List.ext_getElem (by simp) fun i hi _ => ?_
    simpa using h i (by simpa using hi)

/-- A GUID is read byte by byte. -/
theorem parse?_eq_some_iff {text : String} {guid : Guid} :
    parse? text = some guid ↔ Begins text.toUTF8 ∧
      ∀ j (h : j < 16), byteAt? text.toUTF8 digitOffsets[j] = some guid[j] := by
  rw [← mapM_eq_some_iff, ← parse?_isSome_iff]
  constructor
  · intro h
    refine ⟨Option.isSome_of_eq_some h, ?_⟩
    unfold parse? at h
    dsimp only at h
    split at h
    · cases h
    · exact h
  · rintro ⟨hsome, h⟩
    unfold parse? at hsome ⊢
    dsimp only at hsome ⊢
    split
    · rename_i hshort
      rw [if_pos hshort] at hsome
      cases hsome
    · exact h

/-- The bytes of the key are written in the text from back to front. -/
theorem byteAt?_undashed {text : String} {guid : Guid} (h : parse? text = some guid) {i : Nat}
    (hi : i < 16) : byteAt? (undashed text.toUTF8) (2 * (15 - i)) = some guid.key[i] := by
  obtain ⟨hbegins, hbytes⟩ := parse?_eq_some_iff.1 h
  -- Both orders together, for each byte of the key: the pairs of digits from back to front.
  have hplaces : ∀ i (h : i < 16), ∃ h' : keyOffsets[i] < 16,
      digitPlaces[2 * (15 - i)]? = some digitOffsets[keyOffsets[i]] ∧
        digitPlaces[2 * (15 - i) + 1]? = some (digitOffsets[keyOffsets[i]] + 1) := by decide
  obtain ⟨hlt, hhigh, hlow⟩ := hplaces i hi
  have hkey : guid.key[i] = guid[keyOffsets[i]] := by
    unfold key
    rw [Vector.getElem_map, getElem?_pos guid _ hlt, Option.getD_some]
  rw [hkey, ← hbytes _ hlt]
  unfold byteAt?
  rw [getElem?_undashed hbegins hhigh, getElem?_undashed hbegins hlow]

/-- The digits of two texts are the same up to case if they have the same values. -/
theorem map_foldCase_undashed_eq_iff {bytes other : ByteArray} (h : Begins bytes)
    (h' : Begins other) :
    (undashed bytes).data.map foldCase = (undashed other).data.map foldCase ↔
      ∀ i ∈ digitPlaces, bytes[i]?.bind hexDigit? = other[i]?.bind hexDigit? := by
  rw [← Array.toList_inj, Array.toList_map, Array.toList_map, toList_undashed h,
    toList_undashed h', List.map_map, List.map_map, List.map_inj_left]
  refine forall₂_congr fun i hi => ?_
  obtain ⟨c, v, hc, hv⟩ := h.exists_digit hi
  obtain ⟨d, w, hd, hw⟩ := h'.exists_digit hi
  rw [Function.comp_apply, Function.comp_apply, hc, hd, Option.getD_some, Option.getD_some,
    foldCase_eq_iff hv, Option.bind_some, Option.bind_some, hv]
  exact eq_comm

/-- Texts that begin with GUIDs give the same one if they have the same digits up to case. -/
theorem parse?_eq_iff {text other : String} (h : Begins text.toUTF8) (h' : Begins other.toUTF8) :
    parse? text = parse? other ↔
      (undashed text.toUTF8).data.map foldCase = (undashed other.toUTF8).data.map foldCase := by
  obtain ⟨guid, hguid⟩ := Option.isSome_iff_exists.1 (parse?_isSome_iff.2 h)
  have hbytes := (parse?_eq_some_iff.1 hguid).2
  rw [map_foldCase_undashed_eq_iff h h', hguid, eq_comm, parse?_eq_some_iff, and_iff_right h']
  constructor
  · intro hother i hi
    have hpairs : ∀ i ∈ digitPlaces, ∃ j, ∃ h : j < 16,
        i = digitOffsets[j] ∨ i = digitOffsets[j] + 1 := by decide
    obtain ⟨j, hj, hplace⟩ := hpairs i hi
    obtain ⟨high, low, hhigh, hlow, hbyte⟩ := byteAt?_eq_some_iff.1 (hbytes j hj)
    obtain ⟨high', low', hhigh', hlow', hbyte'⟩ := byteAt?_eq_some_iff.1 (hother j hj)
    have hvalue {o : Option UInt8} {v : UInt8} (ho : o.bind hexDigit? = some v) : v.toNat < 16 := by
      obtain ⟨c, -, hc⟩ := Option.bind_eq_some_iff.1 ho
      exact lt_of_hexDigit? hc
    obtain ⟨rfl, rfl⟩ := digits_inj (hvalue hhigh) (hvalue hlow) (hvalue hhigh') (hvalue hlow')
      (hbyte.trans hbyte'.symm)
    rcases hplace with rfl | rfl
    · rw [hhigh, hhigh']
    · rw [hlow, hlow']
  · intro hsame j hj
    have hplaces : ∀ j (h : j < 16), digitOffsets[j] ∈ digitPlaces ∧
        digitOffsets[j] + 1 ∈ digitPlaces := by decide
    obtain ⟨hhigh, hlow⟩ := hplaces j hj
    have hbyte := byteAt?_eq_some_iff.1 (hbytes j hj)
    rw [hsame _ hhigh, hsame _ hlow] at hbyte
    exact byteAt?_eq_some_iff.2 hbyte

/-! ## Mixing -/

/-- The first sixteen bytes of data are mixed with a key, and the next sixteen once more. -/
structure MixedWith (key : Vector UInt8 16) (data mixed : ByteArray) : Prop where
  size_eq : mixed.size = data.size
  first : ∀ i (h : i < 16), mixed[i]? = data[i]?.map (· ^^^ key[i])
  second : ∀ i (h : i < 16), mixed[i + 16]? = data[i + 16]?.map (· ^^^ key[i])
  others : ∀ i, 32 ≤ i → mixed[i]? = data[i]?

theorem mixedWith_key {guid : Guid} {data mixed : ByteArray}
    (h : guid.deobfuscate? data = some mixed) : MixedWith guid.key data mixed := by
  obtain ⟨-, rfl⟩ := deobfuscate?_eq_some_iff.1 h
  have hget (i : Nat) :
      (⟨data.data.mapIdx guid.mixAt⟩ : ByteArray)[i]? = data[i]?.map (guid.mixAt i) := by
    rw [← getElem?_toList, ← getElem?_toList]
    simp
  have hmix {i k : Nat} (hi : i < 32) (hk : i % 16 = k) (hlt : k < 16) :
      guid.mixAt i = (· ^^^ guid.key[k]) := by
    subst hk
    funext byte
    unfold mixAt obfuscatedLength
    rw [if_pos hi, getElem?_pos guid.key _ hlt, Option.getD_some]
  constructor
  case size_eq => exact Array.size_mapIdx
  case first =>
    intro i hi
    rw [hget, hmix (by omega) (Nat.mod_eq_of_lt hi) hi]
  case second =>
    intro i hi
    rw [hget, hmix (by omega) (by omega) hi]
  case others =>
    intro i hi
    have hmix : guid.mixAt i = id := by
      funext byte
      exact if_neg (Nat.not_lt_of_le hi)
    rw [hget, hmix, Option.map_id, id]

/-- **Fonts are mixed with the digits of a text from back to front.** A GUID is read from the texts
that begin with its canonical form. It is the same for the same digits up to case, and another one
for other digits. With the GUID of a text the bytes of data that is long enough are mixed with pairs
of its digits, the last pair first, and mixing once more undoes it. Data that is too short is not
mixed. -/
theorem mixes_digits_reversed (text : String) :
    (∀ c v, hexDigit? c = some v ↔ hexDigits[v.toNat]? = some (foldCase c)) ∧
    ((parse? text).isSome ↔ Begins text.toUTF8) ∧
    (∀ other : String, Begins text.toUTF8 → Begins other.toUTF8 →
      (parse? text = parse? other ↔
        (undashed text.toUTF8).data.map foldCase = (undashed other.toUTF8).data.map foldCase)) ∧
    ∀ guid, parse? text = some guid → ∃ key : Vector UInt8 16,
      (∀ i (h : i < 16), byteAt? (undashed text.toUTF8) (2 * (15 - i)) = some key[i]) ∧
      ∀ data : ByteArray,
        (data.size < 32 → guid.deobfuscate? data = none) ∧
        (32 ≤ data.size → ∃ mixed, guid.deobfuscate? data = some mixed ∧
          MixedWith key data mixed ∧ guid.deobfuscate? mixed = some data) := by
  refine ⟨fun _ _ => hexDigit?_eq_some_iff, parse?_isSome_iff,
    fun other h h' => parse?_eq_iff h h', fun guid hguid => ?_⟩
  refine ⟨guid.key, fun i hi => byteAt?_undashed hguid hi, fun data => ⟨fun hshort => ?_, ?_⟩⟩
  · rw [← Option.not_isSome_iff_eq_none, deobfuscate?_isSome_iff]
    exact Nat.not_le_of_lt hshort
  · intro hlong
    obtain ⟨mixed, hmixed⟩ := Option.isSome_iff_exists.1 (deobfuscate?_isSome_iff.2 hlong)
    exact ⟨mixed, hmixed, mixedWith_key hmixed, deobfuscate?_deobfuscate? hmixed⟩

/-- Two texts with the same digits in letters of other cases, and a font of 34 bytes. -/
theorem mixes_digits_reversed_bothCases :
    let text := "0a1B2c3D-4e5F-6071-8293-A4b5C6d7E8f9"
    let other := "0A1b2C3d-4E5f-6071-8293-a4B5c6D7e8F9 and more"
    let data := "FONT and thirty more bytes of data".toUTF8
    Begins text.toUTF8 ∧ Begins other.toUTF8 ∧ parse? text = parse? other ∧ 32 ≤ data.size ∧
      ∃ guid mixed, parse? text = some guid ∧ guid.deobfuscate? data = some mixed ∧
        mixed[0]? = data[0]?.map (· ^^^ 0xf9) ∧ mixed[17]? = data[17]?.map (· ^^^ 0xe8) ∧
        mixed[33]? = data[33]? ∧ guid.deobfuscate? mixed = some data ∧
        guid.deobfuscate? "FONT".toUTF8 = none := by
  intro text other data
  have htext : Begins text.toUTF8 := by decide +kernel
  have hother : Begins other.toUTF8 := by decide +kernel
  have hlong : 32 ≤ data.size := by decide +kernel
  have hshort : "FONT".toUTF8.size < 32 := by decide +kernel
  obtain ⟨-, hreads, hsame, hmixes⟩ := mixes_digits_reversed text
  obtain ⟨guid, hguid⟩ := Option.isSome_iff_exists.1 (hreads.2 htext)
  obtain ⟨key, hkey, hdata⟩ := hmixes guid hguid
  obtain ⟨mixed, hmixed, hwith, hback⟩ := (hdata data).2 hlong
  have hfirst : key[0] = 0xf9 := by
    have hpair : byteAt? (undashed text.toUTF8) 30 = some 0xf9 := by decide +kernel
    exact Option.some.inj ((hkey 0 (by decide)).symm.trans hpair)
  have hsecond : key[1] = 0xe8 := by
    have hpair : byteAt? (undashed text.toUTF8) 28 = some 0xe8 := by decide +kernel
    exact Option.some.inj ((hkey 1 (by decide)).symm.trans hpair)
  refine ⟨htext, hother, (hsame other htext hother).2 (by decide +kernel), hlong, guid, mixed,
    hguid, hmixed, ?_, ?_, hwith.others 33 (by decide), hback, (hdata "FONT".toUTF8).1 hshort⟩
  · rw [← hfirst]
    exact hwith.first 0 (by decide)
  · rw [← hsecond]
    exact hwith.second 1 (by decide)

end Xps.Guid
