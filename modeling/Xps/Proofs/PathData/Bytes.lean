import Xps.PathData.Token
import Xps.Proofs.Text.Utf8

/-!
# Path data as bytes

A lexer of path data that looks at the bytes of a text one by one, and cuts a slice out of the text
for each number. A slice can fail, for there have to be characters on both sides of its ends.

In front of a character this lexer does what the lexer on characters does. It takes the same token,
no slice fails, and it comes to stand in front of a character again (`ByteLexer.exists_call`). A
number goes on over every byte but the letters, spaces and commas of ASCII, and so over all bytes of
the other characters. It never ends inside of a character.
-/

namespace Xps

open Text (byteLength Bytewise)

/-- A text, and the byte where the next token begins. -/
structure ByteLexer where
  text : String
  position : Nat := 0

namespace ByteLexer

/-! ## The lexer -/

def bytes (l : ByteLexer) : Array UInt8 := l.text.toUTF8.data

def isSpace (b : UInt8) : Bool := b == 0x20 || b == 0x09 || b == 0x0a || b == 0x0c || b == 0x0d

def isComma (b : UInt8) : Bool := b == 0x2c

def isAlpha (b : UInt8) : Bool := 0x41 ≤ b && b ≤ 0x5a || 0x61 ≤ b && b ≤ 0x7a

def isExponentMark (b : UInt8) : Bool := b == 0x45 || b == 0x65

def startsNumber (b : UInt8) : Bool :=
  0x30 ≤ b && b ≤ 0x39 || b == 0x2b || b == 0x2d || b == 0x2e

/-- A byte does not end a number that begins at some place. An exponent mark stands behind that
place. -/
def staysInNumber (start i : Nat) (b : UInt8) : Bool :=
  !(isSpace b || isComma b || (isAlpha b && !(isExponentMark b && start < i)))

/-- The first place from some place on whose byte fails a test. -/
def scan (bytes : Array UInt8) (test : Nat → UInt8 → Bool) (i : Nat) : Nat :=
  if h : i < bytes.size then
    if test i bytes[i] then scan bytes test (i + 1) else i
  else i
termination_by bytes.size - i

/-- Where the next token begins. -/
def start (l : ByteLexer) : Nat := scan l.bytes (fun _ => isSpace) l.position

/-- The ends of the slice that is cut out for a number, if one comes next. -/
def numberSlice? (l : ByteLexer) : Option (Nat × Nat) :=
  (l.bytes[l.start]?.filter startsNumber).map fun _ =>
    (l.start, scan l.bytes (staysInNumber l.start) l.start)

/-- Cuts a slice out of a text, between characters only. -/
def slice? (text : String) (start stop : Nat) : Option String :=
  if start ≤ stop ∧ String.Pos.Raw.IsValid text ⟨start⟩ ∧ String.Pos.Raw.IsValid text ⟨stop⟩ then
    some (String.Pos.Raw.extract text ⟨start⟩ ⟨stop⟩)
  else none

/-- Asks for the next token. Without a result, cutting out a slice has failed. -/
def next (l : ByteLexer) : Option (Except PathFault PathToken × ByteLexer) :=
  match l.numberSlice? with
  | some (start, stop) =>
    (slice? l.text start stop).map fun slice =>
      match Decimal.readFinite? slice.toList with
      | some x => (.ok (.number x), { l with position := stop })
      | none => (.error (.invalidNumber start), { l with position := stop })
  | none =>
    match l.bytes[l.start]? with
    | none => some (.ok .endOfInput, { l with position := l.start })
    | some b =>
      if isComma b then some (.ok .comma, { l with position := l.start + 1 })
      else if isAlpha b then
        some (.ok (.command (Char.ofNat b.toNat)), { l with position := l.start + 1 })
      else some (.error (.unexpectedChar l.start), { l with position := l.start })

/-- A call for the next token, and what comes of it. -/
structure Call (l : ByteLexer) (answer : Except PathFault PathToken) (l' : ByteLexer) : Prop where
  /-- No slice fails. -/
  next_eq : l.next = some (answer, l')
  text_eq : l'.text = l.text
  /-- Every token but the end takes a byte at least. -/
  position_lt {t : PathToken} : answer = .ok t → t.isEnd = false → l.position < l'.position
  position_le : l'.position ≤ l.text.utf8ByteSize
  /-- There are characters on both sides of the ends of a slice. -/
  slice {start stop : Nat} : l.numberSlice? = some (start, stop) →
    String.Pos.Raw.IsValid l.text ⟨start⟩ ∧ String.Pos.Raw.IsValid l.text ⟨stop⟩
  unexpected {i : Nat} : answer = .error (.unexpectedChar i) → String.Pos.Raw.IsValid l.text ⟨i⟩
  finite {x : Float32} : answer = .ok (.number x) → x.isFinite

/-! ## Classes of bytes -/

theorem bytewise_of_ascii {p : UInt8 → Bool} {q : Char → Bool} (high : Bool)
    (hascii : ∀ n < 128, p (.ofNat n) = q (.ofNat n))
    (hbytes : ∀ n < 256, 128 ≤ n → p (.ofNat n) = high)
    (hchars : ∀ c : Char, 128 ≤ c.toNat → q c = high) : Bytewise p q := by
  intro c b hb
  have hofNat : UInt8.ofNat b.toNat = b := UInt8.ofNat_toNat
  rcases Text.mem_utf8EncodeChar hb with ⟨hc, hnumber⟩ | ⟨hc, hhigh⟩
  · have h := hascii c.toNat hc
    rwa [← hnumber, hofNat, hnumber, Char.ofNat_toNat] at h
  · have h := hbytes b.toNat b.toNat_lt hhigh
    rw [hofNat] at h
    rw [h, hchars c hc]

theorem beq_eq_false {c d : Char} (hc : 128 ≤ c.toNat) (hd : d.toNat < 128) : (c == d) = false := by
  refine beq_eq_false_iff_ne.2 ?_
  rintro rfl
  omega

theorem isAlphanum_eq_false {c : Char} (h : 128 ≤ c.toNat) : c.isAlphanum = false := by
  have hgt (last : UInt32) (hlast : last.toNat < 128) : ¬ c.val ≤ last := fun hle =>
    absurd (UInt32.le_iff_toNat_le.1 hle) (Nat.not_le_of_lt (Nat.lt_of_lt_of_le hlast h))
  refine Bool.eq_false_iff.2 fun hc => ?_
  rcases Bool.or_eq_true_iff.1 hc with hletter | hdigit
  · rcases Bool.or_eq_true_iff.1 hletter with hupper | hlower
    · exact hgt 'Z'.val (by decide) (of_decide_eq_true hupper).2
    · exact hgt 'z'.val (by decide) (of_decide_eq_true (Bool.and_eq_true_iff.1 hlower).2)
  · exact hgt '9'.val (by decide) (of_decide_eq_true (Bool.and_eq_true_iff.1 hdigit).2)

theorem bytewise_isSpace : Bytewise isSpace PathLexer.isSpace :=
  bytewise_of_ascii false (by decide +kernel) (by decide +kernel) fun c hc => by
    simp [PathLexer.isSpace, beq_eq_false hc]

theorem bytewise_isComma : Bytewise isComma (· == ',') :=
  bytewise_of_ascii false (by decide +kernel) (by decide +kernel) fun c hc => by
    simp [beq_eq_false hc]

theorem bytewise_isAlpha : Bytewise isAlpha Char.isAlpha :=
  bytewise_of_ascii false (by decide +kernel) (by decide +kernel) fun c hc =>
    (Bool.or_eq_false_iff.1 (isAlphanum_eq_false hc)).1

theorem bytewise_startsNumber : Bytewise startsNumber PathLexer.startsNumber :=
  bytewise_of_ascii false (by decide +kernel) (by decide +kernel) fun c hc => by
    simp [PathLexer.startsNumber, beq_eq_false hc,
      (Bool.or_eq_false_iff.1 (isAlphanum_eq_false hc)).2]

/-- What stays in a number behind its first byte. -/
def continuesNumber (b : UInt8) : Bool :=
  !(isSpace b || isComma b || (isAlpha b && !isExponentMark b))

theorem bytewise_continuesNumber : Bytewise continuesNumber PathLexer.continuesNumber :=
  bytewise_of_ascii true (by decide +kernel) (by decide +kernel) fun c hc => by
    simp [PathLexer.continuesNumber, PathLexer.isSpace, bne, beq_eq_false hc,
      (Bool.or_eq_false_iff.1 (isAlphanum_eq_false hc)).1]

theorem staysInNumber_of_lt {start i : Nat} (h : start < i) :
    staysInNumber start i = continuesNumber := by
  funext b
  simp [staysInNumber, continuesNumber, h]

/-- The first byte of a number does not end it. -/
theorem staysInNumber_self {start : Nat} {b : UInt8} (h : startsNumber b) :
    staysInNumber start start b := by
  have hall : ∀ n < 256, startsNumber (.ofNat n) →
      (isSpace (.ofNat n) || isComma (.ofNat n) || isAlpha (.ofNat n)) = false := by
    decide +kernel
  have hb := hall b.toNat b.toNat_lt
  rw [UInt8.ofNat_toNat] at hb
  simpa [staysInNumber] using hb h

/-! ## Scanning -/

theorem scan_eq {bytes : Array UInt8} {test : Nat → UInt8 → Bool} {p : UInt8 → Bool} {i : Nat}
    (h : ∀ j, i ≤ j → test j = p) :
    scan bytes test i = i + ((bytes.toList.drop i).takeWhile p).length := by
  fun_induction scan bytes test i with
  | case1 i hi htest ih =>
    rw [ih fun j hj => h j (by omega)]
    rw [h i (Nat.le_refl i)] at htest
    have hdrop : bytes.toList.drop i = bytes[i] :: bytes.toList.drop (i + 1) :=
      List.drop_eq_getElem_cons (by simpa using hi)
    rw [hdrop, List.takeWhile_cons_of_pos htest, List.length_cons]
    omega
  | case2 i hi htest =>
    rw [h i (Nat.le_refl i)] at htest
    have hdrop : bytes.toList.drop i = bytes[i] :: bytes.toList.drop (i + 1) :=
      List.drop_eq_getElem_cons (by simpa using hi)
    rw [hdrop, List.takeWhile_cons_of_neg htest]
    rfl
  | case3 i hi =>
    rw [List.drop_eq_nil_of_le (by simpa using hi)]
    rfl

end ByteLexer

/-! ## Standing in front of a character -/

namespace PathLexer

/-- What is left is the end of a text, and the lexer stands where it begins. -/
def StandsIn (l : PathLexer) (text : String) : Prop :=
  ∃ before, text.toList = before ++ l.rest ∧ l.position = byteLength before

theorem standsIn_start (text : String) : StandsIn ⟨text.toList, 0⟩ text := ⟨[], rfl, rfl⟩

variable {l : PathLexer} {text : String}

theorem StandsIn.drop_bytes (h : l.StandsIn text) :
    text.toUTF8.data.toList.drop l.position = l.rest.flatMap String.utf8EncodeChar := by
  obtain ⟨before, htext, hposition⟩ := h
  rw [Text.toList_toUTF8, htext, List.flatMap_append, hposition,
    ← Text.length_flatMap_utf8EncodeChar, List.drop_left]

theorem StandsIn.isValid (h : l.StandsIn text) : String.Pos.Raw.IsValid text ⟨l.position⟩ := by
  obtain ⟨before, htext, hposition⟩ := h
  rw [hposition]
  exact Text.isValid_byteLength htext

theorem StandsIn.position_le (h : l.StandsIn text) : l.position ≤ text.utf8ByteSize := by
  obtain ⟨before, htext, hposition⟩ := h
  rw [hposition, ← Text.byteLength_toList, htext, Text.byteLength_append]
  exact Nat.le_add_right _ _

/-- Going on over some characters. -/
theorem StandsIn.forward (h : l.StandsIn text) {taken rest : List Char}
    (hrest : l.rest = taken ++ rest) :
    StandsIn ⟨rest, l.position + byteLength taken⟩ text := by
  obtain ⟨before, htext, hposition⟩ := h
  refine ⟨before ++ taken, ?_, ?_⟩
  · rw [htext, hrest, List.append_assoc]
  · rw [Text.byteLength_append, hposition]

theorem StandsIn.forward_one (h : l.StandsIn text) {c : Char} {cs : List Char}
    (hrest : l.rest = c :: cs) (hsize : c.utf8Size = 1) :
    StandsIn ⟨cs, l.position + 1⟩ text := by
  have hone : byteLength [c] = 1 := hsize
  have hrun : l.rest = [c] ++ cs := hrest
  exact hone ▸ h.forward hrun

theorem StandsIn.skip (h : l.StandsIn text) : l.skip.StandsIn text :=
  h.forward List.takeWhile_append_dropWhile.symm

theorem StandsIn.extract (h : l.StandsIn text) {taken rest : List Char}
    (hrest : l.rest = taken ++ rest) :
    String.Pos.Raw.extract text ⟨l.position⟩ ⟨l.position + byteLength taken⟩ = .ofList taken := by
  obtain ⟨before, htext, hposition⟩ := h
  rw [hposition, ← Text.byteLength_append]
  exact Text.extract_byteLength (by rw [htext, hrest, List.append_assoc])

end PathLexer

namespace ByteLexer

variable {l : PathLexer} {text : String}

/-- Bytes are scanned up to a character if they are told of what is told of their characters. -/
theorem scan_of_standsIn (h : l.StandsIn text) {test : Nat → UInt8 → Bool} {p : UInt8 → Bool}
    {q : Char → Bool} (htest : ∀ j, l.position ≤ j → test j = p) (hpq : Bytewise p q) :
    scan text.toUTF8.data test l.position = l.position + byteLength (l.rest.takeWhile q) := by
  rw [scan_eq htest, h.drop_bytes, hpq.takeWhile_flatMap, Text.length_flatMap_utf8EncodeChar]

theorem start_eq (h : l.StandsIn text) :
    start ⟨text, l.position⟩ = l.skip.position :=
  scan_of_standsIn h (fun _ _ => rfl) bytewise_isSpace

theorem byte_eq_none (h : l.StandsIn text) (hrest : l.rest = []) :
    text.toUTF8.data[l.position]? = none := by
  have hdrop := h.drop_bytes
  rw [hrest, List.flatMap_nil, List.drop_eq_nil_iff] at hdrop
  exact Array.getElem?_eq_none (by simpa using hdrop)

/-- In front of a character stands its first byte. -/
theorem exists_byte (h : l.StandsIn text) {c : Char} {cs : List Char} (hrest : l.rest = c :: cs) :
    ∃ b ∈ String.utf8EncodeChar c, text.toUTF8.data[l.position]? = some b := by
  obtain ⟨b, bs, hbytes⟩ := Text.exists_utf8EncodeChar c
  refine ⟨b, by rw [hbytes]; exact List.mem_cons_self .., ?_⟩
  have hget := congrArg List.head? h.drop_bytes
  rw [hrest, List.flatMap_cons, hbytes, List.head?_drop] at hget
  rw [← Array.getElem?_toList]
  exact hget

/-- The bytes that are more than a part of a number are characters of ASCII. -/
theorem toNat_lt_of_class {b : UInt8} (h : startsNumber b || isComma b || isAlpha b) :
    b.toNat < 128 := by
  have hall : ∀ n < 256, (startsNumber (.ofNat n) || isComma (.ofNat n) || isAlpha (.ofNat n)) →
      n < 128 := by
    decide +kernel
  refine hall b.toNat b.toNat_lt ?_
  rwa [UInt8.ofNat_toNat]

theorem char_of_class {b : UInt8} {c : Char} (hb : b ∈ String.utf8EncodeChar c)
    (h : startsNumber b || isComma b || isAlpha b) : c.utf8Size = 1 ∧ Char.ofNat b.toNat = c := by
  rcases Text.mem_utf8EncodeChar hb with ⟨hc, hnumber⟩ | ⟨-, hhigh⟩
  · refine ⟨Char.utf8Size_eq_one_iff.2 (UInt32.le_iff_toNat_le.2 (Nat.le_of_lt_succ hc)), ?_⟩
    rw [hnumber, Char.ofNat_toNat]
  · exact absurd (toNat_lt_of_class h) (Nat.not_lt_of_le hhigh)

/-- A number ends where it ends for the lexer on characters. -/
theorem scan_number (h : l.StandsIn text) {c : Char} {cs : List Char} (hrest : l.rest = c :: cs)
    (hc : PathLexer.startsNumber c) :
    scan text.toUTF8.data (staysInNumber l.position) l.position =
      l.position + byteLength (c :: cs.takeWhile PathLexer.continuesNumber) := by
  obtain ⟨b, hb, hbyte⟩ := exists_byte h hrest
  have hstarts : startsNumber b := (bytewise_startsNumber c b hb).trans hc
  obtain ⟨hlt, hget⟩ := Array.getElem?_eq_some_iff.1 hbyte
  have hfirst : scan text.toUTF8.data (staysInNumber l.position) l.position =
      scan text.toUTF8.data (staysInNumber l.position) (l.position + 1) := by
    rw [scan, dif_pos hlt, hget, if_pos (staysInNumber_self hstarts)]
  have hsize := (char_of_class hb (by rw [hstarts]; rfl)).1
  have htest (j : Nat) (hj : l.position + 1 ≤ j) :
      staysInNumber l.position j = continuesNumber := staysInNumber_of_lt hj
  have hscan := scan_of_standsIn (h.forward_one hrest hsize) htest bytewise_continuesNumber
  rw [hfirst, Text.byteLength_cons, hsize]
  exact hscan.trans (Nat.add_assoc _ _ _)

theorem numberSlice?_of_nil (h : l.StandsIn text) (hrest : l.skip.rest = []) :
    numberSlice? ⟨text, l.position⟩ = none := by
  unfold numberSlice? bytes
  rw [start_eq h, byte_eq_none h.skip hrest]
  rfl

theorem numberSlice?_of_cons (h : l.StandsIn text) {c : Char} {cs : List Char}
    (hrest : l.skip.rest = c :: cs) :
    numberSlice? ⟨text, l.position⟩ =
      if PathLexer.startsNumber c then
        some (l.skip.position,
          l.skip.position + byteLength (c :: cs.takeWhile PathLexer.continuesNumber))
      else none := by
  obtain ⟨b, hb, hbyte⟩ := exists_byte h.skip hrest
  have hstarts := bytewise_startsNumber c b hb
  unfold numberSlice? bytes
  rw [start_eq h, hbyte]
  split
  · rename_i hc
    rw [scan_number h.skip hrest hc, Option.filter_some_pos (hstarts.trans hc)]
    rfl
  · rename_i hc
    rw [Option.filter_some_neg (hstarts.trans (Bool.eq_false_iff.2 hc))]
    rfl

/-! ## Calls -/

/-- The answer to a call on both lexers. Behind a token both stand at the same place. -/
inductive Agrees (text : String) : Except PathFault (PathToken × PathLexer) →
    Except PathFault PathToken → ByteLexer → Prop
  | token {l' : PathLexer} (t : PathToken) : l'.StandsIn text →
    Agrees text (.ok (t, l')) (.ok t) ⟨text, l'.position⟩
  | fault (fault : PathFault) (l' : ByteLexer) : Agrees text (.error fault) (.error fault) l'

theorem position_le_skip (l : PathLexer) : l.position ≤ l.skip.position := Nat.le_add_right _ _

/-- A number and what stands behind it. -/
theorem rest_eq_run {c : Char} {cs : List Char} (hrest : l.skip.rest = c :: cs) :
    l.skip.rest = (c :: cs.takeWhile PathLexer.continuesNumber) ++
      cs.dropWhile PathLexer.continuesNumber := by
  rw [hrest, List.cons_append, List.takeWhile_append_dropWhile]

theorem slice_isValid (h : l.StandsIn text) {start stop : Nat}
    (hslice : numberSlice? ⟨text, l.position⟩ = some (start, stop)) :
    String.Pos.Raw.IsValid text ⟨start⟩ ∧ String.Pos.Raw.IsValid text ⟨stop⟩ := by
  cases hrest : l.skip.rest with
  | nil => rw [numberSlice?_of_nil h hrest] at hslice; cases hslice
  | cons c cs =>
    rw [numberSlice?_of_cons h hrest] at hslice
    split at hslice
    · cases hslice
      exact ⟨h.skip.isValid, (h.skip.forward (rest_eq_run hrest)).isValid⟩
    · cases hslice

/-- What is promised about a call that takes a token. -/
theorem exists_call_of_token (h : l.StandsIn text) {t : PathToken} {l' : PathLexer}
    (hchars : l.next = .ok (t, l')) (hl' : l'.StandsIn text)
    (hbytes : next ⟨text, l.position⟩ = some (.ok t, ⟨text, l'.position⟩))
    (hlt : t.isEnd = false → l.skip.position < l'.position)
    (hfinite : ∀ x, t = .number x → x.isFinite) :
    ∃ answer l', Call ⟨text, l.position⟩ answer l' ∧ Agrees text l.next answer l' := by
  refine ⟨.ok t, ⟨text, l'.position⟩, ?_, hchars ▸ .token t hl'⟩
  exact
    { next_eq := hbytes
      text_eq := rfl
      position_lt := by
        rintro _ ⟨⟩ hend
        exact Nat.lt_of_le_of_lt (position_le_skip l) (hlt hend)
      position_le := hl'.position_le
      slice := slice_isValid h
      unexpected := by rintro i ⟨⟩
      finite := by
        rintro x ⟨⟩
        exact hfinite x rfl }

/-- What is promised about a call that faults. -/
theorem exists_call_of_fault (h : l.StandsIn text) {fault : PathFault} {l' : PathLexer}
    (hchars : l.next = .error fault) (hl' : l'.StandsIn text)
    (hbytes : next ⟨text, l.position⟩ = some (.error fault, ⟨text, l'.position⟩))
    (hunexpected : ∀ i, fault = .unexpectedChar i → i = l.skip.position) :
    ∃ answer l', Call ⟨text, l.position⟩ answer l' ∧ Agrees text l.next answer l' := by
  refine ⟨.error fault, ⟨text, l'.position⟩, ?_, hchars ▸ .fault fault _⟩
  exact
    { next_eq := hbytes
      text_eq := rfl
      position_lt := by rintro _ ⟨⟩
      position_le := hl'.position_le
      slice := slice_isValid h
      unexpected := by
        rintro i ⟨⟩
        exact hunexpected i rfl ▸ h.skip.isValid
      finite := by rintro x ⟨⟩ }

variable {c : Char} {cs : List Char}

theorem isFinite_of_readFinite? {cs : List Char} {x : Float32}
    (h : Decimal.readFinite? cs = some x) : x.isFinite :=
  (Option.filter_eq_some_iff.1 h).2

theorem next_eq_token (hrest : l.skip.rest = c :: cs) :
    l.next = PathLexer.token l.skip.position (c :: cs) := hrest ▸ rfl

theorem exists_call_end (h : l.StandsIn text) (hrest : l.skip.rest = []) :
    ∃ answer l', Call ⟨text, l.position⟩ answer l' ∧ Agrees text l.next answer l' := by
  have hbehind : PathLexer.StandsIn ⟨[], l.skip.position⟩ text := hrest ▸ h.skip
  have hchars : l.next = .ok (.endOfInput, ⟨[], l.skip.position⟩) := by
    show PathLexer.token _ l.skip.rest = _
    rw [hrest]
    rfl
  refine exists_call_of_token h hchars hbehind ?_ ?_ ?_
  · unfold next bytes
    dsimp only
    rw [numberSlice?_of_nil h hrest, start_eq h, byte_eq_none h.skip hrest]
  · rintro ⟨⟩
  · rintro x ⟨⟩

theorem next_of_number (h : l.StandsIn text) (hrest : l.skip.rest = c :: cs)
    (hc : PathLexer.startsNumber c) :
    let run := c :: cs.takeWhile PathLexer.continuesNumber
    next ⟨text, l.position⟩ =
      some (match Decimal.readFinite? run with
        | some x => (.ok (.number x), ⟨text, l.skip.position + byteLength run⟩)
        | none => (.error (.invalidNumber l.skip.position),
          ⟨text, l.skip.position + byteLength run⟩)) := by
  intro run
  have hrun := rest_eq_run hrest
  have hslice : slice? text l.skip.position (l.skip.position + byteLength run) =
      some (.ofList run) := by
    unfold slice?
    rw [if_pos ⟨Nat.le_add_right _ _, h.skip.isValid, (h.skip.forward hrun).isValid⟩,
      h.skip.extract hrun]
  unfold next
  rw [numberSlice?_of_cons h hrest, if_pos hc]
  dsimp only
  rw [hslice, Option.map_some, String.toList_ofList]

theorem exists_call_number (h : l.StandsIn text) (hrest : l.skip.rest = c :: cs)
    (hc : PathLexer.startsNumber c) :
    ∃ answer l', Call ⟨text, l.position⟩ answer l' ∧ Agrees text l.next answer l' := by
  have hbehind := h.skip.forward (rest_eq_run hrest)
  have hbytes := next_of_number h hrest hc
  have hchars := next_eq_token hrest
  rw [PathLexer.token, if_pos hc] at hchars
  dsimp only at hbytes hchars
  cases hread : Decimal.readFinite? (c :: cs.takeWhile PathLexer.continuesNumber) with
  | some x =>
    rw [hread] at hbytes hchars
    refine exists_call_of_token h hchars hbehind hbytes (fun _ => ?_) ?_
    · show l.skip.position < l.skip.position + byteLength (c :: _)
      have := c.utf8Size_pos
      rw [Text.byteLength_cons]
      omega
    · rintro y ⟨⟩
      exact isFinite_of_readFinite? hread
  | none =>
    rw [hread] at hbytes hchars
    refine exists_call_of_fault h hchars hbehind hbytes ?_
    rintro i ⟨⟩

theorem next_of_other (h : l.StandsIn text) (hrest : l.skip.rest = c :: cs)
    (hc : ¬ PathLexer.startsNumber c) {b : UInt8}
    (hbyte : text.toUTF8.data[l.skip.position]? = some b) :
    next ⟨text, l.position⟩ =
      if isComma b then some (.ok .comma, ⟨text, l.skip.position + 1⟩)
      else if isAlpha b then
        some (.ok (.command (Char.ofNat b.toNat)), ⟨text, l.skip.position + 1⟩)
      else some (.error (.unexpectedChar l.skip.position), ⟨text, l.skip.position⟩) := by
  unfold next bytes
  rw [numberSlice?_of_cons h hrest, if_neg hc, start_eq h]
  dsimp only
  rw [hbyte]

theorem exists_call_other (h : l.StandsIn text) (hrest : l.skip.rest = c :: cs)
    (hc : ¬ PathLexer.startsNumber c) :
    ∃ answer l', Call ⟨text, l.position⟩ answer l' ∧ Agrees text l.next answer l' := by
  obtain ⟨b, hb, hbyte⟩ := exists_byte h.skip hrest
  have hcomma : isComma b = (c == ',') := bytewise_isComma c b hb
  have halpha : isAlpha b = c.isAlpha := bytewise_isAlpha c b hb
  have hbytes := next_of_other h hrest hc hbyte
  have hchars := next_eq_token hrest
  rw [PathLexer.token, if_neg hc] at hchars
  -- A character that is a token of its own is one byte.
  have hbehind (hclass : startsNumber b || isComma b || isAlpha b) :
      PathLexer.StandsIn ⟨cs, l.skip.position + 1⟩ text :=
    h.skip.forward_one hrest (char_of_class hb hclass).1
  by_cases hc' : c = ','
  · have hb' : isComma b = true := by rw [hcomma, hc']; rfl
    rw [if_pos hb'] at hbytes
    rw [if_pos hc'] at hchars
    refine exists_call_of_token h hchars (hbehind (by rw [hb']; simp)) hbytes
      (fun _ => Nat.lt_succ_self _) ?_
    rintro x ⟨⟩
  have hb' : ¬ isComma b = true := by simpa [hcomma] using hc'
  rw [if_neg hb'] at hbytes
  rw [if_neg hc'] at hchars
  by_cases hletter : c.isAlpha
  · have hclass : startsNumber b || isComma b || isAlpha b := by rw [halpha, hletter]; simp
    rw [if_pos (halpha.trans hletter), (char_of_class hb hclass).2] at hbytes
    rw [if_pos hletter] at hchars
    refine exists_call_of_token h hchars (hbehind hclass) hbytes
      (fun _ => Nat.lt_succ_self _) ?_
    rintro x ⟨⟩
  · rw [if_neg (by rw [halpha]; exact hletter)] at hbytes
    rw [if_neg hletter] at hchars
    refine exists_call_of_fault h hchars h.skip hbytes ?_
    rintro i ⟨⟩
    rfl

/-- **In front of a character both lexers do the same**, and all that is promised about a call
holds. -/
theorem exists_call (h : l.StandsIn text) :
    ∃ answer l', Call ⟨text, l.position⟩ answer l' ∧ Agrees text l.next answer l' := by
  cases hrest : l.skip.rest with
  | nil => exact exists_call_end h hrest
  | cons c cs =>
    by_cases hc : PathLexer.startsNumber c
    · exact exists_call_number h hrest hc
    · exact exists_call_other h hrest hc

end ByteLexer

end Xps
