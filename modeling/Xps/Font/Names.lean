import Xps.Font.Face

/-!
# Font names

A font has records of names in several languages and encodings. It is usable if it has a family and
a PostScript name that can be read.
-/

namespace Xps.FontNames

structure NameRecord where
  platform : Nat
  encoding : Nat
  language : Nat
  kind : Nat
  text : ByteArray

namespace NameRecord

def isUnicode (r : NameRecord) : Bool :=
  r.platform == 0 || (r.platform == 3 && r.encoding ≤ 1)

def isMacRoman (r : NameRecord) : Bool := r.platform == 1 && r.encoding == 0

def isAmericanEnglish (r : NameRecord) : Bool :=
  (r.platform == 3 && r.language == 0x409) || (r.isMacRoman && r.language == 0)

end NameRecord

/-- The characters of four controls, which are the signs of keys. -/
def macKeys : Array Nat := #[0x2318, 0x21e7, 0x2325, 0x2303]

/-- The characters of the upper half of the encoding. -/
def macRoman : Array Nat :=
  #[0xc4, 0xc5, 0xc7, 0xc9, 0xd1, 0xd6, 0xdc, 0xe1, 0xe0, 0xe2, 0xe4, 0xe3, 0xe5, 0xe7, 0xe9, 0xe8,
    0xea, 0xeb, 0xed, 0xec, 0xee, 0xef, 0xf1, 0xf3, 0xf2, 0xf4, 0xf6, 0xf5, 0xfa, 0xf9, 0xfb, 0xfc,
    0x2020, 0xb0, 0xa2, 0xa3, 0xa7, 0x2022, 0xb6, 0xdf, 0xae, 0xa9, 0x2122, 0xb4, 0xa8, 0x2260,
    0xc6, 0xd8, 0x221e, 0xb1, 0x2264, 0x2265, 0xa5, 0xb5, 0x2202, 0x2211, 0x220f, 0x3c0, 0x222b,
    0xaa, 0xba, 0x3a9, 0xe6, 0xf8, 0xbf, 0xa1, 0xac, 0x221a, 0x192, 0x2248, 0x2206, 0xab, 0xbb,
    0x2026, 0xa0, 0xc0, 0xc3, 0xd5, 0x152, 0x153, 0x2013, 0x2014, 0x201c, 0x201d, 0x2018, 0x2019,
    0xf7, 0x25ca, 0xff, 0x178, 0x2044, 0x20ac, 0x2039, 0x203a, 0xfb01, 0xfb02, 0x2021, 0xb7,
    0x201a, 0x201e, 0x2030, 0xc2, 0xca, 0xc1, 0xcb, 0xc8, 0xcd, 0xce, 0xcf, 0xcc, 0xd3, 0xd4,
    0xf8ff, 0xd2, 0xda, 0xdb, 0xd9, 0x131, 0x2c6, 0x2dc, 0xaf, 0x2d8, 0x2d9, 0x2da, 0xb8, 0x2dd,
    0x2db, 0x2c7]

/-- The characters of code units of 16 bits. A lone half of a pair is no text. -/
def ofUnits? : List Nat → Option (List Char)
  | [] => some []
  | high :: rest =>
    if 0xd800 ≤ high ∧ high < 0xdc00 then
      match rest with
      | low :: rest =>
        if 0xdc00 ≤ low ∧ low < 0xe000 then
          (ofUnits? rest).map (.ofNat (0x10000 + 1024 * (high - 0xd800) + (low - 0xdc00)) :: ·)
        else none
      | [] => none
    else if 0xdc00 ≤ high ∧ high < 0xe000 then none
    else (ofUnits? rest).map (.ofNat high :: ·)

/-- The code units of a text. An odd byte at the end is not one. -/
def units (text : ByteArray) : List Nat :=
  (List.range (text.size / 2)).filterMap fun k => Bytes.word16? text (2 * k)

/-- The character of a byte of the encoding. -/
def ofMacRoman (byte : Nat) : Char :=
  if byte < 0x11 then .ofNat byte
  else if byte < 0x80 then .ofNat (macKeys.getD (byte - 0x11) byte)
  else .ofNat (macRoman.getD (byte - 0x80) 0)

/-- The text of a name. -/
def NameRecord.read? (r : NameRecord) : Option String :=
  if r.isUnicode then (ofUnits? (units r.text)).map String.ofList
  else if r.isMacRoman then
    some (String.ofList (r.text.toList.map fun b => ofMacRoman b.toNat))
  else none

/-- The record of a name at a place of the table. -/
def record? (data : ByteArray) (storage offset : Nat) : Option NameRecord := do
  let platform ← Bytes.word16? data offset
  let encoding ← Bytes.word16? data (offset + 2)
  let language ← Bytes.word16? data (offset + 4)
  let kind ← Bytes.word16? data (offset + 6)
  let length ← Bytes.word16? data (offset + 8)
  let start ← Bytes.word16? data (offset + 10)
  let text ← Bytes.slice? data (storage + start) length
  if platform ≤ 4 then return { platform, encoding, language, kind, text } else none

/-- The records of a table, up to a broken one. -/
def records? (data : ByteArray) : Option (List NameRecord) := do
  let version ← Bytes.word16? data 0
  let count ← Bytes.word16? data 2
  let storage ← Bytes.word16? data 4
  let start ←
    match version with
    | 0 => some 6
    | 1 => ((Bytes.word16? data 6).filter (4 * · < 65536)).map fun languages => 8 + 4 * languages
    | _ => none
  let _ ← Bytes.slice? data start (12 * count)
  let storage := Nat.max storage (start + 12 * count)
  return Records.takeSome ((List.range count).map fun k => record? data storage (start + 12 * k))

/-- The names of some kind, and whether they are American English. -/
def namesOf (kind : Nat) (records : List NameRecord) : List (String × Bool) :=
  let read (r : NameRecord) : Option (String × Bool) := r.read?.map (·, r.isAmericanEnglish)
  let unicode := (records.filter fun r => r.kind == kind && r.isUnicode).filterMap read
  if unicode.any Prod.snd then unicode
  else
    let roman := (records.filter fun r => r.kind == kind && r.isMacRoman).filterMap read
    unicode ++ roman.take 1

/-- The first American English name, or else the first one. -/
def preferred? (names : List (String × Bool)) : Option String :=
  ((names.find? Prod.snd).or names.head?).map Prod.fst

/-- The family of a font: of the typographic names, or else of the plain ones. -/
def family? (records : List NameRecord) : Option String :=
  let typographic := namesOf 16 records
  preferred? (if typographic.isEmpty then namesOf 1 records else typographic)

def postScriptName? (records : List NameRecord) : Option String :=
  (records.find? fun r => r.kind == 6 && (r.isUnicode || r.isMacRoman)).bind (·.read?)

/-- The family of a font that has all the names it needs. -/
def ofTables? (tables : FontTables) : Option String := do
  let records ← records? (← tables.search? "name")
  let family ← family? records
  let _ ← postScriptName? records
  return family

end Xps.FontNames
