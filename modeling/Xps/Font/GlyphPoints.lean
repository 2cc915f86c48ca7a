import Xps.Font.Face

/-!
# Glyphs made of points

A glyph has contours of points on and off quadratic curves, or it is put together from other glyphs,
each of them moved and stretched.
-/

namespace Xps.GlyphPoints

structure ContourPoint where
  point : Point
  onCurve : Bool

def middle (p q : Point) : Point := ⟨p.x + 0.5 * (q.x - p.x), p.y + 0.5 * (q.y - p.y)⟩

/-! ## Contours -/

/-- Draws points behind others. `control` is a point off the curve that waits for its end, and
`finish` draws what comes when the points end. -/
def drawPoints (finish : Option Point → List OutlineStep) (control : Option Point) :
    List ContourPoint → List OutlineStep
  | [] => finish control
  | ⟨p, onCurve⟩ :: points =>
    match control, onCurve with
    | some c, true => .quad c p :: drawPoints finish none points
    | some c, false => .quad c (middle c p) :: drawPoints finish (some p) points
    | none, true => .line p :: drawPoints finish none points
    | none, false => drawPoints finish (some p) points

/-- Returns to the start of a contour. A first point off the curve is also the last one. -/
def returnTo (start : Point) (first : List ContourPoint) (control : Option Point) :
    List OutlineStep :=
  let last (control : Option Point) : List OutlineStep :=
    match control with
    | some c => [.quad c start]
    | none => [.line start]
  drawPoints last control first ++ [.close]

/-- Draws a contour that begins with a point on the curve. One without an end is not closed. -/
def drawFrom (start : Point) (control : Option Point) (points : List ContourPoint)
    (first : List ContourPoint) (isComplete : Bool) : List OutlineStep :=
  let finish (control : Option Point) : List OutlineStep :=
    if isComplete then returnTo start first control else []
  .move start :: drawPoints finish control points

/-- Draws a contour. A single point off the curve draws nothing. -/
def drawContour (contour : List ContourPoint) (isComplete : Bool) : List OutlineStep :=
  match contour with
  | ⟨p, true⟩ :: points => drawFrom p none points [] isComplete
  | first :: ⟨q, true⟩ :: points => drawFrom q none points [first] isComplete
  | first :: ⟨q, false⟩ :: points =>
    drawFrom (middle first.point q) (some q) points [first] isComplete
  | _ => if isComplete then [.close] else []

/-- The lengths of contours that end at some indexes. None is empty, even if the indexes do not
grow. -/
def contourLengths : List Nat → List Nat
  | [] => []
  | first :: others =>
    (first + 1) :: (others.zip (first :: others)).map fun (stop, before) =>
      Nat.max 1 (stop - before)

/-- Draws points as contours of some lengths, and those behind them as contours of one point. -/
def drawContours (points : List ContourPoint) : List Nat → List OutlineStep
  | [] => points.flatMap fun p => drawContour [p] true
  | length :: lengths =>
    if points.isEmpty then []
    else
      drawContour (points.take length) (length ≤ points.length)
        ++ drawContours (points.drop length) lengths

/-! ## Simple glyphs -/

/-- Reads flags, some of them with a count of repetitions. -/
def flags? (data : ByteArray) (total : Nat) : Nat → Array Nat → Nat → Option (Array Nat × Nat)
  | 0, _, _ => none
  | steps + 1, flags, offset =>
    if total ≤ flags.size then some (flags, offset)
    else do
      let flag ← Bytes.byte? data offset
      if flag / 8 % 2 = 1 then
        let count ← Bytes.byte? data (offset + 1)
        flags? data total steps (flags ++ Array.replicate (count + 1) flag) (offset + 2)
      else flags? data total steps (flags.push flag) (offset + 1)

/--
Reads the coordinates of one axis. A flag tells a byte with a sign, a repeated coordinate, or a
difference of 16 bits.
-/
def coordinates? (data : ByteArray) (short same : Nat) :
    List Nat → Int → Nat → Option (List Int × Nat)
  | [], _, offset => some ([], offset)
  | flag :: flags, last, offset => do
    let isSame := flag / same % 2 = 1
    let (delta, offset) ←
      if flag / short % 2 = 1 then
        (Bytes.byte? data offset).map fun b => ((if isSame then (b : Int) else -b), offset + 1)
      else if isSame then some (0, offset)
      else (Bytes.signed16? data offset).map (·, offset + 2)
    let value := (last + delta).bmod 65536
    let (values, offset) ← coordinates? data short same flags value offset
    return (value :: values, offset)

/-- The steps of a simple glyph. A glyph with a single point has none. -/
def simple? (data : ByteArray) (contourCount : Nat) : Option (List OutlineStep) := do
  let stops ← (List.range contourCount).mapM fun k => Bytes.word16? data (10 + 2 * k)
  let total := stops.getLastD 0 + 1
  if total = 1 then return []
  else if total = 65536 then none
  else
    let instructions ← Bytes.word16? data (10 + 2 * contourCount)
    let (flags, offset) ← flags? data total (total + 1) #[] (12 + 2 * contourCount + instructions)
    if flags.size ≠ total then none
    else
      let (xs, offset) ← coordinates? data 2 16 flags.toList 0 offset
      let (ys, _) ← coordinates? data 4 32 flags.toList 0 offset
      let points : List ContourPoint := (flags.toList.zip (xs.zip ys)).map fun (flag, x, y) =>
        ⟨⟨Single.ofInt x, Single.ofInt y⟩, flag % 2 == 1⟩
      return drawContours points (contourLengths stops)

/-! ## Composed glyphs -/

/-- How a part of a glyph is stretched and moved. -/
structure Placement where
  a : Float32 := 1
  b : Float32 := 0
  c : Float32 := 0
  d : Float32 := 1
  x : Float32 := 0
  y : Float32 := 0

namespace Placement

/-- First the other placement, then this one. -/
def combine (p q : Placement) : Placement where
  a := p.a * q.a + p.c * q.b
  b := p.b * q.a + p.d * q.b
  c := p.a * q.c + p.c * q.d
  d := p.b * q.c + p.d * q.d
  x := p.a * q.x + p.c * q.y + p.x
  y := p.b * q.x + p.d * q.y + p.y

def isIdentity (p : Placement) : Bool :=
  p.a == 1 && p.b == 0 && p.c == 0 && p.d == 1 && p.x == 0 && p.y == 0

def map (p : Placement) (q : Point) : Point :=
  if p.isIdentity then q else ⟨p.a * q.x + p.c * q.y + p.x, p.b * q.x + p.d * q.y + p.y⟩

def mapStep (p : Placement) : OutlineStep → OutlineStep
  | .move q => .move (p.map q)
  | .line q => .line (p.map q)
  | .quad c q => .quad (p.map c) (p.map q)
  | .cubic c₁ c₂ q => .cubic (p.map c₁) (p.map c₂) (p.map q)
  | .close => .close

end Placement

/-- A part of a composed glyph. -/
structure Part where
  glyph : Nat
  placement : Placement

/-- A number with fourteen binary places. -/
def ratio? (data : ByteArray) (offset : Nat) : Option Float32 :=
  (Bytes.signed16? data offset).map fun n => Single.ofInt n / 16384

/-- A byte in two's complement. -/
def signedByte? (data : ByteArray) (offset : Nat) : Option Int :=
  (Bytes.byte? data offset).map fun b => (b : Int).bmod 256

/-- How far a part is moved, and where the place goes on. Parts that are tied to points stay. -/
def shift? (data : ByteArray) (flags offset : Nat) : Option ((Float32 × Float32) × Nat) := do
  if flags / 2 % 2 = 0 then return ((0, 0), offset)
  else if flags % 2 = 1 then
    let x ← Bytes.signed16? data offset
    let y ← Bytes.signed16? data (offset + 2)
    return ((Single.ofInt x, Single.ofInt y), offset + 4)
  else
    let x ← signedByte? data offset
    let y ← signedByte? data (offset + 1)
    return ((Single.ofInt x, Single.ofInt y), offset + 2)

/-- The part of a place and its flags, and where the next one is. -/
def part? (data : ByteArray) (offset : Nat) : Option ((Part × Nat) × Nat) := do
  let flags ← Bytes.word16? data offset
  let glyph ← Bytes.word16? data (offset + 2)
  let ((x, y), offset) ← shift? data flags (offset + 4)
  let has (flag : Nat) : Bool := flags / flag % 2 == 1
  let (placement, offset) : Placement × Nat ←
    if has 0x80 then do
      let a ← ratio? data offset
      let b ← ratio? data (offset + 2)
      let c ← ratio? data (offset + 4)
      let d ← ratio? data (offset + 6)
      pure ({ a, b, c, d, x, y }, offset + 8)
    else if has 0x40 then do
      let a ← ratio? data offset
      let d ← ratio? data (offset + 2)
      pure ({ a, d, x, y }, offset + 4)
    else if has 0x08 then do
      let a ← ratio? data offset
      pure ({ a, d := a, x, y }, offset + 2)
    else pure ({ x, y }, offset)
  return ((⟨glyph, placement⟩, flags), offset)

/-- Reads the parts of a composed glyph, up to the last or a broken one. -/
def parts (data : ByteArray) : Nat → Nat → List Part
  | 0, _ => []
  | steps + 1, offset =>
    match part? data offset with
    | some ((part, flags), offset) =>
      part :: (if flags / 0x20 % 2 = 1 then parts data steps offset else [])
    | none => []

/-! ## Glyphs of a face -/

/-- The places of glyphs, and the data of all of them. -/
structure GlyphTables where
  isLong : Bool
  count : Nat
  places : ByteArray
  glyphs : ByteArray

namespace GlyphTables

/-- The tables of a face. The places have to be countable with 16 bits. -/
def ofFace? (f : Face) : Option GlyphTables := do
  let places ← f.tables.get? "loca"
  let glyphs ← f.tables.get? "glyf"
  if places.size / (if f.longOffsets then 4 else 2) < 65536 then
    return ⟨f.longOffsets, f.glyphCount, places, glyphs⟩
  else none

def place? (t : GlyphTables) (k : Nat) : Option Nat :=
  if t.isLong then Bytes.word32? t.places (4 * k)
  else (Bytes.word16? t.places (2 * k)).map (2 * ·)

/-- The data of a glyph among all of them. An empty glyph has none. Only the places of 65535 glyphs
are read. -/
def data? (t : GlyphTables) (glyph : Nat) : Option ByteArray := do
  if glyph + 1 < Nat.min 65535 (t.count + 1) then
    let start ← t.place? glyph
    let stop ← t.place? (glyph + 1)
    if start < stop then Bytes.slice? t.glyphs start (stop - start) else none
  else none

/-- The steps of glyph data. Parts without data are left out, and a broken part breaks the whole
glyph, as parts that are nested too deep do. -/
def steps? (t : GlyphTables) : Nat → Placement → ByteArray → Option (List OutlineStep)
  | 0, _, _ => none
  | depth + 1, placement, data => do
    let count ← Bytes.signed16? data 0
    if count = 0 then return []
    else if data.size < 10 then none
    else if 0 < count then
      return (← simple? data count.toNat).map placement.mapStep
    else
      let drawn ← (parts data data.size 10).mapM fun part =>
        match t.data? part.glyph with
        | some data => t.steps? depth (placement.combine part.placement) data
        | none => some []
      return drawn.flatten

end GlyphTables

/-- How deep glyphs may be composed. -/
def maxDepth : Nat := 32

end Xps.GlyphPoints
