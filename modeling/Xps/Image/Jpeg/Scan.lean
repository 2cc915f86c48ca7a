import Xps.Image.Jpeg.Plane

/-!
# Scans

A scan holds the blocks of one component in rows, or the blocks of several components in units that
hold some blocks of each.
-/

namespace Xps.Jpeg

/-- A component of a scan, with its codes and factors. -/
structure Channel where
  /-- The number of the component in the frame. -/
  index : Nat
  component : Component
  means : HuffmanCode
  others : HuffmanCode
  factors : Array Nat

namespace Tables

/-- The band of a scan. It is whole unless the frame is progressive, and then only the first
coefficients of several components come together. -/
def band? (frame : Frame) (count first last high low : Nat) : Option Band :=
  if frame.process = .progressive then
    let isOrdered := first ≤ last ∧ last ≤ 63 ∧ (first = 0 → last = 0)
    if isOrdered ∧ (first = 0 ∨ count = 1) ∧ low ≤ 13 ∧ high ≤ 13 ∧ (high = 0 ∨ high = low + 1) then
      some ⟨first, last, low, high != 0⟩
    else none
  else if first = 0 ∧ (last = 0 ∨ last = 63) ∧ high = 0 ∧ low = 0 then some .whole
  else none

/-- The channel of an entry of the head of a scan. It has the codes that its band needs. -/
def channel? (t : Tables) (frame : Frame) (data : ByteArray) (band : Band) (entry : Nat) :
    Option Channel := do
  let id ← Bytes.byte? data (1 + 2 * entry)
  let selectors ← Bytes.byte? data (2 + 2 * entry)
  let index ← frame.components.findIdx? fun c => c.id == id
  let component ← frame.components[index]?
  let code? (isNeeded : Bool) (codeClass : CodeClass) (number : Nat) : Option HuffmanCode :=
    if isNeeded then t.code? codeClass number else some ⟨[], #[]⟩
  if selectors / 16 ≤ frame.lastCode ∧ selectors % 16 ≤ frame.lastCode then
    return ⟨index, component, ← code? (band.first == 0) .means (selectors / 16),
      ← code? (band.last != 0) .others (selectors % 16),
      ← t.factors.lookup component.quantization⟩
  else none

/-- The band and the channels of a scan, in the order of the frame. A unit has ten blocks or less. -/
def channels? (t : Tables) (frame : Frame) (data : ByteArray) : Option (Band × List Channel) := do
  let count ← Bytes.byte? data 0
  let first ← Bytes.byte? data (1 + 2 * count)
  let last ← Bytes.byte? data (2 + 2 * count)
  let bits ← Bytes.byte? data (3 + 2 * count)
  let band ← band? frame count first last (bits / 16) (bits % 16)
  let channels ← (List.range count).mapM (t.channel? frame data band)
  let blocks := (channels.map fun c => c.component.across * c.component.down).foldr (· + ·) 0
  if 1 ≤ count ∧ count ≤ 4 ∧ data.size = 4 + 2 * count ∧ (count = 1 ∨ blocks ≤ 10)
      ∧ (channels.map Channel.index).Pairwise (· < ·) then
    return (band, channels)
  else none

end Tables

/-- The blocks of a scan in units: the number of the channel, and the place in its grid. -/
def units (frame : Frame) (channels : List Channel) : List (List (Nat × Nat)) :=
  match channels with
  | [channel] =>
    let stride := frame.blocksAcross channel.component
    let across := Nat.min stride (Frame.ceilDiv frame.width 8)
    let down := Nat.min (frame.blocksDown channel.component) (Frame.ceilDiv frame.height 8)
    (List.range down).flatMap fun y => (List.range across).map fun x => [(0, y * stride + x)]
  | channels =>
    (List.range frame.unitsDown).flatMap fun y => (List.range frame.unitsAcross).map fun x =>
      channels.zipIdx.flatMap fun (channel, k) =>
        let c := channel.component
        (List.range c.down).flatMap fun v => (List.range c.across).map fun h =>
          (k, (y * c.down + v) * frame.blocksAcross c + x * c.across + h)

/-- How far a scan has been read. -/
structure ScanState where
  stream : BitStream
  /-- The first coefficient of the latest block of each channel. -/
  means : List Int
  /-- The blocks to come that have a first coefficient only. -/
  skipped : Nat := 0
  grids : List Grid
  /-- The units up to the next restart, and its number. -/
  left : Nat
  restart : Nat := 0

namespace ScanState

/-- Reads a block of a channel into its place. -/
def readBlock? (band : Band) (channels : List Channel) (s : ScanState) (block : Nat × Nat) :
    Option ScanState := do
  let (k, place) := block
  let channel ← channels[k]?
  let before := ((s.grids[k]?).bind (·[place]?)).getD #[]
  let course : Band.Course := ⟨s.means[k]?.getD 0, s.skipped⟩
  let ((after, course), stream) ← band.read? channel.means channel.others before course s.stream
  return { s with
    stream
    skipped := course.skipped
    means := s.means.set k course.mean
    grids := s.grids.modify k fun g => g.set! place after }

/-- Counts a unit. A marker has to come where units are to be counted anew. -/
def countUnit? (interval : Nat) (s : ScanState) : Option ScanState :=
  if interval = 0 then some s
  else if 0 < s.left then some { s with left := s.left - 1 }
  else do
    let (marker, stream) ← s.stream.takeMarker?
    if marker = some (0xd0 + s.restart) then
      return { s with
        stream := stream.restart
        means := s.means.map fun _ => 0
        skipped := 0
        left := interval - 1
        restart := (s.restart + 1) % 8 }
    else none

def readUnit? (interval : Nat) (band : Band) (channels : List Channel) (s : ScanState)
    (blocks : List (Nat × Nat)) : Option ScanState := do
  blocks.foldlM (readBlock? band channels) (← s.countUnit? interval)

end ScanState

/-- Reads a scan behind its head into the grids of its channels. Tells the stream behind them. -/
def scan? (restartInterval : Nat) (frame : Frame) (band : Band) (channels : List Channel)
    (grids : List Grid) (file : ByteArray) (offset : Nat) : Option (List Grid × BitStream) := do
  let start : ScanState :=
    { stream := { file, offset }
      means := channels.map fun _ => 0
      grids
      left := restartInterval }
  let s ← (units frame channels).foldlM (ScanState.readUnit? restartInterval band channels) start
  return (s.grids, s.stream)

end Xps.Jpeg
