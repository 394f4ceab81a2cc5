import Strikedge.Machine.DataView

/-!
# The feed decoder

`decodeDhanFeed`: a frame carries packets back to back, little-endian, each with an 8-byte header
that declares the length of the whole packet. The walk goes from packet to packet by the declared
lengths. Prices are the bits of a 32-bit float.

Beside its result the walk lists the packets it took, with the bytes it fetched for each, and how
far it came.
-/

namespace Strikedge.DhanFeed

open Machine

inductive DhanExchangeSegment where
  | idxI
  | nseEq
  | nseFno
  | nseCurrency
  | bseEq
  | mcxComm
  | bseCurrency
  | bseFno
  deriving DecidableEq, Repr

def dhanSegmentFromCode : ℕ → Option DhanExchangeSegment
  | 0 => some .idxI
  | 1 => some .nseEq
  | 2 => some .nseFno
  | 3 => some .nseCurrency
  | 4 => some .bseEq
  | 5 => some .mcxComm
  | 7 => some .bseCurrency
  | 8 => some .bseFno
  | _ => none

/-- A float of 32 bits. -/
abbrev Float32Bits := BitVec 32

/-- The comparison `0 < price`: no sign, not zero and not a NaN. -/
def Float32Bits.isPositive (price : Float32Bits) : Bool :=
  0 < price.toNat && price.toNat ≤ 0x7F800000

structure DhanDepthLevel where
  price : Float32Bits
  qty : Int
  orders : Int
  deriving DecidableEq, Repr

structure DhanFeedPacket where
  code : ℕ
  segment : Option DhanExchangeSegment
  segmentCode : ℕ
  securityId : Int
  lastPrice : Option Float32Bits := none
  lastQuantity : Option Int := none
  lastTradeTime : Option Int := none
  averagePrice : Option Float32Bits := none
  volume : Option Int := none
  totalBuyQuantity : Option Int := none
  totalSellQuantity : Option Int := none
  oi : Option Int := none
  oiDayHigh : Option Int := none
  oiDayLow : Option Int := none
  open' : Option Float32Bits := none
  close : Option Float32Bits := none
  high : Option Float32Bits := none
  low : Option Float32Bits := none
  prevClose : Option Float32Bits := none
  prevOi : Option Int := none
  bids : Option (List DhanDepthLevel) := none
  asks : Option (List DhanDepthLevel) := none
  disconnectCode : Option Int := none
  deriving DecidableEq, Repr

/-- `DHAN_FEED_CODE` -/
inductive DhanFeedCode where
  | index
  | ticker
  | quote
  | oi
  | prevClose
  | marketStatus
  | full
  | disconnect
  deriving DecidableEq, Repr

def dhanFeedCode : ℕ → Option DhanFeedCode
  | 1 => some .index
  | 2 => some .ticker
  | 4 => some .quote
  | 5 => some .oi
  | 6 => some .prevClose
  | 7 => some .marketStatus
  | 8 => some .full
  | 50 => some .disconnect
  | _ => none

def dhanHeaderBytes : ℕ := 8
def tickerBytes : ℕ := 16
def quoteBytes : ℕ := 50
def oiBytes : ℕ := 12
def prevCloseBytes : ℕ := 16
def fullBytes : ℕ := 162
def depthLevelBytes : ℕ := 20
def depthLevels : ℕ := 5

structure Header where
  code : ℕ
  declaredLength : Int
  segmentCode : ℕ
  securityId : Int
  deriving DecidableEq, Repr

def readHeader (offset : ℕ) : Reader Header := do
  let code ← Reader.getUint8 offset
  let declaredLength ← Reader.getInt16 (offset + 1)
  let segmentCode ← Reader.getUint8 (offset + 3)
  let securityId ← Reader.getInt32 (offset + 4)
  return ⟨code, declaredLength, segmentCode, securityId⟩

/-- The packet before any field is read. -/
def Header.base (header : Header) : DhanFeedPacket where
  code := header.code
  segment := dhanSegmentFromCode header.segmentCode
  segmentCode := header.segmentCode
  securityId := header.securityId

/-- Seconds to milliseconds; 0 stays absent. -/
def readEpochSeconds (start : ℕ) : Reader (Option Int) := do
  let seconds ← Reader.getInt32 start
  return if 0 < seconds then some (seconds * 1000) else none

def readQuoteCore (offset : ℕ) (out : DhanFeedPacket) : Reader DhanFeedPacket := do
  let lastPrice ← Reader.getFloat32 (offset + 8)
  let lastQuantity ← Reader.getInt16 (offset + 12)
  let ltt ← readEpochSeconds (offset + 14)
  let averagePrice ← Reader.getFloat32 (offset + 18)
  let volume ← Reader.getInt32 (offset + 22)
  let totalSellQuantity ← Reader.getInt32 (offset + 26)
  let totalBuyQuantity ← Reader.getInt32 (offset + 30)
  return { out with
    lastPrice := some lastPrice
    lastQuantity := some lastQuantity
    lastTradeTime := ltt
    averagePrice := some averagePrice
    volume := some volume
    totalSellQuantity := some totalSellQuantity
    totalBuyQuantity := some totalBuyQuantity }

/-- The level of one side, if there is liquidity. -/
def depthLevel (price : Float32Bits) (qty orders : Int) : List DhanDepthLevel :=
  if price.isPositive then [⟨price, max 0 qty, max 0 orders⟩] else []

/-- So many levels of bid and ask depth. -/
def readLevels (byteLength : ℕ) : ℕ → ℕ → Reader (List DhanDepthLevel × List DhanDepthLevel)
  | 0, _ => return ([], [])
  | levels + 1, start =>
    if byteLength < start + depthLevelBytes then return ([], [])
    else do
      let bidQty ← Reader.getInt32 start
      let askQty ← Reader.getInt32 (start + 4)
      let bidOrders ← Reader.getInt16 (start + 8)
      let askOrders ← Reader.getInt16 (start + 10)
      let bidPrice ← Reader.getFloat32 (start + 12)
      let askPrice ← Reader.getFloat32 (start + 16)
      let (bids, asks) ← readLevels byteLength levels (start + depthLevelBytes)
      return (depthLevel bidPrice bidQty bidOrders ++ bids,
        depthLevel askPrice askQty askOrders ++ asks)

def readDepth (byteLength start : ℕ) : Reader (List DhanDepthLevel × List DhanDepthLevel) :=
  readLevels byteLength depthLevels start

/-- The open, close, high and low of the day. -/
def readOhlc (start : ℕ) (out : DhanFeedPacket) : Reader DhanFeedPacket := do
  let open' ← Reader.getFloat32 start
  let close ← Reader.getFloat32 (start + 4)
  let high ← Reader.getFloat32 (start + 8)
  let low ← Reader.getFloat32 (start + 12)
  return { out with open' := some open', close := some close, high := some high, low := some low }

/-- A packet, or why there is none. -/
abbrev Decoded := Except String DhanFeedPacket

/-- A payload that needs so many bytes. -/
def sized (name : String) (bytes : ℕ) (header : Header) (payload : Reader DhanFeedPacket) :
    Reader Decoded :=
  if header.declaredLength < bytes then
    return .error s!"{name} packet too short ({header.declaredLength} < {bytes})"
  else do
    let packet ← payload
    return .ok packet

def decodeTicker (offset : ℕ) (header : Header) : Reader Decoded :=
  sized "ticker" tickerBytes header do
    let lastPrice ← Reader.getFloat32 (offset + 8)
    let ltt ← readEpochSeconds (offset + 12)
    return { header.base with lastPrice := some lastPrice, lastTradeTime := ltt }

def decodeQuote (offset : ℕ) (header : Header) : Reader Decoded :=
  sized "quote" quoteBytes header do
    let core ← readQuoteCore offset header.base
    readOhlc (offset + 34) core

def decodeOi (offset : ℕ) (header : Header) : Reader Decoded :=
  sized "OI" oiBytes header do
    let oi ← Reader.getInt32 (offset + 8)
    return { header.base with oi := some oi }

def decodePrevClose (offset : ℕ) (header : Header) : Reader Decoded :=
  sized "prev-close" prevCloseBytes header do
    let prevClose ← Reader.getFloat32 (offset + 8)
    let prevOi ← Reader.getInt32 (offset + 12)
    return { header.base with prevClose := some prevClose, prevOi := some prevOi }

/-- The core of a quote, with three open-interest fields in front of the OHLC. -/
def decodeFull (byteLength offset : ℕ) (header : Header) : Reader Decoded :=
  sized "full" fullBytes header do
    let core ← readQuoteCore offset header.base
    let oi ← Reader.getInt32 (offset + 34)
    let oiDayHigh ← Reader.getInt32 (offset + 38)
    let oiDayLow ← Reader.getInt32 (offset + 42)
    let ohlc ← readOhlc (offset + 46)
      { core with oi := some oi, oiDayHigh := some oiDayHigh, oiDayLow := some oiDayLow }
    let (bids, asks) ← readDepth byteLength (offset + 62)
    return { ohlc with bids := some bids, asks := some asks }

def decodeDisconnect (offset : ℕ) (header : Header) : Reader Decoded :=
  if 10 ≤ header.declaredLength then do
    let code ← Reader.getInt16 (offset + 8)
    return .ok { header.base with disconnectCode := some code }
  else return .ok { header.base with disconnectCode := some 0 }

/-- The packet behind a header. -/
def decodePacket (byteLength offset : ℕ) (header : Header) : Reader Decoded :=
  match dhanFeedCode header.code with
  | some .ticker | some .index => decodeTicker offset header
  | some .quote => decodeQuote offset header
  | some .oi => decodeOi offset header
  | some .prevClose => decodePrevClose offset header
  | some .full => decodeFull byteLength offset header
  | some .marketStatus => return .ok header.base
  | some .disconnect => decodeDisconnect offset header
  | none =>
    return .error s!"unknown Dhan feed response code {header.code} ({header.declaredLength} bytes)"

/-- A packet the walk took, with the bytes it fetched for it. -/
structure Visit where
  offset : ℕ
  declaredLength : Int
  fetched : List Access
  deriving DecidableEq, Repr

structure Walk where
  packets : List DhanFeedPacket := []
  errors : List String := []
  visits : List Visit := []
  /-- where the walk stopped -/
  consumed : ℕ
  deriving DecidableEq, Repr

/-- A packet in front of the rest of the walk. -/
def Walk.push (decoded : Except Unit Decoded) (code offset : ℕ) (visit : Visit) (rest : Walk) :
    Walk :=
  match decoded with
  | .ok (.ok packet) =>
    { rest with packets := packet :: rest.packets, visits := visit :: rest.visits }
  | .ok (.error message) =>
    { rest with errors := message :: rest.errors, visits := visit :: rest.visits }
  | .error _ =>
    { rest with
      errors := (s!"failed to decode code {code} at offset {offset}: " ++
        "Offset is outside the bounds of the DataView") :: rest.errors
      visits := visit :: rest.visits }

/-- The loop, with as many turns as the guard leaves. -/
def walk (view : List UInt8) (guard offset : ℕ) : Walk :=
  if view.length < offset + dhanHeaderBytes then { consumed := offset }
  else
    match guard with
    | 0 =>
      { errors := ["aborted decoding: implausible packet count in one frame"], consumed := offset }
    | guard + 1 =>
      match (readHeader offset).exec view with
      | .error _ => { consumed := offset }
      | .ok header =>
        if header.declaredLength ≤ 0 then
          { errors := [s!"packet at offset {offset} declared a non-positive length " ++
              s!"({header.declaredLength})"]
            consumed := offset }
        else if (view.length : Int) < offset + header.declaredLength then
          { errors := [s!"truncated packet at offset {offset}: declared " ++
              s!"{header.declaredLength} bytes, {view.length - offset} available"]
            consumed := offset }
        else
          let packet := decodePacket view.length offset header
          Walk.push (packet.exec view) header.code offset
            { offset := offset
              declaredLength := header.declaredLength
              fetched := (readHeader offset).trace view ++ packet.trace view }
            (walk view guard (offset + header.declaredLength.toNat))

def maxPackets : ℕ := 10000

structure DhanDecodeResult where
  packets : List DhanFeedPacket
  errors : List String
  deriving DecidableEq, Repr

/-- The walk over a frame. An empty frame is not an error. -/
def walkFrame (buffer : List UInt8) : Walk :=
  if buffer.length = 0 then { consumed := 0 }
  else if buffer.length < dhanHeaderBytes then
    { errors := [s!"frame shorter than the 8-byte header ({buffer.length} bytes)"], consumed := 0 }
  else walk buffer maxPackets 0

def decodeDhanFeed (buffer : List UInt8) : DhanDecodeResult :=
  ⟨(walkFrame buffer).packets, (walkFrame buffer).errors⟩

end Strikedge.DhanFeed
