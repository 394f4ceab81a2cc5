import Mathlib.Algebra.Group.Nat.Defs
import Strikedge.Machine.OrderedMap
import Strikedge.Machine.OrderedSet
import Strikedge.Machine.Run
import Strikedge.DhanFeed.FeedDecoder

/-!
# The shared market feed

`DhanFeed` of `feed.ts`. The packets of one socket are partial, so the feed keeps a state for
every token it wants and merges each packet into it; a packet that is attributed to a token
gives one tick. The state is dropped when a socket opens or closes, when a token is
unsubscribed and when the feed stops.

What the feed sends upstream, its log and the delay of a reconnect are left out. Sockets are
numbered as they are constructed.
-/

namespace Strikedge.DhanFeed

open Machine

def dhanCodeBySegment : DhanExchangeSegment → ℕ
  | .idxI => 0
  | .nseEq => 1
  | .nseFno => 2
  | .nseCurrency => 3
  | .bseEq => 4
  | .mcxComm => 5
  | .bseCurrency => 7
  | .bseFno => 8

/-- The codes name the segments they are decoded to. -/
@[simp] theorem dhanSegmentFromCode_code (segment : DhanExchangeSegment) :
    dhanSegmentFromCode (dhanCodeBySegment segment) = some segment := by
  cases segment <;> rfl

theorem dhanCodeBySegment_inj {a b : DhanExchangeSegment} :
    dhanCodeBySegment a = dhanCodeBySegment b ↔ a = b := by
  constructor
  · intro h
    have hsome := congrArg dhanSegmentFromCode h
    rw [dhanSegmentFromCode_code, dhanSegmentFromCode_code] at hsome
    exact Option.some.inj hsome
  · exact congrArg dhanCodeBySegment

structure DhanFeedInstrument where
  segment : DhanExchangeSegment
  securityId : Int
  deriving DecidableEq, Repr

/-- The accumulated state of an instrument. -/
structure FeedState where
  token : Int
  lastPrice : Float32Bits
  closePrice : Float32Bits
  oi : Int
  volume : Int
  bids : List DhanDepthLevel
  asks : List DhanDepthLevel
  receivedAt : Int
  deriving DecidableEq, Repr

structure Tick where
  token : Int
  lastPrice : Float32Bits
  closePrice : Float32Bits
  oi : Int
  bid : Float32Bits
  ask : Float32Bits
  bids : List DhanDepthLevel
  asks : List DhanDepthLevel
  depthUpdated : Bool
  deriving DecidableEq, Repr

/-- The comparison `price === 0`, which holds of both zeros. -/
def Float32Bits.isZero (price : Float32Bits) : Bool := price.toNat % 2 ^ 31 = 0

def bestPrice (levels : List DhanDepthLevel) : Float32Bits := (levels.head?.map (·.price)).getD 0

def toTick (state : FeedState) (depthUpdated : Bool) : Tick where
  token := state.token
  lastPrice := state.lastPrice
  closePrice := state.closePrice
  oi := state.oi
  bid := bestPrice state.bids
  ask := bestPrice state.asks
  bids := state.bids
  asks := state.asks
  depthUpdated := depthUpdated

/-- The state of a token that no packet has reached. -/
def FeedState.blank (token now : Int) : FeedState where
  token := token
  lastPrice := 0
  closePrice := 0
  oi := 0
  volume := 0
  bids := []
  asks := []
  receivedAt := now

/-- A value that a packet carries replaces the one held, and one that is empty after that is
filled by the fallback the packet carries. -/
def fill {α : Type} (isEmpty : α → Bool) (value fallback : Option α) (held : α) : α :=
  if isEmpty (value.getD held) then fallback.getD (value.getD held) else value.getD held

def merge (prior : Option FeedState) (token : Int) (packet : DhanFeedPacket) (now : Int) :
    FeedState :=
  let next := prior.getD (.blank token now)
  { next with
    lastPrice := packet.lastPrice.getD next.lastPrice
    closePrice := fill Float32Bits.isZero packet.close packet.prevClose next.closePrice
    oi := fill (· = 0) packet.oi packet.prevOi next.oi
    volume := packet.volume.getD next.volume
    bids := packet.bids.getD next.bids
    asks := packet.asks.getD next.asks
    receivedAt := now }

/-- The state of a `DhanFeed`. -/
structure MarketFeed where
  ws : Option ℕ := none
  connected : Bool := false
  wanted : List Int := []
  subscribed : List Int := []
  state : OrderedMap Int FeedState := ∅
  reconnectTimer : Bool := false
  reconnectAttempts : ℕ := 0
  disposed : Bool := false
  lastTickAt : Int := 0
  generation : ℕ := 0

/-- What constructing a socket comes to. -/
inductive SocketReply where
  | noCredentials
  | failed
  | created (socket : ℕ)
  deriving DecidableEq, Repr

/-- The close codes that no retry gets past. -/
def isAuthClose (code : Int) : Bool := code ∈ [1008, 4001, 4401, 4403]

/-- The packet is about the connection and no market data. -/
def isControl (packet : DhanFeedPacket) : Bool :=
  dhanFeedCode packet.code = some .disconnect || dhanFeedCode packet.code = some .marketStatus

/-- The packet carries a ladder. -/
def carriesDepth (packet : DhanFeedPacket) : Bool := packet.bids.isSome || packet.asks.isSome

namespace MarketFeed

variable (feed : MarketFeed)

def scheduleReconnect : MarketFeed :=
  if feed.disposed || feed.reconnectTimer then feed
  else { feed with reconnectAttempts := feed.reconnectAttempts + 1, reconnectTimer := true }

def ensureSocket (reply : SocketReply) : MarketFeed :=
  if feed.disposed || feed.ws.isSome then feed
  else
    match reply with
    | .noCredentials => feed
    | .failed => feed.scheduleReconnect
    | .created socket => { feed with ws := some socket }

/-- The tokens of a request that are not wanted yet. -/
def freshTokens (tokens : List Int) : List Int := tokens.filter (· ∉ feed.wanted)

def subscribeTokens (tokens : List Int) (reply : SocketReply) : MarketFeed :=
  let fresh := feed.freshTokens tokens
  if fresh = [] then feed
  else { feed with wanted := fresh.foldl addMember feed.wanted }.ensureSocket reply

def unsubscribeTokens (tokens : List Int) : MarketFeed :=
  let drop := tokens.filter (· ∈ feed.wanted)
  { feed with
    wanted := feed.wanted.filter (· ∉ drop)
    subscribed := feed.subscribed.filter (· ∉ drop)
    state := feed.state.filter fun token _ => decide (token ∉ drop) }

def onOpen (socket : ℕ) : MarketFeed :=
  if feed.ws ≠ some socket then feed
  else
    { feed with
      connected := true
      reconnectAttempts := 0
      generation := feed.generation + 1
      state := ∅
      lastTickAt := 0
      subscribed := [] }

def onClose (socket : ℕ) (code : Int) : MarketFeed :=
  if feed.ws ≠ some socket then feed
  else
    let dropped := { feed with
      ws := none
      connected := false
      subscribed := []
      state := ∅
      lastTickAt := 0 }
    if isAuthClose code then dropped else dropped.scheduleReconnect

def stop : MarketFeed :=
  { feed with
    reconnectTimer := false
    ws := none
    connected := false
    subscribed := []
    wanted := []
    state := ∅
    lastTickAt := 0 }

def dispose : MarketFeed := { feed with disposed := true }.stop

section Frames

variable (resolve : Int → Option DhanFeedInstrument)

/-- The token a packet is attributed to. -/
def tokenFor (packet : DhanFeedPacket) : Option Int :=
  packet.segment.bind fun segment =>
    feed.wanted.find? fun token =>
      (resolve token).any fun inst =>
        inst.securityId = packet.securityId &&
          dhanCodeBySegment inst.segment = dhanCodeBySegment segment

/-- One round of the loop of `handleFrame`. -/
def handlePacket (now : Int) (packet : DhanFeedPacket) : MarketFeed × Option Tick :=
  if isControl packet then (feed, none)
  else
    match feed.tokenFor resolve packet with
    | none => (feed, none)
    | some token =>
      let merged := merge (feed.state.get? token) token packet now
      ({ feed with
          subscribed := addMember feed.subscribed token
          state := feed.state.set token merged },
        some (toTick merged (carriesDepth packet)))

/-- The loop of `handleFrame`. -/
def handlePackets (feed : MarketFeed) (now : Int) : List DhanFeedPacket → MarketFeed × List Tick
  | [] => (feed, [])
  | packet :: packets =>
    let (after, tick) := feed.handlePacket resolve now packet
    let (last, ticks) := handlePackets after now packets
    (last, tick.toList ++ ticks)

/-- `handleFrame`, with the packets decoded: the feed after it and the ticks it hands on. -/
def handleFrame (now : Int) (packets : List DhanFeedPacket) : MarketFeed × List Tick :=
  let (after, ticks) := feed.handlePackets resolve now packets
  if ticks = [] then (after, []) else ({ after with lastTickAt := now }, ticks)

def onMessage (socket : ℕ) (now : Int) (packets : List DhanFeedPacket) : MarketFeed × List Tick :=
  if feed.ws ≠ some socket then (feed, []) else feed.handleFrame resolve now packets

end Frames

end MarketFeed

end Strikedge.DhanFeed
