import Mathlib.Data.List.Induction
import Strikedge.DhanFeed.Feed

/-!
# The feed is a fold over its socket's packets

A run lets sockets open, deliver and close as they like, in any interleaving with the calls
on the feed; a superseded socket may deliver late. The journal lists what each socket has
delivered and when a token became wanted. The state of a token is the merge of the packets
for it that the current socket has delivered since the token was last subscribed, field by
field the last value.
-/

namespace Strikedge.DhanFeed

open Machine

inductive FeedEvent where
  | subscribed (token : Int)
  | received (socket : ℕ) (packet : DhanFeedPacket) (now : Int)
  deriving DecidableEq, Repr

/-- A tick, the socket and the packet that gave it, and the journal up to that packet. -/
structure EmittedTick where
  tick : Tick
  socket : ℕ
  packet : DhanFeedPacket
  journal : List FeedEvent
  deriving DecidableEq, Repr

section Spec

variable (resolve : Int → Option DhanFeedInstrument)

/-- The packet carries market data of the instrument the token stands for. -/
def addresses (token : Int) (packet : DhanFeedPacket) : Bool :=
  !isControl packet && (resolve token).any fun inst =>
    packet.segment = some inst.segment && packet.securityId = inst.securityId

/-- The journal since the token last became wanted. -/
def sinceSubscribed (token : Int) (journal : List FeedEvent) : List FeedEvent :=
  (journal.reverse.takeWhile (· ≠ .subscribed token)).reverse

/-- The packet of an event, if it is for the token and from the socket. -/
def packetFor (socket : ℕ) (token : Int) : FeedEvent → Option (DhanFeedPacket × Int)
  | .subscribed _ => none
  | .received sender packet now =>
    if sender = socket ∧ addresses resolve token packet then some (packet, now) else none

/-- The packets for a token that a socket has delivered since the token was last subscribed. -/
def packetsFor (socket : ℕ) (token : Int) (journal : List FeedEvent) :
    List (DhanFeedPacket × Int) :=
  (sinceSubscribed token journal).filterMap (packetFor resolve socket token)

end Spec

/-- The last value the packets carry in a field. -/
def lastValue {α : Type} (field : DhanFeedPacket → Option α) (packets : List DhanFeedPacket) :
    Option α :=
  packets.reverse.findSome? field

/-- The value of a field with a fallback, which fills it while it is empty. -/
def filledValue {α : Type} (isEmpty : α → Bool) (value fallback : DhanFeedPacket → Option α)
    (first : α) (packets : List DhanFeedPacket) : α :=
  packets.foldl (fun held packet => fill isEmpty (value packet) (fallback packet) held) first

/-- The tick of a token from the packets it has received, field by field. -/
def mergedTick (token : Int) (packets : List DhanFeedPacket) (depthUpdated : Bool) : Tick where
  token := token
  lastPrice := (lastValue (·.lastPrice) packets).getD 0
  closePrice := filledValue Float32Bits.isZero (·.close) (·.prevClose) 0 packets
  oi := filledValue (· = 0) (·.oi) (·.prevOi) 0 packets
  bid := bestPrice ((lastValue (·.bids) packets).getD [])
  ask := bestPrice ((lastValue (·.asks) packets).getD [])
  bids := (lastValue (·.bids) packets).getD []
  asks := (lastValue (·.asks) packets).getD []
  depthUpdated := depthUpdated

/-- The state that packets leave, in the order they came. -/
def stateOf (token : Int) (packets : List (DhanFeedPacket × Int)) : Option FeedState :=
  packets.foldl (fun prior received => some (merge prior token received.1 received.2)) none

section Merge

variable {resolve : Int → Option DhanFeedInstrument} {token other : Int} {socket sender : ℕ}
variable {packet : DhanFeedPacket} {now : Int} {journal : List FeedEvent} {event : FeedEvent}
variable {packets : List (DhanFeedPacket × Int)}

theorem stateOf_concat :
    stateOf token (packets ++ [(packet, now)]) =
      some (merge (stateOf token packets) token packet now) := by
  rw [stateOf, List.foldl_append]
  rfl

theorem lastValue_concat {α : Type} {field : DhanFeedPacket → Option α}
    {packets : List DhanFeedPacket} {first : α} :
    (lastValue field (packets ++ [packet])).getD first =
      (field packet).getD ((lastValue field packets).getD first) := by
  rw [lastValue, List.reverse_append, List.reverse_singleton, List.singleton_append,
    List.findSome?_cons, lastValue]
  cases field packet <;> rfl

theorem filledValue_concat {α : Type} {isEmpty : α → Bool}
    {value fallback : DhanFeedPacket → Option α} {packets : List DhanFeedPacket} {first : α} :
    filledValue isEmpty value fallback first (packets ++ [packet]) =
      fill isEmpty (value packet) (fallback packet)
        (filledValue isEmpty value fallback first packets) := by
  rw [filledValue, List.foldl_append]
  rfl

/-- The state the packets leave, or the blank one, has the last value of every field. -/
theorem toTick_stateOf (token now : Int) (packets : List (DhanFeedPacket × Int)) (depth : Bool) :
    toTick ((stateOf token packets).getD (.blank token now)) depth =
      mergedTick token (packets.map (·.1)) depth := by
  induction packets using List.reverseRecOn generalizing now with
  | nil => rfl
  | append_singleton packets received ih =>
    obtain ⟨packet, at'⟩ := received
    have hprior := ih at'
    rw [toTick, mergedTick, Tick.mk.injEq] at hprior
    obtain ⟨htoken, hlast, hclose, hoi, -, -, hbids, hasks, -⟩ := hprior
    rw [stateOf_concat, Option.getD_some, List.map_append, List.map_singleton, toTick, mergedTick,
      Tick.mk.injEq]
    rw [lastValue_concat, lastValue_concat, lastValue_concat, filledValue_concat,
      filledValue_concat, ← hlast, ← hclose, ← hoi, ← hbids, ← hasks]
    exact ⟨htoken, rfl, rfl, rfl, rfl, rfl, rfl, rfl, rfl⟩

theorem toTick_merge :
    toTick (merge (stateOf token packets) token packet now) (carriesDepth packet) =
      mergedTick token ((packets ++ [(packet, now)]).map (·.1)) (carriesDepth packet) := by
  have h := toTick_stateOf token now (packets ++ [(packet, now)]) (carriesDepth packet)
  rwa [stateOf_concat, Option.getD_some] at h

theorem packetsFor_subscribed :
    packetsFor resolve socket token (journal ++ [.subscribed token]) = [] := by
  rw [packetsFor, sinceSubscribed, List.reverse_append, List.reverse_singleton,
    List.singleton_append, List.takeWhile_cons_of_neg (by simp)]
  rfl

theorem packetsFor_concat (h : event ≠ .subscribed token) :
    packetsFor resolve socket token (journal ++ [event]) =
      packetsFor resolve socket token journal ++ (packetFor resolve socket token event).toList := by
  rw [packetsFor, sinceSubscribed, List.reverse_append, List.reverse_singleton,
    List.singleton_append, List.takeWhile_cons_of_pos (by simpa using h), List.reverse_cons,
    List.filterMap_append, packetsFor, sinceSubscribed]
  cases hevent : packetFor resolve socket token event with
  | none => rw [List.filterMap_cons_none hevent]; rfl
  | some received => rw [List.filterMap_cons_some hevent]; rfl

/-- A socket that has delivered nothing has delivered nothing for a token. -/
theorem packetsFor_eq_nil (h : ∀ packet now, .received socket packet now ∉ journal) :
    packetsFor resolve socket token journal = [] := by
  rw [packetsFor, List.filterMap_eq_nil_iff]
  intro event hevent
  have hmem : event ∈ journal := by
    have htake := List.mem_reverse.mp hevent
    exact List.mem_reverse.mp ((List.takeWhile_sublist _).subset htake)
  cases event with
  | subscribed other => rfl
  | received sender packet now =>
    refine if_neg fun hsender => h packet now ?_
    exact hsender.1 ▸ hmem

end Merge

section Attribution

variable {resolve : Int → Option DhanFeedInstrument} {feed : MarketFeed} {token : Int}
variable {packet : DhanFeedPacket} {packets : List DhanFeedPacket} {now : Int}

/-- Different wanted tokens stand for different instruments. -/
def DistinctlyResolved (resolve : Int → Option DhanFeedInstrument) (wanted : List Int) : Prop :=
  ∀ a ∈ wanted, ∀ b ∈ wanted, (resolve a).isSome → resolve a = resolve b → a = b

instance (resolve : Int → Option DhanFeedInstrument) (wanted : List Int) :
    Decidable (DistinctlyResolved resolve wanted) :=
  inferInstanceAs (Decidable (∀ a ∈ wanted, ∀ b ∈ wanted, _ → _ → _))

theorem addresses_iff : addresses resolve token packet = true ↔
    isControl packet = false ∧ ∃ inst, resolve token = some inst ∧
      packet.segment = some inst.segment ∧ packet.securityId = inst.securityId := by
  rw [addresses, Bool.and_eq_true, Bool.not_eq_true', Option.any_eq_true]
  simp only [Bool.and_eq_true, decide_eq_true_eq]

/-- The packet addresses a token the feed wants. -/
def wants (resolve : Int → Option DhanFeedInstrument) (wanted : List Int)
    (packet : DhanFeedPacket) : Bool :=
  wanted.any fun token => addresses resolve token packet

theorem wants_iff {wanted : List Int} : wants resolve wanted packet = true ↔
    ∃ token ∈ wanted, addresses resolve token packet = true := List.any_eq_true

/-- A packet of market data is attributed to the first wanted token it addresses. -/
theorem tokenFor_eq (hdata : isControl packet = false) :
    feed.tokenFor resolve packet = feed.wanted.find? (addresses resolve · packet) := by
  rw [MarketFeed.tokenFor]
  cases hsegment : packet.segment with
  | none =>
    rw [Option.bind_none]
    refine (List.find?_eq_none.mpr fun token _ h => ?_).symm
    obtain ⟨-, inst, -, hsome, -⟩ := addresses_iff.mp h
    rw [hsegment] at hsome
    cases hsome
  | some segment =>
    rw [Option.bind_some]
    congr 1
    funext token
    rw [addresses, hdata, Bool.not_false, Bool.true_and]
    congr 1
    funext inst
    apply Bool.eq_iff_iff.mpr
    simp only [Bool.and_eq_true, decide_eq_true_eq, dhanCodeBySegment_inj, hsegment,
      Option.some.injEq]
    constructor
    · rintro ⟨hid, hcode⟩
      exact ⟨hcode.symm, hid.symm⟩
    · rintro ⟨hcode, hid⟩
      exact ⟨hid.symm, hcode.symm⟩

/-- A packet addresses one wanted token at most. -/
theorem addresses_unique (hdistinct : DistinctlyResolved resolve feed.wanted) {other : Int}
    (htoken : token ∈ feed.wanted) (hother : other ∈ feed.wanted)
    (h : addresses resolve token packet = true) (h' : addresses resolve other packet = true) :
    token = other := by
  obtain ⟨-, inst, hinst, hsegment, hid⟩ := addresses_iff.mp h
  obtain ⟨-, inst', hinst', hsegment', hid'⟩ := addresses_iff.mp h'
  obtain ⟨segment, securityId⟩ := inst
  obtain ⟨segment', securityId'⟩ := inst'
  obtain rfl : segment = segment' := Option.some.inj (hsegment.symm.trans hsegment')
  obtain rfl : securityId = securityId' := hid.symm.trans hid'
  exact hdistinct token htoken other hother (by rw [hinst]; rfl) (hinst.trans hinst'.symm)

/-- A packet is merged into the wanted token it addresses, or skipped. -/
theorem handlePacket_cases (resolve : Int → Option DhanFeedInstrument) (feed : MarketFeed)
    (now : Int) (packet : DhanFeedPacket) :
    (∃ token ∈ feed.wanted, addresses resolve token packet = true ∧
      feed.handlePacket resolve now packet =
        ({ feed with
            subscribed := addMember feed.subscribed token
            state := feed.state.set token (merge (feed.state.get? token) token packet now) },
          some (toTick (merge (feed.state.get? token) token packet now) (carriesDepth packet)))) ∨
      (∀ token ∈ feed.wanted, addresses resolve token packet = false) ∧
        feed.handlePacket resolve now packet = (feed, none) := by
  rw [MarketFeed.handlePacket]
  cases hcontrol : isControl packet with
  | true =>
    refine .inr ⟨fun token _ => ?_, if_pos rfl⟩
    rw [addresses, hcontrol]
    rfl
  | false =>
    rw [if_neg Bool.false_ne_true, tokenFor_eq hcontrol]
    cases hfind : feed.wanted.find? (addresses resolve · packet) with
    | none =>
      exact .inr ⟨fun token htoken =>
        Bool.eq_false_iff.mpr (List.find?_eq_none.mp hfind token htoken), rfl⟩
    | some token =>
      have haddresses := List.find?_some hfind
      exact .inl ⟨token, List.mem_of_find?_eq_some hfind, haddresses, rfl⟩

theorem handlePacket_wanted : (feed.handlePacket resolve now packet).1.wanted = feed.wanted := by
  obtain ⟨token, -, -, h⟩ | ⟨-, h⟩ := handlePacket_cases resolve feed now packet
  · rw [h]
  · rw [h]

theorem handlePackets_cons :
    feed.handlePackets resolve now (packet :: packets) =
      (((feed.handlePacket resolve now packet).1.handlePackets resolve now packets).1,
        (feed.handlePacket resolve now packet).2.toList ++
          ((feed.handlePacket resolve now packet).1.handlePackets resolve now packets).2) := rfl

/-- Packets that address no wanted token can be left out of a frame. -/
theorem handlePackets_filter :
    feed.handlePackets resolve now packets =
      feed.handlePackets resolve now (packets.filter (wants resolve feed.wanted)) := by
  induction packets generalizing feed with
  | nil => rfl
  | cons packet packets ih =>
    obtain ⟨token, htoken, haddresses, -⟩ | ⟨hnone, h⟩ :=
      handlePacket_cases resolve feed now packet
    · rw [List.filter_cons_of_pos (wants_iff.mpr ⟨token, htoken, haddresses⟩),
        handlePackets_cons, handlePackets_cons, ih, handlePacket_wanted]
    · have hskip : ¬ wants resolve feed.wanted packet = true := by
        intro hwants
        obtain ⟨token, htoken, haddresses⟩ := wants_iff.mp hwants
        rw [hnone token htoken] at haddresses
        cases haddresses
      rw [List.filter_cons_of_neg hskip, ← ih, handlePackets_cons, h]
      rfl

/-- Each packet that addresses a wanted token gives one tick, which says whether that packet
carries a ladder. -/
theorem handlePackets_depth :
    (feed.handlePackets resolve now packets).2.map (·.depthUpdated) =
      (packets.filter (wants resolve feed.wanted)).map carriesDepth := by
  induction packets generalizing feed with
  | nil => rfl
  | cons packet packets ih =>
    have hrest := @ih (feed.handlePacket resolve now packet).1
    rw [handlePacket_wanted] at hrest
    rw [handlePackets_cons, List.map_append, hrest]
    obtain ⟨token, htoken, haddresses, h⟩ | ⟨hnone, h⟩ :=
      handlePacket_cases resolve feed now packet
    · rw [List.filter_cons_of_pos (wants_iff.mpr ⟨token, htoken, haddresses⟩), h]
      rfl
    · have hskip : ¬ wants resolve feed.wanted packet = true := by
        intro hwants
        obtain ⟨token, htoken, haddresses⟩ := wants_iff.mp hwants
        rw [hnone token htoken] at haddresses
        cases haddresses
      rw [List.filter_cons_of_neg hskip, h]
      rfl

theorem handleFrame_eq :
    feed.handleFrame resolve now packets =
      ({ (feed.handlePackets resolve now packets).1 with
          lastTickAt := if (feed.handlePackets resolve now packets).2 = [] then
            (feed.handlePackets resolve now packets).1.lastTickAt else now },
        (feed.handlePackets resolve now packets).2) := by
  simp only [MarketFeed.handleFrame]
  split
  · rename_i hnone
    rw [hnone]
  · rfl

end Attribution

/-- The feed, its sockets and the books. -/
structure FeedRun where
  feed : MarketFeed := {}
  /-- the number of the next socket -/
  sockets : ℕ := 0
  opened : List ℕ := []
  closed : List ℕ := []
  journal : List FeedEvent := []
  emitted : List EmittedTick := []

inductive FeedLabel where
  | subscribe (tokens : List Int) (reply : SocketReply)
  | unsubscribe (tokens : List Int)
  | ensureSocket (reply : SocketReply)
  | reconnect (reply : SocketReply)
  | opens (socket : ℕ)
  | delivers (socket : ℕ) (packets : List DhanFeedPacket) (now : Int)
  | closes (socket : ℕ) (code : Int)
  | stop
  | dispose
  deriving DecidableEq, Repr

namespace FeedRun

section Step

variable (resolve : Int → Option DhanFeedInstrument)

/-- One packet on the current socket. -/
def deliver (now : Int) (socket : ℕ) (s : FeedRun) (packet : DhanFeedPacket) : FeedRun :=
  let journal := s.journal ++ [.received socket packet now]
  let (after, tick) := s.feed.handlePacket resolve now packet
  { s with
    feed := after
    journal := journal
    emitted := s.emitted ++ tick.toList.map (⟨·, socket, packet, journal⟩) }

/-- A new socket gets the next number. -/
def Numbered (s : FeedRun) (reply : SocketReply) : Prop :=
  ∀ socket, reply = .created socket → socket = s.sockets

instance (s : FeedRun) : ∀ reply, Decidable (s.Numbered reply)
  | .noCredentials => .isTrue nofun
  | .failed => .isTrue nofun
  | .created socket => decidable_of_iff (socket = s.sockets)
      ⟨fun h _ heq => (SocketReply.created.inj heq) ▸ h, fun h => h socket rfl⟩

/-- A socket opens once, delivers while it is open and closes once. -/
def step (s : FeedRun) : FeedLabel → Option FeedRun
  | .subscribe tokens reply =>
    if s.Numbered reply then some
      { s with
        feed := s.feed.subscribeTokens tokens reply
        sockets := s.sockets + 1
        journal := s.journal ++ (s.feed.freshTokens tokens).map .subscribed }
    else none
  | .unsubscribe tokens => some { s with feed := s.feed.unsubscribeTokens tokens }
  | .ensureSocket reply =>
    if s.Numbered reply then some
      { s with feed := s.feed.ensureSocket reply, sockets := s.sockets + 1 }
    else none
  | .reconnect reply =>
    if s.Numbered reply ∧ s.feed.reconnectTimer then some
      { s with
        feed := { s.feed with reconnectTimer := false }.ensureSocket reply
        sockets := s.sockets + 1 }
    else none
  | .opens socket =>
    if socket < s.sockets ∧ socket ∉ s.opened ∧ socket ∉ s.closed then some
      { s with feed := s.feed.onOpen socket, opened := socket :: s.opened }
    else none
  | .delivers socket packets now =>
    if socket ∈ s.opened ∧ socket ∉ s.closed then
      if s.feed.ws = some socket then some
        { packets.foldl (deliver resolve now socket) s with
          feed := (s.feed.onMessage resolve socket now packets).1 }
      else some
        { s with
          feed := (s.feed.onMessage resolve socket now packets).1
          journal := s.journal ++ packets.map (.received socket · now) }
    else none
  | .closes socket code =>
    if socket < s.sockets ∧ socket ∉ s.closed then some
      { s with feed := s.feed.onClose socket code, closed := socket :: s.closed }
    else none
  | .stop => some { s with feed := s.feed.stop }
  | .dispose => some { s with feed := s.feed.dispose }

/-- A frame comes while the wanted tokens stand for different instruments. -/
def Resolved (s : FeedRun) : FeedLabel → Prop
  | .delivers _ _ _ => DistinctlyResolved resolve s.feed.wanted
  | _ => True

instance (s : FeedRun) : ∀ label, Decidable (s.Resolved resolve label)
  | .delivers _ _ _ => inferInstanceAs (Decidable (DistinctlyResolved resolve s.feed.wanted))
  | .subscribe _ _ | .unsubscribe _ | .ensureSocket _ | .reconnect _ | .opens _ | .closes _ _
  | .stop | .dispose => .isTrue trivial

end Step

/-- The tick is the merge of what its token has received from its socket, the packet it comes
from being the last of it. -/
def Merged (resolve : Int → Option DhanFeedInstrument) (emitted : EmittedTick) : Prop :=
  ∃ before now, emitted.journal = before ++ [.received emitted.socket emitted.packet now] ∧
    addresses resolve emitted.tick.token emitted.packet = true ∧
    emitted.tick = mergedTick emitted.tick.token
      ((packetsFor resolve emitted.socket emitted.tick.token emitted.journal).map (·.1))
      (carriesDepth emitted.packet)

/-- The state of every wanted token is what the current socket's packets leave. -/
structure Folds (resolve : Int → Option DhanFeedInstrument) (s : FeedRun) : Prop where
  current : ∀ socket, s.feed.ws = some socket → ∀ token ∈ s.feed.wanted,
    s.feed.state.get? token = stateOf token (packetsFor resolve socket token s.journal)
  idle : s.feed.ws = none → ∀ token, s.feed.state.get? token = none
  unwanted : ∀ token, token ∉ s.feed.wanted → s.feed.state.get? token = none
  delivered : ∀ socket packet now, .received socket packet now ∈ s.journal → socket ∈ s.opened
  constructed : ∀ socket ∈ s.opened, socket < s.sockets
  connected : ∀ socket, s.feed.ws = some socket → socket < s.sockets
  ticks : ∀ emitted ∈ s.emitted, Merged resolve emitted

variable {resolve : Int → Option DhanFeedInstrument} {s t : FeedRun} {label : FeedLabel}

theorem folds_start : Folds resolve {} where
  current _ h := nomatch h
  idle _ _ := rfl
  unwanted _ _ := rfl
  delivered _ _ _ h := absurd h List.not_mem_nil
  constructed _ h := absurd h List.not_mem_nil
  connected _ h := nomatch h
  ticks _ h := absurd h List.not_mem_nil

/-- A socket that has not opened has delivered nothing. -/
theorem Folds.packetsFor_eq_nil (hs : s.Folds resolve) {socket : ℕ} (h : socket ∉ s.opened)
    (token : Int) : packetsFor resolve socket token s.journal = [] :=
  DhanFeed.packetsFor_eq_nil fun packet now hmem => h (hs.delivered socket packet now hmem)

/-- A feed without states folds as long as its socket has delivered nothing. -/
theorem Folds.clear (hs : s.Folds resolve) {feed : MarketFeed} {opened closed : List ℕ}
    (hstate : feed.state = ∅)
    (hopened : ∀ socket ∈ opened, socket ∈ s.opened ∨ feed.ws = some socket)
    (hkept : ∀ socket ∈ s.opened, socket ∈ opened)
    (hws : ∀ socket, feed.ws = some socket → socket ∉ s.opened ∧ socket < s.sockets) :
    ({ s with feed := feed, opened := opened, closed := closed } : FeedRun).Folds resolve := by
  have hnone : ∀ token, feed.state.get? token = none := fun token => by rw [hstate]; rfl
  refine ⟨fun socket hsocket token _ => ?_, fun _ => hnone, fun token _ => hnone token,
    fun socket packet now hmem => hkept socket (hs.delivered socket packet now hmem),
    fun socket hsocket => ?_, fun socket hsocket => (hws socket hsocket).2, hs.ticks⟩
  · have hnil := hs.packetsFor_eq_nil (hws socket hsocket).1 token
    exact (hnone token).trans (congrArg (stateOf token) hnil).symm
  · obtain hbefore | hcurrent := hopened socket hsocket
    · exact hs.constructed socket hbefore
    · exact (hws socket hcurrent).2

/-- A change of the feed that keeps its socket, its wanted tokens and their states. -/
theorem Folds.same (hs : s.Folds resolve) {feed : MarketFeed} {closed : List ℕ}
    (hws : feed.ws = s.feed.ws) (hwanted : feed.wanted = s.feed.wanted)
    (hstate : feed.state = s.feed.state) :
    ({ s with feed := feed, closed := closed } : FeedRun).Folds resolve := by
  refine ⟨fun socket hsocket token htoken => ?_, fun hnone token => ?_, fun token htoken => ?_,
    hs.delivered, hs.constructed, fun socket hsocket => hs.connected socket (hws ▸ hsocket),
    hs.ticks⟩
  · exact hstate ▸ hs.current socket (hws ▸ hsocket) token (hwanted ▸ htoken)
  · exact hstate ▸ hs.idle (hws ▸ hnone) token
  · exact hstate ▸ hs.unwanted token (hwanted ▸ htoken)

/-- Ensuring a socket changes neither what is wanted nor its states. It constructs a socket
where there is none, or keeps the one there is. -/
theorem ensureSocket_cases (feed : MarketFeed) (reply : SocketReply) :
    (feed.ensureSocket reply).wanted = feed.wanted ∧
      (feed.ensureSocket reply).state = feed.state ∧
      ((feed.ensureSocket reply).ws = feed.ws ∨ feed.ws = none ∧
        ∃ socket, reply = .created socket ∧ (feed.ensureSocket reply).ws = some socket) := by
  rw [MarketFeed.ensureSocket.eq_def]
  split
  · exact ⟨rfl, rfl, .inl rfl⟩
  · rename_i hopen
    have hnone : feed.ws = none := by
      cases hws : feed.ws with
      | none => rfl
      | some socket => exact absurd (by rw [hws, Option.isSome_some, Bool.or_true]) hopen
    cases reply with
    | noCredentials => exact ⟨rfl, rfl, .inl rfl⟩
    | failed =>
      dsimp only
      rw [MarketFeed.scheduleReconnect]
      split
      · exact ⟨rfl, rfl, .inl rfl⟩
      · exact ⟨rfl, rfl, .inl rfl⟩
    | created socket => exact ⟨rfl, rfl, .inr ⟨hnone, socket, rfl, rfl⟩⟩

/-- Ensuring a socket keeps the fold. -/
theorem Folds.ensure (hs : s.Folds resolve) {reply : SocketReply}
    (hreply : s.Numbered reply) :
    ({ s with feed := s.feed.ensureSocket reply, sockets := s.sockets + 1 } :
      FeedRun).Folds resolve := by
  obtain ⟨hwanted, hstate, hws⟩ := ensureSocket_cases s.feed reply
  have hlater : ∀ socket ∈ s.opened, socket < s.sockets + 1 := fun socket h =>
    Nat.lt_succ_of_lt (hs.constructed socket h)
  obtain hsame | ⟨hnone, socket, hcreated, hsocket⟩ := hws
  · have hkept : ({ s with feed := s.feed.ensureSocket reply } : FeedRun).Folds resolve :=
      hs.same hsame hwanted hstate
    exact { hkept with
      constructed := hlater
      connected := fun socket h => Nat.lt_succ_of_lt (hkept.connected socket h) }
  · obtain rfl := hreply socket hcreated
    have hfresh : s.sockets ∉ s.opened := fun h => Nat.lt_irrefl _ (hs.constructed _ h)
    refine ⟨fun other hother token _ => ?_, fun h => ?_, fun token htoken => ?_, hs.delivered,
      hlater, fun other hother => ?_, hs.ticks⟩
    · obtain rfl : s.sockets = other := Option.some.inj (hsocket.symm.trans hother)
      have hnil := hs.packetsFor_eq_nil hfresh token
      exact (hstate ▸ hs.idle hnone token).trans (congrArg (stateOf token) hnil).symm
    · exact absurd (hsocket.symm.trans h) (Option.some_ne_none _)
    · exact hstate ▸ hs.unwanted token (hwanted ▸ htoken)
    · obtain rfl : s.sockets = other := Option.some.inj (hsocket.symm.trans hother)
      exact Nat.lt_succ_self _

theorem packetsFor_fresh (socket : ℕ) (token : Int) (journal : List FeedEvent)
    (fresh : List Int) :
    packetsFor resolve socket token (journal ++ fresh.map .subscribed) =
      if token ∈ fresh then [] else packetsFor resolve socket token journal := by
  induction fresh using List.reverseRecOn with
  | nil => simp
  | append_singleton fresh last ih =>
    rw [List.map_append, List.map_singleton, ← List.append_assoc]
    by_cases hlast : last = token
    · subst hlast
      rw [packetsFor_subscribed, if_pos (List.mem_append_right _ List.mem_cons_self)]
    · rw [packetsFor_concat (fun h => hlast (FeedEvent.subscribed.inj h)), ih]
      simp [packetFor, Ne.symm hlast]

/-- Tokens that become wanted have received nothing since. -/
theorem Folds.subscribe (hs : s.Folds resolve) (tokens : List Int) :
    ({ s with
        feed := { s.feed with
          wanted := (s.feed.freshTokens tokens).foldl addMember s.feed.wanted }
        journal := s.journal ++ (s.feed.freshTokens tokens).map .subscribed } :
      FeedRun).Folds resolve := by
  have hfresh : ∀ token ∈ s.feed.freshTokens tokens, token ∉ s.feed.wanted := fun token h =>
    of_decide_eq_true (List.mem_filter.mp h).2
  refine ⟨fun socket hsocket token htoken => ?_, hs.idle, fun token htoken => ?_,
    fun socket packet now hmem => ?_, hs.constructed, hs.connected, hs.ticks⟩
  · rw [packetsFor_fresh]
    by_cases hnew : token ∈ s.feed.freshTokens tokens
    · rw [if_pos hnew]
      exact hs.unwanted token (hfresh token hnew)
    · rw [if_neg hnew]
      exact hs.current socket hsocket token ((mem_foldl_addMember.mp htoken).resolve_left hnew)
  · exact hs.unwanted token fun h => htoken (mem_foldl_addMember.mpr (.inr h))
  · obtain hmem | hmem := List.mem_append.mp hmem
    · exact hs.delivered socket packet now hmem
    · obtain ⟨token, -, h⟩ := List.mem_map.mp hmem
      cases h

/-- Tokens that are no longer wanted have no state. -/
theorem Folds.unsubscribe (hs : s.Folds resolve) (tokens : List Int) :
    ({ s with feed := s.feed.unsubscribeTokens tokens } : FeedRun).Folds resolve := by
  have hget : ∀ token, (s.feed.unsubscribeTokens tokens).state.get? token =
      if token ∈ tokens.filter (· ∈ s.feed.wanted) then none
      else s.feed.state.get? token := by
    intro token
    rw [MarketFeed.unsubscribeTokens, OrderedMap.get?_filter]
    split
    · rename_i hdrop
      cases s.feed.state.get? token with
      | none => rfl
      | some state => rw [Option.filter_some, if_neg (by simpa using hdrop)]
    · rename_i hkeep
      cases s.feed.state.get? token with
      | none => rfl
      | some state => rw [Option.filter_some, if_pos (decide_eq_true hkeep)]
  refine ⟨fun socket hsocket token htoken => ?_, fun hnone token => ?_, fun token htoken => ?_,
    hs.delivered, hs.constructed, hs.connected, hs.ticks⟩
  · obtain ⟨hwanted, hkeep⟩ := List.mem_filter.mp htoken
    rw [hget, if_neg (of_decide_eq_true hkeep)]
    exact hs.current socket hsocket token hwanted
  · rw [hget, hs.idle hnone token, ite_self]
  · rw [hget]
    split
    · rfl
    · rename_i hkeep
      refine hs.unwanted token fun hwanted => htoken ?_
      exact List.mem_filter.mpr ⟨hwanted, decide_eq_true hkeep⟩

/-- A packet on the current socket is merged into the token it addresses, whose state is then
what its packets leave, and gives the tick of that state. -/
theorem Folds.deliver (hs : s.Folds resolve) {socket : ℕ} {now : Int} {packet : DhanFeedPacket}
    (hsocket : s.feed.ws = some socket) (hopened : socket ∈ s.opened)
    (hdistinct : DistinctlyResolved resolve s.feed.wanted) :
    (s.deliver resolve now socket packet).Folds resolve := by
  have hreceived : ∀ token, packetsFor resolve socket token
      (s.journal ++ [.received socket packet now]) =
        packetsFor resolve socket token s.journal ++
          if addresses resolve token packet = true then [(packet, now)] else [] := by
    intro token
    have hne : FeedEvent.received socket packet now ≠ .subscribed token := nofun
    rw [packetsFor_concat hne, packetFor]
    by_cases haddresses : addresses resolve token packet = true
    · rw [if_pos ⟨rfl, haddresses⟩, if_pos haddresses, Option.toList_some]
    · rw [if_neg fun h => haddresses h.2, if_neg haddresses, Option.toList_none]
  have hdelivered : ∀ sender other at', .received sender other at' ∈
      s.journal ++ [.received socket packet now] → sender ∈ s.opened := by
    intro sender other at' hmem
    obtain hmem | hmem := List.mem_append.mp hmem
    · exact hs.delivered sender other at' hmem
    · cases List.mem_singleton.mp hmem
      exact hopened
  rw [FeedRun.deliver]
  obtain ⟨token, htoken, haddresses, h⟩ | ⟨hnone, h⟩ :=
    handlePacket_cases resolve s.feed now packet
  · have hprior := hs.current socket hsocket token htoken
    rw [h]
    refine ⟨fun other hother known hknown => ?_, fun hclosed => ?_, fun other hother => ?_,
      hdelivered, hs.constructed, hs.connected, fun emitted hemitted => ?_⟩
    · obtain rfl : socket = other := Option.some.inj (hsocket.symm.trans hother)
      rw [OrderedMap.get?_set, hreceived]
      by_cases hsame : known = token
      · rw [if_pos hsame, hsame, if_pos haddresses, stateOf_concat, hprior]
      · have hquiet : ¬ addresses resolve known packet = true := fun h' =>
          hsame (addresses_unique hdistinct hknown htoken h' haddresses)
        rw [if_neg hsame, if_neg hquiet, List.append_nil]
        exact hs.current socket hsocket known hknown
    · exact absurd (hsocket.symm.trans hclosed) (Option.some_ne_none _)
    · have hne : other ≠ token := fun heq => hother (heq ▸ htoken)
      rw [OrderedMap.get?_set, if_neg hne]
      exact hs.unwanted other hother
    · obtain hemitted | hemitted := List.mem_append.mp hemitted
      · exact hs.ticks emitted hemitted
      · obtain rfl := List.mem_singleton.mp hemitted
        refine ⟨s.journal, now, rfl, ?_, ?_⟩
        · rw [hprior, toTick_merge]
          exact haddresses
        · rw [hprior, toTick_merge]
          show _ = mergedTick token ((packetsFor resolve socket token _).map (·.1)) _
          rw [hreceived, if_pos haddresses]
  · rw [h]
    refine ⟨fun other hother known hknown => ?_, hs.idle, hs.unwanted,
      hdelivered, hs.constructed, hs.connected, fun emitted hemitted => ?_⟩
    · obtain rfl : socket = other := Option.some.inj (hsocket.symm.trans hother)
      rw [hreceived, if_neg (by rw [hnone known hknown]; exact Bool.false_ne_true),
        List.append_nil]
      exact hs.current socket hsocket known hknown
    · exact hs.ticks emitted (by simpa using hemitted)

theorem packetsFor_other {socket sender : ℕ} (hne : sender ≠ socket) (token now : Int)
    (journal : List FeedEvent) (packets : List DhanFeedPacket) :
    packetsFor resolve socket token (journal ++ packets.map (.received sender · now)) =
      packetsFor resolve socket token journal := by
  induction packets using List.reverseRecOn with
  | nil => rw [List.map_nil, List.append_nil]
  | append_singleton packets packet ih =>
    have hreceived : FeedEvent.received sender packet now ≠ .subscribed token := nofun
    rw [List.map_append, List.map_singleton, ← List.append_assoc, packetsFor_concat hreceived, ih,
      packetFor, if_neg fun h => hne h.1, Option.toList_none, List.append_nil]

/-- What a superseded socket delivers is no part of the fold. -/
theorem Folds.superseded (hs : s.Folds resolve) {socket : ℕ} {now : Int}
    {packets : List DhanFeedPacket} (hsocket : s.feed.ws ≠ some socket)
    (hopened : socket ∈ s.opened) :
    ({ s with journal := s.journal ++ packets.map (.received socket · now) } :
      FeedRun).Folds resolve := by
  refine ⟨fun other hother token htoken => ?_, hs.idle, hs.unwanted,
    fun sender packet at' hmem => ?_, hs.constructed, hs.connected, hs.ticks⟩
  · have hne : socket ≠ other := fun heq => hsocket (heq ▸ hother)
    rw [packetsFor_other hne]
    exact hs.current other hother token htoken
  · obtain hmem | hmem := List.mem_append.mp hmem
    · exact hs.delivered sender packet at' hmem
    · obtain ⟨received, -, h⟩ := List.mem_map.mp hmem
      cases h
      exact hopened

/-- What delivering a packet leaves alone. -/
theorem deliver_frame (s : FeedRun) (socket : ℕ) (now : Int) (packet : DhanFeedPacket) :
    (s.deliver resolve now socket packet).feed.ws = s.feed.ws ∧
      (s.deliver resolve now socket packet).feed.wanted = s.feed.wanted ∧
      (s.deliver resolve now socket packet).opened = s.opened := by
  rw [FeedRun.deliver]
  obtain ⟨token, -, -, h⟩ | ⟨-, h⟩ := handlePacket_cases resolve s.feed now packet
  · rw [h]
    exact ⟨rfl, rfl, rfl⟩
  · rw [h]
    exact ⟨rfl, rfl, rfl⟩

/-- The packets of a frame, one after the other. -/
theorem Folds.deliverAll (hs : s.Folds resolve) {socket : ℕ} (now : Int)
    (packets : List DhanFeedPacket) (hsocket : s.feed.ws = some socket)
    (hopened : socket ∈ s.opened) (hdistinct : DistinctlyResolved resolve s.feed.wanted) :
    (packets.foldl (FeedRun.deliver resolve now socket) s).Folds resolve := by
  induction packets generalizing s with
  | nil => exact hs
  | cons packet packets ih =>
    obtain ⟨hws, hwanted, hstill⟩ : (s.deliver resolve now socket packet).feed.ws = _ ∧ _ :=
      deliver_frame s socket now packet
    exact ih (hs.deliver hsocket hopened hdistinct) (hws.trans hsocket) (hstill ▸ hopened)
      (hwanted ▸ hdistinct)

/-- Delivering the packets of a frame is the loop of `handleFrame`. -/
theorem deliver_handlePackets (s : FeedRun) (socket : ℕ) (now : Int)
    (packets : List DhanFeedPacket) :
    (packets.foldl (FeedRun.deliver resolve now socket) s).feed =
        (s.feed.handlePackets resolve now packets).1 ∧
      (packets.foldl (FeedRun.deliver resolve now socket) s).emitted.map (·.tick) =
        s.emitted.map (·.tick) ++ (s.feed.handlePackets resolve now packets).2 := by
  induction packets generalizing s with
  | nil => exact ⟨rfl, (List.append_nil _).symm⟩
  | cons packet packets ih =>
    obtain ⟨hfeed, hticks⟩ := ih (s.deliver resolve now socket packet)
    rw [List.foldl_cons, handlePackets_cons]
    refine ⟨hfeed, hticks.trans ?_⟩
    rw [← List.append_assoc]
    congr 1
    rw [FeedRun.deliver, List.map_append, List.map_map]
    exact congrArg _ (List.map_id _)

theorem folds_step (hs : s.Folds resolve) (hlabel : s.Resolved resolve label)
    (hstep : step resolve s label = some t) : t.Folds resolve := by
  cases label with
  | subscribe tokens reply =>
    obtain ⟨hreply, hstep⟩ := Option.ite_none_right_eq_some.mp hstep
    obtain rfl := Option.some.inj hstep
    rw [MarketFeed.subscribeTokens]
    by_cases hfresh : s.feed.freshTokens tokens = []
    · rw [if_pos hfresh, hfresh, List.map_nil, List.append_nil]
      exact { hs with
        constructed := fun socket h => Nat.lt_succ_of_lt (hs.constructed socket h)
        connected := fun socket h => Nat.lt_succ_of_lt (hs.connected socket h) }
    · rw [if_neg hfresh]
      exact (hs.subscribe tokens).ensure hreply
  | unsubscribe tokens => exact Option.some.inj hstep ▸ hs.unsubscribe tokens
  | ensureSocket reply =>
    obtain ⟨hreply, hstep⟩ := Option.ite_none_right_eq_some.mp hstep
    exact Option.some.inj hstep ▸ hs.ensure hreply
  | reconnect reply =>
    obtain ⟨⟨hreply, -⟩, hstep⟩ := Option.ite_none_right_eq_some.mp hstep
    obtain rfl := Option.some.inj hstep
    have hfired : ({ s with feed := { s.feed with reconnectTimer := false } } :
        FeedRun).Folds resolve := hs.same rfl rfl rfl
    exact hfired.ensure hreply
  | opens socket =>
    obtain ⟨⟨hlt, hfresh, -⟩, hstep⟩ := Option.ite_none_right_eq_some.mp hstep
    obtain rfl := Option.some.inj hstep
    rw [MarketFeed.onOpen]
    by_cases hcurrent : s.feed.ws = some socket
    · rw [if_neg (not_not.mpr hcurrent)]
      refine hs.clear rfl (fun other hother => ?_) (fun other h => List.mem_cons_of_mem _ h)
        fun other hother => ?_
      · obtain rfl | hother := List.mem_cons.mp hother
        · exact .inr hcurrent
        · exact .inl hother
      · obtain rfl : socket = other := Option.some.inj (hcurrent.symm.trans hother)
        exact ⟨hfresh, hlt⟩
    · rw [if_pos hcurrent]
      exact { hs with
        delivered := fun sender packet now h =>
          List.mem_cons_of_mem _ (hs.delivered sender packet now h)
        constructed := fun other hother => by
          obtain rfl | hother := List.mem_cons.mp hother
          · exact hlt
          · exact hs.constructed other hother }
  | delivers socket packets now =>
    obtain ⟨⟨hopened, -⟩, hstep⟩ := Option.ite_none_right_eq_some.mp hstep
    by_cases hcurrent : s.feed.ws = some socket
    · rw [if_pos hcurrent] at hstep
      obtain rfl := Option.some.inj hstep
      have hafter := hs.deliverAll now packets hcurrent hopened hlabel
      obtain ⟨hfeed, -⟩ : _ = (s.feed.handlePackets resolve now packets).1 ∧ _ :=
        deliver_handlePackets s socket now packets
      rw [MarketFeed.onMessage, if_neg (not_not.mpr hcurrent), handleFrame_eq, ← hfeed]
      exact hafter.same rfl rfl rfl
    · rw [if_neg hcurrent] at hstep
      obtain rfl := Option.some.inj hstep
      rw [MarketFeed.onMessage, if_pos hcurrent]
      exact hs.superseded hcurrent hopened
  | closes socket code =>
    obtain ⟨-, hstep⟩ := Option.ite_none_right_eq_some.mp hstep
    obtain rfl := Option.some.inj hstep
    rw [MarketFeed.onClose]
    by_cases hcurrent : s.feed.ws = some socket
    · rw [if_neg (not_not.mpr hcurrent)]
      dsimp only
      split
      · exact hs.clear rfl (fun _ h => .inl h) (fun _ h => h) nofun
      · rw [MarketFeed.scheduleReconnect]
        split
        · exact hs.clear rfl (fun _ h => .inl h) (fun _ h => h) nofun
        · exact hs.clear rfl (fun _ h => .inl h) (fun _ h => h) nofun
    · rw [if_pos hcurrent]
      exact hs.same rfl rfl rfl
  | stop =>
    obtain rfl := Option.some.inj hstep
    exact hs.clear rfl (fun _ h => .inl h) (fun _ h => h) nofun
  | dispose =>
    obtain rfl := Option.some.inj hstep
    exact hs.clear rfl (fun _ h => .inl h) (fun _ h => h) nofun

/-- The ticks a frame hands on are added to the log. -/
theorem emitted_delivers {socket : ℕ} {packets : List DhanFeedPacket} {now : Int}
    (hstep : step resolve s (.delivers socket packets now) = some t) :
    t.emitted.map (·.tick) =
      s.emitted.map (·.tick) ++ (s.feed.onMessage resolve socket now packets).2 := by
  obtain ⟨-, hstep⟩ := Option.ite_none_right_eq_some.mp hstep
  rw [MarketFeed.onMessage]
  by_cases hcurrent : s.feed.ws = some socket
  · rw [if_pos hcurrent] at hstep
    obtain rfl := Option.some.inj hstep
    rw [if_neg (not_not.mpr hcurrent), handleFrame_eq]
    exact (deliver_handlePackets s socket now packets).2
  · rw [if_neg hcurrent] at hstep
    obtain rfl := Option.some.inj hstep
    rw [if_pos hcurrent]
    exact (List.append_nil _).symm

end FeedRun

open FeedRun in
/-- Over every run, each tick is the field-wise merge of the packets its token has received on
the socket it comes from since the token was last subscribed. A superseded socket changes
nothing, nor does a packet that no wanted token is addressed by, and every other packet gives
one tick, which has `depth_updated` if that packet carries a ladder. -/
theorem feed_folds_current_socket (resolve : Int → Option DhanFeedInstrument)
    {labels : List FeedLabel} {s : FeedRun}
    (hresolved : Heeds (step resolve) (Resolved resolve) {} labels)
    (hrun : run (step resolve) {} labels = some s) :
    (∀ emitted ∈ s.emitted, Merged resolve emitted) ∧
      (∀ socket now packets, s.feed.ws ≠ some socket →
        s.feed.onMessage resolve socket now packets = (s.feed, [])) ∧
      (∀ now packets, s.feed.handleFrame resolve now packets =
        s.feed.handleFrame resolve now (packets.filter (wants resolve s.feed.wanted))) ∧
      (∀ now packets, (s.feed.handleFrame resolve now packets).2.map (·.depthUpdated) =
        (packets.filter (wants resolve s.feed.wanted)).map carriesDepth) ∧
      ∀ socket packets now t, step resolve s (.delivers socket packets now) = some t →
        t.emitted.map (·.tick) =
          s.emitted.map (·.tick) ++ (s.feed.onMessage resolve socket now packets).2 := by
  have hfolds : s.Folds resolve :=
    (Throughout.of_heeds (fun _ _ _ hs hlabel hstep => folds_step hs hlabel hstep)
      folds_start hresolved).last hrun
  refine ⟨hfolds.ticks, fun socket now packets hsocket => if_pos hsocket,
    fun now packets => ?_, fun now packets => ?_, fun socket packets now t => emitted_delivers⟩
  · rw [handleFrame_eq, handleFrame_eq, handlePackets_filter]
  · rw [handleFrame_eq]
    exact handlePackets_depth

namespace FeedRun.Sample

/-- An option and a share with the same security id. -/
def instruments : Int → Option DhanFeedInstrument
  | 7 => some ⟨.nseFno, 50001⟩
  | 8 => some ⟨.nseEq, 50001⟩
  | _ => none

def ticker (segment : DhanExchangeSegment) (price : Float32Bits) : DhanFeedPacket where
  code := 2
  segment := some segment
  segmentCode := dhanCodeBySegment segment
  securityId := 50001
  lastPrice := some price

def full (price close : Float32Bits) (bids asks : List DhanDepthLevel) : DhanFeedPacket where
  code := 8
  segment := some .nseFno
  segmentCode := 2
  securityId := 50001
  lastPrice := some price
  close := some close
  bids := some bids
  asks := some asks

def prevClose (close : Float32Bits) (oi : Int) : DhanFeedPacket where
  code := 6
  segment := some .nseFno
  segmentCode := 2
  securityId := 50001
  prevClose := some close
  prevOi := some oi

/-- A book, partial packets over it, packets of a token that is not wanted and of one that is
subscribed again, and a second socket that the first one's packets come after. -/
def twoSockets : List FeedLabel :=
  [.subscribe [7] (.created 0), .opens 0,
    .delivers 0 [full 0x41200000 0 [⟨0x411F0000, 75, 1⟩] [], ticker .nseEq 0x42C80000,
      prevClose 0x41100000 400, ticker .nseFno 0x41280000] 100,
    .unsubscribe [7], .delivers 0 [ticker .nseFno 0x41300000] 200,
    .subscribe [7, 8] .noCredentials, .delivers 0 [ticker .nseFno 0x41380000] 300,
    .stop, .subscribe [8, 7] (.created 2), .opens 2,
    .delivers 0 [full 0x41400000 0 [] []] 400, .delivers 2 [prevClose 0x41180000 500] 500]

end FeedRun.Sample

open FeedRun FeedRun.Sample in
theorem feed_folds_current_socket_sample :
    ∃ s, run (step instruments) {} twoSockets = some s ∧
      s.emitted.map (fun emitted => (emitted.socket, emitted.tick.lastPrice,
        emitted.tick.closePrice, emitted.tick.oi, emitted.tick.bid, emitted.tick.depthUpdated)) =
        [(0, 0x41200000, 0, 0, 0x411F0000, true),
          (0, 0x41200000, 0x41100000, 400, 0x411F0000, false),
          (0, 0x41280000, 0x41100000, 400, 0x411F0000, false),
          (0, 0x41380000, 0, 0, 0, false), (2, 0, 0x41180000, 500, 0, false)] ∧
      ∀ emitted ∈ s.emitted, Merged instruments emitted := by
  have hend : (run (step instruments) {} twoSockets).any (fun s =>
      s.emitted.map (fun emitted => (emitted.socket, emitted.tick.lastPrice,
        emitted.tick.closePrice, emitted.tick.oi, emitted.tick.bid, emitted.tick.depthUpdated)) =
        [(0, 0x41200000, 0, 0, 0x411F0000, true),
          (0, 0x41200000, 0x41100000, 400, 0x411F0000, false),
          (0, 0x41280000, 0x41100000, 400, 0x411F0000, false),
          (0, 0x41380000, 0, 0, 0, false), (2, 0, 0x41180000, 500, 0, false)]) := by decide +kernel
  obtain ⟨s, hrun, hticks⟩ := (Option.any_eq_true _ _).mp hend
  exact ⟨s, hrun, of_decide_eq_true hticks,
    (feed_folds_current_socket instruments (by decide +kernel) hrun).1⟩

end Strikedge.DhanFeed
