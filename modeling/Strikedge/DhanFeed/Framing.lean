import Mathlib.Data.List.Infix
import Mathlib.Tactic.Linarith
import Strikedge.DhanFeed.FeedDecoder

/-!
# Feed decoding is compositional

A frame of well-formed packets decodes to what its packets decode to, and bytes behind a frame
leave the packets in front of them as they are. A walk fetches no byte behind the packet it is at
as long as no packet declares less than a header. Bytes that are left over are reported, except
for a tail too short for a header behind packets that raise no error themselves.
-/

namespace Strikedge.DhanFeed

open Machine

/-- The length the packet at a position declares. -/
def declaredAt (b : List UInt8) (offset : ℕ) : Int :=
  (BitVec.ofNat 16 (Reader.littleEndian ((b.drop (offset + 1)).take 2))).toInt

def codeAt (b : List UInt8) (offset : ℕ) : ℕ := Reader.littleEndian ((b.drop offset).take 1)

def headerAt (b : List UInt8) (offset : ℕ) : Header where
  code := codeAt b offset
  declaredLength := declaredAt b offset
  segmentCode := codeAt b (offset + 3)
  securityId :=
    (BitVec.ofNat 32 (Reader.littleEndian ((b.drop (offset + 4)).take 4))).toInt

/-- A header fits, and the length it declares is positive and within the frame. -/
def Taken (b : List UInt8) (offset : ℕ) : Prop :=
  offset + dhanHeaderBytes ≤ b.length ∧ 0 < declaredAt b offset ∧
    (offset : Int) + declaredAt b offset ≤ b.length

instance (b : List UInt8) (offset : ℕ) : Decidable (Taken b offset) :=
  inferInstanceAs (Decidable (_ ∧ _))

/-- The position so many packets further on. -/
def advance (b : List UInt8) : ℕ → ℕ → Option ℕ
  | 0, offset => some offset
  | packets + 1, offset =>
    if Taken b offset then advance b packets (offset + (declaredAt b offset).toNat) else none

/-- The bytes that a packet of a code has to have. -/
def DhanFeedCode.bytes : DhanFeedCode → ℕ
  | .index | .ticker => tickerBytes
  | .quote => quoteBytes
  | .oi => oiBytes
  | .prevClose => prevCloseBytes
  | .full => fullBytes
  | .marketStatus | .disconnect => 0

/-- The packet has a known code and the bytes its code needs. -/
def Quiet (b : List UInt8) (offset : ℕ) : Prop :=
  ∃ code, dhanFeedCode (codeAt b offset) = some code ∧ code.bytes ≤ declaredAt b offset

/-- Some packet declares less than a header. -/
def ShortPacket (b : List UInt8) : Prop :=
  ∃ packets < maxPackets, ∃ offset, advance b packets 0 = some offset ∧ Taken b offset ∧
    declaredAt b offset < dhanHeaderBytes

/-- Too few bytes for a header are left behind packets that raise no error. -/
def ShortTail (b : List UInt8) : Prop :=
  dhanHeaderBytes ≤ b.length ∧ ∃ packets ≤ maxPackets, ∃ offset,
    advance b packets 0 = some offset ∧ offset < b.length ∧
      b.length < offset + dhanHeaderBytes ∧
      ∀ i < packets, ∀ at', advance b i 0 = some at' → Quiet b at'

/-- A packet alone in its bytes. -/
def WellFormed (packet : List UInt8) : Prop :=
  dhanHeaderBytes ≤ packet.length ∧ declaredAt packet 0 = packet.length

/-- The walk keeps to the packets and leaves no byte unreported. -/
structure Disciplined (b : List UInt8) : Prop where
  within : ∀ visit ∈ (walkFrame b).visits, ∀ access ∈ visit.fetched,
    visit.offset ≤ access.start ∧
      (access.start + access.size : Int) ≤ visit.offset + visit.declaredLength
  /-- No header lies inside another packet. -/
  apart : (walkFrame b).visits.Pairwise fun v w =>
    (v.offset : Int) + v.declaredLength ≤ w.offset ∧ v.offset + dhanHeaderBytes ≤ w.offset
  leftover : (walkFrame b).consumed < b.length → (walkFrame b).errors ≠ []

section Packet

variable {b rest : List UInt8} {offset low high byteLength : ℕ} {header : Header}
variable {out : DhanFeedPacket}

theorem readHeader_within : Reader.Within offset (offset + 8) (readHeader offset) := by
  refine (Reader.within_getUint8 ?_ ?_).bind fun _ => (Reader.within_getInt16 ?_ ?_).bind fun _ =>
    (Reader.within_getUint8 ?_ ?_).bind fun _ => (Reader.within_getInt32 ?_ ?_).bind fun _ =>
    Reader.within_pure _ <;> omega

theorem exec_readHeader (hfits : offset + 8 ≤ b.length) :
    (readHeader offset).exec b = .ok (headerAt b offset) := by
  rw [readHeader, Reader.exec_bind_of_ok (Reader.exec_getUint8 (by omega)),
    Reader.exec_bind_of_ok (Reader.exec_getInt16 (by omega)),
    Reader.exec_bind_of_ok (Reader.exec_getUint8 (by omega)),
    Reader.exec_bind_of_ok (Reader.exec_getInt32 (by omega))]
  rfl

/-- The header is fetched to its end, whatever length it declares. -/
theorem securityId_fetched (hfits : offset + 8 ≤ b.length) :
    (⟨offset + 4, 4⟩ : Access) ∈ (readHeader offset).trace b := by
  rw [readHeader, Reader.trace_bind_of_ok (Reader.exec_getUint8 (by omega)),
    Reader.trace_bind_of_ok (Reader.exec_getInt16 (by omega)),
    Reader.trace_bind_of_ok (Reader.exec_getUint8 (by omega)),
    Reader.trace_bind_of_ok (Reader.exec_getInt32 (by omega)),
    Reader.trace_getInt32 (by omega)]
  simp

theorem within_readEpochSeconds (hlow : low ≤ offset) (hhigh : offset + 4 ≤ high) :
    Reader.Within low high (readEpochSeconds offset) :=
  (Reader.within_getInt32 hlow hhigh).bind fun _ => Reader.within_pure _

theorem within_readQuoteCore (hhigh : offset + 34 ≤ high) :
    Reader.Within offset high (readQuoteCore offset out) := by
  refine (Reader.within_getFloat32 ?_ ?_).bind fun _ => (Reader.within_getInt16 ?_ ?_).bind
    fun _ => (within_readEpochSeconds ?_ ?_).bind fun _ =>
    (Reader.within_getFloat32 ?_ ?_).bind fun _ => (Reader.within_getInt32 ?_ ?_).bind fun _ =>
    (Reader.within_getInt32 ?_ ?_).bind fun _ => (Reader.within_getInt32 ?_ ?_).bind fun _ =>
    Reader.within_pure _ <;> omega

theorem within_readOhlc (hlow : low ≤ offset) (hhigh : offset + 16 ≤ high) :
    Reader.Within low high (readOhlc offset out) := by
  refine (Reader.within_getFloat32 ?_ ?_).bind fun _ => (Reader.within_getFloat32 ?_ ?_).bind
    fun _ => (Reader.within_getFloat32 ?_ ?_).bind fun _ =>
    (Reader.within_getFloat32 ?_ ?_).bind fun _ => Reader.within_pure _ <;> omega

theorem within_readLevels (levels : ℕ) (hlow : low ≤ offset)
    (hhigh : offset + levels * depthLevelBytes ≤ high) :
    Reader.Within low high (readLevels byteLength levels offset) := by
  induction levels generalizing offset with
  | zero => exact Reader.within_pure _
  | succ levels ih =>
      rw [Nat.succ_mul] at hhigh
      simp only [depthLevelBytes] at hhigh ih
      rw [readLevels]
      split
      · exact Reader.within_pure _
      · refine (Reader.within_getInt32 ?_ ?_).bind fun _ => (Reader.within_getInt32 ?_ ?_).bind
          fun _ => (Reader.within_getInt16 ?_ ?_).bind fun _ =>
          (Reader.within_getInt16 ?_ ?_).bind fun _ => (Reader.within_getFloat32 ?_ ?_).bind
          fun _ => (Reader.within_getFloat32 ?_ ?_).bind fun _ => Reader.Within.bind
          (ih (?_ : low ≤ offset + 20) (?_ : offset + 20 + levels * 20 ≤ high)) fun _ =>
          Reader.within_pure _ <;> omega

/-- A payload is read when the declared length covers what it needs. -/
theorem within_sized {name : String} {bytes : ℕ} {payload : Reader DhanFeedPacket}
    (hpayload : bytes ≤ header.declaredLength.toNat → Reader.Within low high payload) :
    Reader.Within low high (sized name bytes header payload) := by
  rw [sized]
  split
  case isTrue => exact Reader.within_pure _
  case isFalse hlong => exact (hpayload (by omega)).bind fun _ => Reader.within_pure _

theorem within_decodeTicker : Reader.Within offset (offset + header.declaredLength.toNat)
    (decodeTicker offset header) := by
  refine within_sized fun (hbytes : 16 ≤ header.declaredLength.toNat) => ?_
  refine (Reader.within_getFloat32 ?_ ?_).bind fun _ => (within_readEpochSeconds ?_ ?_).bind
    fun _ => Reader.within_pure _ <;> omega

theorem within_decodeQuote : Reader.Within offset (offset + header.declaredLength.toNat)
    (decodeQuote offset header) := by
  refine within_sized fun (hbytes : 50 ≤ header.declaredLength.toNat) => ?_
  refine (within_readQuoteCore ?_).bind fun _ => within_readOhlc ?_ ?_ <;> omega

theorem within_decodeOi : Reader.Within offset (offset + header.declaredLength.toNat)
    (decodeOi offset header) := by
  refine within_sized fun (hbytes : 12 ≤ header.declaredLength.toNat) => ?_
  refine (Reader.within_getInt32 ?_ ?_).bind fun _ => Reader.within_pure _ <;> omega

theorem within_decodePrevClose : Reader.Within offset (offset + header.declaredLength.toNat)
    (decodePrevClose offset header) := by
  refine within_sized fun (hbytes : 16 ≤ header.declaredLength.toNat) => ?_
  refine (Reader.within_getFloat32 ?_ ?_).bind fun _ => (Reader.within_getInt32 ?_ ?_).bind
    fun _ => Reader.within_pure _ <;> omega

theorem within_decodeFull : Reader.Within offset (offset + header.declaredLength.toNat)
    (decodeFull byteLength offset header) := by
  refine within_sized fun (hbytes : 162 ≤ header.declaredLength.toNat) => ?_
  refine (within_readQuoteCore ?_).bind fun _ => (Reader.within_getInt32 ?_ ?_).bind fun _ =>
    (Reader.within_getInt32 ?_ ?_).bind fun _ => (Reader.within_getInt32 ?_ ?_).bind fun _ =>
    (within_readOhlc ?_ ?_).bind fun _ => (within_readLevels depthLevels ?_
      (?_ : offset + 62 + 5 * 20 ≤ _)).bind fun _ => Reader.within_pure _ <;> omega

theorem within_decodeDisconnect : Reader.Within offset (offset + header.declaredLength.toNat)
    (decodeDisconnect offset header) := by
  rw [decodeDisconnect]
  split
  · refine (Reader.within_getInt16 ?_ ?_).bind fun _ => Reader.within_pure _ <;> omega
  · exact Reader.within_pure _

/-- The payload of a packet ends where the packet does. -/
theorem within_decodePacket (byteLength offset : ℕ) (header : Header) :
    Reader.Within offset (offset + header.declaredLength.toNat)
      (decodePacket byteLength offset header) := by
  rw [decodePacket]
  split
  · exact within_decodeTicker
  · exact within_decodeTicker
  · exact within_decodeQuote
  · exact within_decodeOi
  · exact within_decodePrevClose
  · exact within_decodeFull
  · exact Reader.within_pure _
  · exact within_decodeDisconnect
  · exact Reader.within_pure _

/-- The buffer may be longer than the levels. -/
theorem readLevels_byteLength {other : ℕ} (levels : ℕ)
    (h : offset + levels * depthLevelBytes ≤ byteLength)
    (hother : offset + levels * depthLevelBytes ≤ other) :
    readLevels byteLength levels offset = readLevels other levels offset := by
  induction levels generalizing offset with
  | zero => rfl
  | succ levels ih =>
      rw [Nat.succ_mul] at h hother
      rw [readLevels, readLevels, if_neg (by omega), if_neg (by omega),
        ih (by omega) (by omega)]

theorem decodePacket_byteLength {other : ℕ} (header : Header)
    (h : offset + header.declaredLength.toNat ≤ byteLength)
    (hother : offset + header.declaredLength.toNat ≤ other) :
    decodePacket byteLength offset header = decodePacket other offset header := by
  have hfull : decodeFull byteLength offset header = decodeFull other offset header := by
    rw [decodeFull, decodeFull, sized, sized]
    split
    case isTrue => rfl
    case isFalse hlong =>
      have hlong : 162 ≤ header.declaredLength := not_lt.mp hlong
      have hlevels : readDepth byteLength (offset + 62) = readDepth other (offset + 62) := by
        refine readLevels_byteLength depthLevels ?_ ?_ <;>
          simp only [depthLevels, depthLevelBytes] <;> omega
      rw [hlevels]
  simp only [decodePacket, hfull]

theorem shift_readEpochSeconds (distance : ℕ) :
    (readEpochSeconds offset).shift distance = readEpochSeconds (offset + distance) := by
  simp [readEpochSeconds]

theorem shift_readQuoteCore (distance : ℕ) :
    (readQuoteCore offset out).shift distance = readQuoteCore (offset + distance) out := by
  simp [readQuoteCore, shift_readEpochSeconds, Nat.add_right_comm]

theorem shift_readOhlc (distance : ℕ) :
    (readOhlc offset out).shift distance = readOhlc (offset + distance) out := by
  simp [readOhlc, Nat.add_right_comm]

theorem shift_readLevels (distance levels : ℕ) :
    (readLevels byteLength levels offset).shift distance =
      readLevels (byteLength + distance) levels (offset + distance) := by
  induction levels generalizing offset with
  | zero => rfl
  | succ levels ih =>
      rw [readLevels, readLevels]
      have hshort : byteLength + distance < offset + distance + depthLevelBytes ↔
          byteLength < offset + depthLevelBytes := by
        omega
      simp only [hshort]
      split
      · rfl
      · simp [ih, Nat.add_right_comm]

theorem shift_sized {name : String} {bytes : ℕ} (payload : Reader DhanFeedPacket)
    (distance : ℕ) :
    (sized name bytes header payload).shift distance =
      sized name bytes header (payload.shift distance) := by
  rw [sized, sized]
  split
  · rfl
  · simp

/-- The packet is the same, so many positions further on. -/
theorem shift_decodePacket (distance : ℕ) :
    (decodePacket byteLength offset header).shift distance =
      decodePacket (byteLength + distance) (offset + distance) header := by
  rw [decodePacket, decodePacket]
  split
  · simp [decodeTicker, shift_sized, shift_readEpochSeconds, Nat.add_right_comm]
  · simp [decodeTicker, shift_sized, shift_readEpochSeconds, Nat.add_right_comm]
  · simp [decodeQuote, shift_sized, shift_readQuoteCore, shift_readOhlc, Nat.add_right_comm]
  · simp [decodeOi, shift_sized, Nat.add_right_comm]
  · simp [decodePrevClose, shift_sized, Nat.add_right_comm]
  · simp [decodeFull, shift_sized, shift_readQuoteCore, shift_readOhlc, readDepth,
      shift_readLevels, Nat.add_right_comm]
  · rfl
  · rw [decodeDisconnect, decodeDisconnect]
    split
    · simp [Nat.add_right_comm]
    · rfl
  · rfl

theorem sized_shape {name : String} {bytes : ℕ} {payload : Reader DhanFeedPacket}
    {decoded : Decoded} (h : (sized name bytes header payload).exec b = .ok decoded) :
    (∃ packet, decoded = .ok packet) ↔ (bytes : Int) ≤ header.declaredLength := by
  rw [sized] at h
  split at h
  case isTrue hshort =>
    obtain rfl := Except.ok.inj h
    constructor
    · rintro ⟨packet, hpacket⟩
      exact nomatch hpacket
    · exact fun hlong => absurd hshort (not_lt.mpr hlong)
  case isFalse hlong =>
    rw [Reader.exec_bind] at h
    cases hpayload : payload.exec b with
    | error e =>
        rw [hpayload] at h
        exact nomatch h
    | ok packet =>
        rw [hpayload] at h
        obtain rfl := Except.ok.inj h
        exact ⟨fun _ => not_lt.mp hlong, fun _ => ⟨packet, rfl⟩⟩

theorem decodePacket_shape {decoded : Decoded}
    (h : (decodePacket byteLength offset header).exec b = .ok decoded)
    (hpositive : 0 < header.declaredLength) :
    (∃ packet, decoded = .ok packet) ↔
      ∃ code, dhanFeedCode header.code = some code ∧
        (code.bytes : Int) ≤ header.declaredLength := by
  have hbytes : ∀ {code}, dhanFeedCode header.code = some code →
      ((∃ other, dhanFeedCode header.code = some other ∧
        (other.bytes : Int) ≤ header.declaredLength) ↔
        (code.bytes : Int) ≤ header.declaredLength) := by
    intro code hcode
    constructor
    · rintro ⟨other, hother, hle⟩
      obtain rfl := Option.some.inj (hcode.symm.trans hother)
      exact hle
    · exact fun hle => ⟨code, hcode, hle⟩
  rw [decodePacket] at h
  split at h
  case h_1 hcode => exact (sized_shape h).trans (hbytes hcode).symm
  case h_2 hcode => exact (sized_shape h).trans (hbytes hcode).symm
  case h_3 hcode => exact (sized_shape h).trans (hbytes hcode).symm
  case h_4 hcode => exact (sized_shape h).trans (hbytes hcode).symm
  case h_5 hcode => exact (sized_shape h).trans (hbytes hcode).symm
  case h_6 hcode => exact (sized_shape h).trans (hbytes hcode).symm
  case h_7 hcode =>
    obtain rfl := Except.ok.inj h
    exact ⟨fun _ => (hbytes hcode).mpr hpositive.le, fun _ => ⟨_, rfl⟩⟩
  case h_8 hcode =>
    refine ⟨fun _ => (hbytes hcode).mpr hpositive.le, fun _ => ?_⟩
    rw [decodeDisconnect] at h
    split at h
    · rw [Reader.exec_bind] at h
      cases hread : (Reader.getInt16 (offset + 8)).exec b with
      | error e =>
          rw [hread] at h
          exact nomatch h
      | ok code =>
          rw [hread] at h
          obtain rfl := Except.ok.inj h
          exact ⟨_, rfl⟩
    · obtain rfl := Except.ok.inj h
      exact ⟨_, rfl⟩
  case h_9 hcode =>
    obtain rfl := Except.ok.inj h
    constructor
    · rintro ⟨packet, hpacket⟩
      exact nomatch hpacket
    · rintro ⟨code, hsome, -⟩
      rw [hcode] at hsome
      exact nomatch hsome

/-- What the packet at a position decodes to. -/
def resultAt (b : List UInt8) (offset : ℕ) : Except Unit Decoded :=
  (decodePacket b.length offset (headerAt b offset)).exec b

theorem resultAt_cases (htaken : Taken b offset) :
    (Quiet b offset ∧ ∃ packet, resultAt b offset = .ok (.ok packet)) ∨
      (¬ Quiet b offset ∧ ∃ message, resultAt b offset = .ok (.error message)) := by
  obtain ⟨-, hpositive, hwithin⟩ := htaken
  have hcast : ((declaredAt b offset).toNat : Int) = declaredAt b offset :=
    Int.toNat_of_nonneg hpositive.le
  have hend : offset + (declaredAt b offset).toNat ≤ b.length := by omega
  obtain ⟨decoded, hdecoded⟩ : ∃ decoded, resultAt b offset = .ok decoded :=
    Reader.Within.exec (within_decodePacket _ offset (headerAt b offset)) hend
  have hshape : (∃ packet, decoded = .ok packet) ↔ Quiet b offset :=
    decodePacket_shape hdecoded hpositive
  cases decoded with
  | ok packet => exact .inl ⟨hshape.mp ⟨packet, rfl⟩, packet, hdecoded⟩
  | error message =>
      refine .inr ⟨fun hquiet => ?_, message, hdecoded⟩
      obtain ⟨packet, hpacket⟩ := hshape.mpr hquiet
      exact nomatch hpacket

def visitAt (b : List UInt8) (offset : ℕ) : Visit where
  offset := offset
  declaredLength := declaredAt b offset
  fetched := (readHeader offset).trace b ++
    (decodePacket b.length offset (headerAt b offset)).trace b

end Packet

section Turns

variable {b : List UInt8} {guard offset : ℕ}

theorem walk_end (hend : b.length < offset + dhanHeaderBytes) :
    walk b guard offset = { consumed := offset } := by
  rw [walk.eq_def, if_pos hend]

theorem walk_abort (hfits : offset + dhanHeaderBytes ≤ b.length) :
    ∃ message, walk b 0 offset = { errors := [message], consumed := offset } := by
  rw [walk, if_neg (not_lt.mpr hfits)]
  exact ⟨_, rfl⟩

theorem walk_malformed (hfits : offset + dhanHeaderBytes ≤ b.length)
    (htaken : ¬ Taken b offset) :
    ∃ message, walk b (guard + 1) offset = { errors := [message], consumed := offset } := by
  rw [walk, if_neg (not_lt.mpr hfits), exec_readHeader hfits]
  by_cases hpositive : declaredAt b offset ≤ 0
  case pos => exact ⟨_, if_pos hpositive⟩
  case neg =>
    have hlong : (b.length : Int) < offset + declaredAt b offset := by
      by_contra hwithin
      exact htaken ⟨hfits, not_le.mp hpositive, not_lt.mp hwithin⟩
    exact ⟨_, (if_neg hpositive).trans (if_pos hlong)⟩

theorem walk_taken (htaken : Taken b offset) :
    walk b (guard + 1) offset =
      Walk.push (resultAt b offset) (codeAt b offset) offset (visitAt b offset)
        (walk b guard (offset + (declaredAt b offset).toNat)) := by
  obtain ⟨hfits, hpositive, hwithin⟩ := htaken
  rw [walk, if_neg (not_lt.mpr hfits), exec_readHeader hfits]
  exact (if_neg (not_le.mpr hpositive)).trans (if_neg (not_lt.mpr hwithin))

@[simp] theorem push_visits (decoded : Except Unit Decoded) (code : ℕ) (visit : Visit)
    (rest : Walk) : (Walk.push decoded code offset visit rest).visits = visit :: rest.visits := by
  rcases decoded with e | (message | packet) <;> rfl

@[simp] theorem push_consumed (decoded : Except Unit Decoded) (code : ℕ) (visit : Visit)
    (rest : Walk) : (Walk.push decoded code offset visit rest).consumed = rest.consumed := by
  rcases decoded with e | (message | packet) <;> rfl

/-- A turn that takes no packet ends the walk. -/
theorem walk_stop (b : List UInt8) (guard offset : ℕ) (hstop : guard = 0 ∨ ¬ Taken b offset) :
    (walk b guard offset).packets = [] ∧ (walk b guard offset).visits = [] ∧
      (walk b guard offset).consumed = offset ∧
      ((walk b guard offset).errors = [] ↔ b.length < offset + dhanHeaderBytes) := by
  by_cases hend : b.length < offset + dhanHeaderBytes
  case pos =>
    rw [walk_end hend]
    exact ⟨rfl, rfl, rfl, fun _ => hend, fun _ => rfl⟩
  case neg =>
    obtain ⟨message, hwalk⟩ : ∃ message,
        walk b guard offset = { errors := [message], consumed := offset } := by
      cases guard with
      | zero => exact walk_abort (not_lt.mp hend)
      | succ guard =>
          exact walk_malformed (not_lt.mp hend) (hstop.resolve_left (Nat.succ_ne_zero guard))
    rw [hwalk]
    exact ⟨rfl, rfl, rfl, fun h => (nomatch h), fun h => absurd h hend⟩

theorem advance_succ (htaken : Taken b offset) (packets : ℕ) :
    advance b (packets + 1) offset =
      advance b packets (offset + (declaredAt b offset).toNat) := by
  rw [advance, if_pos htaken]

/-- The walk visits the packets that the declared lengths lead to. -/
theorem mem_visits {visit : Visit} : visit ∈ (walk b guard offset).visits ↔
    ∃ packets < guard, ∃ at', advance b packets offset = some at' ∧ Taken b at' ∧
      visit = visitAt b at' := by
  induction guard generalizing offset with
  | zero =>
      rw [(walk_stop b _ _ (.inl rfl)).2.1]
      simp
  | succ guard ih =>
      by_cases htaken : Taken b offset
      case pos =>
        rw [walk_taken htaken, push_visits, List.mem_cons, ih]
        constructor
        · rintro (rfl | ⟨packets, hlt, at', hat, htaken', rfl⟩)
          · exact ⟨0, Nat.succ_pos guard, offset, rfl, htaken, rfl⟩
          · exact ⟨packets + 1, Nat.succ_lt_succ hlt, at', (advance_succ htaken packets).trans hat,
              htaken', rfl⟩
        · rintro ⟨packets, hlt, at', hat, htaken', rfl⟩
          cases packets with
          | zero =>
              obtain rfl := Option.some.inj hat
              exact .inl rfl
          | succ packets =>
              rw [advance_succ htaken] at hat
              exact .inr ⟨packets, Nat.lt_of_succ_lt_succ hlt, at', hat, htaken', rfl⟩
      case neg =>
        rw [(walk_stop b _ _ (.inr htaken)).2.1]
        constructor
        · exact fun h => nomatch h
        · rintro ⟨packets, -, at', hat, htaken', -⟩
          cases packets with
          | zero =>
              obtain rfl := Option.some.inj hat
              exact absurd htaken' htaken
          | succ packets =>
              rw [advance, if_neg htaken] at hat
              exact nomatch hat

theorem offset_le_of_mem {visit : Visit} (h : visit ∈ (walk b guard offset).visits) :
    offset ≤ visit.offset := by
  induction guard generalizing offset with
  | zero =>
      rw [(walk_stop b _ _ (.inl rfl)).2.1] at h
      exact nomatch h
  | succ guard ih =>
      by_cases htaken : Taken b offset
      case pos =>
        rw [walk_taken htaken, push_visits] at h
        obtain rfl | h := List.mem_cons.mp h
        · exact le_rfl
        · exact (Nat.le_add_right _ _).trans (ih h)
      case neg =>
        rw [(walk_stop b _ _ (.inr htaken)).2.1] at h
        exact nomatch h

/-- The packets follow one another. -/
theorem visits_pairwise : (walk b guard offset).visits.Pairwise fun v w =>
    (v.offset : Int) + v.declaredLength ≤ w.offset := by
  induction guard generalizing offset with
  | zero =>
      rw [(walk_stop b _ _ (.inl rfl)).2.1]
      exact .nil
  | succ guard ih =>
      by_cases htaken : Taken b offset
      case pos =>
        rw [walk_taken htaken, push_visits]
        refine List.pairwise_cons.mpr ⟨fun w hw => ?_, ih⟩
        have hle := offset_le_of_mem hw
        have hcast : ((declaredAt b offset).toNat : Int) = declaredAt b offset :=
          Int.toNat_of_nonneg htaken.2.1.le
        show (offset : Int) + declaredAt b offset ≤ w.offset
        omega
      case neg =>
        rw [(walk_stop b _ _ (.inr htaken)).2.1]
        exact .nil

/-- A walk is silent about bytes that are left exactly when these are too few for a header and
every packet in front of them is quiet. -/
theorem silent_iff : (walk b guard offset).errors = [] ∧
      (walk b guard offset).consumed < b.length ↔
    ∃ packets ≤ guard, ∃ at', advance b packets offset = some at' ∧ at' < b.length ∧
      b.length < at' + dhanHeaderBytes ∧
      ∀ i < packets, ∀ position, advance b i offset = some position → Quiet b position := by
  induction guard generalizing offset with
  | zero =>
      obtain ⟨-, -, hconsumed, herrors⟩ := walk_stop b 0 offset (.inl rfl)
      rw [hconsumed, herrors]
      constructor
      · rintro ⟨hend, hleft⟩
        exact ⟨0, le_rfl, offset, rfl, hleft, hend, fun i hi => absurd hi (Nat.not_lt_zero i)⟩
      · rintro ⟨packets, hle, at', hat, hleft, hend, -⟩
        obtain rfl := Nat.le_zero.mp hle
        obtain rfl := Option.some.inj hat
        exact ⟨hend, hleft⟩
  | succ guard ih =>
      by_cases htaken : Taken b offset
      case neg =>
        obtain ⟨-, -, hconsumed, herrors⟩ := walk_stop b (guard + 1) offset (.inr htaken)
        rw [hconsumed, herrors]
        constructor
        · rintro ⟨hend, hleft⟩
          exact ⟨0, Nat.zero_le _, offset, rfl, hleft, hend,
            fun i hi => absurd hi (Nat.not_lt_zero i)⟩
        · rintro ⟨packets, -, at', hat, hleft, hend, -⟩
          cases packets with
          | zero =>
              obtain rfl := Option.some.inj hat
              exact ⟨hend, hleft⟩
          | succ packets =>
              rw [advance, if_neg htaken] at hat
              exact nomatch hat
      case pos =>
        rw [walk_taken htaken, push_consumed]
        obtain ⟨hquiet, packet, hresult⟩ | ⟨hloud, message, hresult⟩ := resultAt_cases htaken
        · rw [hresult]
          refine Iff.trans ih ?_
          constructor
          · rintro ⟨packets, hle, at', hat, hleft, hend, hall⟩
            refine ⟨packets + 1, Nat.succ_le_succ hle, at', (advance_succ htaken packets).trans hat,
              hleft, hend, fun i hi position hposition => ?_⟩
            cases i with
            | zero =>
                obtain rfl := Option.some.inj hposition
                exact hquiet
            | succ i =>
                rw [advance_succ htaken] at hposition
                exact hall i (Nat.lt_of_succ_lt_succ hi) position hposition
          · rintro ⟨packets, hle, at', hat, hleft, hend, hall⟩
            cases packets with
            | zero =>
                obtain rfl := Option.some.inj hat
                exact absurd htaken.1 (not_le.mpr hend)
            | succ packets =>
                rw [advance_succ htaken] at hat
                refine ⟨packets, Nat.le_of_succ_le_succ hle, at', hat, hleft, hend,
                  fun i hi position hposition => ?_⟩
                exact hall (i + 1) (Nat.succ_lt_succ hi) position
                  ((advance_succ htaken i).trans hposition)
        · rw [hresult]
          constructor
          · rintro ⟨herrors, -⟩
            exact nomatch herrors
          · rintro ⟨packets, -, at', hat, -, hend, hall⟩
            cases packets with
            | zero =>
                obtain rfl := Option.some.inj hat
                exact absurd htaken.1 (not_le.mpr hend)
            | succ packets => exact absurd (hall 0 (Nat.succ_pos packets) offset rfl) hloud

end Turns

section Extend

variable {b rest : List UInt8} {guard offset : ℕ}

theorem take_drop_append {start size : ℕ} (h : start + size ≤ b.length) :
    ((b ++ rest).drop start).take size = (b.drop start).take size := by
  rw [List.drop_append_of_le_length (by omega),
    List.take_append_of_le_length (by rw [List.length_drop]; omega)]

theorem headerAt_append (rest : List UInt8) (h : offset + dhanHeaderBytes ≤ b.length) :
    headerAt (b ++ rest) offset = headerAt b offset := by
  have h : offset + 8 ≤ b.length := h
  simp only [headerAt, codeAt, declaredAt]
  rw [take_drop_append (by omega), take_drop_append (by omega), take_drop_append (by omega),
    take_drop_append (by omega)]

theorem Taken.append (h : Taken b offset) (rest : List UInt8) : Taken (b ++ rest) offset := by
  have hdeclared : declaredAt (b ++ rest) offset = declaredAt b offset :=
    congrArg Header.declaredLength (headerAt_append rest h.1)
  obtain ⟨hfits, hpositive, hwithin⟩ := h
  refine ⟨?_, hdeclared ▸ hpositive, ?_⟩
  · rw [List.length_append]
    omega
  · rw [hdeclared, List.length_append]
    push_cast
    omega

theorem resultAt_append (h : Taken b offset) : resultAt (b ++ rest) offset = resultAt b offset := by
  have hend : offset + (declaredAt b offset).toNat ≤ b.length := by
    obtain ⟨-, hpositive, hwithin⟩ := h
    omega
  have hlong : offset + (declaredAt b offset).toNat ≤ (b ++ rest).length := by
    rw [List.length_append]
    omega
  obtain ⟨decoded, hdecoded⟩ : ∃ decoded, resultAt b offset = .ok decoded :=
    Reader.Within.exec (within_decodePacket _ offset (headerAt b offset)) hend
  rw [resultAt, headerAt_append rest h.1, hdecoded,
    decodePacket_byteLength (headerAt b offset) hlong hend]
  exact Reader.exec_append hdecoded

/-- Appending bytes keeps the packets that were decoded. -/
theorem packets_append (b rest : List UInt8) (guard offset : ℕ) :
    (walk b guard offset).packets <+: (walk (b ++ rest) guard offset).packets := by
  induction guard generalizing offset with
  | zero =>
      rw [(walk_stop b _ _ (.inl rfl)).1]
      exact List.nil_prefix
  | succ guard ih =>
      by_cases htaken : Taken b offset
      case neg =>
        rw [(walk_stop b _ _ (.inr htaken)).1]
        exact List.nil_prefix
      case pos =>
        have hdeclared : declaredAt (b ++ rest) offset = declaredAt b offset :=
          congrArg Header.declaredLength (headerAt_append rest htaken.1)
        rw [walk_taken htaken, walk_taken (htaken.append rest), resultAt_append htaken, hdeclared]
        have hrest := ih (offset + (declaredAt b offset).toNat)
        obtain ⟨-, packet, hresult⟩ | ⟨-, message, hresult⟩ := resultAt_cases htaken
        · rw [hresult]
          exact List.cons_prefix_cons.mpr ⟨rfl, hrest⟩
        · rw [hresult]
          exact hrest

end Extend

section Packets

variable {front packet rest : List UInt8} {guard : ℕ}

theorem WellFormed.taken (h : WellFormed packet) : Taken packet 0 := by
  refine ⟨by simpa using h.1, ?_, ?_⟩
  · rw [h.2]
    have hlong : 8 ≤ packet.length := h.1
    omega
  · rw [h.2]
    simp

theorem headerAt_shift (front view : List UInt8) :
    headerAt (front ++ view) front.length = headerAt view 0 := by
  have hdrop : ∀ n, (front ++ view).drop (front.length + n) = view.drop n := by
    intro n
    rw [← List.drop_drop, List.drop_left]
  have hstart : (front ++ view).drop front.length = view.drop 0 := hdrop 0
  simp only [headerAt, codeAt, declaredAt, hdrop, hstart, Nat.zero_add]

theorem taken_shift (h : Taken packet 0) : Taken (front ++ packet) front.length := by
  have hdeclared : declaredAt (front ++ packet) front.length = declaredAt packet 0 :=
    congrArg Header.declaredLength (headerAt_shift front packet)
  obtain ⟨hfits, hpositive, hwithin⟩ := h
  refine ⟨?_, hdeclared ▸ hpositive, ?_⟩
  · rw [List.length_append]
    omega
  · rw [hdeclared, List.length_append]
    push_cast
    omega

theorem resultAt_shift (front packet : List UInt8) :
    resultAt (front ++ packet) front.length = resultAt packet 0 := by
  rw [resultAt, headerAt_shift, resultAt, ← Reader.exec_shift front packet, shift_decodePacket,
    List.length_append, Nat.zero_add, Nat.add_comm]

/-- The walk over a packet alone. -/
theorem walkFrame_packet (h : WellFormed packet) : walkFrame packet =
    Walk.push (resultAt packet 0) (codeAt packet 0) 0 (visitAt packet 0)
      { consumed := packet.length } := by
  have hlong : 8 ≤ packet.length := h.1
  rw [walkFrame, if_neg (by omega), if_neg (not_lt.mpr h.1)]
  refine (walk_taken h.taken).trans ?_
  rw [h.2, Int.toNat_natCast, Nat.zero_add, walk_end (by simp only [dhanHeaderBytes]; omega)]

/-- What the packets of a frame decode to, each alone. -/
def decodeEach (packets : List (List UInt8)) : DhanDecodeResult where
  packets := packets.flatMap fun packet => (decodeDhanFeed packet).packets
  errors := packets.flatMap fun packet => (decodeDhanFeed packet).errors

theorem walk_packets {packets : List (List UInt8)} (hformed : ∀ packet ∈ packets, WellFormed packet)
    (hguard : packets.length ≤ guard) (front : List UInt8) :
    (walk (front ++ packets.flatten) guard front.length).packets = (decodeEach packets).packets ∧
      (walk (front ++ packets.flatten) guard front.length).errors =
        (decodeEach packets).errors := by
  induction packets generalizing guard front with
  | nil =>
      rw [List.flatten_nil, List.append_nil, walk_end (Nat.lt_add_of_pos_right (by decide))]
      exact ⟨rfl, rfl⟩
  | cons packet packets ih =>
      obtain ⟨hpacket, hpackets⟩ := List.forall_mem_cons.mp hformed
      obtain ⟨guard, rfl⟩ : ∃ n, guard = n + 1 :=
        Nat.exists_eq_succ_of_ne_zero (by rw [List.length_cons] at hguard; omega)
      have htaken : Taken (front ++ (packet ++ packets.flatten)) front.length :=
        taken_shift (hpacket.taken.append _)
      have hdeclared : declaredAt (front ++ (packet ++ packets.flatten)) front.length =
          packet.length := by
        have hheader := headerAt_append packets.flatten hpacket.taken.1
        exact (congrArg Header.declaredLength (headerAt_shift front _)).trans
          ((congrArg Header.declaredLength hheader).trans hpacket.2)
      have hresult : resultAt (front ++ (packet ++ packets.flatten)) front.length =
          resultAt packet 0 := by
        rw [resultAt_shift, resultAt_append hpacket.taken]
      have hrest := ih hpackets (Nat.le_of_succ_le_succ hguard) (front ++ packet)
      rw [List.append_assoc, List.length_append] at hrest
      rw [List.flatten_cons, walk_taken htaken, hresult, hdeclared, Int.toNat_natCast]
      have halone : decodeDhanFeed packet = ⟨(walkFrame packet).packets,
        (walkFrame packet).errors⟩ := rfl
      rw [walkFrame_packet hpacket] at halone
      have heach : decodeEach (packet :: packets) =
          ⟨(decodeDhanFeed packet).packets ++ (decodeEach packets).packets,
            (decodeDhanFeed packet).errors ++ (decodeEach packets).errors⟩ := rfl
      rw [heach, halone]
      obtain ⟨-, decoded, hdecoded⟩ | ⟨-, message, hdecoded⟩ := resultAt_cases hpacket.taken
      · rw [hdecoded]
        exact ⟨congrArg (decoded :: ·) hrest.1, hrest.2⟩
      · rw [hdecoded]
        exact ⟨hrest.1, congrArg (message :: ·) hrest.2⟩

/-- A frame of well-formed packets decodes to what these decode to, one after the other. -/
theorem decode_packets {packets : List (List UInt8)}
    (hformed : ∀ packet ∈ packets, WellFormed packet) (hcount : packets.length ≤ maxPackets) :
    decodeDhanFeed packets.flatten = decodeEach packets := by
  have hframe : walkFrame packets.flatten = walk packets.flatten maxPackets 0 := by
    cases packets with
    | nil => exact (walk_end (by decide)).symm
    | cons packet packets =>
        have hlong : dhanHeaderBytes ≤ packet.length := (hformed packet List.mem_cons_self).1
        have hflatten : dhanHeaderBytes ≤ (packet :: packets).flatten.length := by
          rw [List.flatten_cons, List.length_append]
          omega
        rw [walkFrame, if_neg (by simp only [dhanHeaderBytes] at hflatten; omega),
          if_neg (not_lt.mpr hflatten)]
  have hwalk := walk_packets hformed hcount []
  rw [List.nil_append, List.length_nil] at hwalk
  rw [decodeDhanFeed, hframe, hwalk.1, hwalk.2]

end Packets

section Discipline

variable {b : List UInt8} {offset : ℕ}

/-- The bytes fetched for a packet are its own, unless it declares less than a header. -/
theorem fetched_within_iff (htaken : Taken b offset) :
    (∀ access ∈ (visitAt b offset).fetched, offset ≤ access.start ∧
        (access.start + access.size : Int) ≤ offset + declaredAt b offset) ↔
      dhanHeaderBytes ≤ declaredAt b offset := by
  obtain ⟨hfits, hpositive, hwithin⟩ := htaken
  constructor
  · intro h
    have hfetched : (⟨offset + 4, 4⟩ : Access) ∈ (visitAt b offset).fetched :=
      List.mem_append_left _ (securityId_fetched hfits)
    have hend := (h _ hfetched).2
    simp only [dhanHeaderBytes]
    push_cast at hend ⊢
    omega
  · intro hlong access haccess
    have hlong : 8 ≤ declaredAt b offset := hlong
    obtain haccess | haccess := List.mem_append.mp haccess
    · obtain ⟨hstart, hend⟩ := readHeader_within.trace access haccess
      omega
    · obtain ⟨hstart, hend⟩ :=
        (within_decodePacket _ offset (headerAt b offset)).trace access haccess
      have hend : access.start + access.size ≤ offset + (declaredAt b offset).toNat := hend
      omega

theorem walkFrame_of_header (h : dhanHeaderBytes ≤ b.length) :
    walkFrame b = walk b maxPackets 0 := by
  have hlong : 8 ≤ b.length := h
  rw [walkFrame, if_neg (by omega), if_neg (not_lt.mpr h)]

/-- A frame without a header is reported whole, unless it is empty. -/
theorem disciplined_of_short (h : b.length < dhanHeaderBytes) : Disciplined b := by
  by_cases hempty : b.length = 0
  case pos =>
    have hwalk : walkFrame b = { consumed := 0 } := by rw [walkFrame, if_pos hempty]
    refine ⟨?_, ?_, ?_⟩
    · rw [hwalk]
      exact fun visit hvisit => nomatch hvisit
    · rw [hwalk]
      exact .nil
    · rw [hwalk, hempty]
      exact fun hlt => absurd hlt (lt_irrefl 0)
  case neg =>
    have hwalk : ∃ message, walkFrame b = { errors := [message], consumed := 0 } := by
      rw [walkFrame, if_neg hempty, if_pos h]
      exact ⟨_, rfl⟩
    obtain ⟨message, hwalk⟩ := hwalk
    refine ⟨?_, ?_, ?_⟩
    · rw [hwalk]
      exact fun visit hvisit => nomatch hvisit
    · rw [hwalk]
      exact .nil
    · rw [hwalk]
      exact fun _ => List.cons_ne_nil message []

/-- A walk is disciplined where no packet and no silent tail is shorter than a header. -/
theorem disciplined_iff (b : List UInt8) :
    Disciplined b ↔ ¬ ShortPacket b ∧ ¬ ShortTail b := by
  by_cases hheader : dhanHeaderBytes ≤ b.length
  case neg =>
    refine ⟨fun _ => ⟨?_, ?_⟩, fun _ => disciplined_of_short (not_le.mp hheader)⟩
    · rintro ⟨packets, -, offset, -, ⟨hfits, -⟩, -⟩
      exact hheader ((Nat.le_add_left _ _).trans hfits)
    · rintro ⟨hlong, -⟩
      exact hheader hlong
  case pos =>
    have hwalk := walkFrame_of_header hheader
    constructor
    · intro h
      constructor
      · rintro ⟨packets, hlt, offset, hoffset, htaken, hshort⟩
        have hvisit : visitAt b offset ∈ (walkFrame b).visits := by
          rw [hwalk]
          exact mem_visits.mpr ⟨packets, hlt, offset, hoffset, htaken, rfl⟩
        exact absurd ((fetched_within_iff htaken).mp (h.within _ hvisit)) (not_le.mpr hshort)
      · rintro ⟨-, htail⟩
        obtain ⟨herrors, hleft⟩ := silent_iff.mpr htail
        rw [← hwalk] at herrors hleft
        exact h.leftover hleft herrors
    · rintro ⟨hlong, htail⟩
      have hvisits : ∀ visit ∈ (walkFrame b).visits, ∃ offset, Taken b offset ∧
          visit = visitAt b offset ∧ dhanHeaderBytes ≤ declaredAt b offset := by
        intro visit hvisit
        rw [hwalk] at hvisit
        obtain ⟨packets, hlt, offset, hoffset, htaken, rfl⟩ := mem_visits.mp hvisit
        exact ⟨offset, htaken, rfl, not_lt.mp fun hshort =>
          hlong ⟨packets, hlt, offset, hoffset, htaken, hshort⟩⟩
      refine ⟨?_, ?_, ?_⟩
      · intro visit hvisit
        obtain ⟨offset, htaken, rfl, hdeclared⟩ := hvisits visit hvisit
        exact (fetched_within_iff htaken).mpr hdeclared
      · have hpairwise : (walkFrame b).visits.Pairwise fun v w =>
            (v.offset : Int) + v.declaredLength ≤ w.offset := by
          rw [hwalk]
          exact visits_pairwise
        refine hpairwise.imp_of_mem fun {v w} hv _ hvw => ⟨hvw, ?_⟩
        obtain ⟨offset, -, rfl, hdeclared⟩ := hvisits v hv
        have hvw : (offset : Int) + declaredAt b offset ≤ w.offset := hvw
        show offset + dhanHeaderBytes ≤ w.offset
        omega
      · intro hleft herrors
        rw [hwalk] at hleft herrors
        exact htail ⟨hheader, silent_iff.mp ⟨herrors, hleft⟩⟩

end Discipline

/-- Feed decoding is compositional. A frame of well-formed packets decodes to what its packets
decode to, appended bytes keep the packets of a frame, and a walk keeps to its packets and reports
what is left over exactly when no packet and no silent tail is shorter than a header. -/
theorem feed_decoding_compositional (packets : List (List UInt8)) (frame rest : List UInt8) :
    (packets.length ≤ maxPackets → (∀ packet ∈ packets, WellFormed packet) →
      decodeDhanFeed packets.flatten = decodeEach packets) ∧
    (decodeDhanFeed frame).packets <+: (decodeDhanFeed (frame ++ rest)).packets ∧
    (Disciplined frame ↔ ¬ ShortPacket frame ∧ ¬ ShortTail frame) := by
  refine ⟨fun hcount hformed => decode_packets hformed hcount, ?_, disciplined_iff frame⟩
  by_cases hheader : dhanHeaderBytes ≤ frame.length
  case pos =>
    have hlong : dhanHeaderBytes ≤ (frame ++ rest).length := by
      rw [List.length_append]
      omega
    rw [decodeDhanFeed, decodeDhanFeed, walkFrame_of_header hheader, walkFrame_of_header hlong]
    exact packets_append frame rest maxPackets 0
  case neg =>
    have hnone : (walkFrame frame).packets = [] := by
      rw [walkFrame]
      split
      · rfl
      · rw [if_pos (not_le.mp hheader)]
    rw [decodeDhanFeed, hnone]
    exact List.nil_prefix

/-- A byte behind a market status packet is left over and not reported. -/
theorem silent_tail : ¬ Disciplined [7, 8, 0, 0, 0, 0, 0, 0, 1] := by
  intro h
  exact h.leftover (by decide +kernel) (by decide +kernel)

end Strikedge.DhanFeed
