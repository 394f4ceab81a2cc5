import Strikedge.Machine.Number
import Strikedge.Machine.OrderedSet
import Strikedge.Machine.Run
import Strikedge.Machine.Tally

/-!
# The subscription coordinator

One instrument token may be wanted by several consumers at once. The coordinator of a lane
counts them, by the class of the consumer, and only the first and the last of them reach
the broker's socket. A consumer holds its tokens by a lease, which it can release as a
whole; a class may also declare the whole set of tokens it wants.
-/

namespace Strikedge.Subscriptions

open Machine

inductive SubscriptionOwner where
  | browser
  | scanner
  | strategy
  | analytics
  deriving DecidableEq, Repr

/-- A token id that passed the test for a finite positive number. -/
abbrev Token := ℚ

structure TokenCounts where
  browser : Nat := 0
  scanner : Nat := 0
  strategy : Nat := 0
  analytics : Nat := 0
  total : Nat := 0
  deriving DecidableEq, Repr

namespace TokenCounts

variable (entry : TokenCounts)

/-- The count of one class. -/
def of : SubscriptionOwner → Nat
  | .browser => entry.browser
  | .scanner => entry.scanner
  | .strategy => entry.strategy
  | .analytics => entry.analytics

def change (f : Nat → Nat) : SubscriptionOwner → TokenCounts
  | .browser => { entry with browser := f entry.browser }
  | .scanner => { entry with scanner := f entry.scanner }
  | .strategy => { entry with strategy := f entry.strategy }
  | .analytics => { entry with analytics := f entry.analytics }

/-- One more consumer of a class. -/
def add (owner : SubscriptionOwner) : TokenCounts :=
  { entry.change (· + 1) owner with total := entry.total + 1 }

/-- One consumer of a class fewer. No count falls below zero. -/
def drop (owner : SubscriptionOwner) : TokenCounts :=
  { entry.change (· - 1) owner with total := entry.total - 1 }

end TokenCounts

/-- Leases are numbered within their class, but for the one that a declared set leaves. -/
inductive LeaseId where
  | numbered (owner : SubscriptionOwner) (seq : Nat)
  | set (owner : SubscriptionOwner)
  deriving DecidableEq, Repr

def LeaseId.owner : LeaseId → SubscriptionOwner
  | numbered owner _ | set owner => owner

/-- A set of tokens, in the order of their first mention. -/
structure TokenSet where
  tokens : List Token
  nodup : tokens.Nodup

namespace TokenSet

instance : Membership Token TokenSet := ⟨fun s token => token ∈ s.tokens⟩

instance (s : TokenSet) (token : Token) : Decidable (token ∈ s) :=
  inferInstanceAs (Decidable (token ∈ s.tokens))

def insert (s : TokenSet) (token : Token) : TokenSet :=
  ⟨addMember s.tokens token, nodup_addMember s.nodup⟩

def ofList (tokens : List Token) : TokenSet := tokens.foldl insert ⟨[], List.nodup_nil⟩

@[simp] theorem mem_insert {s : TokenSet} {token x : Token} :
    x ∈ s.insert token ↔ x ∈ s ∨ x = token := by
  change x ∈ addMember s.tokens token ↔ x ∈ s.tokens ∨ x = token
  rw [mem_addMember, or_comm]

theorem mem_foldl_insert {tokens : List Token} {s : TokenSet} {x : Token} :
    x ∈ tokens.foldl insert s ↔ x ∈ s ∨ x ∈ tokens := by
  induction tokens generalizing s with
  | nil => simp
  | cons token rest ih =>
      rw [List.foldl_cons, ih, mem_insert, List.mem_cons]
      tauto

@[simp] theorem mem_ofList {tokens : List Token} {x : Token} :
    x ∈ ofList tokens ↔ x ∈ tokens := by
  rw [ofList, mem_foldl_insert]
  exact or_iff_right (List.not_mem_nil (a := x))

/-- The tokens of a request: its finite positive numbers, each once. -/
def ofNumbers (tokens : List Number) : TokenSet :=
  ofList (tokens.filterMap fun token => token.finite?.filter (0 < ·))

end TokenSet

structure Lease where
  owner : SubscriptionOwner
  tokens : TokenSet

/-- A call on the active broker's socket. -/
inductive UpstreamCall where
  | subscribe (tokens : List Token)
  | unsubscribe (tokens : List Token)
  deriving DecidableEq, Repr

/-- The calls that carry tokens at all. -/
def subscribeCalls (tokens : List Token) : List UpstreamCall :=
  if tokens = [] then [] else [.subscribe tokens]

def unsubscribeCalls (tokens : List Token) : List UpstreamCall :=
  if tokens = [] then [] else [.unsubscribe tokens]

abbrev CountTable := OrderedMap Token TokenCounts

namespace CountTable

/-- Count one more consumer of a token; a token nobody wanted goes upstream. -/
def take (owner : SubscriptionOwner) (s : CountTable × List Token) (token : Token) :
    CountTable × List Token :=
  let entry := (s.1.get? token).getD {}
  (s.1.set token (entry.add owner),
    if entry.total = 0 then s.2 ++ [token] else s.2)

/-- Count one consumer of a token fewer; the last one takes the token off the table. -/
def leave (owner : SubscriptionOwner) (s : CountTable × List Token) (token : Token) :
    CountTable × List Token :=
  match s.1.get? token with
  | none => s
  | some entry =>
    let entry := entry.drop owner
    if entry.total = 0 then (s.1.delete token, s.2 ++ [token])
    else (s.1.set token entry, s.2)

end CountTable

structure SubscriptionCoordinator where
  counts : CountTable := ∅
  leases : OrderedMap LeaseId Lease := ∅
  leaseSeq : Nat := 0

namespace SubscriptionCoordinator

variable (c : SubscriptionCoordinator)

/-- Take a lease on the tokens of a request. -/
def acquire (owner : SubscriptionOwner) (tokens : List Number) :
    SubscriptionCoordinator × LeaseId × List UpstreamCall :=
  let unique := TokenSet.ofNumbers tokens
  let seq := c.leaseSeq + 1
  let leaseId := LeaseId.numbered owner seq
  let (counts, toSubscribe) := unique.tokens.foldl (CountTable.take owner) (c.counts, [])
  ({ counts := counts, leases := c.leases.set leaseId ⟨owner, unique⟩, leaseSeq := seq },
    leaseId, subscribeCalls toSubscribe)

def releaseLease (leaseId : LeaseId) : SubscriptionCoordinator × List UpstreamCall :=
  match c.leases.get? leaseId with
  | none => (c, [])
  | some lease =>
    let (counts, toUnsubscribe) :=
      lease.tokens.tokens.foldl (CountTable.leave lease.owner) (c.counts, [])
    ({ c with counts := counts, leases := c.leases.delete leaseId },
      unsubscribeCalls toUnsubscribe)

/-- The tokens of all leases of a class. -/
def heldBy (owner : SubscriptionOwner) : TokenSet :=
  .ofList ((c.leases.values.filter (·.owner = owner)).flatMap (·.tokens.tokens))

/-- Replace the whole token set of a class in one difference. A token of the class that is
no longer wanted is counted down once, one that is wanted still is not counted again. -/
def setOwnerTokens (owner : SubscriptionOwner) (tokens : List Number) :
    SubscriptionCoordinator × List UpstreamCall :=
  let want := TokenSet.ofNumbers tokens
  let previouslyHeld := c.heldBy owner
  let leases := c.leases.filter fun _ lease => lease.owner ≠ owner
  let (counts, toUnsubscribe) :=
    (previouslyHeld.tokens.filter (· ∉ want)).foldl (CountTable.leave owner) (c.counts, [])
  let (counts, toSubscribe) :=
    (want.tokens.filter (· ∉ previouslyHeld)).foldl (CountTable.take owner) (counts, [])
  ({ c with
      counts := counts
      leases := if want.tokens = [] then leases else leases.set (.set owner) ⟨owner, want⟩ },
    unsubscribeCalls toUnsubscribe ++ subscribeCalls toSubscribe)

/-- Drop everything on a broker switch. Nothing is sent upstream, and the numbering of
leases goes on. -/
def resetForBrokerSwitch : SubscriptionCoordinator := { c with counts := ∅, leases := ∅ }

end SubscriptionCoordinator

/-- The coordinator, the release closures its consumers hold with their `released` flag, and
the calls upstream since the last reset, oldest first. The leases before the last operation
and the calls it made are bookkeeping. -/
structure Lane where
  coordinator : SubscriptionCoordinator := {}
  released : OrderedMap LeaseId Bool := ∅
  upstream : List UpstreamCall := []
  before : OrderedMap LeaseId Lease := ∅
  calls : List UpstreamCall := []

inductive Operation where
  | acquire (owner : SubscriptionOwner) (tokens : List Number)
  | release (leaseId : LeaseId)
  | setOwnerTokens (owner : SubscriptionOwner) (tokens : List Number)
  | resetForBrokerSwitch
  deriving DecidableEq, Repr

namespace Lane

variable (s : Lane)

/-- The coordinator after an operation, with the calls the operation made. -/
def record (coordinator : SubscriptionCoordinator) (calls : List UpstreamCall) : Lane :=
  { s with
    coordinator := coordinator
    upstream := s.upstream ++ calls
    before := s.coordinator.leases
    calls := calls }

/-- One operation. A lease can be released as often as its holder likes, by the closure its
acquisition returned; only the first call does anything. -/
def step (s : Lane) : Operation → Option Lane
  | .acquire owner tokens =>
    let (coordinator, leaseId, calls) := s.coordinator.acquire owner tokens
    some { s.record coordinator calls with released := s.released.set leaseId false }
  | .release leaseId =>
    match s.released.get? leaseId with
    | none => none
    | some true => some (s.record s.coordinator [])
    | some false =>
      let (coordinator, calls) := s.coordinator.releaseLease leaseId
      some { s.record coordinator calls with released := s.released.set leaseId true }
  | .setOwnerTokens owner tokens =>
    let (coordinator, calls) := s.coordinator.setOwnerTokens owner tokens
    some (s.record coordinator calls)
  | .resetForBrokerSwitch =>
    some { s.record s.coordinator.resetForBrokerSwitch [] with upstream := [] }

end Lane

end Strikedge.Subscriptions
