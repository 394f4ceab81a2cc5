import Mathlib.Data.List.Lex
import Mathlib.Data.List.Sort
import Strikedge.Machine.Arithmetic
import Strikedge.Orders.Types

/-!
# Timed evidence

A figure of the broker is evidence only while it is fresh and about the account that is
traded. Durations are taken from the monotonic clock, and where the source stamped the figure
well before it was received, that lag is added to its age. A plan of orders is identified by
the fields a margin figure depends on. Limit prices are in paise.
-/

namespace Strikedge.EconomicAdmission

open Machine Orders

structure EvidenceIdentity where
  broker : String
  accountRef : Option String
  sessionId : Option String
  deriving DecidableEq, Repr

inductive IdentityMismatch where
  | broker (observed current : String)
  | account (observed current : String)
  | session (observed current : String)
  deriving DecidableEq, Repr

/-- Both references are known, and they differ. -/
def differ (observed current : Option String) : Option (String × String) :=
  match observed, current with
  | some a, some b => if a ≠ b then some (a, b) else none
  | _, _ => none

/-- An identity that is not known agrees with every other. -/
def identityMismatch (observed current : Option EvidenceIdentity) : Option IdentityMismatch :=
  match observed, current with
  | some observed, some current =>
    if observed.broker ≠ current.broker then some (.broker observed.broker current.broker)
    else
      match differ observed.accountRef current.accountRef with
      | some (a, b) => some (.account a b)
      | none =>
        match differ observed.sessionId current.sessionId with
        | some (a, b) => some (.session a b)
        | none => none
  | _, _ => none

structure EvidenceInstant where
  mono : Number
  wall : Number
  deriving DecidableEq, Repr

inductive EvidenceFailure where
  | absent
  | timeout
  | threw
  | nullValue
  deriving DecidableEq, Repr

structure TimedObservation (α : Type) where
  value : Option α
  observedAt : Option EvidenceInstant
  sourceObservedAtWall : Option Number
  failure : Option EvidenceFailure
  /-- The identity the read was issued under. -/
  identity : Option EvidenceIdentity
  deriving DecidableEq, Repr

inductive EvidenceStatus where
  | usable
  | stale
  | invalid
  | unavailable
  deriving DecidableEq, Repr

structure AgedEvidence where
  status : EvidenceStatus
  ageMs : Option Number
  ageIsMonotonic : Bool
  deriving DecidableEq, Repr

/-- A pair that is missing, not finite or inverted has no difference. -/
def monoElapsed (start stop : Option Number) : Option ℚ :=
  match start.bind Number.finite?, stop.bind Number.finite? with
  | some a, some b => if a ≤ b then some (b - a) else none
  | _, _ => none

/-- How long before its receipt the source says it observed the figure. -/
def sourceLag (receivedWall : Number) (sourceWall : Option Number) : Number :=
  match sourceWall with
  | some w => if w.finite?.isSome then (receivedWall.minus w).atLeastZero else .finite 0
  | none => .finite 0

/-- The lag, where it is material. -/
def usedLag (receivedWall : Number) (sourceWall : Option Number) (futureSkewGraceMs : Number) :
    Option Number :=
  if futureSkewGraceMs.less (sourceLag receivedWall sourceWall) then
    some (sourceLag receivedWall sourceWall)
  else none

/-- The source stamped the figure in the future. -/
def ahead (receivedWall : Number) (sourceWall : Option Number)
    (futureSkewGraceMs : Number) : Bool :=
  sourceWall.any fun w => futureSkewGraceMs.less (w.minus receivedWall)

def ageEvidence {α : Type} (observation : TimedObservation α) (evaluatedAt : EvidenceInstant)
    (maxAgeMs futureSkewGraceMs : Number) (currentIdentity : Option EvidenceIdentity) :
    AgedEvidence :=
  match observation.failure, observation.observedAt with
  | none, some received =>
    let elapsed := monoElapsed (some received.mono) (some evaluatedAt.mono)
    if (identityMismatch observation.identity currentIdentity).isSome then
      ⟨.invalid, elapsed.map .finite, true⟩
    else if received.mono.finite? = none ∨ evaluatedAt.mono.finite? = none then
      ⟨.invalid, none, false⟩
    else if observation.sourceObservedAtWall.any (·.finite?.isNone) then ⟨.invalid, none, false⟩
    else if ahead received.wall observation.sourceObservedAtWall futureSkewGraceMs then
      ⟨.invalid, none, false⟩
    else
      let lag := usedLag received.wall observation.sourceObservedAtWall futureSkewGraceMs
      match elapsed with
      | none => ⟨.invalid, none, false⟩
      | some elapsed =>
        let age := (Number.finite elapsed).plus (lag.getD (.finite 0))
        if maxAgeMs.less age then ⟨.stale, some age, lag.isNone⟩
        else ⟨.usable, some age, lag.isNone⟩
  | _, _ => ⟨.unavailable, none, false⟩

/-- Two decimals of an amount in paise. -/
def toFixed (paise : Int) : String :=
  let digits := toString (paise.natAbs % 100)
  (if paise < 0 then "-" else "") ++ toString (paise.natAbs / 100) ++ "." ++
    (if digits.length = 1 then "0" ++ digits else digits)

def legFingerprint (r : BrokerOrderRequest) : String :=
  String.intercalate ":" [r.role.text, r.exchange, r.tradingsymbol, toString r.token, r.side.text,
    toString r.quantity, toFixed r.pricing.limitPrice]

def unitsOf (c : Char) : List Nat :=
  if c.toNat < 0x10000 then [c.toNat]
  else [0xd800 + (c.toNat - 0x10000) / 0x400, 0xdc00 + (c.toNat - 0x10000) % 0x400]

/-- The code units of a text, by which it is sorted. -/
def codeUnits (text : String) : List Nat := text.toList.flatMap unitsOf

def sortTexts (texts : List String) : List String :=
  texts.insertionSort fun a b => codeUnits a ≤ codeUnits b

def orderPlanFingerprint (requests : List BrokerOrderRequest) : String :=
  String.intercalate "|" (sortTexts (requests.map legFingerprint))

/-- `text.split("|")` -/
def split (text : String) : List String := (text.toList.splitOn '|').map String.ofList

section Fingerprint

variable {requests : List BrokerOrderRequest} {texts : List String} {text piece : String}

theorem mem_sortTexts : text ∈ sortTexts texts ↔ text ∈ texts := List.mem_insertionSort _

@[simp] theorem orderPlanFingerprint_singleton (r : BrokerOrderRequest) :
    orderPlanFingerprint [r] = legFingerprint r := by
  simp [orderPlanFingerprint, sortTexts]

/-- The pieces of a joined text are those of the texts. -/
theorem mem_split_intercalate (hne : texts ≠ []) :
    piece ∈ split (String.intercalate "|" texts) ↔ ∃ text ∈ texts, piece ∈ split text := by
  induction texts with
  | nil => exact absurd rfl hne
  | cons text rest ih =>
      cases rest with
      | nil => simp
      | cons next rest =>
          have hjoin : (String.intercalate "|" (text :: next :: rest)).toList =
              text.toList ++ '|' :: (String.intercalate "|" (next :: rest)).toList := by
            rw [String.intercalate_cons_cons]
            simp
          have hsplit : split (String.intercalate "|" (text :: next :: rest)) =
              split text ++ split (String.intercalate "|" (next :: rest)) := by
            rw [split, hjoin, List.splitOn_append_cons_self, List.map_append]
            rfl
          rw [hsplit, List.mem_append, ih (List.cons_ne_nil _ _)]
          simp

/-- A text without a separator is its only piece. -/
theorem split_of_not_mem (h : '|' ∉ text.toList) : split text = [text] := by
  rw [split, List.splitOn_eq_singleton h]
  simp

end Fingerprint

end Strikedge.EconomicAdmission
