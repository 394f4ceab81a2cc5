import Mathlib.Data.List.SplitBy
import Strikedge.Machine.Number
import Strikedge.Machine.OrderedMap

/-!
# The rows of the outbox

A projection is enqueued in the transaction of the fact it describes. An event is written
once and never changes; a snapshot keeps its row, which a newer value revives. Payloads are
screened for the names of secrets. Instants are milliseconds.
-/

namespace Strikedge.Outbox

open Machine

inductive Json where
  | null
  | bool (value : Bool)
  | number (value : ℚ)
  | string (value : String)
  | array (values : List Json)
  | object (fields : List (String × Json))

/-- Field names that must never appear in a projected payload, at any depth. -/
def forbiddenKeys : List String :=
  ["access_token", "accesstoken", "refresh_token", "request_token", "api_secret", "apisecret",
    "encrypted_access_token", "encryption_iv", "encryption_auth_tag", "session_token",
    "session_token_hash", "csrf_secret", "passcode", "site_access_secret", "token_passcode",
    "password", "database_url", "mongodb_uri", "connection_string",
    "broker_token_encryption_key"]

mutual

/-- `assertNoSecretFields`: the path of the first forbidden field. -/
def secretField (path : String) : Json → Option String
  | .array values => secretInValues path 0 values
  | .object fields => secretInFields path fields
  | _ => none

def secretInValues (path : String) (index : Nat) : List Json → Option String
  | [] => none
  | value :: values =>
    (secretField s!"{path}[{index}]" value).or (secretInValues path (index + 1) values)

def secretInFields (path : String) : List (String × Json) → Option String
  | [] => none
  | (key, child) :: fields =>
    if key.toLower ∈ forbiddenKeys then some s!"{path}.{key}"
    else (secretField s!"{path}.{key}" child).or (secretInFields path fields)

end

def secretLeakMessage (path : String) : String :=
  s!"Refusing to enqueue a Mongo projection carrying a secret-bearing field at \"{path}\". " ++
    "Broker tokens, access-session tokens, passcodes, CSRF secrets and database credentials " ++
    "are never projected."

/-- The collection of an aggregate type, if it has one. -/
def collectionForAggregate : String → Option String
  | "box_trade" => some "box_trades"
  | "box_trade_event" => some "box_trade_events"
  | "box_order_intent" => some "box_order_intents"
  | "box_execution_attempt" => some "box_execution_attempts"
  | "box_daily_pnl" => some "box_daily_pnl"
  | "box_calibration_sample" => some "box_calibration_samples"
  | _ => none

structure OutboxEvent where
  eventId : String
  aggregateType : String
  aggregateId : String
  eventType : String
  schemaVersion : Nat := 1
  payload : Json

structure OutboxRow where
  eventId : String
  aggregateType : String
  aggregateId : String
  eventType : String
  schemaVersion : Nat
  sequence : Nat
  payload : Json
  attempts : Nat
  nextAttemptAt : Nat
  publishedAt : Option Nat
  lastError : Option String
  deadLetteredAt : Option Nat

namespace OutboxRow

def aggregate (row : OutboxRow) : String × String := (row.aggregateType, row.aggregateId)

/-- Neither published nor dead-lettered. -/
def pending (row : OutboxRow) : Bool := row.publishedAt.isNone && row.deadLetteredAt.isNone

/-- What the claim of a pass looks for. -/
def due (row : OutboxRow) (now : Nat) : Bool := row.pending && decide (row.nextAttemptAt ≤ now)

end OutboxRow

/-- The row an insert makes. -/
def insertedRow (event : OutboxEvent) (sequence now : Nat) : OutboxRow where
  eventId := event.eventId
  aggregateType := event.aggregateType
  aggregateId := event.aggregateId
  eventType := event.eventType
  schemaVersion := event.schemaVersion
  sequence := sequence
  payload := event.payload
  attempts := 0
  nextAttemptAt := now
  publishedAt := none
  lastError := none
  deadLetteredAt := none

/-- A newer value replaces the payload and makes the row pending again. Its aggregate stays. -/
def revivedRow (row : OutboxRow) (event : OutboxEvent) (sequence now : Nat) : OutboxRow :=
  { insertedRow event sequence now with
    eventId := row.eventId
    aggregateType := row.aggregateType
    aggregateId := row.aggregateId }

/-- One line, at most 500 characters of the text. -/
def boundedProjectorError (raw : String) : String :=
  let words := (raw.toList.splitBy fun a b => isSpace a == isSpace b).filter fun word =>
    !(word.any isSpace)
  let oneLine := String.ofList (List.intercalate [' '] words)
  if 500 < oneLine.length then String.ofList (oneLine.toList.take 500) ++ "…" else oneLine

/-- The table refuses a longer text. -/
def lastErrorFits (error : String) : Bool := decide (error.length ≤ 500)

/-- Capped exponential backoff. -/
def backoffMs (attempts maxBackoffMs : Nat) : Nat := min (1000 * 2 ^ min attempts 30) maxBackoffMs

end Strikedge.Outbox
