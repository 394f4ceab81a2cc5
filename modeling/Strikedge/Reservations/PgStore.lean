import Mathlib.Data.List.Infix
import Strikedge.Machine.Table
import Strikedge.Reservations.MemoryStore

/-!
# The PostgreSQL reservation port

`PgReservationPort` over the tables `box_reservation_owners`, whose primary key is the owner,
and `box_reservation_keys`, whose primary key is the deployment, the broker and the
instrument key and whose rows are deleted with their owner. Each call is one statement or one
transaction.

Rows are selected in the order of the tables, which stands for an order the server is free to
choose; the keys of a reservation are ordered by the code points of their text.
-/

namespace Strikedge.Reservations

structure OwnerRow where
  owner : Owner
  deployment : Deployment
  broker : String
  generation : Nat
  mode : String
  fence : Nat
  ownerInstance : String
  createdAt : Int
  expiresAt : Int
  renewedAt : Int
  deriving DecidableEq, Repr

structure KeyRow where
  deploymentId : Deployment
  broker : String
  instrumentKey : InstrumentKey
  owner : Owner
  side : String
  deriving DecidableEq, Repr

/-- The primary key of `box_reservation_keys`. -/
abbrev KeyId := Deployment × String × InstrumentKey

def KeyRow.id (row : KeyRow) : KeyId := (row.deploymentId, row.broker, row.instrumentKey)

structure ReservationTables where
  owners : OrderedMap Owner OwnerRow := ∅
  keys : OrderedMap KeyId KeyRow := ∅

inductive LikeToken where
  | literal (c : Char)
  | one
  | many
  deriving DecidableEq, Repr

/-- The tokens of a `LIKE` pattern with the escape character `\`. -/
def likeTokens : List Char → List LikeToken
  | [] => []
  | '\\' :: c :: pattern => .literal c :: likeTokens pattern
  | c :: pattern =>
    (if c = '%' then .many else if c = '_' then .one else .literal c) :: likeTokens pattern

def matchesTokens : List LikeToken → List Char → Bool
  | [], text => text.isEmpty
  | .many :: tokens, text => text.tails.any (matchesTokens tokens)
  | .one :: _, [] => false
  | .one :: tokens, _ :: text => matchesTokens tokens text
  | .literal _ :: _, [] => false
  | .literal c :: tokens, x :: text => decide (c = x) && matchesTokens tokens text

/-- `text LIKE pattern ESCAPE '\'` -/
def like (text pattern : String) : Bool := matchesTokens (likeTokens pattern.toList) text.toList

/-- `prefix.replace(/([%_\\])/g, "\\$1")` -/
def escapeLike (ownerPrefix : String) : String :=
  String.ofList (ownerPrefix.toList.flatMap fun c =>
    if c = '%' ∨ c = '_' ∨ c = '\\' then ['\\', c] else [c])

/-- The columns of a reservation's owner row. -/
def DurableReservationDoc.ownerRow (doc : DurableReservationDoc) : OwnerRow where
  owner := doc.owner
  deployment := doc.deployment
  broker := doc.broker
  generation := doc.generation
  mode := doc.mode
  fence := doc.fence
  ownerInstance := doc.ownerInstance
  createdAt := doc.createdAt
  expiresAt := doc.expiresAt
  renewedAt := doc.renewedAt

/-- The side of a key in `new Map(doc.sides)`, where the last entry of a key counts. -/
def DurableReservationDoc.sideByKey (doc : DurableReservationDoc) (key : InstrumentKey) : String :=
  (doc.sides.reverse.lookup key).getD ""

/-- The row of one key of a reservation. -/
def DurableReservationDoc.keyRow (doc : DurableReservationDoc) (key : InstrumentKey) : KeyRow where
  deploymentId := doc.deployment
  broker := doc.broker
  instrumentKey := key
  owner := doc.owner
  side := doc.sideByKey key

/-- The rows of all keys of a reservation, under their primary keys. -/
def DurableReservationDoc.keyRows (doc : DurableReservationDoc) : List (KeyId × KeyRow) :=
  doc.keys.map fun key => ((doc.keyRow key).id, doc.keyRow key)

namespace ReservationTables

variable (tables : ReservationTables)

/-- The key rows of an owner, `ORDER BY instrument_key`. -/
def loadKeys (owner : Owner) : List KeyRow :=
  (tables.keys.values.filter (·.owner = owner)).mergeSort fun a b =>
    decide (a.instrumentKey ≤ b.instrumentKey)

def toDoc (row : OwnerRow) (keys : List KeyRow) : DurableReservationDoc where
  owner := row.owner
  deployment := row.deployment
  broker := row.broker
  generation := row.generation
  mode := row.mode
  keys := keys.map (·.instrumentKey)
  sides := keys.map fun key => (key.instrumentKey, key.side)
  fence := row.fence
  ownerInstance := row.ownerInstance
  createdAt := row.createdAt
  expiresAt := row.expiresAt
  renewedAt := row.renewedAt

/-- The document of an owner row, its keys loaded. -/
def load (row : OwnerRow) : DurableReservationDoc := toDoc row (tables.loadKeys row.owner)

/-- One transaction: the owner row, then every key row. A duplicate key rolls it back. -/
def insert (doc : DurableReservationDoc) : ReservationTables × InsertReservationResult :=
  if tables.owners.has doc.owner then (tables, .ownerExists)
  else
    match tables.keys.insertRows doc.keyRows with
    | none => (tables, .keyConflict)
    | some keys => ({ owners := tables.owners.set doc.owner doc.ownerRow, keys := keys }, .inserted)

/-- `DELETE FROM box_reservation_owners` with the key rows that go with their owner, and the
count of owner rows deleted. -/
def deleteOwners (p : OwnerRow → Bool) : ReservationTables × Nat :=
  ({ owners := tables.owners.filter fun _ row => !p row
     keys := tables.keys.filter fun _ row => !(tables.owners.get? row.owner).any p },
    (tables.owners.values.filter p).length)

/-- `EXISTS` over the key rows of an owner. -/
def existsKey (owner : Owner) (keys : List InstrumentKey) : Bool :=
  tables.keys.values.any fun row => decide (row.owner = owner) && decide (row.instrumentKey ∈ keys)

def deleteExpired (deployment : Deployment) (keys : Option (List InstrumentKey))
    (notAfter : Int) : ReservationTables × Nat :=
  tables.deleteOwners fun row => row.deployment = deployment && row.expiresAt ≤ notAfter &&
    keys.all (tables.existsKey row.owner)

def findLiveByKeys (deployment : Deployment) (keys : List InstrumentKey) (now : Int) :
    List DurableReservationDoc :=
  (tables.owners.values.filter fun row => row.deployment = deployment &&
    tables.existsKey row.owner keys && now < row.expiresAt).map tables.load

def findByOwner (owner : Owner) : Option DurableReservationDoc :=
  (tables.owners.get? owner).map tables.load

def deleteOwned (owner : Owner) (fence : Option Nat) : ReservationTables × Nat :=
  tables.deleteOwners fun row => decide (row.owner = owner) && fence.all (row.fence = ·)

/-- `UPDATE .. RETURNING *` on the row of one owner. -/
def renewOwned (args : RenewOwnedArgs) : ReservationTables × Option DurableReservationDoc :=
  match tables.owners.get? args.owner with
  | none => (tables, none)
  | some row =>
    if args.now < row.expiresAt && args.fence.all (row.fence = ·) &&
        args.broker.all (row.broker = ·) && args.generation.all (row.generation = ·) then
      let updated := { row with expiresAt := args.expiresAt, renewedAt := args.now }
      ({ tables with owners := tables.owners.set args.owner updated }, some (tables.load updated))
    else (tables, none)

def deleteByOwnerPrefix (ownerPrefix : String) : ReservationTables × Nat :=
  let escaped := escapeLike ownerPrefix
  tables.deleteOwners fun row => like row.owner (escaped ++ "%")

def countLive (deployment : Deployment) (now : Int) : Nat :=
  (tables.owners.values.filter fun row =>
    row.deployment = deployment && now < row.expiresAt).length

end ReservationTables

/-- `countLive` of the in-memory port. -/
def InMemoryReservationDatabase.countLive (db : InMemoryReservationDatabase)
    (deployment : Deployment) (now : Int) : Nat :=
  (db.docs.values.filter fun doc => doc.deployment = deployment && now < doc.expiresAt).length

theorem likeTokens_escape (text : List Char) :
    likeTokens ((text.flatMap fun c =>
        if c = '%' ∨ c = '_' ∨ c = '\\' then ['\\', c] else [c]) ++ ['%']) =
      text.map .literal ++ [.many] := by
  induction text with
  | nil => rfl
  | cons c text ih =>
    rw [List.flatMap_cons, List.append_assoc]
    by_cases hspecial : c = '%' ∨ c = '_' ∨ c = '\\'
    · rw [if_pos hspecial]
      rw [List.cons_append, List.cons_append, List.nil_append, likeTokens, ih]
      rfl
    · rw [if_neg hspecial]
      obtain ⟨hmany, hone, hescape⟩ := not_or.mp hspecial |>.imp_right not_or.mp
      rw [List.cons_append, List.nil_append, likeTokens, if_neg hmany, if_neg hone, ih]
      · rfl
      · exact fun _ _ heq _ => hescape heq

theorem matchesTokens_prefix (text owner : List Char) :
    matchesTokens (text.map .literal ++ [.many]) owner = text.isPrefixOf owner := by
  induction text generalizing owner with
  | nil =>
    have hall : owner.tails.any (matchesTokens []) = true :=
      List.any_eq_true.mpr ⟨[], (List.mem_tails _ _).mpr List.nil_suffix, rfl⟩
    rw [List.map_nil, List.nil_append, matchesTokens, hall, List.isPrefixOf_nil_left]
  | cons c text ih =>
    cases owner with
    | nil => rfl
    | cons x owner =>
      rw [List.map_cons, List.cons_append, matchesTokens, ih, List.isPrefixOf_cons_cons]
      rfl

/-- The escaped prefix matches as the prefix it is, whatever characters it holds. -/
theorem like_escapeLike (owner ownerPrefix : String) :
    like owner (escapeLike ownerPrefix ++ "%") =
      ownerPrefix.toList.isPrefixOf owner.toList := by
  rw [like, String.toList_append, escapeLike, String.toList_ofList]
  show matchesTokens (likeTokens (_ ++ ['%'])) _ = _
  rw [likeTokens_escape, matchesTokens_prefix]

end Strikedge.Reservations
