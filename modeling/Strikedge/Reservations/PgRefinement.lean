import Strikedge.Machine.Service
import Strikedge.ActiveBroker.Manager
import Strikedge.Coordinator.Types
import Strikedge.Reservations.Durable
import Strikedge.Reservations.PgStore

/-!
# The PostgreSQL port refines the in-memory one

The owner rows are the documents without their keys, and the key rows are the keys of the
documents. The one port checks all index entries of a document before it writes any, the
other inserts row by row and unwinds; the index names the deployment and the key, the primary
key the broker as well, which the key has in front of it.
-/

namespace Strikedge.Reservations

open Machine

/-- What the durable tier hands to its port: the keys are distinct and in the namespace of
their broker, each has its side, and no name holds the zero character. -/
structure DurableReservationDoc.Built (doc : DurableReservationDoc) : Prop where
  distinct : doc.keys.Nodup
  sided : ∃ side : InstrumentKey → String, doc.sides = doc.keys.map fun key => (key, side key)
  named : '\x00' ∉ doc.deployment.toList
  namespaced : ∃ broker : ActiveBroker.BrokerId, doc.broker = broker.text ∧
    ∀ key ∈ doc.keys, (Coordinator.normalise broker.text ++ ":").toList <+: key.toList

/-- The same document up to the order of its keys. -/
structure SameDoc (a b : DurableReservationDoc) : Prop where
  row : a.ownerRow = b.ownerRow
  keys : a.keys.Perm b.keys
  sides : a.sides.Perm b.sides

/-- The same documents, in any order. -/
def SameDocs (docs docs' : List DurableReservationDoc) : Prop :=
  ∃ order, docs'.Perm order ∧ List.Forall₂ SameDoc docs order

/-- The tables hold the documents: a row for every owner, and one for every key. -/
structure Represents (db : InMemoryReservationDatabase) (tables : ReservationTables) : Prop where
  indexed : Indexed db
  built : ∀ owner doc, db.docs.get? owner = some doc → doc.Built
  owners : ∀ owner, tables.owners.get? owner = (db.docs.get? owner).map (·.ownerRow)
  keys : ∀ id row, tables.keys.get? id = some row ↔
    ∃ doc key, db.docs.get? doc.owner = some doc ∧ key ∈ doc.keys ∧ row = doc.keyRow key ∧
      id = row.id

theorem represents_empty : Represents {} {} where
  indexed := indexed_empty
  built _ _ h := nomatch h
  owners _ := rfl
  keys _ _ := by
    constructor
    · intro h
      cases h
    · rintro ⟨_, _, h, -⟩
      cases h

section Documents

variable {doc other : DurableReservationDoc} {key : InstrumentKey}

theorem lookup_map_side {keys : List InstrumentKey} (side : InstrumentKey → String)
    (h : key ∈ keys) : (keys.map fun key => (key, side key)).lookup key = some (side key) := by
  induction keys with
  | nil => exact absurd h List.not_mem_nil
  | cons first keys ih =>
    rw [List.map_cons, List.lookup_cons]
    by_cases hsame : key = first
    · rw [hsame, beq_self_eq_true]
    · rw [beq_false_of_ne hsame]
      exact ih ((List.mem_cons.mp h).resolve_left hsame)

/-- The side of a key is the one its document has for it. -/
theorem DurableReservationDoc.Built.sides_eq (h : doc.Built) :
    doc.sides = doc.keys.map fun key => (key, doc.sideByKey key) := by
  obtain ⟨side, hside⟩ := h.sided
  rw [hside]
  refine List.map_congr_left fun key hkey => ?_
  rw [sideByKey, hside, ← List.map_reverse, lookup_map_side side (List.mem_reverse.mpr hkey),
    Option.getD_some]

/-- A key is in the namespace of one broker. -/
theorem DurableReservationDoc.Built.broker_eq (h : doc.Built) (h' : other.Built)
    (hkey : key ∈ doc.keys) (hkey' : key ∈ other.keys) : doc.broker = other.broker := by
  obtain ⟨broker, hbroker, hprefix⟩ := h.namespaced
  obtain ⟨broker', hbroker', hprefix'⟩ := h'.namespaced
  have hfirst := hprefix key hkey
  have hfirst' := hprefix' key hkey'
  rw [hbroker, hbroker']
  have hapart : ∀ a b : ActiveBroker.BrokerId,
      (Coordinator.normalise a.text ++ ":").toList <+:
        (Coordinator.normalise b.text ++ ":").toList → a = b := by
    intro a b h
    cases a with
    | zerodha =>
      cases b with
      | zerodha => rfl
      | dhan => exact absurd h (by decide +kernel)
    | dhan =>
      cases b with
      | zerodha => exact absurd h (by decide +kernel)
      | dhan => rfl
  obtain h | h := List.prefix_or_prefix_of_prefix hfirst hfirst'
  · rw [hapart broker broker' h]
  · rw [hapart broker' broker h]

theorem append_cons_inj {c : Char} {a b : List Char} {x y : List Char} (ha : c ∉ a)
    (hb : c ∉ b) : a ++ c :: x = b ++ c :: y ↔ a = b ∧ x = y := by
  induction a generalizing b with
  | nil =>
    cases b with
    | nil => simp
    | cons e b =>
      have hne : c ≠ e := fun h => hb (h ▸ List.mem_cons_self)
      simp [hne]
  | cons d a ih =>
    have hd : d ≠ c := fun h => ha (h ▸ List.mem_cons_self)
    have ha := fun h => ha (List.mem_cons_of_mem d h)
    cases b with
    | nil => simp [hd]
    | cons e b =>
      have hb := fun h => hb (List.mem_cons_of_mem e h)
      rw [List.cons_append, List.cons_append, List.cons.injEq, ih ha hb, List.cons.injEq,
        and_assoc]

/-- Entries of the index tell deployments and keys apart. -/
theorem indexKey_inj {d d' : Deployment} {key' : InstrumentKey} (h : '\x00' ∉ d.toList)
    (h' : '\x00' ∉ d'.toList) : indexKey d key = indexKey d' key' ↔ d = d' ∧ key = key' := by
  rw [indexKey, indexKey, ← String.toList_inj, String.toList_append, String.toList_append,
    String.toList_append, String.toList_append, List.append_assoc, List.append_assoc]
  show d.toList ++ '\x00' :: key.toList = d'.toList ++ '\x00' :: key'.toList ↔ _
  rw [append_cons_inj h h', String.toList_inj, String.toList_inj]

/-- A renewal leaves a document built. -/
theorem DurableReservationDoc.Built.renewed (h : doc.Built) (args : RenewOwnedArgs) :
    (doc.renewedBy args).Built := ⟨h.distinct, h.sided, h.named, h.namespaced⟩

/-- The document a request of the durable tier writes is built for the port. -/
theorem AcquireArgs.toDoc_built {args : AcquireArgs} {ctx : ReservationContext}
    {ownerPrefix : String} {authNow : Int} {fence : Nat} {broker : ActiveBroker.BrokerId}
    (hbroker : ctx.broker = broker.text) (hnamed : '\x00' ∉ ctx.deployment.toList)
    (hkeys : ∀ key ∈ args.keys, (Coordinator.normalise broker.text ++ ":").toList <+: key.toList) :
    (args.toDoc ctx ownerPrefix authNow fence).Built where
  distinct := nodup_dedupeKeys args.keys
  sided := ⟨fun key => (args.sideOf key).getD "", rfl⟩
  named := hnamed
  namespaced := ⟨broker, hbroker, fun key hkey => hkeys key (mem_dedupeKeys.mp hkey)⟩

end Documents

namespace Represents

variable {db : InMemoryReservationDatabase} {tables : ReservationTables}
variable {doc other : DurableReservationDoc} {owner : Owner} {key : InstrumentKey}

/-- The key rows of a stored document. -/
theorem mem_rows_iff (h : Represents db tables) (hdoc : db.docs.get? owner = some doc)
    {row : KeyRow} : row ∈ tables.keys.values ∧ row.owner = owner ↔
      ∃ key ∈ doc.keys, row = doc.keyRow key := by
  have howner : doc.owner = owner := h.indexed.owner_eq hdoc
  rw [OrderedMap.mem_values_iff]
  constructor
  · rintro ⟨⟨id, hid⟩, hrow⟩
    obtain ⟨found, key, hfound, hkey, rfl, -⟩ := (h.keys id row).mp hid
    change found.owner = owner at hrow
    rw [hrow] at hfound
    obtain rfl : doc = found := Option.some.inj (hdoc.symm.trans hfound)
    exact ⟨key, hkey, rfl⟩
  · rintro ⟨key, hkey, rfl⟩
    exact ⟨⟨_, (h.keys _ _).mpr ⟨doc, key, howner.symm ▸ hdoc, hkey, rfl, rfl⟩⟩, howner⟩

theorem nodup_values (h : Represents db tables) : tables.keys.values.Nodup := by
  have hids : tables.keys.values.map KeyRow.id = tables.keys.keys := by
    rw [OrderedMap.values, OrderedMap.keys, List.map_map]
    refine List.map_congr_left fun e he => ?_
    obtain ⟨-, -, -, -, -, hid⟩ := (h.keys e.1 e.2).mp (OrderedMap.mem_entries_iff.mp he)
    exact hid.symm
  exact (hids ▸ tables.keys.nodup : (tables.keys.values.map KeyRow.id).Nodup).of_map _

/-- The rows loaded for a document are its keys, each with its side. -/
theorem loadKeys_perm (h : Represents db tables) (hdoc : db.docs.get? owner = some doc) :
    (tables.loadKeys owner).Perm (doc.keys.map doc.keyRow) := by
  refine (List.mergeSort_perm _ _).trans ?_
  have hrows : (doc.keys.map doc.keyRow).Nodup :=
    (h.built owner doc hdoc).distinct.map fun a b hab => congrArg KeyRow.instrumentKey hab
  refine (List.perm_ext_iff_of_nodup (h.nodup_values.filter _) hrows).mpr fun row => ?_
  rw [List.mem_filter, decide_eq_true_eq, h.mem_rows_iff hdoc, List.mem_map]
  simp only [eq_comm]

/-- The tables give back the document, up to the order of its keys. -/
theorem load_same (h : Represents db tables) (hdoc : db.docs.get? owner = some doc) :
    SameDoc doc (tables.load doc.ownerRow) := by
  have hperm := h.loadKeys_perm hdoc
  rw [← h.indexed.owner_eq hdoc] at hperm
  refine ⟨rfl, ?_, ?_⟩
  · have hkeys : (doc.keys.map doc.keyRow).map (·.instrumentKey) = doc.keys := by
      rw [List.map_map]
      exact List.map_id _
    exact hkeys ▸ (hperm.map (·.instrumentKey)).symm
  · have hsides : (doc.keys.map doc.keyRow).map (fun row => (row.instrumentKey, row.side)) =
        doc.sides := by
      rw [List.map_map, (h.built owner doc hdoc).sides_eq]
      rfl
    exact hsides ▸ (hperm.map fun row => (row.instrumentKey, row.side)).symm

/-- The `EXISTS` over the key rows is the overlap of the document's keys. -/
theorem existsKey_eq (h : Represents db tables) (hdoc : db.docs.get? owner = some doc)
    (keys : List InstrumentKey) : tables.existsKey owner keys = doc.overlaps keys := by
  apply Bool.eq_iff_iff.mpr
  rw [ReservationTables.existsKey, DurableReservationDoc.overlaps, List.any_eq_true,
    List.any_eq_true]
  constructor
  · rintro ⟨row, hrow, hboth⟩
    obtain ⟨howner, hmem⟩ := (Bool.and_eq_true _ _).mp hboth
    obtain ⟨key, hkey, rfl⟩ := (h.mem_rows_iff hdoc).mp ⟨hrow, of_decide_eq_true howner⟩
    exact ⟨key, hkey, hmem⟩
  · rintro ⟨key, hkey, hmem⟩
    obtain ⟨hrow, howner⟩ := (h.mem_rows_iff hdoc).mpr ⟨key, hkey, rfl⟩
    exact ⟨doc.keyRow key, hrow, by rw [decide_eq_true howner]; exact hmem⟩

/-- A condition on owner rows that reads like one on documents selects their rows. -/
theorem rows_perm (h : Represents db tables) {p : DurableReservationDoc → Bool}
    {q : OwnerRow → Bool} (hpq : ∀ owner doc, db.docs.get? owner = some doc →
      q doc.ownerRow = p doc) :
    (tables.owners.values.filter q).Perm ((db.docs.values.filter p).map (·.ownerRow)) := by
  have hrows := (OrderedMap.values_perm_map h.owners).filter q
  rw [List.filter_map] at hrows
  have hsame : db.docs.values.filter (q ∘ (·.ownerRow)) = db.docs.values.filter p := by
    refine List.filter_congr fun doc hdoc => ?_
    obtain ⟨owner, howner⟩ := OrderedMap.mem_values_iff.mp hdoc
    exact hpq owner doc howner
  exact hsame ▸ hrows

theorem count_eq (h : Represents db tables) {p : DurableReservationDoc → Bool}
    {q : OwnerRow → Bool} (hpq : ∀ owner doc, db.docs.get? owner = some doc →
      q doc.ownerRow = p doc) :
    (db.docs.values.filter p).length = (tables.owners.values.filter q).length := by
  rw [(h.rows_perm hpq).length_eq, List.length_map]

/-- Deleting corresponding documents and owner rows, with their keys, keeps the relation. -/
theorem delete (h : Represents db tables) {p : DurableReservationDoc → Bool}
    {q : OwnerRow → Bool} (hpq : ∀ owner doc, db.docs.get? owner = some doc →
      q doc.ownerRow = p doc) :
    Represents ((db.docs.values.filter p).foldl InMemoryReservationDatabase.removeDoc db)
      (tables.deleteOwners q).1 := by
  have hget := fun owner =>
    InMemoryReservationDatabase.get?_removeValues h.indexed p owner
  have hkept : ∀ owner doc, ((db.docs.values.filter p).foldl
      InMemoryReservationDatabase.removeDoc db).docs.get? owner = some doc ↔
        db.docs.get? owner = some doc ∧ p doc = false := by
    intro owner doc
    rw [hget, Option.filter_eq_some_iff, Bool.not_eq_true']
  refine ⟨InMemoryReservationDatabase.indexed_removeValues h.indexed p,
    fun owner doc hdoc => h.built owner doc ((hkept owner doc).mp hdoc).1, fun owner => ?_,
    fun id row => ?_⟩
  · show (tables.owners.filter fun _ row => !q row).get? owner = _
    rw [OrderedMap.get?_filter, h.owners, hget]
    cases hdoc : db.docs.get? owner with
    | none => rfl
    | some doc =>
      rw [Option.map_some, Option.filter_some, Option.filter_some, hpq owner doc hdoc]
      cases p doc <;> rfl
  · show (tables.keys.filter fun _ row => !(tables.owners.get? row.owner).any q).get? id =
      some row ↔ _
    rw [OrderedMap.get?_filter, Option.filter_eq_some_iff, h.keys, Bool.not_eq_true']
    constructor
    · rintro ⟨⟨doc, key, hdoc, hkey, rfl, hid⟩, hany⟩
      change (tables.owners.get? doc.owner).any q = false at hany
      rw [h.owners, hdoc, Option.map_some, Option.any_some, hpq _ doc hdoc] at hany
      exact ⟨doc, key, (hkept _ _).mpr ⟨hdoc, hany⟩, hkey, rfl, hid⟩
    · rintro ⟨doc, key, hdoc, hkey, rfl, hid⟩
      obtain ⟨hbefore, hp⟩ := (hkept _ _).mp hdoc
      refine ⟨⟨doc, key, hbefore, hkey, rfl, hid⟩, ?_⟩
      show (tables.owners.get? doc.owner).any q = false
      rw [h.owners, hbefore, Option.map_some, Option.any_some, hpq _ doc hbefore, hp]

/-- The index has an entry for a key of a new document exactly when the primary key has. -/
theorem taken_iff (h : Represents db tables) (hbuilt : doc.Built) (hkey : key ∈ doc.keys) :
    db.uniqueIndex.has (indexKey doc.deployment key) = true ↔
      tables.keys.get? (doc.keyRow key).id ≠ none := by
  rw [OrderedMap.has_iff, Option.ne_none_iff_exists']
  constructor
  · rintro ⟨owner, howner⟩
    obtain ⟨held, hheld, hentry⟩ := h.indexed.index_iff.mp howner
    obtain ⟨other, hother, heq⟩ := List.mem_map.mp hentry
    have hbuilt' := h.built owner held hheld
    obtain ⟨hdeployment, rfl⟩ := (indexKey_inj hbuilt'.named hbuilt.named).mp heq
    have hbroker := hbuilt.broker_eq hbuilt' hkey hother
    have hheld' : db.docs.get? held.owner = some held := h.indexed.owner_eq hheld ▸ hheld
    refine ⟨held.keyRow other, (h.keys _ _).mpr ⟨held, other, hheld', hother, rfl, ?_⟩⟩
    rw [KeyRow.id, KeyRow.id]
    exact Prod.ext hdeployment.symm (Prod.ext hbroker rfl)
  · rintro ⟨row, hrow⟩
    obtain ⟨held, other, hheld, hother, rfl, hid⟩ := (h.keys _ _).mp hrow
    have hdeployment : doc.deployment = held.deployment := congrArg Prod.fst hid
    have hsame : key = other := congrArg (fun id => id.2.2) hid
    refine ⟨held.owner, h.indexed.index_iff.mpr ⟨held, hheld, ?_⟩⟩
    exact List.mem_map.mpr ⟨other, hother, by rw [hdeployment, hsame]⟩

/-- Both ports give the same verdict on a new document and store it, or neither does. -/
theorem insert (h : Represents db tables) (hbuilt : doc.Built) :
    (db.insert doc).2 = (tables.insert doc).2 ∧
      Represents (db.insert doc).1 (tables.insert doc).1 := by
  have hhas : tables.owners.has doc.owner = db.docs.has doc.owner := by
    rw [OrderedMap.has, h.owners, OrderedMap.has, Option.isSome_map]
  have hids : doc.keyRows.map Prod.fst = doc.keys.map fun key => (doc.keyRow key).id :=
    List.map_map ..
  have hnodup : (doc.keyRows.map Prod.fst).Nodup := by
    rw [hids]
    exact hbuilt.distinct.map fun a b hab => congrArg (fun id => id.2.2) hab
  have hrows := OrderedMap.insertRows_isSome (m := tables.keys) hnodup
  rw [hids, List.forall_mem_map] at hrows
  obtain ⟨hdb, howner⟩ | ⟨hdb, howner, hconflict⟩ | ⟨hdb, howner, hfree⟩ := db.insert_cases doc
  · rw [hdb, ReservationTables.insert, if_pos (hhas.trans howner)]
    exact ⟨rfl, h⟩
  · obtain ⟨entry, hentry, htaken⟩ := hconflict
    obtain ⟨key, hkey, rfl⟩ := List.mem_map.mp hentry
    have hnone : tables.keys.insertRows doc.keyRows = none := by
      refine Option.not_isSome_iff_eq_none.mp fun hsome => ?_
      exact (h.taken_iff hbuilt hkey).mp htaken (hrows.mp hsome key hkey)
    rw [hdb, ReservationTables.insert, if_neg (by rw [hhas, howner]; exact Bool.false_ne_true),
      hnone]
    exact ⟨rfl, h⟩
  · have hkeysFree : ∀ key ∈ doc.keys, tables.keys.get? (doc.keyRow key).id = none := by
      intro key hkey
      by_contra htaken
      have hentry := (h.taken_iff hbuilt hkey).mpr htaken
      rw [OrderedMap.has, hfree _ (List.mem_map.mpr ⟨key, hkey, rfl⟩)] at hentry
      cases hentry
    obtain ⟨after, hafter⟩ := Option.isSome_iff_exists.mp (hrows.mpr hkeysFree)
    have hget := fun id row => OrderedMap.get?_insertRows (k := id) (v := row) hnodup hafter
    have hindexed : Indexed (db.insert doc).1 :=
      InMemoryReservationDatabase.indexed_insert h.indexed
    rw [hdb] at hindexed
    have hfresh : tables.owners.has doc.owner = false := by
      rw [hhas, OrderedMap.has, howner]
      rfl
    rw [hdb, ReservationTables.insert, if_neg (by rw [hfresh]; exact Bool.false_ne_true), hafter]
    refine ⟨rfl, hindexed, fun owner stored hstored => ?_, fun owner => ?_, fun id row => ?_⟩
    · obtain ⟨-, rfl⟩ | ⟨-, hstored⟩ := OrderedMap.get?_set_eq_some.mp hstored
      · exact hbuilt
      · exact h.built owner stored hstored
    · rw [OrderedMap.get?_set, OrderedMap.get?_set]
      by_cases hsame : owner = doc.owner
      · rw [if_pos hsame, if_pos hsame, Option.map_some]
      · rw [if_neg hsame, if_neg hsame, h.owners]
    · refine (hget id row).trans ?_
      rw [hids]
      constructor
      · rintro (hnew | ⟨-, hold⟩)
        · obtain ⟨key, hkey, hpair⟩ := List.mem_map.mp hnew
          obtain ⟨rfl, rfl⟩ := Prod.mk.inj hpair
          exact ⟨doc, key, by rw [OrderedMap.get?_set, if_pos rfl], hkey, rfl, rfl⟩
        · obtain ⟨stored, key, hstored, hkey, hrow, hid⟩ := (h.keys id row).mp hold
          have hne : stored.owner ≠ doc.owner := by
            intro heq
            rw [heq, howner] at hstored
            cases hstored
          exact ⟨stored, key, by rw [OrderedMap.get?_set, if_neg hne, hstored], hkey, hrow, hid⟩
      · rintro ⟨stored, key, hstored, hkey, hrow, hid⟩
        obtain ⟨-, rfl⟩ | ⟨hne, hstored⟩ := OrderedMap.get?_set_eq_some.mp hstored
        · exact .inl (List.mem_map.mpr ⟨key, hkey, by rw [hid, hrow]⟩)
        · have hold := (h.keys id row).mpr ⟨stored, key, hstored, hkey, hrow, hid⟩
          refine .inr ⟨fun hmem => ?_, hold⟩
          obtain ⟨taken, htaken, rfl⟩ := List.mem_map.mp hmem
          rw [hkeysFree taken htaken] at hold
          cases hold

/-- Deleting by owner. -/
theorem deleteOwned (h : Represents db tables) (owner : Owner) (fence : Option Nat) :
    (db.deleteOwned owner fence).2 = (tables.deleteOwned owner fence).2 ∧
      Represents (db.deleteOwned owner fence).1 (tables.deleteOwned owner fence).1 := by
  have hfilter : (db.docs.values.filter fun doc =>
      decide (doc.owner = owner) && fence.all (doc.fence = ·)) =
        ((db.docs.get? owner).filter fun doc => fence.all (doc.fence = ·)).toList :=
    OrderedMap.filter_values_key (fun key doc hdoc => h.indexed.owner_eq hdoc) owner _
  let p (doc : DurableReservationDoc) := decide (doc.owner = owner) && fence.all (doc.fence = ·)
  let q (row : OwnerRow) := decide (row.owner = owner) && fence.all (row.fence = ·)
  have hdelete := h.delete (p := p) (q := q) fun _ _ _ => rfl
  have hcount := h.count_eq (p := p) (q := q) fun _ _ _ => rfl
  rw [hfilter] at hdelete hcount
  rw [InMemoryReservationDatabase.deleteOwned]
  cases hdoc : db.docs.get? owner with
  | none =>
    rw [hdoc] at hdelete hcount
    exact ⟨hcount, hdelete⟩
  | some doc =>
    rw [hdoc, Option.filter_some] at hdelete hcount
    dsimp only
    split
    · rename_i hfence
      rw [if_pos hfence] at hdelete hcount
      exact ⟨hcount, hdelete⟩
    · rename_i hfence
      rw [if_neg hfence] at hdelete hcount
      exact ⟨hcount, hdelete⟩

/-- The `EXISTS` of a stored reservation's own row. -/
theorem existsKey_owner (h : Represents db tables) (hdoc : db.docs.get? owner = some doc)
    (keys : List InstrumentKey) : tables.existsKey doc.owner keys = doc.overlaps keys := by
  rw [h.indexed.owner_eq hdoc]
  exact h.existsKey_eq hdoc keys

/-- Reclaiming what has expired. -/
theorem deleteExpired (h : Represents db tables) (deployment : Deployment)
    (keys : Option (List InstrumentKey)) (notAfter : Int) :
    (db.deleteExpired deployment keys notAfter).2 =
        (tables.deleteExpired deployment keys notAfter).2 ∧
      Represents (db.deleteExpired deployment keys notAfter).1
        (tables.deleteExpired deployment keys notAfter).1 := by
  have hpq : ∀ owner doc, db.docs.get? owner = some doc →
      (decide (doc.deployment = deployment) && decide (doc.expiresAt ≤ notAfter) &&
          keys.all (tables.existsKey doc.owner)) =
        (decide (doc.deployment = deployment) && decide (doc.expiresAt ≤ notAfter) &&
          keys.all doc.overlaps) := by
    intro owner doc hdoc
    cases keys with
    | none => rfl
    | some keys => rw [Option.all_some, Option.all_some, h.existsKey_owner hdoc]
  exact ⟨h.count_eq hpq, h.delete hpq⟩

/-- Deleting what one process owns: the pattern matches the owners with that prefix. -/
theorem deleteByOwnerPrefix (h : Represents db tables) (ownerPrefix : String) :
    (db.deleteByOwnerPrefix ownerPrefix).2 = (tables.deleteByOwnerPrefix ownerPrefix).2 ∧
      Represents (db.deleteByOwnerPrefix ownerPrefix).1
        (tables.deleteByOwnerPrefix ownerPrefix).1 := by
  have hpq : ∀ owner doc, db.docs.get? owner = some doc →
      like doc.owner (escapeLike ownerPrefix ++ "%") =
        ownerPrefix.toList.isPrefixOf doc.owner.toList :=
    fun _ doc _ => like_escapeLike doc.owner ownerPrefix
  exact ⟨h.count_eq hpq, h.delete hpq⟩

/-- Counting live reservations. -/
theorem countLive (h : Represents db tables) (deployment : Deployment) (now : Int) :
    db.countLive deployment now = tables.countLive deployment now :=
  h.count_eq fun _ _ _ => rfl

/-- Reading one reservation. -/
theorem findByOwner (h : Represents db tables) (owner : Owner) :
    Option.Rel SameDoc (db.findByOwner owner) (tables.findByOwner owner) := by
  rw [InMemoryReservationDatabase.findByOwner, ReservationTables.findByOwner, h.owners]
  cases hdoc : db.docs.get? owner with
  | none => exact .none
  | some doc => exact .some (h.load_same hdoc)

/-- Reading the live reservations that overlap some keys. -/
theorem findLiveByKeys (h : Represents db tables) (deployment : Deployment)
    (keys : List InstrumentKey) (now : Int) :
    SameDocs (db.findLiveByKeys deployment keys now)
      (tables.findLiveByKeys deployment keys now) := by
  have hpq : ∀ owner doc, db.docs.get? owner = some doc →
      (decide (doc.deployment = deployment) && tables.existsKey doc.owner keys &&
          decide (now < doc.expiresAt)) =
        (decide (doc.deployment = deployment) && decide (now < doc.expiresAt) &&
          doc.overlaps keys) := by
    intro owner doc hdoc
    rw [h.existsKey_owner hdoc, Bool.and_right_comm]
  have hrows : (tables.findLiveByKeys deployment keys now).Perm
      (((db.findLiveByKeys deployment keys now).map (·.ownerRow)).map tables.load) :=
    (h.rows_perm hpq).map tables.load
  refine ⟨_, hrows, ?_⟩
  rw [List.map_map]
  refine List.forall₂_map_right_iff.mpr (List.forall₂_same.mpr fun doc hdoc => ?_)
  obtain ⟨owner, howner⟩ := OrderedMap.mem_values_iff.mp (List.mem_filter.mp hdoc).1
  exact h.load_same howner

/-- Renewing a lease. -/
theorem renewOwned (h : Represents db tables) (args : RenewOwnedArgs) :
    Option.Rel SameDoc (db.renewOwned args).2 (tables.renewOwned args).2 ∧
      Represents (db.renewOwned args).1 (tables.renewOwned args).1 := by
  have hindexed := InMemoryReservationDatabase.indexed_renewOwned h.indexed args
  rw [InMemoryReservationDatabase.renewOwned] at hindexed ⊢
  rw [ReservationTables.renewOwned, h.owners]
  cases hdoc : db.docs.get? args.owner with
  | none => exact ⟨.none, h⟩
  | some doc =>
    have howner : doc.owner = args.owner := h.indexed.owner_eq hdoc
    have hcond : (args.now < doc.ownerRow.expiresAt && args.fence.all (doc.ownerRow.fence = ·) &&
        args.broker.all (doc.ownerRow.broker = ·) &&
        args.generation.all (doc.ownerRow.generation = ·)) =
        (args.fence.all (doc.fence = ·) && args.broker.all (doc.broker = ·) &&
          args.generation.all (doc.generation = ·) && args.now < doc.expiresAt) := by
      apply Bool.eq_iff_iff.mpr
      simp only [Bool.and_eq_true]
      constructor
      · rintro ⟨⟨⟨hlive, hfence⟩, hbroker⟩, hgeneration⟩
        exact ⟨⟨⟨hfence, hbroker⟩, hgeneration⟩, hlive⟩
      · rintro ⟨⟨⟨hfence, hbroker⟩, hgeneration⟩, hlive⟩
        exact ⟨⟨⟨hlive, hfence⟩, hbroker⟩, hgeneration⟩
    rw [hdoc] at hindexed
    rw [Option.map_some]
    dsimp only at hindexed ⊢
    rw [hcond]
    split
    · rename_i hmatch
      rw [if_pos hmatch] at hindexed
      have hafter : Represents { db with docs := db.docs.set doc.owner (doc.renewedBy args) }
          { tables with owners := tables.owners.set args.owner (doc.renewedBy args).ownerRow } := by
        refine ⟨hindexed, fun owner stored hstored => ?_, fun owner => ?_, fun id row => ?_⟩
        · obtain ⟨-, rfl⟩ | ⟨-, hstored⟩ := OrderedMap.get?_set_eq_some.mp hstored
          · exact (h.built args.owner doc hdoc).renewed args
          · exact h.built owner stored hstored
        · rw [OrderedMap.get?_set, OrderedMap.get?_set, howner]
          by_cases hsame : owner = args.owner
          · rw [if_pos hsame, if_pos hsame, Option.map_some]
          · rw [if_neg hsame, if_neg hsame, h.owners]
        · rw [h.keys]
          constructor
          · rintro ⟨held, key, hheld, hkey, rfl, hid⟩
            by_cases hsame : held.owner = doc.owner
            · rw [hsame, howner] at hheld
              obtain rfl : held = doc := Option.some.inj (hheld.symm.trans hdoc)
              refine ⟨held.renewedBy args, key, ?_, hkey, rfl, hid⟩
              exact OrderedMap.get?_set_eq_some.mpr (.inl ⟨rfl, rfl⟩)
            · refine ⟨held, key, ?_, hkey, rfl, hid⟩
              exact OrderedMap.get?_set_eq_some.mpr (.inr ⟨hsame, hheld⟩)
          · rintro ⟨held, key, hheld, hkey, rfl, hid⟩
            obtain ⟨-, rfl⟩ | ⟨-, hheld⟩ := OrderedMap.get?_set_eq_some.mp hheld
            · exact ⟨doc, key, howner.symm ▸ hdoc, hkey, rfl, hid⟩
            · exact ⟨held, key, hheld, hkey, rfl, hid⟩
      refine ⟨.some ?_, hafter⟩
      have hstored : ({ db with docs := db.docs.set doc.owner (doc.renewedBy args) } :
          InMemoryReservationDatabase).docs.get? args.owner = some (doc.renewedBy args) := by
        rw [OrderedMap.get?_set, if_pos howner.symm]
      exact hafter.load_same hstored
    · exact ⟨.none, h⟩

end Represents

/-- A call that both ports answer from the reservations. -/
inductive ReservationCall where
  | insert (doc : DurableReservationDoc)
  | deleteExpired (deployment : Deployment) (keys : Option (List InstrumentKey)) (notAfter : Int)
  | findLiveByKeys (deployment : Deployment) (keys : List InstrumentKey) (now : Int)
  | findByOwner (owner : Owner)
  | deleteOwned (owner : Owner) (fence : Option Nat)
  | renewOwned (args : RenewOwnedArgs)
  | deleteByOwnerPrefix (ownerPrefix : String)
  | countLive (deployment : Deployment) (now : Int)

/-- The same answer, up to the order of documents and of their keys. -/
inductive Agrees : PortReply → PortReply → Prop
  | insertion (result : InsertReservationResult) : Agrees (.insertion result) (.insertion result)
  | count (n : Nat) : Agrees (.count n) (.count n)
  | live {docs docs' : List DurableReservationDoc} (h : SameDocs docs docs') :
      Agrees (.live docs) (.live docs')
  | document {doc doc' : Option DurableReservationDoc} (h : Option.Rel SameDoc doc doc') :
      Agrees (.document doc) (.document doc')

/-- A call on the in-memory port. -/
def InMemoryReservationDatabase.answer (db : InMemoryReservationDatabase) :
    ReservationCall → InMemoryReservationDatabase × PortReply
  | .insert doc => (db.insert doc).map id .insertion
  | .deleteExpired deployment keys notAfter =>
    (db.deleteExpired deployment keys notAfter).map id .count
  | .findLiveByKeys deployment keys now => (db, .live (db.findLiveByKeys deployment keys now))
  | .findByOwner owner => (db, .document (db.findByOwner owner))
  | .deleteOwned owner fence => (db.deleteOwned owner fence).map id .count
  | .renewOwned args => (db.renewOwned args).map id .document
  | .deleteByOwnerPrefix ownerPrefix => (db.deleteByOwnerPrefix ownerPrefix).map id .count
  | .countLive deployment now => (db, .count (db.countLive deployment now))

/-- A call on the PostgreSQL port. -/
def ReservationTables.answer (tables : ReservationTables) :
    ReservationCall → ReservationTables × PortReply
  | .insert doc => (tables.insert doc).map id .insertion
  | .deleteExpired deployment keys notAfter =>
    (tables.deleteExpired deployment keys notAfter).map id .count
  | .findLiveByKeys deployment keys now =>
    (tables, .live (tables.findLiveByKeys deployment keys now))
  | .findByOwner owner => (tables, .document (tables.findByOwner owner))
  | .deleteOwned owner fence => (tables.deleteOwned owner fence).map id .count
  | .renewOwned args => (tables.renewOwned args).map id .document
  | .deleteByOwnerPrefix ownerPrefix => (tables.deleteByOwnerPrefix ownerPrefix).map id .count
  | .countLive deployment now => (tables, .count (tables.countLive deployment now))

/-- The documents inserted are those the durable tier builds. -/
def ReservationCall.FromTier (call : ReservationCall) : Prop :=
  ∀ doc, call = .insert doc → doc.Built

section Calls

variable {db : InMemoryReservationDatabase} {tables : ReservationTables}
variable {doc : DurableReservationDoc}

/-- One call on both ports. -/
theorem Represents.answer (call : ReservationCall) (hcall : call.FromTier)
    (h : Represents db tables) :
    Represents (db.answer call).1 (tables.answer call).1 ∧
      Agrees (db.answer call).2 (tables.answer call).2 := by
  cases call with
  | insert doc =>
    obtain ⟨hresult, hafter⟩ := h.insert (hcall doc rfl)
    refine ⟨hafter, ?_⟩
    show Agrees (.insertion (db.insert doc).2) (.insertion (tables.insert doc).2)
    rw [hresult]
    exact .insertion _
  | deleteExpired deployment keys notAfter =>
    obtain ⟨hcount, hafter⟩ := h.deleteExpired deployment keys notAfter
    refine ⟨hafter, ?_⟩
    show Agrees (.count (db.deleteExpired deployment keys notAfter).2) (.count _)
    rw [hcount]
    exact .count _
  | findLiveByKeys deployment keys now => exact ⟨h, .live (h.findLiveByKeys deployment keys now)⟩
  | findByOwner owner => exact ⟨h, .document (h.findByOwner owner)⟩
  | deleteOwned owner fence =>
    obtain ⟨hcount, hafter⟩ := h.deleteOwned owner fence
    refine ⟨hafter, ?_⟩
    show Agrees (.count (db.deleteOwned owner fence).2) (.count _)
    rw [hcount]
    exact .count _
  | renewOwned args =>
    obtain ⟨hdocument, hafter⟩ := h.renewOwned args
    exact ⟨hafter, .document hdocument⟩
  | deleteByOwnerPrefix ownerPrefix =>
    obtain ⟨hcount, hafter⟩ := h.deleteByOwnerPrefix ownerPrefix
    refine ⟨hafter, ?_⟩
    show Agrees (.count (db.deleteByOwnerPrefix ownerPrefix).2) (.count _)
    rw [hcount]
    exact .count _
  | countLive deployment now =>
    refine ⟨h, ?_⟩
    show Agrees (.count (db.countLive deployment now)) (.count _)
    rw [h.countLive]
    exact .count _

/-- A refused insert leaves the documents as they were. -/
theorem InMemoryReservationDatabase.insert_refused (h : (db.insert doc).2 ≠ .inserted) :
    (db.insert doc).1 = db := by
  obtain ⟨hdb, -⟩ | ⟨hdb, -⟩ | ⟨hdb, -⟩ := db.insert_cases doc
  · rw [hdb]
  · rw [hdb]
  · rw [hdb] at h
    exact absurd rfl h

/-- A refused insert leaves the tables as they were. -/
theorem ReservationTables.insert_refused (h : (tables.insert doc).2 ≠ .inserted) :
    (tables.insert doc).1 = tables := by
  rw [ReservationTables.insert] at h ⊢
  split
  · rfl
  · rename_i hnew
    rw [if_neg hnew] at h
    split
    · rfl
    · rename_i keys hkeys
      rw [hkeys] at h
      exact absurd rfl h

/-- The two ports cannot be told apart: every sequence of calls, from stores that hold the
same reservations, is answered alike and leaves stores that do, and an insert that does not
take place changes nothing. -/
theorem pgPort_refines_inMemoryPort {calls : List ReservationCall}
    (hcalls : ∀ call ∈ calls, call.FromTier) (h : Represents db tables) :
    Represents (serveAll InMemoryReservationDatabase.answer db calls).1
        (serveAll ReservationTables.answer tables calls).1 ∧
      List.Forall₂ Agrees (serveAll InMemoryReservationDatabase.answer db calls).2
        (serveAll ReservationTables.answer tables calls).2 ∧
      ∀ doc, ((db.insert doc).2 ≠ .inserted → (db.insert doc).1 = db) ∧
        ((tables.insert doc).2 ≠ .inserted → (tables.insert doc).1 = tables) := by
  obtain ⟨hafter, hreplies⟩ :=
    serveAll_refines (fun _ _ call hcall h => h.answer call hcall) hcalls h
  exact ⟨hafter, hreplies, fun doc => ⟨InMemoryReservationDatabase.insert_refused,
    ReservationTables.insert_refused⟩⟩

/-- Two workers ask for one contract of a broker; the second is refused. -/
theorem pgPort_refines_inMemoryPort_overlap :
    let ctx : ReservationContext := ⟨"production", "zerodha", 1, "live"⟩
    let document (owner : Owner) : DurableReservationDoc :=
      ({ owner := owner, keys := ["ZERODHA:NFO:1"], ttlMs := 60000, now := 0 } :
        AcquireArgs).toDoc ctx "production:" 0 1
    let calls : List ReservationCall :=
      [.insert (document "a"), .insert (document "b"), .deleteByOwnerPrefix "a"]
    (∀ call ∈ calls, call.FromTier) ∧
      List.Forall₂ Agrees (serveAll InMemoryReservationDatabase.answer {} calls).2
        (serveAll ReservationTables.answer {} calls).2 := by
  intro ctx document calls
  have hbuilt : ∀ owner, (document owner).Built := by
    intro owner
    have hbroker : ctx.broker = ActiveBroker.BrokerId.zerodha.text := rfl
    have hkeys : ∀ key ∈ ["ZERODHA:NFO:1"],
        (Coordinator.normalise ActiveBroker.BrokerId.zerodha.text ++ ":").toList <+:
          key.toList := by
      decide +kernel
    exact AcquireArgs.toDoc_built hbroker (by decide) hkeys
  have hcalls : ∀ call ∈ calls, call.FromTier := by
    intro call hcall doc hdoc
    simp only [calls, List.mem_cons, List.not_mem_nil, or_false] at hcall
    obtain rfl | rfl | rfl := hcall
    · cases hdoc
      exact hbuilt "a"
    · cases hdoc
      exact hbuilt "b"
    · cases hdoc
  exact ⟨hcalls, (pgPort_refines_inMemoryPort hcalls represents_empty).2.1⟩

end Calls

end Strikedge.Reservations
