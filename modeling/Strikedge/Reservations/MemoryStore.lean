import Strikedge.Reservations.Types

/-!
# The reference authority

`InMemoryReservationDatabase` is the shared state of the authority: reservation
documents by owner, a unique index from deployment and key to the owning document,
and one fence counter for each deployment. Each port operation is one atomic step,
because the source yields before its critical section and never inside it.

`Indexed` is the representation invariant between the documents and the index. Every
operation keeps it, and under it a deployment's key belongs to one document at most.
-/

namespace Strikedge.Reservations

structure DurableReservationDoc where
  owner : Owner
  deployment : Deployment
  broker : String
  generation : Nat
  mode : String
  keys : List InstrumentKey
  sides : List (InstrumentKey × String)
  fence : Nat
  /-- Owner prefix of the process that wrote the document. -/
  ownerInstance : String
  createdAt : Int
  expiresAt : Int
  renewedAt : Int
  deriving DecidableEq, Repr

structure InMemoryReservationDatabase where
  docs : OrderedMap Owner DurableReservationDoc := ∅
  uniqueIndex : OrderedMap String Owner := ∅
  fences : OrderedMap Deployment Nat := ∅
  /-- When set, every operation throws this (scrubbed) message and does nothing else. -/
  failure : Option String := none

inductive InsertReservationResult where
  | inserted
  | keyConflict
  | ownerExists
  deriving DecidableEq, Repr

/-- Entry of the unique compound index over deployment and key. -/
def indexKey (deployment : Deployment) (key : InstrumentKey) : String :=
  deployment ++ "\x00" ++ key

/-- Index entries a document claims. -/
def DurableReservationDoc.entries (doc : DurableReservationDoc) : List String :=
  doc.keys.map (indexKey doc.deployment)

/-- Does the document cover one of the keys? -/
def DurableReservationDoc.overlaps (doc : DurableReservationDoc)
    (keys : List InstrumentKey) : Bool :=
  doc.keys.any (· ∈ keys)

structure RenewOwnedArgs where
  owner : Owner
  fence : Option Nat := none
  broker : Option String := none
  generation : Option Nat := none
  now : Int
  expiresAt : Int
  deriving DecidableEq, Repr

/-- The document as a renewal leaves it. -/
def DurableReservationDoc.renewedBy (doc : DurableReservationDoc) (args : RenewOwnedArgs) :
    DurableReservationDoc :=
  { doc with expiresAt := args.expiresAt, renewedAt := args.now }

namespace InMemoryReservationDatabase

def nextFence (db : InMemoryReservationDatabase) (deployment : Deployment) :
    InMemoryReservationDatabase × Nat :=
  let next := (db.fences.get? deployment).getD 0 + 1
  ({ db with fences := db.fences.set deployment next }, next)

/-- The document write with its unique-index check over all keys at once. -/
def insert (db : InMemoryReservationDatabase) (doc : DurableReservationDoc) :
    InMemoryReservationDatabase × InsertReservationResult :=
  if db.docs.has doc.owner then
    (db, .ownerExists)
  else if doc.entries.any db.uniqueIndex.has then
    (db, .keyConflict)
  else
    ({ db with
        uniqueIndex := doc.entries.foldl (fun index entry => index.set entry doc.owner)
          db.uniqueIndex
        docs := db.docs.set doc.owner doc }, .inserted)

/-- Would the document be written now? -/
def admits (db : InMemoryReservationDatabase) (doc : DurableReservationDoc) : Bool :=
  db.failure.isNone && !db.docs.has doc.owner && !doc.entries.any db.uniqueIndex.has

/-- Delete a document and the index entries that are still its own. -/
def removeDoc (db : InMemoryReservationDatabase) (doc : DurableReservationDoc) :
    InMemoryReservationDatabase :=
  { db with
    docs := db.docs.delete doc.owner
    uniqueIndex := doc.entries.foldl
      (fun index entry =>
        if index.get? entry = some doc.owner then index.delete entry else index)
      db.uniqueIndex }

/-- Delete the documents of a deployment that expired at or before `notAfter` and
overlap the keys, when keys are given. -/
def deleteExpired (db : InMemoryReservationDatabase) (deployment : Deployment)
    (keys : Option (List InstrumentKey)) (notAfter : Int) :
    InMemoryReservationDatabase × Nat :=
  let expired := db.docs.values.filter fun doc =>
    doc.deployment = deployment && doc.expiresAt ≤ notAfter &&
      keys.all doc.overlaps
  (expired.foldl removeDoc db, expired.length)

def findLiveByKeys (db : InMemoryReservationDatabase) (deployment : Deployment)
    (keys : List InstrumentKey) (now : Int) : List DurableReservationDoc :=
  db.docs.values.filter fun doc =>
    doc.deployment = deployment && now < doc.expiresAt && doc.overlaps keys

def findByOwner (db : InMemoryReservationDatabase) (owner : Owner) :
    Option DurableReservationDoc :=
  db.docs.get? owner

def deleteOwned (db : InMemoryReservationDatabase) (owner : Owner) (fence : Option Nat) :
    InMemoryReservationDatabase × Nat :=
  match db.docs.get? owner with
  | none => (db, 0)
  | some doc =>
      if fence.all (doc.fence = ·) then (db.removeDoc doc, 1) else (db, 0)

/-- Rewrite the expiry of a live lease. Owner, fence, broker and generation are part
of the match, so a superseded lease is not extended first and rejected afterwards. -/
def renewOwned (db : InMemoryReservationDatabase) (args : RenewOwnedArgs) :
    InMemoryReservationDatabase × Option DurableReservationDoc :=
  match db.docs.get? args.owner with
  | none => (db, none)
  | some doc =>
      if args.fence.all (doc.fence = ·) && args.broker.all (doc.broker = ·) &&
          args.generation.all (doc.generation = ·) && args.now < doc.expiresAt then
        let updated := doc.renewedBy args
        ({ db with docs := db.docs.set doc.owner updated }, some updated)
      else
        (db, none)

def deleteByOwnerPrefix (db : InMemoryReservationDatabase) (ownerPrefix : String) :
    InMemoryReservationDatabase × Nat :=
  let mine := db.docs.values.filter fun doc =>
    ownerPrefix.toList.isPrefixOf doc.owner.toList
  (mine.foldl removeDoc db, mine.length)

end InMemoryReservationDatabase

/-- The index holds exactly the entries of the stored documents, each under the one
owner whose document claims it. -/
structure Indexed (db : InMemoryReservationDatabase) : Prop where
  owner_eq : ∀ {owner doc}, db.docs.get? owner = some doc → doc.owner = owner
  index_iff : ∀ {entry owner}, db.uniqueIndex.get? entry = some owner ↔
    ∃ doc, db.docs.get? owner = some doc ∧ entry ∈ doc.entries

/-- The database before any reservation was made. -/
theorem indexed_empty : Indexed {} where
  owner_eq := by simp
  index_iff := by simp

/-- Two documents of one deployment that share a key are one document. -/
theorem Indexed.owner_unique {db : InMemoryReservationDatabase} (h : Indexed db)
    {o₁ o₂ : Owner} {doc₁ doc₂ : DurableReservationDoc} {key : InstrumentKey}
    (h₁ : db.docs.get? o₁ = some doc₁) (h₂ : db.docs.get? o₂ = some doc₂)
    (hdep : doc₁.deployment = doc₂.deployment) (hk₁ : key ∈ doc₁.keys)
    (hk₂ : key ∈ doc₂.keys) : o₁ = o₂ := by
  have e₁ : db.uniqueIndex.get? (indexKey doc₁.deployment key) = some o₁ :=
    h.index_iff.mpr ⟨doc₁, h₁, List.mem_map.mpr ⟨key, hk₁, rfl⟩⟩
  have e₂ : db.uniqueIndex.get? (indexKey doc₁.deployment key) = some o₂ :=
    h.index_iff.mpr ⟨doc₂, h₂, List.mem_map.mpr ⟨key, hk₂, by rw [hdep]⟩⟩
  exact Option.some.inj (e₁.symm.trans e₂)

namespace InMemoryReservationDatabase

variable {db : InMemoryReservationDatabase} {doc : DurableReservationDoc}

/-- Writing a document's entries into the index overwrites those and no others. -/
theorem get?_indexEntries {entries : List String} {index : OrderedMap String Owner}
    {owner : Owner} {entry : String} :
    (entries.foldl (fun index entry => index.set entry owner) index).get? entry =
      if entry ∈ entries then some owner else index.get? entry := by
  induction entries generalizing index with
  | nil => simp
  | cons e entries ih =>
      rw [List.foldl_cons, ih]
      by_cases hm : entry ∈ entries
      · simp [hm]
      · by_cases he : entry = e
        · simp [he]
        · simp [hm, he]

/-- Dropping a document's entries removes those that name its owner and no others. -/
theorem get?_dropEntries {entries : List String} {index : OrderedMap String Owner}
    {owner : Owner} {entry : String} :
    (entries.foldl (fun index entry =>
        if index.get? entry = some owner then index.delete entry else index) index).get? entry =
      if entry ∈ entries ∧ index.get? entry = some owner then none else index.get? entry := by
  induction entries generalizing index with
  | nil => simp
  | cons e entries ih =>
      rw [List.foldl_cons, ih]
      by_cases hown : index.get? e = some owner
      · by_cases he : entry = e
        · subst he
          simp [hown]
        · simp [hown, he]
      · by_cases he : entry = e
        · subst he
          simp [hown]
        · simp [hown, he]

@[simp] theorem docs_removeDoc : (db.removeDoc doc).docs = db.docs.delete doc.owner := rfl

@[simp] theorem fences_removeDoc : (db.removeDoc doc).fences = db.fences := rfl

/-- Removing a document that is stored, or that is already gone, keeps the index exact. -/
theorem indexed_removeDoc (h : Indexed db)
    (hdoc : db.docs.get? doc.owner = some doc ∨ db.docs.get? doc.owner = none) :
    Indexed (db.removeDoc doc) where
  owner_eq := by
    intro owner d hd
    rw [docs_removeDoc, OrderedMap.get?_delete] at hd
    split at hd
    · cases hd
    · exact h.owner_eq hd
  index_iff := by
    intro entry owner
    rw [docs_removeDoc, removeDoc, get?_dropEntries, OrderedMap.get?_delete]
    by_cases hself : owner = doc.owner
    · subst hself
      rw [if_pos rfl]
      -- No entry may name the removed owner any more.
      have gone : db.uniqueIndex.get? entry = some doc.owner → entry ∈ doc.entries := by
        intro he
        obtain ⟨d, hd, hmem⟩ := h.index_iff.mp he
        rcases hdoc with hs | hn
        · rw [hs] at hd
          exact Option.some.inj hd ▸ hmem
        · rw [hn] at hd
          cases hd
      constructor
      · intro he
        split at he
        · cases he
        · rename_i hne
          exact absurd ⟨gone he, he⟩ hne
      · rintro ⟨d, hd, -⟩
        cases hd
    · rw [if_neg hself, ← h.index_iff]
      constructor
      · intro he
        split at he
        · cases he
        · exact he
      · intro he
        rw [if_neg]
        · exact he
        · rintro ⟨-, he'⟩
          exact hself (Option.some.inj (he.symm.trans he'))

/-- Documents left after a deletion loop: those whose owner the loop did not visit. -/
theorem get?_removeAll {ds : List DurableReservationDoc} {owner : Owner} :
    (ds.foldl removeDoc db).docs.get? owner =
      if owner ∈ ds.map (·.owner) then none else db.docs.get? owner := by
  induction ds generalizing db with
  | nil => simp
  | cons d ds ih =>
      rw [List.foldl_cons, ih, docs_removeDoc, OrderedMap.get?_delete, List.map_cons]
      by_cases hm : owner ∈ ds.map (·.owner)
      · rw [if_pos hm, if_pos (List.mem_cons_of_mem _ hm)]
      · rw [if_neg hm]
        by_cases hd : owner = d.owner
        · rw [if_pos hd, if_pos (hd ▸ List.mem_cons_self)]
        · have hnot : owner ∉ d.owner :: ds.map (·.owner) := by
            rintro (_ | ⟨_, h⟩)
            · exact hd rfl
            · exact hm h
          rw [if_neg hd, if_neg hnot]

theorem indexed_removeAll {ds : List DurableReservationDoc} (h : Indexed db)
    (hds : ∀ d ∈ ds, db.docs.get? d.owner = some d ∨ db.docs.get? d.owner = none) :
    Indexed (ds.foldl removeDoc db) := by
  induction ds generalizing db with
  | nil => exact h
  | cons d ds ih =>
      refine ih (indexed_removeDoc h (hds d List.mem_cons_self)) fun x hx => ?_
      rw [docs_removeDoc, OrderedMap.get?_delete]
      split
      · exact .inr rfl
      · exact hds x (List.mem_cons_of_mem _ hx)

@[simp] theorem fences_removeAll {ds : List DurableReservationDoc} :
    (ds.foldl removeDoc db).fences = db.fences := by
  induction ds generalizing db with
  | nil => rfl
  | cons d ds ih => rw [List.foldl_cons, ih, fences_removeDoc]

/-- A stored document is found under its own owner. -/
theorem get?_of_mem_values (h : Indexed db) (hd : doc ∈ db.docs.values) :
    db.docs.get? doc.owner = some doc := by
  obtain ⟨owner, ho⟩ := OrderedMap.mem_values_iff.mp hd
  rw [h.owner_eq ho]
  exact ho

theorem insert_cases (doc : DurableReservationDoc) :
    (db.insert doc = (db, .ownerExists) ∧ db.docs.has doc.owner) ∨
    (db.insert doc = (db, .keyConflict) ∧ db.docs.has doc.owner = false ∧
      ∃ entry ∈ doc.entries, db.uniqueIndex.has entry) ∨
    (db.insert doc = ({ db with
        uniqueIndex := doc.entries.foldl (fun index entry => index.set entry doc.owner)
          db.uniqueIndex
        docs := db.docs.set doc.owner doc }, .inserted) ∧
      db.docs.get? doc.owner = none ∧
      ∀ entry ∈ doc.entries, db.uniqueIndex.get? entry = none) := by
  unfold insert
  by_cases howner : db.docs.has doc.owner
  · exact .inl ⟨if_pos howner, howner⟩
  · rw [if_neg howner]
    by_cases hkeys : doc.entries.any db.uniqueIndex.has
    · refine .inr (.inl ⟨if_pos hkeys, Bool.eq_false_iff.mpr howner, ?_⟩)
      simpa using hkeys
    · refine .inr (.inr ⟨if_neg hkeys, ?_, fun entry he => ?_⟩)
      · simpa [OrderedMap.has] using howner
      · simp only [List.any_eq_true, not_exists, not_and] at hkeys
        simpa [OrderedMap.has] using hkeys entry he

theorem indexed_insert (h : Indexed db) : Indexed (db.insert doc).1 := by
  obtain ⟨he, -⟩ | ⟨he, -⟩ | ⟨he, hnone, hfree⟩ := db.insert_cases doc
  · rwa [he]
  · rwa [he]
  · rw [he]
    constructor
    · intro owner d hd
      rw [OrderedMap.get?_set] at hd
      split at hd
      · rename_i ho
        exact Option.some.inj hd ▸ ho.symm
      · exact h.owner_eq hd
    · intro entry owner
      simp only [get?_indexEntries, OrderedMap.get?_set]
      by_cases hentry : entry ∈ doc.entries
      · rw [if_pos hentry]
        constructor
        · intro ho
          refine ⟨doc, ?_, hentry⟩
          rw [if_pos (Option.some.inj ho).symm]
        · rintro ⟨d, hd, hmem⟩
          by_cases ho : owner = doc.owner
          · rw [ho]
          · -- A second document with this entry would already be in the index.
            rw [if_neg ho] at hd
            have := h.index_iff.mpr ⟨d, hd, hmem⟩
            rw [hfree entry hentry] at this
            cases this
      · rw [if_neg hentry, h.index_iff]
        by_cases ho : owner = doc.owner
        · subst ho
          simp only [hnone, if_pos]
          constructor
          · rintro ⟨d, hd, -⟩
            cases hd
          · rintro ⟨d, hd, hmem⟩
            exact absurd (Option.some.inj hd ▸ hmem) hentry
        · simp only [if_neg ho]

theorem renewOwned_cases (args : RenewOwnedArgs) :
    db.renewOwned args = (db, none) ∨
    ∃ d, db.docs.get? args.owner = some d ∧
      db.renewOwned args =
        ({ db with docs := db.docs.set d.owner (d.renewedBy args) },
          some (d.renewedBy args)) := by
  unfold renewOwned
  cases hd : db.docs.get? args.owner with
  | none => exact .inl rfl
  | some d =>
      dsimp only
      split
      · exact .inr ⟨d, rfl, rfl⟩
      · exact .inl rfl

theorem indexed_renewOwned (h : Indexed db) (args : RenewOwnedArgs) :
    Indexed (db.renewOwned args).1 := by
  obtain he | ⟨d, hd, he⟩ := db.renewOwned_cases args
  · rwa [he]
  · rw [he]
    have hown : d.owner = args.owner := h.owner_eq hd
    constructor
    · intro owner x hx
      rw [OrderedMap.get?_set] at hx
      split at hx
      · rename_i ho
        exact Option.some.inj hx ▸ ho.symm
      · exact h.owner_eq hx
    · intro entry owner
      rw [h.index_iff]
      simp only [OrderedMap.get?_set]
      -- A renewal changes no key, so the claimed entries are the same.
      by_cases ho : owner = d.owner
      · rw [if_pos ho, ho, hown, hd]
        constructor
        · rintro ⟨x, hx, hmem⟩
          exact ⟨_, rfl, Option.some.inj hx ▸ hmem⟩
        · rintro ⟨x, hx, hmem⟩
          exact ⟨d, rfl, by rw [← Option.some.inj hx] at hmem; exact hmem⟩
      · rw [if_neg ho]

theorem indexed_removeValues (h : Indexed db) (p : DurableReservationDoc → Bool) :
    Indexed ((db.docs.values.filter p).foldl removeDoc db) :=
  indexed_removeAll h fun _ hd => .inl (get?_of_mem_values h (List.mem_of_mem_filter hd))

/-- A deletion loop over the stored documents a test accepts removes exactly those. -/
theorem get?_removeValues (h : Indexed db) (p : DurableReservationDoc → Bool) (owner : Owner) :
    ((db.docs.values.filter p).foldl removeDoc db).docs.get? owner =
      (db.docs.get? owner).filter (!p ·) := by
  rw [get?_removeAll]
  cases hd : db.docs.get? owner with
  | none => simp
  | some d =>
      have hmem : owner ∈ (db.docs.values.filter p).map (·.owner) ↔ p d = true := by
        rw [List.mem_map]
        constructor
        · rintro ⟨x, hx, rfl⟩
          obtain ⟨hv, hp⟩ := List.mem_filter.mp hx
          rw [get?_of_mem_values h hv] at hd
          exact Option.some.inj hd ▸ hp
        · intro hp
          exact ⟨d, List.mem_filter.mpr ⟨OrderedMap.mem_values_iff.mpr ⟨owner, hd⟩, hp⟩,
            h.owner_eq hd⟩
      by_cases hp : p d
      · rw [if_pos (hmem.mpr hp), Option.filter_some, hp]
        rfl
      · rw [if_neg (mt hmem.mp hp), Option.filter_some, Bool.eq_false_iff.mpr hp]
        rfl

theorem deleteOwned_cases (owner : Owner) (fence : Option Nat) :
    db.deleteOwned owner fence = (db, 0) ∨
    ∃ d, db.docs.get? owner = some d ∧ db.deleteOwned owner fence = (db.removeDoc d, 1) := by
  unfold deleteOwned
  cases hd : db.docs.get? owner with
  | none => exact .inl rfl
  | some d =>
      dsimp only
      split
      · exact .inr ⟨d, rfl, rfl⟩
      · exact .inl rfl

theorem indexed_deleteOwned (h : Indexed db) (owner : Owner) (fence : Option Nat) :
    Indexed (db.deleteOwned owner fence).1 := by
  obtain he | ⟨d, hd, he⟩ := db.deleteOwned_cases owner fence
  · rwa [he]
  · rw [he]
    exact indexed_removeDoc h (.inl (by rw [h.owner_eq hd, hd]))

end InMemoryReservationDatabase

/-- A request to the authority. -/
inductive PortCall where
  | nextFence (deployment : Deployment)
  | insert (doc : DurableReservationDoc)
  | deleteExpired (deployment : Deployment) (keys : Option (List InstrumentKey)) (notAfter : Int)
  | findLiveByKeys (deployment : Deployment) (keys : List InstrumentKey) (now : Int)
  | findByOwner (owner : Owner)
  | deleteOwned (owner : Owner) (fence : Option Nat)
  | renewOwned (args : RenewOwnedArgs)
  | deleteByOwnerPrefix (ownerPrefix : String)
  deriving DecidableEq, Repr

inductive PortReply where
  | fence (value : Nat)
  | insertion (result : InsertReservationResult)
  | count (deleted : Nat)
  | live (docs : List DurableReservationDoc)
  | document (doc : Option DurableReservationDoc)
  | thrown (message : String)
  deriving DecidableEq, Repr

namespace InMemoryReservationDatabase

/-- One operation of an authority that answers. -/
def perform (db : InMemoryReservationDatabase) :
    PortCall → InMemoryReservationDatabase × PortReply
  | .nextFence deployment => (db.nextFence deployment).map id .fence
  | .insert doc => (db.insert doc).map id .insertion
  | .deleteExpired deployment keys notAfter =>
      (db.deleteExpired deployment keys notAfter).map id .count
  | .findLiveByKeys deployment keys now => (db, .live (db.findLiveByKeys deployment keys now))
  | .findByOwner owner => (db, .document (db.findByOwner owner))
  | .deleteOwned owner fence => (db.deleteOwned owner fence).map id .count
  | .renewOwned args => (db.renewOwned args).map id .document
  | .deleteByOwnerPrefix ownerPrefix => (db.deleteByOwnerPrefix ownerPrefix).map id .count

/-- The authority guards every operation, so an outage throws before any effect. -/
def serve (db : InMemoryReservationDatabase) (call : PortCall) :
    InMemoryReservationDatabase × PortReply :=
  match db.failure with
  | some message => (db, .thrown message)
  | none => db.perform call

variable {db : InMemoryReservationDatabase} {doc : DurableReservationDoc}

theorem serve_cases (db : InMemoryReservationDatabase) (call : PortCall) :
    (∃ message, db.serve call = (db, .thrown message)) ∨ db.serve call = db.perform call := by
  unfold serve
  cases db.failure with
  | some message => exact .inl ⟨message, rfl⟩
  | none => exact .inr rfl

/-- Every operation of the authority keeps the index exact. -/
theorem indexed_serve (h : Indexed db) (call : PortCall) : Indexed (db.serve call).1 := by
  obtain ⟨message, he⟩ | he := db.serve_cases call
  · rwa [he]
  · rw [he]
    cases call with
    | nextFence deployment => exact ⟨h.owner_eq, h.index_iff⟩
    | insert doc => exact indexed_insert h
    | deleteExpired deployment keys notAfter => exact indexed_removeValues h _
    | findLiveByKeys deployment keys now => exact h
    | findByOwner owner => exact h
    | deleteOwned owner fence => exact indexed_deleteOwned h owner fence
    | renewOwned args => exact indexed_renewOwned h args
    | deleteByOwnerPrefix ownerPrefix => exact indexed_removeValues h _

/-- Only an allocation moves a counter. -/
theorem fences_serve {call : PortCall} (h : ∀ deployment, call ≠ .nextFence deployment) :
    (db.serve call).1.fences = db.fences := by
  obtain ⟨message, he⟩ | he := db.serve_cases call
  · rw [he]
  · rw [he]
    cases call with
    | nextFence deployment => exact absurd rfl (h deployment)
    | insert doc =>
        change (db.insert doc).1.fences = db.fences
        obtain ⟨hi, -⟩ | ⟨hi, -⟩ | ⟨hi, -⟩ := db.insert_cases doc <;> rw [hi]
    | deleteExpired deployment keys notAfter => exact fences_removeAll
    | findLiveByKeys deployment keys now => rfl
    | findByOwner owner => rfl
    | deleteOwned owner fence =>
        change (db.deleteOwned owner fence).1.fences = db.fences
        obtain hi | ⟨d, -, hi⟩ := db.deleteOwned_cases owner fence
        · rw [hi]
        · rw [hi, fences_removeDoc]
    | renewOwned args =>
        change (db.renewOwned args).1.fences = db.fences
        obtain hi | ⟨d, -, hi⟩ := db.renewOwned_cases args <;> rw [hi]
    | deleteByOwnerPrefix ownerPrefix => exact fences_removeAll

theorem serve_nextFence {deployment : Deployment} {value : Nat}
    (h : (db.serve (.nextFence deployment)).2 = .fence value) :
    value = (db.fences.get? deployment).getD 0 + 1 ∧
      (db.serve (.nextFence deployment)).1 =
        { db with fences := db.fences.set deployment value } := by
  obtain ⟨message, he⟩ | he := db.serve_cases (.nextFence deployment)
  · rw [he] at h
    cases h
  · rw [he] at h ⊢
    cases h
    exact ⟨rfl, rfl⟩

/-- Counters never run backwards. -/
theorem counter_serve_mono (call : PortCall) (deployment : Deployment) :
    (db.fences.get? deployment).getD 0 ≤
      ((db.serve call).1.fences.get? deployment).getD 0 := by
  by_cases hcall : ∃ d, call = .nextFence d
  · obtain ⟨d, rfl⟩ := hcall
    obtain ⟨message, he⟩ | he := db.serve_cases (.nextFence d)
    · exact Nat.le_of_eq (by rw [he])
    · rw [he]
      change _ ≤ ((db.nextFence d).1.fences.get? deployment).getD 0
      rw [nextFence, OrderedMap.get?_set]
      split
      · rename_i hd
        rw [hd]
        exact Nat.le_succ _
      · exact Nat.le_refl _
  · exact Nat.le_of_eq (by rw [fences_serve fun d hd => hcall ⟨d, hd⟩])

/-- A listing finds stored documents only. -/
theorem serve_live_mem {deployment : Deployment} {keys : List InstrumentKey} {now : Int}
    {live : List DurableReservationDoc}
    (h : (db.serve (.findLiveByKeys deployment keys now)).2 = .live live)
    (hdoc : doc ∈ live) : doc ∈ db.docs.values := by
  obtain ⟨message, he⟩ | he := db.serve_cases (.findLiveByKeys deployment keys now)
  · rw [he] at h
    cases h
  · rw [he] at h
    cases h
    exact List.mem_of_mem_filter hdoc

theorem serve_insert_inserted_iff (db : InMemoryReservationDatabase)
    (doc : DurableReservationDoc) :
    (db.serve (.insert doc)).2 = .insertion .inserted ↔ db.admits doc := by
  unfold serve admits
  cases db.failure with
  | some message => simp
  | none =>
      simp only [perform, insert, Option.isNone_none, Bool.true_and]
      by_cases howner : db.docs.has doc.owner
      · simp [howner]
      · by_cases hkeys : doc.entries.any db.uniqueIndex.has
        · simp only [howner, hkeys]
          simp
        · simp only [howner, hkeys]
          simp

/-- All that a call can do to the document of one owner. -/
inductive Touches (owner : Owner) : PortCall → PortReply →
    Option DurableReservationDoc → Option DurableReservationDoc → Prop where
  | kept {call : PortCall} {reply : PortReply} {d : Option DurableReservationDoc} :
      Touches owner call reply d d
  | inserted {doc : DurableReservationDoc} : doc.owner = owner →
      Touches owner (.insert doc) (.insertion .inserted) none (some doc)
  | renewed {args : RenewOwnedArgs} {doc : DurableReservationDoc} : args.owner = owner →
      Touches owner (.renewOwned args) (.document (some (doc.renewedBy args))) (some doc)
        (some (doc.renewedBy args))
  | released {fence : Option Nat} {doc : DurableReservationDoc} :
      Touches owner (.deleteOwned owner fence) (.count 1) (some doc) none
  | expired {deployment : Deployment} {keys : Option (List InstrumentKey)} {notAfter : Int}
      {doc : DurableReservationDoc} {deleted : Nat} :
      doc.deployment = deployment → doc.expiresAt ≤ notAfter →
      Touches owner (.deleteExpired deployment keys notAfter) (.count deleted) (some doc) none
  | cleared {ownerPrefix : String} {doc : DurableReservationDoc} {deleted : Nat} :
      ownerPrefix.toList.isPrefixOf owner.toList →
      Touches owner (.deleteByOwnerPrefix ownerPrefix) (.count deleted) (some doc) none

/-- The inversion lemma of the authority: what one call does to one document. -/
theorem serve_touches (h : Indexed db) (call : PortCall) (owner : Owner) :
    Touches owner call (db.serve call).2 (db.docs.get? owner)
      ((db.serve call).1.docs.get? owner) := by
  obtain ⟨message, he⟩ | he := db.serve_cases call
  · rw [he]
    exact .kept
  rw [he]
  cases call with
  | nextFence deployment => exact .kept
  | insert doc =>
      change Touches owner _ (.insertion (db.insert doc).2) _ ((db.insert doc).1.docs.get? owner)
      obtain ⟨hi, -⟩ | ⟨hi, -⟩ | ⟨hi, hnone, -⟩ := db.insert_cases doc
      · rw [hi]
        exact .kept
      · rw [hi]
        exact .kept
      · rw [hi, OrderedMap.get?_set]
        by_cases ho : owner = doc.owner
        · rw [if_pos ho, ho, hnone]
          exact .inserted rfl
        · rw [if_neg ho]
          exact .kept
  | deleteExpired deployment keys notAfter =>
      change Touches owner _ (.count (db.deleteExpired deployment keys notAfter).2) _
        ((db.deleteExpired deployment keys notAfter).1.docs.get? owner)
      rw [deleteExpired, get?_removeValues h]
      cases hd : db.docs.get? owner with
      | none => exact .kept
      | some d =>
          rw [Option.filter_some]
          split
          · exact .kept
          · rename_i hp
            simp only [Bool.not_eq_true', Bool.not_eq_false, Bool.and_eq_true,
              decide_eq_true_eq] at hp
            exact .expired hp.1.1 hp.1.2
  | findLiveByKeys deployment keys now => exact .kept
  | findByOwner o => exact .kept
  | deleteOwned o fence =>
      change Touches owner _ (.count (db.deleteOwned o fence).2) _ ((db.deleteOwned o fence).1.docs.get? owner)
      obtain hi | ⟨d, hd, hi⟩ := db.deleteOwned_cases o fence
      · rw [hi]
        exact .kept
      · rw [hi, docs_removeDoc, OrderedMap.get?_delete, h.owner_eq hd]
        by_cases ho : owner = o
        · rw [if_pos ho, ho, hd]
          exact .released
        · rw [if_neg ho]
          exact .kept
  | renewOwned args =>
      change Touches owner _ (.document (db.renewOwned args).2) _
        ((db.renewOwned args).1.docs.get? owner)
      obtain hi | ⟨d, hd, hi⟩ := db.renewOwned_cases args
      · rw [hi]
        exact .kept
      · rw [hi, OrderedMap.get?_set, h.owner_eq hd]
        by_cases ho : owner = args.owner
        · rw [if_pos ho, ho, hd]
          exact .renewed rfl
        · rw [if_neg ho]
          exact .kept
  | deleteByOwnerPrefix ownerPrefix =>
      change Touches owner _ (.count (db.deleteByOwnerPrefix ownerPrefix).2) _
        ((db.deleteByOwnerPrefix ownerPrefix).1.docs.get? owner)
      rw [deleteByOwnerPrefix, get?_removeValues h]
      cases hd : db.docs.get? owner with
      | none => exact .kept
      | some d =>
          rw [Option.filter_some]
          split
          · exact .kept
          · rename_i hp
            simp only [Bool.not_eq_true', Bool.not_eq_false] at hp
            exact .cleared (h.owner_eq hd ▸ hp)

end InMemoryReservationDatabase

end Strikedge.Reservations
