import Strikedge.OrderStream.OrderRecord
import Mathlib.Data.List.Induction

/-!
# To whom an order update belongs

The projection finds the order of an observation by three maps: owner tags, broker order ids
and accounts. Registration, acknowledgement and every observation it accepts overwrite them
without a look at what they hold. A broker order id therefore stays with its order, an
observation that points to two orders is applied to neither, and an account keeps to the
orders first registered for it, exactly as long as no call presents an id that is bound to
another registered order and no order is advanced in the name of another account.
-/

namespace Strikedge.OrderStream

open Machine Orders

inductive ProjectionCall where
  | register (order : RegisteredOrder)
  | learnBrokerOrderId (clientOrderId : String) (brokerOrderId : Option String)
  | ingest (obs : NormalizedOrderObservation)
  deriving DecidableEq, Repr

namespace OrderUpdateProjection

variable (p : OrderUpdateProjection)

def perform : ProjectionCall → OrderUpdateProjection
  | .register order => p.register order
  | .learnBrokerOrderId clientOrderId brokerOrderId =>
    p.learnBrokerOrderId clientOrderId brokerOrderId
  | .ingest obs => (p.ingest obs).2

/-- The projection of a new process after the calls. -/
def after (calls : List ProjectionCall) : OrderUpdateProjection := calls.foldl perform {}

def hasOrder (clientOrderId : String) : Bool := p.ledgers.has clientOrderId

/-- The broker order id leads to this order, and the order is registered. -/
def Bound (brokerOrderId clientOrderId : String) : Prop :=
  p.byBrokerOrderId.get? brokerOrderId = some clientOrderId ∧ p.hasOrder clientOrderId = true

/-- What the ledger of an order has counted, nothing for one that is not registered. -/
def counted (clientOrderId : String) : Int :=
  (p.ledgers.get? clientOrderId).elim 0 (·.cumulativeQty)

end OrderUpdateProjection

/-- The account an order was first registered for. -/
def firstAccount (calls : List ProjectionCall) (clientOrderId : String) : Option String :=
  (calls.findSome? fun
    | .register order => if order.clientOrderId = clientOrderId then some order.account else none
    | _ => none).join

open OrderUpdateProjection

/-- A binding to a registered order is there for good. -/
def BindingsLast (calls : List ProjectionCall) : Prop :=
  ∀ earlier later, earlier ++ later <+: calls → ∀ brokerOrderId clientOrderId,
    (after earlier).Bound brokerOrderId clientOrderId →
      (after (earlier ++ later)).byBrokerOrderId.get? brokerOrderId = some clientOrderId

/-- An observation that points to two registered orders reaches no ledger. -/
def Unambiguous (calls : List ProjectionCall) : Prop :=
  ∀ earlier obs, earlier ++ [.ingest obs] <+: calls → ∀ x y,
    (after earlier).tagOwner obs = some x → (after earlier).brokerIdOwner obs = some y →
      (after earlier).hasOrder x = true → (after earlier).hasOrder y = true → x ≠ y →
        ((after earlier).ingest obs).1.apply = none ∧
          ((after earlier).ingest obs).2.ledgers = (after earlier).ledgers

/-- An observation that names an account advances no order first registered for another. -/
def AccountsApart (calls : List ProjectionCall) : Prop :=
  ∀ earlier obs, earlier ++ [.ingest obs] <+: calls → ∀ account first clientOrderId,
    present obs.account = some account → firstAccount earlier clientOrderId = some first →
      account ≠ first →
        ((after earlier).ingest obs).2.counted clientOrderId ≤ (after earlier).counted clientOrderId

/-- Attribution is stable and unambiguous over a sequence of calls. -/
structure Attributed (calls : List ProjectionCall) : Prop where
  bindings : BindingsLast calls
  unambiguous : Unambiguous calls
  accounts : AccountsApart calls

namespace OrderUpdateProjection

/-- The broker order id a call presents, and the order it presents it for. An observation
presents its id when it is accepted for an order. -/
def presents (p : OrderUpdateProjection) : ProjectionCall → Option (String × String)
  | .register order => (present order.brokerOrderId).map (·, order.clientOrderId)
  | .learnBrokerOrderId clientOrderId brokerOrderId =>
    (present brokerOrderId).map (·, clientOrderId)
  | .ingest obs =>
    (p.resolveOwner obs).bind fun clientOrderId =>
      if About p clientOrderId obs then (present obs.brokerOrderId).map (·, clientOrderId)
      else none

/-- The observation would raise the total of the order: it is accepted for it with a quantity
above the recorded one, under an identity not seen before. -/
structure Raises (p : OrderUpdateProjection) (clientOrderId : String)
    (obs : NormalizedOrderObservation) : Prop where
  about : About p clientOrderId obs
  counted : obs.Counted
  fresh : ∃ ledger, p.ledgers.get? clientOrderId = some ledger ∧
    ¬(obs.identity ≠ "" ∧ obs.identity ∈ ledger.seenEventIds) ∧ ledger.cumulativeQty < obs.total

end OrderUpdateProjection

/-- A call that presents no broker order id of another registered order, and advances no order
in the name of another account than the one it was first registered for. -/
structure Clear (earlier : List ProjectionCall) (call : ProjectionCall) : Prop where
  binding : ∀ brokerOrderId clientOrderId owner,
    (after earlier).presents call = some (brokerOrderId, clientOrderId) →
      (after earlier).Bound brokerOrderId owner → clientOrderId = owner
  account : ∀ obs account first clientOrderId, call = .ingest obs →
    present obs.account = some account → firstAccount earlier clientOrderId = some first →
      account ≠ first → ¬(after earlier).Raises clientOrderId obs

section Calls

variable {p : OrderUpdateProjection} {obs : NormalizedOrderObservation} {call : ProjectionCall}
variable {id x : String} {brokerOrderId : Option String} {earlier calls : List ProjectionCall}

theorem learn_get? : (p.learnBrokerOrderId id brokerOrderId).byBrokerOrderId.get? x =
    if present brokerOrderId = some x then some id else p.byBrokerOrderId.get? x := by
  rw [learnBrokerOrderId]
  split
  · rename_i hnone
    simp [hnone]
  · rename_i known hknown
    rw [OrderedMap.get?_set]
    simp [hknown, eq_comm]

theorem About.unique (h : About p id obs) (h' : About p x obs) : id = x :=
  Option.some.inj (h.2.1.symm.trans h'.2.1)

theorem presents_of_about (h : About p id obs) :
    p.presents (.ingest obs) = (present obs.brokerOrderId).map (·, id) := by
  rw [presents, h.2.1]
  exact if_pos h

/-- An observation accepted for no order leaves ledgers and broker order ids alone. -/
theorem ingest_of_not_about (h : ∀ id, ¬About p id obs) :
    (p.ingest obs).1.apply = none ∧ (p.ingest obs).2.ledgers = p.ledgers ∧
      (p.ingest obs).2.byBrokerOrderId = p.byBrokerOrderId := by
  obtain hlive : (p.noteLiveness obs).ledgers = p.ledgers ∧
      (p.noteLiveness obs).byBrokerOrderId = p.byBrokerOrderId := by
    rw [noteLiveness]
    split <;> exact ⟨rfl, rfl⟩
  have howner : (p.noteLiveness obs).resolveOwner obs = p.resolveOwner obs :=
    (owner_noteLiveness p "" obs obs).1
  rw [ingest]
  split
  · exact ⟨rfl, hlive⟩
  · rename_i hwell
    rw [howner]
    split
    · exact ⟨rfl, hlive⟩
    · rename_i owner hresolved
      split
      · exact ⟨rfl, hlive⟩
      · rename_i hdomestic
        rw [(owner_noteLiveness p owner obs obs).2.1] at hdomestic
        exact absurd ⟨by simpa using hwell, hresolved, by simpa using hdomestic⟩ (h owner)

/-- An accepted observation binds its broker order id, and reaches the ledger of its order
when it carries a quantity. -/
theorem ingest_of_about_spec (h : About p id obs) :
    (p.ingest obs).2.byBrokerOrderId =
        (p.learnBrokerOrderId id obs.brokerOrderId).byBrokerOrderId ∧
      (p.ingest obs).2.ledgers =
        match p.ledgers.get? id with
        | some ledger =>
          if obs.Counted then
            p.ledgers.set id (ledger.apply (OrderUpdateProjection.fillEvent obs)).2
          else p.ledgers
        | none => p.ledgers := by
  have hlive : ((p.noteLiveness obs).learnBrokerOrderId id obs.brokerOrderId).ledgers =
      p.ledgers := by
    rw [ledgers_learn, (owner_noteLiveness p id obs obs).2.2]
  have hlearnt : ((p.noteLiveness obs).learnBrokerOrderId id obs.brokerOrderId).byBrokerOrderId =
      (p.learnBrokerOrderId id obs.brokerOrderId).byBrokerOrderId := by
    rw [noteLiveness, learnBrokerOrderId, learnBrokerOrderId]
    split <;> split <;> rfl
  rw [ingest_of_about h, ingestOwned]
  dsimp only
  rw [hlive]
  cases hledger : p.ledgers.get? id with
  | none =>
      dsimp only
      exact ⟨hlearnt, rfl⟩
  | some ledger =>
      dsimp only
      by_cases hcounted : obs.Counted
      · rw [if_neg (not_absent hcounted), if_pos hcounted]
        exact ⟨hlearnt, rfl⟩
      · rw [if_pos (evidence_absent hcounted), if_neg hcounted]
        exact ⟨hlearnt, rfl⟩

/-- A call binds what it presents and leaves all other bindings. -/
theorem perform_get? : (p.perform call).byBrokerOrderId.get? x =
    match p.presents call with
    | some (brokerOrderId, clientOrderId) =>
      if brokerOrderId = x then some clientOrderId else p.byBrokerOrderId.get? x
    | none => p.byBrokerOrderId.get? x := by
  cases call with
  | register order =>
      rw [perform, register, learn_get?, presents]
      cases present order.brokerOrderId <;> simp
  | learnBrokerOrderId clientOrderId brokerOrderId =>
      rw [perform, learn_get?, presents]
      cases present brokerOrderId <;> simp
  | ingest obs =>
      by_cases h : ∃ owner, About p owner obs
      · obtain ⟨owner, howner⟩ := h
        rw [perform, (ingest_of_about_spec howner).1, learn_get?, presents_of_about howner]
        cases present obs.brokerOrderId <;> simp
      · have hnone : ∀ owner, ¬About p owner obs := fun owner howner => h ⟨owner, howner⟩
        rw [perform, (ingest_of_not_about hnone).2.2, presents]
        cases hresolved : p.resolveOwner obs with
        | none => rfl
        | some owner => rw [Option.bind_some, if_neg (hnone owner)]

/-- A registered order stays registered. -/
theorem hasOrder_perform (h : p.hasOrder id = true) : (p.perform call).hasOrder id = true := by
  cases call with
  | register order =>
      rw [perform, register, hasOrder, ledgers_learn]
      dsimp only
      split
      · exact h
      · rw [OrderedMap.has_set]
        exact Bool.or_eq_true_iff.mpr (.inr h)
  | learnBrokerOrderId clientOrderId brokerOrderId =>
      rw [perform, hasOrder, ledgers_learn]
      exact h
  | ingest obs =>
      rw [perform, hasOrder]
      by_cases habout : ∃ owner, About p owner obs
      · obtain ⟨owner, howner⟩ := habout
        rw [(ingest_of_about_spec howner).2]
        split
        · split
          · rw [OrderedMap.has_set]
            exact Bool.or_eq_true_iff.mpr (.inr h)
          · exact h
        · exact h
      · rw [(ingest_of_not_about fun owner howner => habout ⟨owner, howner⟩).2.1]
        exact h

/-- The ledger counts an observation about its order exactly when it is new and above it. -/
theorem apply_raises {ledger : CumulativeFillLedger} (h : About p id obs) :
    ledger.cumulativeQty < (ledger.apply (fillEvent obs)).2.cumulativeQty ↔
      ¬(obs.identity ≠ "" ∧ obs.identity ∈ ledger.seenEventIds) ∧
        ledger.cumulativeQty < obs.total := by
  obtain ⟨raw, hqty, htotal⟩ := validQty_of_about h
  by_cases hdup : (fillEvent obs).identity ≠ "" ∧ (fillEvent obs).identity ∈ ledger.seenEventIds
  · rw [(CumulativeFillLedger.apply_of_duplicate hqty hdup).2.2]
    exact iff_of_false (lt_irrefl _) fun hnew => hnew.1 hdup
  · rw [(CumulativeFillLedger.apply_fresh_spec hqty hdup).2.1, htotal]
    have hfresh : ¬(obs.identity ≠ "" ∧ obs.identity ∈ ledger.seenEventIds) := hdup
    rw [lt_max_iff, and_iff_right hfresh]
    exact or_iff_right (lt_irrefl _)

/-- The total of an order grows exactly when the observation raises it. -/
theorem counted_ingest : p.counted id < (p.ingest obs).2.counted id ↔ p.Raises id obs := by
  by_cases habout : ∃ owner, About p owner obs
  · obtain ⟨owner, howner⟩ := habout
    have hother (hsame : (p.ingest obs).2.ledgers = p.ledgers) (hnot : ¬p.Raises id obs) :
        p.counted id < (p.ingest obs).2.counted id ↔ p.Raises id obs := by
      rw [counted, counted, hsame]
      exact iff_of_false (lt_irrefl _) hnot
    have hledgers := (ingest_of_about_spec howner).2
    cases hledger : p.ledgers.get? owner with
    | none =>
        rw [hledger] at hledgers
        refine hother hledgers fun h => ?_
        obtain rfl := howner.unique h.about
        obtain ⟨ledger, hget, -⟩ := h.fresh
        rw [hledger] at hget
        cases hget
    | some ledger =>
        rw [hledger] at hledgers
        dsimp only at hledgers
        by_cases hcounted : obs.Counted
        · rw [if_pos hcounted] at hledgers
          rw [counted, counted, hledgers, OrderedMap.get?_set]
          by_cases hid : id = owner
          · subst hid
            rw [if_pos rfl, hledger]
            refine (apply_raises howner).trans ⟨fun hnew => ⟨howner, hcounted, ledger, hledger, hnew⟩,
              fun h => ?_⟩
            obtain ⟨known, hget, hnew⟩ := h.fresh
            obtain rfl := Option.some.inj (hledger.symm.trans hget)
            exact hnew
          · rw [if_neg hid]
            exact iff_of_false (lt_irrefl _) fun h => hid (howner.unique h.about).symm
        · rw [if_neg hcounted] at hledgers
          exact hother hledgers fun h => hcounted h.counted
  · rw [counted, counted, (ingest_of_not_about fun owner howner => habout ⟨owner, howner⟩).2.1]
    exact iff_of_false (lt_irrefl _) fun h => habout ⟨id, h.about⟩

theorem after_concat : after (earlier ++ [call]) = (after earlier).perform call := by
  rw [after, List.foldl_concat]
  rfl

/-- A binding outlasts the calls that present its id for nobody else. -/
theorem bound_perform {brokerOrderId : String} (h : p.Bound brokerOrderId id)
    (hclear : ∀ clientOrderId, p.presents call = some (brokerOrderId, clientOrderId) →
      clientOrderId = id) : (p.perform call).Bound brokerOrderId id := by
  refine ⟨?_, hasOrder_perform h.2⟩
  rw [perform_get?]
  split
  · rename_i other clientOrderId hpresents
    split
    · rename_i heq
      subst heq
      rw [hclear clientOrderId hpresents]
    · exact h.1
  · exact h.1

end Calls

/-- Attribution is stable and unambiguous over a sequence of calls exactly when every call of
it is clear. -/
theorem attributed_iff_clear (calls : List ProjectionCall) :
    Attributed calls ↔ ∀ earlier call, earlier ++ [call] <+: calls → Clear earlier call := by
  constructor
  · rintro ⟨hbindings, -, haccounts⟩ earlier call hprefix
    refine ⟨fun brokerOrderId clientOrderId owner hpresents hbound => ?_, ?_⟩
    · have hlast := hbindings earlier [call] hprefix brokerOrderId owner hbound
      rw [after_concat, perform_get?, hpresents] at hlast
      simpa using hlast
    · rintro obs account first clientOrderId rfl hnamed hfirst hne hraises
      have hle := haccounts earlier obs hprefix account first clientOrderId hnamed hfirst hne
      exact absurd (counted_ingest.mpr hraises) (not_lt.mpr hle)
  · intro hclear
    refine ⟨?_, ?_, ?_⟩
    · intro earlier later hprefix brokerOrderId clientOrderId hbound
      suffices hkept : (after (earlier ++ later)).Bound brokerOrderId clientOrderId from hkept.1
      -- The binding is carried over the later calls one by one.
      induction later using List.reverseRecOn with
      | nil => simpa using hbound
      | append_singleton later call ih =>
          rw [← List.append_assoc] at hprefix ⊢
          have hkept := ih ((List.prefix_append _ _).trans hprefix)
          rw [after_concat]
          refine bound_perform hkept fun other hpresents => ?_
          exact (hclear _ _ hprefix).binding brokerOrderId other clientOrderId hpresents hkept
    · intro earlier obs hprefix x y htag hbroker hx hy hne
      have howner : (after earlier).resolveOwner obs = some x := by
        rw [resolveOwner, htag]
        rfl
      have hnone : ∀ owner, ¬About (after earlier) owner obs := by
        intro owner habout
        obtain rfl : x = owner := Option.some.inj (howner.symm.trans habout.2.1)
        obtain ⟨hfound, -⟩ := Option.filter_eq_some_iff.mp hbroker
        obtain ⟨brokerOrderId, hpresent, hget⟩ := Option.bind_eq_some_iff.mp hfound
        refine hne ((hclear _ _ hprefix).binding brokerOrderId x y ?_ ⟨hget, hy⟩)
        rw [presents_of_about habout, hpresent]
        rfl
      obtain ⟨happly, hledgers, -⟩ := ingest_of_not_about hnone
      exact ⟨happly, hledgers⟩
    · intro earlier obs hprefix account first clientOrderId hnamed hfirst hne
      refine not_lt.mp fun hgrows => ?_
      exact (hclear _ _ hprefix).account obs account first clientOrderId rfl hnamed hfirst hne
        (counted_ingest.mp hgrows)

namespace Sample

def accountOrder (clientOrderId ownerTag : String) (account brokerOrderId : Option String) :
    RegisteredOrder where
  clientOrderId := clientOrderId
  ownerTag := ownerTag
  account := account
  requestedQty := .finite 75
  brokerOrderId := brokerOrderId

/-- A full fill reported over REST. -/
def restFill (ownerTag : String) (brokerOrderId account : Option String) :
    NormalizedOrderObservation where
  ownerTag := ownerTag
  brokerOrderId := brokerOrderId
  account := account
  cumulativeQty := .finite 75
  quantityPresent := none
  averagePrice := none
  rawStatus := some "COMPLETE"
  eventId := none
  source := .restPoll

/-- Two orders of one account, the first of them acknowledged. -/
def twoOrders : List ProjectionCall :=
  [.register (accountOrder "BOX-1" "T1" (some "A1") (some "101")),
    .register (accountOrder "BOX-2" "T2" (some "A1") none)]

end Sample

open Sample

/-- The acknowledgement of a second order takes a broker id away from the first. A fill with
the tag of the second and the broker id of the first is counted for the second. An order
registered again for another account counts that account's fill. -/
theorem attribution_is_overwritten :
    (¬∀ calls, BindingsLast calls) ∧ (¬∀ calls, Unambiguous calls) ∧
      ¬∀ calls, AccountsApart calls := by
  refine ⟨fun h => ?_, fun h => ?_, fun h => ?_⟩
  · have hbound := h (twoOrders ++ [.learnBrokerOrderId "BOX-2" (some "101")]) twoOrders
      [.learnBrokerOrderId "BOX-2" (some "101")] (List.prefix_refl _) "101" "BOX-1"
      ⟨by decide, by decide⟩
    revert hbound
    decide
  · have happly := h (twoOrders ++ [.ingest (restFill "T2" (some "101") (some "A1"))]) twoOrders _
      (List.prefix_refl _) "BOX-2" "BOX-1" (by decide) (by decide) (by decide) (by decide)
      (by decide)
    have hnone := happly.1
    revert hnone
    decide +kernel
  · have hcounted := h
      ([.register (accountOrder "BOX-1" "T1" (some "A1") none),
        .register (accountOrder "BOX-1" "T1" (some "A2") none)] ++ [.ingest (restFill "T1" none (some "A2"))])
      _ _ (List.prefix_refl _) "A2" "A1" "BOX-1" (by decide) (by decide) (by decide)
    revert hcounted
    decide +kernel

end Strikedge.OrderStream
