import Strikedge.Machine.Run
import Strikedge.OrderStream.OrderRecord

/-!
# Deliveries of one order

The observations of one order arrive over the stream and from REST, in any order and as
often as their senders like, and the sink may be missing or fail on any of them. Three
things decide whether a delivery is forwarded: its identity, its total, and the label and
price noted last. All three are recorded whether or not the sink took the update, so
nothing is lost as long as no news meets a failing sink.
-/

namespace Strikedge.OrderStream

open Machine Orders

/-- An observation on its way to the consumer: over the stream, or from a REST source. -/
structure Delivery where
  obs : NormalizedOrderObservation
  rest : Option FillEventSource
  now : ℚ
  sink : Sink
  deriving DecidableEq, Repr

def Delivery.ingest (d : Delivery) (c : OrderStreamConsumer) : Ingested :=
  match d.rest with
  | none => c.ingestStreamObservation d.obs d.now d.sink
  | some source => c.ingestRestObservation d.obs source d.now d.sink

/-- The consumer, everything it was delivered and everything the adapter took. -/
structure Conversation where
  consumer : OrderStreamConsumer
  heard : List NormalizedOrderObservation := []
  told : List ExternalOrderUpdate := []

def Conversation.step (s : Conversation) (d : Delivery) : Option Conversation :=
  some {
    consumer := (d.ingest s.consumer).consumer
    heard := s.heard ++ [d.obs]
    told := s.told ++ (d.ingest s.consumer).handed.toList }

def ExternalOrderUpdate.label (u : ExternalOrderUpdate) : Option String :=
  normaliseStatusLabel u.rawStatus

def ExternalOrderUpdate.price (u : ExternalOrderUpdate) : Option ℚ :=
  u.averagePrice.bind Number.finite?

/-- The whole quantity an update carries, when it carries one. -/
def ExternalOrderUpdate.total (u : ExternalOrderUpdate) : Option Int :=
  u.cumulativeQty.map fun q => (q.finite?.map (⌊·⌋)).getD 0

section Deliver

variable {c : OrderStreamConsumer} {p : OrderUpdateProjection} {id : String} {r : OrderRecord}
variable {obs obs' : NormalizedOrderObservation} {now : ℚ} {sink : Sink} {result : IngestResult}
variable {d : Delivery}

/-- Learning a broker id for an order takes no observation away from it. -/
theorem About.learn (h : About p id obs) (brokerOrderId : Option String) :
    About (p.learnBrokerOrderId id brokerOrderId) id obs := by
  obtain ⟨hquantity, howner, hforeign⟩ := h
  rw [OrderUpdateProjection.learnBrokerOrderId]
  split
  · exact ⟨hquantity, howner, hforeign⟩
  case h_2 learnt _ =>
    refine ⟨hquantity, ?_, hforeign⟩
    rw [OrderUpdateProjection.resolveOwner] at howner ⊢
    change (p.tagOwner obs <|> _) = some id
    cases htag : p.tagOwner obs with
    | some owner =>
        rw [htag] at howner
        exact howner
    | none =>
        rw [htag] at howner
        obtain ⟨hbound, hnamed⟩ := Option.filter_eq_some_iff.mp howner
        obtain ⟨known, hknown, hget⟩ := Option.bind_eq_some_iff.mp hbound
        refine Option.filter_eq_some_iff.mpr ⟨?_, hnamed⟩
        rw [hknown]
        show (p.byBrokerOrderId.set learnt id).get? known = some id
        rw [OrderedMap.get?_set]
        split
        · rfl
        · exact hget

theorem About.ingest (h : About p id obs) (h' : About p id obs') :
    About (p.ingest obs').2 id obs := by
  have hlive : About (p.noteLiveness obs') id obs := by
    obtain ⟨howner, hforeign, -⟩ := owner_noteLiveness p id obs obs'
    exact ⟨h.1, howner.trans h.2.1, hforeign.trans h.2.2⟩
  have hlearnt := hlive.learn obs'.brokerOrderId
  rw [ingest_of_about h', OrderUpdateProjection.ingestOwned]
  dsimp only
  split
  · exact hlearnt
  · split <;> exact hlearnt

theorem proj_schedule : (c.scheduleReconciliation id).proj = c.proj := by
  rw [OrderStreamConsumer.scheduleReconciliation]
  split <;> rfl

theorem proj_settle (merged : Option BoxOrderIntentState) :
    (c.settleIfTerminal id merged result).proj = c.proj := by
  rw [OrderStreamConsumer.settleIfTerminal]
  split
  · rfl
  · split <;> rfl

theorem proj_ingestAbsent : (c.ingestAbsent id obs result now sink).consumer.proj = c.proj := by
  show (OrderStreamConsumer.scheduleReconciliation _ id).proj = _
  rw [proj_schedule, proj_settle]
  rfl

theorem proj_ingestConfirmed :
    (c.ingestConfirmed id obs result now sink).consumer.proj = c.proj := by
  have hschedule (b : Prop) [Decidable b] (c : OrderStreamConsumer) :
      (if b then c.scheduleReconciliation id else c).proj = c.proj := by
    split
    · exact proj_schedule
    · rfl
  rw [OrderStreamConsumer.ingestConfirmed]
  dsimp only
  split
  · exact proj_schedule
  · split
    · show (OrderStreamConsumer.settleIfTerminal _ id _ _).proj = _
      rw [proj_settle]
      exact (hschedule _ _).trans (hschedule _ _)
    · show (OrderStreamConsumer.settleIfTerminal _ id _ _).proj = _
      rw [proj_settle]
      exact (hschedule _ _).trans (hschedule _ _)

theorem proj_ingest : (c.ingest obs now sink).consumer.proj =
    (c.proj.ingest { obs with observedAtWall := obs.observedAtWall <|> some now }).2 := by
  rw [OrderStreamConsumer.ingest]
  dsimp only
  split
  · split
    · exact proj_ingestAbsent
    · exact proj_ingestConfirmed
  · rfl

/-- What one delivery does, by whichever way it comes. -/
theorem deliver_spec (h : About c.proj id d.obs) (hrecord : c.record id = some r) :
    (d.ingest c).consumer.record id = some (r.hear d.obs).2 ∧
      (d.ingest c).handed =
        (if (r.hear d.obs).1 then
          handedTo d.sink (externalUpdate id d.obs (!decide d.obs.Counted) d.now)
        else none) ∧
      ∀ obs, About c.proj id obs → About (d.ingest c).consumer.proj id obs := by
  have hsource (source : FillEventSource) :
      (c.ingest { d.obs with source := source } d.now d.sink).consumer.record id =
          some (r.hear d.obs).2 ∧
        (c.ingest { d.obs with source := source } d.now d.sink).handed =
          (if (r.hear d.obs).1 then
            handedTo d.sink (externalUpdate id d.obs (!decide d.obs.Counted) d.now)
          else none) ∧
        ∀ obs, About c.proj id obs →
          About (c.ingest { d.obs with source := source } d.now d.sink).consumer.proj id obs := by
    have hfrom : About c.proj id { d.obs with source := source } := h
    obtain ⟨hafter, hhanded⟩ := record_ingest d.now d.sink hfrom hrecord
    refine ⟨hafter, hhanded, fun obs hobs => ?_⟩
    rw [proj_ingest]
    apply hobs.ingest
    exact h
  rw [Delivery.ingest]
  split
  · exact hsource .orderUpdate
  case h_2 source _ =>
    obtain ⟨hafter, hhanded, habout⟩ := hsource source
    rw [OrderStreamConsumer.ingestRestObservation]
    dsimp only
    split
    · exact ⟨hafter, hhanded, habout⟩
    · split
      · exact ⟨hafter, hhanded, habout⟩
      · exact ⟨hafter, hhanded, habout⟩

end Deliver

section Told

variable {α : Type} {f : ExternalOrderUpdate → Option α} {x y older : Option α}
variable {told told' : List ExternalOrderUpdate}

/-- Some update carried the reading, if there is one. -/
def Tells (told : List ExternalOrderUpdate) (f : ExternalOrderUpdate → Option α)
    (x : Option α) : Prop :=
  ∀ a, x = some a → ∃ u ∈ told, f u = some a

theorem Tells.mono (h : Tells told f x) (hsub : told ⊆ told') : Tells told' f x := by
  intro a hx
  obtain ⟨u, hu, hf⟩ := h a hx
  exact ⟨u, hsub hu, hf⟩

theorem tells_none : Tells told f none := nofun

theorem tells_of_mem {u : ExternalOrderUpdate} (hu : u ∈ told) : Tells told f (f u) :=
  fun _ hf => ⟨u, hu, hf⟩

/-- Noting a reading: it is told, or it is the one noted before. -/
theorem Tells.note (h : Tells told f older) (hsub : told ⊆ told')
    (hnews : x.isSome ∧ x ≠ older → Tells told' f x) :
    Tells told' f x ∧ Tells told' f (x <|> older) := by
  cases x with
  | none => exact ⟨tells_none, h.mono hsub⟩
  | some a =>
      have hx : Tells told' f (some a) := by
        by_cases hsame : some a = older
        · rw [hsame]
          exact h.mono hsub
        · exact hnews ⟨rfl, hsame⟩
      exact ⟨hx, hx⟩

/-- A reading that is absent or the one noted stays so, unless another is noted. -/
theorem stays_noted (h : y = none ∨ y = older) (hnews : x.isSome ∧ x ≠ older → y = none) :
    y = none ∨ y = (x <|> older) := by
  cases x with
  | none => exact h
  | some a =>
      by_cases hsame : some a = older
      · rw [← hsame] at h
        exact h
      · exact .inl (hnews ⟨rfl, hsame⟩)

theorem noted_of_not_news (h : ¬ (x.isSome ∧ x ≠ older)) : (x <|> older) = older := by
  cases x with
  | none => rfl
  | some a =>
      by_contra hne
      exact h ⟨rfl, hne⟩

end Told

/-- The totals that were reported. -/
def countedTotals (heard : List NormalizedOrderObservation) : List Int :=
  (heard.filter fun obs => obs.Counted).map (·.total)

/-- What it is for one order's observations to have arrived: the highest total was handed
over together with its average price, every label and every price was handed over, and
delivering any of it again changes nothing and tells the adapter nothing new. -/
structure Delivered (id : String) (s : Conversation) : Prop where
  highest : 0 < highWater 0 (countedTotals s.heard) →
    ∃ obs ∈ s.heard, obs.Counted ∧ obs.total = highWater 0 (countedTotals s.heard) ∧
      ∃ u ∈ s.told, u.cumulativeQty = some obs.cumulativeQty ∧ u.averagePrice = obs.averagePrice
  within : ∀ u ∈ s.told, ∀ q, u.total = some q → q ≤ highWater 0 (countedTotals s.heard)
  labels : ∀ obs ∈ s.heard, Tells s.told ExternalOrderUpdate.label obs.label
  prices : ∀ obs ∈ s.heard, Tells s.told ExternalOrderUpdate.price obs.price
  again : ∀ d : Delivery, d.obs ∈ s.heard →
    (d.ingest s.consumer).consumer.record id = s.consumer.record id ∧
      ∀ u, (d.ingest s.consumer).handed = some u → u.total = none ∧
        Tells s.told ExternalOrderUpdate.label u.label ∧
        Tells s.told ExternalOrderUpdate.price u.price

/-- Something in the observation is news to the record. -/
def OrderRecord.News (r : OrderRecord) (obs : NormalizedOrderObservation) : Prop :=
  ¬ (obs.Counted ∧ r.Repeats obs) ∧ (r.Differs obs ∨ obs.Counted ∧ r.total < obs.total)

instance (r : OrderRecord) (obs : NormalizedOrderObservation) : Decidable (r.News obs) :=
  inferInstanceAs (Decidable (_ ∧ _))

def Sink.Fails : Sink → Prop
  | .absent | .throws => True
  | .works _ => False

instance : (sink : Sink) → Decidable sink.Fails
  | .absent | .throws => .isTrue trivial
  | .works _ => .isFalse id

/-- The ledger can recognise a redelivery: there is a quantity and an identity. -/
def NormalizedOrderObservation.Marked (obs : NormalizedOrderObservation) : Prop :=
  obs.Counted ∧ obs.identity ≠ ""

instance (obs : NormalizedOrderObservation) : Decidable obs.Marked :=
  inferInstanceAs (Decidable (_ ∧ _))

/-- An identity used before came with the same content. -/
def Consistent (heard : List NormalizedOrderObservation) (obs : NormalizedOrderObservation) :
    Prop :=
  ∀ o ∈ heard, o.Counted → obs.Marked → o.identity = obs.identity →
    o.total = obs.total ∧ o.label = obs.label ∧ o.price = obs.price

instance (heard : List NormalizedOrderObservation) (obs : NormalizedOrderObservation) :
    Decidable (Consistent heard obs) :=
  inferInstanceAs (Decidable (∀ o ∈ heard, _ → _ → _ → _))

/-- A reading other than the one noted comes only while no observation that cannot be
recognised carried one. -/
def Replaceable {α : Type} (heard : List NormalizedOrderObservation)
    (f : NormalizedOrderObservation → Option α) (x noted : Option α) : Prop :=
  x.isSome ∧ x ≠ noted → ∀ o ∈ heard, ¬ o.Marked → f o = none

instance {α : Type} [DecidableEq α] (heard : List NormalizedOrderObservation)
    (f : NormalizedOrderObservation → Option α) (x noted : Option α) :
    Decidable (Replaceable heard f x noted) :=
  inferInstanceAs (Decidable (_ ∧ _ → ∀ o ∈ heard, _ → _))

/-- What a delivery has to meet: no news meets a failing sink, an identity used again comes
with the same content, and unless its identity has been recorded it replaces no label or
price that an observation without quantity or identity came with. -/
structure Safe (r : OrderRecord) (heard : List NormalizedOrderObservation) (d : Delivery) :
    Prop where
  works : d.sink.Fails → ¬ r.News d.obs
  identity : Consistent heard d.obs
  label : ¬ (d.obs.Counted ∧ r.Repeats d.obs) →
    Replaceable heard (·.label) d.obs.label r.label
  price : ¬ (d.obs.Counted ∧ r.Repeats d.obs) →
    Replaceable heard (·.price) d.obs.price r.price

instance (r : OrderRecord) (heard : List NormalizedOrderObservation) (d : Delivery) :
    Decidable (Safe r heard d) :=
  decidable_of_iff
    ((d.sink.Fails → ¬ r.News d.obs) ∧ Consistent heard d.obs ∧
      (¬ (d.obs.Counted ∧ r.Repeats d.obs) →
        Replaceable heard (·.label) d.obs.label r.label) ∧
      (¬ (d.obs.Counted ∧ r.Repeats d.obs) →
        Replaceable heard (·.price) d.obs.price r.price))
    ⟨fun h => ⟨h.1, h.2.1, h.2.2.1, h.2.2.2⟩, fun h => ⟨h.1, h.2, h.3, h.4⟩⟩

/-- The invariant of a conversation about one order. -/
structure Kept (r : OrderRecord) (heard : List NormalizedOrderObservation)
    (told : List ExternalOrderUpdate) : Prop where
  total : r.total = highWater 0 (countedTotals heard)
  reached : 0 < r.total → ∃ obs ∈ heard, obs.Counted ∧ obs.total = r.total ∧
    ∃ u ∈ told, u.cumulativeQty = some obs.cumulativeQty ∧ u.averagePrice = obs.averagePrice
  within : ∀ u ∈ told, ∀ q, u.total = some q → q ≤ r.total
  seen : ∀ x ∈ r.seen, ∃ obs ∈ heard, obs.Counted ∧ obs.identity = x
  recorded : ∀ obs ∈ heard, obs.Marked → obs.identity ∈ r.seen
  labels : ∀ obs ∈ heard, Tells told ExternalOrderUpdate.label obs.label
  prices : ∀ obs ∈ heard, Tells told ExternalOrderUpdate.price obs.price
  notedLabel : Tells told ExternalOrderUpdate.label r.label
  notedPrice : Tells told ExternalOrderUpdate.price r.price
  unmarkedLabel : ∀ obs ∈ heard, ¬ obs.Marked → obs.label = none ∨ obs.label = r.label
  unmarkedPrice : ∀ obs ∈ heard, ¬ obs.Marked → obs.price = none ∨ obs.price = r.price

section Kept

variable {id : String} {r : OrderRecord} {heard : List NormalizedOrderObservation}
variable {obs : NormalizedOrderObservation} {told told' : List ExternalOrderUpdate} {d : Delivery}

theorem countedTotals_concat :
    countedTotals (heard ++ [obs]) =
      if obs.Counted then countedTotals heard ++ [obs.total] else countedTotals heard := by
  rw [countedTotals, List.filter_append, List.map_append]
  by_cases hcounted : obs.Counted
  · rw [if_pos hcounted, List.filter_cons_of_pos (by simpa using hcounted)]
    rfl
  · rw [if_neg hcounted, List.filter_cons_of_neg (by simpa using hcounted), List.filter_nil,
      List.map_nil, List.append_nil, countedTotals]

theorem highWater_heard :
    highWater 0 (countedTotals (heard ++ [obs])) =
      if obs.Counted then max (highWater 0 (countedTotals heard)) obs.total
      else highWater 0 (countedTotals heard) := by
  rw [countedTotals_concat]
  split
  · exact highWater_concat
  · rfl

theorem mem_heard {o : NormalizedOrderObservation} (h : o ∈ heard ++ [obs]) :
    o ∈ heard ∨ o = obs := by
  rwa [List.mem_append, List.mem_singleton] at h

/-- A recognised redelivery is old news on every track. -/
theorem Kept.repeats (h : Kept r heard told) (hsafe : Safe r heard d)
    (hcounted : d.obs.Counted) (hrepeats : r.Repeats d.obs) :
    Kept r (heard ++ [d.obs]) told := by
  obtain ⟨o, ho, hocounted, hid⟩ := h.seen _ hrepeats.2
  obtain ⟨htotal, hlabel, hprice⟩ := hsafe.identity o ho hocounted ⟨hcounted, hrepeats.1⟩ hid
  have hmarked : d.obs.Marked := ⟨hcounted, hrepeats.1⟩
  have hle : d.obs.total ≤ highWater 0 (countedTotals heard) := by
    rw [← htotal]
    apply le_highWater
    exact List.mem_map_of_mem (List.mem_filter.mpr ⟨ho, by simpa using hocounted⟩)
  refine ⟨?_, ?_, h.within, ?_, ?_, ?_, ?_, h.notedLabel, h.notedPrice, ?_, ?_⟩
  · rw [highWater_heard, if_pos hcounted, max_eq_left hle, h.total]
  · intro hpos
    obtain ⟨o', ho', hreached⟩ := h.reached hpos
    exact ⟨o', List.mem_append_left _ ho', hreached⟩
  · intro x hx
    obtain ⟨o', ho', hseen⟩ := h.seen x hx
    exact ⟨o', List.mem_append_left _ ho', hseen⟩
  · intro o' ho' hmarked'
    obtain ho' | rfl := mem_heard ho'
    · exact h.recorded o' ho' hmarked'
    · exact hrepeats.2
  · intro o' ho'
    obtain ho' | rfl := mem_heard ho'
    · exact h.labels o' ho'
    · rw [← hlabel]
      exact h.labels o ho
  · intro o' ho'
    obtain ho' | rfl := mem_heard ho'
    · exact h.prices o' ho'
    · rw [← hprice]
      exact h.prices o ho
  · intro o' ho' hunmarked
    obtain ho' | rfl := mem_heard ho'
    · exact h.unmarkedLabel o' ho' hunmarked
    · exact absurd hmarked hunmarked
  · intro o' ho' hunmarked
    obtain ho' | rfl := mem_heard ho'
    · exact h.unmarkedPrice o' ho' hunmarked
    · exact absurd hmarked hunmarked

/-- Any other observation is noted, and told where it says something new. -/
theorem Kept.noted (h : Kept r heard told) (hsafe : Safe r heard d) {r' : OrderRecord}
    (hfresh : ¬ (d.obs.Counted ∧ r.Repeats d.obs)) (hsub : told ⊆ told')
    (hlabel : r'.label = (d.obs.label <|> r.label))
    (hprice : r'.price = (d.obs.price <|> r.price))
    (hnews : r.Differs d.obs → Tells told' ExternalOrderUpdate.label d.obs.label ∧
      Tells told' ExternalOrderUpdate.price d.obs.price)
    (htotal : r'.total = highWater 0 (countedTotals (heard ++ [d.obs])))
    (hreached : 0 < r'.total → ∃ obs ∈ heard ++ [d.obs], obs.Counted ∧ obs.total = r'.total ∧
      ∃ u ∈ told', u.cumulativeQty = some obs.cumulativeQty ∧ u.averagePrice = obs.averagePrice)
    (hwithin : ∀ u ∈ told', ∀ q, u.total = some q → q ≤ r'.total)
    (hseen : ∀ x ∈ r'.seen, ∃ obs ∈ heard ++ [d.obs], obs.Counted ∧ obs.identity = x)
    (hrecorded : ∀ obs ∈ heard ++ [d.obs], obs.Marked → obs.identity ∈ r'.seen) :
    Kept r' (heard ++ [d.obs]) told' := by
  have hlabels := h.notedLabel.note hsub fun hdiffers => (hnews (.inl hdiffers)).1
  have hprices := h.notedPrice.note hsub fun hdiffers => (hnews (.inr hdiffers)).2
  refine ⟨htotal, hreached, hwithin, hseen, hrecorded, ?_, ?_, hlabel ▸ hlabels.2,
    hprice ▸ hprices.2, ?_, ?_⟩
  · intro o ho
    obtain ho | rfl := mem_heard ho
    · exact (h.labels o ho).mono hsub
    · exact hlabels.1
  · intro o ho
    obtain ho | rfl := mem_heard ho
    · exact (h.prices o ho).mono hsub
    · exact hprices.1
  · intro o ho hunmarked
    rw [hlabel]
    obtain ho | rfl := mem_heard ho
    · exact stays_noted (h.unmarkedLabel o ho hunmarked)
        fun hdiffers => hsafe.label hfresh hdiffers o ho hunmarked
    · cases hown : d.obs.label with
      | none => exact .inl rfl
      | some l => exact .inr rfl
  · intro o ho hunmarked
    rw [hprice]
    obtain ho | rfl := mem_heard ho
    · exact stays_noted (h.unmarkedPrice o ho hunmarked)
        fun hdiffers => hsafe.price hfresh hdiffers o ho hunmarked
    · cases hown : d.obs.price with
      | none => exact .inl rfl
      | some p => exact .inr rfl

theorem mem_handed (told : List ExternalOrderUpdate) {sink : Sink} (u : ExternalOrderUpdate)
    (hworks : ¬ sink.Fails) :
    u ∈ told ++ (handedTo sink u).toList := by
  cases sink with
  | works merged => exact List.mem_append_right told List.mem_cons_self
  | _ => exact absurd trivial hworks

theorem mem_told {sink : Sink} {u u' : ExternalOrderUpdate}
    (h : u' ∈ told ++ (handedTo sink u).toList) : u' ∈ told ∨ u' = u := by
  obtain h | h := List.mem_append.mp h
  · exact .inl h
  · cases sink with
    | works merged => exact .inr (List.mem_singleton.mp h)
    | _ => cases h

theorem count_seen {x : String} (hx : x ∈ (r.count obs).seen) : x ∈ r.seen ∨ x = obs.identity := by
  have hx : x ∈ if obs.identity = "" then r.seen else r.seen ++ [obs.identity] := hx
  split at hx
  · exact .inl hx
  · rwa [List.mem_append, List.mem_singleton] at hx

theorem seen_count {x : String} (hx : x ∈ r.seen ∨ x ≠ "" ∧ x = obs.identity) :
    x ∈ (r.count obs).seen := by
  show x ∈ if obs.identity = "" then r.seen else r.seen ++ [obs.identity]
  obtain hx | ⟨hne, rfl⟩ := hx
  · split
    · exact hx
    · exact List.mem_append_left _ hx
  · rw [if_neg hne]
    exact List.mem_append_right _ List.mem_cons_self

/-- An observation without a quantity is always forwarded, and moves no total. -/
theorem Kept.uncounted (h : Kept r heard told) (hsafe : Safe r heard d)
    (hcounted : ¬ d.obs.Counted) :
    Kept (r.note d.obs) (heard ++ [d.obs])
      (told ++ (handedTo d.sink (externalUpdate id d.obs true d.now)).toList) := by
  have hfresh : ¬ (d.obs.Counted ∧ r.Repeats d.obs) := fun hrepeats => hcounted hrepeats.1
  apply h.noted hsafe hfresh (List.subset_append_left _ _) rfl rfl
  · intro hdiffers
    have hworks : ¬ d.sink.Fails := fun hfails => hsafe.works hfails ⟨hfresh, .inl hdiffers⟩
    have hmem := mem_handed told (externalUpdate id d.obs true d.now) hworks
    exact ⟨tells_of_mem hmem, tells_of_mem hmem⟩
  · rw [highWater_heard, if_neg hcounted]
    exact h.total
  · intro hpos
    obtain ⟨o, ho, hocounted, htotal, u, hu, hhanded⟩ := h.reached hpos
    exact ⟨o, List.mem_append_left _ ho, hocounted, htotal, u, List.mem_append_left _ hu, hhanded⟩
  · intro u hu q hq
    obtain hu | rfl := mem_told hu
    · exact h.within u hu q hq
    · cases hq
  · intro x hx
    obtain ⟨o, ho, hseen⟩ := h.seen x hx
    exact ⟨o, List.mem_append_left _ ho, hseen⟩
  · intro o ho hmarked
    obtain ho | rfl := mem_heard ho
    · exact h.recorded o ho hmarked
    · exact absurd hmarked.1 hcounted

/-- A fresh observation with a quantity, and what the adapter has been told afterwards. -/
theorem Kept.counted (id : String) (h : Kept r heard told) (hsafe : Safe r heard d)
    (hcounted : d.obs.Counted) (hrepeats : ¬ r.Repeats d.obs) (hsub : told ⊆ told')
    (htold : ∀ u ∈ told', u ∈ told ∨ u = externalUpdate id d.obs false d.now)
    (hnews : r.total < d.obs.total ∨ r.Differs d.obs →
      externalUpdate id d.obs false d.now ∈ told') :
    Kept ((r.count d.obs).note d.obs) (heard ++ [d.obs]) told' := by
  have hfresh : ¬ (d.obs.Counted ∧ r.Repeats d.obs) := fun h => hrepeats h.2
  apply h.noted hsafe hfresh hsub rfl rfl
  · intro hdiffers
    have hmem := hnews (.inr hdiffers)
    exact ⟨tells_of_mem hmem, tells_of_mem hmem⟩
  · show max r.total d.obs.total = _
    rw [highWater_heard, if_pos hcounted, h.total]
  · intro hpos
    have hpos : 0 < max r.total d.obs.total := hpos
    show ∃ o ∈ _, _ ∧ _ = max r.total d.obs.total ∧ _
    by_cases hadvances : r.total < d.obs.total
    · rw [max_eq_right hadvances.le]
      exact ⟨d.obs, List.mem_append_right _ List.mem_cons_self, hcounted, rfl, _,
        hnews (.inl hadvances), rfl, rfl⟩
    · rw [max_eq_left (not_lt.mp hadvances)] at hpos ⊢
      obtain ⟨o, ho, hocounted, htotal, u, hu, hhanded⟩ := h.reached hpos
      exact ⟨o, List.mem_append_left _ ho, hocounted, htotal, u, hsub hu, hhanded⟩
  · intro u hu q hq
    show q ≤ max r.total d.obs.total
    obtain hu | rfl := htold u hu
    · exact (h.within u hu q hq).trans (le_max_left _ _)
    · rw [← Option.some.inj hq]
      exact le_max_right _ _
  · intro x hx
    obtain hx | rfl := count_seen hx
    · obtain ⟨o, ho, hseen⟩ := h.seen x hx
      exact ⟨o, List.mem_append_left _ ho, hseen⟩
    · exact ⟨d.obs, List.mem_append_right _ List.mem_cons_self, hcounted, rfl⟩
  · intro o ho hmarked
    obtain ho | rfl := mem_heard ho
    · exact seen_count (.inl (h.recorded o ho hmarked))
    · exact seen_count (.inr ⟨hmarked.2, rfl⟩)

/-- The step lemma: one case for each way an observation can be heard. -/
theorem Kept.step (h : Kept r heard told) (hsafe : Safe r heard d) :
    Kept (r.hear d.obs).2 (heard ++ [d.obs])
      (told ++ (if (r.hear d.obs).1 then
        handedTo d.sink (externalUpdate id d.obs (!decide d.obs.Counted) d.now)
        else none).toList) := by
  rw [OrderRecord.hear]
  by_cases hcounted : d.obs.Counted
  · rw [if_neg (not_not.mpr hcounted), decide_eq_true hcounted]
    by_cases hrepeats : r.Repeats d.obs
    · rw [if_pos hrepeats]
      show Kept r _ (told ++ [])
      rw [List.append_nil]
      exact h.repeats hsafe hcounted hrepeats
    · rw [if_neg hrepeats]
      by_cases hnews : r.total < d.obs.total ∨ r.Differs d.obs
      · have hworks : ¬ d.sink.Fails := by
          intro hfails
          apply hsafe.works hfails
          exact ⟨fun h => hrepeats h.2, hnews.symm.imp_right fun hadvances => ⟨hcounted, hadvances⟩⟩
        rw [if_pos hnews]
        exact h.counted id hsafe hcounted hrepeats (List.subset_append_left _ _)
          (fun u hu => mem_told hu) fun _ => mem_handed _ _ hworks
      · rw [if_neg hnews]
        show Kept _ _ (told ++ [])
        rw [List.append_nil]
        have hsame : (r.count d.obs).note d.obs = r.count d.obs := by
          have hdiffers := not_or.mp (not_or.mp hnews).2
          rw [OrderRecord.note]
          show { r.count d.obs with
            label := d.obs.label <|> r.label, price := d.obs.price <|> r.price } = r.count d.obs
          rw [noted_of_not_news hdiffers.1, noted_of_not_news hdiffers.2]
          rfl
        rw [← hsame]
        exact h.counted id hsafe hcounted hrepeats (List.Subset.refl _)
          (fun u hu => .inl hu) fun hnews' => absurd hnews' hnews
  · rw [if_pos hcounted, decide_eq_false hcounted]
    exact h.uncounted hsafe hcounted

/-- Delivering an observation again. -/
theorem Kept.again (h : Kept r heard told) (hheard : d.obs ∈ heard) :
    (r.hear d.obs).2 = r ∧ ((r.hear d.obs).1 = true → ¬ d.obs.Counted) := by
  have hnoted (hunmarked : ¬ d.obs.Marked) : r.note d.obs = r ∧ ¬ r.Differs d.obs := by
    have hlabel := h.unmarkedLabel d.obs hheard hunmarked
    have hprice := h.unmarkedPrice d.obs hheard hunmarked
    have hnews : ¬ r.Differs d.obs := by
      rintro (⟨hsome, hne⟩ | ⟨hsome, hne⟩)
      · obtain hnone | hsame := hlabel
        · rw [hnone] at hsome
          cases hsome
        · exact hne hsame
      · obtain hnone | hsame := hprice
        · rw [hnone] at hsome
          cases hsome
        · exact hne hsame
    refine ⟨?_, hnews⟩
    rw [OrderRecord.note, noted_of_not_news (not_or.mp hnews).1,
      noted_of_not_news (not_or.mp hnews).2]
  rw [OrderRecord.hear]
  by_cases hcounted : d.obs.Counted
  · rw [if_neg (not_not.mpr hcounted)]
    by_cases hrepeats : r.Repeats d.obs
    · rw [if_pos hrepeats]
      exact ⟨rfl, by simp⟩
    · have hunmarked : ¬ d.obs.Marked :=
        fun hmarked => hrepeats ⟨hmarked.2, h.recorded d.obs hheard hmarked⟩
      have hidentity : d.obs.identity = "" := by
        by_contra hne
        exact hunmarked ⟨hcounted, hne⟩
      have hreached : d.obs.total ≤ r.total := by
        rw [h.total]
        apply le_highWater
        exact List.mem_map_of_mem (List.mem_filter.mpr ⟨hheard, by simpa using hcounted⟩)
      have hquiet : ¬ (r.total < d.obs.total ∨ r.Differs d.obs) :=
        not_or.mpr ⟨not_lt.mpr hreached, (hnoted hunmarked).2⟩
      rw [if_neg hrepeats, if_neg hquiet]
      refine ⟨?_, by simp⟩
      show r.count d.obs = r
      rw [OrderRecord.count, if_pos hidentity, max_eq_left hreached]
  · rw [if_pos hcounted]
    exact ⟨(hnoted fun hmarked => hcounted hmarked.1).1, fun _ => hcounted⟩

end Kept

section Runs

variable {id : String} {c : OrderStreamConsumer} {s t : Conversation} {d : Delivery}

/-- The state of a conversation about the order `id`, whose observations are `all`. -/
structure Conversation.Sound (id : String) (all : List Delivery) (s : Conversation) : Prop where
  kept : ∃ r, s.consumer.record id = some r ∧ Kept r s.heard s.told
  about : ∀ d ∈ all, About s.consumer.proj id d.obs
  among : ∀ obs ∈ s.heard, ∃ d ∈ all, d.obs = obs

/-- The condition on a step: the delivery is safe for what the consumer holds. -/
def Conversation.Minds (id : String) (s : Conversation) (d : Delivery) : Prop :=
  ∀ r ∈ s.consumer.record id, Safe r s.heard d

instance (id : String) (s : Conversation) (d : Delivery) : Decidable (s.Minds id d) :=
  inferInstanceAs (Decidable (∀ r ∈ s.consumer.record id, _))

theorem Conversation.Sound.step {all : List Delivery} (h : s.Sound id all) (hd : d ∈ all)
    (hminds : s.Minds id d) (hstep : s.step d = some t) : t.Sound id all := by
  obtain ⟨⟨r, hrecord, hkept⟩, habout, hamong⟩ := h
  obtain rfl := Option.some.inj hstep
  obtain ⟨hafter, hhanded, howned⟩ := deliver_spec (habout d hd) hrecord
  refine ⟨⟨_, hafter, ?_⟩, fun d' hd' => howned _ (habout d' hd'), ?_⟩
  · show Kept _ (s.heard ++ [d.obs]) (s.told ++ (d.ingest s.consumer).handed.toList)
    rw [hhanded]
    exact hkept.step (hminds r hrecord)
  · intro obs hobs
    obtain hobs | rfl := mem_heard hobs
    · exact hamong obs hobs
    · exact ⟨d, hd, rfl⟩

theorem Conversation.Sound.delivered {all : List Delivery} (h : s.Sound id all) :
    Delivered id s := by
  obtain ⟨⟨r, hrecord, hkept⟩, habout, hamong⟩ := h
  refine ⟨?_, ?_, hkept.labels, hkept.prices, ?_⟩
  · rw [← hkept.total]
    exact hkept.reached
  · rw [← hkept.total]
    exact hkept.within
  · intro d hheard
    obtain ⟨d', hd', hobs⟩ := hamong d.obs hheard
    obtain ⟨hafter, hhanded, -⟩ := deliver_spec (hobs ▸ habout d' hd') hrecord
    obtain ⟨hsame, huncounted⟩ := hkept.again hheard
    rw [hafter, hhanded, hsame, hrecord]
    refine ⟨rfl, fun u hu => ?_⟩
    split at hu
    case isFalse => cases hu
    case isTrue hforwarded =>
      have hcounted := huncounted hforwarded
      have hupdate : u = externalUpdate id d.obs (!decide d.obs.Counted) d.now := by
        cases hsink : d.sink with
        | works merged =>
            rw [hsink] at hu
            exact (Option.some.inj hu).symm
        | _ =>
            rw [hsink] at hu
            cases hu
      rw [hupdate, decide_eq_false hcounted]
      exact ⟨rfl, hkept.labels d.obs hheard, hkept.prices d.obs hheard⟩

/-- A new order's record. -/
def OrderRecord.blank : OrderRecord := ⟨0, [], none, none⟩

theorem kept_blank : Kept OrderRecord.blank [] [] where
  total := rfl
  reached hpos := absurd hpos (lt_irrefl 0)
  within _ hu := absurd hu List.not_mem_nil
  seen _ hx := absurd hx List.not_mem_nil
  recorded _ hobs := absurd hobs List.not_mem_nil
  labels _ hobs := absurd hobs List.not_mem_nil
  prices _ hobs := absurd hobs List.not_mem_nil
  notedLabel := tells_none
  notedPrice := tells_none
  unmarkedLabel _ hobs := absurd hobs List.not_mem_nil
  unmarkedPrice _ hobs := absurd hobs List.not_mem_nil

/-- In every run of deliveries of one new order, in any order and with any repetition, each
of which meets the condition, every state reached has everything delivered. -/
theorem deliveries_reach_the_adapter (id : String) (c : OrderStreamConsumer)
    (hnew : c.record id = some .blank) (deliveries : List Delivery)
    (habout : ∀ d ∈ deliveries, About c.proj id d.obs)
    (hminds : Heeds Conversation.step (Conversation.Minds id) { consumer := c } deliveries) :
    Throughout Conversation.step (Delivered id) { consumer := c } deliveries := by
  have hsound : Conversation.Sound id deliveries { consumer := c } :=
    ⟨⟨_, hnew, kept_blank⟩, habout, fun obs hobs => absurd hobs List.not_mem_nil⟩
  have hrun := Throughout.of_heeds_among (L := (· ∈ deliveries))
    (fun s d t hd h hminds hstep => h.step hd hminds hstep) hsound (fun _ hd => hd) hminds
  exact hrun.mono fun s h => h.delivered

/-- A consumer with one order, just registered. -/
def registered : OrderStreamConsumer :=
  (OrderStreamConsumer.new { streamEnabled := true }).registerIntent
    { clientOrderId := "BOX-1", ownerTag := "BXT1", requestedQty := .finite 50 } none

/-- A postback of the order, identified the way the parsers do. -/
def postback (stamp : String) (filled : Nat) (averagePrice : Option Number) (status : String) :
    NormalizedOrderObservation where
  ownerTag := "BXT1"
  brokerOrderId := some "O-1"
  account := some "AB1234"
  cumulativeQty := .finite filled
  quantityPresent := some true
  averagePrice := averagePrice
  rawStatus := some status
  eventId := some s!"O-1:{stamp}:{filled}:{status}"
  source := .orderUpdate

/-- The order opens, fills in part and completes, each more than once, out of order and now
and then to a failing sink; a last postback carries no quantity. -/
def repeatedPostbacks : List Delivery :=
  let opened := postback "09:15:01" 0 none "OPEN"
  let partly := postback "09:15:02" 20 (some (.finite 101)) "OPEN"
  let complete := postback "09:15:03" 50 (some (.finite 102)) "COMPLETE"
  [⟨opened, none, 1, .works (some .open)⟩, ⟨opened, none, 2, .throws⟩,
    ⟨complete, none, 3, .works (some .complete)⟩, ⟨partly, none, 4, .works (some .complete)⟩,
    ⟨complete, some .restPoll, 5, .absent⟩, ⟨partly, none, 6, .throws⟩,
    ⟨{ postback "09:15:04" 0 none "OPEN" with quantityPresent := some false }, none, 7,
      .works (some .complete)⟩]

theorem repeated_postbacks_reach_the_adapter :
    Throughout Conversation.step (Delivered "BOX-1") { consumer := registered }
      repeatedPostbacks :=
  deliveries_reach_the_adapter "BOX-1" registered (by decide +kernel) repeatedPostbacks
    (by decide +kernel) (by decide +kernel)

/-- The completion reaches a sink that throws, and is then delivered again. -/
def restoredSink : List Delivery :=
  [⟨postback "09:15:03" 50 (some (.finite 102)) "COMPLETE", none, 1, .throws⟩,
    ⟨postback "09:15:03" 50 (some (.finite 102)) "COMPLETE", none, 2, .works (some .complete)⟩]

/-- The redelivery is taken for old news, and the adapter is never told. -/
theorem restored_sink_is_never_told :
    ∃ s, run Conversation.step { consumer := registered } restoredSink = some s ∧
      s.told = [] ∧ ¬ Delivered "BOX-1" s := by
  have hrun : ((run Conversation.step { consumer := registered } restoredSink).any fun s =>
      decide (s.told = [] ∧ highWater 0 (countedTotals s.heard) = 50)) = true := by
    decide +kernel
  obtain ⟨s, hs, h⟩ := (Option.any_eq_true _ _).mp hrun
  obtain ⟨htold, htotal⟩ := of_decide_eq_true h
  refine ⟨s, hs, htold, fun hdelivered => ?_⟩
  obtain ⟨-, -, -, -, u, hu, -⟩ := hdelivered.highest (by rw [htotal]; decide)
  rw [htold] at hu
  cases hu

end Runs

end Strikedge.OrderStream
