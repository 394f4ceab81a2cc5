import Strikedge.Subscriptions.SubscriptionCoordinator

/-!
# Reference counts and live leases

What the coordinator is for: a token is subscribed exactly while some consumer holds a lease
on it. The demand of a set of leases says how many of each class want a token; the table
represents a demand when it lists the tokens that are wanted, each with its counts. Taking
and releasing a lease keeps the table at the demand of the live leases. Declaring the set of
a class does so exactly when no token of the class is held by two of its leases.
-/

namespace Strikedge.Subscriptions

open Machine

/-- How many consumers of each class want each token. -/
abbrev Demand := SubscriptionOwner → Token → Nat

namespace Demand

variable (n : Demand)

def total (token : Token) : Nat :=
  n .browser token + n .scanner token + n .strategy token + n .analytics token

/-- One consumer of a class more for every token of a list. -/
def plus (owner : SubscriptionOwner) (tokens : List Token) : Demand := fun o token =>
  n o token + if owner = o ∧ token ∈ tokens then 1 else 0

/-- One consumer of a class fewer for every token of a list. -/
def minus (owner : SubscriptionOwner) (tokens : List Token) : Demand := fun o token =>
  n o token - if owner = o ∧ token ∈ tokens then 1 else 0

variable {n} {owner o : SubscriptionOwner} {tokens : List Token} {token : Token}

theorem total_pos_iff : 0 < n.total token ↔ ∃ o, 0 < n o token := by
  rw [total]
  constructor
  · intro h
    by_contra hnone
    have hzero : ∀ o, n o token = 0 := fun o => Nat.eq_zero_of_not_pos fun ho => hnone ⟨o, ho⟩
    simp [hzero] at h
  · rintro ⟨o, ho⟩
    cases o <;> omega

theorem total_plus :
    (n.plus owner tokens).total token = n.total token + if token ∈ tokens then 1 else 0 := by
  cases owner <;> simp [total, plus] <;> omega

theorem total_minus (h : token ∈ tokens → 0 < n owner token) :
    (n.minus owner tokens).total token + (if token ∈ tokens then 1 else 0) = n.total token := by
  by_cases hmem : token ∈ tokens
  · have hpos := h hmem
    cases owner <;> simp [total, minus, hmem] <;> omega
  · simp [total, minus, hmem]

theorem plus_plus (h : token ∉ tokens) :
    (n.plus owner [token]).plus owner tokens = n.plus owner (token :: tokens) := by
  funext o x
  by_cases hx : x = token
  · subst hx
    simp [plus, h]
  · simp [plus, hx]

theorem minus_minus (h : token ∉ tokens) :
    (n.minus owner [token]).minus owner tokens = n.minus owner (token :: tokens) := by
  funext o x
  by_cases hx : x = token
  · subst hx
    simp [minus, h]
  · simp [minus, hx]

/-- The entry that represents the demand for a token. -/
def entry (token : Token) : Option TokenCounts :=
  if n.total token = 0 then none
  else some
    { browser := n .browser token
      scanner := n .scanner token
      strategy := n .strategy token
      analytics := n .analytics token
      total := n.total token }

end Demand

/-- The table lists exactly the tokens that are wanted, with their counts. -/
def Represents (counts : CountTable) (n : Demand) : Prop :=
  ∀ token, counts.get? token = n.entry token

namespace Represents

variable {counts : CountTable} {n : Demand} {owner o : SubscriptionOwner} {token x : Token}
variable {sent tokens : List Token}

theorem getD (h : Represents counts n) : (counts.get? token).getD {} =
    { browser := n .browser token
      scanner := n .scanner token
      strategy := n .strategy token
      analytics := n .analytics token
      total := n.total token } := by
  rw [h, Demand.entry]
  split
  · rename_i hzero
    have hnone : ∀ o, n o token = 0 := fun o => by
      by_contra ho
      exact absurd (Demand.total_pos_iff.mpr ⟨o, Nat.pos_of_ne_zero ho⟩) (by omega)
    simp [hnone, hzero]
  · rfl

theorem take (h : Represents counts n) (sent : List Token) :
    Represents (CountTable.take owner (counts, sent) token).1 (n.plus owner [token]) := by
  intro x
  rw [CountTable.take, OrderedMap.get?_set, h.getD, Demand.entry, Demand.total_plus]
  by_cases hx : x = token
  · subst hx
    cases owner <;> simp [TokenCounts.add, TokenCounts.change, Demand.plus]
  · rw [if_neg hx, h, Demand.entry]
    simp [Demand.plus, hx]

theorem take_sent (h : Represents counts n) :
    (CountTable.take owner (counts, sent) token).2 =
      if n.total token = 0 then sent ++ [token] else sent := by
  rw [CountTable.take, h.getD]

/-- The entry of a token that one consumer of a class leaves. -/
theorem leave_eq (h : Represents counts n) (hheld : 0 < n owner token) :
    (CountTable.leave owner (counts, sent) token) =
      if (n.minus owner [token]).total token = 0 then (counts.delete token, sent ++ [token])
      else (counts.set token
        { browser := n.minus owner [token] .browser token
          scanner := n.minus owner [token] .scanner token
          strategy := n.minus owner [token] .strategy token
          analytics := n.minus owner [token] .analytics token
          total := (n.minus owner [token]).total token }, sent) := by
  have htotal : 0 < n.total token := Demand.total_pos_iff.mpr ⟨owner, hheld⟩
  have hafter := Demand.total_minus (n := n) fun _ : token ∈ [token] => hheld
  rw [if_pos (List.mem_singleton_self token)] at hafter
  have hdropped : (n.minus owner [token]).total token = n.total token - 1 := by omega
  have hentry := h token
  rw [Demand.entry, if_neg (Nat.ne_of_gt htotal)] at hentry
  rw [CountTable.leave.eq_def]
  simp only [hentry]
  by_cases hlast : n.total token - 1 = 0
  · cases owner <;> simp [TokenCounts.drop, TokenCounts.change, hlast, hdropped]
  · cases owner <;>
      simp [TokenCounts.drop, TokenCounts.change, Demand.minus, hlast, hdropped]

theorem leave (h : Represents counts n) (hheld : 0 < n owner token) :
    Represents (CountTable.leave owner (counts, sent) token).1 (n.minus owner [token]) := by
  intro x
  rw [h.leave_eq hheld]
  by_cases hx : x = token
  · subst hx
    by_cases hzero : (n.minus owner [x]).total x = 0
    · simp [Demand.entry, hzero]
    · simp [Demand.entry, hzero]
  · have hother : n.entry x = (n.minus owner [token]).entry x := by
      simp [Demand.entry, Demand.total, Demand.minus, hx]
    split
    · rw [OrderedMap.get?_delete, if_neg hx, h, hother]
    · rw [OrderedMap.get?_set, if_neg hx, h, hother]

theorem leave_sent (h : Represents counts n) (hheld : 0 < n owner token) :
    (CountTable.leave owner (counts, sent) token).2 =
      if (n.minus owner [token]).total token = 0 then sent ++ [token] else sent := by
  rw [h.leave_eq hheld]
  split <;> rfl

/-- Taking a list of tokens one after the other. -/
theorem takes (h : Represents counts n) (owner : SubscriptionOwner) (sent : List Token)
    (hnodup : tokens.Nodup) :
    Represents (tokens.foldl (CountTable.take owner) (counts, sent)).1 (n.plus owner tokens) ∧
      (tokens.foldl (CountTable.take owner) (counts, sent)).2 =
        sent ++ tokens.filter (n.total · = 0) := by
  induction tokens generalizing counts n sent with
  | nil =>
      refine ⟨fun x => ?_, by simp⟩
      rw [List.foldl_nil, h]
      simp [Demand.entry, Demand.total, Demand.plus]
  | cons token rest ih =>
      obtain ⟨hfresh, hrest⟩ := List.nodup_cons.mp hnodup
      have hother : ∀ x ∈ rest, x ≠ token := fun x hx heq => hfresh (heq ▸ hx)
      obtain ⟨hrepresents, hsent⟩ :=
        ih (h.take sent) (CountTable.take owner (counts, sent) token).2 hrest
      refine ⟨fun x => ?_, ?_⟩
      · rw [List.foldl_cons, hrepresents, Demand.plus_plus hfresh]
      · have hkept : rest.filter ((n.plus owner [token]).total · = 0) =
            rest.filter (n.total · = 0) := by
          refine List.filter_congr fun x hx => ?_
          rw [Demand.total_plus, if_neg (by simpa using hother x hx), Nat.add_zero]
        rw [List.foldl_cons, hsent, hkept, h.take_sent, List.filter_cons]
        by_cases hfirst : n.total token = 0 <;> simp [hfirst]

/-- Leaving a list of tokens one after the other. -/
theorem leaves (h : Represents counts n) (sent : List Token) (hnodup : tokens.Nodup)
    (hheld : ∀ token ∈ tokens, 0 < n owner token) :
    Represents (tokens.foldl (CountTable.leave owner) (counts, sent)).1 (n.minus owner tokens) ∧
      (tokens.foldl (CountTable.leave owner) (counts, sent)).2 =
        sent ++ tokens.filter ((n.minus owner tokens).total · = 0) := by
  induction tokens generalizing counts n sent with
  | nil =>
      refine ⟨fun x => ?_, by simp⟩
      rw [List.foldl_nil, h]
      simp [Demand.entry, Demand.total, Demand.minus]
  | cons token rest ih =>
      obtain ⟨hfresh, hrest⟩ := List.nodup_cons.mp hnodup
      have hother : ∀ x ∈ rest, x ≠ token := fun x hx heq => hfresh (heq ▸ hx)
      have hfirst : 0 < n owner token := hheld token List.mem_cons_self
      obtain ⟨hrepresents, hsent⟩ :=
        ih (h.leave hfirst) (CountTable.leave owner (counts, sent) token).2 hrest fun x hx => by
            simpa [Demand.minus, hother x hx] using hheld x (List.mem_cons_of_mem token hx)
      rw [Demand.minus_minus hfresh] at hrepresents hsent
      refine ⟨by rwa [List.foldl_cons], ?_⟩
      have hlast : (n.minus owner (token :: rest)).total token =
          (n.minus owner [token]).total token := by
        simp [Demand.total, Demand.minus]
      rw [List.foldl_cons, hsent, h.leave_sent hfirst, List.filter_cons, hlast]
      by_cases hzero : (n.minus owner [token]).total token = 0 <;> simp [hzero]

end Represents

/-- How many live leases of a class contain a token. -/
def holding (leases : OrderedMap LeaseId Lease) : Demand := fun owner token =>
  leases.tally fun _ lease => if lease.owner = owner ∧ token ∈ lease.tokens then 1 else 0

/-- Some live lease contains the token. -/
def Live (leases : OrderedMap LeaseId Lease) (token : Token) : Prop :=
  ∃ id lease, leases.get? id = some lease ∧ token ∈ lease.tokens

section Holding

variable {leases : OrderedMap LeaseId Lease} {id : LeaseId} {lease : Lease}
variable {owner o : SubscriptionOwner} {token : Token}

theorem holding_pos_iff : 0 < holding leases owner token ↔
    ∃ id lease, leases.get? id = some lease ∧ lease.owner = owner ∧ token ∈ lease.tokens := by
  rw [holding, OrderedMap.tally_pos_iff]
  constructor
  · rintro ⟨id, lease, hget, hpos⟩
    split at hpos
    · rename_i hof
      exact ⟨id, lease, hget, hof.1, hof.2⟩
    · cases hpos
  · rintro ⟨id, lease, hget, hof⟩
    exact ⟨id, lease, hget, by simp [hof]⟩

theorem live_iff : Live leases token ↔ 0 < (holding leases).total token := by
  rw [Demand.total_pos_iff]
  constructor
  · rintro ⟨id, lease, hget, hmem⟩
    exact ⟨lease.owner, holding_pos_iff.mpr ⟨id, lease, hget, rfl, hmem⟩⟩
  · rintro ⟨o, ho⟩
    obtain ⟨id, lease, hget, -, hmem⟩ := holding_pos_iff.mp ho
    exact ⟨id, lease, hget, hmem⟩

theorem not_live_iff : ¬Live leases token ↔ (holding leases).total token = 0 := by
  rw [live_iff, Nat.pos_iff_ne_zero, not_not]

/-- A new lease adds to the demand of its class. -/
theorem holding_set (h : leases.get? id = none) :
    holding (leases.set id lease) = (holding leases).plus lease.owner lease.tokens.tokens := by
  funext o x
  rw [holding, OrderedMap.tally_set_new h]
  rfl

/-- A released lease takes its part of the demand away. -/
theorem holding_delete (h : leases.get? id = some lease) :
    holding (leases.delete id) = (holding leases).minus lease.owner lease.tokens.tokens := by
  funext o x
  have hdelete := OrderedMap.tally_delete
    (fun _ l => if l.owner = o ∧ x ∈ l.tokens then 1 else 0) leases id
  rw [OrderedMap.share_of_some h] at hdelete
  have hminus : (holding leases).minus lease.owner lease.tokens.tokens o x = holding leases o x -
      if lease.owner = o ∧ x ∈ lease.tokens then 1 else 0 := rfl
  rw [hminus, holding, holding, ← hdelete, Nat.add_sub_cancel]

/-- Ending all leases of a class leaves the demand of the others. -/
theorem holding_others (o : SubscriptionOwner) (token : Token) :
    holding (leases.filter fun _ l => l.owner ≠ owner) o token =
      if o = owner then 0 else holding leases o token := by
  rw [holding, OrderedMap.tally_filter]
  split
  · rename_i heq
    subst heq
    rw [← OrderedMap.tally_zero (m := leases)]
    refine OrderedMap.tally_congr fun id l _ => ?_
    by_cases hl : l.owner = o <;> simp [hl]
  · rename_i hne
    refine OrderedMap.tally_congr fun id l _ => ?_
    by_cases hl : l.owner = o
    · simp [hl, hne]
    · simp [hl]

end Holding

namespace UpstreamCall

/-- By how much a call moves the subscriptions of a token. -/
def effect (token : Token) : UpstreamCall → ℤ
  | subscribe tokens => tokens.count token
  | unsubscribe tokens => -tokens.count token

/-- Every token of the call, each mentioned once, went from no live lease to some, or back. -/
def IsTransition (before after : OrderedMap LeaseId Lease) : UpstreamCall → Prop
  | subscribe tokens =>
    tokens.Nodup ∧ ∀ token ∈ tokens, ¬Live before token ∧ Live after token
  | unsubscribe tokens =>
    tokens.Nodup ∧ ∀ token ∈ tokens, Live before token ∧ ¬Live after token

end UpstreamCall

/-- Subscribes of a token minus its unsubscribes. -/
def subscribed (calls : List UpstreamCall) (token : Token) : ℤ :=
  (calls.map (·.effect token)).sum

section Calls

variable {calls calls' : List UpstreamCall} {tokens : List Token} {token : Token}
variable {before after : OrderedMap LeaseId Lease}

theorem subscribed_append :
    subscribed (calls ++ calls') token = subscribed calls token + subscribed calls' token := by
  simp [subscribed]

theorem subscribed_subscribeCalls :
    subscribed (subscribeCalls tokens) token = tokens.count token := by
  rw [subscribeCalls]
  split
  · rename_i hnil
    simp [hnil, subscribed]
  · simp [subscribed, UpstreamCall.effect]

theorem subscribed_unsubscribeCalls :
    subscribed (unsubscribeCalls tokens) token = -tokens.count token := by
  rw [unsubscribeCalls]
  split
  · rename_i hnil
    simp [hnil, subscribed]
  · simp [subscribed, UpstreamCall.effect]

theorem isTransition_subscribe (hnodup : tokens.Nodup)
    (h : ∀ token ∈ tokens, ¬Live before token ∧ Live after token) :
    ∀ call ∈ subscribeCalls tokens, call.IsTransition before after := by
  intro call hcall
  rw [subscribeCalls] at hcall
  split at hcall
  · cases hcall
  · obtain rfl := List.mem_singleton.mp hcall
    exact ⟨hnodup, h⟩

theorem isTransition_unsubscribe (hnodup : tokens.Nodup)
    (h : ∀ token ∈ tokens, Live before token ∧ ¬Live after token) :
    ∀ call ∈ unsubscribeCalls tokens, call.IsTransition before after := by
  intro call hcall
  rw [unsubscribeCalls] at hcall
  split at hcall
  · cases hcall
  · obtain rfl := List.mem_singleton.mp hcall
    exact ⟨hnodup, h⟩

end Calls

/-- The count of a class in the table, none for a token that is not listed. -/
def CountTable.countFor (counts : CountTable) (owner : SubscriptionOwner) (token : Token) : Nat :=
  (counts.get? token).elim 0 (·.of owner)

/-- The refcounts are those of the live leases, and so are the subscriptions upstream. -/
structure Lane.FollowsLeases (s : Lane) : Prop where
  counts : ∀ owner token,
    s.coordinator.counts.countFor owner token = holding s.coordinator.leases owner token
  total : ∀ token entry, s.coordinator.counts.get? token = some entry →
    entry.total = entry.browser + entry.scanner + entry.strategy + entry.analytics
  listed : ∀ token, s.coordinator.counts.has token = true ↔ Live s.coordinator.leases token
  upstream : ∀ token,
    subscribed s.upstream token = if s.coordinator.counts.has token then 1 else 0
  transitions : ∀ call ∈ s.calls, call.IsTransition s.before s.coordinator.leases

/-- What every operation keeps: leases are filed under their class, and the numbers to come
are not taken. -/
structure SubscriptionCoordinator.WellKept (c : SubscriptionCoordinator) : Prop where
  owner : ∀ id lease, c.leases.get? id = some lease → lease.owner = id.owner
  fresh : ∀ owner seq, c.leaseSeq < seq → c.leases.get? (.numbered owner seq) = none

/-- Where a class declares its set, no token is in two of its leases. -/
def Lane.Separate (s : Lane) : Operation → Prop
  | .setOwnerTokens owner _ => ∀ token, holding s.coordinator.leases owner token ≤ 1
  | _ => True

namespace Lane

variable {s s' : Lane} {op : Operation} {counts : CountTable} {n : Demand}

theorem FollowsLeases.represents (h : s.FollowsLeases) :
    Represents s.coordinator.counts (holding s.coordinator.leases) := by
  intro token
  rw [Demand.entry]
  split
  · rename_i hzero
    have hnone : ¬s.coordinator.counts.has token = true := fun hhas =>
      absurd (live_iff.mp ((h.listed token).mp hhas)) (by omega)
    simpa [OrderedMap.has] using hnone
  · rename_i hpos
    obtain ⟨entry, hget⟩ := OrderedMap.has_iff.mp
      ((h.listed token).mpr (live_iff.mpr (Nat.pos_of_ne_zero hpos)))
    have hcount : ∀ owner, entry.of owner = holding s.coordinator.leases owner token := by
      intro owner
      rw [← h.counts owner token, CountTable.countFor, hget]
      rfl
    rw [hget, Demand.total, ← hcount, ← hcount, ← hcount, ← hcount]
    have htotal := h.total token entry hget
    cases entry
    simp [TokenCounts.of] at htotal ⊢
    exact htotal

end Lane

section Represented

variable {counts : CountTable} {n : Demand} {owner : SubscriptionOwner} {token : Token}

theorem Represents.countFor (h : Represents counts n) :
    counts.countFor owner token = n owner token := by
  rw [CountTable.countFor, h, Demand.entry]
  split
  · rename_i hzero
    by_contra hne
    have hpos := Demand.total_pos_iff.mpr ⟨owner, Nat.pos_of_ne_zero (Ne.symm hne)⟩
    omega
  · cases owner <;> rfl

theorem Represents.has (h : Represents counts n) :
    counts.has token = true ↔ 0 < n.total token := by
  rw [OrderedMap.has, h, Demand.entry]
  split <;> simp <;> omega

end Represented

/-- An operation keeps the table at the demand of the leases, and tells the broker of exactly
the tokens whose demand began or ended. -/
structure Follows (c c' : SubscriptionCoordinator) (calls : List UpstreamCall) : Prop where
  represents : Represents c'.counts (holding c'.leases)
  calls : ∃ dropped taken : List Token,
    calls = unsubscribeCalls dropped ++ subscribeCalls taken ∧ dropped.Nodup ∧ taken.Nodup ∧
      (∀ token, token ∈ dropped ↔
        0 < (holding c.leases).total token ∧ (holding c'.leases).total token = 0) ∧
      ∀ token, token ∈ taken ↔
        (holding c.leases).total token = 0 ∧ 0 < (holding c'.leases).total token

namespace SubscriptionCoordinator

variable {c : SubscriptionCoordinator} {owner : SubscriptionOwner} {tokens : List Number}
variable {id : LeaseId} {lease : Lease} {token : Token}

theorem follows_self (h : Represents c.counts (holding c.leases)) : Follows c c [] where
  represents := h
  calls := by
    refine ⟨[], [], rfl, List.nodup_nil, List.nodup_nil, fun token => ?_, fun token => ?_⟩
    · simp only [List.not_mem_nil, false_iff]
      omega
    · simp only [List.not_mem_nil, false_iff]
      omega

theorem follows_acquire (h : Represents c.counts (holding c.leases))
    (hfresh : c.leases.get? (.numbered owner (c.leaseSeq + 1)) = none) :
    Follows c (c.acquire owner tokens).1 (c.acquire owner tokens).2.2 := by
  set unique := TokenSet.ofNumbers tokens with hunique
  have hholding := @holding_set _ _ ⟨owner, unique⟩ hfresh
  obtain ⟨hrepresents, hsent⟩ := h.takes owner [] unique.nodup
  have hafter : holding (c.acquire owner tokens).1.leases =
    (holding c.leases).plus owner unique.tokens := hholding
  refine ⟨hafter ▸ hrepresents, [], unique.tokens.filter ((holding c.leases).total · = 0), ?_,
    List.nodup_nil, unique.nodup.filter _, fun token => ?_, fun token => ?_⟩
  · exact congrArg subscribeCalls hsent
  · rw [hafter, Demand.total_plus]
    simp
    omega
  · rw [hafter, Demand.total_plus, List.mem_filter]
    by_cases hmem : token ∈ unique.tokens
    · simp [hmem]
    · simp [hmem]

theorem follows_releaseLease (h : Represents c.counts (holding c.leases)) :
    Follows c (c.releaseLease id).1 (c.releaseLease id).2 := by
  rw [releaseLease]
  split
  · exact follows_self h
  · rename_i lease hget
    have hholding := holding_delete hget
    have hheld : ∀ token ∈ lease.tokens.tokens, 0 < holding c.leases lease.owner token :=
      fun token hmem => holding_pos_iff.mpr ⟨id, lease, hget, rfl, hmem⟩
    obtain ⟨hrepresents, hsent⟩ := h.leaves [] lease.tokens.nodup hheld
    have hcount := fun token => @Demand.total_minus (holding c.leases) lease.owner
      lease.tokens.tokens token (hheld token)
    refine ⟨hholding ▸ hrepresents,
      lease.tokens.tokens.filter ((holding (c.leases.delete id)).total · = 0), [], ?_,
      lease.tokens.nodup.filter _, List.nodup_nil, fun token => ?_, fun token => ?_⟩
    · rw [hholding, ← List.nil_append (List.filter _ _), ← hsent]
      exact (List.append_nil _).symm
    · have hone := hcount token
      rw [hholding, List.mem_filter]
      by_cases hmem : token ∈ lease.tokens.tokens <;> simp [hmem] at hone ⊢ <;> omega
    · have hone := hcount token
      rw [hholding]
      simp
      omega

theorem mem_heldBy : token ∈ (c.heldBy owner).tokens ↔ 0 < holding c.leases owner token := by
  change token ∈ c.heldBy owner ↔ _
  rw [heldBy, TokenSet.mem_ofList, List.mem_flatMap, holding_pos_iff]
  constructor
  · rintro ⟨lease, hlease, hmem⟩
    obtain ⟨hvalue, howner⟩ := List.mem_filter.mp hlease
    obtain ⟨id, hget⟩ := OrderedMap.mem_values_iff.mp hvalue
    exact ⟨id, lease, hget, of_decide_eq_true howner, hmem⟩
  · rintro ⟨id, lease, hget, howner, hmem⟩
    refine ⟨lease, List.mem_filter.mpr ⟨OrderedMap.mem_values_iff.mpr ⟨id, hget⟩, ?_⟩, hmem⟩
    exact decide_eq_true howner

/-- The tokens a declaration counts down, and those it counts up. -/
def released (c : SubscriptionCoordinator) (owner : SubscriptionOwner) (tokens : List Number) :
    List Token :=
  (c.heldBy owner).tokens.filter (· ∉ TokenSet.ofNumbers tokens)

def declared (c : SubscriptionCoordinator) (owner : SubscriptionOwner) (tokens : List Number) :
    List Token :=
  (TokenSet.ofNumbers tokens).tokens.filter (· ∉ c.heldBy owner)

theorem mem_released : token ∈ c.released owner tokens ↔
    0 < holding c.leases owner token ∧ token ∉ (TokenSet.ofNumbers tokens).tokens := by
  rw [released, List.mem_filter, mem_heldBy, decide_eq_true_iff]
  rfl

theorem mem_declared : token ∈ c.declared owner tokens ↔
    token ∈ (TokenSet.ofNumbers tokens).tokens ∧ holding c.leases owner token = 0 := by
  have hheld : token ∉ c.heldBy owner ↔ holding c.leases owner token = 0 := by
    rw [← Nat.le_zero, ← Nat.not_lt, ← mem_heldBy]
    rfl
  rw [declared, List.mem_filter, decide_eq_true_iff, hheld]

/-- What the table represents once a set is declared. -/
def declaredDemand (c : SubscriptionCoordinator) (owner : SubscriptionOwner)
    (tokens : List Number) : Demand :=
  ((holding c.leases).minus owner (c.released owner tokens)).plus owner (c.declared owner tokens)

theorem declaredDemand_own : c.declaredDemand owner tokens owner token =
    if token ∈ (TokenSet.ofNumbers tokens).tokens then max 1 (holding c.leases owner token)
    else holding c.leases owner token - 1 := by
  rw [declaredDemand, Demand.plus, Demand.minus]
  simp only [mem_released, mem_declared, true_and]
  by_cases hwant : token ∈ (TokenSet.ofNumbers tokens).tokens
  · by_cases hheld : holding c.leases owner token = 0 <;> simp [hwant, hheld]
    omega
  · by_cases hheld : 0 < holding c.leases owner token <;> simp [hwant, hheld]
    omega

theorem declaredDemand_other {o : SubscriptionOwner} (ho : o ≠ owner) :
    c.declaredDemand owner tokens o token = holding c.leases o token := by
  simp [declaredDemand, Demand.plus, Demand.minus, Ne.symm ho]

theorem holding_setOwnerTokens (h : c.WellKept) (o : SubscriptionOwner) (token : Token) :
    holding (c.setOwnerTokens owner tokens).1.leases o token =
      if o = owner then if token ∈ (TokenSet.ofNumbers tokens).tokens then 1 else 0
      else holding c.leases o token := by
  set want := TokenSet.ofNumbers tokens with hwant
  have hfresh : (c.leases.filter fun _ l => l.owner ≠ owner).get? (.set owner) = none := by
    rw [OrderedMap.get?_filter, Option.filter_eq_none_iff]
    intro lease hget
    simp [h.owner _ lease hget, LeaseId.owner]
  have hleases : (c.setOwnerTokens owner tokens).1.leases =
      if want.tokens = [] then c.leases.filter fun _ l => l.owner ≠ owner
      else (c.leases.filter fun _ l => l.owner ≠ owner).set (.set owner) ⟨owner, want⟩ := rfl
  rw [hleases]
  split
  · rename_i hnil
    rw [holding_others, hnil]
    simp
  · rw [holding_set hfresh, Demand.plus, holding_others]
    by_cases ho : o = owner
    · subst ho
      simp
    · simp [ho, Ne.symm ho]

theorem represents_setOwnerTokens (h : Represents c.counts (holding c.leases)) :
    Represents (c.setOwnerTokens owner tokens).1.counts (c.declaredDemand owner tokens) ∧
      (c.setOwnerTokens owner tokens).2 =
        unsubscribeCalls ((c.released owner tokens).filter
          (((holding c.leases).minus owner (c.released owner tokens)).total · = 0)) ++
        subscribeCalls ((c.declared owner tokens).filter
          (((holding c.leases).minus owner (c.released owner tokens)).total · = 0)) := by
  have hheld : ∀ token ∈ c.released owner tokens, 0 < holding c.leases owner token :=
    fun token hmem => (mem_released.mp hmem).1
  have hreleased : (c.released owner tokens).Nodup := (c.heldBy owner).nodup.filter _
  have hdeclared : (c.declared owner tokens).Nodup := (TokenSet.ofNumbers tokens).nodup.filter _
  obtain ⟨hleft, hsent⟩ := h.leaves [] hreleased hheld
  obtain ⟨htaken, hsent'⟩ := hleft.takes owner [] hdeclared
  exact ⟨htaken, congrArg₂ (fun u v => unsubscribeCalls u ++ subscribeCalls v) hsent hsent'⟩

/-- Where no token is in two leases of the class, the declaration keeps to the leases. -/
theorem declaredDemand_eq (h : c.WellKept) (hsep : ∀ token, holding c.leases owner token ≤ 1) :
    c.declaredDemand owner tokens = holding (c.setOwnerTokens owner tokens).1.leases := by
  funext o token
  rw [holding_setOwnerTokens h]
  by_cases ho : o = owner
  · subst ho
    have hone := hsep token
    rw [if_pos rfl, declaredDemand_own]
    split <;> omega
  · rw [if_neg ho, declaredDemand_other ho]

theorem follows_setOwnerTokens (h : Represents c.counts (holding c.leases)) (hkept : c.WellKept)
    (hsep : ∀ token, holding c.leases owner token ≤ 1) :
    Follows c (c.setOwnerTokens owner tokens).1 (c.setOwnerTokens owner tokens).2 := by
  obtain ⟨hrepresents, hcalls⟩ := @represents_setOwnerTokens c owner tokens h
  have hafter := @declaredDemand_eq c owner tokens hkept hsep
  set kept := (holding c.leases).minus owner (c.released owner tokens) with hkeptDemand
  have hreleased : (c.released owner tokens).Nodup := (c.heldBy owner).nodup.filter _
  have hdeclared : (c.declared owner tokens).Nodup := (TokenSet.ofNumbers tokens).nodup.filter _
  have hleft (token : Token) : kept.total token +
      (if token ∈ c.released owner tokens then 1 else 0) = (holding c.leases).total token :=
    Demand.total_minus fun hmem => (mem_released.mp hmem).1
  have htotal (token : Token) : (holding (c.setOwnerTokens owner tokens).1.leases).total token =
      kept.total token + if token ∈ c.declared owner tokens then 1 else 0 := by
    rw [← hafter, declaredDemand, Demand.total_plus]
  have hnot (token : Token) (hmem : token ∈ c.released owner tokens) :
      token ∉ c.declared owner tokens := fun hd =>
    (mem_released.mp hmem).2 (mem_declared.mp hd).1
  refine ⟨hafter ▸ hrepresents, _, _, hcalls, hreleased.filter _, hdeclared.filter _,
    fun token => ?_, fun token => ?_⟩
  · have hone := hleft token
    rw [htotal, List.mem_filter, decide_eq_true_iff]
    by_cases hmem : token ∈ c.released owner tokens
    · simp only [hmem, hnot token hmem, if_true, if_false, true_and] at hone ⊢
      omega
    · rw [if_neg hmem] at hone
      exact ⟨fun h => absurd h.1 hmem, fun ⟨hpos, hzero⟩ => by omega⟩
  · have hone := hleft token
    rw [htotal, List.mem_filter, decide_eq_true_iff]
    by_cases hmem : token ∈ c.declared owner tokens
    · have hrel : token ∉ c.released owner tokens := fun hr => hnot token hr hmem
      simp only [hmem, hrel, if_true, if_false, true_and] at hone ⊢
      omega
    · rw [if_neg hmem]
      refine ⟨fun h => absurd h.1 hmem, fun ⟨hzero, hpos⟩ => ?_⟩
      split at hone <;> omega

/-- Leases may go, and new ones must be filed under their class and numbered in order. -/
theorem WellKept.of_leases {c' : SubscriptionCoordinator} (h : c.WellKept)
    (hseq : c.leaseSeq ≤ c'.leaseSeq)
    (hleases : ∀ id lease, c'.leases.get? id = some lease → c.leases.get? id = some lease ∨
      lease.owner = id.owner ∧ ∀ o seq, id = .numbered o seq → seq ≤ c'.leaseSeq) :
    c'.WellKept where
  owner id lease hget := (hleases id lease hget).elim (h.owner id lease) (·.1)
  fresh o seq hlt := by
    cases hget : c'.leases.get? (.numbered o seq) with
    | none => rfl
    | some lease =>
        exfalso
        rcases hleases _ lease hget with hold | ⟨-, hle⟩
        · rw [h.fresh o seq (Nat.lt_of_le_of_lt hseq hlt)] at hold
          cases hold
        · exact Nat.not_lt.mpr (hle o seq rfl) hlt

theorem wellKept_acquire (h : c.WellKept) : (c.acquire owner tokens).1.WellKept := by
  refine h.of_leases (Nat.le_succ c.leaseSeq) fun id lease hget => ?_
  obtain ⟨rfl, heq⟩ | ⟨-, hold⟩ := OrderedMap.get?_set_eq_some.mp hget
  · refine .inr ⟨heq ▸ rfl, fun o seq hid => ?_⟩
    cases hid
    exact Nat.le_refl _
  · exact .inl hold

theorem wellKept_releaseLease (h : c.WellKept) : (c.releaseLease id).1.WellKept := by
  rw [releaseLease]
  split
  · exact h
  · refine h.of_leases (Nat.le_refl _) fun x lease hget => .inl ?_
    rw [OrderedMap.get?_delete] at hget
    split at hget
    · cases hget
    · exact hget

theorem wellKept_setOwnerTokens (h : c.WellKept) : (c.setOwnerTokens owner tokens).1.WellKept := by
  refine h.of_leases (Nat.le_refl _) fun id lease hget => ?_
  have hkept : ∀ x, (c.leases.filter fun _ l => l.owner ≠ owner).get? id = some x →
      c.leases.get? id = some x := by
    intro x hx
    rw [OrderedMap.get?_filter] at hx
    exact (Option.filter_eq_some_iff.mp hx).1
  rw [setOwnerTokens] at hget
  dsimp only at hget
  split at hget
  · exact .inl (hkept lease hget)
  · obtain ⟨rfl, heq⟩ | ⟨-, hold⟩ := OrderedMap.get?_set_eq_some.mp hget
    · exact .inr ⟨heq ▸ rfl, fun o seq hid => by cases hid⟩
    · exact .inl (hkept lease hold)

end SubscriptionCoordinator

namespace Lane

section Steps

variable {s s' : Lane} {op : Operation} {calls : List UpstreamCall}

/-- An operation that follows the leases keeps everything in line. -/
theorem FollowsLeases.after (h : s.FollowsLeases)
    (hmove : Follows s.coordinator s'.coordinator s'.calls)
    (hbefore : s'.before = s.coordinator.leases)
    (hupstream : s'.upstream = s.upstream ++ s'.calls) : s'.FollowsLeases := by
  obtain ⟨hrepresents, dropped, taken, hcalls, hdropped, htaken, hdrops, htakes⟩ := hmove
  have hhas (token : Token) :
      s'.coordinator.counts.has token = true ↔ Live s'.coordinator.leases token :=
    hrepresents.has.trans live_iff.symm
  simp only [← live_iff, ← not_live_iff] at hdrops htakes
  refine ⟨fun _ _ => hrepresents.countFor, fun token entry hget => ?_, hhas, fun token => ?_,
    fun call hcall => ?_⟩
  · rw [hrepresents, Demand.entry] at hget
    split at hget
    · cases hget
    · exact Option.some.inj hget ▸ rfl
  · have hsum : subscribed s'.upstream token = (if s.coordinator.counts.has token then 1 else 0) +
        (-((if token ∈ dropped then 1 else 0 : Nat) : ℤ) +
          ((if token ∈ taken then 1 else 0 : Nat) : ℤ)) := by
      rw [hupstream, hcalls, subscribed_append, subscribed_append, subscribed_subscribeCalls,
        subscribed_unsubscribeCalls, h.upstream, hdropped.count, htaken.count]
    rw [hsum]
    by_cases hold : Live s.coordinator.leases token <;>
      by_cases hnew : Live s'.coordinator.leases token <;>
        simp [h.listed, hhas, hdrops, htakes, hold, hnew]
  · rw [hcalls, List.mem_append] at hcall
    rw [hbefore]
    rcases hcall with hcall | hcall
    · exact isTransition_unsubscribe hdropped (fun token ht => (hdrops token).mp ht) call hcall
    · exact isTransition_subscribe htaken (fun token ht => (htakes token).mp ht) call hcall

theorem wellKept_step (h : s.coordinator.WellKept) (hstep : s.step op = some s') :
    s'.coordinator.WellKept := by
  cases op with
  | acquire owner tokens =>
      obtain rfl := Option.some.inj hstep
      exact SubscriptionCoordinator.wellKept_acquire h
  | release id =>
      rw [step.eq_def] at hstep
      dsimp only at hstep
      split at hstep
      · cases hstep
      · exact Option.some.inj hstep ▸ h
      · obtain rfl := Option.some.inj hstep
        exact SubscriptionCoordinator.wellKept_releaseLease h
  | setOwnerTokens owner tokens =>
      obtain rfl := Option.some.inj hstep
      exact SubscriptionCoordinator.wellKept_setOwnerTokens h
  | resetForBrokerSwitch =>
      obtain rfl := Option.some.inj hstep
      exact h.of_leases (Nat.le_refl _) fun id lease hget => by cases hget

/-- Where nothing is listed, held or subscribed, everything is in line. -/
theorem followsLeases_empty (hcounts : s.coordinator.counts = ∅)
    (hleases : s.coordinator.leases = ∅) (hupstream : s.upstream = []) (hcalls : s.calls = []) : s.FollowsLeases where
  counts _ _ := by rw [hcounts, hleases]; rfl
  total _ _ hget := by rw [hcounts] at hget; cases hget
  listed token := by
    rw [hcounts, hleases]
    constructor
    · intro hhas
      cases hhas
    · rintro ⟨id, lease, hget, -⟩
      cases hget
  upstream _ := by rw [hcounts, hupstream]; rfl
  transitions _ hcall := by rw [hcalls] at hcall; cases hcall

/-- An operation that separates the leases of a class keeps everything in line. -/
theorem followsLeases_step (hkept : s.coordinator.WellKept) (h : s.FollowsLeases)
    (hsep : s.Separate op) (hstep : s.step op = some s') : s'.FollowsLeases := by
  cases op with
  | acquire owner tokens =>
      obtain rfl := Option.some.inj hstep
      have hfresh := hkept.fresh owner _ (Nat.lt_succ_self s.coordinator.leaseSeq)
      exact h.after (SubscriptionCoordinator.follows_acquire h.represents hfresh) rfl rfl
  | release id =>
      rw [step.eq_def] at hstep
      dsimp only at hstep
      split at hstep
      · cases hstep
      · obtain rfl := Option.some.inj hstep
        exact h.after (SubscriptionCoordinator.follows_self h.represents) rfl rfl
      · obtain rfl := Option.some.inj hstep
        exact h.after (SubscriptionCoordinator.follows_releaseLease h.represents) rfl rfl
  | setOwnerTokens owner tokens =>
      obtain rfl := Option.some.inj hstep
      exact h.after
        (SubscriptionCoordinator.follows_setOwnerTokens h.represents hkept hsep) rfl rfl
  | resetForBrokerSwitch =>
      obtain rfl := Option.some.inj hstep
      exact followsLeases_empty rfl rfl rfl rfl

/-- A declaration that keeps everything in line found no token in two leases of its class: it
counts down and leaves standing one consumer per token, whatever the number of leases. -/
theorem separate_of_followsLeases (hkept : s.coordinator.WellKept) (h : s.FollowsLeases)
    (hstep : s.step op = some s') (hafter : s'.FollowsLeases) : s.Separate op := by
  cases op with
  | setOwnerTokens owner tokens =>
      obtain rfl := Option.some.inj hstep
      intro token
      have hrepresents : Represents (s.coordinator.setOwnerTokens owner tokens).1.counts _ :=
        (SubscriptionCoordinator.represents_setOwnerTokens h.represents).1
      have hcount : holding (s.coordinator.setOwnerTokens owner tokens).1.leases owner token = _ :=
        (hafter.counts owner token).symm.trans hrepresents.countFor
      rw [SubscriptionCoordinator.holding_setOwnerTokens hkept, if_pos rfl,
        SubscriptionCoordinator.declaredDemand_own] at hcount
      split at hcount <;> omega
  | _ => trivial

end Steps

/-- The lane of a process that has just started. -/
def init : Lane := {}

theorem wellKept_init : init.coordinator.WellKept where
  owner _ _ hget := by cases hget
  fresh _ _ _ := rfl

/-- After every operation of a run the refcounts are those of the live leases, and so is what
the broker is subscribed to, exactly when every declaration of a class's set found no token
in two leases of that class. -/
theorem refcounts_follow_leases (ops : List Operation) :
    Throughout step FollowsLeases init ops ↔ Heeds step Separate init ops :=
  throughout_iff_heeds (L := fun _ => True) (I := fun s => s.coordinator.WellKept)
    (fun _ _ _ _ hkept _ _ => wellKept_step hkept)
    (fun _ _ _ _ hkept h hstep =>
      ⟨separate_of_followsLeases hkept h hstep, fun hsep => followsLeases_step hkept h hsep hstep⟩)
    wellKept_init (followsLeases_empty rfl rfl rfl rfl) fun _ _ => trivial

/-- The strategy subscribes to a token twice and then declares that it wants nothing: the
token stays counted, and subscribed, with no lease left to release it. -/
theorem refcount_outlives_leases :
    ¬∀ ops : List Operation, Throughout step FollowsLeases init ops := by
  intro h
  have hlast := (h [.acquire .strategy [.finite 256265], .acquire .strategy [.finite 256265],
    .setOwnerTokens .strategy []]).last rfl
  have hcount := hlast.counts .strategy 256265
  revert hcount
  decide

end Lane

end Strikedge.Subscriptions
