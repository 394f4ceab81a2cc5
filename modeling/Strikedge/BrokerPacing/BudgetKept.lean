import Strikedge.BrokerPacing.RateBudget
import Mathlib.Data.List.TakeWhile
import Mathlib.Algebra.Order.BigOperators.Group.Finset

/-!
# No window is overspent

A ledger only ever looks at the windows that end now, and forgets what is older than the
longest of them. Still no window of a limited length ever holds more than the account may
send, nor more placements of a worker than its share less the reserve; and a cancel that is
refused without a cooldown finds the reserve used by cancels and modifications.
-/

namespace Strikedge.BrokerPacing

open Machine

variable {n : Nat} {limits : BrokerRateLimits} {policy : OrderBudgetPolicy}

section Limits

variable {key : WindowKey} {limit : Nat} {l : RateBudgetLedger} {klass : BrokerEndpointClass}
variable {now : ℚ}

theorem le_foldl_max {x : ℚ} {xs : List ℚ} : x ≤ xs.foldl max x ∧ ∀ y ∈ xs, y ≤ xs.foldl max x := by
  induction xs generalizing x with
  | nil => simp
  | cons z zs ih =>
      obtain ⟨hfirst, hrest⟩ := @ih (max x z)
      refine ⟨le_trans (le_max_left x z) hfirst, fun y hy => ?_⟩
      rcases List.mem_cons.mp hy with rfl | hy
      · exact le_trans (le_max_right x y) hfirst
      · exact hrest y hy

/-- Every limited window fits into the horizon. -/
theorem span_le_horizon (h : (limits.window key).limit = some limit) :
    (limits.window key).spanMs ≤ horizonMs limits := by
  have hmem : (limits.window key).spanMs ∈
      ((windowKeys.map limits.window).filter (·.limit.isSome)).map (·.spanMs) := by
    refine List.mem_map.mpr ⟨_, List.mem_filter.mpr ⟨?_, by rw [h]; rfl⟩, rfl⟩
    exact List.mem_map.mpr ⟨key, mem_windowKeys key, rfl⟩
  rw [horizonMs]
  split
  · rename_i hnil
    rw [hnil] at hmem
    cases hmem
  · rename_i span rest hspans
    rw [hspans] at hmem
    rcases List.mem_cons.mp hmem with heq | hrest
    · exact heq ▸ le_foldl_max.1
    · exact le_foldl_max.2 _ hrest

/-- The shares of all workers fit into the account. -/
theorem workers_mul_share_le : max 1 policy.workerCount * perWorkerOf policy limit ≤ limit :=
  Nat.mul_div_le limit _

/-- The reserve is a part of the share. -/
theorem reserve_mem (hpolicy : policy.Fractional) (hlimit : limit < 2 ^ 53) :
    0 ≤ reserveOf policy limit ∧ reserveOf policy limit ≤ perWorkerOf policy limit := by
  have hshare : perWorkerOf policy limit < 2 ^ 53 := (Nat.div_le_self _ _).trans_lt hlimit
  have hpart : 0 ≤ (perWorkerOf policy limit : ℚ) * policy.recoveryReserveFraction :=
    mul_nonneg (Nat.cast_nonneg _) hpolicy.1
  rw [reserveOf, rounded_of_nonneg hpart]
  refine ⟨Int.ceil_nonneg (nearest_nonneg hpart), Int.ceil_le.mpr ?_⟩
  exact_mod_cast nearest_natCast_mul_le hshare hpolicy.1 hpolicy.2

theorem placement_le_share (hpolicy : policy.Fractional) (hlimit : limit < 2 ^ 53) :
    placementOf policy limit ≤ perWorkerOf policy limit := by
  have hreserve := (reserve_mem hpolicy hlimit).1
  rw [placementOf]
  omega

/-- Every limit is a number that the language counts with exactly. -/
def BrokerRateLimits.Counted (limits : BrokerRateLimits) : Prop :=
  ∀ key, ∀ limit ∈ (limits.window key).limit, limit < 2 ^ 53

/-- The ceiling of a class in a window with a limit. -/
def ceilingOf (policy : OrderBudgetPolicy) (klass : BrokerEndpointClass) (limit : Nat) : Nat :=
  if isRecovery klass then perWorkerOf policy limit else placementOf policy limit

theorem breaches_budgetOf : l.breaches klass now (budgetOf limits policy key) = true ↔
    ∃ limit, (limits.window key).limit = some limit ∧
      ceilingOf policy klass limit ≤ l.countWithin now (limits.window key).spanMs := by
  rw [RateBudgetLedger.breaches, budgetOf]
  cases hlimit : (limits.window key).limit with
  | none => simp
  | some limit =>
      simp only [RateBudgetLedger.ceiling, ceilingOf, placementOf]
      cases isRecovery klass <;> simp

/-- What a check leaves of the ledger, and when it allows an order request. -/
theorem check_spec (hcooldown : l.inCooldown now = false) (horder : isOrderEndpoint klass = true) :
    (l.check limits policy klass now).2 = l.prune limits now ∧
      ((l.check limits policy klass now).1.allowed = true ↔
        ∀ key limit, (limits.window key).limit = some limit →
          (l.prune limits now).countWithin now (limits.window key).spanMs <
            ceilingOf policy klass limit) := by
  rw [RateBudgetLedger.check, horder, hcooldown]
  simp only [Bool.true_eq_false, if_false, Bool.false_eq_true]
  have hfound : ∀ budget, budget ∈ placementBudgets limits policy ↔
      ∃ key, budgetOf limits policy key = budget := by
    intro budget
    simp [placementBudgets, mem_windowKeys]
  cases hfind : (placementBudgets limits policy).find?
      ((l.prune limits now).breaches klass now) with
  | some budget =>
      refine ⟨rfl, iff_of_false nofun fun hall => ?_⟩
      obtain ⟨key, rfl⟩ := (hfound budget).mp (List.mem_of_find?_eq_some hfind)
      obtain ⟨limit, hlimit, hused⟩ := breaches_budgetOf.mp (List.find?_some hfind)
      exact absurd (hall key limit hlimit) (not_lt.mpr hused)
  | none =>
      refine ⟨rfl, iff_of_true rfl fun key limit hlimit => ?_⟩
      have hnone := List.find?_eq_none.mp hfind _ ((hfound _).mpr ⟨key, rfl⟩)
      refine not_le.mp fun hused => hnone (breaches_budgetOf.mpr ⟨limit, hlimit, hused⟩)

end Limits

/-- The instants of the selected requests, from the newest. -/
def sentTimes (log : List (Sent n)) (select : Sent n → Bool) : List ℚ :=
  (log.filter select).map (·.sentAt)

def placements (w : Fin n) (e : Sent n) : Bool := decide (e.worker = w) && !isRecovery e.klass

def recoveries (w : Fin n) (e : Sent n) : Bool := decide (e.worker = w) && isRecovery e.klass

section Log

variable {log : List (Sent n)} {select : Sent n → Bool} {e : Sent n} {w : Fin n} {span now : ℚ}

theorem countP_sentTimes (p : ℚ → Bool) :
    (sentTimes log select).countP p = log.countP fun e => p e.sentAt && select e := by
  rw [sentTimes, List.countP_map, List.countP_filter]
  rfl

theorem sentTimes_cons : sentTimes (e :: log) select =
    if select e then e.sentAt :: sentTimes log select else sentTimes log select := by
  rw [sentTimes, List.filter_cons]
  split <;> rfl

theorem recent_worker : recent span now (sentTimes log fun e => e.worker = w) =
    recent span now (sentTimes log (placements w)) +
      recent span now (sentTimes log (recoveries w)) := by
  induction log with
  | nil => rfl
  | cons e rest ih =>
      rw [sentTimes_cons, sentTimes_cons, sentTimes_cons]
      by_cases hw : e.worker = w
      · cases hr : isRecovery e.klass <;>
          simp only [placements, recoveries, hw, hr, decide_true, Bool.and_true, Bool.and_false,
            Bool.not_true, Bool.not_false, Bool.false_eq_true, if_true, if_false] <;>
          simp only [recent, List.countP_cons] at ih ⊢ <;> omega
      · simp only [placements, recoveries, hw, decide_false, Bool.false_and, Bool.false_eq_true,
          if_false]
        exact ih

end Log

/-- The instants a ledger has forgotten had left the longest window. -/
def Remembers (limits : BrokerRateLimits) (clock : ℚ) (times kept : List ℚ) : Prop :=
  ∃ dropped : List ℚ, times.reverse = dropped ++ kept ∧ ∀ t ∈ dropped, t ≤ clock - horizonMs limits

section Remembers

variable {clock later span : ℚ} {times kept : List ℚ}

theorem Remembers.wait (h : Remembers limits clock times kept) (hle : clock ≤ later) :
    Remembers limits later times kept := by
  obtain ⟨dropped, htimes, hold⟩ := h
  exact ⟨dropped, htimes, fun t ht => le_trans (hold t ht) (sub_le_sub_right hle _)⟩

theorem Remembers.prune (h : Remembers limits clock times kept) :
    Remembers limits clock times (kept.dropWhile (· ≤ clock - horizonMs limits)) := by
  obtain ⟨dropped, htimes, hold⟩ := h
  refine ⟨dropped ++ kept.takeWhile (· ≤ clock - horizonMs limits), ?_, fun t ht => ?_⟩
  · rw [List.append_assoc, List.takeWhile_append_dropWhile, htimes]
  · rcases List.mem_append.mp ht with ht | ht
    · exact hold t ht
    · have hcut := List.mem_takeWhile_imp (p := fun t => decide (t ≤ clock - horizonMs limits)) ht
      exact of_decide_eq_true hcut

theorem Remembers.push (h : Remembers limits clock times kept) (t : ℚ) :
    Remembers limits clock (t :: times) (kept ++ [t]) := by
  obtain ⟨dropped, htimes, hold⟩ := h
  exact ⟨dropped, by rw [List.reverse_cons, htimes, List.append_assoc], hold⟩

/-- A ledger counts in every limited window, now and later, what was sent in it. -/
theorem Remembers.recent_eq (h : Remembers limits clock times kept)
    (hspan : span ≤ horizonMs limits) (hle : clock ≤ later) :
    recent span later kept = recent span later times := by
  obtain ⟨dropped, htimes, hold⟩ := h
  have hgone : ∀ t ∈ dropped, t ≤ clock - span :=
    fun t ht => le_trans (hold t ht) (sub_le_sub_left hspan clock)
  calc recent span later kept
      = recent span later times.reverse := by rw [htimes, recent_append_of_old hgone hle]
    _ = recent span later times := recent_reverse

end Remembers

/-- What holds between the ledger of a worker and the log. -/
structure Kept (limits : BrokerRateLimits) (policy : OrderBudgetPolicy) (clock : ℚ)
    (log : List (Sent n)) (w : Fin n) (l : RateBudgetLedger) : Prop where
  placed : Remembers limits clock (sentTimes log (placements w)) l.placementTimes
  recovered : Remembers limits clock (sentTimes log (recoveries w)) l.recoveryTimes
  paced : ∀ key limit, (limits.window key).limit = some limit →
    Paced (limits.window key).spanMs (perWorkerOf policy limit)
      (sentTimes log fun e => e.worker = w)
  placementPaced : ∀ key limit, (limits.window key).limit = some limit →
    Paced (limits.window key).spanMs (placementOf policy limit) (sentTimes log (placements w))

section Kept

variable {clock later : ℚ} {log : List (Sent n)} {w v : Fin n} {l : RateBudgetLedger}
variable {key : WindowKey} {limit : Nat} {klass : BrokerEndpointClass}

theorem Kept.countWithin (h : Kept limits policy clock log w l)
    (hlimit : (limits.window key).limit = some limit) (hle : clock ≤ later) :
    l.countWithin later (limits.window key).spanMs =
      recent (limits.window key).spanMs later (sentTimes log fun e => e.worker = w) := by
  have hspan := span_le_horizon hlimit
  rw [RateBudgetLedger.countWithin, h.placed.recent_eq hspan hle, h.recovered.recent_eq hspan hle,
    recent_worker]

theorem Kept.wait (h : Kept limits policy clock log w l) (hle : clock ≤ later) :
    Kept limits policy later log w l :=
  ⟨h.placed.wait hle, h.recovered.wait hle, h.paced, h.placementPaced⟩

theorem Kept.prune (h : Kept limits policy clock log w l) :
    Kept limits policy clock log w (l.prune limits clock) :=
  ⟨h.placed.prune, h.recovered.prune, h.paced, h.placementPaced⟩

/-- Another worker's request does not concern this one. -/
theorem Kept.other (h : Kept limits policy clock log w l) {e : Sent n} (he : e.worker ≠ w) :
    Kept limits policy clock (e :: log) w l := by
  have hplaced : placements w e = false := by simp [placements, he]
  have hrecovered : recoveries w e = false := by simp [recoveries, he]
  refine ⟨?_, ?_, fun key limit hlimit => ?_, fun key limit hlimit => ?_⟩
  · rw [sentTimes_cons, hplaced]
    exact h.placed
  · rw [sentTimes_cons, hrecovered]
    exact h.recovered
  · rw [sentTimes_cons, if_neg (by simpa using he)]
    exact h.paced key limit hlimit
  · rw [sentTimes_cons, hplaced]
    exact h.placementPaced key limit hlimit

/-- A request that a check allowed keeps the pace of its worker. -/
theorem Kept.record (h : Kept limits policy clock log w l) (hpolicy : policy.Fractional)
    (hlimits : limits.Counted) (horder : isOrderEndpoint klass = true)
    (hallowed : ∀ key limit, (limits.window key).limit = some limit →
      l.countWithin clock (limits.window key).spanMs < ceilingOf policy klass limit) :
    Kept limits policy clock (⟨w, klass, clock⟩ :: log) w (l.record limits klass clock) := by
  have hshare : ∀ key limit, (limits.window key).limit = some limit →
      ceilingOf policy klass limit ≤ perWorkerOf policy limit := by
    intro key limit hlimit
    rw [ceilingOf.eq_def]
    split
    · exact le_rfl
    · exact placement_le_share hpolicy (hlimits key limit hlimit)
  have hpaced : ∀ key limit, (limits.window key).limit = some limit →
      Paced (limits.window key).spanMs (perWorkerOf policy limit)
        (sentTimes (⟨w, klass, clock⟩ :: log) fun e => e.worker = w) := by
    intro key limit hlimit
    rw [sentTimes_cons, if_pos (by simp)]
    refine ⟨?_, h.paced key limit hlimit⟩
    rw [← h.countWithin hlimit (le_refl clock)]
    exact lt_of_lt_of_le (hallowed key limit hlimit) (hshare key limit hlimit)
  rw [RateBudgetLedger.record, horder]
  cases hrecovery : isRecovery klass with
  | true =>
      have hplaced : placements w ⟨w, klass, clock⟩ = false := by simp [placements, hrecovery]
      have hrecovered : recoveries w ⟨w, klass, clock⟩ = true := by simp [recoveries, hrecovery]
      refine ⟨?_, ?_, hpaced, fun key limit hlimit => ?_⟩
      · rw [sentTimes_cons, hplaced]
        exact h.placed.prune
      · rw [sentTimes_cons, hrecovered]
        exact (h.recovered.push clock).prune
      · rw [sentTimes_cons, hplaced]
        exact h.placementPaced key limit hlimit
  | false =>
      have hplaced : placements w ⟨w, klass, clock⟩ = true := by simp [placements, hrecovery]
      have hrecovered : recoveries w ⟨w, klass, clock⟩ = false := by simp [recoveries, hrecovery]
      refine ⟨?_, ?_, hpaced, fun key limit hlimit => ?_⟩
      · rw [sentTimes_cons, hplaced]
        exact (h.placed.push clock).prune
      · rw [sentTimes_cons, hrecovered]
        exact h.recovered.prune
      · rw [sentTimes_cons, hplaced]
        refine ⟨?_, h.placementPaced key limit hlimit⟩
        have hused := hallowed key limit hlimit
        rw [h.countWithin hlimit (le_refl clock), recent_worker, ceilingOf, hrecovery] at hused
        exact lt_of_le_of_lt (Nat.le_add_right _ _) hused

end Kept

/-- The two half-open intervals of a length from an instant. -/
def halfOpen (a span : ℚ) : List (ℚ → Bool) :=
  [fun t => decide (a ≤ t ∧ t < a + span), fun t => decide (a < t ∧ t ≤ a + span)]

theorem paced_halfOpen_le {span : ℚ} {limit : Nat} {times : List ℚ} (h : Paced span limit times)
    {a : ℚ} {interval : ℚ → Bool} (hinterval : interval ∈ halfOpen a span) :
    times.countP interval ≤ limit := by
  rcases List.mem_pair.mp hinterval with rfl | rfl
  · exact h.countP_Ico_le a
  · exact h.countP_Ioc_le a

/-- The budget is kept in every window, the reserve is there for recovery, and pruning forgets
nothing that counts. -/
structure WithinBudget (limits : BrokerRateLimits) (policy : OrderBudgetPolicy) (s : Account n) :
    Prop where
  account : ∀ key limit, (limits.window key).limit = some limit →
    ∀ a, ∀ interval ∈ halfOpen a (limits.window key).spanMs,
      (s.log.countP fun e => interval e.sentAt) ≤ limit
  placement : ∀ key limit, (limits.window key).limit = some limit →
    ∃ ceiling, (budgetOf limits policy key).placementLimit = some ceiling ∧
      ∀ w a, ∀ interval ∈ halfOpen a (limits.window key).spanMs,
        (s.log.countP fun e => interval e.sentAt && placements w e) ≤ ceiling
  reserve : ∀ w klass, isRecovery klass = true → (s.ledgers w).inCooldown s.clock = false →
    ((s.ledgers w).check limits policy klass s.clock).1.allowed = false →
      ∃ key limit, (limits.window key).limit = some limit ∧
        (budgetOf limits policy key).recoveryReserve ≤ s.log.countP fun e =>
          decide (s.clock - (limits.window key).spanMs < e.sentAt ∧ e.sentAt ≤ s.clock) &&
            recoveries w e
  pruned : ∀ key limit, (limits.window key).limit = some limit →
    ∀ w later, s.clock ≤ later →
      (s.ledgers w).countWithin later (limits.window key).spanMs =
        s.log.countP fun e => decide (later - (limits.window key).spanMs < e.sentAt) &&
          decide (e.worker = w)

/-- The ledger of every worker is kept, and nothing was sent in the future. -/
structure Sound (limits : BrokerRateLimits) (policy : OrderBudgetPolicy) (s : Account n) :
    Prop where
  kept : ∀ w, Kept limits policy s.clock s.log w (s.ledgers w)
  past : ∀ e ∈ s.log, e.sentAt ≤ s.clock

section Account

variable {s s' : Account n} {label : Label n} {key : WindowKey} {limit : Nat}
variable {l : RateBudgetLedger} {klass : BrokerEndpointClass} {now : ℚ}

theorem budgetOf_limited (hlimit : (limits.window key).limit = some limit) :
    budgetOf limits policy key = ⟨key, (limits.window key).spanMs, some limit,
      some (perWorkerOf policy limit), some (placementOf policy limit),
      reserveOf policy limit⟩ := by
  rw [budgetOf, hlimit]

/-- A check changes a ledger by pruning at most. -/
theorem check_ledger : (l.check limits policy klass now).2 = l ∨
    (l.check limits policy klass now).2 = l.prune limits now := by
  by_cases horder : isOrderEndpoint klass = true
  · cases hcooldown : l.inCooldown now with
    | true =>
        left
        rw [RateBudgetLedger.check, horder, hcooldown]
        rfl
    | false => exact .inr (check_spec hcooldown horder).1
  · left
    rw [RateBudgetLedger.check, if_pos (by simpa using horder)]

theorem Sound.update (h : Sound limits policy s) {w : Fin n}
    (hl : Kept limits policy s.clock s.log w l) : Sound limits policy (s.update w l) := by
  refine ⟨fun v => ?_, h.past⟩
  by_cases hv : v = w
  · subst hv
    simpa [Account.update] using hl
  · simpa [Account.update, hv] using h.kept v

theorem sound_check (h : Sound limits policy s) (w : Fin n) (klass : BrokerEndpointClass) :
    Sound limits policy
      (s.update w ((s.ledgers w).check limits policy klass s.clock).2) := by
  refine h.update ?_
  rcases @check_ledger limits policy (s.ledgers w) klass s.clock with hsame | hpruned
  · exact hsame.symm ▸ h.kept w
  · exact hpruned.symm ▸ (h.kept w).prune

/-- A request that is allowed is sent and recorded at once. -/
theorem sound_send {w : Fin n} (h : Sound limits policy s) (hpolicy : policy.Fractional)
    (hlimits : limits.Counted) (horder : isOrderEndpoint klass = true)
    (hallowed : ((s.ledgers w).check limits policy klass s.clock).1.allowed = true) :
    Sound limits policy { s.update w
      (((s.ledgers w).check limits policy klass s.clock).2.record limits klass s.clock) with
        log := ⟨w, klass, s.clock⟩ :: s.log } := by
  have hcooldown : (s.ledgers w).inCooldown s.clock = false := by
    by_contra hcool
    rw [RateBudgetLedger.check, horder, if_neg (by simp), if_pos (by simpa using hcool)]
      at hallowed
    cases hallowed
  obtain ⟨hledger, hfits⟩ := @check_spec limits policy _ _ _ hcooldown horder
  rw [hledger]
  have hrecorded := (h.kept w).prune.record hpolicy hlimits horder (hfits.mp hallowed)
  refine ⟨fun v => ?_, fun e he => ?_⟩
  · by_cases hv : v = w
    · subst hv
      simpa [Account.update] using hrecorded
    · simpa [Account.update, hv] using (h.kept v).other (Ne.symm hv)
  · rcases List.mem_cons.mp he with rfl | he
    · exact le_refl _
    · exact h.past e he

theorem sound_step (h : Sound limits policy s) (hpolicy : policy.Fractional)
    (hlimits : limits.Counted) (hstep : s.step limits policy label = some s') :
    Sound limits policy s' := by
  cases label with
  | tick now =>
      simp only [Account.step] at hstep
      split at hstep
      · rename_i hle
        obtain rfl := Option.some.inj hstep
        exact ⟨fun w => (h.kept w).wait hle, fun e he => le_trans (h.past e he) hle⟩
      · cases hstep
  | check worker klass =>
      obtain rfl := Option.some.inj hstep
      exact sound_check h worker klass
  | penalize worker retryAfterMs =>
      obtain rfl := Option.some.inj hstep
      refine h.update ?_
      have hkept := h.kept worker
      rw [RateBudgetLedger.penalize]
      split
      · exact ⟨hkept.placed, hkept.recovered, hkept.paced, hkept.placementPaced⟩
      · exact hkept
  | snapshot worker =>
      obtain rfl := Option.some.inj hstep
      exact h.update (h.kept worker).prune
  | request worker klass =>
      simp only [Account.step] at hstep
      have hasked := sound_check h worker klass
      split at hstep
      · rename_i hallowed
        obtain rfl := Option.some.inj hstep
        by_cases horder : isOrderEndpoint klass = true
        · rw [if_pos horder]
          exact sound_send h hpolicy hlimits horder hallowed
        · rw [if_neg horder, RateBudgetLedger.record, if_pos (by simpa using horder)]
          exact hasked
      · obtain rfl := Option.some.inj hstep
        exact hasked

theorem Sound.account (h : Sound limits policy s) (hn : n ≤ max 1 policy.workerCount)
    (hlimit : (limits.window key).limit = some limit) {a : ℚ} {interval : ℚ → Bool}
    (hinterval : interval ∈ halfOpen a (limits.window key).spanMs) :
    (s.log.countP fun e => interval e.sentAt) ≤ limit := by
  have hworker : ∀ w : Fin n, (s.log.countP fun e => interval e.sentAt && decide (e.worker = w)) ≤
      perWorkerOf policy limit := by
    intro w
    rw [← countP_sentTimes]
    exact paced_halfOpen_le ((h.kept w).paced key limit hlimit) hinterval
  calc (s.log.countP fun e => interval e.sentAt)
      = ∑ w, s.log.countP fun e => interval e.sentAt && decide (e.worker = w) :=
        countP_eq_sum _ _ _
    _ ≤ ∑ _w : Fin n, perWorkerOf policy limit := Finset.sum_le_sum fun w _ => hworker w
    _ = n * perWorkerOf policy limit := by simp
    _ ≤ max 1 policy.workerCount * perWorkerOf policy limit := Nat.mul_le_mul_right _ hn
    _ ≤ limit := workers_mul_share_le

theorem Sound.placement (h : Sound limits policy s)
    (hlimit : (limits.window key).limit = some limit) (w : Fin n) {a : ℚ} {interval : ℚ → Bool}
    (hinterval : interval ∈ halfOpen a (limits.window key).spanMs) :
    (s.log.countP fun e => interval e.sentAt && placements w e) ≤ placementOf policy limit := by
  rw [← countP_sentTimes]
  exact paced_halfOpen_le ((h.kept w).placementPaced key limit hlimit) hinterval

/-- Nothing lies beyond the clock, so the window that ends now is a half-open interval. -/
theorem Sound.recent_eq (h : Sound limits policy s) {span : ℚ} {select : Sent n → Bool} :
    recent span s.clock (sentTimes s.log select) = (sentTimes s.log select).countP
      fun t => decide (s.clock - span < t ∧ t ≤ s.clock - span + span) := by
  refine List.countP_congr fun t ht => ?_
  obtain ⟨e, he, rfl⟩ := List.mem_map.mp ht
  have hpast := h.past e (List.mem_of_mem_filter he)
  rw [sub_add_cancel]
  simp [hpast]

/-- A cancel or modification that is refused without a cooldown finds its worker's share used
up, of which placements can have used no more than the share less the reserve. -/
theorem Sound.reserve (h : Sound limits policy s) (hpolicy : policy.Fractional)
    (hlimits : limits.Counted) (w : Fin n) (hrecovery : isRecovery klass = true)
    (hcooldown : (s.ledgers w).inCooldown s.clock = false)
    (hrefused : ((s.ledgers w).check limits policy klass s.clock).1.allowed = false) :
    ∃ key limit, (limits.window key).limit = some limit ∧
      (budgetOf limits policy key).recoveryReserve ≤ s.log.countP fun e =>
        decide (s.clock - (limits.window key).spanMs < e.sentAt ∧ e.sentAt ≤ s.clock) &&
          recoveries w e := by
  have horder : isOrderEndpoint klass = true := by cases klass <;> first | rfl | cases hrecovery
  obtain ⟨-, hallowed⟩ := @check_spec limits policy _ _ _ hcooldown horder
  have hnot : ¬∀ key limit, (limits.window key).limit = some limit →
      ((s.ledgers w).prune limits s.clock).countWithin s.clock (limits.window key).spanMs <
        ceilingOf policy klass limit := by
    rw [← hallowed, hrefused]
    exact Bool.false_ne_true
  push Not at hnot
  obtain ⟨key, limit, hwindow, hused⟩ := hnot
  rw [ceilingOf, if_pos hrecovery, (h.kept w).prune.countWithin hwindow (le_refl _),
    recent_worker] at hused
  have hplaced : recent (limits.window key).spanMs s.clock (sentTimes s.log (placements w)) ≤
      placementOf policy limit := by
    rw [h.recent_eq]
    exact paced_halfOpen_le ((h.kept w).placementPaced key limit hwindow)
      (List.mem_pair.mpr (.inr rfl))
  have hrecovered : reserveOf policy limit ≤
      recent (limits.window key).spanMs s.clock (sentTimes s.log (recoveries w)) := by
    have hshare := reserve_mem hpolicy (hlimits key limit hwindow)
    rw [placementOf] at hplaced
    omega
  refine ⟨key, limit, hwindow, ?_⟩
  rw [h.recent_eq, countP_sentTimes, sub_add_cancel] at hrecovered
  rw [budgetOf_limited hwindow]
  exact hrecovered

/-- A later count of a ledger is a count over all its worker sent. -/
theorem Sound.pruned (h : Sound limits policy s) (hlimit : (limits.window key).limit = some limit)
    (w : Fin n) {later : ℚ} (hle : s.clock ≤ later) :
    (s.ledgers w).countWithin later (limits.window key).spanMs =
      s.log.countP fun e => decide (later - (limits.window key).spanMs < e.sentAt) &&
        decide (e.worker = w) := by
  rw [(h.kept w).countWithin hlimit hle, recent, countP_sentTimes]

theorem Sound.withinBudget (h : Sound limits policy s) (hpolicy : policy.Fractional)
    (hlimits : limits.Counted) (hn : n ≤ max 1 policy.workerCount) :
    WithinBudget limits policy s where
  account _ _ hlimit _ _ hinterval := h.account hn hlimit hinterval
  placement _ _ hlimit :=
    ⟨_, by rw [budgetOf_limited hlimit], fun w _ _ hinterval => h.placement hlimit w hinterval⟩
  reserve w _ hrecovery hcooldown hrefused :=
    h.reserve hpolicy hlimits w hrecovery hcooldown hrefused
  pruned _ _ hlimit w _ hle := h.pruned hlimit w hle

/-- Nothing was sent yet. -/
theorem sound_start {clock : ℚ} : Sound limits policy ({ clock := clock } : Account n) :=
  ⟨fun _ => ⟨⟨[], rfl, nofun⟩, ⟨[], rfl, nofun⟩, fun _ _ _ => trivial, fun _ _ _ => trivial⟩, nofun⟩

end Account

/-- Whatever the limits, the policy and the order of the requests of all workers, the budget is
kept in every state of the run. -/
theorem Account.budget_kept (limits : BrokerRateLimits) (policy : OrderBudgetPolicy) (clock : ℚ)
    (labels : List (Label (max 1 policy.workerCount))) (hpolicy : policy.Fractional)
    (hlimits : limits.Counted) :
    Throughout (Account.step limits policy) (WithinBudget limits policy) { clock := clock }
      labels := by
  have hsound : Throughout (Account.step limits policy) (Sound limits policy) { clock := clock }
      labels :=
    .of_invariant (fun _ _ _ h hstep => sound_step h hpolicy hlimits hstep) sound_start
  exact hsound.mono fun _ h => h.withinBudget hpolicy hlimits (le_refl _)

namespace Sample

/-- Ten requests a second, 400 a minute, any number an hour and 5000 a day. -/
def accountLimits : BrokerRateLimits where
  perSecond := ⟨1000, some 10⟩
  perMinute := ⟨60 * 1000, some 400⟩
  perHour := ⟨60 * 60 * 1000, none⟩
  perDay := ⟨day, some 5000⟩

def sharedPolicy : OrderBudgetPolicy := resolveOrderBudgetPolicy (some (.finite 2)) none

theorem counted_accountLimits : accountLimits.Counted := by
  intro key limit hlimit
  have hle : limit ≤ 5000 := by
    cases key <;> simp [BrokerRateLimits.window, accountLimits] at hlimit <;> omega
  omega

def first : Fin (max 1 sharedPolicy.workerCount) := ⟨0, by decide +kernel⟩

def second : Fin (max 1 sharedPolicy.workerCount) := ⟨1, by decide +kernel⟩

/-- Of the five a second that are a worker's share, one is kept for its cancel. -/
def labels : List (Label (max 1 sharedPolicy.workerCount)) :=
  List.replicate 5 (.request first .orderPlace) ++
    [.request first .orderCancel, .request second .orderPlace, .tick 999,
      .request first .orderCancel, .tick 1000, .request first .orderPlace]

end Sample

open Sample in
/-- The first worker places four and cancels one. Its fifth placement and second cancel are
refused, until a second has passed. -/
theorem Account.budget_kept_of_two :
    (run (Account.step accountLimits sharedPolicy) { clock := 0 } labels).map (fun s =>
        s.log.map fun e => (e.worker.val, e.klass, e.sentAt)) =
      some [(0, .orderPlace, 1000), (1, .orderPlace, 0), (0, .orderCancel, 0), (0, .orderPlace, 0),
        (0, .orderPlace, 0), (0, .orderPlace, 0), (0, .orderPlace, 0)] ∧
    Throughout (Account.step accountLimits sharedPolicy) (WithinBudget accountLimits sharedPolicy)
      { clock := 0 } labels :=
  ⟨by decide +kernel, budget_kept accountLimits sharedPolicy 0 labels (fractional_resolve _ _)
    counted_accountLimits⟩

end Strikedge.BrokerPacing
