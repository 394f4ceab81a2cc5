import Mathlib.Tactic.Linarith
import Strikedge.Machine.Slots
import Strikedge.PaperLegs.PaperSchedule

/-!
# The laws of a paper schedule

The clocks of the slots never go back, and the planner serves the earliest of them. What it has
scheduled therefore ended on its slot before the next operation there begins, was dequeued no
later than the operations it was preferred to, and found every slot busy while it waited.
-/

namespace Strikedge.PaperSchedule

open Machine

section Laws

variable {policy : ExecutionSchedulingPolicy} {s t : Planner}
variable {operations : List SchedulableOperation}
variable {i j k slot : ℕ} {row other : Row} {a b : ScheduledOperation}

/-- The stages of a timeline are in their order, from the queue to the end. -/
structure ScheduledOperation.Staged (a : ScheduledOperation) : Prop where
  dequeued : a.queuedAt ≤ a.dequeuedAt
  persisted : a.dequeuedAt ≤ a.persistedAt
  posted : a.persistedAt ≤ a.postStartedAt
  acked : a.postStartedAt ≤ a.ackAt
  terminal : a.ackAt ≤ a.terminalAt

theorem ScheduledOperation.Staged.dequeued_le_terminal (h : a.Staged) :
    a.dequeuedAt ≤ a.terminalAt :=
  h.persisted.trans (h.posted.trans (h.acked.trans h.terminal))

theorem timeline_staged (slot : ℕ) (available transportFreeAt : Clock) (row : Row) :
    (timeline slot available transportFreeAt row).Staged where
  dequeued := Clock.le_later _ _
  persisted := le_add_of_nonneg_right (persistence_nonneg _)
  posted := Clock.le_later _ _
  acked := le_add_of_nonneg_right (le_max_left _ _)
  terminal := le_add_of_nonneg_right (le_max_left _ _)

theorem dequeuedAt_timeline {available transportFreeAt : Clock} :
    (timeline slot available transportFreeAt row).dequeuedAt =
      available.later row.op.readyAt := rfl

theorem eps_pos : 0 < eps := by
  norm_num [eps]

namespace Planner

/-- The operation at the index has its timeline. -/
def Placed (s : Planner) (i : ℕ) (a : ScheduledOperation) : Prop :=
  ∃ row, s.rows[i]? = some row ∧ row.result = some a

/-- The operation at the index is not yet scheduled. -/
def Waiting (s : Planner) (i : ℕ) (row : Row) : Prop :=
  s.rows[i]? = some row ∧ row.result = none

/-- What a turn does. -/
inductive Move (policy : ExecutionSchedulingPolicy) (s : Planner) : Planner → Prop
  | idle (slot : ℕ) (earliest : ℚ) (hslot : slot < policy.cap)
      (hnext : ∃ i row, s.Waiting i row ∧ row.op.readyAt = earliest)
      (hlater : ∀ i row, s.Waiting i row → earliest ≤ row.op.readyAt)
      (hlate : s.slotFreeAt slot + (eps : Clock) < (earliest : Clock)) :
      Move policy s (s.idle slot earliest)
  | assign (slot i : ℕ) (row : Row) (available : ℚ) (hslot : slot < policy.cap)
      (hfree : s.slotFreeAt slot = (available : Clock))
      (hfirst : ∀ k < policy.cap, (available : Clock) ≤ s.slotFreeAt k)
      (hwaits : s.Waiting i row) (hready : row.op.readyAt ≤ available + eps)
      (hbest : ∀ j other, s.Waiting j other → other.op.readyAt ≤ available + eps →
        ¬ compareScheduling other.key row.key < 0) :
      Move policy s (s.assign policy slot i row)

theorem mem_zipIdx_iff : (row, i) ∈ s.rows.zipIdx ∧ row.result = none ↔ s.Waiting i row := by
  rw [List.mem_zipIdx_iff_getElem?, Waiting]

theorem exists_waiting (h : s.unfinished = true) : ∃ i row, s.Waiting i row := by
  obtain ⟨row, hrow, hnone⟩ := List.any_eq_true.mp h
  obtain ⟨i, hi, rfl⟩ := List.getElem_of_mem hrow
  exact ⟨i, _, List.getElem?_eq_getElem hi, Option.isNone_iff_eq_none.mp hnone⟩

theorem step_move (h : s.unfinished = true) : Move policy s (s.step policy) := by
  have hcap := one_le_cap policy
  rw [step]
  generalize hchosen : earliestSlot s.slotFreeAt (policy.cap - 1) = slot
  have hslot : slot < policy.cap := by
    have hle := earliestSlot_le s.slotFreeAt (policy.cap - 1)
    omega
  have hfirst : ∀ k < policy.cap, s.slotFreeAt slot ≤ s.slotFreeAt k := by
    intro k hk
    rw [← hchosen]
    exact clock_earliestSlot_le (by omega)
  have hsaw := scan_saw (s.slotFreeAt slot) s.rows
  have hwaiting : ∀ i row, s.Waiting i row → (row, i) ∈ s.rows.zipIdx :=
    fun i row hw => (mem_zipIdx_iff.mpr hw).1
  split
  · rename_i i row _ hscan
    rw [hscan] at hsaw
    obtain ⟨⟨hmem, hnone, hready⟩, hbest⟩ := hsaw.best i row rfl
    cases hfree : s.slotFreeAt slot using WithBot.recBotCoe with
    | bot => exact absurd (by simp [hfree]) hready
    | coe available =>
      rw [hfree] at hready hbest
      have hsoon : ∀ ready : ℚ, ready ≤ available + eps →
          ¬ (available : Clock) + (eps : Clock) < (ready : Clock) := by
        intro ready hle
        exact not_lt.mpr (by exact_mod_cast hle)
      refine .assign slot i row available hslot hfree (fun k hk => hfree ▸ hfirst k hk)
        (mem_zipIdx_iff.mp ⟨hmem, hnone⟩) ?_ ?_
      · exact_mod_cast not_lt.mp hready
      · intro j other hother hsooner
        exact hbest (other, j) (hwaiting j other hother) hother.2 (hsoon _ hsooner)
  · rename_i earliest hscan
    rw [hscan] at hsaw
    obtain ⟨⟨⟨row, i⟩, hmem, hnone, hready⟩, hlater⟩ := hsaw.earliest earliest rfl
    refine .idle slot earliest hslot ⟨i, row, mem_zipIdx_iff.mp ⟨hmem, hnone⟩, hready⟩ ?_ ?_
    · intro j other hother
      exact hlater (other, j) (hwaiting j other hother) hother.2
    · have hlate := hsaw.noneReady rfl (row, i) hmem hnone
      rwa [hready] at hlate
  · rename_i hscan
    rw [hscan] at hsaw
    obtain ⟨i, row, hw⟩ := exists_waiting h
    exact absurd hw.2 (hsaw.noneWaiting rfl (row, i) (hwaiting i row hw))

theorem Waiting.not_placed (h : s.Waiting i row) : ¬ s.Placed i a := by
  rintro ⟨found, hfound, hresult⟩
  obtain rfl : row = found := Option.some.inj (h.1.symm.trans hfound)
  rw [h.2] at hresult
  cases hresult

/-- The timeline the operation gets with the slot. -/
def assigned (s : Planner) (slot : ℕ) (row : Row) : ScheduledOperation :=
  timeline slot (s.slotFreeAt slot) s.transportFreeAt row

theorem getElem?_assign (h : s.Waiting i row) :
    (s.assign policy slot i row).rows[j]? =
      if i = j then some { row with result := some (s.assigned slot row) } else s.rows[j]? := by
  have hlt : i < s.rows.length := (List.getElem?_eq_some_iff.mp h.1).1
  simp only [assign, List.getElem?_set, hlt, if_true, assigned]

theorem placed_assign (h : s.Waiting i row) :
    (s.assign policy slot i row).Placed j b ↔
      j = i ∧ b = s.assigned slot row ∨ s.Placed j b := by
  rw [Placed, getElem?_assign h]
  by_cases hij : i = j
  · subst hij
    simp only [if_true, Option.some.injEq, exists_eq_left', true_and]
    constructor
    · exact fun hb => .inl hb.symm
    · rintro (rfl | hplaced)
      · rfl
      · exact absurd hplaced h.not_placed
  · rw [if_neg hij]
    constructor
    · exact .inr
    · rintro (⟨rfl, -⟩ | hplaced)
      · exact absurd rfl hij
      · exact hplaced

theorem waiting_assign (h : s.Waiting i row) :
    (s.assign policy slot i row).Waiting j other ↔ j ≠ i ∧ s.Waiting j other := by
  rw [Waiting, getElem?_assign h]
  by_cases hij : i = j
  · subst hij
    simp only [if_true, Option.some.injEq, ne_eq, not_true_eq_false, false_and, iff_false]
    rintro ⟨rfl, hnone⟩
    cases hnone
  · simp [hij, Ne.symm hij, Waiting]

theorem slotFreeAt_assign : (s.assign policy slot i row).slotFreeAt =
    Function.update s.slotFreeAt slot ((s.assigned slot row).terminalAt : Clock) := rfl

theorem slotFreeAt_idle {instant : ℚ} : (s.idle slot instant).slotFreeAt =
    Function.update s.slotFreeAt slot (instant : Clock) := rfl

/-- No clock goes back. -/
theorem Move.clock_le (move : Move policy s t) : s.slotFreeAt k ≤ t.slotFreeAt k := by
  cases move with
  | idle slot earliest _ _ _ hlate =>
    rw [slotFreeAt_idle, Function.update_apply]
    split
    · rename_i heq
      subst heq
      cases hfree : s.slotFreeAt k using WithBot.recBotCoe with
      | bot => exact bot_le
      | coe available =>
        rw [hfree] at hlate
        have hlt : available + eps < earliest := by exact_mod_cast hlate
        have hle : available ≤ earliest := by linarith [eps_pos]
        exact_mod_cast hle
    · exact le_refl _
  | assign slot i row available _ hfree =>
    rw [slotFreeAt_assign, Function.update_apply]
    split
    · rename_i heq
      subst heq
      rw [hfree]
      have hle : available ≤ (s.assigned k row).terminalAt := by
        have h := (timeline_staged k (s.slotFreeAt k) s.transportFreeAt row)
        have hdequeued : (s.assigned k row).dequeuedAt = max available row.op.readyAt := by
          rw [assigned, dequeuedAt_timeline, hfree, Clock.later_coe]
        have hmax := le_max_left available row.op.readyAt
        rw [← hdequeued] at hmax
        exact hmax.trans h.dequeued_le_terminal
      exact_mod_cast hle
    · exact le_refl _

theorem Move.placed (move : Move policy s t) (h : s.Placed i a) : t.Placed i a := by
  cases move with
  | idle => exact h
  | assign slot j row available _ _ _ hwaits => exact (placed_assign hwaits).mpr (.inr h)

end Planner

section Assigned

variable {available : ℚ}

theorem dequeuedAt_assigned (hfree : s.slotFreeAt slot = (available : Clock)) :
    (s.assigned slot row).dequeuedAt = max available row.op.readyAt := by
  rw [Planner.assigned, dequeuedAt_timeline, hfree, Clock.later_coe]

theorem transportFreeAt_le_assigned :
    s.transportFreeAt ≤ ((s.assigned slot row).postStartedAt : Clock) := by
  change s.transportFreeAt ≤ ((s.transportFreeAt.later _ : ℚ) : Clock)
  rw [Clock.coe_later]
  exact le_max_left _ _

@[simp] theorem slot_assigned : (s.assigned slot row).slot = slot := rfl

theorem assigned_staged : (s.assigned slot row).Staged := timeline_staged _ _ _ _

end Assigned

/-- What one slot was given does not overlap, and the slot is free after it. -/
structure Lanes (policy : ExecutionSchedulingPolicy) (s : Planner) : Prop where
  slot : ∀ i a, s.Placed i a → a.slot < policy.cap
  held : ∀ i a, s.Placed i a → (a.terminalAt : Clock) ≤ s.slotFreeAt a.slot
  apart : ∀ i j a b, i ≠ j → s.Placed i a → s.Placed j b → a.slot = b.slot →
    a.terminalAt ≤ b.dequeuedAt ∨ b.terminalAt ≤ a.dequeuedAt

theorem Lanes.move (h : Lanes policy s) (move : s.Move policy t) : Lanes policy t := by
  have hclock : ∀ k, s.slotFreeAt k ≤ t.slotFreeAt k := fun k => move.clock_le
  cases move with
  | idle slot earliest hslot =>
    exact ⟨h.slot, fun i a ha => (h.held i a ha).trans (hclock a.slot), h.apart⟩
  | assign slot i row available hslot hfree hfirst hwaits =>
    have hafter : ∀ j b, s.Placed j b → b.slot = slot →
        b.terminalAt ≤ (s.assigned slot row).dequeuedAt := by
      intro j b hb heq
      have hheld := h.held j b hb
      rw [heq, hfree] at hheld
      have hle : b.terminalAt ≤ available := by exact_mod_cast hheld
      rw [dequeuedAt_assigned hfree]
      exact hle.trans (le_max_left _ _)
    refine ⟨?_, ?_, ?_⟩
    · intro j b hb
      obtain ⟨-, rfl⟩ | hb := (Planner.placed_assign hwaits).mp hb
      · exact hslot
      · exact h.slot j b hb
    · intro j b hb
      obtain ⟨-, rfl⟩ | hb := (Planner.placed_assign hwaits).mp hb
      · rw [slot_assigned, Planner.slotFreeAt_assign, Function.update_self]
      · exact (h.held j b hb).trans (hclock b.slot)
    · intro j k a b hne hat hbt heq
      obtain ⟨rfl, rfl⟩ | ha := (Planner.placed_assign hwaits).mp hat
      · obtain ⟨rfl, rfl⟩ | hb := (Planner.placed_assign hwaits).mp hbt
        · exact absurd rfl hne
        · exact .inr (hafter k b hb heq.symm)
      · obtain ⟨rfl, rfl⟩ | hb := (Planner.placed_assign hwaits).mp hbt
        · exact .inl (hafter j a ha heq)
        · exact h.apart j k a b hne ha hb heq

/-- The posts are an interval apart, and the transport is free an interval after the last. -/
structure Paced (policy : ExecutionSchedulingPolicy) (s : Planner) : Prop where
  posted : ∀ i a, s.Placed i a →
    ((a.postStartedAt + policy.minInterval : ℚ) : Clock) ≤ s.transportFreeAt
  spaced : ∀ i j a b, i ≠ j → s.Placed i a → s.Placed j b →
    a.postStartedAt + policy.minInterval ≤ b.postStartedAt ∨
      b.postStartedAt + policy.minInterval ≤ a.postStartedAt

theorem Paced.move (h : Paced policy s) (move : s.Move policy t) : Paced policy t := by
  cases move with
  | idle slot earliest hslot => exact ⟨h.posted, h.spaced⟩
  | assign slot i row available hslot hfree hfirst hwaits =>
    have hafter : ∀ j b, s.Placed j b →
        b.postStartedAt + policy.minInterval ≤ (s.assigned slot row).postStartedAt := by
      intro j b hb
      have hle : ((b.postStartedAt + policy.minInterval : ℚ) : Clock) ≤
          ((s.assigned slot row).postStartedAt : Clock) :=
        (h.posted j b hb).trans transportFreeAt_le_assigned
      exact_mod_cast hle
    refine ⟨?_, ?_⟩
    · intro j b hb
      change _ ≤ (((s.assigned slot row).postStartedAt + policy.minInterval : ℚ) : Clock)
      obtain ⟨-, rfl⟩ | hb := (Planner.placed_assign hwaits).mp hb
      · exact le_refl _
      · have hle := (hafter j b hb).trans
          (le_add_of_nonneg_right (minInterval_nonneg policy) :
            (s.assigned slot row).postStartedAt ≤ _)
        exact_mod_cast hle
    · intro j k a b hne hat hbt
      obtain ⟨rfl, rfl⟩ | ha := (Planner.placed_assign hwaits).mp hat
      · obtain ⟨rfl, rfl⟩ | hb := (Planner.placed_assign hwaits).mp hbt
        · exact absurd rfl hne
        · exact .inr (hafter k b hb)
      · obtain ⟨rfl, rfl⟩ | hb := (Planner.placed_assign hwaits).mp hbt
        · exact .inl (hafter j a ha)
        · exact h.spaced j k a b hne ha hb

/-- What goes first and was ready was dequeued first, and what waits was not ready. No operation
was dequeued after both its ready time and the clock of some slot. -/
structure Fair (policy : ExecutionSchedulingPolicy) (s : Planner) : Prop where
  prompt : ∀ i a, s.Placed i a → ∀ k < policy.cap,
    (a.dequeuedAt : Clock) ≤ max (s.slotFreeAt k) (a.queuedAt : Clock)
  first : ∀ i j a b, s.Placed i a → s.Placed j b → compareScheduling a.key b.key < 0 →
    a.queuedAt ≤ b.dequeuedAt → a.dequeuedAt ≤ b.dequeuedAt
  later : ∀ i j row b, s.Waiting i row → s.Placed j b →
    compareScheduling row.key b.key < 0 → b.dequeuedAt < row.op.readyAt

theorem Fair.move (h : Fair policy s) (move : s.Move policy t) : Fair policy t := by
  have hclock : ∀ k, s.slotFreeAt k ≤ t.slotFreeAt k := fun k => move.clock_le
  have hprompt : ∀ i a, s.Placed i a → ∀ k < policy.cap,
      (a.dequeuedAt : Clock) ≤ max (t.slotFreeAt k) (a.queuedAt : Clock) := fun i a ha k hk =>
    (h.prompt i a ha k hk).trans (max_le_max_right _ (hclock k))
  cases move with
  | idle slot earliest hslot => exact ⟨hprompt, h.first, h.later⟩
  | assign slot i row available hslot hfree hfirst hwaits hready hbest =>
    have hdequeued : (s.assigned slot row).dequeuedAt = max available row.op.readyAt :=
      dequeuedAt_assigned hfree
    refine ⟨?_, ?_, ?_⟩
    · intro j b hb k hk
      obtain ⟨-, rfl⟩ | hb := (Planner.placed_assign hwaits).mp hb
      · have hle : ((max available row.op.readyAt : ℚ) : Clock) ≤
            max (s.slotFreeAt k) (row.op.readyAt : Clock) := by
          rw [WithBot.coe_max]
          exact max_le_max_right _ (hfirst k hk)
        rw [hdequeued]
        exact hle.trans (max_le_max_right _ (hclock k))
      · exact hprompt j b hb k hk
    · intro j k a b hat hbt hless hqueued
      obtain ⟨rfl, rfl⟩ | ha := (Planner.placed_assign hwaits).mp hat
      · obtain ⟨rfl, rfl⟩ | hb := (Planner.placed_assign hwaits).mp hbt
        · exact le_refl _
        · exact absurd hqueued (not_le.mpr (h.later j k row b hwaits hb hless))
      · obtain ⟨rfl, rfl⟩ | hb := (Planner.placed_assign hwaits).mp hbt
        · have hbefore := h.prompt j a ha slot hslot
          rw [hfree, ← WithBot.coe_max] at hbefore
          have hle : a.dequeuedAt ≤ max available a.queuedAt := by exact_mod_cast hbefore
          rw [hdequeued] at hqueued ⊢
          exact hle.trans (max_le (le_max_left _ _) hqueued)
        · exact h.first j k a b ha hb hless hqueued
    · intro j k other b hothert hbt hless
      obtain ⟨-, hother⟩ := (Planner.waiting_assign hwaits).mp hothert
      obtain ⟨rfl, rfl⟩ | hb := (Planner.placed_assign hwaits).mp hbt
      · by_contra hnot
        rw [hdequeued, not_lt] at hnot
        refine hbest j other hother (hnot.trans (max_le ?_ hready)) hless
        linarith [eps_pos]
      · exact h.later j k other b hother hb hless

/-- The operation holds the slot at the instant, or takes it within the tolerance. -/
def ScheduledOperation.Occupies (a : ScheduledOperation) (slot : ℕ) (instant : ℚ) : Prop :=
  a.slot = slot ∧ a.dequeuedAt ≤ instant + eps ∧ instant < a.terminalAt

/-- While an operation waits every slot is occupied, up to its clock where it still waits. -/
structure Busy (policy : ExecutionSchedulingPolicy) (s : Planner) : Prop where
  covered : ∀ i row, s.Waiting i row → ∀ instant : ℚ, row.op.readyAt ≤ instant →
    ∀ k < policy.cap, (instant : Clock) < s.slotFreeAt k →
      ∃ j b, s.Placed j b ∧ b.Occupies k instant
  busy : ∀ i a, s.Placed i a → ∀ instant, a.queuedAt ≤ instant → instant < a.dequeuedAt →
    ∀ k < policy.cap, ∃ j b, j ≠ i ∧ s.Placed j b ∧ b.Occupies k instant

theorem Busy.covered_idle (h : Busy policy s) {earliest : ℚ}
    (hlater : ∀ i row, s.Waiting i row → earliest ≤ row.op.readyAt) (hwaits : s.Waiting i row)
    {instant : ℚ} (hready : row.op.readyAt ≤ instant) (hk : k < policy.cap)
    (hclock : (instant : Clock) < (s.idle slot earliest).slotFreeAt k) :
    ∃ j b, s.Placed j b ∧ b.Occupies k instant := by
  rw [Planner.slotFreeAt_idle, Function.update_apply] at hclock
  split at hclock
  · have hlt : instant < earliest := by exact_mod_cast hclock
    exact absurd ((hlater i row hwaits).trans hready) (not_le.mpr hlt)
  · exact h.covered i row hwaits instant hready k hk hclock

theorem Busy.move (h : Busy policy s) (move : s.Move policy t) : Busy policy t := by
  have hplaced : ∀ j b, s.Placed j b → t.Placed j b := fun j b hb => move.placed hb
  cases move with
  | idle slot earliest hslot hnext hlater =>
    refine ⟨?_, h.busy⟩
    intro i row hwaits instant hready k hk hclock
    exact h.covered_idle hlater hwaits hready hk hclock
  | assign slot i row available hslot hfree hfirst hwaits hready =>
    have hdequeued : (s.assigned slot row).dequeuedAt = max available row.op.readyAt :=
      dequeuedAt_assigned hfree
    refine ⟨?_, ?_⟩
    · intro j other hother instant hsooner k hk hclock
      obtain ⟨-, hother⟩ := (Planner.waiting_assign hwaits).mp hother
      by_cases hbefore : (instant : Clock) < s.slotFreeAt k
      · obtain ⟨n, b, hb, hoccupies⟩ := h.covered j other hother instant hsooner k hk hbefore
        exact ⟨n, b, hplaced n b hb, hoccupies⟩
      · -- the slot's clock has moved past the instant, so it is the one just assigned
        rw [Planner.slotFreeAt_assign, Function.update_apply] at hclock
        split at hclock
        · rename_i heq
          subst heq
          rw [hfree] at hbefore
          have havailable : available ≤ instant := by exact_mod_cast not_lt.mp hbefore
          refine ⟨i, _, (Planner.placed_assign hwaits).mpr (.inl ⟨rfl, rfl⟩), rfl, ?_, ?_⟩
          · rw [hdequeued]
            exact max_le (by linarith [eps_pos]) (by linarith)
          · exact_mod_cast hclock
        · exact absurd hclock hbefore
    · intro j a hat instant hqueued hlate k hk
      obtain ⟨rfl, rfl⟩ | ha := (Planner.placed_assign hwaits).mp hat
      · have hearly : instant < available := by
          rw [hdequeued] at hlate
          exact (lt_max_iff.mp hlate).resolve_right (not_lt.mpr hqueued)
        have hclock : (instant : Clock) < s.slotFreeAt k :=
          (WithBot.coe_lt_coe.mpr hearly).trans_le (hfirst k hk)
        obtain ⟨n, b, hb, hoccupies⟩ := h.covered j row hwaits instant hqueued k hk hclock
        refine ⟨n, b, ?_, hplaced n b hb, hoccupies⟩
        rintro rfl
        exact hwaits.not_placed hb
      · obtain ⟨n, b, hne, hb, hoccupies⟩ := h.busy j a ha instant hqueued hlate k hk
        exact ⟨n, b, hne, hplaced n b hb, hoccupies⟩

/-- The timeline is that of the operation, which was queued when it was ready. -/
structure Records (policy : ExecutionSchedulingPolicy) (op : SchedulableOperation)
    (a : ScheduledOperation) : Prop where
  id : a.id = op.id
  purpose : a.purpose = op.purpose
  priority : a.priority = policy.priorityFor op.purpose
  sequence : a.sequence = op.sequence
  queuedAt : a.queuedAt = op.readyAt

/-- The rows are the operations, in their order, and a result is a timeline of its operation. -/
structure Listed (operations : List SchedulableOperation) (policy : ExecutionSchedulingPolicy)
    (s : Planner) : Prop where
  length : s.rows.length = operations.length
  row : Everywhere (fun i row => operations[i]? = some row.op ∧
    row.priority = policy.priorityFor row.op.purpose ∧
    ∀ a, row.result = some a → Records policy row.op a ∧ a.Staged) s.rows

theorem Listed.move (h : Listed operations policy s) (move : s.Move policy t) :
    Listed operations policy t := by
  cases move with
  | idle slot earliest hslot => exact ⟨h.length, h.row⟩
  | assign slot i row available hslot hfree hfirst hwaits =>
    obtain ⟨hop, hpriority, -⟩ := h.row i row hwaits.1
    refine ⟨List.length_set.trans h.length, ?_⟩
    intro j found hfound
    rw [Planner.getElem?_assign hwaits] at hfound
    split at hfound
    · rename_i hij
      subst hij
      obtain rfl := Option.some.inj hfound
      refine ⟨hop, hpriority, ?_⟩
      intro a ha
      obtain rfl := Option.some.inj ha
      exact ⟨⟨rfl, rfl, hpriority, rfl, rfl⟩, assigned_staged⟩
    · exact h.row j found hfound

section Termination

open Classical in
/-- The slots that are free before any operation is ready. -/
noncomputable def idleSlots (policy : ExecutionSchedulingPolicy) (s : Planner) : Finset ℕ :=
  (Finset.range policy.cap).filter fun k =>
    ∀ i row, s.Waiting i row → s.slotFreeAt k + (eps : Clock) < (row.op.readyAt : Clock)

def waitingCount (s : Planner) : ℕ := s.rows.countP fun row => row.result.isNone

/-- The turns that are left at most: each operation that waits takes one, after which every slot
may idle once. -/
noncomputable def turnsLeft (policy : ExecutionSchedulingPolicy) (s : Planner) : ℕ :=
  waitingCount s * (policy.cap + 1) + (idleSlots policy s).card

theorem mem_idleSlots : k ∈ idleSlots policy s ↔ k < policy.cap ∧
    ∀ i row, s.Waiting i row → s.slotFreeAt k + (eps : Clock) < (row.op.readyAt : Clock) := by
  simp [idleSlots]

theorem card_idleSlots_le : (idleSlots policy s).card ≤ policy.cap := by
  have hsub : idleSlots policy s ⊆ Finset.range policy.cap := fun k hk =>
    Finset.mem_range.mpr (mem_idleSlots.mp hk).1
  exact (Finset.card_le_card hsub).trans_eq (Finset.card_range _)

theorem idleSlots_idle_ssubset {earliest : ℚ} (hslot : slot < policy.cap)
    (hnext : ∃ i row, s.Waiting i row ∧ row.op.readyAt = earliest)
    (hlater : ∀ i row, s.Waiting i row → earliest ≤ row.op.readyAt)
    (hlate : s.slotFreeAt slot + (eps : Clock) < (earliest : Clock)) :
    idleSlots policy (s.idle slot earliest) ⊂ idleSlots policy s := by
  have hnot : slot ∉ idleSlots policy (s.idle slot earliest) := by
    intro hmem
    obtain ⟨i, row, hwaits, hready⟩ := hnext
    have hidle := (mem_idleSlots.mp hmem).2 i row hwaits
    rw [Planner.slotFreeAt_idle, Function.update_self, hready] at hidle
    have hlt : earliest + eps < earliest := by exact_mod_cast hidle
    linarith [eps_pos]
  refine Finset.ssubset_iff_subset_ne.mpr ⟨?_, ?_⟩
  · intro k hmem
    have hne : k ≠ slot := fun heq => hnot (heq ▸ hmem)
    obtain ⟨hk, hidle⟩ := mem_idleSlots.mp hmem
    refine mem_idleSlots.mpr ⟨hk, fun i row hwaits => ?_⟩
    have hbefore := hidle i row hwaits
    rwa [Planner.slotFreeAt_idle, Function.update_of_ne hne] at hbefore
  · intro heq
    refine hnot (heq ▸ mem_idleSlots.mpr ⟨hslot, ?_⟩)
    intro i row hwaits
    exact hlate.trans_le (WithBot.coe_le_coe.mpr (hlater i row hwaits))

theorem waitingCount_assign (h : s.Waiting i row) :
    waitingCount (s.assign policy slot i row) + 1 = waitingCount s := by
  obtain ⟨hi, hrow⟩ := List.getElem?_eq_some_iff.mp h.1
  have hset := List.countP_set (p := fun row : Row => row.result.isNone)
    (a := { row with result := some (s.assigned slot row) }) hi
  have hpos : 0 < waitingCount s :=
    List.countP_pos_iff.mpr ⟨row, hrow ▸ List.getElem_mem hi, by simp [h.2]⟩
  simp only [hrow, h.2, Option.isNone_none, if_true, Option.isNone_some, Bool.false_eq_true,
    if_false] at hset
  have hafter : waitingCount (s.assign policy slot i row) = waitingCount s - 1 + 0 := hset
  omega

theorem turnsLeft_move (move : s.Move policy t) : turnsLeft policy t < turnsLeft policy s := by
  cases move with
  | idle slot earliest hslot hnext hlater hlate =>
    have hless := Finset.card_lt_card (idleSlots_idle_ssubset hslot hnext hlater hlate)
    exact Nat.add_lt_add_left hless _
  | assign slot i row available hslot hfree hfirst hwaits =>
    have hcount : waitingCount (s.assign policy slot i row) + 1 = waitingCount s :=
      waitingCount_assign hwaits
    have hcard : (idleSlots policy (s.assign policy slot i row)).card ≤ policy.cap :=
      card_idleSlots_le
    rw [turnsLeft, turnsLeft, ← hcount, Nat.add_mul, Nat.one_mul]
    omega

theorem turnsLeft_start (operations : List SchedulableOperation)
    (policy : ExecutionSchedulingPolicy) :
    turnsLeft policy (Planner.start operations policy) ≤ turns operations policy := by
  have hcount : waitingCount (Planner.start operations policy) ≤ operations.length := by
    have hle := List.countP_le_length (p := fun row : Row => row.result.isNone)
      (l := (Planner.start operations policy).rows)
    simpa [waitingCount, Planner.start] using hle
  have hcard : (idleSlots policy (Planner.start operations policy)).card ≤ policy.cap :=
    card_idleSlots_le
  have hmul := Nat.mul_le_mul_right (policy.cap + 1) hcount
  rw [turnsLeft, turns, Nat.add_mul, Nat.one_mul]
  omega

end Termination

/-- The slot of the operation is held at the instant. -/
def ScheduledOperation.inFlight (instant : ℚ) (a : ScheduledOperation) : Bool :=
  decide (a.dequeuedAt ≤ instant ∧ instant < a.terminalAt)

/-- The schedule is one that the live manager could have produced under the policy: no more
operations in flight than it allows, posts an interval apart, no ready operation left in the
queue beside a slot that stays free, and of the ready ones the best always first. -/
structure Obeys (policy : ExecutionSchedulingPolicy) (operations : List SchedulableOperation)
    (timelines : List ScheduledOperation) : Prop where
  listed : List.Forall₂ (Records policy) operations timelines
  staged : ∀ a ∈ timelines, a.Staged
  capped : ∀ instant, timelines.countP (·.inFlight instant) ≤ policy.cap
  spaced : timelines.Pairwise fun a b => policy.minInterval ≤ |a.postStartedAt - b.postStartedAt|
  busy : ∀ (i : ℕ) (a : ScheduledOperation), timelines[i]? = some a →
    ∀ instant, a.queuedAt ≤ instant → instant < a.dequeuedAt → ∀ k < policy.cap,
      ∃ (j : ℕ) (b : ScheduledOperation), j ≠ i ∧ timelines[j]? = some b ∧ b.Occupies k instant
  first : ∀ a ∈ timelines, ∀ b ∈ timelines, compareScheduling a.key b.key < 0 →
    a.queuedAt ≤ b.dequeuedAt → a.dequeuedAt ≤ b.dequeuedAt

structure Sound (operations : List SchedulableOperation) (policy : ExecutionSchedulingPolicy)
    (s : Planner) : Prop where
  listed : Listed operations policy s
  lanes : Lanes policy s
  paced : Paced policy s
  fair : Fair policy s
  busy : Busy policy s

theorem Sound.move (h : Sound operations policy s) (move : s.Move policy t) :
    Sound operations policy t :=
  ⟨h.listed.move move, h.lanes.move move, h.paced.move move, h.fair.move move, h.busy.move move⟩

theorem not_placed_start : ¬ (Planner.start operations policy).Placed i a := by
  rintro ⟨row, hrow, hresult⟩
  simp only [Planner.start, List.getElem?_map, Option.map_eq_some_iff] at hrow
  obtain ⟨op, -, rfl⟩ := hrow
  cases hresult

theorem sound_start : Sound operations policy (Planner.start operations policy) where
  listed := by
    refine ⟨List.length_map _, ?_⟩
    intro i row hrow
    simp only [Planner.start, List.getElem?_map, Option.map_eq_some_iff] at hrow
    obtain ⟨op, hop, rfl⟩ := hrow
    exact ⟨hop, rfl, fun a ha => nomatch ha⟩
  lanes :=
    { slot := fun _ _ h => absurd h not_placed_start
      held := fun _ _ h => absurd h not_placed_start
      apart := fun _ _ _ _ _ h => absurd h not_placed_start }
  paced :=
    { posted := fun _ _ h => absurd h not_placed_start
      spaced := fun _ _ _ _ _ h => absurd h not_placed_start }
  fair :=
    { prompt := fun _ _ h => absurd h not_placed_start
      first := fun _ _ _ _ h => absurd h not_placed_start
      later := fun _ _ _ _ _ h => absurd h not_placed_start }
  busy :=
    { covered := fun _ _ _ _ _ _ _ h => absurd h not_lt_bot
      busy := fun _ _ h => absurd h not_placed_start }

theorem map_some_filterMap {rows : List Row} (h : ∀ row ∈ rows, row.result ≠ none) :
    (rows.filterMap Row.result).map some = rows.map Row.result := by
  induction rows with
  | nil => rfl
  | cons row rest ih =>
    obtain ⟨hrow, hrest⟩ := List.forall_mem_cons.mp h
    obtain ⟨result, hresult⟩ := Option.ne_none_iff_exists'.mp hrow
    rw [List.filterMap_cons_some hresult, List.map_cons, List.map_cons, hresult, ih hrest]

/-- When the loop has ended the results are the timelines at their indices. -/
theorem getElem?_results (h : s.unfinished = false) : s.results[i]? = some a ↔ s.Placed i a := by
  have hall : ∀ row ∈ s.rows, row.result ≠ none := by
    intro row hrow hnone
    have hany := List.any_eq_false.mp h row hrow
    simp [hnone] at hany
  have hindex := congrArg (fun l => l[i]?) (map_some_filterMap hall)
  simp only [List.getElem?_map] at hindex
  rw [Planner.results]
  constructor
  · intro ha
    rw [ha, Option.map_some, eq_comm, Option.map_eq_some_iff] at hindex
    exact hindex
  · rintro ⟨row, hrow, hresult⟩
    rw [hrow, Option.map_some, hresult, Option.map_eq_some_iff] at hindex
    obtain ⟨b, hb, heq⟩ := hindex
    rw [hb, heq]

theorem length_results (h : s.unfinished = false) : s.results.length = s.rows.length := by
  have hall : ∀ row ∈ s.rows, row.result ≠ none := by
    intro row hrow hnone
    have hany := List.any_eq_false.mp h row hrow
    simp [hnone] at hany
  have hlength := congrArg List.length (map_some_filterMap hall)
  rwa [List.length_map, List.length_map] at hlength

theorem Sound.obeys (h : Sound operations policy s) (hend : s.unfinished = false) :
    Obeys policy operations s.results := by
  have hplaced : ∀ a ∈ s.results, ∃ i, s.Placed i a := by
    intro a ha
    obtain ⟨i, hi⟩ := List.mem_iff_getElem?.mp ha
    exact ⟨i, (getElem?_results hend).mp hi⟩
  have hrecords : ∀ i a, s.Placed i a → ∃ op, operations[i]? = some op ∧ Records policy op a ∧
      a.Staged := by
    rintro i a ⟨row, hrow, hresult⟩
    obtain ⟨hop, -, hrecord⟩ := h.listed.row i row hrow
    exact ⟨row.op, hop, hrecord a hresult⟩
  have hpair : ∀ R : ScheduledOperation → ScheduledOperation → Prop,
      (∀ i j a b, i ≠ j → s.Placed i a → s.Placed j b → R a b) → s.results.Pairwise R := by
    intro R hR
    rw [List.pairwise_iff_getElem]
    intro i j hi hj hlt
    exact hR i j _ _ (Nat.ne_of_lt hlt)
      ((getElem?_results hend).mp (List.getElem?_eq_getElem hi))
      ((getElem?_results hend).mp (List.getElem?_eq_getElem hj))
  refine ⟨?_, ?_, ?_, ?_, ?_, ?_⟩
  · have hlength : operations.length = s.results.length :=
      h.listed.length.symm.trans (length_results hend).symm
    refine List.forall₂_iff_get.mpr ⟨hlength, ?_⟩
    intro i hi hi'
    obtain ⟨op, hop, hrecord, -⟩ := hrecords i _
      ((getElem?_results hend).mp (List.getElem?_eq_getElem hi'))
    rw [List.getElem?_eq_getElem hi] at hop
    obtain rfl := Option.some.inj hop
    exact hrecord
  · intro a ha
    obtain ⟨i, hi⟩ := hplaced a ha
    obtain ⟨-, -, -, hstaged⟩ := hrecords i a hi
    exact hstaged
  · intro instant
    refine countP_held_le ScheduledOperation.slot ?_ (hpair _ ?_)
    · intro a ha
      obtain ⟨i, hi⟩ := hplaced a ha
      exact h.lanes.slot i a hi
    · intro i j a b hne ha hb hslot hboth
      simp only [ScheduledOperation.inFlight, decide_eq_true_eq] at hboth
      obtain ⟨⟨ha₁, ha₂⟩, hb₁, hb₂⟩ := hboth
      obtain hle | hle := h.lanes.apart i j a b hne ha hb hslot <;> linarith
  · refine hpair _ ?_
    intro i j a b hne ha hb
    rw [le_abs]
    obtain hle | hle := h.paced.spaced i j a b hne ha hb
    · right
      linarith
    · left
      linarith
  · intro i a ha instant hqueued hlate k hk
    obtain ⟨j, b, hne, hb, hoccupies⟩ :=
      h.busy.busy i a ((getElem?_results hend).mp ha) instant hqueued hlate k hk
    exact ⟨j, b, hne, (getElem?_results hend).mpr hb, hoccupies⟩
  · intro a ha b hb
    obtain ⟨i, hi⟩ := hplaced a ha
    obtain ⟨j, hj⟩ := hplaced b hb
    exact h.fair.first i j a b hi hj

end Laws

namespace Sample

/-- An exit gets ready half a tolerance after an entry. -/
def operations : List SchedulableOperation :=
  [⟨"entry", .entry, 1, 0, none, 1, 2⟩, ⟨"exit", .exit, 2, 1 / 2000000, none, 1, 2⟩]

def policy : ExecutionSchedulingPolicy := createSchedulingPolicy (.finite 1) (.finite 0)

end Sample

end Strikedge.PaperSchedule
