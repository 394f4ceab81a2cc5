import Strikedge.ActiveBroker.Manager

/-!
# What a generation identifies

Durable reservations are stamped with the generation, so a generation has to stand for one
epoch of one broker for ever. Within a process it only grows. A restart takes it from the
durable row, which may lag behind: the switch that follows a first boot stores the first
value of the sequence while the manager goes on to two.
-/

namespace Strikedge.ActiveBroker

open Machine

/-- Every generation that a switch brought is above all held before it, and no generation was
held with two brokers. The holdings are listed from the newest. -/
structure Identifying (held : List Holding) : Prop where
  rising : ∀ newer h older, held = newer ++ h :: older → h.switched = true →
    ∀ o ∈ older, o.generation < h.generation
  faithful : ∀ a ∈ held, ∀ b ∈ held, a.generation = b.generation → a.broker = b.broker

section Identifying

variable {h : Holding} {held : List Holding}

theorem identifying_cons : Identifying (h :: held) ↔
    (h.switched = true → ∀ o ∈ held, o.generation < h.generation) ∧
      (∀ o ∈ held, o.generation = h.generation → o.broker = h.broker) ∧ Identifying held := by
  constructor
  · rintro ⟨hrising, hfaithful⟩
    refine ⟨hrising [] h held rfl, fun o ho => ?_, fun newer x older heq => ?_, ?_⟩
    · exact hfaithful o (List.mem_cons_of_mem h ho) h List.mem_cons_self
    · exact hrising (h :: newer) x older (heq ▸ rfl)
    · exact fun a ha b hb => hfaithful a (List.mem_cons_of_mem h ha) b (List.mem_cons_of_mem h hb)
  · rintro ⟨hrising, hfaithful, hearlier⟩
    refine ⟨fun newer x older heq hswitched => ?_, fun a ha b hb hsame => ?_⟩
    · cases newer with
      | nil =>
          obtain ⟨rfl, rfl⟩ := List.cons.inj heq
          exact hrising hswitched
      | cons y newer =>
          obtain ⟨-, hrest⟩ := List.cons.inj heq
          exact hearlier.rising newer x older hrest hswitched
    · rcases List.mem_cons.mp ha with heqa | ha <;> rcases List.mem_cons.mp hb with heqb | hb
      · rw [heqa, heqb]
      · rw [heqa] at hsame ⊢
        exact (hfaithful b hb hsame.symm).symm
      · rw [heqb] at hsame ⊢
        exact hfaithful a ha hsame
      · exact hearlier.faithful a ha b hb hsame

end Identifying

namespace Manager

/-- The generations of all processes so far identify their epochs. -/
def Identifies (m : Manager) : Prop := Identifying m.held

/-- A switch is answered while its manager holds the highest generation ever held, or with a
sequence value above them all; and a restart finds a generation in the row that was never
held with another broker. -/
def Renews (m : Manager) : Label → Prop
  | .resumeSave id => ∀ target persisted,
      m.calls.get? id = some ⟨target, .saving (.replied persisted)⟩ →
        (∀ h ∈ m.held, h.generation ≤ m.gen) ∨
          ∃ generation, persisted = some generation ∧ ∀ h ∈ m.held, h.generation < generation
  | .restart default => ∀ h ∈ m.held,
      h.generation = (m.restored default).2 → h.broker = (m.restored default).1
  | _ => True

/-- A restart finds the row at the pair the manager holds, or above every generation ever held;
without a row nothing but the configured default at generation one was held. -/
def Newest (m : Manager) : Label → Prop
  | .restart default =>
    match m.row with
    | some row => row = ⟨m.active, m.gen⟩ ∨ ∀ h ∈ m.held, h.generation < row.generation
    | none => m.active = default ∧ m.gen = 1
  | _ => True

section Steps

variable {m m' : Manager} {label : Label} {persisted : Option Nat}

/-- What a step does to the holdings: a switch and a restart add the pair they adopt. -/
theorem step_held (hstep : m.step label = some m') :
    (∃ id target persisted, label = .resumeSave id ∧
      m.calls.get? id = some ⟨target, .saving (.replied persisted)⟩ ∧
      m' = m.adopt id ⟨target, .saving (.replied persisted)⟩ persisted) ∨
    (∃ default, label = .restart default ∧ m' = m.restart default) ∨
    (∀ id, label ≠ .resumeSave id) ∧ (∀ default, label ≠ .restart default) ∧
      m'.held = m.held ∧ m'.active = m.active ∧ m'.gen = m.gen := by
  have hkept {n : Manager} (hsome : some n = some m')
      (hlabel : (∀ id, label ≠ .resumeSave id) ∧ ∀ default, label ≠ .restart default)
      (hn : n.held = m.held ∧ n.active = m.active ∧ n.gen = m.gen) : (∀ id, label ≠ .resumeSave id) ∧
        (∀ default, label ≠ .restart default) ∧
        m'.held = m.held ∧ m'.active = m.active ∧ m'.gen = m.gen :=
    Option.some.inj hsome ▸ ⟨hlabel.1, hlabel.2, hn⟩
  cases label with
  | resumeSave id =>
      simp only [step] at hstep
      split at hstep
      · rename_i target persisted hget
        exact .inl ⟨id, target, persisted, rfl, hget, (Option.some.inj hstep).symm⟩
      · cases hstep
  | restart default => exact .inr (.inl ⟨default, rfl, (Option.some.inj hstep).symm⟩)
  | switchBroker target =>
      refine .inr (.inr (hkept hstep ⟨by simp, by simp⟩ ?_))
      rw [switchBroker]
      split <;> exact ⟨rfl, rfl, rfl⟩
  | answerQuery id readable =>
      simp only [step] at hstep
      split at hstep
      · exact .inr (.inr (hkept hstep ⟨by simp, by simp⟩ ⟨rfl, rfl, rfl⟩))
      · cases hstep
  | resumeQuery id throws =>
      simp only [step] at hstep
      split at hstep
      · refine .inr (.inr (hkept hstep ⟨by simp, by simp⟩ ?_))
        rw [proceed]
        split
        · exact ⟨rfl, rfl, rfl⟩
        · dsimp only
          split <;> exact ⟨rfl, rfl, rfl⟩
      · cases hstep
  | resumeClear id =>
      simp only [step] at hstep
      split at hstep
      · exact .inr (.inr (hkept hstep ⟨by simp, by simp⟩ ⟨rfl, rfl, rfl⟩))
      · cases hstep
  | drawSequence id generation =>
      simp only [step] at hstep
      split at hstep
      · split at hstep
        · exact .inr (.inr (hkept hstep ⟨by simp, by simp⟩ ⟨rfl, rfl, rfl⟩))
        · cases hstep
      · cases hstep
  | answerSave id stored heard =>
      simp only [step] at hstep
      split at hstep
      · split at hstep
        · cases hstep
        · exact .inr (.inr (hkept hstep ⟨by simp, by simp⟩ ⟨rfl, rfl, rfl⟩))
      · refine .inr (.inr (hkept hstep ⟨by simp, by simp⟩ ?_))
        rw [answerSave]
        cases stored <;> exact ⟨rfl, rfl, rfl⟩
      · cases hstep
  | setProbe probe => exact .inr (.inr (hkept hstep ⟨by simp, by simp⟩ ⟨rfl, rfl, rfl⟩))
  | setIntents broker outstanding =>
      exact .inr (.inr (hkept hstep ⟨by simp, by simp⟩ ⟨rfl, rfl, rfl⟩))
  | drawAbandoned index generation =>
      simp only [step] at hstep
      split at hstep
      · split at hstep
        · exact .inr (.inr (hkept hstep ⟨by simp, by simp⟩ ⟨rfl, rfl, rfl⟩))
        · cases hstep
      · cases hstep
  | storeAbandoned index =>
      simp only [step] at hstep
      split at hstep
      · exact .inr (.inr (hkept hstep ⟨by simp, by simp⟩ ⟨rfl, rfl, rfl⟩))
      · cases hstep

/-- The generation a switch adopts is above a set of them exactly when one of its two sources
is. -/
theorem nextGen_above : (∀ h ∈ m.held, h.generation < m.nextGen persisted) ↔
    (∀ h ∈ m.held, h.generation ≤ m.gen) ∨
      ∃ generation, persisted = some generation ∧ ∀ h ∈ m.held, h.generation < generation := by
  rw [nextGen.eq_def]
  cases persisted with
  | none =>
      simp only [reduceCtorEq, false_and, exists_false, or_false]
      exact forall₂_congr fun h _ => Nat.lt_succ_iff
  | some generation =>
      simp only [Option.some.injEq, exists_eq_left']
      rcases Nat.le_total (m.gen + 1) generation with hle | hle
      · rw [Nat.max_eq_right hle]
        refine ⟨.inr, fun habove h hmem => habove.elim (fun hgen => ?_) (· h hmem)⟩
        exact Nat.lt_of_lt_of_le (Nat.lt_succ_of_le (hgen h hmem)) hle
      · rw [Nat.max_eq_left hle]
        refine ⟨fun h => .inl fun o ho => Nat.lt_succ_iff.mp (h o ho), fun habove h hmem => ?_⟩
        exact habove.elim (fun hgen => Nat.lt_succ_of_le (hgen h hmem))
          fun hseq => Nat.lt_of_lt_of_le (hseq h hmem) hle

/-- A step keeps the generations identifying exactly when it renews them. -/
theorem identifies_step (h : m.Identifies) (hstep : m.step label = some m') :
    m'.Identifies ↔ m.Renews label := by
  rcases step_held hstep with ⟨id, target, persisted, rfl, hget, rfl⟩ | ⟨default, rfl, rfl⟩ |
    ⟨hsave, hrestart, hheld, -, -⟩
  · have hcons : Identifies (m.adopt id ⟨target, .saving (.replied persisted)⟩ persisted) ↔ _ :=
      identifying_cons
    rw [hcons]
    constructor
    · rintro ⟨hrising, -, -⟩ target' persisted' hget'
      obtain ⟨rfl, hphase⟩ := SwitchCall.mk.inj (Option.some.inj (hget.symm.trans hget'))
      cases hphase
      exact nextGen_above.mp (hrising rfl)
    · intro hrenews
      have habove := nextGen_above.mpr (hrenews target persisted hget)
      exact ⟨fun _ => habove, fun o ho hsame => absurd (habove o ho) (hsame ▸ Nat.lt_irrefl _), h⟩
  · have hcons : Identifies (m.restart default) ↔ _ := identifying_cons
    rw [hcons]
    exact ⟨fun ⟨_, hfaithful, _⟩ => hfaithful, fun hrenews => ⟨nofun, hrenews, h⟩⟩
  · have hsame : m'.Identifies ↔ m.Identifies := by rw [Identifies, hheld, Identifies]
    refine iff_of_true (hsame.mpr h) ?_
    cases label with
    | resumeSave id => exact absurd rfl (hsave id)
    | restart default => exact absurd rfl (hrestart default)
    | _ => trivial

/-- The manager holds its pair, and no generation above it was ever held. -/
structure Leads (m : Manager) : Prop where
  current : ∃ h ∈ m.held, h.broker = m.active ∧ h.generation = m.gen
  highest : ∀ h ∈ m.held, h.generation ≤ m.gen

theorem leads_step (hleads : m.Leads) (h : m.Identifies) (hnewest : m.Newest label)
    (hstep : m.step label = some m') : m'.Leads ∧ m'.Identifies := by
  rw [identifies_step h hstep]
  rcases step_held hstep with ⟨id, target, persisted, rfl, hget, rfl⟩ | ⟨default, rfl, rfl⟩ |
    ⟨hsave, hrestart, hheld, hactive, hgen⟩
  · refine ⟨⟨⟨_, List.mem_cons_self, rfl, rfl⟩, fun h hmem => ?_⟩, fun _ _ _ => .inl hleads.highest⟩
    rcases List.mem_cons.mp hmem with rfl | hmem
    · exact Nat.le_refl _
    · exact Nat.le_of_lt (nextGen_above.mpr (.inl hleads.highest) h hmem)
  · obtain ⟨current, hcurrent, hbroker, hgeneration⟩ := hleads.current
    have hrow : (m.restored default = (m.active, m.gen)) ∨
        ∀ h ∈ m.held, h.generation < (m.restored default).2 := by
      rw [Newest.eq_def] at hnewest
      rw [restored]
      cases hrow : m.row with
      | none =>
          simp only [hrow] at hnewest
          exact .inl (Prod.ext hnewest.1.symm hnewest.2.symm)
      | some row =>
          simp only [hrow] at hnewest
          exact hnewest.imp (fun heq => by rw [heq]) id
    refine ⟨⟨⟨_, List.mem_cons_self, rfl, rfl⟩, fun h hmem => ?_⟩, fun o ho hsame => ?_⟩
    · rcases List.mem_cons.mp hmem with rfl | hmem
      · exact Nat.le_refl _
      · rcases hrow with hsame | habove
        · rw [show (m.restart default).gen = m.gen from congrArg Prod.snd hsame]
          exact hleads.highest h hmem
        · exact Nat.le_of_lt (habove h hmem)
    · rcases hrow with hrestored | habove
      · rw [hrestored] at hsame ⊢
        rw [← hbroker]
        exact h.faithful o ho current hcurrent (hsame.trans hgeneration.symm)
      · exact absurd (habove o ho) (hsame ▸ Nat.lt_irrefl _)
  · refine ⟨⟨?_, ?_⟩, ?_⟩
    · rw [hheld, hactive, hgen]
      exact hleads.current
    · rw [hheld, hgen]
      exact hleads.highest
    · cases label with
      | resumeSave id => exact absurd rfl (hsave id)
      | restart default => exact absurd rfl (hrestart default)
      | _ => trivial

end Steps

section Runs

variable (row : Option ActiveBrokerRow) (lastSequence : Nat) (intents : BrokerId → Nat)
variable (default : BrokerId) (dhanProblem : Option String) (labels : List Label)

theorem identifies_boot : (boot row lastSequence intents default dhanProblem).Identifies where
  rising newer h older heq hswitched := by
    cases newer with
    | nil =>
        obtain ⟨rfl, -⟩ := List.cons.inj heq
        cases hswitched
    | cons _ newer =>
        obtain ⟨-, hrest⟩ := List.cons.inj heq
        exact absurd hrest.symm (by simp)
  faithful a ha b hb _ := by
    rw [List.mem_singleton.mp ha, List.mem_singleton.mp hb]

/-- Restarts that find the newest pair in the row are enough. -/
theorem identifies_of_newest
    (h : Heeds step Newest (boot row lastSequence intents default dhanProblem) labels) :
    Throughout step Identifies (boot row lastSequence intents default dhanProblem) labels := by
  refine (Throughout.of_heeds (I := fun m => m.Leads ∧ m.Identifies) (C := Newest)
    (fun m label m' hm hnewest hstep => leads_step hm.1 hm.2 hnewest hstep)
    ⟨⟨⟨_, List.mem_singleton_self _, rfl, rfl⟩, fun h hmem => ?_⟩, identifies_boot ..⟩ h).mono
    fun m hm => hm.2
  rw [List.mem_singleton.mp hmem]
  exact Nat.le_refl _

/-- Over switches that overlap, writes that are stored, lost or land late, and restarts, a
generation identifies one epoch of one broker exactly when every switch is answered above all
generations held before and every restart finds in the row a generation that was not held
with another broker. -/
theorem generations_identify_iff :
    Throughout step Identifies (boot row lastSequence intents default dhanProblem) labels ↔
      Heeds step Renews (boot row lastSequence intents default dhanProblem) labels :=
  throughout_iff_heeds (L := fun _ => True) (I := fun _ => True)
    (fun _ _ _ _ _ _ _ _ => trivial) (fun _ _ _ _ _ h hstep => identifies_step h hstep)
    trivial (identifies_boot ..) fun _ _ => trivial

end Runs

/-- The first switch of a deployment: the write takes the first value of the sequence. -/
def firstSwitch : List Label :=
  [.switchBroker .dhan, .answerQuery 0 true, .resumeQuery 0 false, .resumeClear 0,
    .drawSequence 0 1, .answerSave 0 true true, .resumeSave 0]

/-- A deployment starts with generation one on Zerodha, switches to Dhan and restarts: the row
says generation one on Dhan, where the process had gone on to two. -/
theorem first_restart_reuses_generation :
    ¬∀ labels, Throughout step Identifies (boot none 0 (fun _ => 0) .zerodha none) labels := by
  intro h
  have hlast := (h (firstSwitch ++ [.restart .zerodha])).last rfl
  have hsame := hlast.faithful ⟨.dhan, 1, false⟩ (by decide) ⟨.zerodha, 1, false⟩ (by decide) rfl
  cases hsame

end Manager

end Strikedge.ActiveBroker
