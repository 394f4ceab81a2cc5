import Mathlib.Data.List.Basic

/-!
# Write-behind cells

A cell changes in memory at once and is saved later. Each write keeps what it replaced, and
a write whose save fails either puts that back or is retained with a flag raised. Saves settle
in any order, so memory and the stored copy may drift apart. They do not, as far as a view of
the contents goes, if a failing save restores nothing a later write changed, and a save never
settles behind a later one that stored something else.

Writes are listed from the newest.
-/

namespace Strikedge.Machine

inductive WriteStatus where
  | inFlight
  | saved
  | retained
  | undone
  /-- There was nothing to save. -/
  | skipped
  deriving DecidableEq, Repr

structure Write (κ ρ : Type*) where
  kind : κ
  previous : ρ
  next : ρ
  status : WriteStatus
  deriving DecidableEq, Repr

variable {κ ρ ν : Type*}

namespace Write

variable (w : Write κ ρ)

/-- The write was not taken back. -/
def stands : Bool := w.status != .undone

/-- The write was saved, or its failure was flagged. -/
def wrote : Bool := w.status == .saved || w.status == .retained

def inFlight : Bool := w.status == .inFlight

def settle (status : WriteStatus) : Write κ ρ := { w with status := status }

@[simp] theorem settle_previous (status : WriteStatus) : (w.settle status).previous = w.previous :=
  rfl

@[simp] theorem settle_next (status : WriteStatus) : (w.settle status).next = w.next := rfl

@[simp] theorem settle_kind (status : WriteStatus) : (w.settle status).kind = w.kind := rfl

@[simp] theorem settle_status (status : WriteStatus) : (w.settle status).status = status := rfl

theorem inFlight_iff : w.inFlight = true ↔ w.status = .inFlight := by
  simp [inFlight]

end Write

/-- What the newest selected write left, or the base. -/
def valueOf (select : Write κ ρ → Bool) (base : ρ) : List (Write κ ρ) → ρ
  | [] => base
  | w :: older => if select w then w.next else valueOf select base older

/-- Every standing write started from what the standing writes before it left. -/
def Chained (view : ρ → ν) (base : ρ) : List (Write κ ρ) → Prop
  | [] => True
  | w :: older =>
    (w.stands = true → view w.previous = view (valueOf Write.stands base older)) ∧
      Chained view base older

section Chained

variable {view : ρ → ν} {base : ρ} {select : Write κ ρ → Bool} {w : Write κ ρ}
variable {writes newer older older' : List (Write κ ρ)}

theorem valueOf_cons_of_pos (h : select w = true) :
    valueOf select base (w :: older) = w.next := by
  rw [valueOf, if_pos h]

theorem valueOf_cons_of_neg (h : select w = false) :
    valueOf select base (w :: older) = valueOf select base older := by
  rw [valueOf, if_neg (by simp [h])]

theorem valueOf_append_of_none (h : ∀ w ∈ newer, select w = false) :
    valueOf select base (newer ++ older) = valueOf select base older := by
  induction newer with
  | nil => rfl
  | cons w rest ih =>
      rw [List.cons_append, valueOf_cons_of_neg (h w List.mem_cons_self)]
      exact ih fun v hv => h v (List.mem_cons_of_mem w hv)

/-- Writes see only what lies behind them through its value. -/
theorem valueOf_append_congr
    (h : view (valueOf select base older) = view (valueOf select base older')) :
    view (valueOf select base (newer ++ older)) = view (valueOf select base (newer ++ older')) := by
  induction newer with
  | nil => exact h
  | cons w rest ih =>
      simp only [List.cons_append, valueOf]
      split
      · rfl
      · exact ih

theorem Chained.behind (h : Chained view base (newer ++ older)) : Chained view base older := by
  induction newer with
  | nil => exact h
  | cons w rest ih => exact ih h.2

theorem Chained.replace (h : Chained view base (newer ++ older)) (h' : Chained view base older')
    (heq : view (valueOf Write.stands base older) = view (valueOf Write.stands base older')) :
    Chained view base (newer ++ older') := by
  induction newer with
  | nil => exact h'
  | cons w rest ih =>
      refine ⟨fun hw => ?_, ih h.2⟩
      rw [h.1 hw]
      exact valueOf_append_congr heq

theorem chained_append_of_none (h : ∀ w ∈ newer, w.stands = false)
    (hbehind : Chained view base older) : Chained view base (newer ++ older) := by
  induction newer with
  | nil => exact hbehind
  | cons w rest ih =>
      refine ⟨fun hw => absurd hw (by simp [h w List.mem_cons_self]), ?_⟩
      exact ih fun v hv => h v (List.mem_cons_of_mem w hv)

/-- Writes that leave the view as they found it do not matter to it. -/
theorem Chained.valueOf_of_neutral (h : Chained view base (newer ++ older))
    (hneutral : ∀ w ∈ newer, w.stands = true → view w.next = view w.previous) :
    view (valueOf Write.stands base (newer ++ older)) = view (valueOf Write.stands base older) := by
  induction newer with
  | nil => rfl
  | cons w rest ih =>
      have hrest := ih h.2 fun v hv => hneutral v (List.mem_cons_of_mem w hv)
      by_cases hw : w.stands = true
      · rw [List.cons_append, valueOf_cons_of_pos hw, hneutral w List.mem_cons_self hw, h.1 hw]
        exact hrest
      · rw [List.cons_append, valueOf_cons_of_neg (by simpa using hw)]
        exact hrest

end Chained

/-- Taking the `n`-th newest write back restores nothing that a later one changed. -/
def Restorable (view : ρ → ν) (writes : List (Write κ ρ)) (n : Nat) : Prop :=
  (∀ w ∈ writes.take n, w.stands = false) ∨
    ∀ w ∈ writes.take (n + 1), w.stands = true → view w.next = view w.previous

/-- No write after the `n`-th newest has stored something else. -/
def InOrder (view : ρ → ν) (writes : List (Write κ ρ)) (n : Nat) : Prop :=
  ∀ v ∈ writes.take n, v.wrote = true → ∀ w ∈ writes[n]?, view v.next = view w.next

instance (view : ρ → ν) [DecidableEq ν] (writes : List (Write κ ρ)) (n : Nat) :
    Decidable (Restorable view writes n) := by
  unfold Restorable
  infer_instance

instance (view : ρ → ν) [DecidableEq ν] (writes : List (Write κ ρ)) (n : Nat) :
    Decidable (InOrder view writes n) := by
  unfold InOrder
  infer_instance

/-- Memory shows what the standing writes left. -/
structure Traced (view : ρ → ν) (base memory : ρ) (writes : List (Write κ ρ)) : Prop where
  chained : Chained view base writes
  memory : view memory = view (valueOf Write.stands base writes)

/-- And so does the stored copy for the writes that were stored, unless the flag is raised. -/
structure Consistent (view : ρ → ν) (base memory stored : ρ) (flagged : Bool)
    (writes : List (Write κ ρ)) : Prop extends Traced view base memory writes where
  stored : flagged = true ∨ view stored = view (valueOf Write.wrote base writes)
  skipped : ∀ w ∈ writes, w.status = .skipped → view w.next = view w.previous

section Settling

variable {view : ρ → ν} {base memory stored next : ρ} {flagged : Bool} {kind : κ} {n : Nat}
variable {writes : List (Write κ ρ)} {w : Write κ ρ}

/-- An entry among others, and the list with another in its place. -/
theorem getElem?_split {α : Type*} {x : α} {xs : List α} (hx : xs[n]? = some x) :
    ∃ newer older, xs = newer ++ x :: older ∧
      xs.take n = newer ∧ ∀ y, xs.set n y = newer ++ y :: older := by
  obtain ⟨hn, rfl⟩ := List.getElem?_eq_some_iff.mp hx
  refine ⟨xs.take n, xs.drop (n + 1), ?_, rfl, fun y => ?_⟩
  · rw [← List.drop_eq_getElem_cons hn, List.take_append_drop]
  · rw [List.set_eq_take_append_cons_drop, if_pos hn]

theorem traced_start : Traced view base base ([] : List (Write κ ρ)) := ⟨trivial, rfl⟩

theorem Traced.push (h : Traced view base memory writes) :
    Traced view base next (⟨kind, memory, next, .inFlight⟩ :: writes) :=
  ⟨⟨fun _ => h.memory, h.chained⟩, rfl⟩

theorem Traced.skip (h : Traced view base memory writes) :
    Traced view base memory (⟨kind, memory, memory, .skipped⟩ :: writes) :=
  ⟨⟨fun _ => h.memory, h.chained⟩, rfl⟩

/-- A write that still stands after it settled leaves the same. -/
theorem Traced.stand (h : Traced view base memory writes) (hw : writes[n]? = some w)
    (hflight : w.status = .inFlight) {status : WriteStatus} (hstatus : status ≠ .undone) :
    Traced view base memory (writes.set n (w.settle status)) := by
  obtain ⟨newer, older, rfl, -, hset⟩ := getElem?_split hw
  have hstands : w.stands = true := by simp [Write.stands, hflight]
  have hstands' : (w.settle status).stands = true := by simp [Write.stands, hstatus]
  have hsame : view (valueOf Write.stands base (w :: older)) =
      view (valueOf Write.stands base (w.settle status :: older)) := by
    rw [valueOf_cons_of_pos hstands, valueOf_cons_of_pos hstands', Write.settle_next]
  have hbehind : Chained view base (w.settle status :: older) :=
    ⟨fun _ => h.chained.behind.1 hstands, h.chained.behind.2⟩
  rw [hset]
  exact ⟨h.chained.replace hbehind hsame, h.memory.trans (valueOf_append_congr hsame)⟩

/-- The writes around one that is in flight and may be taken back. -/
theorem Restorable.split (h : Restorable view writes n) (hw : writes[n]? = some w)
    (hflight : w.status = .inFlight) : ∃ newer older, writes = newer ++ w :: older ∧
      (∀ v, writes.set n v = newer ++ v :: older) ∧
        ((∀ v ∈ newer, v.stands = false) ∨ view w.next = view w.previous ∧
          ∀ v ∈ newer, v.stands = true → view v.next = view v.previous) := by
  have htaken : writes.take (n + 1) = writes.take n ++ [w] := by
    rw [List.take_add_one, hw]
    rfl
  obtain ⟨newer, older, hwrites, htake, hset⟩ := getElem?_split hw
  rw [Restorable, htaken, htake] at h
  refine ⟨newer, older, hwrites, hset, h.imp_right fun hneutral => ⟨?_, fun v hv => ?_⟩⟩
  · exact hneutral w (by simp) (by simp [Write.stands, hflight])
  · exact hneutral v (List.mem_append_left _ hv)

/-- Memory shows what a write left that may be taken back. -/
theorem Traced.memory_eq (h : Traced view base memory writes) (hw : writes[n]? = some w)
    (hflight : w.status = .inFlight) (hrestorable : Restorable view writes n) :
    view memory = view w.next := by
  obtain ⟨newer, older, rfl, -, hnone | ⟨-, hneutral⟩⟩ := hrestorable.split hw hflight
  · rw [h.memory, valueOf_append_of_none hnone,
      valueOf_cons_of_pos (by simp [Write.stands, hflight])]
  · rw [h.memory, h.chained.valueOf_of_neutral hneutral,
      valueOf_cons_of_pos (by simp [Write.stands, hflight])]

theorem Traced.undo (h : Traced view base memory writes) (hw : writes[n]? = some w)
    (hflight : w.status = .inFlight) (hrestorable : Restorable view writes n) :
    Traced view base w.previous (writes.set n (w.settle .undone)) := by
  obtain ⟨newer, older, rfl, hset, hcase⟩ := hrestorable.split hw hflight
  have hstands : w.stands = true := by simp [Write.stands, hflight]
  have hbehind : Chained view base (w.settle .undone :: older) :=
    ⟨fun hw => absurd hw (by simp [Write.stands]), h.chained.behind.2⟩
  have hgone : valueOf Write.stands base (w.settle .undone :: older) =
      valueOf Write.stands base older := valueOf_cons_of_neg (by simp [Write.stands])
  have hstart : view w.previous = view (valueOf Write.stands base older) :=
    h.chained.behind.1 hstands
  rw [hset]
  rcases hcase with hnone | ⟨hown, hneutral⟩
  · -- It is the newest write that stands.
    refine ⟨chained_append_of_none hnone hbehind, ?_⟩
    rw [valueOf_append_of_none hnone, hgone]
    exact hstart
  · -- Neither it nor what came after it shows in the view.
    have hsame : view (valueOf Write.stands base (w :: older)) =
        view (valueOf Write.stands base (w.settle .undone :: older)) := by
      rw [valueOf_cons_of_pos hstands, hgone, hown, hstart]
    have hchained := h.chained.replace hbehind hsame
    refine ⟨hchained, ?_⟩
    rw [hchained.valueOf_of_neutral hneutral, hgone]
    exact hstart

theorem consistent_start (hstored : view stored = view base) :
    Consistent view base base stored flagged ([] : List (Write κ ρ)) :=
  ⟨traced_start, .inr hstored, nofun⟩

theorem Consistent.push (h : Consistent view base memory stored flagged writes) :
    Consistent view base next stored flagged (⟨kind, memory, next, .inFlight⟩ :: writes) := by
  refine ⟨h.toTraced.push, ?_, fun w hw hskipped => ?_⟩
  · rw [valueOf_cons_of_neg rfl]
    exact h.stored
  · rcases List.mem_cons.mp hw with rfl | hw
    · cases hskipped
    · exact h.skipped w hw hskipped

theorem Consistent.skip (h : Consistent view base memory stored flagged writes) :
    Consistent view base memory stored flagged (⟨kind, memory, memory, .skipped⟩ :: writes) := by
  refine ⟨h.toTraced.skip, ?_, fun w hw hskipped => ?_⟩
  · rw [valueOf_cons_of_neg rfl]
    exact h.stored
  · rcases List.mem_cons.mp hw with rfl | hw
    · rfl
    · exact h.skipped w hw hskipped

theorem Consistent.skipped_set (h : Consistent view base memory stored flagged writes)
    {status : WriteStatus} (hstatus : status ≠ .skipped) :
    ∀ v ∈ writes.set n (w.settle status), v.status = .skipped → view v.next = view v.previous := by
  intro v hv hskipped
  rcases List.mem_or_eq_of_mem_set hv with hv | rfl
  · exact h.skipped v hv hskipped
  · exact absurd hskipped hstatus

theorem Consistent.save (h : Consistent view base memory stored flagged writes)
    (hw : writes[n]? = some w) (hflight : w.status = .inFlight) (horder : InOrder view writes n) :
    Consistent view base memory w.next false (writes.set n (w.settle .saved)) := by
  refine ⟨h.toTraced.stand hw hflight nofun, .inr ?_, h.skipped_set nofun⟩
  obtain ⟨newer, older, -, htake, hset⟩ := getElem?_split hw
  rw [hset]
  have hlater : ∀ v ∈ newer, v.wrote = true → view v.next = view w.next :=
    fun v hv hwrote => horder v (htake ▸ hv) hwrote w hw
  clear hset htake
  induction newer with
  | nil => rfl
  | cons v rest ih =>
      by_cases hv : v.wrote = true
      · rw [List.cons_append, valueOf_cons_of_pos hv]
        exact (hlater v List.mem_cons_self hv).symm
      · rw [List.cons_append, valueOf_cons_of_neg (by simpa using hv)]
        exact ih fun u hu => hlater u (List.mem_cons_of_mem v hu)

theorem Consistent.retain (h : Consistent view base memory stored flagged writes)
    (hw : writes[n]? = some w) (hflight : w.status = .inFlight) :
    Consistent view base memory stored true (writes.set n (w.settle .retained)) :=
  ⟨h.toTraced.stand hw hflight nofun, .inl rfl, h.skipped_set nofun⟩

theorem Consistent.undo (h : Consistent view base memory stored flagged writes)
    (hw : writes[n]? = some w) (hflight : w.status = .inFlight)
    (hrestorable : Restorable view writes n) :
    Consistent view base w.previous stored flagged (writes.set n (w.settle .undone)) := by
  refine ⟨h.toTraced.undo hw hflight hrestorable, ?_, h.skipped_set nofun⟩
  obtain ⟨newer, older, hwrites, -, hset⟩ := getElem?_split hw
  have hstored : view (valueOf Write.wrote base writes) =
      view (valueOf Write.wrote base (writes.set n (w.settle .undone))) := by
    rw [hset, hwrites]
    refine valueOf_append_congr ?_
    rw [valueOf_cons_of_neg (by simp [Write.wrote, hflight]),
      valueOf_cons_of_neg (by simp [Write.wrote])]
  exact hstored ▸ h.stored

/-- Once nothing is in flight and no flag is raised, the stored copy shows what memory does. -/
theorem Consistent.settled (h : Consistent view base memory stored false writes)
    (hsettled : ∀ w ∈ writes, w.inFlight = false) : view stored = view memory := by
  have hwritten : view (valueOf Write.wrote base writes) =
      view (valueOf Write.stands base writes) := by
    have hchained := h.chained
    have hskipped := h.skipped
    clear h
    induction writes with
    | nil => rfl
    | cons w older ih =>
        have hbehind := ih (fun v hv => hsettled v (List.mem_cons_of_mem w hv)) hchained.2
          fun v hv => hskipped v (List.mem_cons_of_mem w hv)
        have hflight := hsettled w List.mem_cons_self
        cases hstatus : w.status with
        | inFlight => simp [Write.inFlight, hstatus] at hflight
        | saved | retained => simp [valueOf, Write.wrote, Write.stands, hstatus]
        | undone =>
            rw [valueOf_cons_of_neg (by simp [Write.wrote, hstatus]),
              valueOf_cons_of_neg (by simp [Write.stands, hstatus])]
            exact hbehind
        | skipped =>
            have hstands : w.stands = true := by simp [Write.stands, hstatus]
            rw [valueOf_cons_of_neg (by simp [Write.wrote, hstatus]), valueOf_cons_of_pos hstands,
              hskipped w List.mem_cons_self hstatus, hchained.1 hstands]
            exact hbehind
  rcases h.stored with hflag | hstored
  · cases hflag
  · rw [hstored, hwritten, h.memory]

end Settling

end Strikedge.Machine
