import Mathlib.Init

/-!
# Runs of a partial step function

A component is a partial function `step : σ → α → Option σ`: the label says which
pending continuation runs and what its environment answers, and `none` means that
the label is not enabled. A run is a list of labels, so the order of labels is the
interleaving and every theorem about all label lists is about all interleavings.

`Throughout` asks a predicate of every state a run visits, `Heeds` asks a condition
of every step it takes. The rules below turn one-step facts into facts about runs.
-/

namespace Strikedge.Machine

variable {σ α : Type*}

/-- Execute a list of labels. `none` means that some label was not enabled. -/
def run (step : σ → α → Option σ) : σ → List α → Option σ
  | s, [] => some s
  | s, a :: as => (step s a).bind (run step · as)

section Run

variable {step : σ → α → Option σ} {s t u : σ} {a : α} {as bs : List α}

@[simp] theorem run_nil : run step s [] = some s := rfl

@[simp] theorem run_cons : run step s (a :: as) = (step s a).bind (run step · as) := rfl

theorem run_cons_eq_some :
    run step s (a :: as) = some t ↔ ∃ u, step s a = some u ∧ run step u as = some t := by
  simp [Option.bind_eq_some_iff]

/-- Runs compose, so a run can be cut at any label. -/
theorem run_append :
    run step s (as ++ bs) = (run step s as).bind (run step · bs) := by
  induction as generalizing s with
  | nil => rfl
  | cons a as ih =>
      cases h : step s a with
      | none => simp [h]
      | some u => simpa [h] using ih

theorem run_append_eq_some :
    run step s (as ++ bs) = some t ↔ ∃ u, run step s as = some u ∧ run step u bs = some t := by
  rw [run_append, Option.bind_eq_some_iff]

/-- An invariant of single steps is an invariant of runs. -/
theorem run_invariant {I : σ → Prop} (preserved : ∀ s a t, I s → step s a = some t → I t)
    (hs : I s) (h : run step s as = some t) : I t := by
  induction as generalizing s with
  | nil => exact Option.some.inj h ▸ hs
  | cons a as ih =>
      obtain ⟨u, hu, ht⟩ := run_cons_eq_some.mp h
      exact ih (preserved s a u hs hu) ht

end Run

/-- The predicate holds in every state the labels visit, the first one included. -/
def Throughout (step : σ → α → Option σ) (P : σ → Prop) : σ → List α → Prop
  | s, [] => P s
  | s, a :: as => P s ∧ ∀ t, step s a = some t → Throughout step P t as

/-- Every step the labels take meets a condition on its label and the state before it. -/
def Heeds (step : σ → α → Option σ) (C : σ → α → Prop) : σ → List α → Prop
  | _, [] => True
  | s, a :: as => ∀ t, step s a = some t → C s a ∧ Heeds step C t as

/-- A condition that can be checked at every step can be checked along a run. -/
instance decidableHeeds (step : σ → α → Option σ) (C : σ → α → Prop)
    [hC : ∀ s a, Decidable (C s a)] : ∀ s as, Decidable (Heeds step C s as)
  | _, [] => .isTrue trivial
  | s, a :: as =>
      match h : step s a with
      | none => .isTrue fun t ht => by rw [h] at ht; cases ht
      | some t =>
          match hC s a, decidableHeeds step C t as with
          | .isTrue hc, .isTrue hrest => .isTrue fun u hu => by
              obtain rfl : t = u := Option.some.inj (h.symm.trans hu)
              exact ⟨hc, hrest⟩
          | .isFalse hc, _ => .isFalse fun hh => hc (hh t h).1
          | _, .isFalse hrest => .isFalse fun hh => hrest (hh t h).2

section Guarded

variable {step : σ → α → Option σ} {C D : σ → α → Prop} {P Q I : σ → Prop}
variable {s t u : σ} {a : α} {as bs : List α}

@[simp] theorem throughout_nil : Throughout step P s [] ↔ P s := Iff.rfl

@[simp] theorem throughout_cons :
    Throughout step P s (a :: as) ↔ P s ∧ ∀ t, step s a = some t → Throughout step P t as :=
  Iff.rfl

@[simp] theorem heeds_nil : Heeds step C s [] := trivial

@[simp] theorem heeds_cons :
    Heeds step C s (a :: as) ↔ ∀ t, step s a = some t → C s a ∧ Heeds step C t as := Iff.rfl

theorem Throughout.head (h : Throughout step P s as) : P s := by
  cases as with
  | nil => exact h
  | cons a as => exact h.1

theorem Throughout.mono (imp : ∀ s, P s → Q s) (h : Throughout step P s as) :
    Throughout step Q s as := by
  induction as generalizing s with
  | nil => exact imp s h
  | cons a as ih => exact ⟨imp s h.1, fun t ht => ih (h.2 t ht)⟩

/-- A predicate that holds throughout a run holds where the run ends. -/
theorem Throughout.last (h : Throughout step P s as) (hrun : run step s as = some t) : P t := by
  induction as generalizing s with
  | nil => exact Option.some.inj hrun ▸ h
  | cons a as ih =>
      obtain ⟨u, hu, ht⟩ := run_cons_eq_some.mp hrun
      exact ih (h.2 u hu) ht

theorem Heeds.mono (imp : ∀ s a, C s a → D s a) (h : Heeds step C s as) :
    Heeds step D s as := by
  induction as generalizing s with
  | nil => trivial
  | cons a as ih =>
      intro t ht
      obtain ⟨hc, hrest⟩ := h t ht
      exact ⟨imp s a hc, ih hrest⟩

/-- Two conditions that agree on the enabled steps of a run are heeded together. -/
theorem Heeds.congr {N : σ → α → Prop} (preserved : ∀ s a t, I s → step s a = some t → I t)
    (equiv : ∀ s a t, I s → N s a → step s a = some t → (C s a ↔ D s a))
    (hI : I s) (hN : Heeds step N s as) : Heeds step C s as ↔ Heeds step D s as := by
  induction as generalizing s with
  | nil => exact Iff.rfl
  | cons a as ih =>
      constructor
      · intro h t ht
        obtain ⟨hn, hrest⟩ := hN t ht
        have hcd := equiv s a t hI hn ht
        exact ⟨hcd.mp (h t ht).1, (ih (preserved s a t hI ht) hrest).mp (h t ht).2⟩
      · intro h t ht
        obtain ⟨hn, hrest⟩ := hN t ht
        have hcd := equiv s a t hI hn ht
        exact ⟨hcd.mpr (h t ht).1, (ih (preserved s a t hI ht) hrest).mpr (h t ht).2⟩

/-- Conditions on the two halves of a run are a condition on the whole run. -/
theorem Heeds.split (h : Heeds step C s (as ++ bs)) (hrun : run step s as = some t) :
    Heeds step C s as ∧ Heeds step C t bs := by
  induction as generalizing s with
  | nil => exact ⟨trivial, Option.some.inj hrun ▸ h⟩
  | cons a as ih =>
      obtain ⟨u, hu, ht⟩ := run_cons_eq_some.mp hrun
      refine ⟨fun v hv => ?_, (ih (h u hu).2 ht).2⟩
      obtain rfl : u = v := Option.some.inj (hu.symm.trans hv)
      exact ⟨(h u hu).1, (ih (h u hu).2 ht).1⟩

theorem Heeds.append (h : Heeds step C s as) (hrest : Heeds step C t bs)
    (hrun : run step s as = some t) : Heeds step C s (as ++ bs) := by
  induction as generalizing s with
  | nil => exact Option.some.inj hrun ▸ hrest
  | cons a as ih =>
      obtain ⟨u, hu, ht⟩ := run_cons_eq_some.mp hrun
      intro v hv
      obtain rfl : u = v := Option.some.inj (hu.symm.trans hv)
      exact ⟨(h u hu).1, ih (h u hu).2 ht⟩

/-- The guarded invariant rule, for runs whose labels all belong to a class: what every
step meeting the condition preserves holds throughout every run that heeds the condition. -/
theorem Throughout.of_heeds_among {L : α → Prop}
    (preserved : ∀ s a t, L a → I s → C s a → step s a = some t → I t)
    (hs : I s) (hL : ∀ a ∈ as, L a) (h : Heeds step C s as) : Throughout step I s as := by
  induction as generalizing s with
  | nil => exact hs
  | cons a as ih =>
      refine ⟨hs, fun t ht => ?_⟩
      obtain ⟨hc, hrest⟩ := h t ht
      have ha : L a := hL a List.mem_cons_self
      exact ih (preserved s a t ha hs hc ht) (fun b hb => hL b (List.mem_cons_of_mem a hb)) hrest

/-- The guarded invariant rule. -/
theorem Throughout.of_heeds (preserved : ∀ s a t, I s → C s a → step s a = some t → I t)
    (hs : I s) (h : Heeds step C s as) : Throughout step I s as :=
  Throughout.of_heeds_among (L := fun _ => True) (fun s a t _ => preserved s a t) hs
    (fun _ _ => trivial) h

/-- What every label of a class preserves holds throughout every run of such labels. -/
theorem Throughout.of_invariant_among {L : α → Prop}
    (preserved : ∀ s a t, L a → I s → step s a = some t → I t) (hs : I s)
    (hL : ∀ a ∈ as, L a) : Throughout step I s as := by
  induction as generalizing s with
  | nil => exact hs
  | cons a as ih =>
      refine ⟨hs, fun t ht => ?_⟩
      have ha : L a := hL a List.mem_cons_self
      exact ih (preserved s a t ha hs ht) fun b hb => hL b (List.mem_cons_of_mem a hb)

theorem Throughout.of_invariant (preserved : ∀ s a t, I s → step s a = some t → I t)
    (hs : I s) : Throughout step I s as :=
  Throughout.of_invariant_among (L := fun _ => True) (fun s a t _ => preserved s a t) hs
    fun _ _ => trivial

/-- The exact form of the guarded rule, for runs whose labels all belong to a class.
Where a step keeps `P` precisely when it meets the condition, a run keeps `P`
throughout precisely when it heeds the condition. -/
theorem throughout_iff_heeds {L : α → Prop}
    (preserved : ∀ s a t, L a → I s → P s → C s a → step s a = some t → I t)
    (exact' : ∀ s a t, L a → I s → P s → step s a = some t → (P t ↔ C s a))
    (hI : I s) (hP : P s) (hL : ∀ a ∈ as, L a) :
    Throughout step P s as ↔ Heeds step C s as := by
  induction as generalizing s with
  | nil => exact ⟨fun _ => trivial, fun _ => hP⟩
  | cons a as ih =>
      have ha : L a := hL a List.mem_cons_self
      have has : ∀ b ∈ as, L b := fun b hb => hL b (List.mem_cons_of_mem a hb)
      constructor
      · intro h t ht
        have hPt : P t := (h.2 t ht).head
        have hc : C s a := (exact' s a t ha hI hP ht).mp hPt
        exact ⟨hc, (ih (preserved s a t ha hI hP hc ht) hPt has).mp (h.2 t ht)⟩
      · intro h
        refine ⟨hP, fun t ht => ?_⟩
        obtain ⟨hc, hrest⟩ := h t ht
        have hPt : P t := (exact' s a t ha hI hP ht).mpr hc
        exact (ih (preserved s a t ha hI hP hc ht) hPt has).mpr hrest

end Guarded

end Strikedge.Machine
