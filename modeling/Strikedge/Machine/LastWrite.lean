import Mathlib.Data.List.Basic
import Mathlib.Data.List.Induction

/-!
# The last write to a register

A fold of events may write a register or leave it alone. What is read at the end is what the last
event that concerns the register has left there, or the first value if none does.
-/

namespace Strikedge.Machine

variable {σ ε ν : Type*} {f : σ → ε → σ} {Concerns : ε → Prop}

/-- An event after the one that is cut out is the last of them all, or there is none. -/
theorem append_singleton_cases {events earlier later : List ε} {last e : ε}
    (h : events ++ [last] = earlier ++ e :: later) :
    (later = [] ∧ events = earlier ∧ last = e) ∨
      ∃ before, later = before ++ [last] ∧ events = earlier ++ e :: before := by
  obtain rfl | ⟨before, e', rfl⟩ := later.eq_nil_or_concat'
  · obtain ⟨hevents, hlast⟩ := List.append_inj' h rfl
    exact .inl ⟨rfl, hevents, List.head_eq_of_cons_eq hlast⟩
  · have hsplit : events ++ [last] = (earlier ++ e :: before) ++ [e'] := by simpa using h
    obtain ⟨hevents, hlast⟩ := List.append_inj' hsplit rfl
    exact .inr ⟨before, by rw [hlast], hevents⟩

/-- The induction is on the events from the last one back. -/
theorem read_foldl_iff (read : σ → Option ν)
    (frame : ∀ s e, ¬Concerns e → read (f s e) = read s) (s : σ) (events : List ε) (v : ν) :
    read (events.foldl f s) = some v ↔
      (read s = some v ∧ ∀ e ∈ events, ¬Concerns e) ∨
        ∃ earlier e later, events = earlier ++ e :: later ∧ Concerns e ∧
          read (f (earlier.foldl f s) e) = some v ∧ ∀ e' ∈ later, ¬Concerns e' := by
  induction events using List.reverseRecOn with
  | nil => simp
  | append_singleton events last ih =>
    rw [List.foldl_append, List.foldl_cons, List.foldl_nil]
    by_cases hlast : Concerns last
    · constructor
      · intro h
        exact .inr ⟨events, last, [], rfl, hlast, h, by simp⟩
      · rintro (⟨-, hnone⟩ | ⟨earlier, e, later, heq, -, hv, hnone⟩)
        · exact absurd hlast (hnone last (by simp))
        · obtain ⟨-, rfl, rfl⟩ | ⟨before, rfl, -⟩ := append_singleton_cases heq
          · exact hv
          · exact absurd hlast (hnone last (by simp))
    · have hsnoc : ∀ es : List ε, (∀ e ∈ es, ¬Concerns e) → ∀ e ∈ es ++ [last], ¬Concerns e :=
        fun es hes => List.forall_mem_append.mpr ⟨hes, by simpa using hlast⟩
      rw [frame _ _ hlast, ih]
      constructor
      · rintro (⟨hs, hnone⟩ | ⟨earlier, e, later, rfl, he, hv, hnone⟩)
        · exact .inl ⟨hs, hsnoc _ hnone⟩
        · exact .inr ⟨earlier, e, later ++ [last], by simp, he, hv, hsnoc _ hnone⟩
      · rintro (⟨hs, hnone⟩ | ⟨earlier, e, later, heq, he, hv, hnone⟩)
        · exact .inl ⟨hs, (List.forall_mem_append.mp hnone).1⟩
        · obtain ⟨-, -, rfl⟩ | ⟨before, rfl, rfl⟩ := append_singleton_cases heq
          · exact absurd he hlast
          · exact .inr ⟨earlier, e, before, rfl, he, hv, (List.forall_mem_append.mp hnone).1⟩

end Strikedge.Machine
