import Mathlib.Data.List.Nodup

/-!
# Insertion-ordered sets

A set of the source language keeps its members in the order of their first insertion. It is a
list without duplicates, to the end of which `add` puts what is new.
-/

namespace Strikedge.Machine

variable {α : Type*} [DecidableEq α] {members values : List α} {x y : α}

/-- `add` of a set. -/
def addMember (members : List α) (x : α) : List α :=
  if x ∈ members then members else members ++ [x]

@[simp] theorem mem_addMember : y ∈ addMember members x ↔ y = x ∨ y ∈ members := by
  rw [addMember]
  split
  · rename_i hmem
    constructor
    · exact .inr
    · rintro (rfl | h)
      · exact hmem
      · exact h
  · rw [List.mem_append, List.mem_singleton, or_comm]

theorem nodup_addMember (h : members.Nodup) : (addMember members x).Nodup := by
  rw [addMember]
  split
  · exact h
  · rename_i hnew
    refine List.nodup_append.mpr ⟨h, List.nodup_singleton x, ?_⟩
    rintro old hold new hnew' rfl
    exact hnew (List.mem_singleton.mp hnew' ▸ hold)

theorem mem_foldl_addMember :
    y ∈ values.foldl addMember members ↔ y ∈ values ∨ y ∈ members := by
  induction values generalizing members with
  | nil => simp
  | cons x values ih =>
      rw [List.foldl_cons, ih, mem_addMember, List.mem_cons]
      tauto

theorem nodup_foldl_addMember (h : members.Nodup) :
    (values.foldl addMember members).Nodup := by
  induction values generalizing members with
  | nil => exact h
  | cons x values ih => exact ih (nodup_addMember h)

end Strikedge.Machine
