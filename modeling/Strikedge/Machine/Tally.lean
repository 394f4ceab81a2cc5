import Strikedge.Machine.OrderedMap
import Mathlib.Algebra.BigOperators.Group.List.Basic

/-!
# Tallies of a finite map

A tally adds up what each entry of a map contributes. A counter that a program keeps
beside a map is right exactly when it is the tally of the map, and each operation on the
map says by how much the counter has to move.
-/

namespace Strikedge

namespace OrderedMap

variable {κ ν A : Type*} [AddCommMonoid A]

/-- The sum of the contributions of all entries. -/
def tally (f : κ → ν → A) (m : OrderedMap κ ν) : A := (m.entries.map fun e => f e.1 e.2).sum

@[simp] theorem tally_empty {f : κ → ν → A} : tally f (∅ : OrderedMap κ ν) = 0 := rfl

@[simp] theorem tally_zero {m : OrderedMap κ ν} : m.tally (fun _ _ => (0 : A)) = 0 := by
  rw [tally]
  exact List.sum_eq_zero fun x hx => (List.mem_map.mp hx).elim fun _ h => h.2.symm

theorem sum_filter {es : List (κ × ν)} {f : κ × ν → A} {p : κ × ν → Bool} :
    ((es.filter p).map f).sum = (es.map fun e => if p e then f e else 0).sum := by
  induction es with
  | nil => rfl
  | cons e es ih =>
      by_cases h : p e = true
      · simp [h, ih]
      · simp [h, ih]

/-- Only the entries that pass a test are tallied after a filter. -/
theorem tally_filter {f : κ → ν → A} {m : OrderedMap κ ν} {p : κ → ν → Bool} :
    (m.filter p).tally f = m.tally fun k v => if p k v then f k v else 0 :=
  sum_filter

variable [DecidableEq κ]

/-- What the entry of a key contributes. -/
def share (f : κ → ν → A) (m : OrderedMap κ ν) (k : κ) : A := (m.get? k).elim 0 (f k)

variable {f g : κ → ν → A} {m : OrderedMap κ ν} {k : κ} {v w : ν}

theorem share_of_some (h : m.get? k = some v) : m.share f k = f k v := by
  rw [share, h]
  rfl

theorem share_of_none (h : m.get? k = none) : m.share f k = 0 := by
  rw [share, h]
  rfl

theorem sum_put (es : List (κ × ν)) (k : κ) (v : ν) :
    ((put es k v).map fun e => f e.1 e.2).sum + (find es k).elim 0 (f k) =
      (es.map fun e => f e.1 e.2).sum + f k v := by
  induction es with
  | nil => simp [put, find]
  | cons e es ih =>
      obtain ⟨k', v'⟩ := e
      by_cases h : k' = k
      · subst h
        simp only [put, find, if_true, List.map_cons, List.sum_cons, Option.elim_some]
        exact add_right_comm _ _ _ |>.trans (by rw [add_comm (f k' v), add_right_comm])
      · rw [put, if_neg h, find, if_neg h, List.map_cons, List.sum_cons, add_assoc, ih,
          List.map_cons, List.sum_cons, add_assoc]

/-- A tally of natural numbers is positive when some entry contributes. -/
theorem tally_pos_iff {f : κ → ν → Nat} :
    0 < m.tally f ↔ ∃ k v, m.get? k = some v ∧ 0 < f k v := by
  rw [tally, List.sum_pos_iff_exists_pos_nat]
  constructor
  · rintro ⟨x, hx, hpos⟩
    obtain ⟨e, he, rfl⟩ := List.mem_map.mp hx
    exact ⟨e.1, e.2, mem_entries_iff.mp he, hpos⟩
  · rintro ⟨k, v, hget, hpos⟩
    exact ⟨_, List.mem_map.mpr ⟨_, mem_entries_iff.mpr hget, rfl⟩, hpos⟩

/-- Setting a key replaces what it contributed. -/
theorem tally_set (f : κ → ν → A) (m : OrderedMap κ ν) (k : κ) (v : ν) :
    (m.set k v).tally f + m.share f k = m.tally f + f k v :=
  sum_put m.entries k v

/-- A new key adds its contribution. -/
theorem tally_set_new (h : m.get? k = none) : (m.set k v).tally f = m.tally f + f k v := by
  have hset := tally_set f m k v
  rwa [share_of_none h, add_zero] at hset

theorem sum_delete (es : List (κ × ν)) (hn : (es.map Prod.fst).Nodup) (k : κ) :
    ((es.filter fun e => e.1 ≠ k).map fun e => f e.1 e.2).sum + (find es k).elim 0 (f k) =
      (es.map fun e => f e.1 e.2).sum := by
  induction es with
  | nil => simp [find]
  | cons e es ih =>
      obtain ⟨k', v'⟩ := e
      obtain ⟨fresh, rest⟩ := List.nodup_cons.mp hn
      by_cases h : k' = k
      · subst h
        have hkeep : es.filter (fun e => e.1 ≠ k') = es := by
          refine List.filter_eq_self.mpr fun e he => ?_
          have hne : e.1 ≠ k' := fun heq => fresh (List.mem_map.mpr ⟨e, he, heq⟩)
          simpa using hne
        simp only [ne_eq, not_true_eq_false, decide_false, Bool.false_eq_true,
          not_false_eq_true, List.filter_cons_of_neg, find, if_true, List.map_cons,
          List.sum_cons, Option.elim_some]
        rw [hkeep, add_comm]
      · have hcons : ((k', v') :: es).filter (fun e => e.1 ≠ k) =
            (k', v') :: es.filter fun e => e.1 ≠ k :=
          List.filter_cons_of_pos (by simpa using h)
        rw [hcons, List.map_cons, List.sum_cons, find, if_neg h, add_assoc, ih rest,
          List.map_cons, List.sum_cons]

/-- Deleting a key takes its contribution away. -/
theorem tally_delete (f : κ → ν → A) (m : OrderedMap κ ν) (k : κ) :
    (m.delete k).tally f + m.share f k = m.tally f :=
  sum_delete m.entries m.nodup k

/-- Entries that contribute the same give the same tally. -/
theorem tally_congr (h : ∀ k v, m.get? k = some v → f k v = g k v) :
    m.tally f = m.tally g := by
  rw [tally, tally]
  congr 1
  refine List.map_congr_left fun e he => h e.1 e.2 (mem_entries_iff.mp he)

theorem tally_eq_zero (h : ∀ k, m.get? k = none) : m.tally f = 0 := by
  have hempty : m.entries = [] := by
    refine List.eq_nil_iff_forall_not_mem.mpr fun e he => ?_
    have := mem_entries_iff.mp (show (e.1, e.2) ∈ m.entries from he)
    rw [h] at this
    cases this
  rw [tally, hempty]
  rfl

end OrderedMap

end Strikedge
