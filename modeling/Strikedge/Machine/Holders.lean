import Mathlib.Data.Finset.Basic

/-!
# Reference counting by named holders

A resource is held for as long as somebody named needs it. The table keeps, for every
resource that is held, the set of its holders; the specification is only the relation
"`u` needs `k`". `Counts` says that the table is exactly that relation: a resource is in
the table when somebody needs it, and with precisely those who do. Joining a resource
that is held, taking one that is not, and leaving one keep it so.
-/

namespace Strikedge.Machine

variable {κ η : Type*}

/-- The table `held` lists exactly the holders that need each resource. -/
structure Counts (held : κ → Option (Finset η)) (needs : κ → η → Prop) : Prop where
  present : ∀ k holders, held k = some holders →
    holders.Nonempty ∧ ∀ u, u ∈ holders ↔ needs k u
  absent : ∀ k, held k = none → ∀ u, ¬needs k u

namespace Counts

variable {held held' : κ → Option (Finset η)} {needs needs' : κ → η → Prop} {k : κ} {u : η}

theorem empty : Counts (fun _ : κ => (none : Option (Finset η))) fun _ _ => False where
  present _ _ := nofun
  absent _ _ _ := id

/-- A resource is held exactly while somebody needs it. -/
theorem held_iff (h : Counts held needs) : (held k).isSome = true ↔ ∃ u, needs k u := by
  cases hk : held k with
  | none =>
      simp only [Option.isSome_none, Bool.false_eq_true, false_iff, not_exists]
      exact h.absent k hk
  | some holders =>
      obtain ⟨⟨u, hu⟩, hmem⟩ := h.present k holders hk
      simp only [Option.isSome_some, true_iff]
      exact ⟨u, (hmem u).mp hu⟩

/-- Whoever needs a resource is among its holders. -/
theorem holder (h : Counts held needs) (hu : needs k u) :
    ∃ holders, held k = some holders ∧ u ∈ holders := by
  cases hk : held k with
  | none => exact absurd hu (h.absent k hk u)
  | some holders => exact ⟨holders, rfl, ((h.present k holders hk).2 u).mpr hu⟩

theorem congr (h : Counts held needs) (hheld : ∀ k, held' k = held k)
    (hneeds : ∀ k u, needs' k u ↔ needs k u) : Counts held' needs' where
  present k holders hk := by
    obtain ⟨hne, hmem⟩ := h.present k holders (hheld k ▸ hk)
    exact ⟨hne, fun u => (hmem u).trans (hneeds k u).symm⟩
  absent k hk u hu := h.absent k (hheld k ▸ hk) u ((hneeds k u).mp hu)

variable [DecidableEq κ]

/-- A first holder takes a resource that is not held. -/
theorem take (h : Counts held needs) (hk : held k = none)
    (hheld : ∀ x, held' x = if x = k then some {u} else held x)
    (hneeds : ∀ x v, needs' x v ↔ needs x v ∨ (x = k ∧ v = u)) : Counts held' needs' where
  present x holders hx := by
    rw [hheld] at hx
    split at hx
    · rename_i heq
      cases hx
      subst heq
      refine ⟨Finset.singleton_nonempty u, fun v => ?_⟩
      rw [Finset.mem_singleton, hneeds]
      have := h.absent x hk v
      tauto
    · rename_i hne
      obtain ⟨hsome, hmem⟩ := h.present x holders hx
      exact ⟨hsome, fun v => by rw [hneeds, hmem]; tauto⟩
  absent x hx v hv := by
    rw [hheld] at hx
    split at hx
    · cases hx
    · rename_i hne
      obtain hv | ⟨heq, -⟩ := (hneeds x v).mp hv
      · exact h.absent x hx v hv
      · exact hne heq

variable [DecidableEq η]

/-- One more holder joins a resource that is held. -/
theorem join (h : Counts held needs) (hk : (held k).isSome = true)
    (hheld : ∀ x, held' x = if x = k then (held x).map (insert u ·) else held x)
    (hneeds : ∀ x v, needs' x v ↔ needs x v ∨ (x = k ∧ v = u)) : Counts held' needs' where
  present x holders hx := by
    rw [hheld] at hx
    split at hx
    · rename_i heq
      obtain ⟨before, hbefore, rfl⟩ := Option.map_eq_some_iff.mp hx
      obtain ⟨-, hmem⟩ := h.present x before hbefore
      refine ⟨Finset.insert_nonempty u before, fun v => ?_⟩
      rw [Finset.mem_insert, hneeds, hmem]
      tauto
    · rename_i hne
      obtain ⟨hsome, hmem⟩ := h.present x holders hx
      exact ⟨hsome, fun v => by rw [hneeds, hmem]; tauto⟩
  absent x hx v hv := by
    rw [hheld] at hx
    split at hx
    · rename_i heq
      rw [Option.map_eq_none_iff, heq] at hx
      rw [hx] at hk
      cases hk
    · rename_i hne
      obtain hv | ⟨heq, -⟩ := (hneeds x v).mp hv
      · exact h.absent x hx v hv
      · exact hne heq

/-- A holder leaves, and the resource goes with the last one. -/
theorem leave (h : Counts held needs)
    (hheld : ∀ x, held' x =
      if x = k then ((held x).map (·.erase u)).filter (·.Nonempty) else held x)
    (hneeds : ∀ x v, needs' x v ↔ needs x v ∧ ¬(x = k ∧ v = u)) : Counts held' needs' where
  present x holders hx := by
    rw [hheld] at hx
    split at hx
    · rename_i heq
      obtain ⟨hmap, hne⟩ := Option.filter_eq_some_iff.mp hx
      obtain ⟨before, hbefore, rfl⟩ := Option.map_eq_some_iff.mp hmap
      obtain ⟨-, hmem⟩ := h.present x before hbefore
      refine ⟨by simpa using hne, fun v => ?_⟩
      rw [Finset.mem_erase, hneeds, hmem]
      tauto
    · rename_i hne
      obtain ⟨hsome, hmem⟩ := h.present x holders hx
      exact ⟨hsome, fun v => by rw [hneeds, hmem]; tauto⟩
  absent x hx v hv := by
    obtain ⟨hv, hother⟩ := (hneeds x v).mp hv
    rw [hheld] at hx
    split at hx
    · rename_i heq
      obtain ⟨before, hbefore, hmem⟩ := h.holder hv
      rw [hbefore, Option.map_some, Option.filter_some] at hx
      split at hx
      · cases hx
      · rename_i hempty
        have hvu : v ≠ u := fun hvu => hother ⟨heq, hvu⟩
        exact hempty (decide_eq_true ⟨v, Finset.mem_erase.mpr ⟨hvu, hmem⟩⟩)
    · exact h.absent x hx v hv

end Counts

end Strikedge.Machine
