import Mathlib.Data.List.Nodup
import Mathlib.Data.List.Perm.Subperm
import Mathlib.Logic.Function.Basic

/-!
# Exclusive custody of tokens

Tokens are handed out by one source and kept by holders, each holder having a list
of them. Custody is exclusive when no token is kept twice: neither twice by one
holder nor by two holders. Two rules suffice for a system that moves, drops and
issues tokens: an exchange between two holders keeps custody when it creates nothing,
and a receipt keeps it when the token received is new.
-/

namespace Strikedge.Machine

variable {ι τ : Type*}

/-- No token is kept twice. -/
structure Custody (held : ι → List τ) : Prop where
  nodup : ∀ i, (held i).Nodup
  disjoint : ∀ i j, i ≠ j → (held i).Disjoint (held j)

namespace Custody

variable {held held' : ι → List τ} {i j : ι} {x : τ}

theorem empty : Custody fun _ : ι => ([] : List τ) where
  nodup _ := List.nodup_nil
  disjoint _ _ _ := List.disjoint_nil_left _

theorem holder_unique (h : Custody held) (hi : x ∈ held i) (hj : x ∈ held j) : i = j := by
  by_contra hne
  exact h.disjoint i j hne hi hj

/-- Tokens two different holders have, taken together, are all different. -/
theorem nodup_append (h : Custody held) (hne : i ≠ j) : (held i ++ held j).Nodup :=
  (h.nodup i).append (h.nodup j) (h.disjoint i j hne)

/-- The exchange rule: two holders pass tokens between them or drop them. -/
theorem exchange (h : Custody held) (hne : i ≠ j)
    (rest : ∀ k, k ≠ i → k ≠ j → held' k = held k)
    (moved : (held' i ++ held' j).Subperm (held i ++ held j)) : Custody held' := by
  obtain ⟨l, hperm, hsub⟩ := moved
  have hall : (held' i ++ held' j).Nodup := by
    rw [← hperm.nodup_iff]
    exact (h.nodup_append hne).sublist hsub
  obtain ⟨hi, hj, hij⟩ := List.nodup_append'.mp hall
  have source : ∀ {k}, k = i ∨ k = j → held' k ⊆ held i ++ held j := by
    rintro k (rfl | rfl) y hy
    · exact hsub.subset (hperm.mem_iff.mpr (List.mem_append_left _ hy))
    · exact hsub.subset (hperm.mem_iff.mpr (List.mem_append_right _ hy))
  -- A third holder's tokens were neither of the two before, so they are not now.
  have third : ∀ {k m}, (k = i ∨ k = j) → m ≠ i → m ≠ j → (held' k).Disjoint (held' m) := by
    intro k m hk hmi hmj y hy hm
    rw [rest m hmi hmj] at hm
    rcases List.mem_append.mp (source hk hy) with hy | hy
    · exact hmi (h.holder_unique hm hy)
    · exact hmj (h.holder_unique hm hy)
  constructor
  · intro k
    by_cases hki : k = i
    · exact hki ▸ hi
    · by_cases hkj : k = j
      · exact hkj ▸ hj
      · rw [rest k hki hkj]
        exact h.nodup k
  · intro k m hkm
    by_cases hk : k = i ∨ k = j
    · by_cases hm : m = i ∨ m = j
      · rcases hk with rfl | rfl <;> rcases hm with rfl | rfl
        · exact absurd rfl hkm
        · exact hij
        · exact List.disjoint_comm.mp hij
        · exact absurd rfl hkm
      · push Not at hm
        exact third hk hm.1 hm.2
    · push Not at hk
      by_cases hm : m = i ∨ m = j
      · exact List.disjoint_comm.mp (third hm hk.1 hk.2)
      · push Not at hm
        rw [rest k hk.1 hk.2, rest m hm.1 hm.2]
        exact h.disjoint k m hkm

/-- The receipt rule: a token nobody has goes to one holder. -/
theorem receive (h : Custody held) (rest : ∀ k, k ≠ i → held' k = held k)
    (got : held' i = x :: held i) (fresh : ∀ k, x ∉ held k) : Custody held' := by
  have source : ∀ {k y}, y ∈ held' k → y ∈ held k ∨ (y = x ∧ k = i) := by
    intro k y hy
    by_cases hk : k = i
    · subst hk
      rw [got] at hy
      rcases List.mem_cons.mp hy with rfl | hy
      · exact .inr ⟨rfl, rfl⟩
      · exact .inl hy
    · rw [rest k hk] at hy
      exact .inl hy
  constructor
  · intro k
    by_cases hk : k = i
    · subst hk
      rw [got]
      exact List.nodup_cons.mpr ⟨fresh k, h.nodup k⟩
    · rw [rest k hk]
      exact h.nodup k
  · intro k m hkm y hy hm
    rcases source hy with hy | ⟨rfl, rfl⟩
    · rcases source hm with hm | ⟨rfl, rfl⟩
      · exact h.disjoint k m hkm hy hm
      · exact fresh k hy
    · rcases source hm with hm | ⟨-, rfl⟩
      · exact fresh m hm
      · exact hkm rfl

end Custody

end Strikedge.Machine
