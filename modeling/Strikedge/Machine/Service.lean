import Mathlib.Data.List.Basic

/-!
# Two services that answer alike

A service answers a request and moves to a new state. One service refines another when a
relation between their states is kept by every request and the answers agree: then they
agree on every sequence of requests.
-/

namespace Strikedge.Machine

variable {σ τ α ρ ρ' : Type*}

/-- The state after a sequence of requests, and the answers. -/
def serveAll (answer : σ → α → σ × ρ) : σ → List α → σ × List ρ
  | s, [] => (s, [])
  | s, request :: requests =>
    let (after, reply) := answer s request
    let (last, replies) := serveAll answer after requests
    (last, reply :: replies)

variable {answer : σ → α → σ × ρ} {answer' : τ → α → τ × ρ'} {R : σ → τ → Prop}
variable {A : ρ → ρ' → Prop} {L : α → Prop} {s : σ} {t : τ} {requests : List α}

/-- The simulation rule, for requests of a class. -/
theorem serveAll_refines
    (step : ∀ s t request, L request → R s t →
      R (answer s request).1 (answer' t request).1 ∧
        A (answer s request).2 (answer' t request).2)
    (hL : ∀ request ∈ requests, L request) (h : R s t) :
    R (serveAll answer s requests).1 (serveAll answer' t requests).1 ∧
      List.Forall₂ A (serveAll answer s requests).2 (serveAll answer' t requests).2 := by
  induction requests generalizing s t with
  | nil => exact ⟨h, .nil⟩
  | cons request requests ih =>
    obtain ⟨hstep, hreply⟩ := step s t request (hL request List.mem_cons_self) h
    obtain ⟨hlast, hreplies⟩ :=
      ih (fun other hother => hL other (List.mem_cons_of_mem _ hother)) hstep
    exact ⟨hlast, .cons hreply hreplies⟩

end Strikedge.Machine
