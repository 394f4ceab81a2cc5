import Mathlib.Data.List.Induction
import Strikedge.Machine.OrderedSet
import Strikedge.Orders.Process

/-!
# Histories of durable intents

The journal is a sequence of transactions: `createBoxOrderIntent` and
`updateBoxOrderIntent` are performed one after the other, whoever issues them. A call that
the manager issues proposes an intent built from a request or carries an audit built for
the row it updates; its patch and its expected states may be any. This module says what a
row keeps from one moment of such a history to any later one.
-/

namespace Strikedge.Orders

open Machine (addMember mem_addMember nodup_addMember)

/-- The calls the order manager can issue. -/
inductive JournalCall.Issued : JournalCall → Prop where
  | create (request : BrokerOrderRequest) : Issued (.create (intentFromRequest request))
  | update (intent : BoxOrderIntent) (patch : BoxOrderIntentPatch)
      (state : BoxOrderIntentState) (brokerOrderId : Option String) (message : String)
      (fillIdentity : Option String) (localRefusal : Option (String × String))
      (expectedStates : Option (List BoxOrderIntentState)) :
      Issued (.update intent.clientOrderId patch
        (auditFor intent state brokerOrderId message fillIdentity localRefusal) expectedStates)
  | loadNonterminal : Issued .loadNonterminal
  | loadOwned : Issued .loadOwned

/-- A performed call and its reply. -/
abbrev Exchange := JournalCall × JournalReply

/-- Perform calls one after the other. -/
def Journal.performAll (store : Persistence) :
    Journal → List JournalCall → Journal × List Exchange
  | j, [] => (j, [])
  | j, call :: calls =>
      let (written, reply) := j.perform store call
      let (final, exchanges) := written.performAll store calls
      (final, (call, reply) :: exchanges)

/-- The journal after some calls, from an empty one. -/
def Journal.after (calls : List JournalCall) : Journal :=
  (Journal.empty.performAll repository calls).1

/-- The exchanges of these calls. -/
def Journal.exchanges (calls : List JournalCall) : List Exchange :=
  (Journal.empty.performAll repository calls).2

/-- The states an intent may have later: CREATED and SUBMITTING are not entered again,
COMPLETE and REJECTED are final, CANCELLED gives way to COMPLETE alone. -/
structure BoxOrderIntentState.Precedes (now later : BoxOrderIntentState) : Prop where
  created : later = .created → now = .created
  submitting : later = .submitting → now = .created ∨ now = .submitting
  complete : now = .complete → later = .complete
  rejected : now = .rejected → later = .rejected
  cancelled : now = .cancelled → later = .cancelled ∨ later = .complete

/-- How often an audit id stands in the row of an intent. -/
def BoxOrderIntent.auditCount (row : BoxOrderIntent) (auditId : String) : Nat :=
  (row.audit.map (·.auditId)).count auditId

/-- How often an audit id stands in the transition table. -/
def Journal.transitionCount (j : Journal) (auditId : String) : Nat :=
  (j.transitions.map (·.2.auditId)).count auditId

/-- The fill a reply reports to have been added to a row. -/
def Exchange.delta (id : ClientOrderId) : Exchange → Nat
  | (.update x _ _ _, .updated (.applied _ previous current)) =>
      if x = id then current - previous else 0
  | _ => 0

/-- An applied update reports the row and its fill on both sides of the write, and does
not give a row with a broker order id another nonempty one. -/
structure AppliedFaithfully (j j' : Journal) (id : ClientOrderId) (row : BoxOrderIntent)
    (previous current : Nat) : Prop where
  before : ∃ was, j.find id = some was ∧ previous = was.filledQuantity ∧
    ∀ b b', was.brokerOrderId = some b → row.brokerOrderId = some b' → b' ≠ "" → b' = b
  after : j'.find id = some row ∧ current = row.filledQuantity
  monotone : previous ≤ current

/-- The law of durable intents over a history `calls` that is continued by `later`. -/
structure IntentLaw (calls later : List JournalCall) : Prop where
  /-- a row stays, its fill never falls and its state only moves on -/
  row : ∀ id now, (Journal.after calls).find id = some now →
    ∃ row, (Journal.after (calls ++ later)).find id = some row ∧
      now.filledQuantity ≤ row.filledQuantity ∧ now.state.Precedes row.state
  /-- every update applied next is reported as it happened -/
  applied : ∀ id patch audit expected row previous current,
    ((Journal.after calls).perform repository (.update id patch audit expected)).2 =
      .updated (.applied row previous current) →
    AppliedFaithfully (Journal.after calls)
      ((Journal.after calls).perform repository (.update id patch audit expected)).1
      id row previous current
  /-- no audit id is recorded twice in a row -/
  recorded : ∀ id now, (Journal.after calls).find id = some now → ∀ audit ∈ now.audit,
    now.auditCount audit.auditId = 1
  /-- the audit of an applied update is recorded once in its row and once in the table -/
  audited : ∀ id patch audit expected row previous current,
    ((.update id patch audit expected, .updated (.applied row previous current)) : Exchange) ∈
      Journal.exchanges calls →
    (∃ now, (Journal.after calls).find id = some now ∧ now.auditCount audit.auditId = 1) ∧
      (Journal.after calls).transitionCount audit.auditId = 1
  /-- the reported increments of a row add up to its fill -/
  deltas : ∀ id now, (Journal.after calls).find id = some now →
    ((Journal.exchanges calls).map (Exchange.delta id)).sum = now.filledQuantity

/-- The law with the two parts that the journal does not keep: a broker order id is never
erased, and the audit of the creation is in the table as well. -/
structure StrictIntentLaw (calls later : List JournalCall) : Prop
    extends IntentLaw calls later where
  brokerOrderId : ∀ id now row b, (Journal.after calls).find id = some now →
    (Journal.after (calls ++ later)).find id = some row →
    now.brokerOrderId = some b → row.brokerOrderId = some b
  tabled : ∀ id now, (Journal.after calls).find id = some now → ∀ audit ∈ now.audit,
    (Journal.after calls).transitionCount audit.auditId = 1

section Issued

variable {intent : BoxOrderIntent} {order : BrokerOrder} {state : BoxOrderIntentState}
variable {brokerOrderId : Option String} {message : String} {call : JournalCall}
variable {expected : Option (List BoxOrderIntentState)} {localRefusal : Option (String × String)}

theorem issued_persistCall : (persistCall intent order message).Issued :=
  .update intent (orderPatch order) order.state order.brokerOrderId message order.lastFillId
    none none

theorem issued_transitionCall :
    (transitionCall intent state brokerOrderId message expected localRefusal).Issued :=
  .update intent (transitionPatch state brokerOrderId) state brokerOrderId message none
    localRefusal expected

end Issued

namespace BoxOrderIntentState

variable {s t u : BoxOrderIntentState}

theorem Precedes.refl (s : BoxOrderIntentState) : s.Precedes s where
  created h := h
  submitting h := .inr h
  complete h := h
  rejected h := h
  cancelled h := .inl h

theorem Precedes.trans (h : s.Precedes t) (h' : t.Precedes u) : s.Precedes u where
  created hu := h.created (h'.created hu)
  submitting hu := by
    rcases h'.submitting hu with ht | ht
    · exact .inl (h.created ht)
    · exact h.submitting ht
  complete hs := h'.complete (h.complete hs)
  rejected hs := h'.rejected (h.rejected hs)
  cancelled hs := by
    rcases h.cancelled hs with ht | ht
    · exact h'.cancelled ht
    · exact .inr (h'.complete ht)

/-- The table of predecessors lists no state that must not be left for its key. -/
theorem precedes_of_predecessor (h : s ∈ intentStatePredecessors t) : s.Precedes t := by
  constructor
  · intro ht
    subst ht
    simpa [intentStatePredecessors] using h
  · intro ht
    subst ht
    simpa [intentStatePredecessors] using h
  · intro hs
    subst hs
    cases t <;> simp [intentStatePredecessors] at h ⊢
  · intro hs
    subst hs
    cases t <;> simp [intentStatePredecessors] at h ⊢
  · intro hs
    subst hs
    cases t <;> simp [intentStatePredecessors] at h ⊢

end BoxOrderIntentState

theorem length_text (s : BoxOrderIntentState) : 4 ≤ (toString s.text).length := by
  cases s <;> decide

/-- The audit of a transition never has the id of the creation's: it is longer. -/
theorem auditFor_ne_created (intent : BoxOrderIntent) (state : BoxOrderIntentState)
    (brokerOrderId : Option String) (message : String) (fillIdentity : Option String)
    (localRefusal : Option (String × String)) :
    (auditFor intent state brokerOrderId message fillIdentity localRefusal).auditId ≠
      s!"{intent.clientOrderId}:CREATED" := by
  intro h
  have hlength := congrArg String.length h
  simp only [auditFor, String.length_append] at hlength
  have hfrom := length_text intent.state
  have hto := length_text state
  have hcreated : (toString ":CREATED").length = 8 := by decide
  have hcolon : (toString ":").length = 1 := by decide
  have harrow : (toString "->").length = 2 := by decide
  omega

/-- What one call can do: write nothing, insert a row, or replace a row by its patched
self and record the audit. -/
inductive Journal.Performs (store : Persistence) (j : Journal) :
    JournalCall → Journal → JournalReply → Prop where
  | nothing {call : JournalCall} {reply : JournalReply}
      (unapplied : ∀ row previous current,
        reply ≠ .updated (.applied row previous current)) : Performs store j call j reply
  | inserted {intent : BoxOrderIntent} (fresh : j.find intent.clientOrderId = none) :
      Performs store j (.create intent) (j.put intent) (.created intent)
  | written {id : ClientOrderId} {patch : BoxOrderIntentPatch} {audit : BoxOrderIntentAudit}
      {expected : Option (List BoxOrderIntentState)} {before : BoxOrderIntent}
      (found : j.find id = some before) (admitted : store.admits before patch expected = true)
      (sound : store.violates j ((patch.apply before).recordAudit audit) = none) :
      Performs store j (.update id patch audit expected)
        (if before.audit.any (·.auditId = audit.auditId) then
          j.put ((patch.apply before).recordAudit audit)
        else (j.put ((patch.apply before).recordAudit audit)).recordTransition id audit)
        (.updated (.applied ((patch.apply before).recordAudit audit) before.filledQuantity
          ((patch.apply before).recordAudit audit).filledQuantity))

theorem Journal.performs (store : Persistence) (j : Journal) (call : JournalCall) :
    j.Performs store call (j.perform store call).1 (j.perform store call).2 := by
  cases call with
  | create intent =>
      simp only [perform, createBoxOrderIntent]
      cases hfind : j.find intent.clientOrderId with
      | none => exact .inserted hfind
      | some row =>
          cases hmismatch : immutableMismatch row intent with
          | none =>
              simp only [hmismatch]
              exact .nothing (by simp)
          | some field =>
              simp only [hmismatch]
              exact .nothing (by simp)
  | update id patch audit expected =>
      simp only [perform, updateBoxOrderIntent]
      cases hfind : j.find id with
      | none => exact .nothing (by simp)
      | some before =>
          by_cases hadmit : store.admits before patch expected = true
          · simp only [if_pos hadmit]
            cases hviolates : store.violates j ((patch.apply before).recordAudit audit) with
            | none => exact .written hfind hadmit hviolates
            | some constraint => exact .nothing (by simp)
          · simp only [if_neg hadmit]
            exact .nothing (by simp)
  | loadNonterminal => exact .nothing (by simp [perform])
  | loadOwned => exact .nothing (by simp [perform])

section Write

variable {j : Journal} {row before : BoxOrderIntent} {audit : BoxOrderIntentAudit}
variable {id x : ClientOrderId} {auditId : String}

/-- The journal an applied update leaves holds the patched row under its key. -/
theorem Journal.find_written {p : Prop} [Decidable p] :
    (if p then j.put row else (j.put row).recordTransition id audit).find x =
      if x = row.clientOrderId then some row else j.find x := by
  by_cases h : p
  · rw [if_pos h, Journal.find_put]
  · rw [if_neg h, Journal.find_recordTransition, Journal.find_put]

/-- An entry is appended unless its key is there already. -/
theorem keys_append_new {α : Type} (key : α → String) (xs : List α) (x : α) :
    (if xs.any (key · = key x) then xs else xs ++ [x]).map key =
      addMember (xs.map key) (key x) := by
  rw [addMember]
  have hiff : xs.any (key · = key x) = true ↔ key x ∈ xs.map key := by simp
  by_cases h : key x ∈ xs.map key
  · rw [if_pos h, if_pos (hiff.mpr h)]
  · rw [if_neg h, if_neg (fun hany => h (hiff.mp hany)), List.map_append]
    rfl

theorem auditIds_recordAudit :
    (row.recordAudit audit).audit.map (·.auditId) =
      addMember (row.audit.map (·.auditId)) audit.auditId := by
  rw [← keys_append_new, BoxOrderIntent.recordAudit]
  split <;> rfl

theorem auditIds_recordTransition :
    (j.recordTransition id audit).transitions.map (·.2.auditId) =
      addMember (j.transitions.map (·.2.auditId)) audit.auditId := by
  rw [← keys_append_new (fun t : ClientOrderId × BoxOrderIntentAudit => t.2.auditId)
    j.transitions (id, audit), Journal.recordTransition]
  split <;> rfl

/-- The table an applied update leaves. -/
theorem Journal.auditIds_written :
    (if before.audit.any (·.auditId = audit.auditId) then j.put row
      else (j.put row).recordTransition id audit).transitions.map (·.2.auditId) =
      if audit.auditId ∈ before.audit.map (·.auditId) then j.transitions.map (·.2.auditId)
      else addMember (j.transitions.map (·.2.auditId)) audit.auditId := by
  have hany : before.audit.any (·.auditId = audit.auditId) = true ↔
      audit.auditId ∈ before.audit.map (·.auditId) := by simp
  by_cases hknown : audit.auditId ∈ before.audit.map (·.auditId)
  · rw [if_pos (hany.mpr hknown), if_pos hknown, Journal.transitions_put]
  · rw [if_neg (fun h => hknown (hany.mp h)), if_neg hknown, auditIds_recordTransition,
      Journal.transitions_put]

end Write

section Step

variable {j j' : Journal} {call : JournalCall} {reply : JournalReply}
variable {id : ClientOrderId} {now : BoxOrderIntent}

/-- A row stays: its fill does not fall, its state moves on, its audits are kept. -/
theorem Journal.Performs.row_kept (h : j.Performs repository call j' reply)
    (hnow : j.find id = some now) :
    ∃ row, j'.find id = some row ∧ now.filledQuantity ≤ row.filledQuantity ∧
      now.state.Precedes row.state ∧
      now.audit.map (·.auditId) ⊆ row.audit.map (·.auditId) := by
  cases h with
  | nothing unapplied => exact ⟨now, hnow, Nat.le_refl _, .refl _, List.Subset.refl _⟩
  | @inserted intent fresh =>
      have hne : id ≠ intent.clientOrderId := by
        rintro rfl
        rw [fresh] at hnow
        cases hnow
      refine ⟨now, ?_, Nat.le_refl _, .refl _, List.Subset.refl _⟩
      rw [Journal.find_put, if_neg hne, hnow]
  | @written x patch audit expected before found admitted sound =>
      have hkey : before.clientOrderId = x := j.keyed x before found
      rw [Journal.find_written, recordAudit_clientOrderId, apply_clientOrderId, hkey]
      by_cases hid : id = x
      · subst hid
        obtain rfl := Option.some.inj (hnow.symm.trans found)
        refine ⟨_, if_pos rfl, ?_, ?_, ?_⟩
        · rw [recordAudit_filledQuantity]
          exact Persistence.fill_le _ admitted
        · rw [recordAudit_state, apply_state]
          cases hs : patch.state with
          | none => exact .refl _
          | some state =>
              apply BoxOrderIntentState.precedes_of_predecessor
              have hadmitted : updateAdmitted now patch expected = true := admitted
              simp only [updateAdmitted, hs, Option.all_some, Bool.and_eq_true,
                decide_eq_true_eq] at hadmitted
              exact hadmitted.1.1.1
        · rw [auditIds_recordAudit, apply_audit]
          exact fun _ hmem => mem_addMember.mpr (.inr hmem)
      · exact ⟨now, by rw [if_neg hid, hnow], Nat.le_refl _, .refl _, List.Subset.refl _⟩

/-- What an applied update is. -/
theorem Journal.Performs.applied {patch : BoxOrderIntentPatch} {audit : BoxOrderIntentAudit}
    {expected : Option (List BoxOrderIntentState)} {row : BoxOrderIntent} {previous current : Nat}
    (h : j.Performs repository (.update id patch audit expected) j'
      (.updated (.applied row previous current))) :
    ∃ before, j.find id = some before ∧ updateAdmitted before patch expected = true ∧
      row = (patch.apply before).recordAudit audit ∧ previous = before.filledQuantity ∧
      current = row.filledQuantity ∧ j'.find id = some row := by
  cases h with
  | nothing unapplied => exact absurd rfl (unapplied _ _ _)
  | @written _ _ _ _ before found admitted sound =>
      refine ⟨before, found, admitted, rfl, rfl, rfl, ?_⟩
      rw [Journal.find_written, recordAudit_clientOrderId, apply_clientOrderId,
        j.keyed id before found, if_pos rfl]

/-- No audit id is recorded twice, and every one but that of the creation is in the
table. -/
structure AuditsRecorded (j : Journal) : Prop where
  row : ∀ id row, j.find id = some row → (row.audit.map (·.auditId)).Nodup
  table : (j.transitions.map (·.2.auditId)).Nodup
  tabled : ∀ id row, j.find id = some row → ∀ auditId ∈ row.audit.map (·.auditId),
    auditId = s!"{id}:CREATED" ∨ auditId ∈ j.transitions.map (·.2.auditId)

theorem auditsRecorded_empty : AuditsRecorded Journal.empty where
  row id row h := by cases h
  table := List.nodup_nil
  tabled id row h := by cases h

theorem AuditsRecorded.step (recorded : AuditsRecorded j) (issued : call.Issued)
    (h : j.Performs repository call j' reply) : AuditsRecorded j' := by
  cases h with
  | nothing unapplied => exact recorded
  | @inserted intent fresh =>
      cases issued with
      | create request =>
          constructor
          · intro id row hrow
            rw [Journal.find_put] at hrow
            split at hrow
            · obtain rfl := Option.some.inj hrow
              exact List.nodup_singleton _
            · exact recorded.row id row hrow
          · exact recorded.table
          · intro id row hrow auditId hmem
            rw [Journal.find_put] at hrow
            split at hrow
            next hid =>
              obtain rfl := Option.some.inj hrow
              rw [hid]
              exact .inl (List.mem_singleton.mp hmem)
            · exact recorded.tabled id row hrow auditId hmem
  | @written x patch audit expected before found admitted sound =>
      have hkey : before.clientOrderId = x := j.keyed x before found
      constructor
      · intro id row hrow
        rw [Journal.find_written] at hrow
        split at hrow
        · obtain rfl := Option.some.inj hrow
          rw [auditIds_recordAudit]
          exact nodup_addMember (recorded.row x before found)
        · exact recorded.row id row hrow
      · rw [Journal.auditIds_written]
        split
        · exact recorded.table
        · exact nodup_addMember recorded.table
      · intro id row hrow auditId hmem
        rw [Journal.auditIds_written]
        rw [Journal.find_written, recordAudit_clientOrderId, apply_clientOrderId, hkey] at hrow
        have hkept : auditId ∈ j.transitions.map (·.2.auditId) →
            auditId ∈ (if audit.auditId ∈ before.audit.map (·.auditId) then
                j.transitions.map (·.2.auditId)
              else addMember (j.transitions.map (·.2.auditId)) audit.auditId) := by
          intro htabled
          split
          · exact htabled
          · exact mem_addMember.mpr (.inr htabled)
        split at hrow
        next hid =>
          subst hid
          obtain rfl := Option.some.inj hrow
          rw [auditIds_recordAudit, mem_addMember, apply_audit] at hmem
          by_cases hbefore : auditId ∈ before.audit.map (·.auditId)
          · exact (recorded.tabled _ before found auditId hbefore).imp_right hkept
          · -- the id is new to the row, so the update writes it into the table
            obtain rfl := hmem.resolve_right hbefore
            rw [if_neg hbefore]
            exact .inr (mem_addMember.mpr (.inl rfl))
        · exact (recorded.tabled id row hrow auditId hmem).imp_right hkept

/-- What a call adds to a row is what its reply reports. -/
theorem Journal.Performs.fill_step (issued : call.Issued)
    (h : j.Performs repository call j' reply) (id : ClientOrderId) :
    (j'.find id).elim 0 (·.filledQuantity) =
      (j.find id).elim 0 (·.filledQuantity) + Exchange.delta id (call, reply) := by
  cases h with
  | nothing unapplied =>
      have hzero : Exchange.delta id (call, reply) = 0 := by
        rw [Exchange.delta.eq_def]
        split
        next heq =>
          cases heq
          exact absurd rfl (unapplied _ _ _)
        · rfl
      rw [hzero, Nat.add_zero]
  | @inserted intent fresh =>
      cases issued with
      | create request =>
          rw [Journal.find_put]
          split
          next hid =>
            rw [hid, fresh]
            rfl
          · rfl
  | @written x patch audit expected before found admitted sound =>
      have hkey : before.clientOrderId = x := j.keyed x before found
      rw [Journal.find_written, recordAudit_clientOrderId, apply_clientOrderId, hkey]
      by_cases hid : id = x
      · subst hid
        have hle : before.filledQuantity ≤
            ((patch.apply before).recordAudit audit).filledQuantity := by
          rw [recordAudit_filledQuantity]
          exact Persistence.fill_le _ admitted
        rw [if_pos rfl, found]
        simp only [Exchange.delta, if_pos, Option.elim_some]
        omega
      · rw [if_neg hid]
        simp only [Exchange.delta, if_neg (Ne.symm hid), Nat.add_zero]

end Step

section Histories

variable {calls later : List JournalCall} {call : JournalCall}
variable {id : ClientOrderId} {now : BoxOrderIntent}

theorem performAll_append (store : Persistence) (j : Journal) (calls later : List JournalCall) :
    j.performAll store (calls ++ later) =
      (((j.performAll store calls).1.performAll store later).1,
        (j.performAll store calls).2 ++
          ((j.performAll store calls).1.performAll store later).2) := by
  induction calls generalizing j with
  | nil => rfl
  | cons call calls ih => simp only [List.cons_append, Journal.performAll, ih]

theorem after_concat :
    Journal.after (calls ++ [call]) = ((Journal.after calls).perform repository call).1 := by
  rw [Journal.after, performAll_append]
  rfl

theorem exchanges_concat :
    Journal.exchanges (calls ++ [call]) =
      Journal.exchanges calls ++ [(call, ((Journal.after calls).perform repository call).2)] := by
  rw [Journal.exchanges, performAll_append]
  rfl

theorem row_kept (hnow : (Journal.after calls).find id = some now) :
    ∃ row, (Journal.after (calls ++ later)).find id = some row ∧
      now.filledQuantity ≤ row.filledQuantity ∧ now.state.Precedes row.state ∧
      now.audit.map (·.auditId) ⊆ row.audit.map (·.auditId) := by
  induction later using List.reverseRecOn with
  | nil =>
      rw [List.append_nil]
      exact ⟨now, hnow, Nat.le_refl _, .refl _, List.Subset.refl _⟩
  | append_singleton later call ih =>
      obtain ⟨mid, hmid, hfill, hstate, haudit⟩ := ih
      rw [← List.append_assoc, after_concat]
      obtain ⟨row, hrow, hfill', hstate', haudit'⟩ :=
        (Journal.performs repository (Journal.after (calls ++ later)) call).row_kept hmid
      exact ⟨row, hrow, Nat.le_trans hfill hfill', hstate.trans hstate',
        List.Subset.trans haudit haudit'⟩

theorem auditsRecorded_after (issued : ∀ call ∈ calls, call.Issued) :
    AuditsRecorded (Journal.after calls) := by
  induction calls using List.reverseRecOn with
  | nil => exact auditsRecorded_empty
  | append_singleton calls call ih =>
      rw [after_concat]
      apply (ih fun c hc => issued c (List.mem_append_left _ hc)).step
      · exact issued call (List.mem_append_right _ List.mem_cons_self)
      · exact Journal.performs repository (Journal.after calls) call

/-- The increments reported for a row since the first call are its fill. -/
theorem deltas_after (issued : ∀ call ∈ calls, call.Issued) (id : ClientOrderId) :
    ((Journal.exchanges calls).map (Exchange.delta id)).sum =
      ((Journal.after calls).find id).elim 0 (·.filledQuantity) := by
  induction calls using List.reverseRecOn with
  | nil => rfl
  | append_singleton calls call ih =>
      rw [after_concat, exchanges_concat, List.map_append, List.sum_append,
        ih fun c hc => issued c (List.mem_append_left _ hc),
        (Journal.performs repository (Journal.after calls) call).fill_step
          (issued call (List.mem_append_right _ List.mem_cons_self)) id]
      rfl

theorem call_of_exchange {reply : JournalReply}
    (h : (call, reply) ∈ Journal.exchanges calls) : call ∈ calls := by
  induction calls using List.reverseRecOn with
  | nil => cases h
  | append_singleton calls last ih =>
      rw [exchanges_concat, List.mem_append] at h
      rcases h with hbefore | hlast
      · exact List.mem_append_left _ (ih hbefore)
      · obtain ⟨rfl, -⟩ := Prod.mk.inj (List.mem_singleton.mp hlast)
        exact List.mem_append_right _ List.mem_cons_self

/-- An applied update leaves its audit in the row it wrote. -/
theorem audit_in_row {patch : BoxOrderIntentPatch} {audit : BoxOrderIntentAudit}
    {expected : Option (List BoxOrderIntentState)} {row : BoxOrderIntent} {previous current : Nat}
    (h : ((.update id patch audit expected, .updated (.applied row previous current)) :
      Exchange) ∈ Journal.exchanges calls) :
    ∃ now, (Journal.after calls).find id = some now ∧
      audit.auditId ∈ now.audit.map (·.auditId) := by
  induction calls using List.reverseRecOn with
  | nil => cases h
  | append_singleton calls call ih =>
      rw [exchanges_concat, List.mem_append] at h
      rw [after_concat]
      have hperforms := Journal.performs repository (Journal.after calls) call
      rcases h with hbefore | hlast
      · obtain ⟨now, hnow, hmem⟩ := ih hbefore
        obtain ⟨row, hrow, -, -, hkept⟩ := hperforms.row_kept hnow
        exact ⟨row, hrow, hkept hmem⟩
      · obtain ⟨rfl, hreply⟩ := Prod.mk.inj (List.mem_singleton.mp hlast)
        rw [← hreply] at hperforms
        obtain ⟨before, -, -, hrow, -, -, hafter⟩ := hperforms.applied
        refine ⟨row, hafter, ?_⟩
        rw [hrow, auditIds_recordAudit]
        exact mem_addMember.mpr (.inl rfl)

end Histories

/-- A broker order id that is there is not replaced by another nonempty one. -/
theorem sameBroker_of_admitted {before : BoxOrderIntent} {patch : BoxOrderIntentPatch}
    {expected : Option (List BoxOrderIntentState)} {b b' : String}
    (h : updateAdmitted before patch expected = true) (hbefore : before.brokerOrderId = some b)
    (hafter : (patch.apply before).brokerOrderId = some b') (hne : b' ≠ "") : b' = b := by
  rw [apply_brokerOrderId] at hafter
  cases hpatch : patch.brokerOrderId with
  | none =>
      rw [hpatch, Option.getD_none, hbefore] at hafter
      exact (Option.some.inj hafter).symm
  | some written =>
      rw [hpatch, Option.getD_some] at hafter
      subst hafter
      simp only [updateAdmitted, hpatch, Option.join_some, Bool.and_eq_true,
        Option.filter_some, hne, hbefore, reduceCtorEq, false_or, Option.some.injEq,
        decide_not, decide_false, Bool.not_false, if_true, Option.all_some,
        decide_eq_true_eq] at h
      exact h.2.symm

/-- Durable intents are monotone over every history of calls the manager can issue. -/
theorem durable_intents_monotone (calls later : List JournalCall)
    (issued : ∀ call ∈ calls, call.Issued) : IntentLaw calls later where
  row id now hnow := by
    obtain ⟨row, hrow, hfill, hstate, -⟩ := row_kept hnow
    exact ⟨row, hrow, hfill, hstate⟩
  applied id patch audit expected row previous current hreply := by
    have hperforms := Journal.performs repository (Journal.after calls)
      (.update id patch audit expected)
    rw [hreply] at hperforms
    obtain ⟨before, found, admitted, rfl, rfl, rfl, hafter⟩ := hperforms.applied
    refine ⟨⟨before, found, rfl, ?_⟩, ⟨hafter, rfl⟩, ?_⟩
    · intro b b' hb hb' hne
      rw [recordAudit_brokerOrderId] at hb'
      exact sameBroker_of_admitted admitted hb hb' hne
    · rw [recordAudit_filledQuantity]
      exact repository.fill_le admitted
  recorded id now hnow audit haudit :=
    List.count_eq_one_of_mem ((auditsRecorded_after issued).row id now hnow)
      (List.mem_map_of_mem haudit)
  audited id patch audit expected row previous current hmem := by
    have recorded := auditsRecorded_after issued
    obtain ⟨now, hnow, haudit⟩ := audit_in_row hmem
    refine ⟨⟨now, hnow, List.count_eq_one_of_mem (recorded.row id now hnow) haudit⟩, ?_⟩
    apply List.count_eq_one_of_mem recorded.table
    apply (recorded.tabled id now hnow _ haudit).resolve_left
    cases issued _ (call_of_exchange hmem) with
    | update intent _ state brokerOrderId message fillIdentity localRefusal =>
        exact auditFor_ne_created intent state brokerOrderId message fillIdentity localRefusal
  deltas id now hnow := by
    rw [deltas_after issued id, hnow]
    rfl

namespace Sample

/-- One order is created. -/
def creation : List JournalCall := [.create (intentFromRequest (request .k1Ce .buy .entry))]

/-- The order is submitted and filled. -/
def submission : List JournalCall :=
  [transitionCall (intentFromRequest (request .k1Ce .buy .entry)) .submitting none
      "transport submission starting" (some [.created]) none,
    persistCall (intentFromRequest (request .k1Ce .buy .entry))
      (order (request .k1Ce .buy .entry) .complete 75) "adapter order snapshot"]

end Sample

/-- The audit of the creation is in the row alone. -/
theorem creation_not_in_table : ¬ StrictIntentLaw Sample.creation [] := by
  intro h
  have htabled := h.tabled "k1_ce"
    (intentFromRequest (Sample.request .k1Ce .buy .entry)) (by decide +kernel)
  have hcount := htabled _ List.mem_cons_self
  revert hcount
  decide +kernel

theorem durable_intents_monotone_sample :
    IntentLaw (Sample.creation ++ Sample.submission) Sample.submission := by
  apply durable_intents_monotone
  intro call hcall
  simp only [Sample.creation, Sample.submission, List.cons_append, List.nil_append,
    List.mem_cons, List.not_mem_nil, or_false] at hcall
  rcases hcall with rfl | rfl | rfl
  · exact .create _
  · exact issued_transitionCall
  · exact issued_persistCall

end Strikedge.Orders
