import Strikedge.Reservations.Chained

/-!
# All or none across the tiers

When the chain refuses, it releases what the tiers before the refusal granted. A
release is keyed by owner and keys and restores nothing, so it undoes the call exactly
where the owner held none of the keys before. The same holds inside the durable tier,
which deletes its owner's row before it knows that the new row fits.

Two facts per tier are enough: what a refusal leaves behind, and what a grant followed
by its rollback leaves behind. The chain composes them.
-/

namespace Strikedge.Reservations

open InMemoryReservationDatabase

/-- The live rows of an owner at an instant of the authority's clock. -/
def InMemoryReservationDatabase.liveRow (db : InMemoryReservationDatabase) (now : Int)
    (owner : Owner) : Option DurableReservationDoc :=
  (db.docs.get? owner).filter (now < ·.expiresAt)

/-- Does the owner hold the key? A durable tier keeps keys by deployment. -/
def Tier.Holds (args : AcquireArgs) (owner : Owner) (deployment : Deployment)
    (key : InstrumentKey) : Tier → Prop
  | .inProcess store => ∃ entry, store.entries.get? key = some entry ∧ entry.owner = owner ∧
      args.now < entry.expiresAt
  | .durable worker db => ∃ doc, db.liveRow (worker.toAuthority args.now) owner = some doc ∧
      doc.deployment = deployment ∧ key ∈ doc.keys

/-- The two states of a tier have the same holders. -/
def SameHoldings (args : AcquireArgs) (before after : Tier) : Prop :=
  ∀ owner deployment key,
    after.Holds args owner deployment key ↔ before.Holds args owner deployment key

section Durable

variable (env : TierEnv) (w₀ : DurableInstrumentReservations)
variable (db₀ : InMemoryReservationDatabase) (args : AcquireArgs)

/-- The call gets as far as deleting a row its owner already has. -/
def ClearsOwnRow : Prop :=
  dedupeKeys args.keys ≠ [] ∧ env.usable ∧ env.clockFailure = none ∧
    (w₀.spareFences = [] → env.outage .nextFence = none) ∧ env.outage .insert = none ∧
    env.outage .deleteOwned = none ∧ db₀.docs.has args.owner

/-- The row the call wants to write. -/
def Wanted (doc : DurableReservationDoc) : Prop :=
  doc.owner = args.owner ∧ doc.keys = dedupeKeys args.keys ∧
    doc.deployment = (args.context.getD w₀.context).deployment ∧
    doc.createdAt = w₀.toAuthority args.now ∧ doc.createdAt < doc.expiresAt

/-- The own row is gone, and if there was one the call cleared it. -/
def OwnGone (db : InMemoryReservationDatabase) : Prop :=
  db.docs.get? args.owner = none ∧
    (db₀.docs.has args.owner → ClearsOwnRow env w₀ db₀ args)

/-- What is known of the own row at each await. -/
def OwnRow (db : InMemoryReservationDatabase) (worker : DurableInstrumentReservations) :
    Next → Prop
  | .await (.ensuring request) => request = .tryAcquireAll args ∧ worker = w₀ ∧
      db.docs.get? args.owner = db₀.docs.get? args.owner ∧ dedupeKeys args.keys ≠ []
  | .await (.refreshing request ctx) => request = .tryAcquireAll args ∧ worker = w₀ ∧
      ctx = args.context.getD w₀.context ∧
      db.docs.get? args.owner = db₀.docs.get? args.owner ∧ dedupeKeys args.keys ≠ [] ∧ env.usable
  | .await (.fencing doc) => Wanted w₀ args doc ∧
      db.docs.get? args.owner = db₀.docs.get? args.owner ∧ dedupeKeys args.keys ≠ [] ∧ env.usable ∧
      env.clockFailure = none ∧ w₀.spareFences = []
  | .await (.inserting doc) => Wanted w₀ args doc ∧
      db.docs.get? args.owner = db₀.docs.get? args.owner ∧ dedupeKeys args.keys ≠ [] ∧ env.usable ∧
      env.clockFailure = none ∧ (w₀.spareFences = [] → env.outage .nextFence = none)
  | .await (.deletingOwn doc) => Wanted w₀ args doc ∧
      db.docs.get? args.owner = db₀.docs.get? args.owner ∧ dedupeKeys args.keys ≠ [] ∧ env.usable ∧
      env.clockFailure = none ∧ (w₀.spareFences = [] → env.outage .nextFence = none) ∧
      env.outage .insert = none ∧ db₀.docs.has args.owner
  | .await (.reinserting doc) | .await (.retrying doc) | .await (.listing doc) =>
      Wanted w₀ args doc ∧ OwnGone env w₀ db₀ args db
  | .await (.reclaiming doc notAfter) =>
      Wanted w₀ args doc ∧ OwnGone env w₀ db₀ args db ∧ notAfter ≤ w₀.toAuthority args.now
  | .finish (.acquired (.ok _)) =>
      ∃ doc, db.docs.get? args.owner = some doc ∧ Wanted w₀ args doc
  | .finish (.acquired _) =>
      (db.docs.get? args.owner = db₀.docs.get? args.owner ∧ ¬ ClearsOwnRow env w₀ db₀ args) ∨
        OwnGone env w₀ db₀ args db
  | _ => False

variable {env w₀ db₀ args}

/-- Calls that cannot end the lease of another owner that is live at an instant. -/
def PortCall.SparesOthers (owner : Owner) (now : Int) : PortCall → Prop
  | .insert doc => doc.owner = owner
  | .deleteOwned o _ => o = owner
  | .deleteExpired _ _ notAfter => notAfter ≤ now
  | .renewOwned _ | .deleteByOwnerPrefix _ => False
  | .nextFence _ | .findLiveByKeys _ _ _ | .findByOwner _ => True

theorem liveRow_serve {db : InMemoryReservationDatabase} {call : PortCall} {now : Int}
    {owner o : Owner} (hdb : Indexed db) (hcall : call.SparesOthers owner now) (ho : o ≠ owner) :
    (db.serve call).1.liveRow now o = db.liveRow now o := by
  unfold liveRow
  have touch := serve_touches hdb call o
  generalize db.docs.get? o = before at touch ⊢
  generalize (db.serve call).1.docs.get? o = after at touch ⊢
  generalize (db.serve call).2 = reply at touch
  cases touch with
  | kept => rfl
  | inserted hd => exact absurd (hd.symm.trans hcall) ho
  | renewed _ => exact hcall.elim
  | released => exact absurd hcall ho
  | @expired d ks notAfter doc deleted _ hle =>
      have hdead : ¬ now < doc.expiresAt := by
        change notAfter ≤ now at hcall
        omega
      simp [Option.filter_some, hdead]
  | cleared _ => exact hcall.elim

/-- The four answers of the authority to an insert, and what each leaves. -/
theorem serve_insert_cases (db : InMemoryReservationDatabase) (f : Option String)
    (doc : DurableReservationDoc) :
    (∃ message, f = some message ∧ InMemoryReservationDatabase.serve { db with failure := f }
        (.insert doc) = ({ db with failure := f }, .thrown message)) ∨
    (f = none ∧ db.docs.has doc.owner ∧ InMemoryReservationDatabase.serve { db with failure := f }
        (.insert doc) = ({ db with failure := f }, .insertion .ownerExists)) ∨
    (f = none ∧ db.docs.has doc.owner = false ∧
      InMemoryReservationDatabase.serve { db with failure := f } (.insert doc) =
        ({ db with failure := f }, .insertion .keyConflict)) ∨
    (f = none ∧ ∃ db', InMemoryReservationDatabase.serve { db with failure := f } (.insert doc) =
        (db', .insertion .inserted) ∧ db'.docs.get? doc.owner = some doc) := by
  cases f with
  | some message => exact .inl ⟨message, rfl, rfl⟩
  | none =>
      refine .inr ?_
      have hserve : InMemoryReservationDatabase.serve { db with failure := none } (.insert doc) =
          (InMemoryReservationDatabase.insert { db with failure := none } doc).map id
            .insertion := rfl
      rcases @InMemoryReservationDatabase.insert_cases { db with failure := none } doc with
        ⟨hi, hown⟩ | ⟨hi, hown, -⟩ | ⟨hi, -, -⟩
      · exact .inl ⟨rfl, hown, by rw [hserve, hi]; rfl⟩
      · exact .inr (.inl ⟨rfl, hown, by rw [hserve, hi]; rfl⟩)
      · exact .inr (.inr ⟨rfl, _, by rw [hserve, hi]; rfl, by simp⟩)

/-- A frame that waits for the authority continues with what the authority served. -/
theorem advance_port {db db' : InMemoryReservationDatabase} {worker w' : DurableInstrumentReservations}
    {frame : Frame} {next : Next} {call : PortCall} {reply : PortReply}
    (hcall : frame.call = some call)
    (hserve : InMemoryReservationDatabase.serve { db with failure := env.outage frame.stage } call =
      (db', reply))
    (hresume : worker.resume frame (.port reply) = some (w', next)) :
    Session.advance env ⟨db, worker, .await frame⟩ = ⟨db', w', next⟩ := by
  simp only [Session.advance, Session.reply, hcall, hserve, hresume]

/-- An outage at any stage of an acquisition ends it, with the tables as they are. -/
theorem advance_thrown {db : InMemoryReservationDatabase} {worker : DurableInstrumentReservations}
    {frame : Frame} {call : PortCall} {message : String} (hcall : frame.call = some call)
    (hout : env.outage frame.stage = some message)
    (hresume : ∀ m, worker.resume frame (.port (.thrown m)) = some (worker.refuseAcquire m)) :
    Session.advance env ⟨db, worker, .await frame⟩ =
      ⟨{ db with failure := some message }, { worker with lastError := some message },
        .finish (.acquired (.unavailable worker.name message))⟩ := by
  refine advance_port hcall ?_ (hresume message)
  rw [hout]
  rfl

theorem resume_reclaiming (worker : DurableInstrumentReservations) (doc : DurableReservationDoc)
    (notAfter : Int) (n : Nat) :
    worker.resume (.reclaiming doc notAfter) (.port (.count n)) =
      some (worker, .await (if 0 < n then .retrying doc else .listing doc)) := by
  change (if 0 < n then some (worker, Next.await (.retrying doc))
    else some (worker, Next.await (.listing doc))) = _
  split <;> rfl

/-- The own row at one await determines it at the next, and the call comes closer to
its end. -/
theorem advance_ownRow {db : InMemoryReservationDatabase} {worker : DurableInstrumentReservations}
    {frame : Frame} (hdb : Indexed db) (h : OwnRow env w₀ db₀ args db worker (.await frame)) :
    ∃ db' w' next, Session.advance env ⟨db, worker, .await frame⟩ = ⟨db', w', next⟩ ∧
      OwnRow env w₀ db₀ args db' w' next ∧ Session.rank next < Session.rank (.await frame) := by
  cases frame with
  | ensuring request =>
      obtain ⟨rfl, rfl, hown, hkeys⟩ := h
      by_cases husable : env.usable
      · refine ⟨db, worker, .await (.refreshing (.tryAcquireAll args)
          (args.context.getD worker.context)), ?_, ⟨rfl, rfl, rfl, hown, hkeys, husable⟩,
          Nat.lt_succ_self _⟩
        simp [Session.advance, Session.reply, Frame.call, DurableInstrumentReservations.resume,
          husable, Request.context]
      · refine ⟨db, worker, .finish (.acquired (.unavailable worker.name
          (worker.lastError.getD (worker.name ++ " reservation authority is not ready")))), ?_,
          Or.inl ⟨hown, fun hc => husable hc.2.1⟩, by simp [Session.rank]⟩
        simp [Session.advance, Session.reply, Frame.call, DurableInstrumentReservations.resume,
          husable, Request.unavailable]
  | refreshing request ctx =>
      obtain ⟨rfl, rfl, rfl, hown, hkeys, husable⟩ := h
      cases hclock : env.clockFailure with
      | some message =>
          refine ⟨db, { worker with lastError := some message },
            .finish (.acquired (.unavailable worker.name message)), ?_,
            Or.inl ⟨hown, fun hc => ?_⟩, by simp [Session.rank]⟩
          · simp [Session.advance, Session.reply, Frame.call, DurableInstrumentReservations.resume,
              hclock, DurableInstrumentReservations.failClosed, Request.unavailable]
          · rw [hc.2.2.1] at hclock
            cases hclock
      | none =>
          have hwanted : ∀ fence, Wanted worker args (args.toDoc (args.context.getD worker.context)
              worker.ownerPrefix (worker.toAuthority args.now) fence) := fun fence =>
            ⟨rfl, rfl, rfl, rfl, Int.lt_add_of_pos_right _ (normaliseTtl_pos args.ttlMs)⟩
          cases hspare : worker.spareFences with
          | nil =>
              refine ⟨db, worker, .await (.fencing _), ?_,
                ⟨hwanted 0, hown, hkeys, husable, hclock, hspare⟩, Nat.lt_succ_self _⟩
              simp [Session.advance, Session.reply, Frame.call,
                DurableInstrumentReservations.resume, hclock,
                DurableInstrumentReservations.afterRefresh, hspare]
          | cons fence rest =>
              refine ⟨db, { worker with spareFences := rest }, .await (.inserting _), ?_,
                ⟨hwanted fence, hown, hkeys, husable, hclock, ?_⟩, by simp [Session.rank]⟩
              · simp [Session.advance, Session.reply, Frame.call,
                  DurableInstrumentReservations.resume, hclock,
                  DurableInstrumentReservations.afterRefresh, hspare]
              · simp [hspare]
  | fencing doc =>
      obtain ⟨hwanted, hown, hkeys, husable, hclock, hspare⟩ := h
      cases hout : env.outage .nextFence with
      | some message =>
          refine ⟨_, _, _, advance_thrown rfl hout fun _ => rfl, Or.inl ⟨hown, fun hc => ?_⟩,
            by simp [Session.rank]⟩
          rw [hc.2.2.2.1 hspare] at hout
          cases hout
      | none =>
          have hs : InMemoryReservationDatabase.serve
              { db with failure := env.outage (Frame.fencing doc).stage }
                (.nextFence doc.deployment) =
              ((InMemoryReservationDatabase.nextFence { db with failure := none } doc.deployment).1,
                .fence (InMemoryReservationDatabase.nextFence { db with failure := none }
                  doc.deployment).2) := by
            rw [Frame.stage, hout]
            rfl
          exact ⟨_, _, _, advance_port rfl hs rfl, ⟨hwanted, hown, hkeys, husable, hclock, fun _ => hout⟩,
            Nat.lt_succ_self _⟩
  | inserting doc =>
      obtain ⟨hwanted, hown, hkeys, husable, hclock, hfence⟩ := h
      rcases serve_insert_cases db (env.outage .insert) doc with
        ⟨message, hout, -⟩ | ⟨hout, hhas, hs⟩ | ⟨hout, hhas, hs⟩ | ⟨hout, db', hs, hrow⟩
      · refine ⟨_, _, _, advance_thrown rfl hout fun _ => rfl, Or.inl ⟨hown, fun hc => ?_⟩,
          by simp [Session.rank]⟩
        rw [hc.2.2.2.2.1] at hout
        cases hout
      · refine ⟨_, _, _, advance_port rfl hs rfl,
          ⟨hwanted, hown, hkeys, husable, hclock, hfence, hout, ?_⟩, Nat.lt_succ_self _⟩
        rw [hwanted.1] at hhas
        simpa [OrderedMap.has, hown] using hhas
      · have hnone : db.docs.get? args.owner = none := by
          rw [hwanted.1] at hhas
          simpa [OrderedMap.has] using hhas
        refine ⟨_, _, _, advance_port rfl hs rfl, ⟨hwanted, ⟨hnone, fun h => ?_⟩, ?_⟩,
          by simp [Session.rank]⟩
        · rw [OrderedMap.has, ← hown, hnone] at h
          cases h
        · have hcreated := hwanted.2.2.2.1
          change doc.createdAt - worker.skewGraceMs ≤ w₀.toAuthority args.now
          omega
      · refine ⟨_, _, _, advance_port rfl hs rfl, ⟨doc, ?_, hwanted⟩,
          by simp [Session.rank]⟩
        exact hwanted.1 ▸ hrow
  | deletingOwn doc =>
      obtain ⟨hwanted, hown, hkeys, husable, hclock, hfence, hinsert, hhas⟩ := h
      cases hout : env.outage .deleteOwned with
      | some message =>
          refine ⟨_, _, _, advance_thrown rfl hout fun _ => rfl, Or.inl ⟨hown, fun hc => ?_⟩,
            by simp [Session.rank]⟩
          rw [hc.2.2.2.2.2.1] at hout
          cases hout
      | none =>
          obtain ⟨own, hrow⟩ := OrderedMap.has_iff.mp hhas
          rw [← hown] at hrow
          have hs : InMemoryReservationDatabase.serve
              { db with failure := env.outage (Frame.deletingOwn doc).stage }
                (.deleteOwned doc.owner none) =
              (InMemoryReservationDatabase.removeDoc { db with failure := none } own,
                .count 1) := by
            rw [Frame.stage, hout, hwanted.1]
            simp [InMemoryReservationDatabase.serve, perform, deleteOwned, hrow]
          refine ⟨_, _, _, advance_port rfl hs rfl, ⟨hwanted, ?_, fun _ =>
            ⟨hkeys, husable, hclock, hfence, hinsert, hout, hhas⟩⟩, Nat.lt_succ_self _⟩
          rw [docs_removeDoc, OrderedMap.get?_delete, hdb.owner_eq hrow, if_pos rfl]
  | reinserting doc =>
      obtain ⟨hwanted, hgone⟩ := h
      rcases serve_insert_cases db (env.outage .reinsert) doc with
        ⟨message, hout, -⟩ | ⟨hout, hhas, hs⟩ | ⟨hout, hhas, hs⟩ | ⟨hout, db', hs, hrow⟩
      · exact ⟨_, _, _, advance_thrown rfl hout fun _ => rfl, Or.inr hgone,
          by simp [Session.rank]⟩
      · exact ⟨_, _, _, advance_port rfl hs rfl, ⟨hwanted, hgone⟩, by simp [Session.rank]⟩
      · refine ⟨_, _, _, advance_port rfl hs rfl, ⟨hwanted, hgone, ?_⟩, by simp [Session.rank]⟩
        have hcreated := hwanted.2.2.2.1
        change doc.createdAt - worker.skewGraceMs ≤ w₀.toAuthority args.now
        omega
      · refine ⟨_, _, _, advance_port rfl hs rfl, ⟨doc, ?_, hwanted⟩,
          by simp [Session.rank]⟩
        exact hwanted.1 ▸ hrow
  | reclaiming doc notAfter =>
      obtain ⟨hwanted, hgone, hbound⟩ := h
      cases hout : env.outage .deleteExpired with
      | some message =>
          exact ⟨_, _, _, advance_thrown rfl hout fun _ => rfl, Or.inr hgone,
            by simp [Session.rank]⟩
      | none =>
          have hs : InMemoryReservationDatabase.serve
              { db with failure := env.outage (Frame.reclaiming doc notAfter).stage }
                (.deleteExpired doc.deployment (some doc.keys) notAfter) =
              ((deleteExpired { db with failure := none } doc.deployment (some doc.keys) notAfter).1,
                .count (deleteExpired { db with failure := none } doc.deployment (some doc.keys)
                  notAfter).2) := by
            rw [Frame.stage, hout]
            rfl
          have hgone' : OwnGone env w₀ db₀ args (deleteExpired { db with failure := none }
              doc.deployment (some doc.keys) notAfter).1 := by
            refine ⟨?_, hgone.2⟩
            have hdb' : Indexed { db with failure := none } := ⟨hdb.owner_eq, hdb.index_iff⟩
            rw [deleteExpired, get?_removeValues hdb']
            simp [hgone.1]
          have hnext := resume_reclaiming worker doc notAfter
            (deleteExpired { db with failure := none } doc.deployment (some doc.keys) notAfter).2
          refine ⟨_, _, _, advance_port rfl hs hnext, ?_⟩
          split
          · exact ⟨⟨hwanted, hgone'⟩, Nat.lt_succ_self _⟩
          · exact ⟨⟨hwanted, hgone'⟩, by simp [Session.rank]⟩
  | retrying doc =>
      obtain ⟨hwanted, hgone⟩ := h
      rcases serve_insert_cases db (env.outage .retry) doc with
        ⟨message, hout, -⟩ | ⟨hout, hhas, hs⟩ | ⟨hout, hhas, hs⟩ | ⟨hout, db', hs, hrow⟩
      · exact ⟨_, _, _, advance_thrown rfl hout fun _ => rfl, Or.inr hgone,
          by simp [Session.rank]⟩
      · exact ⟨_, _, _, advance_port rfl hs rfl, ⟨hwanted, hgone⟩, by simp [Session.rank]⟩
      · exact ⟨_, _, _, advance_port rfl hs rfl, ⟨hwanted, hgone⟩, by simp [Session.rank]⟩
      · refine ⟨_, _, _, advance_port rfl hs rfl, ⟨doc, ?_, hwanted⟩,
          by simp [Session.rank]⟩
        exact hwanted.1 ▸ hrow
  | listing doc =>
      obtain ⟨hwanted, hgone⟩ := h
      cases hout : env.outage .findLive with
      | some message =>
          exact ⟨_, _, _, advance_thrown rfl hout fun _ => rfl, Or.inr hgone,
            by simp [Session.rank]⟩
      | none =>
          have hs : InMemoryReservationDatabase.serve
              { db with failure := env.outage (Frame.listing doc).stage }
                (.findLiveByKeys doc.deployment doc.keys doc.createdAt) =
              ({ db with failure := none }, .live (findLiveByKeys { db with failure := none }
                doc.deployment doc.keys doc.createdAt)) := by
            rw [Frame.stage, hout]
            rfl
          -- The own row is gone, so nothing the listing finds is the caller's.
          have hself : DurableInstrumentReservations.selfConflict doc.owner (findLiveByKeys
              { db with failure := none } doc.deployment doc.keys doc.createdAt) = none := by
            unfold DurableInstrumentReservations.selfConflict
            split
            · rename_i hall
              refine List.head?_eq_none_iff.mpr (List.eq_nil_iff_forall_not_mem.mpr fun x hx => ?_)
              have hstored := get?_of_mem_values hdb (List.mem_of_mem_filter hx)
              have hown : x.owner = args.owner := by
                rw [← hwanted.1]
                simpa using List.all_eq_true.mp hall x hx
              rw [hown, hgone.1] at hstored
              cases hstored
            · rfl
          have hnext : worker.resume (.listing doc) (.port (.live (findLiveByKeys
              { db with failure := none } doc.deployment doc.keys doc.createdAt))) =
              some (worker.recycleFence doc.fence, .finish (.acquired (.conflict
                (worker.describeConflicts doc.keys (findLiveByKeys { db with failure := none }
                  doc.deployment doc.keys doc.createdAt))))) := by
            change some (worker.afterListing doc _) = _
            rw [DurableInstrumentReservations.afterListing, hself]
          exact ⟨_, _, _, advance_port rfl hs hnext, Or.inr hgone, by simp [Session.rank]⟩
  | renewing ctx call => exact h.elim
  | classifying ctx owner => exact h.elim
  | verifying vargs ctx => exact h.elim
  | reaping d notAfter => exact h.elim
  | releasing owner fence => exact h.elim
  | clearing ownerPrefix => exact h.elim

/-- A stretch changes neither the clock offset nor the readiness of its worker. -/
theorem resume_config {w w' : DurableInstrumentReservations} {frame : Frame} {reply : Reply}
    {next : Next} (h : w.resume frame reply = some (w', next)) :
    w'.clockOffsetMs = w.clockOffsetMs ∧ w'.initialised = w.initialised := by
  unfold DurableInstrumentReservations.resume at h
  split at h
  case h_1 request ok => split at h <;> cases h <;> exact ⟨rfl, rfl⟩
  case h_2 request ctx localNow =>
      rw [Option.some.injEq] at h
      cases request with
      | tryAcquireAll args =>
          simp only [DurableInstrumentReservations.afterRefresh] at h
          split at h <;> cases h <;> exact ⟨rfl, rfl⟩
      | renew args => cases h; exact ⟨rfl, rfl⟩
      | verify args => cases h; exact ⟨rfl, rfl⟩
      | reapExpired => cases h; exact ⟨rfl, rfl⟩
  case h_3 request ctx message => cases h; exact ⟨rfl, rfl⟩
  case h_4 reply _ =>
      unfold DurableInstrumentReservations.resumePort at h
      split at h
      case h_7 doc live =>
          simp only [Option.some.injEq, DurableInstrumentReservations.afterListing] at h
          split at h
          · cases h
            exact ⟨rfl, rfl⟩
          · cases h
            unfold DurableInstrumentReservations.recycleFence
            split <;> exact ⟨rfl, rfl⟩
      all_goals try split at h
      all_goals cases h
      all_goals exact ⟨rfl, rfl⟩
  case h_5 => cases h

/-- The invariant of an acquisition run alone. -/
structure Acquiring (env : TierEnv) (w₀ : DurableInstrumentReservations)
    (db₀ : InMemoryReservationDatabase) (args : AcquireArgs) (s : Session) : Prop where
  indexed : Indexed s.db
  others : ∀ o, o ≠ args.owner →
    s.db.liveRow (w₀.toAuthority args.now) o = db₀.liveRow (w₀.toAuthority args.now) o
  own : OwnRow env w₀ db₀ args s.db s.worker s.next
  offset : s.worker.clockOffsetMs = w₀.clockOffsetMs
  initialised : s.worker.initialised = w₀.initialised

theorem call_sparesOthers {db : InMemoryReservationDatabase}
    {worker : DurableInstrumentReservations} {frame : Frame} {call : PortCall}
    (h : OwnRow env w₀ db₀ args db worker (.await frame)) (hcall : frame.call = some call) :
    call.SparesOthers args.owner (w₀.toAuthority args.now) := by
  cases frame with
  | ensuring request => cases hcall
  | refreshing request ctx => cases hcall
  | fencing doc => cases hcall; trivial
  | inserting doc => cases hcall; exact h.1.1
  | deletingOwn doc => cases hcall; exact h.1.1
  | reinserting doc => cases hcall; exact h.1.1
  | reclaiming doc notAfter => cases hcall; exact h.2.2
  | retrying doc => cases hcall; exact h.1.1
  | listing doc => cases hcall; trivial
  | renewing ctx call => exact h.elim
  | classifying ctx owner => exact h.elim
  | verifying vargs ctx => exact h.elim
  | reaping d notAfter => exact h.elim
  | releasing owner fence => exact h.elim
  | clearing ownerPrefix => exact h.elim

/-- What an await delivers touches no other owner's live row. -/
theorem reply_others {db : InMemoryReservationDatabase} {worker : DurableInstrumentReservations}
    {frame : Frame} (hdb : Indexed db)
    (h : OwnRow env w₀ db₀ args db worker (.await frame)) :
    Indexed (Session.reply env db frame).1 ∧ ∀ o, o ≠ args.owner →
      (Session.reply env db frame).1.liveRow (w₀.toAuthority args.now) o =
        db.liveRow (w₀.toAuthority args.now) o := by
  unfold Session.reply
  cases hcall : frame.call with
  | some call =>
      have hdb' : Indexed { db with failure := env.outage frame.stage } :=
        ⟨hdb.owner_eq, hdb.index_iff⟩
      exact ⟨indexed_serve hdb' call, fun o ho =>
        liveRow_serve hdb' (call_sparesOthers h hcall) ho⟩
  | none =>
      dsimp only
      split <;> exact ⟨hdb, fun _ _ => rfl⟩

theorem Acquiring.advance {db : InMemoryReservationDatabase}
    {worker : DurableInstrumentReservations} {frame : Frame}
    (h : Acquiring env w₀ db₀ args ⟨db, worker, .await frame⟩) :
    Acquiring env w₀ db₀ args (Session.advance env ⟨db, worker, .await frame⟩) ∧
      Session.rank (Session.advance env ⟨db, worker, .await frame⟩).next <
        Session.rank (.await frame) := by
  obtain ⟨db', w', next, hadv, hown, hrank⟩ := advance_ownRow h.indexed h.own
  obtain ⟨hdb, hothers⟩ := reply_others h.indexed h.own
  rw [hadv]
  refine ⟨?_, hrank⟩
  unfold Session.advance at hadv
  dsimp only at hadv
  split at hadv
  · rename_i w'' next' hresume
    cases hadv
    obtain ⟨hoff, hinit⟩ := resume_config hresume
    exact ⟨hdb, fun o ho => (hothers o ho).trans (h.others o ho), hown, hoff.trans h.offset,
      hinit.trans h.initialised⟩
  · cases hadv
    exact absurd hrank (Nat.lt_irrefl _)

/-- With as many turns as it has awaits ahead, an acquisition finishes. -/
theorem Acquiring.drive {n : Nat} {s : Session} (h : Acquiring env w₀ db₀ args s)
    (hn : Session.rank s.next ≤ n) :
    Acquiring env w₀ db₀ args (Session.drive env n s) ∧
      ∃ outcome, (Session.drive env n s).next = .finish (.acquired outcome) := by
  induction n generalizing s with
  | zero =>
      refine ⟨h, ?_⟩
      obtain ⟨db, worker, next⟩ := s
      cases next with
      | await frame => cases frame <;> simp [Session.rank] at hn
      | finish answer =>
          cases answer with
          | acquired outcome => exact ⟨outcome, rfl⟩
          | renewed _ | verdict _ | reaped _ | released _ | cleared => exact h.own.elim
  | succ n ih =>
      obtain ⟨db, worker, next⟩ := s
      cases next with
      | await frame =>
          obtain ⟨hacq, hrank⟩ := h.advance
          exact ih hacq (Nat.le_of_lt_succ (Nat.lt_of_lt_of_le hrank hn))
      | finish answer => exact ih (s := ⟨db, worker, .finish answer⟩) h (Nat.zero_le n)

theorem Acquiring.begin (hdb : Indexed db₀) :
    Acquiring env w₀ db₀ args ⟨db₀, w₀, w₀.begin (.tryAcquireAll args)⟩ := by
  refine ⟨hdb, fun _ _ => rfl, ?_, rfl, rfl⟩
  unfold DurableInstrumentReservations.begin
  by_cases hkeys : dedupeKeys args.keys = []
  · simp only [if_pos hkeys]
    exact .inl ⟨rfl, fun hc => hc.1 hkeys⟩
  · simp only [if_neg hkeys]
    exact ⟨rfl, rfl, rfl, hkeys⟩

end Durable

/-- A durable tier whose index is exact. -/
def Tier.WellFormed : Tier → Prop
  | .inProcess _ => True
  | .durable _ db => Indexed db

/-- The owner holds nothing in this tier. -/
def Tier.HoldsNothing (args : AcquireArgs) (tier : Tier) : Prop :=
  ∀ deployment key, ¬ tier.Holds args args.owner deployment key

/-- A refusal of this tier leaves its holdings as they are: it does not delete a row
through which its owner held something. -/
def Tier.KeepsOnRefusal (env : TierEnv) (args : AcquireArgs) : Tier → Prop
  | .inProcess _ => True
  | .durable worker db => env.throws = none → ClearsOwnRow env worker db args →
      (Tier.durable worker db).HoldsNothing args

/-- The rollback's release reaches the tables. -/
def TierEnv.releases (env : TierEnv) (worker : DurableInstrumentReservations) : Prop :=
  worker.initialised ∧ env.beforeRelease = none ∧ env.atRelease = none

/-- A grant of this tier followed by its rollback leaves its holdings as they were: the
owner held none of the keys and the release goes through, or the release is lost and the
owner held exactly the keys already. -/
def Tier.RestoredByRollback (env : TierEnv) (args : AcquireArgs) : Tier → Prop
  | .inProcess store => ∀ deployment key, key ∈ args.keys →
      ¬ (Tier.inProcess store).Holds args args.owner deployment key
  | .durable worker db =>
      (env.releases worker ∧ (Tier.durable worker db).HoldsNothing args) ∨
      (¬ env.releases worker ∧ ∀ deployment key,
        (Tier.durable worker db).Holds args args.owner deployment key ↔
          (args.context.getD worker.context).deployment = deployment ∧ key ∈ args.keys)

section PerTier

variable {env : TierEnv} {args : AcquireArgs}

/-- What a call of the durable tier leaves, whatever it answers. -/
theorem durable_tryAcquireAll (worker : DurableInstrumentReservations)
    (db : InMemoryReservationDatabase) (hdb : Indexed db) (hthrows : env.throws = none) :
    ∃ s outcome, (Tier.durable worker db).tryAcquireAll env args =
        (.durable s.worker s.db, .ok outcome) ∧
      Acquiring env worker db args s ∧ s.next = .finish (.acquired outcome) := by
  have hbegin : Acquiring env worker db args ⟨db, worker, worker.begin (.tryAcquireAll args)⟩ :=
    Acquiring.begin hdb
  obtain ⟨hacq, outcome, hnext⟩ := hbegin.drive (n := 9) (by
    unfold DurableInstrumentReservations.begin
    dsimp only
    split <;> simp [Session.rank])
  refine ⟨_, outcome, ?_, hacq, hnext⟩
  simp only [Tier.tryAcquireAll, hthrows]
  rw [hnext]
  rfl

theorem tryAcquireAll_throws {tier : Tier} {message : String} (h : env.throws = some message) :
    tier.tryAcquireAll env args = (tier, .error message) := by
  simp only [Tier.tryAcquireAll, h]

theorem inProcess_tryAcquireAll {store : InProcessInstrumentReservations}
    (h : env.throws = none) : (Tier.inProcess store).tryAcquireAll env args =
      (.inProcess (store.tryAcquireAll args).1, .ok (store.tryAcquireAll args).2) := by
  simp only [Tier.tryAcquireAll, h]

theorem SameHoldings.refl (tier : Tier) : SameHoldings args tier tier :=
  fun _ _ _ => Iff.rfl

/-- Two durable states hold the same when the other owners' live rows agree and the own
row's keys do. -/
theorem sameHoldings_durable_iff {w w' : DurableInstrumentReservations}
    {db db' : InMemoryReservationDatabase} (hoff : w'.clockOffsetMs = w.clockOffsetMs)
    (hothers : ∀ o, o ≠ args.owner →
      db'.liveRow (w.toAuthority args.now) o = db.liveRow (w.toAuthority args.now) o) :
    SameHoldings args (.durable w db) (.durable w' db') ↔ ∀ deployment key,
      (Tier.durable w' db').Holds args args.owner deployment key ↔
        (Tier.durable w db).Holds args args.owner deployment key := by
  constructor
  · exact fun h deployment key => h args.owner deployment key
  · intro h owner deployment key
    by_cases ho : owner = args.owner
    · exact ho ▸ h deployment key
    · have hclock : w'.toAuthority args.now = w.toAuthority args.now := by
        simp only [DurableInstrumentReservations.toAuthority, hoff]
      simp only [Tier.Holds, hclock, hothers owner ho]

/-- Without a row an owner holds nothing. -/
theorem holdsNothing_of_none {w : DurableInstrumentReservations}
    {db : InMemoryReservationDatabase} (h : db.docs.get? args.owner = none) :
    (Tier.durable w db).HoldsNothing args := by
  rintro deployment key ⟨doc, hdoc, -⟩
  rw [liveRow, h] at hdoc
  cases hdoc

/-- Through a row just written an owner holds exactly the wanted keys. -/
theorem holds_wanted_iff {w w' : DurableInstrumentReservations}
    {db : InMemoryReservationDatabase} {doc : DurableReservationDoc}
    (hoff : w'.clockOffsetMs = w.clockOffsetMs) (h : db.docs.get? args.owner = some doc)
    (hwanted : Wanted w args doc) (deployment : Deployment) (key : InstrumentKey) :
    (Tier.durable w' db).Holds args args.owner deployment key ↔
      (args.context.getD w.context).deployment = deployment ∧ key ∈ args.keys := by
  obtain ⟨-, hkeys, hdep, hcreated, hlive⟩ := hwanted
  have hclock : w'.toAuthority args.now = doc.createdAt := by
    rw [hcreated]
    simp only [DurableInstrumentReservations.toAuthority, hoff]
  have hrow : db.liveRow (w'.toAuthority args.now) args.owner = some doc := by
    rw [liveRow, h, hclock]
    simp [Option.filter_some, hlive]
  constructor
  · rintro ⟨d, hd, hdd, hk⟩
    rw [hrow] at hd
    cases hd
    refine ⟨hdep ▸ hdd, ?_⟩
    rw [hkeys] at hk
    exact mem_dedupeKeys.mp hk
  · rintro ⟨hd, hk⟩
    refine ⟨doc, hrow, hdep.trans hd, ?_⟩
    rw [hkeys]
    exact mem_dedupeKeys.mpr hk

/-- A refusing tier, exactly. -/
theorem refused_same_iff {tier tier' : Tier} {result : Except String ReservationOutcome}
    (hwf : tier.WellFormed) (h : tier.tryAcquireAll env args = (tier', result))
    (hrefused : ∀ lease, result ≠ .ok (.ok lease)) :
    SameHoldings args tier tier' ↔ tier.KeepsOnRefusal env args := by
  cases hthrows : env.throws with
  | some message =>
      rw [tryAcquireAll_throws hthrows] at h
      cases h
      refine iff_of_true (SameHoldings.refl tier) ?_
      cases tier with
      | inProcess store => trivial
      | durable worker db =>
          intro hnone
          rw [hthrows] at hnone
          cases hnone
  | none =>
      cases tier with
      | inProcess store =>
          rw [inProcess_tryAcquireAll hthrows] at h
          obtain ⟨rfl, rfl⟩ := Prod.mk.inj h
          rw [InProcessInstrumentReservations.tryAcquireAll_refused]
          · exact iff_of_true (SameHoldings.refl _) trivial
          · cases hout : (store.tryAcquireAll args).2 with
            | ok lease => exact absurd (by rw [hout]) (hrefused lease)
            | conflict conflicts => rfl
            | unavailable name detail => rfl
      | durable worker db =>
          obtain ⟨s, outcome, hcall, hacq, hnext⟩ :=
            durable_tryAcquireAll worker db hwf hthrows
          rw [hcall] at h
          cases h
          rw [sameHoldings_durable_iff hacq.offset hacq.others]
          have hown := hacq.own
          rw [hnext] at hown
          have hown : (s.db.docs.get? args.owner = db.docs.get? args.owner ∧
              ¬ ClearsOwnRow env worker db args) ∨ OwnGone env worker db args s.db := by
            cases outcome with
            | ok lease => exact absurd rfl (hrefused lease)
            | conflict conflicts => exact hown
            | unavailable name detail => exact hown
          rcases hown with ⟨hsame, hno⟩ | ⟨hnone, hclears⟩
          · refine iff_of_true (fun deployment key => ?_) fun _ hc => absurd hc hno
            have hclock : s.worker.toAuthority args.now = worker.toAuthority args.now := by
              simp only [DurableInstrumentReservations.toAuthority, hacq.offset]
            simp only [Tier.Holds, liveRow, hclock, hsame]
          · have hnothing : (Tier.durable s.worker s.db).HoldsNothing args := holdsNothing_of_none hnone
            constructor
            · intro hsame _ _ deployment key hh
              exact hnothing deployment key ((hsame deployment key).mpr hh)
            · intro hkeeps deployment key
              refine iff_of_false (hnothing deployment key) ?_
              by_cases hhas : db.docs.has args.owner
              · exact hkeeps hthrows (hclears hhas) deployment key
              · refine holdsNothing_of_none ?_ deployment key
                simpa [OrderedMap.has] using hhas

/-- The rollback deletes the own row when its release reaches the tables, and changes
no table otherwise. -/
theorem rollback_durable (env : TierEnv) (worker : DurableInstrumentReservations)
    {db : InMemoryReservationDatabase} {doc : DurableReservationDoc}
    (hrow : db.docs.get? args.owner = some doc) (hown : doc.owner = args.owner) :
    ∃ w' db', (Tier.durable worker db).rollback env args = .durable w' db' ∧
      w'.clockOffsetMs = worker.clockOffsetMs ∧
      (env.releases worker → db'.docs = db.docs.delete args.owner) ∧
      (¬ env.releases worker → db'.docs = db.docs) := by
  simp only [Tier.rollback, DurableInstrumentReservations.release]
  by_cases hready : worker.initialised ∧ env.beforeRelease = none
  · have hr : DurableInstrumentReservations.ready
        { worker with held := worker.held.delete args.owner }
        { db with failure := env.beforeRelease } = true := by
      simp [DurableInstrumentReservations.ready, hready.1, hready.2]
    rw [if_pos hr]
    cases hat : env.atRelease with
    | some message =>
        refine ⟨_, _, rfl, ?_, fun h => ?_, fun _ => rfl⟩
        · rfl
        · rw [h.2.2] at hat
          cases hat
    | none =>
        refine ⟨_, _, rfl, ?_, fun _ => ?_, fun h => absurd ⟨hready.1, hready.2, hat⟩ h⟩
        · rfl
        · simp [InMemoryReservationDatabase.serve, perform, deleteOwned, hrow, hown]
  · have hr : ¬ DurableInstrumentReservations.ready
        { worker with held := worker.held.delete args.owner }
        { db with failure := env.beforeRelease } = true := by
      intro h
      simp only [DurableInstrumentReservations.ready, Bool.and_eq_true,
        Option.isNone_iff_eq_none] at h
      exact hready h
    rw [if_neg hr]
    exact ⟨_, _, rfl, rfl, fun h => absurd ⟨h.1, h.2.1⟩ hready, fun _ => rfl⟩

/-- A granting tier after its rollback, exactly. -/
theorem rolledBack_same_iff {tier tier' : Tier} {lease : ReservationLease}
    (hwf : tier.WellFormed) (h : tier.tryAcquireAll env args = (tier', .ok (.ok lease))) :
    SameHoldings args tier (tier'.rollback env args) ↔ tier.RestoredByRollback env args := by
  cases hthrows : env.throws with
  | some message =>
      rw [tryAcquireAll_throws hthrows] at h
      cases h
  | none =>
      cases tier with
      | inProcess store =>
          rw [inProcess_tryAcquireAll hthrows] at h
          obtain ⟨rfl, hok⟩ := Prod.mk.inj h
          have hok : (store.tryAcquireAll args).2 = .ok lease := Except.ok.inj hok
          obtain ⟨hfree, expiresAt, fence, -, hget⟩ :=
            @InProcessInstrumentReservations.tryAcquireAll_granted store args (by rw [hok]; rfl)
          have hafter : ∀ key, ((store.tryAcquireAll args).1.release
              { owner := args.owner, keys := some (dedupeKeys args.keys),
                now := args.now }).1.entries.get? key =
              if key ∈ args.keys then none else store.entries.get? key := by
            intro key
            rw [InProcessInstrumentReservations.get?_release, hget]
            by_cases hk : key ∈ args.keys
            · simp [hk, Option.filter_some]
            · cases store.entries.get? key <;> simp [hk, Option.filter_some]
          constructor
          · rintro hsame deployment key hk hh
            obtain ⟨entry, he, -⟩ := (hsame args.owner deployment key).mpr hh
            rw [hafter, if_pos hk] at he
            cases he
          · intro hnothing owner deployment key
            simp only [Tier.rollback, Tier.Holds, hafter]
            by_cases hk : key ∈ args.keys
            · rw [if_pos hk]
              refine iff_of_false ?_ ?_
              · rintro ⟨_, he, _⟩
                cases he
              rintro ⟨entry, he, ho, hlive⟩
              -- The tier granted, so a live entry there was the caller's own.
              rcases hfree key hk entry he with hdead | hown
              · omega
              · exact hnothing deployment key hk ⟨entry, he, hown, hlive⟩
            · rw [if_neg hk]
      | durable worker db =>
          obtain ⟨s, outcome, hcall, hacq, hnext⟩ := durable_tryAcquireAll worker db hwf hthrows
          rw [hcall] at h
          cases h
          have hown := hacq.own
          rw [hnext] at hown
          obtain ⟨doc, hrow, hwanted⟩ := hown
          obtain ⟨w', db', hroll, hoff, hreach, hlost⟩ :=
            rollback_durable env s.worker hrow hwanted.1
          have hsame_init : env.releases s.worker ↔ env.releases worker := by
            simp only [TierEnv.releases, hacq.initialised]
          rw [hsame_init] at hreach hlost
          have hothers : ∀ o, o ≠ args.owner → db'.liveRow (worker.toAuthority args.now) o =
              db.liveRow (worker.toAuthority args.now) o := by
            intro o ho
            rw [← hacq.others o ho]
            by_cases hrel : env.releases worker
            · rw [liveRow, hreach hrel, OrderedMap.get?_delete, if_neg ho, liveRow]
            · rw [liveRow, hlost hrel, liveRow]
          rw [hroll, sameHoldings_durable_iff (hoff.trans hacq.offset) hothers]
          by_cases hrel : env.releases worker
          · have hnone : db'.docs.get? args.owner = none := by
              rw [hreach hrel, OrderedMap.get?_delete, if_pos rfl]
            have hnothing : (Tier.durable w' db').HoldsNothing args := holdsNothing_of_none hnone
            constructor
            · exact fun hsame => .inl ⟨hrel, fun deployment key hh =>
                hnothing deployment key ((hsame deployment key).mpr hh)⟩
            · rintro (⟨-, hbefore⟩ | ⟨hno, -⟩) deployment key
              · exact iff_of_false (hnothing deployment key) (hbefore deployment key)
              · exact absurd hrel hno
          · have hafter : ∀ deployment key,
                (Tier.durable w' db').Holds args args.owner deployment key ↔
                  (args.context.getD worker.context).deployment = deployment ∧ key ∈ args.keys :=
              holds_wanted_iff (hoff.trans hacq.offset) (by rw [hlost hrel, hrow]) hwanted
            constructor
            · exact fun hsame => .inr ⟨hrel, fun deployment key =>
                (hsame deployment key).symm.trans (hafter deployment key)⟩
            · rintro (⟨hyes, -⟩ | ⟨-, hbefore⟩) deployment key
              · exact absurd hyes hrel
              · exact (hafter deployment key).trans (hbefore deployment key).symm

end PerTier

/-- The condition on a refused call. Each tier that grants must be restored by its
rollback, and the tier that refuses must keep its holdings. -/
def Restorable (args : AcquireArgs) : List (Tier × TierEnv) → Prop
  | [] => True
  | (tier, env) :: rest =>
      match (tier.tryAcquireAll env args).2 with
      | .ok (.ok _) => tier.RestoredByRollback env args ∧ Restorable args rest
      | _ => tier.KeepsOnRefusal env args

open ChainedInstrumentReservations

theorem SameHoldings.forall₂_refl (args : AcquireArgs) (tiers : List Tier) :
    List.Forall₂ (SameHoldings args) tiers tiers :=
  List.forall₂_same.mpr fun tier _ => SameHoldings.refl tier

/-- A refusal anywhere in the chain. The tiers taken so far are rolled back; behind
them holdings are the same exactly under the condition. -/
theorem acquireFrom_refused {args : AcquireArgs} {calls taken : List (Tier × TierEnv)}
    {acc : Accumulated} {tiers : List Tier} {refusal : ReservationOutcome}
    (hwf : ∀ c ∈ calls, c.1.WellFormed)
    (h : acquireFrom args calls taken acc = (tiers, .error refusal)) :
    ∃ suffix, tiers = (taken.map fun t => t.1.rollback t.2 args).reverse ++ suffix ∧
      (List.Forall₂ (SameHoldings args) (calls.map (·.1)) suffix ↔ Restorable args calls) := by
  induction calls generalizing taken acc with
  | nil => cases h
  | cons c rest ih =>
      obtain ⟨tier, env⟩ := c
      have htier : tier.WellFormed := hwf _ List.mem_cons_self
      have hrest : ∀ c ∈ rest, c.1.WellFormed := fun c hc => hwf c (List.mem_cons_of_mem _ hc)
      rw [acquireFrom] at h
      cases hcall : tier.tryAcquireAll env args with
      | mk tier' result =>
          rw [hcall] at h
          have hrefused : (∀ lease, result ≠ .ok (.ok lease)) →
              tiers = (taken.map fun t => t.1.rollback t.2 args).reverse ++
                tier' :: rest.map (·.1) →
              ∃ suffix, tiers = (taken.map fun t => t.1.rollback t.2 args).reverse ++ suffix ∧
                (List.Forall₂ (SameHoldings args) (tier :: rest.map (·.1)) suffix ↔
                  Restorable args ((tier, env) :: rest)) := by
            intro hno htiers
            refine ⟨_, htiers, ?_⟩
            rw [List.forall₂_cons, and_iff_left (SameHoldings.forall₂_refl args _),
              refused_same_iff htier hcall hno, Restorable, hcall]
            cases result with
            | error message => rfl
            | ok outcome =>
                cases outcome with
                | ok lease => exact absurd rfl (hno lease)
                | conflict conflicts => rfl
                | unavailable name detail => rfl
          cases result with
          | error message =>
              obtain ⟨htiers, -⟩ := Prod.mk.inj h
              exact hrefused (by simp) htiers.symm
          | ok outcome =>
              cases outcome with
              | conflict conflicts =>
                  obtain ⟨htiers, -⟩ := Prod.mk.inj h
                  exact hrefused (by simp) htiers.symm
              | unavailable name detail =>
                  obtain ⟨htiers, -⟩ := Prod.mk.inj h
                  exact hrefused (by simp) htiers.symm
              | ok lease =>
                  obtain ⟨suffix, htiers, hiff⟩ := ih hrest h
                  refine ⟨tier'.rollback env args :: suffix, ?_, ?_⟩
                  · rw [htiers, List.map_cons, List.reverse_cons, List.append_assoc]
                    rfl
                  · rw [List.map_cons, List.forall₂_cons, hiff, rolledBack_same_iff htier hcall,
                      Restorable, hcall]

/-- For every chain over exact tables, every environment and every request that is not
granted: all holdings in all tiers are what they were before the call exactly when each
tier that granted is restored by its rollback and the refusing tier kept its own. -/
theorem refused_sameHoldings_iff (chain : ChainedInstrumentReservations) (env : Nat → TierEnv)
    (args : AcquireArgs) (hwf : ∀ tier ∈ chain.tiers, tier.WellFormed)
    (hrefused : (chain.tryAcquireAll env args).2.isOk = false) :
    List.Forall₂ (SameHoldings args) chain.tiers (chain.tryAcquireAll env args).1.tiers ↔
      Restorable args (chain.calls env) := by
  have htiers : (chain.calls env).map (·.1) = chain.tiers :=
    List.ext_getElem (by simp [calls]) (by simp [calls])
  have hcalls : ∀ c ∈ chain.calls env, c.1.WellFormed := by
    intro c hc
    refine hwf _ ?_
    rw [← htiers]
    exact List.mem_map.mpr ⟨c, hc, rfl⟩
  unfold ChainedInstrumentReservations.tryAcquireAll at hrefused ⊢
  cases hfrom : acquireFrom args (chain.calls env) []
      ⟨.localOnly, 0, args.now + normaliseTtl args.ttlMs, ∅⟩ with
  | mk tiers result =>
      rw [hfrom] at hrefused
      cases result with
      | ok acc => cases hrefused
      | error refusal =>
          obtain ⟨suffix, hsuffix, hiff⟩ := acquireFrom_refused hcalls hfrom
          rw [htiers] at hiff
          rw [← hiff]
          simp only [hsuffix, List.map_nil, List.reverse_nil, List.nil_append]

/-- An owner that holds a key locally, before an authority that is not ready. -/
def reentrantChain : ChainedInstrumentReservations where
  tiers := [
    .inProcess { entries := (∅ : OrderedMap _ _).set "NIFTY" ⟨"prod:a:1", 500, none, 1⟩,
                 fenceSeq := 1 },
    .durable
      { name := "durable", ownerPrefix := "prod:a:", skewGraceMs := 0,
        context := ⟨"prod", "zerodha", 1, "live"⟩ } {}]

/-- It asks for the same key again; only the authority is unavailable. -/
def reentrantArgs : AcquireArgs where
  owner := "prod:a:1"
  keys := ["NIFTY"]
  ttlMs := 100
  now := 0

/-- The chain answers `unavailable`, and the key the owner held before the call is free. -/
theorem reentrant_refusal_loses_key :
    (reentrantChain.tryAcquireAll (fun _ => { usable := false }) reentrantArgs).2.isOk = false ∧
      ¬ List.Forall₂ (SameHoldings reentrantArgs) reentrantChain.tiers
        (reentrantChain.tryAcquireAll (fun _ => { usable := false }) reentrantArgs).1.tiers := by
  refine ⟨by decide, fun h => ?_⟩
  obtain ⟨hlocal, -⟩ := List.forall₂_cons.mp h
  obtain ⟨entry, hentry, -⟩ := (hlocal "prod:a:1" "prod" "NIFTY").mpr
    ⟨⟨"prod:a:1", 500, none, 1⟩, by decide, rfl, by decide⟩
  have hsome : Option.isSome _ = true := congrArg Option.isSome hentry
  revert hsome
  decide

theorem refused_sameHoldings_iff_reentrant :
    List.Forall₂ (SameHoldings reentrantArgs) reentrantChain.tiers
        (reentrantChain.tryAcquireAll (fun _ => { usable := false }) reentrantArgs).1.tiers ↔
      Restorable reentrantArgs (reentrantChain.calls fun _ => { usable := false }) :=
  refused_sameHoldings_iff reentrantChain _ reentrantArgs (by
    intro tier htier
    simp only [reentrantChain, List.mem_cons, List.not_mem_nil, or_false] at htier
    rcases htier with rfl | rfl
    · trivial
    · exact indexed_empty) (by decide)

end Strikedge.Reservations
