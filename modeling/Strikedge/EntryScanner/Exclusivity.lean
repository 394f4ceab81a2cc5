import Mathlib.Tactic.ByContra
import Strikedge.EntryScanner.Pipeline
import Strikedge.Machine.Run

/-!
# One entry for a strike pair

The claim of a pair, the pipelines in flight and the positions are kept in step: the pipeline of
a pair holds its claim until a position of that pair takes over, and stays in flight until it
ends. So there is one at a time, and none beside a position. What the claim does not survive is
a fill that the engine has not made a position of.
-/

namespace Strikedge.EntryScanner

open Machine

namespace BoxScanner

variable {s t : BoxScanner} {key : CandidateKey} {call : Nat} {p q : EntryPipeline}

/-- A tick may start an entry for the pair. -/
def Free (s : BoxScanner) (key : CandidateKey) : Prop :=
  s.positions.isTaken key = false ∧ key ∉ s.entryInFlight

/-- A position of the pair is in the book. -/
def Open (s : BoxScanner) (key : CandidateKey) : Prop :=
  ∃ id pos, s.positions.byId.get? id = some pos ∧ pos.key = key

/-- One entry for a pair at a time, none beside a position, no claim left behind and no pair free
of which a fill has been lost. -/
structure Exclusive (s : BoxScanner) : Prop where
  single : (s.pipelines.map (·.key)).Nodup
  starts : ∀ a t key, s.step a = some t → t.begun = s.begun ++ [key] → ¬ s.Open key
  settled : ∀ key, key ∉ s.pipelines.map (·.key) →
    key ∉ s.entryInFlight ∧ key ∉ s.positions.reserved
  recorded : ∀ key ∈ s.lost, ¬ s.Free key

/-- A fill has its charge legs and becomes a position before the engine answers. -/
def Recorded (s : BoxScanner) : Action → Prop
  | .executed _ (.filled legs) => legs = .priced
  | .opened call _ => ∀ pipeline, s.pipelines[call]? = some pipeline → pipeline.added ≠ none
  | _ => True

/-- The three sets agree: a pipeline holds the claim of its pair until its position is added. -/
structure Sound (s : BoxScanner) : Prop where
  single : (s.pipelines.map (·.key)).Nodup
  flight : ∀ key, key ∈ s.entryInFlight ↔ key ∈ s.pipelines.map (·.key)
  held : ∀ key, key ∈ s.positions.reserved ↔ ∃ p ∈ s.pipelines, p.key = key ∧ p.added = none
  absent : ∀ p ∈ s.pipelines, p.added = none → ¬ s.Open p.key
  byKey : ∀ key id, s.positions.byKey.get? key = some id ↔
    ∃ pos, s.positions.byId.get? id = some pos ∧ pos.key = key
  executing : ∀ p ∈ s.pipelines, p.stage = .execution → p.added = none
  complete : s.lost = []

theorem sound_empty : Sound {} where
  single := List.nodup_nil
  flight _ := Iff.rfl
  held _ := iff_of_false (Finset.notMem_empty _) fun ⟨_, h, _⟩ => List.not_mem_nil h
  absent _ h := absurd h List.not_mem_nil
  byKey _ _ := iff_of_false nofun fun ⟨_, h, _⟩ => nomatch h
  executing _ h := absurd h List.not_mem_nil
  complete := rfl

/-- A pair has a position exactly when the book finds it by its key. -/
theorem Sound.open_iff (h : Sound s) : s.Open key ↔ (s.positions.byKey.get? key).isSome = true := by
  rw [Option.isSome_iff_exists]
  exact ⟨fun ⟨id, pos, hpos, hkey⟩ => ⟨id, (h.byKey key id).mpr ⟨pos, hpos, hkey⟩⟩,
    fun ⟨id, hid⟩ => ⟨id, (h.byKey key id).mp hid⟩⟩

theorem isTaken_iff {book : BoxPositionBook} :
    book.isTaken key = true ↔ (book.byKey.get? key).isSome = true ∨ key ∈ book.reserved := by
  rw [BoxPositionBook.isTaken, Bool.or_eq_true, decide_eq_true_eq]
  rfl

/-- Pipelines of one pair are one pipeline. -/
theorem Sound.index_unique (h : Sound s) {i j : Nat} (hi : s.pipelines[i]? = some p)
    (hj : s.pipelines[j]? = some q) (hkey : p.key = q.key) : i = j := by
  have hi' : (s.pipelines.map (·.key))[i]? = some p.key := by
    rw [List.getElem?_map, hi, Option.map_some]
  have hj' : (s.pipelines.map (·.key))[j]? = some q.key := by
    rw [List.getElem?_map, hj, Option.map_some]
  obtain ⟨hlt, -⟩ := List.getElem?_eq_some_iff.mp hi'
  exact (List.getElem?_inj hlt h.single).mp (by rw [hi', hj', hkey])

/-- Where a call has ended, the pipelines of the other pairs are left. -/
theorem Sound.mem_erase (h : Sound s) (hcall : s.pipelines[call]? = some p) :
    q ∈ s.pipelines.eraseIdx call ↔ q ∈ s.pipelines ∧ q.key ≠ p.key := by
  rw [List.mem_eraseIdx_iff_getElem?, List.mem_iff_getElem?]
  constructor
  · rintro ⟨i, hne, hi⟩
    exact ⟨⟨i, hi⟩, fun hkey => hne (h.index_unique hi hcall hkey)⟩
  · rintro ⟨⟨i, hi⟩, hkey⟩
    refine ⟨i, ?_, hi⟩
    rintro rfl
    rw [hcall] at hi
    exact hkey (congrArg EntryPipeline.key (Option.some.inj hi).symm)

/-- Where a call goes on, the pipelines of the other pairs stay. -/
theorem Sound.mem_set (h : Sound s) (hcall : s.pipelines[call]? = some p)
    {other : EntryPipeline} :
    other ∈ s.pipelines.set call q ↔ other = q ∨ other ∈ s.pipelines ∧ other.key ≠ p.key := by
  obtain ⟨hlt, -⟩ := List.getElem?_eq_some_iff.mp hcall
  rw [List.mem_iff_getElem?, List.mem_iff_getElem?]
  constructor
  · rintro ⟨i, hi⟩
    rw [List.getElem?_set] at hi
    split at hi
    · exact .inl (Option.some.inj hi).symm
    · rename_i hne
      exact .inr ⟨⟨i, hi⟩, fun hkey => hne (h.index_unique hcall hi hkey.symm)⟩
  · rintro (rfl | ⟨⟨i, hi⟩, hkey⟩)
    · exact ⟨call, by rw [List.getElem?_set, if_pos rfl, if_pos hlt]⟩
    · refine ⟨i, ?_⟩
      have hne : call ≠ i := by
        rintro rfl
        rw [hcall] at hi
        exact hkey (congrArg EntryPipeline.key (Option.some.inj hi).symm)
      rw [List.getElem?_set, if_neg hne]
      exact hi

/-- The pairs of the pipelines after a call has ended, or gone on. -/
theorem Sound.keys_erase (h : Sound s) (hcall : s.pipelines[call]? = some p) :
    key ∈ (s.pipelines.eraseIdx call).map (·.key) ↔
      key ∈ s.pipelines.map (·.key) ∧ key ≠ p.key := by
  simp only [List.mem_map, h.mem_erase hcall]
  constructor
  · rintro ⟨q, ⟨hq, hne⟩, rfl⟩
    exact ⟨⟨q, hq, rfl⟩, hne⟩
  · rintro ⟨⟨q, hq, rfl⟩, hne⟩
    exact ⟨q, ⟨hq, hne⟩, rfl⟩

theorem keys_set (hcall : s.pipelines[call]? = some p) (hkey : q.key = p.key) :
    (s.pipelines.set call q).map (·.key) = s.pipelines.map (·.key) := by
  obtain ⟨hlt, hp⟩ := List.getElem?_eq_some_iff.mp hcall
  have hlt' : call < (s.pipelines.map (·.key)).length := (List.length_map ..).symm ▸ hlt
  have hsame : q.key = (s.pipelines.map (·.key))[call] := by
    rw [List.getElem_map, hp, hkey]
  rw [List.map_set, hsame, List.set_getElem_self hlt']

/-- The scanner after an entry has started for a pair that is free. -/
def entered (s : BoxScanner) (key : CandidateKey) (priced : Bool) : BoxScanner :=
  if priced then
    { s with
      positions := { s.positions with reserved := insert key s.positions.reserved }
      entryInFlight := insert key s.entryInFlight
      begun := s.begun ++ [key]
      pipelines := s.pipelines ++ [{ key := key }] }
  else { s with begun := s.begun ++ [key] }

theorem attemptEntry_cases (priced : Bool) (hflight : key ∉ s.entryInFlight) :
    s.attemptEntry key priced = s ∨
      s.Free key ∧ s.attemptEntry key priced = s.entered key priced := by
  rw [attemptEntry, BoxPositionBook.reserve]
  by_cases htaken : s.positions.isTaken key = true
  · rw [if_pos htaken]
    exact .inl rfl
  · have hfree : s.positions.isTaken key = false := Bool.not_eq_true _ ▸ htaken
    have hreserved : key ∉ s.positions.reserved := fun hmem =>
      htaken (isTaken_iff.mpr (.inr hmem))
    rw [if_neg htaken]
    refine .inr ⟨⟨hfree, hflight⟩, ?_⟩
    cases priced with
    | true => rfl
    | false =>
      simp only [entered, release, settle, BoxPositionBook.release, Bool.false_eq_true, if_false,
        Finset.erase_insert hreserved, Finset.erase_insert hflight]

/-- A tick leaves the scanner as it is, or starts an entry. -/
theorem evaluate_cases (s : BoxScanner) (key : CandidateKey) (gates : EntryGates)
    (priced : Bool) :
    s.evaluateAndMaybeEnter key gates priced = s ∨
      s.Free key ∧ s.evaluateAndMaybeEnter key gates priced = s.entered key priced := by
  simp only [evaluateAndMaybeEnter]
  repeat' split
  all_goals first
    | exact .inl rfl
    | exact attemptEntry_cases priced ‹_›

theorem begun_entered (priced : Bool) :
    (s.entered key priced).begun = s.begun ++ [key] := by
  rw [entered]
  split <;> rfl

/-- What the gateway or the engine answers begins nothing. -/
theorem begun_executed (answer : GatewayAnswer) : (s.executed call p answer).begun = s.begun := by
  rw [executed.eq_def]
  split <;> rfl

theorem begun_reclaim : (s.reclaim key).begun = s.begun := by
  rw [reclaim]
  split <;> rfl

theorem begun_opened (answer : OpenAnswer) : (s.opened call p answer).begun = s.begun := by
  rw [opened.eq_def]
  split
  · rfl
  · exact begun_reclaim (s := s.concluded call p)
  · rfl
  · rfl

/-- The three sets in step are what the pairs need. -/
theorem Sound.exclusive (h : Sound s) : Exclusive s where
  single := h.single
  starts a t key hstep hbegun := by
    have hlonger : s.begun ≠ s.begun ++ [key] := by
      intro heq
      have hlength := congrArg List.length heq
      rw [List.length_append, List.length_singleton] at hlength
      omega
    cases a with
    | evaluate other gates priced =>
      obtain rfl := Option.some.inj hstep
      obtain hsame | ⟨⟨htaken, -⟩, hentered⟩ := s.evaluate_cases other gates priced
      · rw [hsame] at hbegun
        exact absurd hbegun hlonger
      · rw [hentered, begun_entered] at hbegun
        obtain rfl : other = key := List.singleton_inj.mp (List.append_cancel_left hbegun)
        intro hopen
        have htaken' := isTaken_iff.mpr (.inl (h.open_iff.mp hopen))
        rw [htaken] at htaken'
        cases htaken'
    | executed call answer =>
      obtain ⟨p, -, hp⟩ := Option.bind_eq_some_iff.mp hstep
      split at hp
      · obtain rfl := Option.some.inj hp
        rw [begun_executed] at hbegun
        exact absurd hbegun hlonger
      · cases hp
    | added call id =>
      obtain ⟨p, -, hp⟩ := Option.bind_eq_some_iff.mp hstep
      split at hp
      · obtain rfl := Option.some.inj hp
        exact absurd hbegun hlonger
      · cases hp
    | opened call answer =>
      obtain ⟨p, -, hp⟩ := Option.bind_eq_some_iff.mp hstep
      split at hp
      · obtain rfl := Option.some.inj hp
        rw [begun_opened] at hbegun
        exact absurd hbegun hlonger
      · cases hp
    | removed id =>
      obtain rfl := Option.some.inj hstep
      exact absurd hbegun hlonger
  settled key hkey := by
    refine ⟨fun hflight => hkey ((h.flight key).mp hflight), fun hreserved => ?_⟩
    obtain ⟨p, hp, rfl, -⟩ := (h.held key).mp hreserved
    exact hkey (List.mem_map_of_mem hp)
  recorded key hlost := by
    rw [h.complete] at hlost
    cases hlost

theorem Sound.entered (h : Sound s) (hfree : s.Free key) (priced : Bool) :
    Sound (s.entered key priced) := by
  obtain ⟨htaken, hflight⟩ := hfree
  have hopen : ¬ s.Open key := by
    intro hopen
    have htaken' := isTaken_iff.mpr (.inl (h.open_iff.mp hopen))
    rw [htaken] at htaken'
    cases htaken'
  cases priced with
  | false => exact ⟨h.single, h.flight, h.held, h.absent, h.byKey, h.executing, h.complete⟩
  | true =>
    have hnew : key ∉ s.pipelines.map (·.key) := fun hmem => hflight ((h.flight key).mpr hmem)
    refine ⟨?_, fun other => ?_, fun other => ?_, fun p hp hadded => ?_, h.byKey,
      fun p hp hstage => ?_, h.complete⟩
    · show ((s.pipelines ++ [(⟨key, .execution, none⟩ : EntryPipeline)]).map (·.key)).Nodup
      rw [List.map_append]
      refine h.single.append (List.nodup_singleton key) fun k hk hk' => ?_
      obtain rfl : k = key := List.mem_singleton.mp hk'
      exact hnew hk
    · show other ∈ insert key s.entryInFlight ↔
        other ∈ (s.pipelines ++ [(⟨key, .execution, none⟩ : EntryPipeline)]).map (·.key)
      rw [Finset.mem_insert, List.map_append, List.mem_append, h.flight other, or_comm]
      exact or_congr_right List.mem_singleton.symm
    · show other ∈ insert key s.positions.reserved ↔
        ∃ p ∈ s.pipelines ++ [(⟨key, .execution, none⟩ : EntryPipeline)], p.key = other ∧ _
      rw [Finset.mem_insert, h.held other]
      constructor
      · rintro (rfl | ⟨p, hp, hboth⟩)
        · exact ⟨{ key := other }, List.mem_append_right _ (List.mem_singleton_self _), rfl, rfl⟩
        · exact ⟨p, List.mem_append_left _ hp, hboth⟩
      · rintro ⟨p, hp, hkey, hadded⟩
        obtain hp | hp := List.mem_append.mp hp
        · exact .inr ⟨p, hp, hkey, hadded⟩
        · rw [List.mem_singleton.mp hp] at hkey
          exact .inl hkey.symm
    · obtain hp | hp := List.mem_append.mp hp
      · exact h.absent p hp hadded
      · rw [List.mem_singleton.mp hp]
        exact hopen
    · obtain hp | hp := List.mem_append.mp hp
      · exact h.executing p hp hstage
      · rw [List.mem_singleton.mp hp]

/-- A pipeline ends and its claim is given up, or has been before. -/
theorem Sound.ended (h : Sound s) (hcall : s.pipelines[call]? = some p)
    (hpipelines : t.pipelines = s.pipelines.eraseIdx call)
    (hflight : t.entryInFlight = s.entryInFlight.erase p.key)
    (hreserved : ∀ key, key ∈ t.positions.reserved ↔ key ∈ s.positions.reserved ∧ key ≠ p.key)
    (hbyId : t.positions.byId = s.positions.byId)
    (hbyKey : t.positions.byKey = s.positions.byKey) (hlost : t.lost = s.lost) : Sound t := by
  refine ⟨?_, fun key => ?_, fun key => ?_, fun q hq hadded => ?_, fun key id => ?_,
    fun q hq hstage => ?_, hlost.trans h.complete⟩
  · rw [hpipelines]
    exact h.single.sublist ((List.eraseIdx_sublist _ _).map _)
  · rw [hflight, hpipelines, h.keys_erase hcall, Finset.mem_erase, h.flight key, and_comm]
  · rw [hreserved, h.held key, hpipelines]
    simp only [h.mem_erase hcall]
    constructor
    · rintro ⟨⟨q, hq, rfl, hadded⟩, hne⟩
      exact ⟨q, ⟨hq, hne⟩, rfl, hadded⟩
    · rintro ⟨q, ⟨hq, hne⟩, rfl, hadded⟩
      exact ⟨⟨q, hq, rfl, hadded⟩, hne⟩
  · rw [hpipelines, h.mem_erase hcall] at hq
    rw [Open, hbyId]
    exact h.absent q hq.1 hadded
  · rw [hbyKey, hbyId]
    exact h.byKey key id
  · rw [hpipelines, h.mem_erase hcall] at hq
    exact h.executing q hq.1 hstage

/-- A pipeline goes on and keeps its claim. -/
theorem Sound.proceeded (h : Sound s) (hcall : s.pipelines[call]? = some p)
    (hadded : p.added = none) (hkey : q.key = p.key) (hnone : q.added = none) :
    Sound { s with pipelines := s.pipelines.set call q } := by
  have hp : p ∈ s.pipelines := List.mem_of_getElem? hcall
  have hkeys := keys_set hcall hkey
  refine ⟨?_, fun key => ?_, fun key => ?_, fun r hr hfree => ?_, h.byKey, fun r hr hstage => ?_,
    h.complete⟩
  · exact hkeys.symm ▸ h.single
  · exact hkeys.symm ▸ h.flight key
  · show key ∈ s.positions.reserved ↔ ∃ r ∈ s.pipelines.set call q, r.key = key ∧ r.added = none
    rw [h.held key]
    simp only [h.mem_set hcall]
    constructor
    · rintro ⟨r, hr, rfl, hfree⟩
      by_cases hsame : r.key = p.key
      · exact ⟨q, .inl rfl, hkey.trans hsame.symm, hnone⟩
      · exact ⟨r, .inr ⟨hr, hsame⟩, rfl, hfree⟩
    · rintro ⟨r, rfl | ⟨hr, -⟩, rfl, hfree⟩
      · exact ⟨p, hp, hkey.symm, hadded⟩
      · exact ⟨r, hr, rfl, hfree⟩
  · obtain rfl | ⟨hr, -⟩ := (h.mem_set hcall).mp hr
    · exact hkey ▸ h.absent p hp hadded
    · exact h.absent r hr hfree
  · obtain rfl | ⟨hr, -⟩ := (h.mem_set hcall).mp hr
    · exact hnone
    · exact h.executing r hr hstage

/-- The position of a pipeline takes over its claim. -/
theorem Sound.added (h : Sound s) (hcall : s.pipelines[call]? = some p) {id : PositionId}
    (hstage : p.stage = .tradePersistence) (hadded : p.added = none)
    (hfresh : s.positions.byId.get? id = none) :
    Sound { s with
      positions := s.positions.add ⟨id, p.key⟩
      pipelines := s.pipelines.set call { p with added := some id } } := by
  have hp : p ∈ s.pipelines := List.mem_of_getElem? hcall
  have hkeys : (s.pipelines.set call { p with added := some id }).map (·.key) =
      s.pipelines.map (·.key) := keys_set hcall rfl
  have hothers : ∀ r ∈ s.pipelines.set call { p with added := some id },
      r.added = none → r ∈ s.pipelines ∧ r.key ≠ p.key := by
    intro r hr hfree
    obtain rfl | hr := (h.mem_set hcall).mp hr
    · cases hfree
    · exact hr
  have hget : ∀ other pos, (s.positions.byId.set id ⟨id, p.key⟩).get? other = some pos →
      pos.key ≠ p.key → s.positions.byId.get? other = some pos := by
    intro other pos hpos hne
    obtain ⟨-, rfl⟩ | ⟨-, hpos⟩ := OrderedMap.get?_set_eq_some.mp hpos
    · exact absurd rfl hne
    · exact hpos
  refine ⟨?_, fun key => ?_, fun key => ?_, fun r hr hfree => ?_, fun key other => ?_,
    fun r hr hexecuting => ?_, h.complete⟩
  · exact hkeys.symm ▸ h.single
  · exact hkeys.symm ▸ h.flight key
  · show key ∈ s.positions.reserved.erase p.key ↔ _
    rw [Finset.mem_erase, h.held key]
    constructor
    · rintro ⟨hne, r, hr, rfl, hfree⟩
      exact ⟨r, (h.mem_set hcall).mpr (.inr ⟨hr, hne⟩), rfl, hfree⟩
    · rintro ⟨r, hr, rfl, hfree⟩
      obtain ⟨hr, hne⟩ := hothers r hr hfree
      exact ⟨hne, r, hr, rfl, hfree⟩
  · obtain ⟨hr, hne⟩ := hothers r hr hfree
    rintro ⟨other, pos, hpos, hkey⟩
    exact h.absent r hr hfree ⟨other, pos, hget other pos hpos (hkey ▸ hne), hkey⟩
  · show (s.positions.byKey.set p.key id).get? key = some other ↔
      ∃ pos, (s.positions.byId.set id ⟨id, p.key⟩).get? other = some pos ∧ pos.key = key
    rw [OrderedMap.get?_set_eq_some]
    constructor
    · rintro (⟨rfl, rfl⟩ | ⟨hne, hother⟩)
      · exact ⟨⟨id, p.key⟩, OrderedMap.get?_set_eq_some.mpr (.inl ⟨rfl, rfl⟩), rfl⟩
      · obtain ⟨pos, hpos, hkey⟩ := (h.byKey key other).mp hother
        refine ⟨pos, OrderedMap.get?_set_eq_some.mpr (.inr ⟨?_, hpos⟩), hkey⟩
        rintro rfl
        rw [hfresh] at hpos
        cases hpos
    · rintro ⟨pos, hpos, hkey⟩
      obtain ⟨rfl, rfl⟩ | ⟨-, hpos⟩ := OrderedMap.get?_set_eq_some.mp hpos
      · exact .inl ⟨hkey.symm, rfl⟩
      · refine .inr ⟨?_, (h.byKey key other).mpr ⟨pos, hpos, hkey⟩⟩
        rintro rfl
        exact h.absent p hp hadded ⟨other, pos, hpos, hkey⟩
  · obtain rfl | ⟨hr, -⟩ := (h.mem_set hcall).mp hr
    · rw [show p.stage = .execution from hexecuting] at hstage
      cases hstage
    · exact h.executing r hr hexecuting

/-- A closed position leaves the book. -/
theorem Sound.removed (h : Sound s) (id : PositionId) :
    Sound { s with positions := s.positions.remove id } := by
  cases hpos : s.positions.byId.get? id with
  | none =>
    have hsame : s.positions.remove id = s.positions := by rw [BoxPositionBook.remove, hpos]
    rw [hsame]
    exact h
  | some pos =>
    have hkey : s.positions.byKey.get? pos.key = some id := (h.byKey _ _).mpr ⟨pos, hpos, rfl⟩
    have hreserved : pos.key ∉ s.positions.reserved := by
      intro hmem
      obtain ⟨p, hp, heq, hadded⟩ := (h.held _).mp hmem
      exact h.absent p hp hadded ⟨id, pos, hpos, heq.symm⟩
    have hbook : s.positions.remove id =
        { byId := s.positions.byId.delete id
          byKey := s.positions.byKey.delete pos.key
          reserved := s.positions.reserved } := by
      rw [BoxPositionBook.remove, hpos]
      dsimp only
      rw [if_pos hkey, Finset.erase_eq_of_notMem hreserved]
    have hget : ∀ other found, (s.positions.byId.delete id).get? other = some found ↔
        other ≠ id ∧ s.positions.byId.get? other = some found := by
      intro other found
      rw [OrderedMap.get?_delete]
      by_cases hsame : other = id
      · simp [hsame]
      · simp [hsame]
    rw [hbook]
    refine ⟨h.single, h.flight, h.held, fun p hp hadded => ?_, fun key other => ?_, h.executing,
      h.complete⟩
    · rintro ⟨other, found, hfound, heq⟩
      exact h.absent p hp hadded ⟨other, found, ((hget other found).mp hfound).2, heq⟩
    · show (s.positions.byKey.delete pos.key).get? key = some other ↔
        ∃ found, (s.positions.byId.delete id).get? other = some found ∧ found.key = key
      simp only [hget]
      rw [OrderedMap.get?_delete]
      by_cases hsame : key = pos.key
      · rw [if_pos hsame]
        refine iff_of_false (by simp) ?_
        rintro ⟨found, ⟨hne, hfound⟩, heq⟩
        have hother := (h.byKey pos.key other).mpr ⟨found, hfound, heq.trans hsame⟩
        exact hne (Option.some.inj (hother.symm.trans hkey))
      · rw [if_neg hsame, h.byKey key other]
        refine exists_congr fun found => ⟨?_, ?_⟩
        · rintro ⟨hfound, heq⟩
          refine ⟨⟨?_, hfound⟩, heq⟩
          rintro rfl
          rw [hpos] at hfound
          exact hsame (Option.some.inj hfound ▸ heq.symm)
        · rintro ⟨⟨_, hfound⟩, heq⟩
          exact ⟨hfound, heq⟩

/-- A pair whose pipeline ends without a position is free once its claim is given up. -/
theorem Sound.free_of_lost (h : Sound s) (hcall : s.pipelines[call]? = some p)
    (hadded : p.added = none) (hflight : p.key ∉ t.entryInFlight)
    (hreserved : p.key ∉ t.positions.reserved)
    (hbyKey : t.positions.byKey = s.positions.byKey) : t.Free p.key := by
  refine ⟨?_, hflight⟩
  have hnone : ¬ (s.positions.byKey.get? p.key).isSome = true := fun hsome =>
    h.absent p (List.mem_of_getElem? hcall) hadded (h.open_iff.mpr hsome)
  rw [← Bool.not_eq_true, isTaken_iff, hbyKey]
  exact not_or.mpr ⟨hnone, hreserved⟩

/-- The microtask of a retained fill comes too early to keep the claim. -/
theorem reclaim_release (s : BoxScanner) (key : CandidateKey) :
    ((s.reclaim key).release key).positions.reserved = (s.release key).positions.reserved ∧
      (s.reclaim key).positions.byId = s.positions.byId ∧
      (s.reclaim key).positions.byKey = s.positions.byKey ∧
      (s.reclaim key).entryInFlight = s.entryInFlight ∧
      (s.reclaim key).pipelines = s.pipelines ∧ (s.reclaim key).lost = s.lost := by
  rw [reclaim, BoxPositionBook.reserve]
  split
  · exact ⟨rfl, rfl, rfl, rfl, rfl, rfl⟩
  · split
    · exact ⟨rfl, rfl, rfl, rfl, rfl, rfl⟩
    · refine ⟨?_, rfl, rfl, rfl, rfl, rfl⟩
      show (insert key s.positions.reserved).erase key = s.positions.reserved.erase key
      ext other
      simp only [Finset.mem_erase, Finset.mem_insert]
      tauto

/-- How a pipeline ends once the engine has answered. -/
theorem opened_spec (s : BoxScanner) (call : Nat) (p : EntryPipeline) (answer : OpenAnswer) :
    (s.opened call p answer).pipelines = s.pipelines.eraseIdx call ∧
      (s.opened call p answer).entryInFlight = s.entryInFlight.erase p.key ∧
      (s.opened call p answer).positions.byId = s.positions.byId ∧
      (s.opened call p answer).positions.byKey = s.positions.byKey ∧
      (s.opened call p answer).positions.reserved =
        (if answer = .opened then s.positions.reserved else s.positions.reserved.erase p.key) ∧
      (s.opened call p answer).lost =
        if p.added = none then s.lost ++ [p.key] else s.lost := by
  cases answer with
  | opened => exact ⟨rfl, rfl, rfl, rfl, rfl, rfl⟩
  | threw => exact ⟨rfl, rfl, rfl, rfl, rfl, rfl⟩
  | nothing retained =>
    cases retained with
    | false => exact ⟨rfl, rfl, rfl, rfl, rfl, rfl⟩
    | true =>
      obtain ⟨hreserved, hbyId, hbyKey, hflight, hpipelines, hlost⟩ :=
        reclaim_release (s.concluded call p) p.key
      refine ⟨hpipelines, ?_, hbyId, hbyKey, hreserved, hlost⟩
      show ((s.concluded call p).reclaim p.key).entryInFlight.erase p.key = _
      rw [hflight]
      rfl

/-- One step is as it should be exactly when it records what it fills. -/
theorem step_exactly {a : Action} (h : Sound s) (hstep : s.step a = some t) :
    (Exclusive t ↔ Recorded s a) ∧ (Recorded s a → Sound t) := by
  have hgood : ∀ {C : Prop}, Sound t → C → (Exclusive t ↔ C) ∧ (C → Sound t) :=
    fun ht hC => ⟨iff_of_true ht.exclusive hC, fun _ => ht⟩
  have hbad : ∀ {C : Prop}, (∃ key, key ∈ t.lost ∧ t.Free key) → ¬ C →
      (Exclusive t ↔ C) ∧ (C → Sound t) :=
    fun ⟨key, hlost, hfree⟩ hC =>
      ⟨iff_of_false (fun ht => ht.recorded key hlost hfree) hC, fun h => absurd h hC⟩
  cases a with
  | evaluate key gates priced =>
    obtain rfl := Option.some.inj hstep
    obtain hsame | ⟨hfree, hentered⟩ := s.evaluate_cases key gates priced
    · exact hgood (hsame.symm ▸ h) trivial
    · exact hgood (hentered.symm ▸ h.entered hfree priced) trivial
  | executed call answer =>
    obtain ⟨p, hcall, hp⟩ := Option.bind_eq_some_iff.mp hstep
    split at hp
    · rename_i hstage
      obtain rfl := Option.some.inj hp
      have hadded := h.executing p (List.mem_of_getElem? hcall) hstage
      have hended : Sound (({ s with pipelines := s.pipelines.eraseIdx call }.release
          p.key).settle p.key) :=
        h.ended hcall rfl rfl (fun key => by
          show key ∈ s.positions.reserved.erase p.key ↔ _
          rw [Finset.mem_erase, and_comm]) rfl rfl rfl
      have hlost : ∃ key, key ∈ (((s.concluded call p).release p.key).settle p.key).lost ∧
          (((s.concluded call p).release p.key).settle p.key).Free key := by
        refine ⟨p.key, ?_, h.free_of_lost hcall hadded (Finset.notMem_erase _ _)
          (Finset.notMem_erase _ _) rfl⟩
        show p.key ∈ if p.added = none then s.lost ++ [p.key] else s.lost
        rw [if_pos hadded]
        exact List.mem_append_right _ (List.mem_singleton_self _)
      cases answer with
      | refused => exact hgood hended trivial
      | threw => exact hgood hended trivial
      | filled legs =>
        cases legs with
        | priced => exact hgood (h.proceeded hcall hadded rfl hadded) rfl
        | missing => exact hbad hlost nofun
        | threw => exact hbad hlost nofun
    · cases hp
  | added call id =>
    obtain ⟨p, hcall, hp⟩ := Option.bind_eq_some_iff.mp hstep
    split at hp
    · rename_i hguard
      obtain ⟨hstage, hadded, hfresh⟩ := hguard
      obtain rfl := Option.some.inj hp
      have hnone : s.positions.byId.get? id = none := by
        rw [OrderedMap.has] at hfresh
        exact Option.not_isSome_iff_eq_none.mp (hfresh ▸ Bool.false_ne_true)
      exact hgood (h.added hcall hstage hadded hnone) trivial
    · cases hp
  | opened call answer =>
    obtain ⟨p, hcall, hp⟩ := Option.bind_eq_some_iff.mp hstep
    split at hp
    · rename_i hguard
      obtain rfl := Option.some.inj hp
      obtain ⟨hpipelines, hflight, hbyId, hbyKey, hreserved, hlost⟩ := s.opened_spec call p answer
      have honly : Recorded s (.opened call answer) ↔ p.added ≠ none := by
        constructor
        · exact fun h => h p hcall
        · rintro h q hq
          obtain rfl := Option.some.inj (hcall.symm.trans hq)
          exact h
      rw [honly]
      by_cases hadded : p.added = none
      · have hanswer : answer ≠ .opened := fun heq => hguard.2 heq hadded
        rw [if_neg hanswer] at hreserved
        rw [if_pos hadded] at hlost
        refine hbad ⟨p.key, ?_, h.free_of_lost hcall hadded ?_ ?_ hbyKey⟩ fun h => h hadded
        · rw [hlost]
          exact List.mem_append_right _ (List.mem_singleton_self _)
        · rw [hflight]
          exact Finset.notMem_erase _ _
        · rw [hreserved]
          exact Finset.notMem_erase _ _
      · rw [if_neg hadded] at hlost
        have hgone : p.key ∉ s.positions.reserved := by
          intro hmem
          obtain ⟨q, hq, hkey, hnone⟩ := (h.held p.key).mp hmem
          obtain ⟨j, hj⟩ := List.mem_iff_getElem?.mp hq
          obtain rfl := h.index_unique hj hcall hkey
          exact hadded (Option.some.inj (hj.symm.trans hcall) ▸ hnone)
        refine hgood (h.ended hcall hpipelines hflight (fun key => ?_) hbyId hbyKey hlost) hadded
        rw [hreserved]
        split
        · exact ⟨fun hmem => ⟨hmem, fun heq => hgone (heq ▸ hmem)⟩, And.left⟩
        · rw [Finset.mem_erase, and_comm]
    · cases hp
  | removed id =>
    obtain rfl := Option.some.inj hstep
    exact hgood (h.removed id) trivial

end BoxScanner

open BoxScanner in
/-- In every run of ticks, pipelines and closed positions, in whatever order: at most one entry
for a pair is in flight, none starts beside a position, no claim is left behind and no filled
pair is free again, exactly when every fill has its charge legs and becomes a position before
the engine answers. -/
theorem pair_exclusive_iff_recorded (as : List Action) :
    Throughout step Exclusive {} as ↔ Heeds step Recorded {} as :=
  throughout_iff_heeds
    (fun _ _ _ (_ : True) h _ hrecorded hstep => (step_exactly h hstep).2 hrecorded)
    (fun _ _ _ _ h _ hstep => (step_exactly h hstep).1) sound_empty sound_empty.exclusive
    fun _ _ => trivial

namespace LostFill

/-- A tick on which everything speaks for an entry. -/
def allOpen : EntryGates := ⟨true, true, true, true, true, true, true⟩

/-- All legs of a pair fill, the insert fails and the engine retains the fill. -/
def actions : List Action :=
  [.evaluate "NIFTY" allOpen true, .executed 0 (.filled .priced), .opened 0 (.nothing true)]

/-- A pair with a lost fill that the next tick may enter. -/
def reopened (s : BoxScanner) : Bool :=
  s.lost.any fun key => !s.positions.isTaken key && decide (key ∉ s.entryInFlight)

end LostFill

/-- The engine claims the pair of a retained fill before the scanner gives the claim up, and so
it is free again. -/
theorem retained_fill_reopens :
    ¬ Throughout BoxScanner.step BoxScanner.Exclusive {} LostFill.actions := by
  intro hthroughout
  have hreopened : (run BoxScanner.step {} LostFill.actions).any LostFill.reopened = true := by
    decide +kernel
  obtain ⟨s, hrun, hs⟩ := (Option.any_eq_true _ _).mp hreopened
  obtain ⟨key, hlost, hfree⟩ := List.any_eq_true.mp hs
  obtain ⟨htaken, hflight⟩ := (Bool.and_eq_true _ _).mp hfree
  exact (hthroughout.last hrun).recorded key hlost
    ⟨(Bool.not_eq_true' _).mp htaken, of_decide_eq_true hflight⟩

end Strikedge.EntryScanner
