import Strikedge.Machine.FixedWindow
import Strikedge.Machine.OrderedMap
import Strikedge.Machine.Run

/-!
# The rate limit of the access gate

`rateLimit` counts the requests of a client in windows that start with a request, and forgets stale
windows now and then.
-/

namespace Strikedge.RateLimit

open Machine

structure Limits where
  windowMs : ℕ
  max : ℕ

/-- The limits of `createVerifyRateLimit`. -/
def verifyLimits : Limits := ⟨5 * 60000, 10⟩

structure Bucket where
  count : ℕ
  resetAt : ℤ
  deriving DecidableEq, Repr

/-- A request as it was answered, with its bucket by then. -/
structure Answer where
  client : String
  now : ℤ
  bucket : Bucket
  deriving DecidableEq, Repr

namespace Answer

def admitted (limits : Limits) (answer : Answer) : Bool := answer.bucket.count ≤ limits.max

/-- The seconds of `Retry-After`. -/
def retryAfter (limits : Limits) (answer : Answer) : Option ℤ :=
  if answer.admitted limits then none
  else some (-((answer.now - answer.bucket.resetAt) / 1000))

end Answer

/-- The clock and the answers are bookkeeping. -/
structure Limiter where
  buckets : OrderedMap String Bucket := ∅
  clock : ℤ
  answers : List Answer := []

inductive Event where
  | request (client : String) (now : ℤ)
  | cleanup (now : ℤ)

def Event.now : Event → ℤ
  | request _ now | cleanup now => now

namespace Limiter

def bucketFor (limits : Limits) (s : Limiter) (client : String) (now : ℤ) : Bucket :=
  match s.buckets.get? client with
  | some bucket => if bucket.resetAt < now then ⟨0, now + limits.windowMs⟩ else bucket
  | none => ⟨0, now + limits.windowMs⟩

def step (limits : Limits) (s : Limiter) : Event → Option Limiter
  | .request client now =>
    let bucket := s.bucketFor limits client now
    let bucket := { bucket with count := bucket.count + 1 }
    some
      { buckets := s.buckets.set client bucket
        clock := now
        answers := s.answers ++ [⟨client, now, bucket⟩] }
  | .cleanup now =>
    some
      { s with
        buckets := s.buckets.filter fun _ bucket => ¬bucket.resetAt < now
        clock := now }

/-- The admitted requests of a client in the span as long as a window that starts at `a`. -/
def admittedFrom (limits : Limits) (s : Limiter) (client : String) (a : ℤ) : List Answer :=
  s.answers.filter fun x =>
    x.client = client ∧ x.admitted limits ∧ a ≤ x.now ∧ x.now ≤ a + limits.windowMs

end Limiter

/-- The clock does not go back. -/
def OnTime (s : Limiter) (e : Event) : Prop := s.clock ≤ e.now

instance (s : Limiter) (e : Event) : Decidable (OnTime s e) := inferInstanceAs (Decidable (_ ≤ _))

def Answer.entry (answer : Answer) : Windowed :=
  ⟨answer.now, answer.bucket.resetAt, answer.bucket.count⟩

/-- Every request up to the `count`-th of a window has been answered by `now`. -/
def Numbered (answers : List Answer) (client : String) (bucket : Bucket) (now : ℤ) : Prop :=
  ∀ k ≤ bucket.count, 1 ≤ k → ∃ t ≤ now, ⟨client, t, k, bucket.resetAt⟩ ∈ answers

/-- A bucket as it is kept: no answer is later, and every one it counts has been given. -/
structure Current (limits : Limits) (answers : List Answer) (client : String) (bucket : Bucket)
    (now : ℤ) : Prop where
  later : ∀ x ∈ answers, x.client = client →
    (bucket.resetAt = x.bucket.resetAt ∧ x.bucket.count ≤ bucket.count) ∨
      x.bucket.resetAt + limits.windowMs < bucket.resetAt
  started : bucket.resetAt ≤ now + limits.windowMs
  numbered : Numbered answers client bucket now

/-- A bucket that a request at `now` may count in. -/
structure Open (limits : Limits) (answers : List Answer) (client : String) (bucket : Bucket)
    (now : ℤ) : Prop extends Current limits answers client bucket now where
  live : now ≤ bucket.resetAt
  new : bucket.count = 0 → bucket.resetAt = now + limits.windowMs

structure Sound (limits : Limits) (s : Limiter) : Prop where
  ordered : s.answers.Pairwise fun x y => x.client = y.client →
    x.entry.Before limits.windowMs y.entry
  inside : ∀ x ∈ s.answers, x.entry.Inside limits.windowMs
  numbered : ∀ x ∈ s.answers, Numbered s.answers x.client x.bucket x.now
  current : ∀ client bucket, s.buckets.get? client = some bucket →
    Current limits s.answers client bucket s.clock ∧ bucket.count ≠ 0
  forgotten : ∀ x ∈ s.answers, s.buckets.get? x.client = none → x.bucket.resetAt < s.clock

section Steps

variable {limits : Limits} {s t : Limiter} {client : String} {bucket : Bucket} {now : ℤ} {e : Event}

theorem Numbered.mono {answers more : List Answer} {later : ℤ}
    (h : Numbered answers client bucket now) (hmore : answers ⊆ more) (hle : now ≤ later) :
    Numbered more client bucket later := by
  intro k hk hone
  obtain ⟨t, ht, hanswer⟩ := h k hk hone
  exact ⟨t, ht.trans hle, hmore hanswer⟩

theorem Current.mono {later : ℤ} (h : Current limits s.answers client bucket now)
    (hle : now ≤ later) : Current limits s.answers client bucket later :=
  ⟨h.later, h.started.trans (Int.add_le_add_right hle _), h.numbered.mono (fun _ hy => hy) hle⟩

theorem Sound.bucketFor (h : Sound limits s) (hnow : s.clock ≤ now) (client : String) :
    Open limits s.answers client (s.bucketFor limits client now) now := by
  have hfresh : (∀ x ∈ s.answers, x.client = client → x.bucket.resetAt < now) →
      Open limits s.answers client ⟨0, now + limits.windowMs⟩ now := by
    intro hstale
    refine ⟨⟨fun x hx hclient => .inr ?_, le_rfl, fun k hk hone => ?_⟩, by simp, fun _ => rfl⟩
    · exact Int.add_lt_add_right (hstale x hx hclient) _
    · exact (Nat.not_succ_le_zero 0 (hone.trans hk)).elim
  rw [Limiter.bucketFor]
  split
  · rename_i bucket hget
    obtain ⟨hcurrent, hused⟩ := h.current client bucket hget
    split
    · rename_i hstale
      apply hfresh
      intro x hx hclient
      have := hcurrent.later x hx hclient
      omega
    · rename_i hlive
      exact ⟨hcurrent.mono hnow, not_lt.mp hlive, fun hunused => absurd hunused hused⟩
  · rename_i hget
    apply hfresh
    rintro x hx rfl
    exact (h.forgotten x hx hget).trans_le hnow

/-- The answer of a request is numbered on in its window, or starts a later one. -/
theorem Sound.request (h : Sound limits s) (hnow : s.clock ≤ now)
    (hopen : Open limits s.answers client bucket now) :
    Sound limits
      { buckets := s.buckets.set client ⟨bucket.count + 1, bucket.resetAt⟩
        clock := now
        answers := s.answers ++ [⟨client, now, bucket.count + 1, bucket.resetAt⟩] } := by
  have hlater : ∀ x ∈ s.answers ++ [⟨client, now, bucket.count + 1, bucket.resetAt⟩],
      x.client = client →
        (bucket.resetAt = x.bucket.resetAt ∧ x.bucket.count ≤ bucket.count + 1) ∨
          x.bucket.resetAt + limits.windowMs < bucket.resetAt := by
    refine List.forall_mem_append.mpr ⟨fun x hx hclient => ?_, by simp⟩
    exact (hopen.later x hx hclient).imp_left fun hsame => ⟨hsame.1, Nat.le_succ_of_le hsame.2⟩
  have hnumbered : Numbered (s.answers ++ [⟨client, now, bucket.count + 1, bucket.resetAt⟩])
      client ⟨bucket.count + 1, bucket.resetAt⟩ now := by
    intro k hk hone
    obtain hk | rfl := Nat.le_succ_iff.mp hk
    · obtain ⟨t, ht, hanswer⟩ := hopen.numbered k hk hone
      exact ⟨t, ht, List.mem_append_left _ hanswer⟩
    · exact ⟨now, le_rfl, List.mem_append_right _ (List.mem_singleton_self _)⟩
  constructor
  · refine List.pairwise_append.mpr ⟨h.ordered, List.pairwise_singleton _ _, ?_⟩
    intro x hx y hy hclient
    obtain rfl := List.mem_singleton.mp hy
    exact (hopen.later x hx hclient).imp_left fun hsame =>
      ⟨hsame.1, Nat.lt_succ_of_le hsame.2⟩
  · refine List.forall_mem_append.mpr ⟨h.inside, ?_⟩
    exact List.forall_mem_singleton.mpr
      ⟨hopen.started, hopen.live, Nat.le_add_left 1 _, fun hone => hopen.new (Nat.succ.inj hone)⟩
  · refine List.forall_mem_append.mpr ⟨fun x hx => ?_, List.forall_mem_singleton.mpr hnumbered⟩
    exact (h.numbered x hx).mono (List.subset_append_left _ _) le_rfl
  · intro other b hget
    rw [OrderedMap.get?_set] at hget
    split at hget
    · rename_i hsame
      subst hsame
      obtain rfl := Option.some.inj hget
      exact ⟨⟨hlater, hopen.started, hnumbered⟩, Nat.succ_ne_zero _⟩
    · rename_i hother
      obtain ⟨hcurrent, hused⟩ := h.current other b hget
      obtain ⟨hold, hbegun, hcounted⟩ := hcurrent.mono hnow
      refine ⟨⟨List.forall_mem_append.mpr ⟨hold, ?_⟩, hbegun,
        hcounted.mono (List.subset_append_left _ _) le_rfl⟩, hused⟩
      exact List.forall_mem_singleton.mpr fun hsame => absurd hsame.symm hother
  · refine List.forall_mem_append.mpr ⟨fun x hx hget => ?_, ?_⟩
    · rw [OrderedMap.get?_set] at hget
      split at hget
      · cases hget
      · exact (h.forgotten x hx hget).trans_le hnow
    · simp

theorem Sound.step (h : Sound limits s) (hnow : OnTime s e) (hstep : s.step limits e = some t) :
    Sound limits t := by
  cases e with
  | request client now =>
    exact Option.some.inj hstep ▸ h.request hnow (h.bucketFor hnow client)
  | cleanup now =>
    obtain rfl := Option.some.inj hstep
    refine ⟨h.ordered, h.inside, h.numbered, fun client bucket hget => ?_, fun x hx hget => ?_⟩
    · rw [OrderedMap.get?_filter] at hget
      exact (h.current client bucket (Option.filter_eq_some_iff.mp hget).1).imp_left (·.mono hnow)
    · rw [OrderedMap.get?_filter] at hget
      cases hbucket : s.buckets.get? x.client with
      | none => exact (h.forgotten x hx hbucket).trans_le hnow
      | some bucket =>
        have hlater := (h.current x.client bucket hbucket).1.later x hx rfl
        have hstale : bucket.resetAt < now := by simpa [hbucket] using hget
        show x.bucket.resetAt < now
        omega

end Steps

/-- While the clock does not go back, no span as long as a window has as many admitted requests of
a client as two windows have, and a refusal has the limit of them behind it in the span that ends
with it. -/
theorem attempts_limited (limits : Limits) (start : ℤ) (events : List Event)
    (hclock : Heeds (Limiter.step limits) OnTime { clock := start } events) :
    Throughout (Limiter.step limits)
      (fun s => (∀ client a, (s.admittedFrom limits client a).length ≤ 2 * limits.max - 1) ∧
        ∀ x ∈ s.answers, x.admitted limits = false → ∀ k ≤ limits.max, 1 ≤ k →
          ∃ t ≤ x.now, x.now - limits.windowMs ≤ t ∧
            ⟨x.client, t, k, x.bucket.resetAt⟩ ∈ s.answers)
      { clock := start } events := by
  have hnew : Sound limits { clock := start } :=
    ⟨List.Pairwise.nil, by simp, by simp, by simp, by simp⟩
  refine (Throughout.of_heeds (fun s e t h hnow => h.step hnow) hnew hclock).mono fun s h => ?_
  constructor
  · intro client a
    have hmem : ∀ {x}, x ∈ s.admittedFrom limits client a → x ∈ s.answers ∧
        x.client = client ∧ x.admitted limits ∧ a ≤ x.now ∧ x.now ≤ a + limits.windowMs := by
      simp [Limiter.admittedFrom]
    rw [← List.length_map Answer.entry]
    apply length_le_of_windows (List.pairwise_map.mpr _)
    · exact List.forall_mem_map.mpr fun x hx => h.inside x (hmem hx).1
    · exact List.forall_mem_map.mpr fun x hx => of_decide_eq_true (hmem hx).2.2.1
    · exact List.forall_mem_map.mpr fun x hx => (hmem hx).2.2.2
    · apply (h.ordered.filter _).imp_of_mem
      exact fun hx hy hbefore => hbefore ((hmem hx).2.1.trans (hmem hy).2.1.symm)
  · intro x hx hrefused k hk hone
    have hcount : limits.max < x.bucket.count := not_le.mp (of_decide_eq_false hrefused)
    obtain ⟨t, ht, hanswer⟩ := h.numbered x hx k (hk.trans hcount.le) hone
    have hended : x.now ≤ x.bucket.resetAt := (h.inside x hx).live
    have hstarted : x.bucket.resetAt ≤ t + limits.windowMs := (h.inside _ hanswer).started
    exact ⟨t, ht, by omega, hanswer⟩

namespace Sample

/-- A window that fills at its end, and the next. -/
def attempts : List Event :=
  .request "a" 0 :: List.replicate 9 (.request "a" 300000) ++
    List.replicate 11 (.request "a" 300001)

end Sample

/-- The bound is reached. -/
theorem attempts_of_two_windows :
    ∃ s, run (Limiter.step verifyLimits) { clock := 0 } Sample.attempts = some s ∧
      (s.admittedFrom verifyLimits "a" 1).length = 2 * verifyLimits.max - 1 := by
  have hend : (run (Limiter.step verifyLimits) { clock := 0 } Sample.attempts).map (fun s =>
      decide (19 ≤ (s.admittedFrom verifyLimits "a" 1).length)) = some true := by decide +kernel
  obtain ⟨s, hrun, hreached⟩ := Option.map_eq_some_iff.mp hend
  have hlimited := attempts_limited verifyLimits 0 Sample.attempts (by decide +kernel)
  exact ⟨s, hrun, ((hlimited.last hrun).1 "a" 1).antisymm (of_decide_eq_true hreached)⟩

end Strikedge.RateLimit
