import Mathlib.Data.Nat.Digits.Lemmas

/-!
# Numerals

How a number is written in a base: its digits, most significant first, without padding, and
the single digit zero for zero. A numeral names one number. Several numerals written one
behind the other no longer do: what is left of them is their joint width and the one number
the digits are read as.
-/

namespace Strikedge

variable {b : ℕ}

/-- The digits of `n` in base `b`, most significant first. -/
def numeral (b n : ℕ) : List ℕ := if n = 0 then [0] else (Nat.digits b n).reverse

/-- Digits read as a number. -/
def readDigits (b : ℕ) (digits : List ℕ) : ℕ := Nat.ofDigits b digits.reverse

@[simp] theorem readDigits_numeral (n : ℕ) : readDigits b (numeral b n) = n := by
  by_cases h : n = 0
  · simp [readDigits, numeral, h]
  · simp [readDigits, numeral, h, Nat.ofDigits_digits]

theorem readDigits_append (front back : List ℕ) :
    readDigits b (front ++ back) = readDigits b front * b ^ back.length + readDigits b back := by
  rw [readDigits, List.reverse_append, Nat.ofDigits_append, List.length_reverse]
  simp only [readDigits]
  ring

theorem numeral_injective : Function.Injective (numeral b) := by
  intro m n h
  have hread := congrArg (readDigits b) h
  rwa [readDigits_numeral, readDigits_numeral] at hread

theorem lt_of_mem_numeral (hb : 1 < b) {n d : ℕ} (hd : d ∈ numeral b n) : d < b := by
  by_cases h : n = 0
  · have hzero : d = 0 := by simpa [numeral, h] using hd
    omega
  · rw [numeral, if_neg h, List.mem_reverse] at hd
    exact Nat.digits_lt_base hb hd

theorem length_numeral_le (hb : 1 < b) {n k : ℕ} (hk : 0 < k) (h : n < b ^ k) :
    (numeral b n).length ≤ k := by
  by_cases hn : n = 0
  · simpa [numeral, hn] using Nat.succ_le_of_lt hk
  · rw [numeral, if_neg hn, List.length_reverse]
    exact (Nat.digits_length_le_iff hb n).mpr h

/-- The numerals of `ns`, one behind the other. -/
def jointNumeral (b : ℕ) (ns : List ℕ) : List ℕ := ns.flatMap (numeral b)

theorem lt_of_mem_jointNumeral (hb : 1 < b) {ns : List ℕ} {d : ℕ}
    (hd : d ∈ jointNumeral b ns) : d < b := by
  obtain ⟨n, -, hmem⟩ := List.mem_flatMap.mp hd
  exact lt_of_mem_numeral hb hmem

/-- The digits each numeral takes. -/
def widths (b : ℕ) (ns : List ℕ) : List ℕ := ns.map fun n => (numeral b n).length

/-- The number the joint numeral is read as: each number moves those in front of it up by its
own width. -/
def jointReading (b : ℕ) : List ℕ → ℕ
  | [] => 0
  | n :: ns => n * b ^ (widths b ns).sum + jointReading b ns

theorem length_jointNumeral (ns : List ℕ) :
    (jointNumeral b ns).length = (widths b ns).sum := by
  rw [jointNumeral, List.length_flatMap, widths]

theorem readDigits_jointNumeral (ns : List ℕ) :
    readDigits b (jointNumeral b ns) = jointReading b ns := by
  induction ns with
  | nil => rfl
  | cons n ns ih =>
    have hlen := length_jointNumeral (b := b) ns
    rw [jointNumeral, List.flatMap_cons, readDigits_append, readDigits_numeral, ← jointNumeral,
      hlen, ih, jointReading]

theorem readDigits_injOn (hb : 1 < b) {l m : List ℕ} (hlen : l.length = m.length)
    (hl : ∀ d ∈ l, d < b) (hm : ∀ d ∈ m, d < b) (h : readDigits b l = readDigits b m) :
    l = m := by
  have hreverse : l.reverse = m.reverse := by
    apply Nat.ofDigits_inj_of_len_eq hb
    · simpa using hlen
    · simpa using hl
    · simpa using hm
    · exact h
  exact List.reverse_injective hreverse

/-- Joint numerals agree exactly when they are as wide and are read as the same number. -/
theorem jointNumeral_eq_iff (hb : 1 < b) (ms ns : List ℕ) :
    jointNumeral b ms = jointNumeral b ns ↔
      (widths b ms).sum = (widths b ns).sum ∧ jointReading b ms = jointReading b ns := by
  constructor
  · intro h
    refine ⟨?_, ?_⟩
    · rw [← length_jointNumeral, h, length_jointNumeral]
    · rw [← readDigits_jointNumeral, h, readDigits_jointNumeral]
  · rintro ⟨hwidth, hread⟩
    apply readDigits_injOn hb
    · rw [length_jointNumeral, length_jointNumeral, hwidth]
    · intro d
      exact lt_of_mem_jointNumeral hb
    · intro d
      exact lt_of_mem_jointNumeral hb
    · rw [readDigits_jointNumeral, readDigits_jointNumeral, hread]

/-- Where every number keeps its width, the joint numeral still names them all. -/
theorem eq_of_jointNumeral_eq {ms ns : List ℕ} (hwidths : widths b ms = widths b ns)
    (h : jointNumeral b ms = jointNumeral b ns) : ms = ns := by
  induction ms generalizing ns with
  | nil =>
    cases ns with
    | nil => rfl
    | cons n ns => simp [widths] at hwidths
  | cons m ms ih =>
    cases ns with
    | nil => simp [widths] at hwidths
    | cons n ns =>
      obtain ⟨hfirst, hrest⟩ := List.cons.inj hwidths
      obtain ⟨hhead, htail⟩ := List.append_inj h hfirst
      rw [numeral_injective hhead, ih hrest htail]

end Strikedge
