import Mathlib.Computability.RegularExpressions
import Mathlib.Data.List.Infix

/-!
# Patterns at the end of a text

Regular expressions over characters as programs write them: classes, words, optional parts and
bounded repetition. A tail pattern is an expression anchored at the end of a text, with a
look-behind expression in front of it; cutting by one removes its leftmost match.
-/

namespace Strikedge.Pattern

open RegularExpression

/-- A class of characters. -/
def oneOf (chars : List Char) : RegularExpression Char :=
  (chars.map char).foldr (· + ·) 0

def word (w : List Char) : RegularExpression Char :=
  (w.map char).foldr (· * ·) 1

def anyWord (words : List (List Char)) : RegularExpression Char :=
  (words.map word).foldr (· + ·) 0

def optional (p : RegularExpression Char) : RegularExpression Char := 1 + p

/-- `p+` -/
def oneOrMore (p : RegularExpression Char) : RegularExpression Char := p * p.star

/-- `p{least,least+more}` -/
def repeated (p : RegularExpression Char) (least more : ℕ) : RegularExpression Char :=
  p ^ least * optional p ^ more

section Membership

variable {chars : List Char} {words : List (List Char)} {w x : List Char}
variable {p q : RegularExpression Char} {m n : ℕ}

theorem mem_add : x ∈ (p + q).matches' ↔ x ∈ p.matches' ∨ x ∈ q.matches' := Iff.rfl

theorem mem_mul : x ∈ (p * q).matches' ↔ ∃ a ∈ p.matches', ∃ b ∈ q.matches', a ++ b = x :=
  Language.mem_mul

theorem mem_oneOf : x ∈ (oneOf chars).matches' ↔ ∃ c ∈ chars, x = [c] := by
  induction chars with
  | nil => simp [oneOf]
  | cons c rest ih =>
    change x ∈ ({[c]} : Set (List Char)) ∨ x ∈ (oneOf rest).matches' ↔ _
    rw [ih, Set.mem_singleton_iff]
    simp

theorem mem_word : x ∈ (word w).matches' ↔ x = w := by
  induction w generalizing x with
  | nil => exact Language.mem_one x
  | cons c rest ih =>
    change x ∈ (char c * word rest).matches' ↔ _
    rw [mem_mul]
    constructor
    · rintro ⟨a, rfl, b, hb, rfl⟩
      rw [ih.mp hb]
      rfl
    · rintro rfl
      exact ⟨[c], rfl, rest, ih.mpr rfl, rfl⟩

theorem mem_anyWord : x ∈ (anyWord words).matches' ↔ x ∈ words := by
  induction words with
  | nil => simp [anyWord]
  | cons w rest ih =>
    change x ∈ (word w + anyWord rest).matches' ↔ _
    rw [mem_add, mem_word, ih, List.mem_cons]

theorem mem_optional : x ∈ (optional p).matches' ↔ x = [] ∨ x ∈ p.matches' := by
  rw [optional, mem_add]
  exact or_congr_left (Language.mem_one x)

theorem mem_pow_zero : x ∈ (p ^ 0).matches' ↔ x = [] := Language.mem_one x

theorem mem_pow_succ :
    x ∈ (p ^ (n + 1)).matches' ↔ ∃ a ∈ p.matches', ∃ b ∈ (p ^ n).matches', a ++ b = x := by
  rw [matches'_pow, pow_succ', Language.mem_mul, matches'_pow]

/-- So many characters of the class. -/
theorem mem_pow_oneOf :
    x ∈ (oneOf chars ^ n).matches' ↔ x.length = n ∧ ∀ c ∈ x, c ∈ chars := by
  induction n generalizing x with
  | zero =>
    rw [mem_pow_zero, List.length_eq_zero_iff]
    constructor
    · rintro rfl
      simp
    · exact And.left
  | succ n ih =>
    rw [mem_pow_succ]
    constructor
    · rintro ⟨a, ha, b, hb, rfl⟩
      obtain ⟨c, hc, rfl⟩ := mem_oneOf.mp ha
      obtain ⟨hlength, hall⟩ := ih.mp hb
      refine ⟨by simp [hlength], ?_⟩
      rw [List.singleton_append, List.forall_mem_cons]
      exact ⟨hc, hall⟩
    · rintro ⟨hlength, hall⟩
      cases x with
      | nil => simp at hlength
      | cons c rest =>
        obtain ⟨hc, hrest⟩ := List.forall_mem_cons.mp hall
        exact ⟨[c], mem_oneOf.mpr ⟨c, hc, rfl⟩, rest, ih.mpr ⟨by simpa using hlength, hrest⟩, rfl⟩

/-- At most so many characters of the class. -/
theorem mem_pow_optional_oneOf :
    x ∈ (optional (oneOf chars) ^ n).matches' ↔ x.length ≤ n ∧ ∀ c ∈ x, c ∈ chars := by
  induction n generalizing x with
  | zero =>
    rw [mem_pow_zero, Nat.le_zero, List.length_eq_zero_iff]
    constructor
    · rintro rfl
      simp
    · exact And.left
  | succ n ih =>
    rw [mem_pow_succ]
    constructor
    · rintro ⟨a, ha, b, hb, rfl⟩
      obtain ⟨hlength, hall⟩ := ih.mp hb
      obtain rfl | ha := mem_optional.mp ha
      · exact ⟨by simpa using Nat.le_succ_of_le hlength, by simpa using hall⟩
      · obtain ⟨c, hc, rfl⟩ := mem_oneOf.mp ha
        refine ⟨by simpa using hlength, ?_⟩
        rw [List.singleton_append, List.forall_mem_cons]
        exact ⟨hc, hall⟩
    · rintro ⟨hlength, hall⟩
      cases x with
      | nil => exact ⟨[], mem_optional.mpr (.inl rfl), [], ih.mpr ⟨by simp, by simp⟩, rfl⟩
      | cons c rest =>
        obtain ⟨hc, hrest⟩ := List.forall_mem_cons.mp hall
        exact ⟨[c], mem_optional.mpr (.inr (mem_oneOf.mpr ⟨c, hc, rfl⟩)), rest,
          ih.mpr ⟨by simpa using hlength, hrest⟩, rfl⟩

theorem mem_repeated : x ∈ (repeated (oneOf chars) m n).matches' ↔
    m ≤ x.length ∧ x.length ≤ m + n ∧ ∀ c ∈ x, c ∈ chars := by
  rw [repeated, mem_mul]
  constructor
  · rintro ⟨a, ha, b, hb, rfl⟩
    obtain ⟨halength, ha⟩ := mem_pow_oneOf.mp ha
    obtain ⟨hblength, hb⟩ := mem_pow_optional_oneOf.mp hb
    rw [List.length_append, List.forall_mem_append]
    exact ⟨by omega, by omega, ha, hb⟩
  · rintro ⟨hleast, hmost, hall⟩
    refine ⟨x.take m, mem_pow_oneOf.mpr ⟨by rw [List.length_take]; omega, ?_⟩, x.drop m,
      mem_pow_optional_oneOf.mpr ⟨by rw [List.length_drop]; omega, ?_⟩, List.take_append_drop m x⟩
    · exact fun c hc => hall c (List.mem_of_mem_take hc)
    · exact fun c hc => hall c (List.mem_of_mem_drop hc)

theorem mem_star_oneOf : x ∈ (oneOf chars).star.matches' ↔ ∀ c ∈ x, c ∈ chars := by
  rw [matches'_star, Language.mem_kstar]
  constructor
  · rintro ⟨pieces, rfl, hpieces⟩ c hc
    obtain ⟨piece, hpiece, hmem⟩ := List.mem_flatten.mp hc
    obtain ⟨d, hd, rfl⟩ := mem_oneOf.mp (hpieces piece hpiece)
    rw [List.mem_singleton.mp hmem]
    exact hd
  · intro hall
    refine ⟨x.map fun c => [c], ?_, ?_⟩
    · induction x with
      | nil => rfl
      | cons c rest ih =>
        have hrest : rest = (rest.map fun c => [c]).flatten :=
          ih fun d hd => hall d (List.mem_cons_of_mem _ hd)
        rw [List.map_cons, List.flatten_cons, ← hrest, List.singleton_append]
    · intro piece hpiece
      obtain ⟨c, hc, rfl⟩ := List.mem_map.mp hpiece
      exact mem_oneOf.mpr ⟨c, hall c hc, rfl⟩

theorem mem_oneOrMore :
    x ∈ (oneOrMore (oneOf chars)).matches' ↔ x ≠ [] ∧ ∀ c ∈ x, c ∈ chars := by
  rw [oneOrMore, mem_mul]
  constructor
  · rintro ⟨a, ha, b, hb, rfl⟩
    obtain ⟨c, hc, rfl⟩ := mem_oneOf.mp ha
    rw [List.singleton_append, List.forall_mem_cons]
    exact ⟨List.cons_ne_nil _ _, hc, mem_star_oneOf.mp hb⟩
  · rintro ⟨hne, hall⟩
    cases x with
    | nil => exact absurd rfl hne
    | cons c rest =>
      obtain ⟨hc, hrest⟩ := List.forall_mem_cons.mp hall
      exact ⟨[c], mem_oneOf.mpr ⟨c, hc, rfl⟩, rest, mem_star_oneOf.mpr hrest, rfl⟩

end Membership

/-- `/(?<=behind)body$/` -/
structure Tail where
  behind : RegularExpression Char
  body : RegularExpression Char

namespace Tail

variable {tail : Tail} {value before after : List Char}

/-- The text ends in the body, and what is before it ends in a match of the look-behind. -/
def fits (tail : Tail) (before after : List Char) : Bool :=
  before.tails.any tail.behind.rmatch && tail.body.rmatch after

/-- `value.replace(/(?<=behind)body$/, "")` -/
def cut (tail : Tail) (value : List Char) : List Char :=
  match (List.range (value.length + 1)).find? fun n => tail.fits (value.take n) (value.drop n) with
  | some n => value.take n
  | none => value

theorem fits_iff : tail.fits before after = true ↔
    (∃ x, x <:+ before ∧ x ∈ tail.behind.matches') ∧ after ∈ tail.body.matches' := by
  simp only [fits, Bool.and_eq_true, List.any_eq_true, List.mem_tails, rmatch_iff_matches']

/-- Nothing matches and the text stays, or the leftmost match is cut. -/
theorem cut_cases (tail : Tail) (value : List Char) :
    (tail.cut value = value ∧ ∀ x y, x ++ y = value → ¬ tail.fits x y = true) ∨
      ∃ before after, before ++ after = value ∧ tail.fits before after = true ∧
        tail.cut value = before ∧
        ∀ x y, x ++ y = value → tail.fits x y = true → before.length ≤ x.length := by
  have hsplit : ∀ x y, x ++ y = value → tail.fits x y = true →
      tail.fits (value.take x.length) (value.drop x.length) = true ∧
        x.length < value.length + 1 := by
    rintro x y rfl hfits
    rw [List.take_left, List.drop_left, List.length_append]
    exact ⟨hfits, by omega⟩
  rw [cut]
  split
  · rename_i n hn
    obtain ⟨hfits, hlt, hbefore⟩ := List.find?_range_eq_some.mp hn
    refine .inr ⟨_, _, List.take_append_drop n value, hfits, rfl, ?_⟩
    intro x y hxy hfitsx
    rw [List.length_take]
    by_contra hless
    have hnone := hbefore x.length (by omega)
    rw [(hsplit x y hxy hfitsx).1] at hnone
    cases hnone
  · rename_i hnone
    refine .inl ⟨rfl, fun x y hxy hfits => ?_⟩
    obtain ⟨hmatch, hlt⟩ := hsplit x y hxy hfits
    exact absurd hmatch (List.find?_eq_none.mp hnone _ (List.mem_range.mpr hlt))

theorem cut_initial (tail : Tail) (value : List Char) : tail.cut value <+: value := by
  obtain ⟨hself, -⟩ | ⟨before, after, hvalue, -, hcut, -⟩ := cut_cases tail value
  · exact hself.symm ▸ List.prefix_refl value
  · exact ⟨after, hcut.symm ▸ hvalue⟩

/-- Without a match nothing is cut. -/
theorem cut_eq_self (h : ∀ x y, x ++ y = value → ¬ tail.fits x y = true) :
    tail.cut value = value := by
  obtain ⟨hself, -⟩ | ⟨before, after, hvalue, hfits, -⟩ := cut_cases tail value
  · exact hself
  · exact absurd hfits (h before after hvalue)

/-- What is cut is the match that no other one reaches beyond. -/
theorem cut_append (h : tail.fits before after = true)
    (hfirst : ∀ x y, x ++ y = before ++ after → tail.fits x y = true →
      before.length ≤ x.length) : tail.cut (before ++ after) = before := by
  obtain ⟨-, hnone⟩ | ⟨x, y, hvalue, hfits, hcut, hleft⟩ := cut_cases tail (before ++ after)
  · exact absurd h (hnone before after rfl)
  · have hlength : x.length = before.length :=
      Nat.le_antisymm (hleft before after rfl h) (hfirst x y hvalue hfits)
    rw [hcut]
    exact (List.append_inj hvalue hlength).1

/-- A match is cut, so the text gets shorter. -/
theorem cut_ne_self (h : tail.fits before after = true) (hbody : [] ∉ tail.body.matches') :
    tail.cut (before ++ after) ≠ before ++ after := by
  obtain ⟨-, hnone⟩ | ⟨x, y, hvalue, hfits, hcut, -⟩ := cut_cases tail (before ++ after)
  · exact absurd h (hnone before after rfl)
  · intro hself
    rw [← hvalue] at hself hcut
    obtain rfl : y = [] := List.self_eq_append_right.mp (hcut.symm.trans hself)
    exact hbody (fits_iff.mp hfits).2

end Tail

end Strikedge.Pattern
