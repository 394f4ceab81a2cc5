import Strikedge.DhanInstruments.ContractSuffix

/-!
# Parts of a contract

What each pattern cuts from a text is read off the end of the text: two months, two instruments,
or one of each, never end in one another, and a number ends in a digit where they end in a
letter. A token is a part of a contract exactly when its pattern matches.
-/

namespace Strikedge.DhanInstruments

open Machine Pattern RegularExpression

variable {u : Underlying} {value x y z : Text} {m s number : Text} {c d : Char} {whole : ℕ}

/-- The characters of a text are checked in turn, never all characters there are. -/
theorem forall_mem_of_all {p : Char → Prop} [DecidablePred p] {chars : Text}
    (h : chars.all (fun c => decide (p c)) = true) : ∀ c ∈ chars, p c := by
  simpa using h

theorem capitals_not_digits : ∀ c ∈ capitals, c ∉ digits := forall_mem_of_all (by decide)

theorem months_capital (m : Text) (hm : m ∈ months) : m ≠ [] ∧ ∀ c ∈ m, c ∈ capitals := by
  have hall : ∀ m ∈ months, m ≠ [] ∧ m.all (fun c => decide (c ∈ capitals)) = true := by decide
  exact ⟨(hall m hm).1, forall_mem_of_all (hall m hm).2⟩

theorem instruments_capital (s : Text) (hs : s ∈ instruments) :
    s ≠ [] ∧ ∀ c ∈ s, c ∈ capitals := by
  have hall : ∀ s ∈ instruments, s ≠ [] ∧ s.all (fun c => decide (c ∈ capitals)) = true := by
    decide
  exact ⟨(hall s hs).1, forall_mem_of_all (hall s hs).2⟩

theorem months_code : ∀ m ∈ months, ∀ n ∈ months, m <:+ n → m = n := by decide

theorem instruments_code : ∀ s ∈ instruments, ∀ t ∈ instruments, s <:+ t → s = t := by decide

theorem months_instruments : ∀ m ∈ months, ∀ s ∈ instruments, ¬ m <:+ s ∧ ¬ s <:+ m := by decide

/-- Of two ends of one text the shorter is an end of the longer. -/
theorem suffix_or_suffix {a b : Text} (h : x ++ a = y ++ b) : a <:+ b ∨ b <:+ a :=
  List.suffix_or_suffix_of_suffix ⟨x, rfl⟩ ⟨y, h.symm⟩

/-- The text has a last character, and it is one of these. -/
def EndsIn (chars value : Text) : Prop := ∃ z, ∃ c ∈ chars, value = z ++ [c]

theorem endsIn_append {chars : Text} (hne : y ≠ []) (hall : ∀ c ∈ y, c ∈ chars) :
    EndsIn chars (x ++ y) := by
  obtain hnil | ⟨z, c, rfl⟩ := List.eq_nil_or_concat' y
  · exact absurd hnil hne
  · exact ⟨x ++ z, c, hall c (by simp), by rw [List.append_assoc]⟩

/-- The last character is in every end of the text. -/
theorem EndsIn.exists_mem {chars : Text} (h : EndsIn chars (x ++ y)) (hne : y ≠ []) :
    ∃ c ∈ y, c ∈ chars := by
  obtain ⟨z, c, hc, heq⟩ := h
  obtain hnil | ⟨w, d, rfl⟩ := List.eq_nil_or_concat' y
  · exact absurd hnil hne
  · rw [← List.append_assoc] at heq
    obtain rfl : d = c := by simpa using List.append_inj_right' heq rfl
    exact ⟨d, by simp, hc⟩

theorem endsIn_month (hm : m ∈ months) : EndsIn capitals (x ++ m) :=
  endsIn_append (months_capital m hm).1 (months_capital m hm).2

/-- A text that ends in a digit ends in nothing of letters. -/
theorem EndsIn.not_letters (h : EndsIn digits (x ++ y)) (hne : y ≠ [])
    (hall : ∀ c ∈ y, c ∈ capitals) : False := by
  obtain ⟨c, hc, hdigit⟩ := h.exists_mem hne
  exact capitals_not_digits c (hall c hc) hdigit

theorem IsNumber.ne_nil (h : IsNumber number whole) (hpos : 0 < whole) : number ≠ [] := by
  obtain ⟨int, frac, rfl, hlength, -⟩ := h
  have hint : int ≠ [] := by
    rintro rfl
    simp at hlength
    omega
  simp [hint]

theorem IsNumber.chars (h : IsNumber number whole) : ∀ c ∈ number, c ∈ digits ∨ c = '.' := by
  obtain ⟨int, frac, rfl, -, hint, hfrac⟩ := h
  rw [List.forall_mem_append]
  refine ⟨fun c hc => .inl (hint c hc), ?_⟩
  obtain rfl | ⟨more, rfl, -, hmore⟩ := hfrac
  · simp
  · rw [List.forall_mem_cons]
    exact ⟨.inr rfl, fun c hc => .inl (hmore c hc)⟩

theorem IsNumber.endsIn (h : IsNumber number whole) (hpos : 0 < whole) :
    EndsIn digits (x ++ number) := by
  obtain ⟨int, frac, rfl, hlength, hint, hfrac⟩ := h
  have hne : int ≠ [] := by
    rintro rfl
    simp at hlength
    omega
  obtain rfl | ⟨more, rfl, hmore, hall⟩ := hfrac
  · rw [List.append_nil]
    exact endsIn_append hne hint
  · have hassoc : x ++ (int ++ '.' :: more) = (x ++ int ++ ['.']) ++ more := by simp
    rw [hassoc]
    exact endsIn_append hmore hall

theorem instrumentTail_fits_iff : instrumentTail.fits x y = true ↔
    (EndsIn digits x ∨ ∃ z, ∃ m ∈ months, x = z ++ m) ∧ y ∈ instruments := by
  rw [Tail.fits_iff, instrumentTail, mem_anyWord]
  refine and_congr_left fun _ => ?_
  constructor
  · rintro ⟨w, ⟨z, rfl⟩, hw⟩
    obtain hdigit | hmonth := mem_add.mp hw
    · obtain ⟨d, hd, rfl⟩ := mem_oneOf.mp hdigit
      exact .inl ⟨z, d, hd, rfl⟩
    · exact .inr ⟨z, w, mem_anyWord.mp hmonth, rfl⟩
  · rintro (⟨z, d, hd, rfl⟩ | ⟨z, m, hm, rfl⟩)
    · exact ⟨[d], ⟨z, rfl⟩, mem_add.mpr (.inl (mem_oneOf.mpr ⟨d, hd, rfl⟩))⟩
    · exact ⟨m, ⟨z, rfl⟩, mem_add.mpr (.inr (mem_anyWord.mpr hm))⟩

/-- A look-behind for a class of characters is about the last one. -/
theorem endsIn_iff {chars : Text} :
    (∃ w, w <:+ x ∧ w ∈ (oneOf chars).matches') ↔ EndsIn chars x := by
  constructor
  · rintro ⟨w, ⟨z, rfl⟩, hw⟩
    obtain ⟨d, hd, rfl⟩ := mem_oneOf.mp hw
    exact ⟨z, d, hd, rfl⟩
  · rintro ⟨z, d, hd, rfl⟩
    exact ⟨[d], ⟨z, rfl⟩, mem_oneOf.mpr ⟨d, hd, rfl⟩⟩

theorem monthTail_fits_iff :
    monthTail.fits x y = true ↔ EndsIn (capitals ++ digits) x ∧ y ∈ months := by
  rw [Tail.fits_iff, monthTail, month, mem_anyWord, endsIn_iff]

theorem mem_fraction :
    y ∈ fraction.matches' ↔ y = [] ∨ ∃ more, y = '.' :: more ∧ more ≠ [] ∧ AllDigits more := by
  rw [fraction, mem_optional, mem_mul]
  refine or_congr_right ?_
  constructor
  · rintro ⟨a, rfl, more, hmore, rfl⟩
    exact ⟨more, rfl, mem_oneOrMore.mp hmore⟩
  · rintro ⟨more, rfl, hmore⟩
    exact ⟨['.'], rfl, more, mem_oneOrMore.mpr hmore, rfl⟩

theorem numberTail_fits_iff : numberTail.fits x y = true ↔
    EndsIn capitals x ∧ ∃ whole, (2 ≤ whole ∧ whole ≤ 8) ∧ IsNumber y whole := by
  rw [Tail.fits_iff, numberTail, endsIn_iff, mem_mul]
  refine and_congr_right fun _ => ?_
  constructor
  · rintro ⟨int, hint, frac, hfrac, rfl⟩
    obtain ⟨hleast, hmost, hall⟩ := mem_repeated.mp hint
    exact ⟨int.length, ⟨hleast, hmost⟩, int, frac, rfl, rfl, hall, mem_fraction.mp hfrac⟩
  · rintro ⟨whole, ⟨hleast, hmost⟩, int, frac, rfl, rfl, hall, hfrac⟩
    exact ⟨int, mem_repeated.mpr ⟨hleast, hmost, hall⟩, frac, mem_fraction.mpr hfrac, rfl⟩

theorem cut_instrument (hs : s ∈ instruments)
    (hbehind : EndsIn digits value ∨ ∃ z, ∃ m ∈ months, value = z ++ m) :
    instrumentTail.cut (value ++ s) = value := by
  refine Tail.cut_append (instrumentTail_fits_iff.mpr ⟨hbehind, hs⟩) ?_
  intro x y hxy hfits
  have hy := (instrumentTail_fits_iff.mp hfits).2
  have hsame : y = s := by
    obtain h | h := suffix_or_suffix hxy
    · exact instruments_code y hy s hs h
    · exact (instruments_code s hs y hy h).symm
  rw [hsame] at hxy
  exact (congrArg List.length (List.append_cancel_right hxy)).ge

theorem cut_month (hm : m ∈ months) (hbehind : EndsIn (capitals ++ digits) value) :
    monthTail.cut (value ++ m) = value := by
  refine Tail.cut_append (monthTail_fits_iff.mpr ⟨hbehind, hm⟩) ?_
  intro x y hxy hfits
  have hy := (monthTail_fits_iff.mp hfits).2
  have hsame : y = m := by
    obtain h | h := suffix_or_suffix hxy
    · exact months_code y hy m hm h
    · exact (months_code m hm y hy h).symm
  rw [hsame] at hxy
  exact (congrArg List.length (List.append_cancel_right hxy)).ge

/-- The letter in front of a number is in no longer number. -/
theorem cut_number (hnumber : IsNumber number whole) (hwhole : 2 ≤ whole ∧ whole ≤ 8)
    (hbehind : EndsIn capitals value) : numberTail.cut (value ++ number) = value := by
  refine Tail.cut_append (numberTail_fits_iff.mpr ⟨hbehind, whole, hwhole, hnumber⟩) ?_
  intro x y hxy hfits
  obtain ⟨-, n, -, hy⟩ := numberTail_fits_iff.mp hfits
  obtain ⟨w, rfl, hyw⟩ | ⟨w, rfl, -⟩ := List.append_eq_append_iff.mp hxy
  · obtain rfl | hne := eq_or_ne w []
    · rw [List.append_nil]
    · obtain ⟨c, hc, hcapital⟩ := hbehind.exists_mem hne
      obtain hdigit | rfl := hy.chars c (hyw ▸ List.mem_append_left _ hc)
      · exact absurd hdigit (capitals_not_digits c hcapital)
      · exact absurd hcapital (by decide)
  · rw [List.length_append]
    omega

theorem cut_instrument_of_month (hm : m ∈ months) :
    instrumentTail.cut (value ++ m) = value ++ m := by
  refine Tail.cut_eq_self ?_
  intro x y hxy hfits
  have hy := (instrumentTail_fits_iff.mp hfits).2
  obtain ⟨hnot, hnot'⟩ := months_instruments m hm y hy
  exact (suffix_or_suffix hxy).elim hnot' hnot

theorem cut_month_of_digit (h : EndsIn digits value) : monthTail.cut value = value := by
  refine Tail.cut_eq_self ?_
  rintro x y rfl hfits
  have hy := months_capital y (monthTail_fits_iff.mp hfits).2
  exact h.not_letters hy.1 hy.2

theorem cut_number_of_capital (h : EndsIn capitals value) : numberTail.cut value = value := by
  refine Tail.cut_eq_self ?_
  rintro x y rfl hfits
  obtain ⟨-, n, hn, hy⟩ := numberTail_fits_iff.mp hfits
  obtain ⟨z, d, hd, hend⟩ := hy.endsIn (x := x) (by omega)
  obtain ⟨w, c, hc, hend'⟩ := h
  rw [hend] at hend'
  obtain rfl : d = c := by simpa using List.append_inj_right' hend' rfl
  exact capitals_not_digits d hc hd

namespace Underlying

theorem head_eq (u : Underlying) : u.head = [] ∨ ∃ y, u.head = y ++ ['-'] := by
  rw [head]
  obtain hnil | ⟨front, part, heq⟩ := List.eq_nil_or_concat' u.front
  · exact .inl (by rw [hnil]; rfl)
  · exact .inr ⟨front.flatMap (· ++ ['-']) ++ part, by rw [heq]; simp⟩

theorem endsIn_text (u : Underlying) : EndsIn capitals u.text :=
  endsIn_append u.last_ne u.last_chars

/-- The head is empty or ends in a hyphen. -/
theorem ne_nil_of_endsIn {chars : Text} (h : EndsIn chars (u.head ++ z)) (hhyphen : '-' ∉ chars) :
    z ≠ [] := by
  rintro rfl
  rw [List.append_nil] at h
  obtain ⟨w, c, hc, heq⟩ := h
  obtain hnil | ⟨v, hv⟩ := u.head_eq
  · rw [hnil] at heq
    simp at heq
  · rw [hv] at heq
    obtain rfl : '-' = c := by simpa using List.append_inj_right' heq rfl
    exact hhyphen hc

/-- An end that is of letters does not reach into the head. -/
theorem exists_of_letters (h : x ++ y = u.head ++ value) (hy : ∀ c ∈ y, c ∈ capitals) :
    ∃ z, value = z ++ y ∧ x = u.head ++ z := by
  obtain ⟨w, hhead, rfl⟩ | ⟨w, rfl, hvalue⟩ := List.append_eq_append_iff.mp h
  · obtain rfl | hne := eq_or_ne w []
    · exact ⟨[], by simp, by simpa using hhead.symm⟩
    · have hhyphen : EndsIn ['-'] u.head := by
        obtain hnil | ⟨v, hv⟩ := u.head_eq
        · rw [hnil, eq_comm, List.append_eq_nil_iff] at hhead
          exact absurd hhead.2 hne
        · exact ⟨v, '-', List.mem_singleton_self _, hv⟩
      rw [hhead] at hhyphen
      obtain ⟨c, hc, heq⟩ := hhyphen.exists_mem hne
      have hcapital := hy c (List.mem_append_left _ hc)
      rw [List.mem_singleton.mp heq] at hcapital
      exact absurd hcapital (by decide)
  · exact ⟨w, hvalue, rfl⟩

/-- What an instrument is cut behind, as a part of the symbol. -/
theorem fits_instrument_iff :
    (∃ x y, x ++ y = u.text ∧ instrumentTail.fits x y = true) ↔
      ∃ z, ∃ m ∈ months, ∃ s ∈ instruments, u.last = z ++ m ++ s := by
  constructor
  · rintro ⟨x, y, hxy, hfits⟩
    obtain ⟨hbehind, hy⟩ := instrumentTail_fits_iff.mp hfits
    obtain ⟨z, hlast, rfl⟩ := exists_of_letters hxy (instruments_capital y hy).2
    obtain hdigit | ⟨w, m, hm, heq⟩ := hbehind
    · refine absurd (ne_nil_of_endsIn hdigit (by decide)) fun hne => ?_
      refine hdigit.not_letters hne fun c hc => u.last_chars c ?_
      rw [hlast]
      exact List.mem_append_left _ hc
    · obtain ⟨v, rfl, -⟩ := exists_of_letters heq.symm (months_capital m hm).2
      exact ⟨v, m, hm, y, hy, hlast⟩
  · rintro ⟨z, m, hm, s, hs, hlast⟩
    refine ⟨u.head ++ (z ++ m), s, by rw [text, hlast, List.append_assoc], ?_⟩
    exact instrumentTail_fits_iff.mpr ⟨.inr ⟨u.head ++ z, m, hm, by rw [List.append_assoc]⟩, hs⟩

theorem fits_month_iff :
    (∃ x y, x ++ y = u.text ∧ monthTail.fits x y = true) ↔
      ∃ z, ∃ m ∈ months, u.last = z ++ m ∧ z ≠ [] := by
  constructor
  · rintro ⟨x, y, hxy, hfits⟩
    obtain ⟨hbehind, hy⟩ := monthTail_fits_iff.mp hfits
    obtain ⟨z, hlast, rfl⟩ := exists_of_letters hxy (months_capital y hy).2
    exact ⟨z, y, hy, hlast, ne_nil_of_endsIn hbehind (by decide)⟩
  · rintro ⟨z, m, hm, hlast, hne⟩
    refine ⟨u.head ++ z, m, by rw [text, hlast, List.append_assoc], ?_⟩
    refine monthTail_fits_iff.mpr ⟨endsIn_append hne fun c hc => ?_, hm⟩
    refine List.mem_append_left _ (u.last_chars c ?_)
    rw [hlast]
    exact List.mem_append_left _ hc

namespace Plain

theorem cut_instrument_text (h : u.Plain) : instrumentTail.cut u.text = u.text := by
  refine Tail.cut_eq_self fun x y hxy hfits => ?_
  obtain ⟨z, m, hm, s, hs, hlast⟩ := fits_instrument_iff.mp ⟨x, y, hxy, hfits⟩
  exact h.instrument z m hm s hs hlast

theorem cut_month_text (h : u.Plain) : monthTail.cut u.text = u.text := by
  refine Tail.cut_eq_self fun x y hxy hfits => ?_
  obtain ⟨z, m, hm, hlast, hne⟩ := fits_month_iff.mp ⟨x, y, hxy, hfits⟩
  exact hne (h.month z m hm hlast)

theorem peelOnce_text (h : u.Plain) : peelOnce u.text = u.text := by
  change numberTail.cut (monthTail.cut (instrumentTail.cut u.text)) = u.text
  rw [h.cut_instrument_text, h.cut_month_text, cut_number_of_capital u.endsIn_text]

end Plain

end Underlying

theorem peelOnce_eq :
    peelOnce value = numberTail.cut (monthTail.cut (instrumentTail.cut value)) := rfl

theorem peel_of_fixed (h : peelOnce value = value) (n : ℕ) : peel n value = value := by
  cases n with
  | zero => rfl
  | succ n => rw [peel, if_pos h]

theorem peel_succ (n : ℕ) (h : peelOnce (peelOnce value) = peelOnce value) :
    peel (n + 1) value = peelOnce value := by
  rw [peel]
  split
  · rename_i hfixed
    exact hfixed.symm
  · exact peel_of_fixed h n

/-- Two passes: the second one takes what the first one uncovered. -/
theorem peel_succ_succ (n : ℕ) {once : Text} (honce : peelOnce value = once)
    (h : peelOnce (peelOnce once) = peelOnce once) :
    peel (n + 2) value = peelOnce once := by
  rw [peel]
  split
  · rename_i hfixed
    rw [← honce, hfixed, hfixed]
  · rw [honce, peel_succ n h]

section Peel

variable {year right : Text}

theorem endsIn_year (hyear : AllDigits year) (hlength : year.length = 2) :
    EndsIn digits (value ++ year) := by
  refine endsIn_append ?_ hyear
  rintro rfl
  simp at hlength

theorem EndsIn.mono {chars more : Text} (h : EndsIn chars value) (hsub : chars ⊆ more) :
    EndsIn more value := by
  obtain ⟨z, c, hc, rfl⟩ := h
  exact ⟨z, c, hsub hc, rfl⟩

theorem isNumber_year (hyear : AllDigits year) : IsNumber year year.length :=
  ⟨year, [], by simp, rfl, hyear, .inl rfl⟩

/-- The year and the month behind a text that ends in a letter. -/
theorem cut_expiry (h : EndsIn capitals value) (hyear : AllDigits year) (hlength : year.length = 2)
    (hm : m ∈ months) : numberTail.cut (monthTail.cut (value ++ year ++ m)) = value := by
  rw [cut_month hm ((endsIn_year hyear hlength).mono (List.subset_append_right _ _)),
    cut_number (isNumber_year hyear) (by omega) h]

theorem peelOnce_future (h : EndsIn capitals value) (hyear : AllDigits year)
    (hlength : year.length = 2) (hm : m ∈ months) (hs : s ∈ instruments) :
    peelOnce (value ++ year ++ m ++ s) = value := by
  rw [peelOnce_eq, cut_instrument hs (.inr ⟨_, m, hm, rfl⟩), cut_expiry h hyear hlength hm]

theorem peelOnce_expiry (h : EndsIn capitals value) (hyear : AllDigits year)
    (hlength : year.length = 2) (hm : m ∈ months) : peelOnce (value ++ year ++ m) = value := by
  rw [peelOnce_eq, cut_instrument_of_month hm, cut_expiry h hyear hlength hm]

theorem peelOnce_strike (h : EndsIn capitals value) (hstrike : IsNumber number whole)
    (hwhole : 2 ≤ whole ∧ whole ≤ 8) (hs : s ∈ instruments) :
    peelOnce (value ++ number ++ s) = value := by
  have hdigit : EndsIn digits (value ++ number) := hstrike.endsIn (by omega)
  rw [peelOnce_eq, cut_instrument hs (.inl hdigit), cut_month_of_digit hdigit,
    cut_number hstrike hwhole h]

end Peel

theorem contractToken_iff {token : Text} : contractToken.rmatch token = true ↔ Component token := by
  rw [rmatch_iff_matches', contractToken, mem_add, mem_add, mem_add, mem_anyWord]
  constructor
  · rintro (((h | h) | h) | h)
    · exact .instrument h
    · obtain ⟨int, hint, frac, hfrac, rfl⟩ := mem_mul.mp h
      obtain ⟨hne, hall⟩ := mem_oneOrMore.mp hint
      exact .number ⟨int, frac, rfl, rfl, hall, mem_fraction.mp hfrac⟩ (List.length_pos_iff.mpr hne)
    · obtain ⟨m, hm, year, hyear, rfl⟩ := mem_mul.mp h
      obtain ⟨-, hlength, hall⟩ := mem_repeated.mp hyear
      exact .monthYear (mem_anyWord.mp hm) hall (by omega)
    · obtain ⟨year, hyear, m, hm, rfl⟩ := mem_mul.mp h
      obtain ⟨hleast, hmost, hall⟩ := mem_repeated.mp hyear
      exact .yearMonth hall ⟨hleast, by omega⟩ (mem_anyWord.mp hm)
  · rintro (h | ⟨⟨int, frac, rfl, rfl, hall, hfrac⟩, hpos⟩ | ⟨hm, hyear, hlength⟩ |
      ⟨hyear, ⟨hleast, hmost⟩, hm⟩)
    · exact .inl (.inl (.inl h))
    · refine .inl (.inl (.inr (mem_mul.mpr ⟨int, mem_oneOrMore.mpr ⟨?_, hall⟩, frac,
        mem_fraction.mpr hfrac, rfl⟩)))
      exact List.length_pos_iff.mp hpos
    · exact .inl (.inr (mem_mul.mpr ⟨_, mem_anyWord.mpr hm, _,
        mem_repeated.mpr ⟨by omega, by omega, hyear⟩, rfl⟩))
    · exact .inr (mem_mul.mpr ⟨_, mem_repeated.mpr ⟨hleast, by omega, hyear⟩, _,
        mem_anyWord.mpr hm, rfl⟩)

namespace Component

variable {token : Text}

theorem chars (h : Component token) : token ≠ [] ∧
    ∀ c ∈ token, c ∈ capitals ∨ c ∈ digits ∨ c = '.' := by
  cases h with
  | instrument h =>
    exact ⟨(instruments_capital token h).1, fun c hc => .inl ((instruments_capital token h).2 c hc)⟩
  | number h hpos => exact ⟨h.ne_nil hpos, fun c hc => .inr (h.chars c hc)⟩
  | monthYear hm hyear hlength =>
    rw [List.forall_mem_append]
    exact ⟨List.append_ne_nil_of_left_ne_nil (months_capital _ hm).1 _,
      fun c hc => .inl ((months_capital _ hm).2 c hc), fun c hc => .inr (.inl (hyear c hc))⟩
  | yearMonth hyear hlength hm =>
    rw [List.forall_mem_append]
    exact ⟨List.append_ne_nil_of_right_ne_nil _ (months_capital _ hm).1,
      fun c hc => .inr (.inl (hyear c hc)), fun c hc => .inl ((months_capital _ hm).2 c hc)⟩

/-- A component that begins with a letter and ends in one is a word. -/
theorem of_letters (h : Component token) (hfirst : ∃ c ∈ capitals, ∃ rest, token = c :: rest)
    (hlast : EndsIn capitals token) : token ∈ instruments ∨ token ∈ months := by
  obtain ⟨c, hc, rest, hfirst⟩ := hfirst
  cases h with
  | instrument h => exact .inl h
  | number h hpos =>
    obtain hdigit | rfl := h.chars c (hfirst ▸ List.mem_cons_self)
    · exact absurd hdigit (capitals_not_digits c hc)
    · exact absurd hc (by decide)
  | @monthYear m year hm hyear hlength =>
    obtain rfl | hne := eq_or_ne year []
    · exact .inr (by rwa [List.append_nil])
    · obtain ⟨d, hd, hcapital⟩ := hlast.exists_mem hne
      exact absurd (hyear d hd) (capitals_not_digits d hcapital)
  | @yearMonth year m hyear hlength hm =>
    cases year with
    | nil => simp at hlength
    | cons d rest =>
      rw [List.cons_append, List.cons.injEq] at hfirst
      exact absurd (hyear d List.mem_cons_self) (hfirst.1 ▸ capitals_not_digits c hc)

end Component

theorem isSeparator_of_char : ∀ c ∈ capitals ++ digits ++ ['.', '&'], isSeparator c = false :=
  forall_mem_of_all (by decide)

theorem tokens_append_cons (h : isSeparator c = true) :
    tokens (x ++ c :: y) = tokens x ++ tokens y := by
  rw [tokens, List.splitOnP_append_cons _ _ h, List.filter_append]
  rfl

theorem tokens_word (hne : x ≠ []) (h : ∀ c ∈ x, isSeparator c = false) : tokens x = [x] := by
  rw [tokens, List.splitOnP_eq_singleton h]
  simp [hne]

theorem Component.tokens_eq {token : Text} (h : Component token) : tokens token = [token] := by
  refine tokens_word h.chars.1 fun c hc => isSeparator_of_char c ?_
  obtain hcapital | hdigit | hpoint := h.chars.2 c hc
  · simp [hcapital]
  · simp [hdigit]
  · simp [hpoint]

theorem tokens_flatMap {components : List (Char × Text)}
    (h : ∀ c ∈ components, isSeparator c.1 = true ∧ Component c.2) :
    tokens (x ++ components.flatMap fun c => c.1 :: c.2) =
      tokens x ++ components.map Prod.snd := by
  induction components using List.reverseRecOn with
  | nil => simp
  | append_singleton front last ih =>
    rw [List.forall_mem_append, List.forall_mem_singleton] at h
    obtain ⟨hfront, hsep, hlast⟩ := h
    rw [List.flatMap_append, List.flatMap_singleton, ← List.append_assoc,
      tokens_append_cons hsep, ih hfront, hlast.tokens_eq, List.map_append, List.append_assoc]
    rfl

theorem Underlying.tokens_head (u : Underlying) : tokens (u.head ++ y) = u.front ++ tokens y := by
  have hfront := u.front_chars
  rw [Underlying.head]
  generalize u.front = front at hfront
  induction front with
  | nil => rfl
  | cons part rest ih =>
    obtain ⟨⟨hne, hchars⟩, hrest⟩ := List.forall_mem_cons.mp hfront
    have hpart : tokens part = [part] := by
      refine tokens_word hne fun c hc => isSeparator_of_char c ?_
      obtain hcapital | rfl := hchars c hc
      · simp [hcapital]
      · simp
    rw [List.flatMap_cons, List.append_assoc, List.append_assoc, List.singleton_append,
      tokens_append_cons rfl, hpart, ih hrest]
    rfl

theorem Underlying.tokens_last (u : Underlying) : tokens u.last = [u.last] :=
  tokens_word u.last_ne fun c hc => isSeparator_of_char c (by simp [u.last_chars c hc])

theorem dropContract_suffix : ∀ l, dropContract l <:+ l
  | [] => List.suffix_refl _
  | [_] => List.suffix_refl _
  | token :: next :: rest => by
    rw [dropContract]
    split
    · exact (dropContract_suffix (next :: rest)).trans (List.suffix_cons _ _)
    · exact List.suffix_refl _

theorem dropContract_append {components rest : List Text} (h : ∀ t ∈ components, Component t)
    (hne : rest ≠ []) : dropContract (components ++ rest) = dropContract rest := by
  induction components with
  | nil => rfl
  | cons token components ih =>
    obtain ⟨htoken, hrest⟩ := List.forall_mem_cons.mp h
    obtain ⟨next, tail, heq⟩ :=
      List.exists_cons_of_ne_nil (List.append_ne_nil_of_right_ne_nil components hne)
    rw [← ih hrest, List.cons_append, heq, dropContract, if_pos (contractToken_iff.mpr htoken)]

theorem dropContract_cons {token : Text} {rest : List Text}
    (h : rest ≠ [] → ¬ Component token) : dropContract (token :: rest) = token :: rest := by
  cases rest with
  | nil => rfl
  | cons next rest =>
    rw [dropContract, if_neg]
    rw [contractToken_iff]
    exact h (List.cons_ne_nil _ _)

end Strikedge.DhanInstruments
