import Strikedge.DhanInstruments.ContractParts

/-!
# Recovering the underlying

Of every rendering of a plain symbol the function drops the tokens behind the symbol and cuts the
parts that are joined to it; of the symbol itself nothing is left to cut. A symbol that is not
plain loses more than its contract.
-/

namespace Strikedge.DhanInstruments

open Machine Pattern RegularExpression

variable {u : Underlying} {value x y z : Text} {m s number : Text} {c d : Char} {whole : ℕ}

/-- A character that a space, a separator or a letter becomes is not beyond ASCII. -/
theorem toNat_lt_of_toUpper (h : c.toUpper.toNat < 128) : c.toNat < 128 := by
  by_cases hlower : 'a'.val ≤ c.val ∧ c.val ≤ 'z'.val
  · have hle : c.val ≤ 'z'.val := hlower.2
    have hnat : c.toNat ≤ 'z'.toNat := UInt32.le_iff_toNat_le.mp hle
    exact Nat.lt_of_le_of_lt hnat (by decide)
  · have hsame : c.toUpper = c := dif_neg hlower
    rwa [hsame] at h

theorem toUpper_of_isSpace (h : isSpace c = true) : c.toUpper = c := by
  by_cases hlower : 'a'.val ≤ c.val ∧ c.val ≤ 'z'.val
  · have hge : 'a'.toNat ≤ c.toNat := UInt32.le_iff_toNat_le.mp hlower.1
    have hle : c.toNat ≤ 'z'.toNat := UInt32.le_iff_toNat_le.mp hlower.2
    have hnone : ∀ n < 123, 97 ≤ n → isSpace (Char.ofNat n) = false := by decide
    have hnot := hnone c.toNat (Nat.lt_succ_of_le hle) hge
    rw [Char.ofNat_toNat, h] at hnot
    cases hnot
  · exact dif_neg hlower

theorem toUpperCase_eq {beyond : Char → Text} {text : Text}
    (h : ∀ c ∈ text.map Char.toUpper, c.toNat < 128) :
    toUpperCase beyond text = text.map Char.toUpper :=
  toUpperCase_of_ascii fun _ hc => toNat_lt_of_toUpper (h _ (List.mem_map_of_mem hc))

/-- A text that neither begins nor ends with a space is trimmed. -/
theorem trim_eq {text : String} {c d : Char} {rest front : Text}
    (hfirst : text.toList = c :: rest) (hlast : text.toList = front ++ [d])
    (hc : isSpace c = false) (hd : isSpace d = false) : trim text = text := by
  rw [trim]
  have hleft : text.toList.dropWhile isSpace = text.toList := by
    rw [hfirst, List.dropWhile_cons_of_neg (by simp [hc])]
  have hright : text.toList.reverse.dropWhile isSpace = text.toList.reverse := by
    rw [hlast, List.reverse_append, List.reverse_singleton, List.singleton_append,
      List.dropWhile_cons_of_neg (by simp [hd])]
  rw [hleft, hright, List.reverse_reverse, String.ofList_toList]

/-- What a rendering is written with. -/
def symbols : Text := capitals ++ digits ++ ['.', '&', '-', '_', ' ']

theorem symbols_ascii : ∀ c ∈ symbols, c.toNat < 128 := forall_mem_of_all (by decide)

theorem isSpace_of_symbol : ∀ c ∈ symbols, c ≠ ' ' → isSpace c = false :=
  forall_mem_of_all (by decide)

/-- A rendering, as the function needs it. -/
structure Written (rendering : Text) : Prop where
  symbols : ∀ c ∈ rendering, c ∈ symbols
  first : ∃ c rest, rendering = c :: rest ∧ c ≠ ' '
  last : EndsIn (capitals ++ digits) rendering

section Strip

variable {beyond : Char → Text} {text : String} {rendering : Text}

theorem toUpperCase_trim (h : Written rendering)
    (hspelled : text.toList.map Char.toUpper = rendering) :
    toUpperCase beyond (trim text).toList = rendering := by
  have hspace : ∀ c, c.toUpper ∈ symbols → c.toUpper ≠ ' ' → isSpace c = false := by
    intro c hc hne
    have hupper := isSpace_of_symbol _ hc hne
    cases hspace : isSpace c with
    | false => rfl
    | true =>
      rw [toUpper_of_isSpace hspace, hspace] at hupper
      cases hupper
  obtain ⟨c, rest, hfirst, hc⟩ := h.first
  obtain ⟨front, d, hd, hlast⟩ := h.last
  have hcmem : c ∈ symbols := h.symbols c (by simp [hfirst])
  have hdmem : d ∈ symbols := h.symbols d (by simp [hlast])
  have hdne : d ≠ ' ' := by
    rintro rfl
    exact absurd hd (by decide)
  obtain ⟨c, rest, hchars, rfl, rfl⟩ := List.map_eq_cons_iff.mp (hspelled.trans hfirst)
  obtain ⟨front, last, hchars', rfl, hd'⟩ := List.map_eq_append_iff.mp (hspelled.trans hlast)
  obtain ⟨d, rfl, rfl⟩ := List.map_eq_singleton_iff.mp hd'
  rw [trim_eq hchars hchars' (hspace c hcmem hc) (hspace d hdmem hdne), toUpperCase_eq, hspelled]
  intro e he
  exact symbols_ascii e (h.symbols e (hspelled ▸ he))

theorem stripContractSuffix_eq (h : Written rendering)
    (hspelled : text.toList.map Char.toUpper = rendering) :
    stripContractSuffix beyond text = String.ofList
      ((peel 8 (['-'].intercalate (dropContract (tokens rendering).reverse).reverse)).rdropWhile
        fun c => c == '-' || isSpace c) := by
  rw [stripContractSuffix, toUpperCase_trim h hspelled]

end Strip

namespace Underlying

theorem intercalate_front (u : Underlying) :
    ['-'].intercalate (u.front ++ [value]) = u.head ++ value := by
  rw [head]
  induction u.front with
  | nil => simp
  | cons part rest ih =>
    have hne : rest ++ [value] ≠ [] := by simp
    obtain ⟨next, tail, heq⟩ := List.exists_cons_of_ne_nil hne
    rw [List.cons_append, heq, List.intercalate_cons_cons, ← heq, ih, List.flatMap_cons]
    simp

theorem rdropWhile_text (u : Underlying) :
    u.text.rdropWhile (fun c => c == '-' || isSpace c) = u.text := by
  obtain ⟨z, c, hc, heq⟩ := u.endsIn_text
  rw [heq, List.rdropWhile_concat_neg]
  have hnone : ∀ c ∈ capitals, ¬ (c == '-' || isSpace c) = true := forall_mem_of_all (by decide)
  exact hnone c hc

theorem text_chars (u : Underlying) : ∀ c ∈ u.text, c ∈ symbols ∧ c ≠ ' ' := by
  have hcapital : ∀ c ∈ capitals, c ∈ symbols ∧ c ≠ ' ' := forall_mem_of_all (by decide)
  intro c hc
  obtain hhead | hlast := List.mem_append.mp hc
  · obtain ⟨part, hpart, hmem⟩ := List.mem_flatMap.mp hhead
    obtain hchar | hhyphen := List.mem_append.mp hmem
    · obtain hletter | rfl := (u.front_chars part hpart).2 c hchar
      · exact hcapital c hletter
      · decide
    · rw [List.mem_singleton.mp hhyphen]
      decide
  · exact hcapital c (u.last_chars c hlast)

theorem written_append (u : Underlying) (hsymbols : ∀ c ∈ x, c ∈ symbols)
    (hlast : EndsIn (capitals ++ digits) (u.text ++ x)) : Written (u.text ++ x) where
  symbols := by
    rw [List.forall_mem_append]
    exact ⟨fun c hc => (u.text_chars c hc).1, hsymbols⟩
  first := by
    obtain ⟨c, rest, heq⟩ := List.exists_cons_of_ne_nil
      (List.append_ne_nil_of_right_ne_nil u.head u.last_ne)
    refine ⟨c, rest ++ x, ?_, (u.text_chars c ?_).2⟩
    · rw [text, heq, List.cons_append]
    · rw [text, heq]
      exact List.mem_cons_self
  last := hlast

theorem Plain.last_not_component (h : u.Plain) (hfront : u.front ≠ []) : ¬ Component u.last := by
  intro hcomponent
  obtain ⟨hinstrument, hmonth⟩ := h.component hfront
  obtain ⟨c, rest, heq⟩ := List.exists_cons_of_ne_nil u.last_ne
  obtain hword | hword := hcomponent.of_letters
    ⟨c, u.last_chars c (heq ▸ List.mem_cons_self), rest, heq⟩
    (endsIn_append (x := []) u.last_ne u.last_chars)
  · exact hinstrument hword
  · exact hmonth hword

/-- Tokens behind a plain symbol are dropped, and it stays. -/
theorem Plain.kept_tokens (h : u.Plain) {components : List (Char × Text)}
    (hcomponents : ∀ c ∈ components, isSeparator c.1 = true ∧ Component c.2) :
    (dropContract (tokens (u.text ++ components.flatMap fun c => c.1 :: c.2)).reverse).reverse =
      u.front ++ [u.last] := by
  have htokens : tokens (u.text ++ components.flatMap fun c => c.1 :: c.2) =
      u.front ++ [u.last] ++ components.map Prod.snd := by
    rw [tokens_flatMap hcomponents, text, tokens_head, tokens_last]
  have hall : ∀ t ∈ (components.map Prod.snd).reverse, Component t := by
    intro t ht
    obtain ⟨c, hc, rfl⟩ := List.mem_map.mp (List.mem_reverse.mp ht)
    exact (hcomponents c hc).2
  rw [htokens, List.reverse_append, dropContract_append hall (by simp), List.reverse_append,
    List.reverse_singleton, List.singleton_append, dropContract_cons, List.reverse_cons,
    List.reverse_reverse]
  intro hne
  exact h.last_not_component fun hnil => hne (by rw [hnil, List.reverse_nil])

/-- A last token with a digit in it that ends in a letter is no component of its own. -/
theorem kept_joined (u : Underlying) (hchars : ∀ c ∈ x, isSeparator c = false)
    (hdigit : ∃ d ∈ x, d ∈ digits) (hlast : EndsIn capitals (u.last ++ x)) :
    (dropContract (tokens (u.text ++ x)).reverse).reverse = u.front ++ [u.last ++ x] := by
  have hword : tokens (u.last ++ x) = [u.last ++ x] := by
    refine tokens_word (List.append_ne_nil_of_left_ne_nil u.last_ne x) ?_
    rw [List.forall_mem_append]
    exact ⟨fun c hc => isSeparator_of_char c (by simp [u.last_chars c hc]), hchars⟩
  have hnot : ¬ Component (u.last ++ x) := by
    intro hcomponent
    obtain ⟨d, hd, hdigit⟩ := hdigit
    obtain ⟨c, rest, heq⟩ := List.exists_cons_of_ne_nil u.last_ne
    have hletters : ∀ e ∈ u.last ++ x, e ∈ capitals := by
      obtain hword | hword := hcomponent.of_letters
        ⟨c, u.last_chars c (heq ▸ List.mem_cons_self), rest ++ x, by rw [heq, List.cons_append]⟩
        hlast
      · exact (instruments_capital _ hword).2
      · exact (months_capital _ hword).2
    exact capitals_not_digits d (hletters d (List.mem_append_right _ hd)) hdigit
  rw [text, List.append_assoc, tokens_head, hword, List.reverse_append, List.reverse_singleton,
    List.singleton_append, dropContract_cons fun _ => hnot, List.reverse_cons, List.reverse_reverse]

end Underlying

theorem symbol_not_separator : ∀ c ∈ capitals ++ digits ++ ['.'], isSeparator c = false :=
  forall_mem_of_all (by decide)

theorem symbol_of_char : ∀ c ∈ capitals ++ digits ++ ['.'], c ∈ symbols :=
  forall_mem_of_all (by decide)

theorem IsNumber.mem_chars (h : IsNumber number whole) :
    ∀ c ∈ number, c ∈ capitals ++ digits ++ ['.'] := by
  intro c hc
  obtain hdigit | rfl := h.chars c hc
  · simp [hdigit]
  · simp

theorem AllDigits.mem_chars (h : AllDigits x) : ∀ c ∈ x, c ∈ capitals ++ digits ++ ['.'] :=
  fun c hc => by simp [h c hc]

theorem mem_chars_of_capital (h : ∀ c ∈ x, c ∈ capitals) :
    ∀ c ∈ x, c ∈ capitals ++ digits ++ ['.'] :=
  fun c hc => by simp [h c hc]

theorem Component.endsIn {token : Text} (h : Component token) :
    EndsIn (capitals ++ digits) (x ++ token) := by
  have hdigits : digits ⊆ capitals ++ digits := List.subset_append_right _ _
  have hcapitals : capitals ⊆ capitals ++ digits := List.subset_append_left _ _
  cases h with
  | instrument h =>
    exact (endsIn_append (instruments_capital _ h).1 (instruments_capital _ h).2).mono hcapitals
  | number h hpos => exact (h.endsIn hpos).mono hdigits
  | @monthYear m year hm hyear hlength =>
    obtain rfl | hne := eq_or_ne year []
    · rw [List.append_nil]
      exact (endsIn_month hm).mono hcapitals
    · rw [← List.append_assoc]
      exact (endsIn_append hne hyear).mono hdigits
  | yearMonth hyear hlength hm =>
    rw [← List.append_assoc]
    exact (endsIn_month hm).mono hcapitals

namespace Underlying

variable {beyond : Char → Text} {text : String}

/-- Of a joined contract the function keeps one token, and peels it. -/
theorem strip_joined (u : Underlying) (hchars : ∀ c ∈ y, c ∈ capitals ++ digits ++ ['.'])
    (hdigit : ∃ d ∈ y, d ∈ digits) (hs : s ∈ instruments)
    (hpeel : peel 8 (u.text ++ y ++ s) = u.text)
    (hspelled : text.toList.map Char.toUpper = u.text ++ y ++ s) :
    stripContractSuffix beyond text = String.ofList u.text := by
  obtain ⟨hsne, hscapital⟩ := instruments_capital s hs
  have hall : ∀ c ∈ y ++ s, c ∈ capitals ++ digits ++ ['.'] := by
    rw [List.forall_mem_append]
    exact ⟨hchars, mem_chars_of_capital hscapital⟩
  have hends : ∀ z, EndsIn capitals (z ++ (y ++ s)) := by
    intro z
    rw [← List.append_assoc]
    exact endsIn_append hsne hscapital
  obtain ⟨d, hd, hdigit⟩ := hdigit
  rw [List.append_assoc] at hpeel hspelled
  have hwritten : Written (u.text ++ (y ++ s)) :=
    u.written_append (fun c hc => symbol_of_char c (hall c hc))
      ((hends u.text).mono (List.subset_append_left _ _))
  rw [stripContractSuffix_eq hwritten hspelled,
    u.kept_joined (fun c hc => symbol_not_separator c (hall c hc))
      ⟨d, List.mem_append_left _ hd, hdigit⟩ (hends u.last),
    u.intercalate_front, ← List.append_assoc]
  change String.ofList ((peel 8 (u.text ++ (y ++ s))).rdropWhile _) = _
  rw [hpeel, u.rdropWhile_text]

namespace Plain

theorem strip_tokens (h : u.Plain) {components : List (Char × Text)}
    (hcomponents : ∀ c ∈ components, (c.1 = ' ' ∨ c.1 = '_' ∨ c.1 = '-') ∧ Component c.2)
    (hspelled : text.toList.map Char.toUpper =
      u.text ++ components.flatMap fun c => c.1 :: c.2) :
    stripContractSuffix beyond text = String.ofList u.text := by
  have hseparator : ∀ c ∈ components, isSeparator c.1 = true ∧ Component c.2 := by
    intro c hc
    obtain ⟨hsep, hcomponent⟩ := hcomponents c hc
    refine ⟨?_, hcomponent⟩
    obtain heq | heq | heq := hsep <;> rw [heq] <;> decide
  have hsymbols : ∀ c ∈ components.flatMap fun c => c.1 :: c.2, c ∈ symbols := by
    intro c hc
    obtain ⟨component, hmem, hc⟩ := List.mem_flatMap.mp hc
    obtain ⟨hsep, hcomponent⟩ := hcomponents component hmem
    obtain rfl | hc := List.mem_cons.mp hc
    · obtain heq | heq | heq := hsep <;> rw [heq] <;> decide
    · refine symbol_of_char c ?_
      obtain hcapital | hdigit | hpoint := hcomponent.chars.2 c hc
      · simp [hcapital]
      · simp [hdigit]
      · simp [hpoint]
  have hlast : EndsIn (capitals ++ digits)
      (u.text ++ components.flatMap fun c => c.1 :: c.2) := by
    obtain rfl | ⟨front, last, rfl⟩ := List.eq_nil_or_concat' components
    · rw [List.flatMap_nil, List.append_nil]
      exact u.endsIn_text.mono (List.subset_append_left _ _)
    · have hcomponent := (hcomponents last (by simp)).2
      have hassoc : u.text ++ (front ++ [last]).flatMap (fun c => c.1 :: c.2) =
          (u.text ++ front.flatMap (fun c => c.1 :: c.2) ++ [last.1]) ++ last.2 := by
        simp
      rw [hassoc]
      exact hcomponent.endsIn
  rw [stripContractSuffix_eq (u.written_append hsymbols hlast) hspelled,
    h.kept_tokens hseparator, u.intercalate_front]
  change String.ofList ((peel 8 u.text).rdropWhile _) = _
  rw [peel_of_fixed h.peelOnce_text, u.rdropWhile_text]

theorem strip_future (h : u.Plain) {year : Text} (hyear : AllDigits year)
    (hlength : year.length = 2) (hm : m ∈ months)
    (hspelled : text.toList.map Char.toUpper = u.text ++ year ++ m ++ ['F', 'U', 'T']) :
    stripContractSuffix beyond text = String.ofList u.text := by
  have hfuture : ['F', 'U', 'T'] ∈ instruments := by decide
  have honce := peelOnce_future u.endsIn_text hyear hlength hm hfuture
  rw [List.append_assoc u.text] at hspelled honce
  refine u.strip_joined ?_ ?_ hfuture ?_ hspelled
  · rw [List.forall_mem_append]
    exact ⟨hyear.mem_chars, mem_chars_of_capital (months_capital m hm).2⟩
  · obtain ⟨d, hd⟩ := List.exists_mem_of_length_pos (l := year) (by omega)
    exact ⟨d, List.mem_append_left _ hd, hyear d hd⟩
  · rw [peel_succ 7 (by rw [honce, h.peelOnce_text]), honce]

theorem strip_option (h : u.Plain) {year : Text} (hyear : AllDigits year)
    (hlength : year.length = 2) (hm : m ∈ months) (hstrike : IsNumber number whole)
    (hwhole : 2 ≤ whole ∧ whole ≤ 8) (hs : s ∈ instruments)
    (hspelled : text.toList.map Char.toUpper = u.text ++ year ++ m ++ number ++ s) :
    stripContractSuffix beyond text = String.ofList u.text := by
  have honce : peelOnce (u.text ++ year ++ m ++ number ++ s) = u.text ++ year ++ m :=
    peelOnce_strike (endsIn_month hm) hstrike hwhole hs
  have htwice := peelOnce_expiry u.endsIn_text hyear hlength hm
  have hassoc : u.text ++ year ++ m ++ number = u.text ++ (year ++ m ++ number) := by
    simp
  have hpeel : peel 8 (u.text ++ year ++ m ++ number ++ s) = u.text := by
    rw [peel_succ_succ 6 honce (by rw [htwice, h.peelOnce_text]), htwice]
  rw [hassoc] at hspelled hpeel
  refine u.strip_joined ?_ ?_ hs hpeel hspelled
  · rw [List.forall_mem_append, List.forall_mem_append]
    exact ⟨⟨hyear.mem_chars, mem_chars_of_capital (months_capital m hm).2⟩, hstrike.mem_chars⟩
  · obtain ⟨d, hd⟩ := List.exists_mem_of_length_pos (l := year) (by omega)
    exact ⟨d, List.mem_append_left _ (List.mem_append_left _ hd), hyear d hd⟩

theorem strip_strike (h : u.Plain) (hstrike : IsNumber number whole)
    (hwhole : 2 ≤ whole ∧ whole ≤ 8) (hs : s ∈ instruments)
    (hspelled : text.toList.map Char.toUpper = u.text ++ number ++ s) :
    stripContractSuffix beyond text = String.ofList u.text := by
  have honce := peelOnce_strike u.endsIn_text hstrike hwhole hs
  refine u.strip_joined hstrike.mem_chars ?_ hs ?_ hspelled
  · obtain ⟨d, hd, hdigit⟩ := EndsIn.exists_mem
      (hstrike.endsIn (x := []) (by omega)) (hstrike.ne_nil (by omega))
    exact ⟨d, hd, hdigit⟩
  · rw [peel_succ 7 (by rw [honce, h.peelOnce_text]), honce]

theorem strip_renders (h : u.Plain) (hrenders : Renders u (text.toList.map Char.toUpper)) :
    stripContractSuffix beyond text = String.ofList u.text := by
  have hright : ∀ right : Text, right = ['C', 'E'] ∨ right = ['P', 'E'] →
      right ∈ instruments := by
    rintro right (rfl | rfl) <;> decide
  generalize hspelled : text.toList.map Char.toUpper = rendering at hrenders
  cases hrenders with
  | tokens components hcomponents => exact h.strip_tokens hcomponents hspelled
  | future hyear hlength hm => exact h.strip_future hyear hlength hm hspelled
  | option hyear hlength hm hstrike hwhole hr =>
    exact h.strip_option hyear hlength hm hstrike hwhole (hright _ hr) hspelled
  | strike hstrike hwhole hr => exact h.strip_strike hstrike hwhole (hright _ hr) hspelled

end Plain

theorem toUpper_text (u : Underlying) : u.text.map Char.toUpper = u.text := by
  have hupper : ∀ c ∈ symbols, c.toUpper = c := forall_mem_of_all (by decide)
  have hsame : u.text.map Char.toUpper = u.text.map id :=
    List.map_congr_left fun c hc => hupper c (u.text_chars c hc).1
  rw [hsame, List.map_id]

theorem renders_text (u : Underlying) : Renders u u.text := by
  have h := Renders.tokens (u := u) [] (by simp)
  rwa [List.flatMap_nil, List.append_nil] at h

/-- Dropping the last part makes the symbol shorter. -/
theorem length_intercalate_lt (u : Underlying) {kept : List Text} (h : kept <+: u.front) :
    (['-'].intercalate kept).length < u.text.length := by
  have hlast : 0 < u.last.length := List.length_pos_iff.mpr u.last_ne
  have hkept : (['-'].intercalate kept).length ≤
      (kept.flatMap fun part => part ++ ['-']).length := by
    clear h
    induction kept with
    | nil => simp
    | cons part rest ih =>
      cases rest with
      | nil => simp
      | cons next rest =>
        rw [List.intercalate_cons_cons, List.flatMap_cons]
        simp only [List.length_append] at ih ⊢
        omega
  obtain ⟨more, hfront⟩ := h
  have hhead : (kept.flatMap fun part => part ++ ['-']).length ≤ u.head.length := by
    rw [head, ← hfront, List.flatMap_append, List.length_append]
    exact Nat.le_add_right _ _
  rw [text, List.length_append]
  omega

end Underlying

theorem peelOnce_initial (value : Text) : peelOnce value <+: value :=
  ((Tail.cut_initial _ _).trans (Tail.cut_initial _ _)).trans (Tail.cut_initial _ _)

theorem peel_initial (n : ℕ) (value : Text) : peel n value <+: value := by
  induction n generalizing value with
  | zero => exact List.prefix_refl _
  | succ n ih =>
    rw [peel]
    split
    · exact List.prefix_refl _
    · exact (ih _).trans (peelOnce_initial value)

/-- What is left as it was had nothing to cut. -/
theorem peelOnce_eq_self_of_peel {n : ℕ} (h : peel (n + 1) value = value) :
    peelOnce value = value := by
  rw [peel] at h
  split at h
  · assumption
  · have hprefix := peel_initial n (peelOnce value)
    rw [h] at hprefix
    exact (peelOnce_initial value).eq_of_length_le hprefix.length_le

theorem cuts_eq_self_of_peelOnce (h : peelOnce value = value) :
    instrumentTail.cut value = value ∧ monthTail.cut value = value := by
  rw [peelOnce_eq] at h
  have hmonth := Tail.cut_initial numberTail (monthTail.cut (instrumentTail.cut value))
  rw [h] at hmonth
  have hinstrument : instrumentTail.cut value = value :=
    (Tail.cut_initial _ _).eq_of_length_le
      (hmonth.trans (Tail.cut_initial _ _)).length_le
  rw [hinstrument] at hmonth
  exact ⟨hinstrument, (Tail.cut_initial _ _).eq_of_length_le hmonth.length_le⟩

namespace Underlying

variable {beyond : Char → Text}

theorem plain_of_strip
    (h : stripContractSuffix beyond (String.ofList u.text) = String.ofList u.text) : u.Plain := by
  have hwritten : Written (u.text ++ []) :=
    u.written_append (by simp) (by
      rw [List.append_nil]
      exact u.endsIn_text.mono (List.subset_append_left _ _))
  rw [List.append_nil] at hwritten
  have hspelled : (String.ofList u.text).toList.map Char.toUpper = u.text := by
    rw [String.toList_ofList, u.toUpper_text]
  rw [stripContractSuffix_eq hwritten hspelled, String.ofList_inj, text, tokens_head, tokens_last,
    List.reverse_append, List.reverse_singleton, List.singleton_append] at h
  have hlength : u.text.length ≤
      (['-'].intercalate (dropContract (u.last :: u.front.reverse)).reverse).length := by
    have hdropped := List.rdropWhile_prefix (fun c => c == '-' || isSpace c)
      (peel 8 (['-'].intercalate (dropContract (u.last :: u.front.reverse)).reverse))
    have hle := (hdropped.trans (peel_initial 8 _)).length_le
    rwa [h] at hle
  have hcomponent : u.front ≠ [] → ¬ Component u.last := by
    intro hne hcomponent
    have hfront : u.front.reverse ≠ [] := by simpa using hne
    have hone : ∀ t ∈ [u.last], Component t := by simpa using hcomponent
    have hdrop : dropContract (u.last :: u.front.reverse) = dropContract u.front.reverse :=
      dropContract_append hone hfront
    have hprefix : (dropContract u.front.reverse).reverse <+: u.front := by
      have hsuffix := List.reverse_prefix.mpr (dropContract_suffix u.front.reverse)
      rwa [List.reverse_reverse] at hsuffix
    rw [hdrop] at hlength
    exact absurd (u.length_intercalate_lt hprefix) (not_lt.mpr hlength)
  have hkept : ['-'].intercalate (dropContract (u.last :: u.front.reverse)).reverse = u.text := by
    rw [dropContract_cons fun hne => hcomponent (by simpa using hne), List.reverse_cons,
      List.reverse_reverse, u.intercalate_front, text]
  rw [hkept] at h
  have hpeel : peel 8 u.text = u.text := by
    refine (peel_initial 8 u.text).eq_of_length_le ?_
    have hdropped := List.rdropWhile_prefix (fun c => c == '-' || isSpace c) (peel 8 u.text)
    have hle := hdropped.length_le
    rwa [h] at hle
  obtain ⟨hinstrument, hmonth⟩ := cuts_eq_self_of_peelOnce (peelOnce_eq_self_of_peel hpeel)
  refine ⟨fun hne => ⟨fun hin => hcomponent hne (.instrument hin), fun hin => ?_⟩, ?_, ?_⟩
  · have hword : Component (u.last ++ []) := .monthYear hin (by simp [AllDigits]) (by simp)
    rw [List.append_nil] at hword
    exact hcomponent hne hword
  · intro z m hm hlast
    by_contra hne
    obtain ⟨x, y, hxy, hfits⟩ := fits_month_iff.mpr ⟨z, m, hm, hlast, hne⟩
    rw [← hxy] at hmonth
    refine Tail.cut_ne_self hfits ?_ hmonth
    rw [monthTail, Strikedge.DhanInstruments.month, mem_anyWord]
    decide
  · intro z m hm s hs hlast
    obtain ⟨x, y, hxy, hfits⟩ := fits_instrument_iff.mpr ⟨z, m, hm, s, hs, hlast⟩
    rw [← hxy] at hinstrument
    refine Tail.cut_ne_self hfits ?_ hinstrument
    rw [instrumentTail, mem_anyWord]
    decide

end Underlying

/-- The function leaves the plain symbols alone and no others, and recovers a plain symbol from
each of its contracts, in whatever case they are written. -/
theorem stripContractSuffix_recovers (beyond : Char → Text) (u : Underlying) :
    (stripContractSuffix beyond (String.ofList u.text) = String.ofList u.text ↔ u.Plain) ∧
      ∀ text : String, u.Plain → Renders u (text.toList.map Char.toUpper) →
        stripContractSuffix beyond text = String.ofList u.text := by
  refine ⟨⟨Underlying.plain_of_strip, fun h => h.strip_renders ?_⟩,
    fun text h hrenders => h.strip_renders hrenders⟩
  rw [String.toList_ofList, u.toUpper_text]
  exact u.renders_text

namespace Sample

def bajajAuto : Underlying where
  front := [['B', 'A', 'J', 'A', 'J']]
  last := ['A', 'U', 'T', 'O']
  front_chars := by
    have hpart : ∀ c ∈ ['B', 'A', 'J', 'A', 'J'], c ∈ capitals ∨ c = '&' :=
      forall_mem_of_all (by decide)
    simpa using hpart
  last_ne := by decide
  last_chars := forall_mem_of_all (by decide)

theorem bajajAuto_plain : bajajAuto.Plain where
  component _ := by decide
  month x m hm h := by
    have hnone : ∀ m ∈ months, ¬ m <:+ bajajAuto.last := by decide
    exact absurd ⟨x, h.symm⟩ (hnone m hm)
  instrument x m _ s hs h := by
    have hnone : ∀ s ∈ instruments, ¬ s <:+ bajajAuto.last := by decide
    exact absurd ⟨x ++ m, h.symm⟩ (hnone s hs)

def xdec : Underlying where
  front := []
  last := ['X', 'D', 'E', 'C']
  front_chars := by simp
  last_ne := by decide
  last_chars := forall_mem_of_all (by decide)

end Sample

theorem bajajAuto_recovered :
    stripContractSuffix (fun c => [c]) "BAJAJ-AUTO Sep2026-2500_PE" = "BAJAJ-AUTO" := by
  have hrecovers := (stripContractSuffix_recovers (fun c => [c]) Sample.bajajAuto).2
    "BAJAJ-AUTO Sep2026-2500_PE" Sample.bajajAuto_plain
  refine hrecovers ?_
  have hcomponents : ∀ c ∈ [(' ', ['S', 'E', 'P', '2', '0', '2', '6']),
      ('-', ['2', '5', '0', '0']), ('_', ['P', 'E'])],
      (c.1 = ' ' ∨ c.1 = '_' ∨ c.1 = '-') ∧ Component c.2 := by
    have hmonth : Component (['S', 'E', 'P'] ++ ['2', '0', '2', '6']) :=
      .monthYear (by decide) (forall_mem_of_all (by decide)) (by decide)
    have hnumber : IsNumber ['2', '5', '0', '0'] 4 :=
      ⟨['2', '5', '0', '0'], [], rfl, rfl, forall_mem_of_all (by decide), .inl rfl⟩
    have hstrike : Component ['2', '5', '0', '0'] := .number hnumber (by decide)
    have hright : Component ['P', 'E'] := .instrument (by decide)
    simpa using ⟨hmonth, hstrike, hright⟩
  exact Renders.tokens _ hcomponents

/-- A symbol that ends like an expiry loses its end, and a strike of one digit stays. -/
theorem stripContractSuffix_ambiguous :
    (¬ ∀ u : Underlying,
      stripContractSuffix (fun c => [c]) (String.ofList u.text) = String.ofList u.text) ∧
    stripContractSuffix (fun c => [c]) "IDEA26SEP7CE" = "IDEA26SEP7" := by
  have hstripped : stripContractSuffix (fun c => [c]) (String.ofList Sample.xdec.text) = "X" := by
    decide +kernel
  refine ⟨fun h => ?_, by decide +kernel⟩
  rw [h Sample.xdec] at hstripped
  exact absurd hstripped (by decide)

end Strikedge.DhanInstruments
