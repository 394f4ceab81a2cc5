import Strikedge.EconomicAdmission.SendBoundary

/-!
# What a plan fingerprint identifies

Where no symbol holds a separator, the fields of a leg can be cut out of its fingerprint again
and the legs out of the fingerprint of a plan, so that it names the legs of a plan up to their
order, and the test of the send boundary finds exactly the legs of the plan.
-/

namespace Strikedge.EconomicAdmission

open Machine Orders

/-- The fields a margin figure depends on. -/
structure PlanLeg where
  role : BoxLegRole
  exchange : String
  tradingsymbol : String
  token : Nat
  side : OrderSide
  quantity : Nat
  limitPrice : Int
  deriving DecidableEq, Repr

def planLeg (r : BrokerOrderRequest) : PlanLeg :=
  { role := r.role
    exchange := r.exchange
    tradingsymbol := r.tradingsymbol
    token := r.token
    side := r.side
    quantity := r.quantity
    limitPrice := r.pricing.limitPrice }

/-- Neither symbol of the request holds a separator. -/
structure Separable (r : BrokerOrderRequest) : Prop where
  exchange : ':' ∉ r.exchange.toList ∧ '|' ∉ r.exchange.toList
  tradingsymbol : ':' ∉ r.tradingsymbol.toList ∧ '|' ∉ r.tradingsymbol.toList

section Numbers

variable {m n : Nat} {p q : Int}

theorem toString_nat_injective (h : toString m = toString n) : m = n := by
  have hdigits := congrArg String.toList h
  rw [Nat.toString_eq_repr, Nat.toString_eq_repr, Nat.toList_repr, Nat.toList_repr] at hdigits
  have hread := congrArg (fun digits => Nat.ofDigitChars 10 digits 0) hdigits
  simpa using hread

theorem isDigit_of_mem_toString {c : Char} (h : c ∈ (toString n).toList) : c.isDigit = true := by
  rw [Nat.toString_eq_repr, Nat.toList_repr] at h
  exact Nat.isDigit_of_mem_toDigits (by decide) (by decide) h

theorem not_mem_toString {c : Char} (hc : c.isDigit = false) : c ∉ (toString n).toList := by
  intro h
  rw [isDigit_of_mem_toString h] at hc
  exact absurd hc (by decide)

/-- The two digits behind the point. -/
def fraction (n : Nat) : String :=
  if (toString n).length = 1 then "0" ++ toString n else toString n

/-- A zero in front changes nothing. -/
theorem ofDigitChars_fraction (n : Nat) : Nat.ofDigitChars 10 (fraction n).toList 0 = n := by
  have hread : Nat.ofDigitChars 10 (toString n).toList 0 = n := by
    rw [Nat.toString_eq_repr, Nat.toList_repr, Nat.ofDigitChars_ten_toDigits]
  rw [fraction]
  split
  · rw [String.toList_append]
    exact hread
  · exact hread

theorem isDigit_of_mem_fraction {c : Char} (h : c ∈ (fraction n).toList) : c.isDigit = true := by
  rw [fraction] at h
  split at h
  · rw [String.toList_append, List.mem_append] at h
    obtain hzero | hdigit := h
    · obtain rfl : c = '0' := by simpa using hzero
      rfl
    · exact isDigit_of_mem_toString hdigit
  · exact isDigit_of_mem_toString h

theorem not_mem_fraction {c : Char} (hc : c.isDigit = false) : c ∉ (fraction n).toList := by
  intro h
  rw [isDigit_of_mem_fraction h] at hc
  exact absurd hc (by decide)

theorem fraction_injective (h : fraction m = fraction n) : m = n := by
  have hread := ofDigitChars_fraction m
  rwa [h, ofDigitChars_fraction n, eq_comm] at hread

/-- A price is its sign, its rupees, the point and its two paise digits. -/
theorem toList_toFixed (p : Int) : (toFixed p).toList =
    (if p < 0 then ['-'] else []) ++
      ((toString (p.natAbs / 100)).toList ++ '.' :: (fraction (p.natAbs % 100)).toList) := by
  rw [toFixed, ← fraction]
  split <;> simp

theorem minus_mem_toFixed_iff : '-' ∈ (toFixed p).toList ↔ p < 0 := by
  rw [toList_toFixed]
  constructor
  · intro h
    by_contra hpos
    rw [if_neg hpos, List.nil_append, List.mem_append, List.mem_cons] at h
    obtain h | h | h := h
    · exact not_mem_toString (by decide) h
    · exact absurd h (by decide)
    · exact not_mem_fraction (by decide) h
  · intro hneg
    rw [if_pos hneg]
    exact List.mem_cons_self ..

theorem toFixed_injective (h : toFixed p = toFixed q) : p = q := by
  have hsign : p < 0 ↔ q < 0 := by
    rw [← minus_mem_toFixed_iff, h, minus_mem_toFixed_iff]
  have hchars := congrArg String.toList h
  rw [toList_toFixed, toList_toFixed, if_congr hsign rfl rfl] at hchars
  have hparts := (List.append_cons_inj_of_notMem (not_mem_toString (by decide))
    (not_mem_fraction (by decide))).mp (List.append_cancel_left hchars)
  have hrupees : p.natAbs / 100 = q.natAbs / 100 :=
    toString_nat_injective (String.toList_inj.mp hparts.1)
  have hpaise : p.natAbs % 100 = q.natAbs % 100 :=
    fraction_injective (String.toList_inj.mp hparts.2.2)
  have habs : p.natAbs = q.natAbs := by
    rw [← Nat.div_add_mod p.natAbs 100, hrupees, hpaise, Nat.div_add_mod]
  omega

theorem not_mem_toFixed {c : Char} (hc : c.isDigit = false) (hpoint : c ≠ '.')
    (hminus : c ≠ '-') : c ∉ (toFixed p).toList := by
  have hsign : c ∉ (if p < 0 then ['-'] else []) := by
    split
    · simpa using hminus
    · exact List.not_mem_nil
  rw [toList_toFixed, List.mem_append, List.mem_append, List.mem_cons]
  rintro (h | h | h | h)
  · exact hsign h
  · exact not_mem_toString hc h
  · exact hpoint h
  · exact not_mem_fraction hc h

end Numbers

section Leg

variable {r s : BrokerOrderRequest}

theorem not_mem_intercalate {c sep : Char} {texts : List (List Char)} (hsep : c ≠ sep)
    (htexts : ∀ text ∈ texts, c ∉ text) : c ∉ [sep].intercalate texts := by
  induction texts with
  | nil => exact List.not_mem_nil
  | cons text rest ih =>
    rw [List.forall_mem_cons] at htexts
    cases rest with
    | nil => simpa using htexts.1
    | cons next rest =>
      rw [List.intercalate_cons_cons, List.mem_append, List.mem_append, List.mem_singleton]
      rintro ((h | h) | h)
      · exact htexts.1 h
      · exact hsep h
      · exact ih htexts.2 h

/-- The fields of a fingerprint, as they are joined. -/
def fieldTexts (r : BrokerOrderRequest) : List String :=
  [r.role.text, r.exchange, r.tradingsymbol, toString r.token, r.side.text,
    toString r.quantity, toFixed r.pricing.limitPrice]

/-- No field of a separable request holds a separator. -/
theorem Separable.not_mem_fieldTexts (hr : Separable r) {c : Char} (hc : c = ':' ∨ c = '|') :
    ∀ text ∈ fieldTexts r, c ∉ text.toList := by
  have hrole : c ∉ r.role.text.toList := by
    obtain rfl | rfl := hc <;> cases r.role <;> decide
  have hside : c ∉ r.side.text.toList := by
    obtain rfl | rfl := hc <;> cases r.side <;> decide
  have hexchange : c ∉ r.exchange.toList := by
    obtain rfl | rfl := hc
    · exact hr.exchange.1
    · exact hr.exchange.2
  have hsymbol : c ∉ r.tradingsymbol.toList := by
    obtain rfl | rfl := hc
    · exact hr.tradingsymbol.1
    · exact hr.tradingsymbol.2
  have hdigit : c.isDigit = false := by
    obtain rfl | rfl := hc <;> decide
  have hprice : c ∉ (toFixed r.pricing.limitPrice).toList := by
    apply not_mem_toFixed hdigit
    · obtain rfl | rfl := hc <;> decide
    · obtain rfl | rfl := hc <;> decide
  intro text htext
  simp only [fieldTexts, List.mem_cons, List.not_mem_nil, or_false] at htext
  obtain rfl | rfl | rfl | rfl | rfl | rfl | rfl := htext
  · exact hrole
  · exact hexchange
  · exact hsymbol
  · exact not_mem_toString hdigit
  · exact hside
  · exact not_mem_toString hdigit
  · exact hprice

/-- Cutting the fingerprint at its colons gives the fields back. -/
theorem Separable.splitOn_legFingerprint (hr : Separable r) :
    (legFingerprint r).toList.splitOn ':' = (fieldTexts r).map String.toList := by
  rw [legFingerprint, String.toList_intercalate]
  apply List.splitOn_intercalate
  · intro chars hchars
    obtain ⟨text, htext, rfl⟩ := List.mem_map.mp hchars
    exact hr.not_mem_fieldTexts (.inl rfl) text htext
  · simp

theorem text_role_injective : Function.Injective BoxLegRole.text := by
  intro a b h
  cases a <;> cases b <;> first | rfl | exact absurd h (by decide)

theorem text_side_injective : Function.Injective OrderSide.text := by
  intro a b h
  cases a <;> cases b <;> first | rfl | exact absurd h (by decide)

theorem fieldTexts_eq_iff : fieldTexts r = fieldTexts s ↔ planLeg r = planLeg s := by
  constructor
  · intro h
    simp only [fieldTexts, List.cons.injEq, and_true] at h
    obtain ⟨hrole, hexchange, hsymbol, htoken, hside, hquantity, hprice⟩ := h
    rw [planLeg, planLeg, text_role_injective hrole, hexchange, hsymbol,
      toString_nat_injective htoken, text_side_injective hside,
      toString_nat_injective hquantity, toFixed_injective hprice]
  · intro h
    simp only [planLeg, PlanLeg.mk.injEq] at h
    obtain ⟨hrole, hexchange, hsymbol, htoken, hside, hquantity, hprice⟩ := h
    rw [fieldTexts, fieldTexts, hrole, hexchange, hsymbol, htoken, hside, hquantity, hprice]

theorem legFingerprint_eq_of_planLeg_eq (h : planLeg r = planLeg s) :
    legFingerprint r = legFingerprint s := by
  have hfields := fieldTexts_eq_iff.mpr h
  rw [legFingerprint, ← fieldTexts, hfields, fieldTexts, ← legFingerprint]

theorem Separable.legFingerprint_eq_iff (hr : Separable r) (hs : Separable s) :
    legFingerprint r = legFingerprint s ↔ planLeg r = planLeg s := by
  constructor
  · intro h
    have hfields := hr.splitOn_legFingerprint
    rw [h, hs.splitOn_legFingerprint] at hfields
    apply fieldTexts_eq_iff.mp
    exact (List.map_inj_right fun _ _ => String.toList_inj.mp).mp hfields.symm
  · exact legFingerprint_eq_of_planLeg_eq

theorem Separable.bar_not_mem (hr : Separable r) : '|' ∉ (legFingerprint r).toList := by
  rw [legFingerprint, ← fieldTexts, String.toList_intercalate]
  apply not_mem_intercalate
  · decide
  · intro chars hchars
    obtain ⟨text, htext, rfl⟩ := List.mem_map.mp hchars
    exact hr.not_mem_fieldTexts (.inr rfl) text htext

end Leg

section Sorting

variable {texts others : List String}

theorem toNat_injective {c d : Char} (h : c.toNat = d.toNat) : c = d :=
  Char.ext (UInt32.toNat_inj.mp h)

/-- No character is a surrogate, so a leading surrogate tells a pair from a single unit. -/
theorem unitsOf_append_inj {c d : Char} {front back : List Nat}
    (h : unitsOf c ++ front = unitsOf d ++ back) : c = d ∧ front = back := by
  have hc : c.toNat < 0xd800 ∨ 0xdfff < c.toNat ∧ c.toNat < 0x110000 := c.valid
  have hd : d.toNat < 0xd800 ∨ 0xdfff < d.toNat ∧ d.toNat < 0x110000 := d.valid
  simp only [unitsOf] at h
  split at h
  · split at h
    · obtain ⟨hhead, hrest⟩ := List.cons.inj h
      exact ⟨toNat_injective hhead, hrest⟩
    · obtain ⟨hhead, -⟩ := List.cons.inj h
      omega
  · split at h
    · obtain ⟨hhead, -⟩ := List.cons.inj h
      omega
    · obtain ⟨hhigh, htail⟩ := List.cons.inj h
      obtain ⟨hlow, hrest⟩ := List.cons.inj htail
      refine ⟨toNat_injective ?_, hrest⟩
      omega

theorem codeUnits_injective : Function.Injective codeUnits := by
  intro a b h
  have hchars : ∀ cs ds : List Char, cs.flatMap unitsOf = ds.flatMap unitsOf → cs = ds := by
    intro cs
    induction cs with
    | nil =>
      intro ds hunits
      cases ds with
      | nil => rfl
      | cons d ds =>
        rw [List.flatMap_nil, List.flatMap_cons, unitsOf] at hunits
        split at hunits <;> simp at hunits
    | cons c cs ih =>
      intro ds hunits
      cases ds with
      | nil =>
        rw [List.flatMap_nil, List.flatMap_cons, unitsOf] at hunits
        split at hunits <;> simp at hunits
      | cons d ds =>
        obtain ⟨hhead, hrest⟩ := unitsOf_append_inj hunits
        rw [hhead, ih ds hrest]
  exact String.toList_inj.mp (hchars a.toList b.toList h)

/-- The order of texts is one, so sorted lists of the same texts are equal. -/
theorem sortTexts_eq_iff_perm : sortTexts texts = sortTexts others ↔ texts.Perm others := by
  constructor
  · intro h
    have hsorted := List.perm_insertionSort (fun a b => codeUnits a ≤ codeUnits b) texts
    rw [← sortTexts, h] at hsorted
    exact hsorted.symm.trans (List.perm_insertionSort _ others)
  · intro h
    have total : Std.Total fun a b : String => codeUnits a ≤ codeUnits b :=
      ⟨fun a b => le_total (codeUnits a) (codeUnits b)⟩
    have trans : IsTrans String fun a b => codeUnits a ≤ codeUnits b :=
      ⟨fun _ _ _ => le_trans⟩
    have antisymm : Std.Antisymm fun a b : String => codeUnits a ≤ codeUnits b :=
      ⟨fun _ _ hab hba => codeUnits_injective (le_antisymm hab hba)⟩
    have hsame : (sortTexts texts).Perm (sortTexts others) :=
      (List.perm_insertionSort _ texts).trans (h.trans (List.perm_insertionSort _ others).symm)
    exact hsame.eq_of_pairwise' (List.pairwise_insertionSort _ texts)
      (List.pairwise_insertionSort _ others)

end Sorting

section Plan

variable {requests others : List BrokerOrderRequest} {request : BrokerOrderRequest}

/-- Cutting the fingerprint of a plan at its bars gives those of its legs back. -/
theorem split_orderPlanFingerprint (hne : requests ≠ []) (hsep : ∀ r ∈ requests, Separable r) :
    split (orderPlanFingerprint requests) = sortTexts (requests.map legFingerprint) := by
  have hsorted : sortTexts (requests.map legFingerprint) ≠ [] := by
    obtain ⟨r, hr⟩ := List.exists_mem_of_ne_nil _ hne
    exact List.ne_nil_of_mem (mem_sortTexts.mpr (List.mem_map_of_mem hr))
  rw [split, orderPlanFingerprint, String.toList_intercalate]
  have hbars : ∀ chars ∈ (sortTexts (requests.map legFingerprint)).map String.toList,
      '|' ∉ chars := by
    intro chars hchars
    obtain ⟨text, htext, rfl⟩ := List.mem_map.mp hchars
    obtain ⟨r, hr, rfl⟩ := List.mem_map.mp (mem_sortTexts.mp htext)
    exact (hsep r hr).bar_not_mem
  have hcut := List.splitOn_intercalate '|' hbars (by simpa using hsorted)
  refine (congrArg (List.map String.ofList) hcut).trans ?_
  simp

theorem mem_split_orderPlanFingerprint {text : String} (htext : text ≠ "")
    (hsep : ∀ r ∈ requests, Separable r) :
    text ∈ split (orderPlanFingerprint requests) ↔ ∃ r ∈ requests, legFingerprint r = text := by
  by_cases hempty : requests = []
  · have hpieces : split (orderPlanFingerprint []) = [""] := by
      decide
    rw [hempty, hpieces]
    simp [htext]
  · rw [split_orderPlanFingerprint hempty hsep, mem_sortTexts, List.mem_map]

/-- The fingerprints of two plans agree exactly when those of their legs do, in whatever
order. -/
theorem orderPlanFingerprint_eq_iff (hsep : ∀ r ∈ requests, Separable r)
    (hothers : ∀ r ∈ others, Separable r) :
    orderPlanFingerprint requests = orderPlanFingerprint others ↔
      (requests.map legFingerprint).Perm (others.map legFingerprint) := by
  constructor
  · intro h
    have hempty : requests = [] ↔ others = [] := by
      have hpieces (plan : List BrokerOrderRequest) (hplan : ∀ r ∈ plan, Separable r) :
          plan = [] ↔ ∀ text ≠ "", text ∉ split (orderPlanFingerprint plan) := by
        constructor
        · rintro rfl text htext
          simp [mem_split_orderPlanFingerprint htext hplan]
        · intro hnone
          by_contra hne
          obtain ⟨r, hr⟩ := List.exists_mem_of_ne_nil _ hne
          exact hnone _ legFingerprint_ne_empty
            ((mem_split_orderPlanFingerprint legFingerprint_ne_empty hplan).mpr ⟨r, hr, rfl⟩)
      rw [hpieces requests hsep, h, ← hpieces others hothers]
    by_cases hnone : requests = []
    · rw [hnone, hempty.mp hnone]
    · have hsorted := split_orderPlanFingerprint hnone hsep
      rw [h, split_orderPlanFingerprint (mt hempty.mpr hnone) hothers] at hsorted
      exact sortTexts_eq_iff_perm.mp hsorted.symm
  · intro h
    rw [orderPlanFingerprint, orderPlanFingerprint, sortTexts_eq_iff_perm.mpr h]

/-- Lists that agree up to order under one reading agree under any coarser one. -/
theorem perm_map_of_perm_map {α β γ : Type} {f : α → β} {g : α → γ} {l m : List α}
    (hfg : ∀ a ∈ l, ∀ b ∈ m, f a = f b → g a = g b) (h : (l.map f).Perm (m.map f)) :
    (l.map g).Perm (m.map g) := by
  induction l generalizing m with
  | nil =>
    rw [List.map_nil, List.nil_perm, List.map_eq_nil_iff] at h
    rw [h]
  | cons a l ih =>
    obtain ⟨b, hb, hab⟩ := List.mem_map.mp (h.subset (List.mem_cons_self ..))
    obtain ⟨front, back, rfl⟩ := List.append_of_mem hb
    have hsplit : (front ++ b :: back).Perm (b :: (front ++ back)) := List.perm_middle
    have hrest : (l.map f).Perm ((front ++ back).map f) := by
      have hcons := h.trans (hsplit.map f)
      rw [List.map_cons, List.map_cons, hab] at hcons
      exact hcons.cons_inv
    have hg : g a = g b := hfg a (List.mem_cons_self ..) b hb hab.symm
    have hih : (l.map g).Perm ((front ++ back).map g) := by
      apply ih _ hrest
      intro c hc d hd
      exact hfg c (List.mem_cons_of_mem _ hc) d (hsplit.symm.subset (List.mem_cons_of_mem _ hd))
    rw [List.map_cons, hg]
    exact (hih.cons (g b)).trans (hsplit.map g).symm

/-- A fingerprint names the legs of a plan, and the boundary's test finds exactly these. -/
theorem planFingerprint_identifies (requests others : List BrokerOrderRequest)
    (request : BrokerOrderRequest) (hsep : ∀ r ∈ requests, Separable r)
    (hothers : ∀ r ∈ others, Separable r) (hrequest : Separable request) :
    (orderPlanFingerprint requests = orderPlanFingerprint others ↔
      (requests.map planLeg).Perm (others.map planLeg)) ∧
    (orderPlanFingerprint [request] ∈ split (orderPlanFingerprint requests) ↔
      ∃ r ∈ requests, planLeg r = planLeg request) ∧
    ∀ (evidence : EconomicEvidence) (mono : Number) (current : Option EvidenceIdentity),
      evidence.requests = requests →
      (economicSendBoundary (some evidence) request mono current = none →
        ∃ r ∈ requests, planLeg r = planLeg request) ∧
      ((∃ leg, economicSendBoundary (some evidence) request mono current =
          some (.planChanged leg)) →
        ∀ r ∈ requests, planLeg r ≠ planLeg request) := by
  have htest : orderPlanFingerprint [request] ∈ split (orderPlanFingerprint requests) ↔
      ∃ r ∈ requests, planLeg r = planLeg request := by
    rw [orderPlanFingerprint_singleton,
      mem_split_orderPlanFingerprint legFingerprint_ne_empty hsep]
    constructor
    · rintro ⟨r, hr, hsame⟩
      exact ⟨r, hr, ((hsep r hr).legFingerprint_eq_iff hrequest).mp hsame⟩
    · rintro ⟨r, hr, hsame⟩
      exact ⟨r, hr, legFingerprint_eq_of_planLeg_eq hsame⟩
  refine ⟨?_, htest, ?_⟩
  · rw [orderPlanFingerprint_eq_iff hsep hothers]
    constructor
    · intro h
      apply perm_map_of_perm_map _ h
      intro r hr s hs
      exact ((hsep r hr).legFingerprint_eq_iff (hothers s hs)).mp
    · intro h
      apply perm_map_of_perm_map _ h
      intro r _ s _
      exact legFingerprint_eq_of_planLeg_eq
  · rintro evidence mono current rfl
    rw [← evidence.plan_eq] at htest
    constructor
    · intro h
      have hpasses := boundary_none_iff.mp h
      rw [orderPlanFingerprint_singleton] at htest
      exact htest.mp hpasses.plan
    · rintro ⟨leg, h⟩ r hr hsame
      have hmem := htest.mpr ⟨r, hr, hsame⟩
      -- the other three refusals name no leg
      simp only [economicSendBoundary, if_pos hmem] at h
      split at h
      · cases h
      · split at h
        · cases h
        · split at h <;> cases h

theorem Sample.separable (role : BoxLegRole) (side : OrderSide) :
    Separable (Sample.request role side) := by
  cases role <;> cases side <;> exact ⟨by decide, by decide⟩

/-- Two legs sent the other way round. -/
theorem planFingerprint_of_two_legs :
    let call := Sample.request .k1Ce .buy
    let put := Sample.request .k1Pe .sell
    orderPlanFingerprint [call, put] = orderPlanFingerprint [put, call] ∧
      orderPlanFingerprint [put] ∈ split (orderPlanFingerprint [call, put]) := by
  intro call put
  have hcall : Separable call := Sample.separable .k1Ce .buy
  have hput : Separable put := Sample.separable .k1Pe .sell
  have hboth : ∀ r ∈ [call, put], Separable r := by
    simp [hcall, hput]
  have hswapped : ∀ r ∈ [put, call], Separable r := by
    simp [hcall, hput]
  obtain ⟨hplan, htest, -⟩ :=
    planFingerprint_identifies [call, put] [put, call] put hboth hswapped hput
  exact ⟨hplan.mpr (List.Perm.swap _ _ _), htest.mpr ⟨put, by simp, rfl⟩⟩

end Plan

end Strikedge.EconomicAdmission
