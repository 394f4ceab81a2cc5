import Strikedge.Machine.Numeral
import Strikedge.Orders.Types

/-!
# Dhan correlation ids

`dhanCorrelationId` hashes a client order id, 16-bit code units in UTF-16, into three 32-bit
lanes, writes them in base 36 one behind the other, and adds the code of the leg role the id
names. The result is never clipped. As the lanes are not padded, ids of different lanes can be
written alike, and it is said here exactly when.
-/

namespace Strikedge.BrokerAdapter

open Orders (BoxLegRole boxLegRoles)

/-- One `charCodeAt`. -/
abbrev CodeUnit := UInt16

/-- The code units of a text of the basic plane. -/
def codeUnits (text : List Char) : List CodeUnit := text.map fun ch => ch.toNat.toUInt16

/-- `DHAN_CORRELATION_MAX_LENGTH` -/
def dhanCorrelationMaxLength : ℕ := 30

/-- `ROLE_CODE_LENGTH` -/
def roleCodeLength : ℕ := 4

/-- The three hashes of `fnvDigest96`. -/
structure Lanes where
  h1 : BitVec 32
  h2 : BitVec 32
  h3 : BitVec 32
  deriving DecidableEq

namespace Lanes

def seed : Lanes := ⟨0x811c9dc5, 0x01000193, 0xcbf29ce4⟩

/-- One turn of the loop, at index `i`. -/
def mix (lanes : Lanes) (i : ℕ) (ch : CodeUnit) : Lanes :=
  let h3 := (lanes.h3 ^^^ (BitVec.ofNat 32 ch.toNat + BitVec.ofNat 32 i <<< 3)) * 0xc2b2ae35
  { h1 := (lanes.h1 ^^^ BitVec.ofNat 32 ch.toNat) * 0x01000193
    h2 := (lanes.h2 ^^^ BitVec.ofNat 32 (ch.toNat + i)) * 0x85ebca6b
    -- the third lane rotates by thirteen
    h3 := h3 <<< 13 ||| h3 >>> 19 }

def run (lanes : Lanes) (i : ℕ) : List CodeUnit → Lanes
  | [] => lanes
  | ch :: rest => (lanes.mix i ch).run (i + 1) rest

/-- The length is folded in behind the loop. -/
def foldLength (lanes : Lanes) (length : ℕ) : Lanes :=
  { lanes with
    h1 := lanes.h1 ^^^ BitVec.ofNat 32 length
    h3 := (lanes.h3 ^^^ BitVec.ofNat 32 length) * 0x27d4eb2f }

def toList (lanes : Lanes) : List ℕ := [lanes.h1.toNat, lanes.h2.toNat, lanes.h3.toNat]

theorem toList_injective : Function.Injective toList := by
  intro l m h
  obtain ⟨h1, h2, h3⟩ := l
  obtain ⟨k1, k2, k3⟩ := m
  simp only [toList, List.cons.injEq, and_true, BitVec.toNat_inj] at h
  obtain ⟨rfl, rfl, rfl⟩ := h
  rfl

theorem lt_of_mem_toList {lanes : Lanes} {n : ℕ} (hn : n ∈ lanes.toList) : n < 36 ^ 7 := by
  have hword : n < 2 ^ 32 := by
    simp only [toList, List.mem_cons, List.not_mem_nil, or_false] at hn
    obtain rfl | rfl | rfl := hn
    · exact lanes.h1.isLt
    · exact lanes.h2.isLt
    · exact lanes.h3.isLt
  omega

/-- How many base-36 digits each lane is written with. -/
def widths (lanes : Lanes) : List ℕ := Strikedge.widths 36 lanes.toList

/-- Seven base-36 digits hold any 32-bit lane. -/
theorem sum_widths_le (lanes : Lanes) : lanes.widths.sum ≤ 21 := by
  have hlane : ∀ n ∈ lanes.toList, (numeral 36 n).length ≤ 7 := by
    intro n hn
    exact length_numeral_le (by decide) (by decide) (lt_of_mem_toList hn)
  have h1 := hlane lanes.h1.toNat (by simp [toList])
  have h2 := hlane lanes.h2.toNat (by simp [toList])
  have h3 := hlane lanes.h3.toNat (by simp [toList])
  simp only [widths, Strikedge.widths, toList, List.map_cons, List.map_nil, List.sum_cons,
    List.sum_nil]
  omega

/-- Two triples that are two ways of cutting one row of base-36 digits: as wide in all, and
read as the same number. -/
def Recut (l m : Lanes) : Prop :=
  l.widths.sum = m.widths.sum ∧ jointReading 36 l.toList = jointReading 36 m.toList

end Lanes

/-- The lanes of a client order id. -/
def lanesOf (clientOrderId : List CodeUnit) : Lanes :=
  (Lanes.seed.run 0 clientOrderId).foldLength clientOrderId.length

/-- The digit `d` in `Number.prototype.toString(36)`. -/
def digit36 (d : ℕ) : Char := Char.ofNat (if d < 10 then 48 + d else 87 + d)

theorem digit36_isAlphanum : ∀ d < 36, (digit36 d).isAlphanum = true := by
  decide

theorem digit36_inj : ∀ d < 36, ∀ e < 36, digit36 d = digit36 e → d = e := by
  decide

theorem map_digit36_inj {l m : List ℕ} (hl : ∀ d ∈ l, d < 36) (hm : ∀ d ∈ m, d < 36)
    (h : l.map digit36 = m.map digit36) : l = m := by
  induction l generalizing m with
  | nil => exact (List.map_eq_nil_iff.mp h.symm).symm
  | cons d l ih =>
    cases m with
    | nil => simp at h
    | cons e m =>
      obtain ⟨hhead, htail⟩ := List.cons.inj h
      rw [List.forall_mem_cons] at hl hm
      rw [digit36_inj d hl.1 e hm.1 hhead, ih hl.2 hm.2 htail]

def toString36 (n : ℕ) : List Char := (numeral 36 n).map digit36

def fnvDigest96 (clientOrderId : List CodeUnit) : List Char :=
  let lanes := lanesOf clientOrderId
  toString36 lanes.h1.toNat ++ toString36 lanes.h2.toNat ++ toString36 lanes.h3.toNat

def sanitize (value : List Char) : List Char := value.filter Char.isAlphanum

/-- What `:(k1_ce|k2_ce|k2_pe|k1_pe):` matches for one role. -/
def roleMark (role : BoxLegRole) : List CodeUnit := codeUnits (':' :: role.text.toList ++ [':'])

/-- The leftmost match. -/
def roleMatch : List CodeUnit → Option BoxLegRole
  | [] => none
  | ch :: rest =>
    match boxLegRoles.find? fun role => (roleMark role).isPrefixOf (ch :: rest) with
    | some role => some role
    | none => roleMatch rest

/-- `replace("_", "")` takes the first underscore out. -/
def codeOf (role : BoxLegRole) : List Char := (role.text.toList.erase '_').map Char.toUpper

def roleCode (clientOrderId : List CodeUnit) : List Char :=
  match roleMatch clientOrderId with
  | some role => codeOf role
  | none => []

def dhanCorrelationId (clientOrderId : List CodeUnit) : List Char :=
  let digest := sanitize (fnvDigest96 clientOrderId)
  let code := roleCode clientOrderId
  let budget := dhanCorrelationMaxLength - (if code = [] then 0 else roleCodeLength)
  let head := ('B' :: digest).take budget
  (head ++ code).take dhanCorrelationMaxLength

def isValidDhanCorrelationId (value : List Char) : Bool :=
  0 < value.length && value.length ≤ dhanCorrelationMaxLength && value.all Char.isAlphanum

theorem roleMatch_spec (x : List CodeUnit) :
    match roleMatch x with
    | some role => roleMark role <:+: x
    | none => ∀ role, ¬ roleMark role <:+: x := by
  induction x with
  | nil =>
    intro role hinf
    have hnil := List.infix_nil.mp hinf
    cases role <;> simp [roleMark, codeUnits] at hnil
  | cons ch rest ih =>
    rw [roleMatch]
    cases hfind : boxLegRoles.find? fun role => (roleMark role).isPrefixOf (ch :: rest) with
    | some role =>
      have hpre := List.find?_some hfind
      exact (List.isPrefixOf_iff_prefix.mp hpre).isInfix
    | none =>
      have hnone : ∀ role, ¬ roleMark role <+: ch :: rest := by
        intro role hpre
        have hall := List.find?_eq_none.mp hfind role (by cases role <;> decide)
        exact hall (List.isPrefixOf_iff_prefix.mpr hpre)
      cases hrest : roleMatch rest with
      | some role =>
        rw [hrest] at ih
        exact ih.trans (List.suffix_cons ch rest).isInfix
      | none =>
        rw [hrest] at ih
        intro role hinf
        obtain hpre | htail := List.infix_cons_iff.mp hinf
        · exact hnone role hpre
        · exact ih role htail

theorem codeOf_length (role : BoxLegRole) : (codeOf role).length = roleCodeLength := by
  cases role <;> decide

theorem codeOf_isAlphanum (role : BoxLegRole) : (codeOf role).all Char.isAlphanum = true := by
  cases role <;> decide

/-- The code is the one of a role the id names, and missing only where it names none. -/
theorem roleCode_names (x : List CodeUnit) :
    (∃ role, roleMark role <:+: x ∧ roleCode x = codeOf role) ∨
      (∀ role, ¬ roleMark role <:+: x) ∧ roleCode x = [] := by
  have hspec := roleMatch_spec x
  rw [roleCode]
  cases hmatch : roleMatch x with
  | some role =>
    rw [hmatch] at hspec
    exact .inl ⟨role, hspec, rfl⟩
  | none =>
    rw [hmatch] at hspec
    exact .inr ⟨hspec, rfl⟩

theorem fnvDigest96_eq (x : List CodeUnit) :
    fnvDigest96 x = (jointNumeral 36 (lanesOf x).toList).map digit36 := by
  simp [fnvDigest96, jointNumeral, Lanes.toList, toString36]

theorem fnvDigest96_isAlphanum (x : List CodeUnit) :
    ∀ ch ∈ fnvDigest96 x, ch.isAlphanum = true := by
  intro ch hch
  rw [fnvDigest96_eq] at hch
  obtain ⟨d, hd, rfl⟩ := List.mem_map.mp hch
  exact digit36_isAlphanum d (lt_of_mem_jointNumeral (by decide) hd)

theorem sanitize_fnvDigest96 (x : List CodeUnit) :
    sanitize (fnvDigest96 x) = fnvDigest96 x :=
  List.filter_eq_self.mpr (fnvDigest96_isAlphanum x)

theorem fnvDigest96_length_le (x : List CodeUnit) : (fnvDigest96 x).length ≤ 21 := by
  rw [fnvDigest96_eq, List.length_map, length_jointNumeral]
  exact (lanesOf x).sum_widths_le

theorem roleCode_length_le (x : List CodeUnit) :
    (roleCode x).length ≤ if roleCode x = [] then 0 else roleCodeLength := by
  obtain ⟨role, -, hcode⟩ | ⟨-, hcode⟩ := roleCode_names x
  · have hlen := codeOf_length role
    have hne : codeOf role ≠ [] := by
      intro hnil
      rw [hnil] at hlen
      exact absurd hlen (by decide)
    rw [hcode, if_neg hne, hlen]
  · simp [hcode]

/-- Neither cut of `dhanCorrelationId` takes anything away. -/
theorem dhanCorrelationId_eq (x : List CodeUnit) :
    dhanCorrelationId x = 'B' :: (fnvDigest96 x ++ roleCode x) := by
  have hdigest := fnvDigest96_length_le x
  have hcode := roleCode_length_le x
  have hroom : (if roleCode x = [] then 0 else roleCodeLength) ≤ 4 := by
    split <;> simp [roleCodeLength]
  rw [dhanCorrelationId, sanitize_fnvDigest96]
  simp only [dhanCorrelationMaxLength]
  rw [List.take_of_length_le (l := 'B' :: fnvDigest96 x), List.take_of_length_le]
  · rfl
  · rw [List.length_append, List.length_cons]
    omega
  · rw [List.length_cons]
    omega

/-- What Dhan and a reader of its order book are promised of an id. -/
structure KeepsDigest (x : List CodeUnit) : Prop where
  valid : isValidDhanCorrelationId (dhanCorrelationId x) = true
  whole : dhanCorrelationId x = 'B' :: ((lanesOf x).toList.flatMap toString36 ++ roleCode x)
  named : (∃ role, roleMark role <:+: x) → ∃ role, roleMark role <:+: x ∧ roleCode x = codeOf role
  unnamed : (∀ role, ¬ roleMark role <:+: x) → roleCode x = []

theorem isValid_dhanCorrelationId (x : List CodeUnit) :
    isValidDhanCorrelationId (dhanCorrelationId x) = true := by
  have hdigest := fnvDigest96_length_le x
  have hcode := roleCode_length_le x
  have hroom : (if roleCode x = [] then 0 else roleCodeLength) ≤ 4 := by
    split <;> simp [roleCodeLength]
  have hcodeAlnum : (roleCode x).all Char.isAlphanum = true := by
    obtain ⟨role, -, hcode⟩ | ⟨-, hcode⟩ := roleCode_names x
    · rw [hcode, codeOf_isAlphanum]
    · rw [hcode]
      rfl
  have hdigestAlnum : (fnvDigest96 x).all Char.isAlphanum = true :=
    List.all_eq_true.mpr (fnvDigest96_isAlphanum x)
  have hlen : (fnvDigest96 x ++ roleCode x).length + 1 ≤ dhanCorrelationMaxLength := by
    rw [List.length_append, dhanCorrelationMaxLength]
    omega
  rw [dhanCorrelationId_eq, isValidDhanCorrelationId]
  simp only [Bool.and_eq_true, decide_eq_true_eq, List.length_cons, List.all_cons,
    List.all_append]
  exact ⟨⟨Nat.succ_pos _, hlen⟩, by decide, hdigestAlnum, hcodeAlnum⟩

theorem keepsDigest (x : List CodeUnit) : KeepsDigest x := by
  have hnames := roleCode_names x
  refine ⟨isValid_dhanCorrelationId x, ?_, ?_, ?_⟩
  · rw [dhanCorrelationId_eq]
    simp [fnvDigest96, Lanes.toList]
  · rintro ⟨role, hrole⟩
    obtain hnamed | ⟨hnone, -⟩ := hnames
    · exact hnamed
    · exact absurd hrole (hnone role)
  · intro hnone
    obtain ⟨role, hrole, -⟩ | ⟨-, hcode⟩ := hnames
    · exact absurd hrole (hnone role)
    · exact hcode

/-- Ids of one role code are written alike exactly when their digit rows are one. -/
theorem dhanCorrelationId_eq_iff {x y : List CodeUnit} (hrole : roleCode x = roleCode y) :
    dhanCorrelationId x = dhanCorrelationId y ↔
      jointNumeral 36 (lanesOf x).toList = jointNumeral 36 (lanesOf y).toList := by
  rw [dhanCorrelationId_eq, dhanCorrelationId_eq, hrole, List.cons.injEq,
    List.append_left_inj, fnvDigest96_eq, fnvDigest96_eq]
  constructor
  · rintro ⟨-, h⟩
    -- the digits are below 36, where no two look alike
    apply map_digit36_inj _ _ h
    · intro d
      exact lt_of_mem_jointNumeral (by decide)
    · intro d
      exact lt_of_mem_jointNumeral (by decide)
  · intro h
    rw [h]
    exact ⟨rfl, rfl⟩

theorem dhanCorrelationId_keeps_lanes_iff (x y : List CodeUnit) :
    KeepsDigest x ∧ KeepsDigest y ∧
      ((roleCode x = roleCode y → dhanCorrelationId x = dhanCorrelationId y →
          lanesOf x = lanesOf y) ↔
        roleCode x ≠ roleCode y ∨ (lanesOf x).widths = (lanesOf y).widths ∨
          ¬ (lanesOf x).Recut (lanesOf y)) := by
  refine ⟨keepsDigest x, keepsDigest y, ?_⟩
  constructor
  · intro hkeeps
    by_cases hrole : roleCode x = roleCode y
    · by_cases hrecut : (lanesOf x).Recut (lanesOf y)
      · have hjoint := (jointNumeral_eq_iff (by decide) _ _).mpr hrecut
        have hlanes := hkeeps hrole ((dhanCorrelationId_eq_iff hrole).mpr hjoint)
        exact .inr (.inl (by rw [hlanes]))
      · exact .inr (.inr hrecut)
    · exact .inl hrole
  · intro hcond hrole hsame
    have hjoint := (dhanCorrelationId_eq_iff hrole).mp hsame
    obtain hother | hwidths | hrecut := hcond
    · exact absurd hrole hother
    · exact Lanes.toList_injective (eq_of_jointNumeral_eq hwidths hjoint)
    · exact absurd ((jointNumeral_eq_iff (by decide) _ _).mp hjoint) hrecut

/-- Two entry orders of different trades: the first lanes have six and seven digits, the
second ones seven and six, and both are written `B1uigaj1an0mwiju9gksK1CE`. -/
theorem dhanCorrelationId_lanes_lost :
    let x := codeUnits "BOX:a8e97e7a91c3776c88878680:ENTRY:k1_ce:attempt-1".toList
    let y := codeUnits "BOX:e753eca4878633a654d90a5d:ENTRY:k1_ce:attempt-1".toList
    roleCode x = roleCode y ∧ dhanCorrelationId x = dhanCorrelationId y ∧
      lanesOf x ≠ lanesOf y := by
  decide +kernel

end Strikedge.BrokerAdapter
