import Mathlib.Data.List.DropRight
import Strikedge.Machine.Number
import Strikedge.Machine.TailPattern

/-!
# The underlying of a contract symbol

`stripContractSuffix` drops the trailing tokens of a symbol that are contract components, and
then peels components that are joined to the symbol. A symbol of letters that itself ends like a
contract is peeled too: which symbols that are, and that every other one is recovered from each
of its contracts.
-/

namespace Strikedge.DhanInstruments

open Machine Pattern RegularExpression

abbrev Text := List Char

def digits : Text := ['0', '1', '2', '3', '4', '5', '6', '7', '8', '9']

def capitals : Text :=
  ['A', 'B', 'C', 'D', 'E', 'F', 'G', 'H', 'I', 'J', 'K', 'L', 'M', 'N', 'O', 'P', 'Q', 'R', 'S',
    'T', 'U', 'V', 'W', 'X', 'Y', 'Z']

def months : List Text :=
  [['J', 'A', 'N'], ['F', 'E', 'B'], ['M', 'A', 'R'], ['A', 'P', 'R'], ['M', 'A', 'Y'],
    ['J', 'U', 'N'], ['J', 'U', 'L'], ['A', 'U', 'G'], ['S', 'E', 'P'], ['O', 'C', 'T'],
    ['N', 'O', 'V'], ['D', 'E', 'C']]

def instruments : List Text := [['F', 'U', 'T'], ['C', 'E'], ['P', 'E']]

def digit : RegularExpression Char := oneOf digits

def month : RegularExpression Char := anyWord months

/-- `(?:\.\d+)?` -/
def fraction : RegularExpression Char := optional (char '.' * oneOrMore digit)

def contractToken : RegularExpression Char :=
  anyWord instruments + oneOrMore digit * fraction + month * repeated digit 0 4 +
    repeated digit 2 2 * month

def instrumentTail : Tail := ⟨digit + month, anyWord instruments⟩

def monthTail : Tail := ⟨oneOf (capitals ++ digits), month⟩

/-- A strike or an expiry of digits. -/
def numberTail : Tail := ⟨oneOf capitals, repeated digit 2 6 * fraction⟩

def inToken : List Tail := [instrumentTail, monthTail, numberTail]

/-- `[\s_\-]` -/
def isSeparator (c : Char) : Bool := isSpace c || c == '_' || c == '-'

def tokens (upper : Text) : List Text := (upper.splitOnP isSeparator).filter (· ≠ [])

/-- The tokens from the last on: contract components are dropped, but for the last token left. -/
def dropContract : List Text → List Text
  | token :: next :: rest =>
    if contractToken.rmatch token then dropContract (next :: rest) else token :: next :: rest
  | tokens => tokens

def peelOnce (value : Text) : Text := inToken.foldl (fun value re => re.cut value) value

def peel : ℕ → Text → Text
  | 0, value => value
  | passes + 1, value => if peelOnce value = value then value else peel passes (peelOnce value)

def stripContractSuffix (beyond : Char → Text) (tradingsymbol : String) : String :=
  let upper := toUpperCase beyond (trim tradingsymbol).toList
  let kept := (dropContract (tokens upper).reverse).reverse
  let value := peel 8 (['-'].intercalate kept)
  String.ofList (value.rdropWhile fun c => c == '-' || isSpace c)

/-- Upper-case letters, `&` and single inner hyphens, with letters only in the last part. -/
structure Underlying where
  front : List Text
  last : Text
  front_chars : ∀ part ∈ front, part ≠ [] ∧ ∀ c ∈ part, c ∈ capitals ∨ c = '&'
  last_ne : last ≠ []
  last_chars : ∀ c ∈ last, c ∈ capitals

namespace Underlying

/-- The parts before the last, each with its hyphen. -/
def head (u : Underlying) : Text := u.front.flatMap fun part => part ++ ['-']

def text (u : Underlying) : Text := u.head ++ u.last

/-- The last part is no contract component behind another part, ends in no month that something
of it comes before, and in no month with an instrument behind it. -/
structure Plain (u : Underlying) : Prop where
  component : u.front ≠ [] → u.last ∉ instruments ∧ u.last ∉ months
  month : ∀ x, ∀ m ∈ months, u.last = x ++ m → x = []
  instrument : ∀ x, ∀ m ∈ months, ∀ s ∈ instruments, u.last ≠ x ++ m ++ s

end Underlying

def AllDigits (text : Text) : Prop := ∀ c ∈ text, c ∈ digits

/-- So many digits and perhaps a fraction. -/
def IsNumber (text : Text) (whole : ℕ) : Prop :=
  ∃ int frac, text = int ++ frac ∧ int.length = whole ∧ AllDigits int ∧
    (frac = [] ∨ ∃ more, frac = '.' :: more ∧ more ≠ [] ∧ AllDigits more)

/-- A token of a contract: its instrument, a strike, a day or a year, a month with or without a
year behind it, or a year with its month. -/
inductive Component : Text → Prop
  | instrument {text : Text} (h : text ∈ instruments) : Component text
  | number {text : Text} {whole : ℕ} (h : IsNumber text whole) (hpos : 0 < whole) : Component text
  | monthYear {m year : Text} (hm : m ∈ months) (hyear : AllDigits year)
      (hlength : year.length ≤ 4) : Component (m ++ year)
  | yearMonth {year m : Text} (hyear : AllDigits year)
      (hlength : 2 ≤ year.length ∧ year.length ≤ 4) (hm : m ∈ months) : Component (year ++ m)

/-- The ways a contract of the underlying is written: the components as tokens, each behind a
space, an underscore or a hyphen, or joined to the symbol and to each other. -/
inductive Renders (u : Underlying) : Text → Prop
  | tokens (components : List (Char × Text))
      (h : ∀ c ∈ components, (c.1 = ' ' ∨ c.1 = '_' ∨ c.1 = '-') ∧ Component c.2) :
      Renders u (u.text ++ components.flatMap fun c => c.1 :: c.2)
  | future {year m : Text} (hyear : AllDigits year) (hlength : year.length = 2) (hm : m ∈ months) :
      Renders u (u.text ++ year ++ m ++ ['F', 'U', 'T'])
  | option {year m strike right : Text} {whole : ℕ} (hyear : AllDigits year)
      (hlength : year.length = 2) (hm : m ∈ months) (hstrike : IsNumber strike whole)
      (hwhole : 2 ≤ whole ∧ whole ≤ 8) (hright : right = ['C', 'E'] ∨ right = ['P', 'E']) :
      Renders u (u.text ++ year ++ m ++ strike ++ right)
  | strike {strike right : Text} {whole : ℕ} (hstrike : IsNumber strike whole)
      (hwhole : 2 ≤ whole ∧ whole ≤ 8) (hright : right = ['C', 'E'] ∨ right = ['P', 'E']) :
      Renders u (u.text ++ strike ++ right)

end Strikedge.DhanInstruments
