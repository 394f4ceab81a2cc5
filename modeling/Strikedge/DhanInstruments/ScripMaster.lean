import Strikedge.DhanInstruments.ContractSuffix
import Strikedge.DhanInstruments.CsvLine
import Strikedge.DhanInstruments.InternalToken
import Strikedge.Machine.NumberText

/-!
# The instrument master

`parseDhanScripMaster` reads the broker's master, whose columns are found by their names. A row
without a usable security id, segment or symbol is passed over, as are test symbols and contracts
that expire too late; a second pass gives every derivative the name of its underlying. What the
parser counts for its report is left out.
-/

namespace Strikedge.DhanInstruments

open Machine
open DhanFeed (DhanExchangeSegment)

/-- What the parser takes from the runtime: upper case beyond ASCII, `Date.parse`, the day of an
instant and the clock. -/
structure Runtime where
  beyond : Char → Text
  dateParse : String → Option ℤ
  isoDay : ℤ → String
  now : ℤ

def upper (runtime : Runtime) (text : String) : String :=
  String.ofList (toUpperCase runtime.beyond text.toList)

/-- Each run of the class becomes one character. -/
def collapse (inClass : Char → Bool) (mark : Char) (inRun : Bool) : Text → Text
  | [] => []
  | c :: rest =>
    if inClass c then
      if inRun then collapse inClass mark true rest else mark :: collapse inClass mark true rest
    else c :: collapse inClass mark false rest

/-- The line at hand, and the lines of the text behind it. -/
def splitLines (current : Text) : Text → List Text
  | [] => [current]
  | '\r' :: '\n' :: rest => current :: splitLines [] rest
  | '\n' :: rest => current :: splitLines [] rest
  | c :: rest => splitLines (current ++ [c]) rest

def csvLines (csv : String) : List String :=
  ((splitLines [] csv.toList).map String.ofList).filter fun line => trim line ≠ ""

def columnName (runtime : Runtime) (name : String) : String :=
  String.ofList (collapse isSeparator '_' false (upper runtime name).toList)

def columnIndex (runtime : Runtime) (header names : List String) : Option ℕ :=
  let normalized := header.map fun cell => columnName runtime (trim cell)
  names.findSome? fun name => normalized.findIdx? (· == columnName runtime name)

structure Columns where
  exch : Option ℕ
  segment : Option ℕ
  securityId : ℕ
  instrument : Option ℕ
  symbolName : Option ℕ
  displayName : Option ℕ
  underlying : Option ℕ
  underlyingId : Option ℕ
  lotSize : Option ℕ
  expiry : Option ℕ
  strike : Option ℕ
  optionType : Option ℕ
  tickSize : Option ℕ

/-- The columns of a header, if it has one for the security id. -/
def columns? (runtime : Runtime) (header : List String) : Option Columns :=
  let index := columnIndex runtime header
  (index ["SECURITY_ID", "SECURITYID"]).map fun securityId =>
    { exch := index ["EXCH_ID", "EXCHANGE", "EXCH"]
      segment := index ["SEGMENT", "SEGMENT_NAME"]
      securityId := securityId
      instrument := index ["INSTRUMENT", "INSTRUMENT_NAME"]
      symbolName := index ["SYMBOL_NAME", "TRADING_SYMBOL", "SEM_TRADING_SYMBOL"]
      displayName := index ["DISPLAY_NAME", "SEM_CUSTOM_SYMBOL"]
      underlying := index ["UNDERLYING_SYMBOL", "SEM_UNDERLYING", "UNDERLYING"]
      underlyingId := index ["UNDERLYING_SECURITY_ID", "SEM_UNDERLYING_SECURITY_ID"]
      lotSize := index ["LOT_SIZE", "SEM_LOT_UNITS"]
      expiry := index ["SM_EXPIRY_DATE", "EXPIRY_DATE", "SEM_EXPIRY_DATE"]
      strike := index ["STRIKE_PRICE", "SEM_STRIKE_PRICE"]
      optionType := index ["OPTION_TYPE", "SEM_OPTION_TYPE"]
      tickSize := index ["TICK_SIZE", "SEM_TICK_SIZE"] }

def pick (cells : List String) (column : Option ℕ) : String :=
  match column with
  | some index => trim (cells.getD index "")
  | none => ""

/-- A year, a month and a day behind hyphens, whatever follows. -/
def isoLike? : Text → Option String
  | y :: e :: a :: r :: '-' :: m :: o :: '-' :: d :: t :: _ =>
    if [y, e, a, r, m, o, d, t].all Char.isDigit then
      some (String.ofList [y, e, a, r, '-', m, o, '-', d, t])
    else none
  | _ => none

/-- A day, a month and a year between slashes or hyphens, whatever follows. -/
def dayMonthYear? : Text → Option String
  | d :: t :: first :: m :: o :: second :: y :: e :: a :: r :: _ =>
    if [d, t, m, o, y, e, a, r].all Char.isDigit ∧ first ∈ ['/', '-'] ∧ second ∈ ['/', '-'] then
      some (String.ofList [y, e, a, r, '-', m, o, '-', d, t])
    else none
  | _ => none

def normalizeDhanExpiry (runtime : Runtime) (raw : String) : String :=
  let value := trim raw
  if value = "" ∨ upper runtime value = "NA" then ""
  else
    match isoLike? value.toList with
    | some day => day
    | none =>
      match dayMonthYear? value.toList with
      | some day => day
      | none =>
        match runtime.dateParse value with
        | some parsed => runtime.isoDay parsed
        | none => ""

def normalizeDhanInstrumentType (runtime : Runtime) (instrument optionType : String) : String :=
  let opt := upper runtime (trim optionType)
  let inst := upper runtime (trim instrument)
  if opt = "CE" ∨ opt = "CALL" then "CE"
  else if opt = "PE" ∨ opt = "PUT" then "PE"
  else if includes inst "OPT" then opt
  else if includes inst "FUT" then "FUT"
  else if inst = "INDEX" ∨ inst = "INDICES" then "INDEX"
  else if inst = "EQUITY" ∨ inst = "ES" then "EQ"
  else inst

def internalSegment (exchange instrumentType : String) : String :=
  if exchange = "INDICES" then "INDICES"
  else if instrumentType = "FUT" then exchange ++ "-FUT"
  else if exchange = "NFO" ∨ exchange = "BFO" then exchange ++ "-OPT"
  else exchange

def internalExchangeFor : DhanExchangeSegment → String
  | .nseEq => "NSE"
  | .nseFno => "NFO"
  | .nseCurrency => "CDS"
  | .bseEq => "BSE"
  | .bseFno => "BFO"
  | .bseCurrency => "BCD"
  | .mcxComm => "MCX"
  | .idxI => "INDICES"

def dhanSegmentFor (runtime : Runtime) (exchange : String) (isIndex : Bool) :
    Option DhanExchangeSegment :=
  let ex := upper runtime (trim exchange)
  if isIndex ∨ ex = "INDICES" ∨ ex = "IDX_I" ∨ ex = "IDX" then some .idxI
  else if ex = "NSE" ∨ ex = "NSE_EQ" then some .nseEq
  else if ex = "NFO" ∨ ex = "NSE_FNO" then some .nseFno
  else if ex = "CDS" ∨ ex = "NSE_CURRENCY" then some .nseCurrency
  else if ex = "BSE" ∨ ex = "BSE_EQ" then some .bseEq
  else if ex = "BFO" ∨ ex = "BSE_FNO" then some .bseFno
  else if ex = "BCD" ∨ ex = "BSE_CURRENCY" then some .bseCurrency
  else if ex = "MCX" ∨ ex = "MCX_COMM" then some .mcxComm
  else none

def resolveSegment (runtime : Runtime) (exch segmentCode instrument : String) (isIndex : Bool) :
    Option DhanExchangeSegment :=
  let ex := upper runtime (trim exch)
  let seg := upper runtime (trim segmentCode)
  let inst := upper runtime (trim instrument)
  let derivative := seg = "D" ∨ includes inst "FUT" ∨ includes inst "OPT"
  if isIndex then some .idxI
  else if ex = "NSE" then
    some (if derivative then .nseFno else if seg = "C" then .nseCurrency else .nseEq)
  else if ex = "BSE" then
    some (if derivative then .bseFno else if seg = "C" then .bseCurrency else .bseEq)
  else if ex = "MCX" then some .mcxComm
  else dhanSegmentFor runtime ex isIndex

/-- `TEST_SYMBOL`, which ignores the case of ASCII letters. -/
def testSymbol (text : String) : Bool :=
  let ascii := String.ofList (text.toList.map Char.toUpper)
  includes ascii "INSETEST" || includes ascii "TESTSCRIP" || includes ascii "DUMMY" ||
    "TEST".toList.isPrefixOf ascii.toList

/-- `MAX_FUTURE_EXPIRY_DAYS * 86_400_000` -/
def maxFutureExpiryMs : ℤ := 400 * 86400000

/-- A finite positive number. -/
def positive? (n : Number) : Option ℚ := n.finite?.filter (0 < ·)

structure DhanInstrument where
  instrumentToken : Number
  exchangeToken : ℚ
  tradingsymbol : String
  name : String
  lastPrice : ℚ
  expiry : String
  strike : ℚ
  tickSize : ℚ
  lotSize : ℚ
  instrumentType : String
  segment : String
  exchange : String
  dhanSecurityId : ℚ
  dhanSegment : DhanExchangeSegment
  dhanUnderlyingSecurityId : Option ℚ
  deriving DecidableEq

section Row

variable (runtime : Runtime) (columns : Columns) (cells : List String)

def rowSecurityId : Option ℚ := positive? (numberOfText (pick cells (some columns.securityId)))

def rowInstrumentType : String :=
  normalizeDhanInstrumentType runtime (pick cells columns.instrument)
    (pick cells columns.optionType)

def rowSegment : Option DhanExchangeSegment :=
  let rawSegment := pick cells columns.segment
  let isIndex := rowInstrumentType runtime columns cells = "INDEX" ∨ upper runtime rawSegment = "I"
  resolveSegment runtime (pick cells columns.exch) rawSegment (pick cells columns.instrument)
    isIndex

def rowSymbol : String :=
  if pick cells columns.symbolName ≠ "" then pick cells columns.symbolName
  else pick cells columns.displayName

/-- The contract expires too late to be a real one. -/
def implausibleExpiry : Bool :=
  let expiryIso := normalizeDhanExpiry runtime (pick cells columns.expiry)
  let instrumentType := rowInstrumentType runtime columns cells
  if expiryIso ≠ "" ∧ instrumentType ≠ "EQ" ∧ instrumentType ≠ "INDEX" then
    match runtime.dateParse (expiryIso ++ "T00:00:00+05:30") with
    | some expiryMs => decide (maxFutureExpiryMs < expiryMs - runtime.now)
    | none => false
  else false

/-- The row has a symbol, and it is neither a test nor too far out. -/
def keepsRow : Bool :=
  let tradingsymbol := rowSymbol columns cells
  tradingsymbol ≠ "" && !testSymbol tradingsymbol &&
    !testSymbol (pick cells columns.underlying) && !implausibleExpiry runtime columns cells

def parseRow : Option DhanInstrument :=
  match rowSecurityId columns cells, rowSegment runtime columns cells with
  | some securityId, some segment =>
    if keepsRow runtime columns cells then
      let exchange := internalExchangeFor segment
      let tradingsymbol := rowSymbol columns cells
      let instrumentType := rowInstrumentType runtime columns cells
      let underlyingName := pick cells columns.underlying
      let displayName := pick cells columns.displayName
      let number := fun column => positive? (numberOfText (pick cells column))
      some
        { instrumentToken := dhanInternalToken segment securityId
          exchangeToken := securityId
          tradingsymbol := tradingsymbol
          name :=
            if underlyingName ≠ "" then underlyingName
            else if displayName ≠ "" then displayName
            else tradingsymbol
          lastPrice := 0
          expiry := normalizeDhanExpiry runtime (pick cells columns.expiry)
          strike := (number columns.strike).getD 0
          tickSize := (number columns.tickSize).getD (nearest (1 / 20))
          lotSize := (number columns.lotSize).getD 0
          instrumentType := instrumentType
          segment := internalSegment exchange instrumentType
          exchange := exchange
          dhanSecurityId := securityId
          dhanSegment := segment
          dhanUnderlyingSecurityId := number columns.underlyingId }
    else none
  | _, _ => none

end Row

def normalizeUnderlyingKey (runtime : Runtime) (value : String) : String :=
  String.ofList (collapse isSpace ' ' false (upper runtime (trim value)).toList)

/-- The spot row of a security id; of several the last one is found. -/
def spotOf (rows : List DhanInstrument) (securityId : ℚ) : Option DhanInstrument :=
  rows.reverse.find? fun row =>
    (row.instrumentType == "EQ" || row.instrumentType == "INDEX") &&
      row.dhanSecurityId == securityId

/-- `equitySpotSymbols.has` -/
def hasEquitySpot (runtime : Runtime) (rows : List DhanInstrument) (symbol : String) : Bool :=
  rows.any fun row =>
    row.instrumentType == "EQ" && normalizeUnderlyingKey runtime row.tradingsymbol == symbol

def underlyingName (runtime : Runtime) (rows : List DhanInstrument) (inst : DhanInstrument) :
    String :=
  let declared := normalizeUnderlyingKey runtime inst.name
  let stripped := stripContractSuffix runtime.beyond inst.tradingsymbol
  let spot := inst.dhanUnderlyingSecurityId.bind (spotOf rows)
  let declaredOrStripped := if declared ≠ "" then declared else stripped
  let bySymbol :=
    if declared ≠ "" ∧ hasEquitySpot runtime rows declared then declared
    else if stripped ≠ "" ∧ hasEquitySpot runtime rows stripped then stripped
    else declaredOrStripped
  match spot with
  | some row =>
    if row.instrumentType ≠ "INDEX" then normalizeUnderlyingKey runtime row.tradingsymbol
    else if declaredOrStripped ≠ "" then declaredOrStripped
    else bySymbol
  | none => bySymbol

/-- The second pass, which names the derivatives. -/
def resolveUnderlying (runtime : Runtime) (rows : List DhanInstrument) (inst : DhanInstrument) :
    DhanInstrument :=
  if inst.instrumentType = "FUT" ∨ inst.instrumentType = "CE" ∨ inst.instrumentType = "PE" then
    { inst with name := underlyingName runtime rows inst }
  else inst

def missingSecurityId (header : List String) : String :=
  "[Dhan] instrument master has no SECURITY_ID column (header: " ++
    String.intercalate "," (header.take 12) ++ "…)."

def parseDhanScripMaster (runtime : Runtime) (csv : String) :
    Except String (List DhanInstrument) :=
  match csvLines csv with
  | header :: first :: rest =>
    match columns? runtime (splitCsvLine header) with
    | some columns =>
      let rows := (first :: rest).filterMap fun line =>
        parseRow runtime columns (splitCsvLine line)
      .ok (rows.map (resolveUnderlying runtime rows))
    | none => .error (missingSecurityId (splitCsvLine header))
  | _ => .ok []

end Strikedge.DhanInstruments
