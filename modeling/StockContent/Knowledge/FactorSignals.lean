import StockContent.Knowledge.CrossVideo
import StockContent.Knowledge.KnowledgeReads

/-! Signals of the securities that were asked for. The filter compares six-digit codes; where no requested symbol has one,
there is no filter. -/
namespace StockContent.Knowledge
open Storage Ledger Lifecycle

structure SignalUnitRow extends KnowledgeUnitRow where
  subjectKey : Option String := none
  deriving DecidableEq

structure SignalDb where
  units : Table fun row : SignalUnitRow => row.knowledgeUid
  ledger : LifecycleTable

section Codes
variable (tables : Text.CharTables)

/-- `(?<!\d)(\d{6})(?!\d)`. -/
def sixDigits : Text.Regex :=
  .sequence [.notAfter tables.isDecimal, .times 6 (.one tables.isDecimal), .notBefore tables.isDecimal]

def tickerCode (value : String) : Option String := ((sixDigits tables).findAll value).head?

def requestedCodes (symbols : List String) : List String := symbols.filterMap (tickerCode tables)

/-- `row.ticker or row.subject_key or ""`. -/
def symbolText (row : SignalUnitRow) : String := ((row.ticker.filter (· ≠ "")).or row.subjectKey).getD ""

/-- The filter on symbols. -/
def admitted (symbols : List String) (row : SignalUnitRow) : Bool :=
  requestedCodes tables symbols = [] || (tickerCode tables (symbolText row)).any (requestedCodes tables symbols).contains

def supportRankOf (status : String) : Nat :=
  (supportRanks.lookup (Text.upper tables (Text.strip tables status))).getD 0

end Codes

section Signals
variable {S : Type} (tables : Text.CharTables) (texts : ReadTexts)

/-- Row by row, what is admitted is displayed; a row may have nothing to display. -/
def displayRows (symbols : List String) (display : SignalUnitRow → Except ReadError (Option S)) :
    List SignalUnitRow → Except ReadError (List (SignalUnitRow × S))
  | [] => .ok []
  | row :: rows =>
    if admitted tables symbols row then do
      let shown ← display row
      let others ← displayRows symbols display rows
      return (shown.map fun signal => (row, signal)).toList ++ others
    else displayRows symbols display rows

def available (start stop : Time) (row : SignalUnitRow) : Bool :=
  start ≤ row.availableFrom && row.availableFrom ≤ stop && row.reviewStatus ≠ "REJECTED"

/-- The rows that `factor_signals` reads, before it looks at their symbols. -/
def signalCandidates (start stop : Time) (minimumSupportStatus : String) (db : SignalDb) : List SignalUnitRow :=
  (db.units.select (fun row => available start stop row && row.lifecycleStatus = "ACTIVE")
    (fun a b => a.availableFrom ≤ b.availableFrom) db.units.rows.length).filter fun row =>
      supportRankOf tables minimumSupportStatus ≤ supportRankOf tables row.supportStatus

def displayV3 (upgrade : SignalUnitRow → Except ReadError S) (row : SignalUnitRow) : Except ReadError (Option S) :=
  (upgrade row).map some

/-- `factor_signals`, each signal with its row. -/
def signalRows (upgrade : SignalUnitRow → Except ReadError S) (symbols : List String) (start stop : Time)
    (minimumSupportStatus : String) (db : SignalDb) : Except ReadError (List (SignalUnitRow × S)) :=
  displayRows tables symbols (displayV3 upgrade) (signalCandidates tables start stop minimumSupportStatus db)

def factorSignals (upgrade : SignalUnitRow → Except ReadError S) (symbols : List String) (start stop : Time)
    (minimumSupportStatus : String) (db : SignalDb) : Except ReadError (List S) :=
  (signalRows tables upgrade symbols start stop minimumSupportStatus db).map (List.map Prod.snd)

/-- A status, or its rank. -/
inductive MinimumSupport where
  | status (name : String)
  | rank (n : Int)

def MinimumSupport.value : MinimumSupport → Int
  | .status name => supportRankOf tables name
  | .rank n => n

structure SignalV5Arguments where
  availabilityAsOf : Option DateTime := none
  pitMode : Option String := none
  businessAsOf : Option DateTime := none
  knowledgeAsOf : Option DateTime := none
  historicalProjection : Bool := false
  claimIds : List String := []

def SignalV5Arguments.filters (args : SignalV5Arguments) : KnowledgeFilters where
  availabilityAsOf := some args.availabilityAsOf
  pitMode := some (some (orText (args.pitMode.getD "") "SYSTEM"))
  businessAsOf := some args.businessAsOf
  knowledgeAsOf := some args.knowledgeAsOf
  historicalProjection := args.historicalProjection

def bySignalOrder (a b : SignalUnitRow) : Bool :=
  a.availableFrom < b.availableFrom || (a.availableFrom == b.availableFrom && a.knowledgeUid ≤ b.knowledgeUid)

/-- The rows that `factor_signals_v5` reads, before it looks at their symbols. A payload has no claim id of its own, so
that a list of claims keeps nothing but what has no id. -/
def signalV5Candidates (start stop : Time) (minimum : MinimumSupport) (args : SignalV5Arguments) (db : SignalDb) :
    List SignalUnitRow :=
  (db.units.select (available start stop) bySignalOrder db.units.rows.length).filter fun row =>
    (args.claimIds = [] || args.claimIds.contains "") && minimum.value tables ≤ supportRankOf tables row.supportStatus

/-- `upgrade` has nothing to show of a row without a complete lineage. -/
def displayV5 (upgrade : SignalUnitRow → Except ReadError (Option S)) (args : SignalV5Arguments) (ledger : LifecycleTable)
    (row : SignalUnitRow) : Except ReadError (Option S) := do
  let visible ← pitMatches texts args.filters row.toKnowledgeUnitRow
  if !visible || (!args.historicalProjection && !lifecycleMatches texts ledger args.filters row.toKnowledgeUnitRow) then
    return none
  else upgrade row

/-- `factor_signals_v5`, each signal with its row. -/
def signalV5Rows (upgrade : SignalUnitRow → Except ReadError (Option S)) (symbols : List String) (start stop : Time)
    (minimum : MinimumSupport) (args : SignalV5Arguments) (db : SignalDb) : Except ReadError (List (SignalUnitRow × S)) :=
  displayRows tables symbols (displayV5 texts upgrade args db.ledger) (signalV5Candidates tables start stop minimum args db)

def factorSignalsV5 (upgrade : SignalUnitRow → Except ReadError (Option S)) (symbols : List String) (start stop : Time)
    (minimum : MinimumSupport) (args : SignalV5Arguments) (db : SignalDb) : Except ReadError (List S) :=
  (signalV5Rows tables texts upgrade symbols start stop minimum args db).map (List.map Prod.snd)

end Signals

section Securities
variable (tables : Text.CharTables)

inductive SecurityCode where
  | mainland (code : String)
  | ticker (letters : List Char)
  deriving DecidableEq

/-- A symbol as it is compared: stripped, in capitals. -/
def symbolLetters (symbol : String) : List Char := (Text.upper tables (Text.strip tables symbol)).toList

/-- The six-digit code of a mainland security; of another one, what stands before the suffix. -/
def codeOf (symbol : String) : SecurityCode :=
  ((tickerCode tables symbol).map SecurityCode.mainland).getD (.ticker ((symbolLetters tables symbol).takeWhile (· ≠ '.')))

/-- The suffix, where a symbol has one. -/
def marketOf (symbol : String) : Option (List Char) :=
  if (symbolLetters tables symbol).contains '.' then some (((symbolLetters tables symbol).dropWhile (· ≠ '.')).drop 1)
  else none

/-- No suffix, or the same. -/
def marketsAgree (a b : String) : Bool :=
  (marketOf tables a).isNone || (marketOf tables b).isNone || marketOf tables a = marketOf tables b

/-- The security of a row is one of those requested. -/
def Requested (symbols : List String) (row : SignalUnitRow) : Prop :=
  ∃ symbol ∈ symbols, codeOf tables symbol = codeOf tables (symbolText row) ∧ marketsAgree tables symbol (symbolText row) = true

/-- Where securities are requested, the rows of others are not shown. -/
def OnlyRequested {S : Type} (symbols : List String) (answer : Except ReadError (List (SignalUnitRow × S))) : Prop :=
  symbols ≠ [] → ∀ shown, answer = .ok shown → ∀ entry ∈ shown, Requested tables symbols entry.1

/-- What the filter has to rely on. Without a six-digit code among the symbols, a row is of a requested security anyway;
else, a code that is requested is requested for the market of the row. -/
def CodesTell (symbols : List String) (row : SignalUnitRow) : Prop :=
  if requestedCodes tables symbols = [] then Requested tables symbols row
  else ∀ code ∈ requestedCodes tables symbols, tickerCode tables (symbolText row) = some code →
    ∃ symbol ∈ symbols, tickerCode tables symbol = some code ∧ marketsAgree tables symbol (symbolText row) = true

/-- No row that is admitted raises. -/
def Answerable {S : Type} (symbols : List String) (display : SignalUnitRow → Except ReadError (Option S))
    (rows : List SignalUnitRow) : Prop :=
  ∀ row ∈ rows, admitted tables symbols row = true → ∃ shown, display row = .ok shown

/-- Of all rows that have a signal to show, the codes tell whether they were requested. -/
def FilterTells {S : Type} (symbols : List String) (display : SignalUnitRow → Except ReadError (Option S))
    (rows : List SignalUnitRow) : Prop :=
  symbols ≠ [] → Answerable tables symbols display rows →
    ∀ row ∈ rows, (∃ signal, display row = .ok (some signal)) → CodesTell tables symbols row

variable {tables} {S : Type} {symbols : List String} {row : SignalUnitRow} {rows : List SignalUnitRow}
  {display : SignalUnitRow → Except ReadError (Option S)} {shown : List (SignalUnitRow × S)}

theorem codeOf_eq_mainland {symbol code : String} : codeOf tables symbol = .mainland code ↔ tickerCode tables symbol = some code := by
  rw [codeOf]
  cases tickerCode tables symbol with
  | none => simp
  | some other => simp

theorem admitted_iff : admitted tables symbols row = true ↔ requestedCodes tables symbols = [] ∨
    ∃ code ∈ requestedCodes tables symbols, tickerCode tables (symbolText row) = some code := by
  rw [admitted, Bool.or_eq_true, decide_eq_true_eq, Option.any_eq_true]
  refine or_congr_right (exists_congr fun code => ?_)
  rw [List.contains_iff_mem]
  exact and_comm

/-- Of a row that is admitted, the codes tell whether it was requested. -/
theorem codesTell_iff_of_admitted (h : admitted tables symbols row = true) :
    CodesTell tables symbols row ↔ Requested tables symbols row := by
  rw [CodesTell]
  split
  · rfl
  · rename_i hcodes
    obtain ⟨code, hcode, hrow⟩ := (admitted_iff.mp h).resolve_left hcodes
    rw [Requested, codeOf_eq_mainland.mpr hrow]
    constructor
    · intro htell
      obtain ⟨symbol, hsymbol, hsame, hmarket⟩ := htell code hcode hrow
      exact ⟨symbol, hsymbol, codeOf_eq_mainland.mpr hsame, hmarket⟩
    · rintro ⟨symbol, hsymbol, hsame, hmarket⟩ other _ hother
      rw [hrow] at hother
      cases hother
      exact ⟨symbol, hsymbol, codeOf_eq_mainland.mp hsame, hmarket⟩

theorem codesTell_of_not_admitted (h : ¬ admitted tables symbols row = true) : CodesTell tables symbols row := by
  rw [admitted_iff, not_or] at h
  rw [CodesTell, if_neg h.1]
  exact fun code hcode hrow => absurd ⟨code, hcode, hrow⟩ h.2

theorem displayRows_ok_iff : (∃ shown, displayRows tables symbols display rows = .ok shown) ↔ Answerable tables symbols display rows := by
  induction rows with
  | nil => exact iff_of_true ⟨[], rfl⟩ (List.forall_mem_nil _)
  | cons row rows ih =>
    rw [Answerable, List.forall_mem_cons, ← Answerable, ← ih, displayRows]
    split
    · rename_i hadmitted
      constructor
      · rintro ⟨shown, h⟩
        obtain ⟨first, hfirst, h⟩ := bind_eq_ok.mp h
        obtain ⟨others, hothers, -⟩ := bind_eq_ok.mp h
        exact ⟨fun _ => ⟨first, hfirst⟩, others, hothers⟩
      · rintro ⟨hfirst, others, hothers⟩
        obtain ⟨first, hfirst⟩ := hfirst hadmitted
        exact ⟨_, bind_eq_ok.mpr ⟨first, hfirst, bind_eq_ok.mpr ⟨others, hothers, rfl⟩⟩⟩
    · rename_i hadmitted
      exact (and_iff_right fun h => absurd h hadmitted).symm

/-- What is shown: the signals of the rows that are admitted. -/
theorem mem_displayRows (h : displayRows tables symbols display rows = .ok shown) {signal : S} :
    (row, signal) ∈ shown ↔ row ∈ rows ∧ admitted tables symbols row = true ∧ display row = .ok (some signal) := by
  induction rows generalizing shown with
  | nil =>
    cases h
    simp
  | cons first rows ih =>
    rw [displayRows] at h
    split at h
    · rename_i hadmitted
      obtain ⟨head, hhead, h⟩ := bind_eq_ok.mp h
      obtain ⟨others, hothers, h⟩ := bind_eq_ok.mp h
      cases h
      rw [List.mem_append, ih hothers, List.mem_cons, or_and_right]
      refine or_congr_left ?_
      rw [Option.mem_toList, Option.map_eq_some_iff]
      constructor
      · rintro ⟨other, hother, hpair⟩
        cases hpair
        exact ⟨rfl, hadmitted, hother ▸ hhead⟩
      · rintro ⟨rfl, _, hsignal⟩
        rw [hhead] at hsignal
        exact ⟨signal, Except.ok.inj hsignal, rfl⟩
    · rename_i hadmitted
      rw [ih h, List.mem_cons]
      refine ⟨fun hrow => ⟨.inr hrow.1, hrow.2⟩, ?_⟩
      rintro ⟨rfl | hrow, hsome, hsignal⟩
      · exact absurd hsome hadmitted
      · exact ⟨hrow, hsome, hsignal⟩

theorem onlyRequested_displayRows : OnlyRequested tables symbols (displayRows tables symbols display rows) ↔
    FilterTells tables symbols display rows := by
  rw [OnlyRequested, FilterTells, ← displayRows_ok_iff]
  refine forall_congr' fun _ => ?_
  constructor
  · rintro honly ⟨shown, hshown⟩ row hrow ⟨signal, hsignal⟩
    by_cases hadmitted : admitted tables symbols row = true
    · exact (codesTell_iff_of_admitted hadmitted).mpr
        (honly shown hshown (row, signal) ((mem_displayRows hshown).mpr ⟨hrow, hadmitted, hsignal⟩))
    · exact codesTell_of_not_admitted hadmitted
  · intro htell shown hshown entry hentry
    obtain ⟨row, signal⟩ := entry
    obtain ⟨hrow, hadmitted, hsignal⟩ := (mem_displayRows hshown).mp hentry
    exact (codesTell_iff_of_admitted hadmitted).mp (htell ⟨shown, hshown⟩ row hrow ⟨signal, hsignal⟩)

/-- Neither version of the signals widens what was requested exactly where the codes tell the rows apart. -/
theorem symbolFilter_iff {texts : ReadTexts} (upgrade : SignalUnitRow → Except ReadError S)
    (upgradeV5 : SignalUnitRow → Except ReadError (Option S)) (start stop : Time) (minimumSupportStatus : String)
    (minimum : MinimumSupport) (args : SignalV5Arguments) (db : SignalDb) :
    (OnlyRequested tables symbols (signalRows tables upgrade symbols start stop minimumSupportStatus db) ↔
      FilterTells tables symbols (displayV3 upgrade) (signalCandidates tables start stop minimumSupportStatus db)) ∧
    (OnlyRequested tables symbols (signalV5Rows tables texts upgradeV5 symbols start stop minimum args db) ↔
      FilterTells tables symbols (displayV5 texts upgradeV5 args db.ledger) (signalV5Candidates tables start stop minimum args db)) :=
  ⟨onlyRequested_displayRows, onlyRequested_displayRows⟩

end Securities

section Unfiltered

/-- ASCII digits, and the blank alone. -/
def asciiSymbolTables : Text.CharTables := ⟨Char.isDigit, (· = ' '), fun c => [c.toUpper], Text.letter_ne_blank⟩

def mainlandRow : SignalUnitRow where
  knowledgeUid := "k1"
  videoId := "v1"
  statement := ""
  ticker := some "600519"
  confidence := 1
  availableFrom := 0

def mainlandDb : SignalDb where
  units := ⟨[mainlandRow], List.nodup_singleton _⟩
  ledger := Table.empty

/-- Asked for a share in Hong Kong, the repository shows the only row it has. -/
theorem not_onlyRequested_mainland : ¬ OnlyRequested asciiSymbolTables ["00700.HK"]
    (signalRows asciiSymbolTables (fun row => .ok row.knowledgeUid) ["00700.HK"] 0 0 "SOURCE_SUPPORTED" mainlandDb) := by
  have hshown : signalRows asciiSymbolTables (fun row => .ok row.knowledgeUid) ["00700.HK"] 0 0 "SOURCE_SUPPORTED" mainlandDb =
      .ok [(mainlandRow, "k1")] := by decide
  intro honly
  obtain ⟨symbol, hsymbol, hcode, _⟩ := honly (by decide) _ hshown _ List.mem_cons_self
  rw [List.mem_singleton.mp hsymbol] at hcode
  exact absurd hcode (by decide)

end Unfiltered
end StockContent.Knowledge
