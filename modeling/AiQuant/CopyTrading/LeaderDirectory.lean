import AiQuant.CopyTrading.Models
import AiQuant.Lib.Fallible
import Mathlib.Data.Finset.Basic
import Mathlib.Data.Finset.Lattice.Basic
import Mathlib.Data.List.Infix

/-! The public leader directory (`copy_trading/binance_public.py`).  Three functions read the pages
of one ranked list: the whole directory, the leader of an id, and the leaders of a nickname. -/
namespace AiQuant.CopyTrading
open AiQuant.Lib

/-- `row.get("leadPortfolioId")`: a text, or another value as `str` shows it. -/
inductive JsonId where
  | text (value : String)
  | other (shown : String)
deriving DecidableEq

/-- `str(row.get("leadPortfolioId"))` -/
def JsonId.shown : JsonId → String
  | .text value => value
  | .other shown => shown

/-- A row of the list.  A Boolean or null is no decimal, and a number that is not an `int` is
no count. -/
structure LeaderRow where
  leadPortfolioId : JsonId
  nickname : JsonText
  portfolioType : JsonText
  sharpRatio : Option DecimalText
  roi : DecimalText
  pnl : DecimalText
  aum : DecimalText
  mdd : DecimalText
  winRate : DecimalText
  currentCopyCount : Option ℤ
  maxCopyCount : Option ℤ
  startTime : Option ℤ
  extra : String
deriving DecidableEq

inductive ListRow where
  | mapping (document : LeaderRow)
  | other
deriving DecidableEq

/-- `rawPayload` is the document that `raw_payload_hash` is computed over. -/
structure LeaderSnapshot where
  leadPortfolioId : String
  nickname : String
  roiPct : Decimal
  pnlUsdt : Decimal
  aumUsdt : Decimal
  maximumDrawdownPct : Decimal
  winRatePct : Decimal
  currentCopyCount : ℤ
  maximumCopyCount : ℤ
  startTimeMs : ℤ
  portfolioType : String
  sharpRatio : Option Decimal
  rawPayload : LeaderRow

/-- `str.strip` and `str.casefold` -/
structure TextFolding where
  strip : String → String
  casefold : String → String

/-- `_LEADER_ID` -/
def matchesLeaderId (text : String) : Bool :=
  10 ≤ text.length && text.length ≤ 24 && text.toList.all Char.isDigit

def fieldInvalid (key : String) : String :=
  "COPY_FIELD_" ++ key ++ "_INVALID"

/-- `_decimal` -/
def decimalField (value : DecimalText) (key : String) : Except String Decimal :=
  match value with
  | .finite number => .ok number
  | _ => .error (fieldInvalid key)

def nonnegativeDecimal (value : DecimalText) (key : String) : Except String Decimal := do
  let number ← decimalField value key
  if number < 0 then .error (fieldInvalid key) else .ok number

def boundedPercent (value : DecimalText) (key : String) : Except String Decimal := do
  let number ← nonnegativeDecimal value key
  if 100 < number then .error (fieldInvalid key) else .ok number

/-- `_positive_integer` and `_nonnegative_integer` -/
def integerField (least : ℤ) (value : Option ℤ) (key : String) : Except String ℤ :=
  match value with
  | some number => if number < least then .error (fieldInvalid key) else .ok number
  | none => .error (fieldInvalid key)

section Rows

variable (folding : TextFolding)

def requiredString (value : JsonText) (key : String) : Except String String :=
  match value with
  | .text text =>
    if text = "" ∨ text ≠ folding.strip text then .error (fieldInvalid key) else .ok text
  | .other => .error (fieldInvalid key)

def JsonId.json : JsonId → JsonText
  | .text value => .text value
  | .other _ => .other

def leaderIdField (value : JsonId) : Except String String := do
  let leaderId ← requiredString folding value.json "LEADPORTFOLIOID"
  if matchesLeaderId leaderId then .ok leaderId else .error "COPY_LEADER_ID_INVALID"

def nicknameField (value : JsonText) : Except String String := do
  let nickname ← requiredString folding value "NICKNAME"
  if 200 < nickname.length then .error "COPY_LEADER_NICKNAME_INVALID" else .ok nickname

def sharpRatioField : Option DecimalText → Except String (Option Decimal)
  | none => .ok none
  | some value => (decimalField value "SHARPRATIO").map some

def LeaderSnapshot.fromApi (document : LeaderRow) : Except String LeaderSnapshot := do
  let leaderId ← leaderIdField folding document.leadPortfolioId
  let nickname ← nicknameField folding document.nickname
  let portfolioType ← requiredString folding document.portfolioType "PORTFOLIOTYPE"
  let sharpRatio ← sharpRatioField document.sharpRatio
  let roi ← decimalField document.roi "ROI"
  let pnl ← decimalField document.pnl "PNL"
  let aum ← nonnegativeDecimal document.aum "AUM"
  let mdd ← boundedPercent document.mdd "MDD"
  let winRate ← boundedPercent document.winRate "WINRATE"
  let currentCopyCount ← integerField 0 document.currentCopyCount "CURRENTCOPYCOUNT"
  let maxCopyCount ← integerField 0 document.maxCopyCount "MAXCOPYCOUNT"
  let startTime ← integerField 1 document.startTime "STARTTIME"
  return {
    leadPortfolioId := leaderId
    nickname := nickname
    roiPct := roi
    pnlUsdt := pnl
    aumUsdt := aum
    maximumDrawdownPct := mdd
    winRatePct := winRate
    currentCopyCount := currentCopyCount
    maximumCopyCount := maxCopyCount
    startTimeMs := startTime
    portfolioType := portfolioType
    sharpRatio := sharpRatio
    rawPayload := document }

/-- `from_api(_require_mapping(row))` -/
def ListRow.leader (row : ListRow) : Except String LeaderSnapshot :=
  match row with
  | .mapping document => LeaderSnapshot.fromApi folding document
  | .other => .error "COPY_ROW_INVALID"

def ListRow.leaderId? : ListRow → Option String
  | .mapping document =>
    if matchesLeaderId document.leadPortfolioId.shown then some document.leadPortfolioId.shown
    else none
  | .other => none

end Rows

inductive RankingType where
  | roi | pnl | aum | mdd | winRate

/-- `_leader_rows`: the rows of a page and the total, or the error that is raised. -/
abbrev LeaderEndpoint :=
  (timeRange : String) → RankingType → (pageNumber pageSize : ℕ) →
    Except String (List ListRow × ℕ)

structure LeaderPage where
  leaders : List LeaderSnapshot
  total : ℕ
  invalidRowCount : ℕ
  invalidReasonCodes : Finset String
  invalidLeaderIds : Finset String

def timeRanges : List String := ["7D", "30D", "90D"]

section Directory

variable (folding : TextFolding) (endpoint : LeaderEndpoint)

def rowReason? (row : ListRow) : Option String :=
  match row.leader folding with
  | .ok _ => none
  | .error reason => some reason

def invalidId? (row : ListRow) : Option String :=
  (rowReason? folding row).bind fun _ => row.leaderId?

def leaderPage (rows : List ListRow) (total : ℕ) : LeaderPage where
  leaders := rows.filterMap fun row => (row.leader folding).toOption
  total := total
  invalidRowCount := (rows.filterMap (rowReason? folding)).length
  invalidReasonCodes := (rows.filterMap (rowReason? folding)).toFinset
  invalidLeaderIds := (rows.filterMap (invalidId? folding)).toFinset

/-- `list_leaders` with `skip_invalid_rows`. -/
def listLeaders (pageNumber pageSize : ℕ) (timeRange : String) (dataType : RankingType) :
    Except String LeaderPage :=
  if pageNumber < 1 ∨ 10000 < pageNumber ∨ pageSize < 1 ∨ 100 < pageSize then
    .error "copy leader page is outside the supported range"
  else if timeRange ∉ timeRanges then .error "copy leader time range is unsupported"
  else do
    let response ← endpoint timeRange dataType pageNumber pageSize
    return leaderPage folding response.1 response.2

/-- `leaders[leader.lead_portfolio_id] = leader` -/
def setLeader (leaders : List LeaderSnapshot) (leader : LeaderSnapshot) : List LeaderSnapshot :=
  if leaders.any (·.leadPortfolioId = leader.leadPortfolioId) then
    leaders.map fun other =>
      if other.leadPortfolioId = leader.leadPortfolioId then leader else other
  else leaders ++ [leader]

/-- `(latest_total + raw_page_size - 1) // raw_page_size` -/
def requiredPages (total rawPageSize : ℕ) : ℕ :=
  if total = 0 then 0 else (total + rawPageSize - 1) / rawPageSize

structure DirectoryState where
  found : LeaderPage
  rawRowsSeen : ℕ

def LeaderPage.rawCount (page : LeaderPage) : ℕ :=
  page.leaders.length + page.invalidRowCount

def DirectoryState.merge (state : DirectoryState) (page : LeaderPage) : DirectoryState where
  found := {
    leaders := page.leaders.foldl setLeader state.found.leaders
    total := page.total
    invalidRowCount := state.found.invalidRowCount + page.invalidRowCount
    invalidReasonCodes := state.found.invalidReasonCodes ∪ page.invalidReasonCodes
    invalidLeaderIds := state.found.invalidLeaderIds ∪ page.invalidLeaderIds }
  rawRowsSeen := state.rawRowsSeen + page.rawCount

/-- The loop over the later pages; `left` counts the pages that the limit still allows. -/
def directoryLoop (timeRange : String) (dataType : RankingType) (maximumPages rawPageSize : ℕ) :
    ℕ → ℕ → DirectoryState → Except String DirectoryState
  | 0, _, state => .ok state
  | left + 1, pageNumber, state =>
    if requiredPages state.found.total rawPageSize < pageNumber then .ok state
    else match listLeaders folding endpoint pageNumber 100 timeRange dataType with
    | .error reason => .error reason
    | .ok page =>
      if page.rawCount = 0 then
        if page.total ≤ state.rawRowsSeen then
          .ok { state with found := { state.found with total := page.total } }
        else .error "COPY_LEADER_DIRECTORY_INCOMPLETE"
      else if maximumPages < requiredPages page.total rawPageSize then
        .error "COPY_LEADER_DIRECTORY_PAGE_LIMIT"
      else directoryLoop timeRange dataType maximumPages rawPageSize left (pageNumber + 1)
        (state.merge page)

def listAllLeadersSnapshot (timeRange : String) (dataType : RankingType) (maximumPages : ℕ) :
    Except String LeaderPage :=
  match listLeaders folding endpoint 1 100 timeRange dataType with
  | .error reason => .error reason
  | .ok first =>
    if 0 < first.total ∧ first.rawCount = 0 then .error "COPY_LEADER_DIRECTORY_INCOMPLETE"
    else if maximumPages < requiredPages first.total first.rawCount then
      .error "COPY_LEADER_DIRECTORY_PAGE_LIMIT"
    else match directoryLoop folding endpoint timeRange dataType maximumPages first.rawCount
        maximumPages 2 ⟨{ first with leaders := first.leaders.foldl setLeader [] },
          first.rawCount⟩ with
    | .error reason => .error reason
    | .ok state =>
      if state.rawRowsSeen < state.found.total then .error "COPY_LEADER_DIRECTORY_INCOMPLETE"
      else .ok state.found

def leaderWithId (leadPortfolioId : String) : List ListRow → Except String (Option LeaderSnapshot)
  | [] => .ok none
  | .other :: rest => leaderWithId leadPortfolioId rest
  | .mapping document :: rest =>
    if document.leadPortfolioId.shown ≠ leadPortfolioId then leaderWithId leadPortfolioId rest
    else match LeaderSnapshot.fromApi folding document with
      | .ok leader => .ok (some leader)
      | .error _ => .error "COPY_LEADER_LOOKUP_INVALID"

def fastLeaderLookupRankings : List RankingType := [.aum, .winRate, .mdd]

def findFast (leadPortfolioId timeRange : String) :
    List RankingType → Except String (Option LeaderSnapshot)
  | [] => .ok none
  | dataType :: rest =>
    match endpoint timeRange dataType 1 100 with
    | .error _ => findFast leadPortfolioId timeRange rest
    | .ok (rows, _) =>
      match leaderWithId folding leadPortfolioId rows with
      | .error reason => .error reason
      | .ok (some leader) => .ok (some leader)
      | .ok none => findFast leadPortfolioId timeRange rest

def findPaged (leadPortfolioId timeRange : String) : ℕ → ℕ → Except String LeaderSnapshot
  | 0, _ => .error "COPY_LEADER_LOOKUP_NOT_FOUND"
  | left + 1, pageNumber =>
    match endpoint timeRange .roi pageNumber 100 with
    | .error reason => .error reason
    | .ok (rows, total) =>
      match leaderWithId folding leadPortfolioId rows with
      | .error reason => .error reason
      | .ok (some leader) => .ok leader
      | .ok none =>
        if total ≤ pageNumber * 100 then .error "COPY_LEADER_LOOKUP_NOT_FOUND"
        else findPaged leadPortfolioId timeRange left (pageNumber + 1)

def findLeader (leadPortfolioId timeRange : String) (maximumPages : ℕ) :
    Except String LeaderSnapshot :=
  if !matchesLeaderId leadPortfolioId then .error "copy leader portfolio ID is invalid"
  else if timeRange ∉ timeRanges ∨ maximumPages < 1 ∨ 100 < maximumPages then
    .error "copy leader lookup range is invalid"
  else match findFast folding endpoint leadPortfolioId timeRange fastLeaderLookupRankings with
    | .error reason => .error reason
    | .ok (some leader) => .ok leader
    | .ok none => findPaged folding endpoint leadPortfolioId timeRange maximumPages 1

/-- `query in nickname.casefold()` -/
def nicknameMatches (query nickname : String) : Bool :=
  decide (query.toList <:+: (folding.casefold nickname).toList)

structure SearchState where
  exactMatches : List LeaderSnapshot
  partialMatches : List LeaderSnapshot
  seen : Finset String

def searchRow (query : String) (state : SearchState) (row : ListRow) : SearchState :=
  match row with
  | .other => state
  | .mapping document =>
    match document.nickname, document.leadPortfolioId with
    | .text nickname, .text leaderId =>
      if leaderId ∈ state.seen ∨ !nicknameMatches folding query nickname then state
      else match LeaderSnapshot.fromApi folding document with
        | .error _ => state
        | .ok leader =>
          if folding.casefold nickname = query then
            { state with
              exactMatches := state.exactMatches ++ [leader]
              seen := insert leaderId state.seen }
          else
            { state with
              partialMatches := state.partialMatches ++ [leader]
              seen := insert leaderId state.seen }
    | _, _ => state

def searchPaged (query timeRange : String) :
    ℕ → ℕ → SearchState → Except String SearchState
  | 0, _, state => .ok state
  | left + 1, pageNumber, state =>
    match endpoint timeRange .roi pageNumber 100 with
    | .error reason => .error reason
    | .ok (rows, total) =>
      if total ≤ pageNumber * 100 then .ok (rows.foldl (searchRow folding query) state)
      else searchPaged query timeRange left (pageNumber + 1)
        (rows.foldl (searchRow folding query) state)

/-- `nickname_query.strip().casefold()` -/
def searchQuery (nicknameQuery : String) : String :=
  folding.casefold (folding.strip nicknameQuery)

def QueryAllowed (nicknameQuery : String) : Prop :=
  2 ≤ (searchQuery folding nicknameQuery).length ∧
    (searchQuery folding nicknameQuery).length ≤ 80 ∧
    '\n' ∉ (searchQuery folding nicknameQuery).toList ∧
    '\r' ∉ (searchQuery folding nicknameQuery).toList

instance (nicknameQuery : String) : Decidable (QueryAllowed folding nicknameQuery) :=
  inferInstanceAs (Decidable (_ ∧ _ ∧ _ ∧ _))

def searchLeaders (nicknameQuery timeRange : String) (maximumResults maximumPages : ℕ) :
    Except String (List LeaderSnapshot) :=
  if ¬ QueryAllowed folding nicknameQuery then .error "copy leader nickname query is invalid"
  else if timeRange ∉ timeRanges then .error "copy leader lookup range is invalid"
  else if maximumResults < 1 ∨ 12 < maximumResults ∨ maximumPages < 1 ∨ 100 < maximumPages then
    .error "copy leader lookup limit is invalid"
  else (searchPaged folding endpoint (searchQuery folding nicknameQuery) timeRange maximumPages 1
    ⟨[], [], ∅⟩).map fun state =>
      (state.exactMatches ++ state.partialMatches).take maximumResults

end Directory

end AiQuant.CopyTrading
