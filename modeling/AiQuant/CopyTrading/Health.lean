import AiQuant.CopyTrading.Application
import AiQuant.CopyTrading.Ledger

/-! The deterministic watchdog (`copy_trading/health.py`, `services/copy_watchdog.py`).
A check adds what it found to the report together with the control it asks for.  The run
appends a control where the report asks for one, or releases a pause of its own. -/
namespace AiQuant.CopyTrading
open AiQuant.Lib

/-- The text of a decimal. -/
class DecimalFormat where
  text : Decimal → String

inductive HealthSeverity where
  | info | warning | critical
deriving DecidableEq

inductive HealthState where
  | healthy | degraded | failed
deriving DecidableEq

structure HealthFinding where
  code : String
  severity : HealthSeverity
  detail : String
deriving DecidableEq

/-- The fields of `DatabaseHealthFacts` that the watchdog reads. -/
structure DatabaseHealthFacts where
  activeLeaders : ℕ
  assignedSlots : ℕ
  stalePollSeconds : Option Decimal
  latestPollFailures : ℕ
  historyGapFailures : ℕ
  uncertainSignals : ℕ
  failedSignalsLastHour : ℕ
  overduePendingEntries : ℕ
  overdueSlotReplacements : ℕ
  deadNotifications : ℕ
  pendingNotifications : ℕ
  oldestPendingNotificationSeconds : Option Decimal
  shortSelectionAgeHours : Option Decimal
  longSelectionAgeHours : Option Decimal
  latestCodexAuditAgeHours : Option Decimal
  latestCodexAuditState : Option String
  controlState : RuntimeControlState
  virtualPositions : ExchangePositions
  pendingEntryAllowances : ExchangePositions
  repeatedMinimumRejections : ℕ

structure HostHealthFacts where
  serviceStates : String → Option String
  rootFreeBytes : ℕ
  rootFreePercent : Decimal
  memoryAvailableBytes : ℕ
  backupAgeHours : Option Decimal
  userStreamUnit : Option String
  rootFreePercent_bounds : 0 ≤ rootFreePercent ∧ rootFreePercent ≤ 100
  backupAgeHours_nonneg : ∀ age ∈ backupAgeHours, 0 ≤ age

structure HealthReport where
  state : HealthState
  findings : List HealthFinding
  requestedControl : Option RuntimeControlState
deriving DecidableEq

/-- The priority of `_stronger_control`. -/
def RuntimeControlState.priority : RuntimeControlState → ℕ
  | .running => 0
  | .pausedNewEntries => 1
  | .reduceAll => 2

def strongerControl (current : Option RuntimeControlState) (candidate : RuntimeControlState) :
    RuntimeControlState :=
  match current with
  | none => candidate
  | some held => if held.priority < candidate.priority then candidate else held

/-- A finding with the control requested beside it. -/
structure HealthItem where
  finding : HealthFinding
  request : Option RuntimeControlState
  not_running : request ≠ some .running
  critical_requests : finding.severity = .critical → request.isSome

namespace HealthItem

/-- A `WARNING` that asks for nothing. -/
def warning (code detail : String) : HealthItem where
  finding := ⟨code, .warning, detail⟩
  request := none
  not_running := by simp
  critical_requests := by simp

/-- A `CRITICAL` that asks to pause new entries. -/
def pausing (code detail : String) : HealthItem where
  finding := ⟨code, .critical, detail⟩
  request := some .pausedNewEntries
  not_running := by simp
  critical_requests := by simp

/-- A `CRITICAL` that asks to reduce everything. -/
def flattening (code detail : String) : HealthItem where
  finding := ⟨code, .critical, detail⟩
  request := some .reduceAll
  not_running := by simp
  critical_requests := by simp

/-- A `WARNING` that asks to pause new entries. -/
def advisory (code detail : String) : HealthItem where
  finding := ⟨code, .warning, detail⟩
  request := some .pausedNewEntries
  not_running := by simp
  critical_requests := by simp

def graded (severe : Bool) (code detail : String) : HealthItem :=
  if severe then pausing code detail else warning code detail

end HealthItem

def itemWhen (condition : Bool) (item : HealthItem) : List HealthItem :=
  if condition then [item] else []

section Checks

variable [DecimalFormat]

/-- A decimal or `None`, as an f-string writes it. -/
def optionalText (value : Option Decimal) : String :=
  match value with
  | none => "None"
  | some value => DecimalFormat.text value

/-- `value is None or value > limit`. -/
def missingOrAbove (value : Option Decimal) (limit : Decimal) : Bool :=
  value.all (limit < ·)

def pollAgeItems (facts : DatabaseHealthFacts) : List HealthItem :=
  let detail := "max_age_seconds=" ++ optionalText facts.stalePollSeconds
  if facts.activeLeaders = 0 then [.warning "COPY_NO_ACTIVE_LEADERS" "active=0"]
  else if missingOrAbove facts.stalePollSeconds 120 then [.pausing "COPY_POLL_STALE" detail]
  else itemWhen (missingOrAbove facts.stalePollSeconds 75) (.warning "COPY_POLL_DELAYED" detail)

def slotItems (facts : DatabaseHealthFacts) : List HealthItem :=
  itemWhen (facts.assignedSlots ≠ 3) (.warning "COPY_LEADER_SLOTS_INCOMPLETE"
    ("assigned=" ++ toString facts.assignedSlots ++ ":expected=3"))

def pollFailureItems (facts : DatabaseHealthFacts) : List HealthItem :=
  let detail := "latest_failures=" ++ toString facts.latestPollFailures
  if max 1 facts.activeLeaders ≤ facts.latestPollFailures then
    [.pausing "COPY_PUBLIC_POLL_FAILURES" detail]
  else itemWhen (facts.latestPollFailures ≠ 0) (.warning "COPY_PUBLIC_POLL_PARTIAL_FAILURE" detail)

def countItems (count : ℕ) (label : String) (item : String → HealthItem) :
    List HealthItem :=
  itemWhen (count ≠ 0) (item (label ++ toString count))

def executionFailureItems (facts : DatabaseHealthFacts) : List HealthItem :=
  countItems facts.failedSignalsLastHour "last_hour="
    (.graded (3 ≤ facts.failedSignalsLastHour) "COPY_RECENT_EXECUTION_FAILURES")

def minimumRejectionItems (facts : DatabaseHealthFacts) : List HealthItem :=
  itemWhen (3 ≤ facts.repeatedMinimumRejections) (.warning "COPY_REPEATED_MINIMUM_REJECTIONS"
    ("last_10_minutes=" ++ toString facts.repeatedMinimumRejections))

def outboxItems (facts : DatabaseHealthFacts) : List HealthItem :=
  match facts.oldestPendingNotificationSeconds with
  | none => []
  | some age =>
    itemWhen (facts.pendingNotifications ≠ 0 ∧ 120 < age)
      (.graded (600 < age) "COPY_TELEGRAM_OUTBOX_STALLED"
        ("pending=" ++ toString facts.pendingNotifications ++ ":oldest_seconds=" ++
          DecimalFormat.text age))

def ageItems (age : Option Decimal) (limit : Decimal) (code : String) : List HealthItem :=
  itemWhen (missingOrAbove age limit) (.warning code ("age_hours=" ++ optionalText age))

def codexAuditItems (facts : DatabaseHealthFacts) : List HealthItem :=
  if missingOrAbove facts.latestCodexAuditAgeHours 2 then
    [.warning "COPY_CODEX_AUDIT_STALE" ("age_hours=" ++ optionalText facts.latestCodexAuditAgeHours)]
  else itemWhen (facts.latestCodexAuditState = some "FAILED")
    (.warning "COPY_CODEX_AUDIT_REPORTED_FAILURE" "latest_state=FAILED")

def accountItems (facts : DatabaseHealthFacts) (account : CopyAccountSnapshot) :
    List HealthItem :=
  itemWhen (!account.canTrade) (.pausing "COPY_ACCOUNT_TRADING_DISABLED" "can_trade=false") ++
    itemWhen (!account.hedgeMode) (.graded (facts.controlState = .running)
      "COPY_HEDGE_MODE_NOT_READY" "hedge_mode=false")

def riskItems (account : CopyAccountSnapshot) (now : Time) : List HealthItem :=
  let risk := evaluateAccountRisk {} account .reduce now
  let detail := "logical_margin=" ++ DecimalFormat.text account.marginBalanceUsdt
  if risk.reduceAllRequired then [.flattening "COPY_ACCOUNT_EMERGENCY_RISK_LINE" detail]
  else itemWhen (risk.pauseNewEntries && account.hedgeMode && account.canTrade)
    (.advisory "COPY_ACCOUNT_WARNING_RISK_LINE" detail)

def reconciliationTolerance : Decimal := 1 / 100000000

def explainedByPendingEntry (facts : DatabaseHealthFacts) (pair : String × PositionSide)
    (difference : Decimal) : Bool :=
  let pendingAllowance := facts.pendingEntryAllowances.quantity pair
  0 < difference ∧ 0 < pendingAllowance ∧ difference ≤ pendingAllowance + reconciliationTolerance

def mismatchItem (pair : String × PositionSide) (virtualQuantity exchangeQuantity : Decimal) :
    HealthItem :=
  .pausing "COPY_POSITION_RECONCILIATION_MISMATCH"
    (pair.1 ++ ":" ++ pair.2.text ++ ":virtual=" ++ DecimalFormat.text virtualQuantity ++
      ":exchange=" ++ DecimalFormat.text exchangeQuantity)

def pairItems (facts : DatabaseHealthFacts) (exchange : ExchangePositions)
    (pair : String × PositionSide) : List HealthItem :=
  let virtualQuantity := facts.virtualPositions.quantity pair
  let exchangeQuantity := exchange.quantity pair
  let difference := exchangeQuantity - virtualQuantity
  itemWhen (reconciliationTolerance < |difference| ∧ ¬ explainedByPendingEntry facts pair difference)
    (mismatchItem pair virtualQuantity exchangeQuantity)

/-- `sorted(keys)`. -/
def reconciledKeys (facts : DatabaseHealthFacts) (exchange : ExchangePositions) :
    List (String × PositionSide) :=
  (facts.virtualPositions.entries.map Prod.fst ++
    exchange.entries.map Prod.fst).dedup.insertionSort fun left right =>
      pairOrder left ≤ pairOrder right

def reconciliationItems (facts : DatabaseHealthFacts) (exchange : ExchangePositions) :
    List HealthItem :=
  (reconciledKeys facts exchange).flatMap (pairItems facts exchange)

def serviceItems (host : HostHealthFacts) : List HealthItem :=
  ["aiq-copy-poller.service", "aiq-copy-telegram.service"].flatMap fun unit =>
    let state := (host.serviceStates unit).getD "unknown"
    itemWhen (state ≠ "active") (.pausing "COPY_REQUIRED_SERVICE_INACTIVE"
      ("unit=" ++ unit ++ ":state=" ++ state))

def userStreamItems (host : HostHealthFacts) : List HealthItem :=
  match host.userStreamUnit with
  | none => []
  | some unit =>
    let state := (host.serviceStates unit).getD "unknown"
    itemWhen (state ≠ "active") (.warning "COPY_TESTNET_USER_STREAM_INACTIVE"
      ("unit=" ++ unit ++ ":state=" ++ state))

def gibibyte : ℕ := 1024 ^ 3

def diskItems (host : HostHealthFacts) : List HealthItem :=
  let detail := "free_bytes=" ++ toString host.rootFreeBytes ++ ":free_pct=" ++
    DecimalFormat.text host.rootFreePercent
  if host.rootFreeBytes < 2 * gibibyte ∨ host.rootFreePercent < 2 then
    [.pausing "COPY_HOST_DISK_CRITICAL" detail]
  else itemWhen (host.rootFreeBytes < 10 * gibibyte ∨ host.rootFreePercent < 10)
    (.warning "COPY_HOST_DISK_LOW" detail)

def memoryItems (host : HostHealthFacts) : List HealthItem :=
  let detail := "available_bytes=" ++ toString host.memoryAvailableBytes
  if host.memoryAvailableBytes < 256 * 1024 ^ 2 then
    [.pausing "COPY_HOST_MEMORY_CRITICAL" detail]
  else itemWhen (host.memoryAvailableBytes < 512 * 1024 ^ 2)
    (.warning "COPY_HOST_MEMORY_LOW" detail)

def backupItems (host : HostHealthFacts) : List HealthItem :=
  match host.backupAgeHours with
  | none => [.warning "COPY_DATABASE_BACKUP_MISSING" "latest_verified_backup=missing"]
  | some age =>
    let detail := "age_hours=" ++ DecimalFormat.text age
    if 72 < age then [.pausing "COPY_DATABASE_BACKUP_CRITICAL" detail]
    else itemWhen (36 < age) (.warning "COPY_DATABASE_BACKUP_STALE" detail)

def hostItems (host : HostHealthFacts) : List HealthItem :=
  serviceItems host ++ userStreamItems host ++ diskItems host ++ memoryItems host ++
    backupItems host

/-- The findings of `evaluate_health` in its order. -/
def healthItems (facts : DatabaseHealthFacts) (account : CopyAccountSnapshot)
    (exchange : ExchangePositions) (now : Time) (host : Option HostHealthFacts) :
    List HealthItem :=
  pollAgeItems facts ++ slotItems facts ++ pollFailureItems facts ++
    countItems facts.historyGapFailures "latest_gaps=" (.pausing "COPY_PUBLIC_HISTORY_GAP") ++
    countItems facts.uncertainSignals "count=" (.pausing "COPY_UNCERTAIN_SUBMISSIONS") ++
    executionFailureItems facts ++ minimumRejectionItems facts ++
    countItems facts.overduePendingEntries "count=" (.pausing "COPY_PROTECTED_ENTRY_OVERDUE") ++
    countItems facts.overdueSlotReplacements "count="
      (.warning "COPY_SLOT_REPLACEMENT_RECONCILE_OVERDUE") ++
    countItems facts.deadNotifications "count=" (.warning "COPY_DEAD_TELEGRAM_NOTIFICATIONS") ++
    outboxItems facts ++
    ageItems facts.shortSelectionAgeHours 36 "COPY_SHORT_SELECTION_STALE" ++
    ageItems facts.longSelectionAgeHours 192 "COPY_LONG_SELECTION_STALE" ++
    codexAuditItems facts ++ accountItems facts account ++ riskItems account now ++
    reconciliationItems facts exchange ++ host.elim [] hostItems

def HealthItem.escalate (requested : Option RuntimeControlState) (item : HealthItem) :
    Option RuntimeControlState :=
  match item.request with
  | none => requested
  | some candidate => some (strongerControl requested candidate)

def requestedControl (items : List HealthItem) : Option RuntimeControlState :=
  items.foldl HealthItem.escalate none

def evaluateHealth (facts : DatabaseHealthFacts) (account : CopyAccountSnapshot)
    (exchange : ExchangePositions) (now : Time) (host : Option HostHealthFacts) : HealthReport :=
  let items := healthItems facts account exchange now host
  let findings := items.map (·.finding)
  { state :=
      if findings.any (·.severity = .critical) then .failed
      else if findings ≠ [] then .degraded
      else .healthy
    findings := findings
    requestedControl := requestedControl items }

end Checks

/-! ### The resume predicates -/

def reconciliationMismatchReasons : List String := ["COPY_POSITION_RECONCILIATION_MISMATCH"]

def safeReconciliationResumeFindings : List String := ["COPY_CODEX_AUDIT_REPORTED_FAILURE"]

def transientServicePauseReasons : List String :=
  ["COPY_REQUIRED_SERVICE_INACTIVE", "COPY_TESTNET_USER_STREAM_INACTIVE"]

def resolvedReconciliationPauseCanResume (current : RuntimeControl) (report : HealthReport)
    (facts : DatabaseHealthFacts) (hasRecoverableSignals : Bool) : Bool :=
  current.state = .pausedNewEntries ∧ current.actorId = "deterministic-watchdog" ∧
    current.reasonCodes.toFinset = reconciliationMismatchReasons.toFinset ∧
    report.state ≠ .failed ∧
    (∀ finding ∈ report.findings, finding.code ∈ safeReconciliationResumeFindings) ∧
    report.requestedControl = none ∧ facts.pendingEntryAllowances.entries = [] ∧
    hasRecoverableSignals = false

def retiredAccountRiskPauseCanResume (current : RuntimeControl) (report : HealthReport) : Bool :=
  current.state = .pausedNewEntries ∧ current.actorId = "account-risk-engine" ∧
    (∀ code ∈ current.reasonCodes,
      code ∈ ["COPY_ACCOUNT_WARNING_RISK_LINE", "COPY_ACCOUNT_EMERGENCY_RISK_LINE"]) ∧
    report.requestedControl = none

def resolvedServicePauseCanResume (current : RuntimeControl) (report : HealthReport) : Bool :=
  current.state = .pausedNewEntries ∧ current.actorId = "deterministic-watchdog" ∧
    (∃ code ∈ current.reasonCodes, code ∈ transientServicePauseReasons) ∧
    (∀ code ∈ current.reasonCodes,
      code ∈ transientServicePauseReasons ++ safeReconciliationResumeFindings) ∧
    report.state ≠ .failed ∧
    (∀ finding ∈ report.findings, finding.code ∈ safeReconciliationResumeFindings) ∧
    report.requestedControl = none

/-! ### The run -/

structure ControlAppend where
  state : RuntimeControlState
  actorId : String
  reasonCodes : List String
deriving DecidableEq

def requestedAppend (current : RuntimeControl) (report : HealthReport)
    (requested : RuntimeControlState) : Option ControlAppend :=
  if (requested = .reduceAll ∧ current.state ≠ .reduceAll) ∨
      (requested = .pausedNewEntries ∧ current.state = .running) then
    some ⟨requested, "deterministic-watchdog", report.findings.map (·.code)⟩
  else none

def resumeAppend (current : RuntimeControl) : ControlAppend :=
  if current.actorId = "account-risk-engine" then
    ⟨.running, "codex-risk-policy-repair", ["COPY_ACCOUNT_RISK_AUTOMATION_REMOVED_AUTO_RESUME"]⟩
  else if ∃ code ∈ current.reasonCodes, code ∈ transientServicePauseReasons then
    ⟨.running, "deterministic-watchdog-recovery", ["COPY_REQUIRED_SERVICE_RECOVERED_AUTO_RESUME"]⟩
  else
    ⟨.running, "codex-reconciliation-repair", ["COPY_RECONCILIATION_VERIFIED_AUTO_RESUME"]⟩

/-- What the run asks outside the tables of the model: the clock, the counts and ages of
`read_facts`, the account with its positions as the exchange reports them, the host. -/
inductive WatchdogQuery where
  | clock
  | facts
  | account (observedAt : Time)
  | host

abbrev WatchdogQuery.Reply : WatchdogQuery → Type
  | .clock => Time
  | .facts => DatabaseHealthFacts
  | .account _ => Except ReadFailure (CopyAccountSnapshot × ExchangePositions)
  | .host => HostHealthFacts

abbrev Watchdog := Proc EventLog WatchdogQuery WatchdogQuery.Reply

def appendControl (append : ControlAppend) (now : Time) : Watchdog Unit :=
  .write (·.appendRuntimeControl append.state append.actorId append.reasonCodes now)

section Run

variable [HexOrder] [DecimalFormat]

/-- The control events of `main`, from the report on. -/
def applyReport (facts : DatabaseHealthFacts) (report : HealthReport) (now : Time) :
    Watchdog Unit := do
  let current ← Proc.read (·.latestRuntimeControl)
  match report.requestedControl with
  | some requested =>
    match requestedAppend current report requested with
    | some append => appendControl append now
    | none => pure ()
  | none =>
    if retiredAccountRiskPauseCanResume current report ||
        resolvedServicePauseCanResume current report then
      appendControl (resumeAppend current) now
    else do
      let recoverable ← Proc.read (·.recoverableSignals 1)
      if resolvedReconciliationPauseCanResume current report facts (!recoverable.isEmpty) then
        appendControl (resumeAppend current) now
      else pure ()

/-- `main` of the watchdog after it has read the clock.  It returns its report. -/
def watchdogAt (now : Time) : Watchdog HealthReport := do
  let facts ← Proc.question WatchdogQuery.facts
  match ← Proc.question (WatchdogQuery.account now) with
  | .error _ => Proc.halt
  | .ok (account, exchange) =>
    let host ← Proc.question WatchdogQuery.host
    let report := evaluateHealth facts account exchange now (some host)
    applyReport facts report now
    return report

/-- `main` of the watchdog. -/
def watchdog : Watchdog HealthReport := do
  let now ← Proc.question WatchdogQuery.clock
  watchdogAt now

end Run

end AiQuant.CopyTrading
