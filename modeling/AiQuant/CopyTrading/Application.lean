import AiQuant.CopyTrading.Signals

/-! Processing of one signal (`_process_signal` of `copy_trading/application.py`) with
everything it calls.  The catalog and the account are questions; an exception that
leaves `_process_signal` stops the procedure. -/
namespace AiQuant.CopyTrading
open AiQuant.Lib

inductive CopyRuntimeMode where
  | observe | shadow | testnet | production

def CopyRuntimeMode.executionEnabled : CopyRuntimeMode → Bool
  | .testnet => true
  | .production => true
  | _ => false

/-- `mode.value.upper()`. -/
def CopyRuntimeMode.text : CopyRuntimeMode → String
  | .observe => "OBSERVE"
  | .shadow => "SHADOW"
  | .testnet => "TESTNET"
  | .production => "PRODUCTION"

def RuntimeControlState.text : RuntimeControlState → String
  | .running => "RUNNING"
  | .pausedNewEntries => "PAUSED_NEW_ENTRIES"
  | .reduceAll => "REDUCE_ALL"

structure LeaderAssignment where
  leadPortfolioId : String
  nickname : String
  lifecycle : LeaderLifecycle
  sourceAumUsdt : Decimal
  portfolioWeight : Decimal
  followMultiplier : ℕ

structure RuntimeSettings where
  mode : CopyRuntimeMode := .testnet
  executor : ExecutorSettings := {}
  allocationPolicy : PortfolioAllocationPolicy := {}

/-- `_operator_flatten` of a `REDUCE_ALL` control. -/
def RuntimeControl.operatorFlattens (control : RuntimeControl) : Bool :=
  control.state = .reduceAll && control.actorId.startsWith "telegram:" &&
    "TELEGRAM_REDUCE_ALL" ∈ control.reasonCodes

def CopyExecutionReceipt.fillPriceDetailsPending (receipt : CopyExecutionReceipt) : Bool :=
  receipt.averagePrice ≤ 0 && "COPY_FILL_PRICE_PENDING" ∈ receipt.reasonCodes

structure EntryBlock where
  state : DecisionState
  reason : String
  cancellation : String

def stopCancellation : String := "COPY_PROTECTED_LIMIT_CANCELLED_BY_LEADER_SYMBOL_STOP"
def controlCancellation : String := "COPY_PROTECTED_LIMIT_CANCELLED_BY_CONTROL"
def drainingCancellation : String := "COPY_PROTECTED_LIMIT_CANCELLED_BY_LEADER_DRAINING"
def sourceReductionCancellation : String := "COPY_PROTECTED_LIMIT_CANCELLED_BY_SOURCE_REDUCTION"

/-- The codes of a rejected receipt after which a blocked entry counts as cancelled. -/
def blockedCancellations : List String :=
  ["COPY_PROTECTED_LIMIT_EXPIRED", controlCancellation, drainingCancellation, stopCancellation,
    "COPY_PROTECTED_LIMIT_CANCELLED_EXTERNALLY"]

def entryBlock (mode : CopyRuntimeMode) (signal : NormalizedSignal)
    (assignment : LeaderAssignment) (control : RuntimeControl) (stopped : Bool) :
    Option EntryBlock :=
  if signal.kind ≠ .increase then none
  else if stopped then
    some ⟨.riskRejected, "COPY_LEADER_SYMBOL_ENTRY_COOLDOWN_ACTIVE", stopCancellation⟩
  else if mode.executionEnabled ∧ control.state ≠ .running then
    some ⟨.riskRejected, "COPY_NEW_ENTRIES_" ++ control.state.text, controlCancellation⟩
  else if assignment.lifecycle = .draining then
    some ⟨.ignoredDraining,
      if assignment.nickname = "recovered-unassigned" then
        "COPY_RECOVERED_LEADER_NO_LONGER_ASSIGNED" else "COPY_LEADER_DRAINING_NO_NEW_ENTRY",
      drainingCancellation⟩
  else none

/-- The final decision for a receipt in state `REJECTED`. -/
def rejectedDecision (reasonCodes : List String) : DecisionState :=
  if reasonCodes.any (· ∈ sourceReductionCancellation :: blockedCancellations) then .cancelled
  else if "COPY_TRADIFI_AGREEMENT_REQUIRED" ∈ reasonCodes then .riskRejected
  else .failed

def entryLimitPrice (signal : NormalizedSignal) (rules : SymbolTradingRules) :
    Except String (Option Decimal) :=
  if signal.kind = .increase then
    match protectedEntryPrice signal rules.priceTick with
    | none => .error "copy protected price is below one exchange tick"
    | some price => .ok (some price)
  else .ok none

def recordDecision (signal : NormalizedSignal) (state : DecisionState) (localQuantity : Decimal)
    (reasonCodes : List String) (occurredAt : Time) : Engine Unit :=
  writeLog (·.recordSignalDecision signal state localQuantity reasonCodes occurredAt)

/-- `_symbol_rules`, the limit price and the logical account, in the order they are read. -/
def readMarket (signal : NormalizedSignal) (now : Time) :
    Engine (Except ReadFailure (SymbolTradingRules × Option Decimal × CopyAccountSnapshot)) := do
  match ← Proc.question (Query.symbolRules signal.symbol) with
  | .error failure => return .error failure
  | .ok rules =>
    match entryLimitPrice signal rules with
    | .error reason => return .error (.rejected reason)
    | .ok limitPrice =>
      match ← Proc.question (Query.accountSnapshot now) with
      | .error failure => return .error failure
      | .ok account => return .ok (rules, limitPrice, account)

section Process

variable [HexOrder]

/-- `record_virtual_position`, which raises when its transaction is refused. -/
def recordVirtualPosition (fill : FillRecord) : Engine Unit := do
  let recorded ← Proc.transact fun world =>
    match world.log.recordVirtualPosition fill with
    | .ok log => (true, { world with log := log })
    | .error _ => (false, world)
  if recorded then pure () else Proc.halt

def recordIncreaseFill (signal : NormalizedSignal) (receipt : CopyExecutionReceipt)
    (occurredAt : Time) : Engine Bool :=
  if receipt.requestedQuantity ≤ 0 ∨ receipt.filledQuantity ≤ 0 ∨
      receipt.requestedQuantity < receipt.filledQuantity ∨ receipt.averagePrice ≤ 0 then
    pure false
  else do
    let ledger ← readLog (·.loadVirtualLedger)
    match ledger.recordIncreaseFill signal receipt.filledQuantity
        (some (signal.sourceDeltaQuantity *
          (receipt.filledQuantity / receipt.requestedQuantity))) with
    | .error _ => Proc.halt
    | .ok (updated, _) =>
      recordVirtualPosition {
        signal := signal
        previous := ledger.positionFor signal
        updated := updated
        referencePrice := receipt.averagePrice
        leverage := receipt.leverage
        occurredAt := occurredAt }
      recordDecision signal .filled receipt.filledQuantity receipt.reasonCodes occurredAt
      return true

def attributeEntry (signal : NormalizedSignal) (receipt : CopyExecutionReceipt)
    (occurredAt : Time) : Engine Unit := do
  let attributed ← recordIncreaseFill signal receipt occurredAt
  if attributed then pure ()
  else
    recordDecision signal .uncertain receipt.requestedQuantity
      ["COPY_ENTRY_FILL_ATTRIBUTION_FAILED"] occurredAt

def attributeReduction (signal : NormalizedSignal) (ledger : VirtualPositionLedger)
    (plan : ReductionPlan) (receipt : CopyExecutionReceipt) (occurredAt : Time) : Engine Unit :=
  if plan.requestedLocalQuantity ≠ receipt.requestedQuantity then
    recordDecision signal .uncertain receipt.requestedQuantity
      ["COPY_RECOVERED_REDUCTION_PLAN_CHANGED"] occurredAt
  else match ledger.recordReductionFill plan receipt.filledQuantity with
    | .error _ => Proc.halt
    | .ok (updated, _) => do
      recordVirtualPosition {
        signal := signal
        previous := ledger.positionFor signal
        updated := updated
        referencePrice := receipt.averagePrice
        leverage := receipt.leverage
        occurredAt := occurredAt }
      recordDecision signal .filled receipt.filledQuantity receipt.reasonCodes occurredAt

def recordBlockedClaimResult (signal : NormalizedSignal) (receipt : CopyExecutionReceipt)
    (occurredAt : Time) : Engine Unit :=
  if receipt.isTerminal then
    if receipt.fillPriceDetailsPending then
      recordDecision signal .submitted receipt.requestedQuantity receipt.reasonCodes occurredAt
    else attributeEntry signal receipt occurredAt
  else if receipt.state = .rejected ∧ receipt.reasonCodes.any (· ∈ blockedCancellations) then
    recordDecision signal .cancelled receipt.requestedQuantity receipt.reasonCodes occurredAt
  else recordDecision signal .uncertain receipt.requestedQuantity receipt.reasonCodes occurredAt

/-- The decisions after `execute`, with `onFill` for a fill that is final and
priced. -/
def recordOutcome (signal : NormalizedSignal) (receipt : CopyExecutionReceipt)
    (onFill : CopyExecutionReceipt → Time → Engine Unit) (occurredAt : Time) : Engine Unit :=
  if receipt.isTerminal then
    if receipt.filledQuantity ≤ 0 then
      recordDecision signal .uncertain receipt.requestedQuantity
        ["COPY_ORDER_TERMINAL_WITHOUT_FILL"] occurredAt
    else if receipt.averagePrice ≤ 0 then
      if receipt.fillPriceDetailsPending then pure ()
      else recordDecision signal .uncertain receipt.requestedQuantity
        ["COPY_ORDER_TERMINAL_WITHOUT_FILL_PRICE"] occurredAt
    else onFill receipt occurredAt
  else match receipt.state with
    | .partiallyFilled =>
      recordDecision signal .uncertain receipt.requestedQuantity receipt.reasonCodes occurredAt
    | .unknown =>
      recordDecision signal .uncertain receipt.requestedQuantity receipt.reasonCodes occurredAt
    | .acknowledged => pure ()
    | _ =>
      recordDecision signal (rejectedDecision receipt.reasonCodes) receipt.requestedQuantity
        receipt.reasonCodes occurredAt

/-- The `SUBMITTED` decision of an order that was not rejected. -/
def announceSubmission (signal : NormalizedSignal) (receipt : CopyExecutionReceipt) (now : Time) :
    Engine Unit :=
  if receipt.state = .rejected then pure ()
  else recordDecision signal .submitted receipt.requestedQuantity
    (if resubmittedReason ∈ receipt.reasonCodes then [resubmittedReason] else []) now

variable (settings : RuntimeSettings)

/-- The end of `_process_signal`: the risk decision, the order and its outcome. -/
def submitSignal (signal : NormalizedSignal) (order : CopyMarketOrder) (localQuantity : Decimal)
    (risk : AccountRiskDecision) (onFill : CopyExecutionReceipt → Time → Engine Unit)
    (now : Time) : Engine Unit :=
  if settings.mode.executionEnabled = false then
    recordDecision signal .shadowOnly localQuantity ["COPY_RUNTIME_" ++ settings.mode.text] now
  else if risk.allowExecution = false then
    recordDecision signal .riskRejected localQuantity risk.reasonCodes now
  else do
    let receipt ← execute settings.executor order risk
    announceSubmission signal receipt now
    let clockAt ← clock
    recordOutcome signal receipt onFill (max clockAt (now + 1))

def applyRiskControl (risk : AccountRiskDecision) (now : Time) : Engine Unit :=
  if settings.mode.executionEnabled = false then pure ()
  else do
    let control ← readLog (·.latestRuntimeControl)
    if risk.reduceAllRequired ∧ control.state ≠ .reduceAll then
      writeLog (·.appendRuntimeControl .reduceAll "account-risk-engine" risk.reasonCodes now)
    else if risk.pauseNewEntries ∧ control.state = .running then
      writeLog (·.appendRuntimeControl .pausedNewEntries "account-risk-engine" risk.reasonCodes
        now)
    else pure ()

/-- One pending entry of `_cancel_superseded_entries`. -/
def cancelEntry (entry : NormalizedSignal) (now : Time) : Engine Bool := do
  let receipt ← cancelPendingIncrease settings.executor entry sourceReductionCancellation
  if receipt.isTerminal then recordIncreaseFill entry receipt now
  else if receipt.state = .rejected ∧ sourceReductionCancellation ∈ receipt.reasonCodes then do
    recordDecision entry .cancelled receipt.requestedQuantity receipt.reasonCodes now
    return true
  else do
    recordDecision entry .uncertain receipt.requestedQuantity receipt.reasonCodes now
    return false

def cancelEntries (now : Time) : List NormalizedSignal → Engine Bool
  | [] => pure true
  | entry :: entries => do
    if ← cancelEntry settings entry now then cancelEntries now entries else return false

/-- The pages of `_cancel_superseded_entries`; an empty page is a last page too. -/
def cancelPages (key : VirtualPositionKey) (now : Time) : ℕ → Engine Bool
  | 0 => pure false
  | pages + 1 => do
    let pending ← readLog (·.pendingIncreaseSignals key 100)
    if ← cancelEntries settings now pending then
      if pending.length < 100 then return true else cancelPages key now pages
    else return false

def cancelSupersededEntries (reduction : NormalizedSignal) (now : Time) : Engine Bool :=
  cancelPages settings reduction.key now 10

def resolveSuperseded (reduction : NormalizedSignal) (sourceBefore : Option Decimal)
    (now : Time) : Engine Bool :=
  if settings.mode.executionEnabled ∧ sourceBefore.all (· ≤ reduction.sourceDeltaQuantity) then
    cancelSupersededEntries settings reduction now
  else pure true

def processEntry (signal : NormalizedSignal) (assignment : LeaderAssignment)
    (claimed : Option CopyMarketOrder) (rules : SymbolTradingRules) (limitPrice : Decimal)
    (account : CopyAccountSnapshot) (risk : AccountRiskDecision) (now : Time) : Engine Unit :=
  match claimed with
  | some order =>
    submitSignal settings signal order order.localQuantity risk (attributeEntry signal) now
  | none => do
    let usage ← readLog (·.portfolioUsage signal.leadPortfolioId signal.symbol
      account.marginBalanceUsdt account.availableBalanceUsdt rules.currentLeverage)
    let leader : LeaderAllocation := {
      leadPortfolioId := assignment.leadPortfolioId
      sourceAumUsdt := assignment.sourceAumUsdt
      portfolioWeight := assignment.portfolioWeight
      followMultiplier := assignment.followMultiplier }
    if ¬ (usage.Valid ∧ leader.Valid) then Proc.halt
    else
      let sizing := sizeIncrease settings.allocationPolicy signal limitPrice leader usage rules
      if sizing.approved = false then
        recordDecision signal
          (if sizing.reasonCodes.any fun code => "MINIMUM".toList <:+: code.toList then
            .ignoredMinimum else .riskRejected) 0 sizing.reasonCodes now
      else
        match CopyMarketOrder.create signal sizing.localQuantity sizing.leverage .limit
            (some limitPrice) none with
        | none => Proc.halt
        | some order =>
          submitSignal settings signal order sizing.localQuantity risk (attributeEntry signal) now

def processReduction (signal : NormalizedSignal) (claimed : Option CopyMarketOrder)
    (rules : SymbolTradingRules) (risk : AccountRiskDecision) (now : Time) : Engine Unit := do
  let sourceBefore ← readLog (·.sourcePositionQuantityBefore signal)
  let resolved ← resolveSuperseded settings signal sourceBefore now
  if resolved = false then
    recordDecision signal .uncertain 0 ["COPY_PENDING_ENTRY_CANCEL_UNRESOLVED"] now
  else
    let ledger ← readLog (·.loadVirtualLedger)
    let (plan, aligned) := ledger.planReduction signal rules sourceBefore
    if plan.approved = false then
      recordDecision signal .ignoredOrphan 0 plan.reasonCodes now
    else
      match claimed <|> CopyMarketOrder.create signal plan.requestedLocalQuantity
          (min rules.currentLeverage settings.allocationPolicy.maximumLeverage) .market none
          none with
      | none => Proc.halt
      | some order =>
        submitSignal settings signal order plan.requestedLocalQuantity risk
          (attributeReduction signal aligned plan) now

/-- A blocked entry is finished, unless its order is already claimed: then the order is
cancelled and what it filled is attributed. -/
def processBlocked (signal : NormalizedSignal) (claimed : Option CopyMarketOrder)
    (control : RuntimeControl) (block : EntryBlock) (now : Time) : Engine Unit :=
  match claimed with
  | none =>
    if control.operatorFlattens then
      recordDecision signal .cancelled 0 ["COPY_ENTRY_SKIPPED_DURING_OPERATOR_FLATTEN"] now
    else recordDecision signal block.state 0 [block.reason] now
  | some _ => do
    let receipt ← cancelPendingIncrease settings.executor signal block.cancellation
    recordBlockedClaimResult signal receipt now

def processOpen (signal : NormalizedSignal) (assignment : LeaderAssignment)
    (claimed : Option CopyMarketOrder) (now : Time) : Engine Unit := do
  match ← readMarket signal now with
  | .error .probe => Proc.halt
  | .error (.rejected reason) => recordDecision signal .riskRejected 0 [reason] now
  | .ok (rules, limitPrice, account) =>
    let risk := evaluateAccountRisk {} account signal.kind now
    applyRiskControl settings risk now
    match limitPrice with
    | some limitPrice =>
      processEntry settings signal assignment claimed rules limitPrice account risk now
    | none => processReduction settings signal claimed rules risk now

def executorClaim (signal : NormalizedSignal) : Engine (Option CopyMarketOrder) :=
  if settings.mode.executionEnabled then claimedOrder signal else pure none

def processSignal (signal : NormalizedSignal) (assignment : LeaderAssignment) : Engine Unit := do
  let now ← clock
  match ← readLog (·.attributedFillQuantity signal.signalId) with
  | .error _ => Proc.halt
  | .ok (some filled) =>
    recordDecision signal .filled filled ["COPY_ATTRIBUTED_FILL_RECOVERED"] now
  | .ok none =>
    let claimed ← executorClaim settings signal
    let control ← readLog (·.latestRuntimeControl)
    let stopped ← readLog fun log => settings.mode.executionEnabled &&
      log.activeLeaderSymbolStop signal.leadPortfolioId signal.symbol now
    match entryBlock settings.mode signal assignment control stopped with
    | some block => processBlocked settings signal claimed control block now
    | none => processOpen settings signal assignment claimed now

end Process

end AiQuant.CopyTrading
