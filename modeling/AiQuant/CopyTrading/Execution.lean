import AiQuant.CopyTrading.Positions
import AiQuant.Lib.Proc

/-! Idempotent execution with protected entries (`copy_trading/execution.py`) over the
submission journal (`copy_trading/postgres.py`).  Every journal method is one
transaction; every call of the exchange client, and every reading of the clock, is a
question.  A question is kept in the trace with the log it was asked on, so that a
run can be judged by the calls it made. -/
namespace AiQuant.CopyTrading
open AiQuant.Lib

/-- A `TestnetProbeError`: an HTTP error with the exchange's code, or any other text. -/
inductive ProbeError where
  | http (operation : String) (status : ℕ) (code : ℤ)
  | other (text : String)
deriving DecidableEq

/-- An item of `position_risk`, as far as it is read. -/
structure PositionRiskItem where
  symbol : Option JsonText
  positionSide : Option JsonText
  positionAmt : DecimalText

structure CopyAccountSnapshot where
  observedAt : Time
  hedgeMode : Bool
  canTrade : Bool
  marginBalanceUsdt : Decimal
  availableBalanceUsdt : Decimal
  totalMaintenanceMarginUsdt : Decimal

/-- How a read of the catalog or of the account fails: with a probe error, which is
raised on, or with an error whose text becomes a rejection. -/
inductive ReadFailure where
  | probe
  | rejected (reason : String)

inductive Query where
  | clock
  | positionMode
  | changeInitialLeverage (symbol : String) (leverage : ℕ)
  | positionRisk (symbol : String)
  | placeOrder (parameters : OrderParameters)
  | queryOrder (symbol clientOrderId : String)
  | cancelOrder (symbol clientOrderId : String)
  | openOrders (symbol : String)
  | symbolRules (symbol : String)
  | accountSnapshot (now : Time)
deriving DecidableEq

/-- The answers.  Of `position_mode` it is read whether `dualSidePosition` is `True`,
of the open orders their client order ids. -/
abbrev Query.Reply : Query → Type
  | .clock => Time
  | .positionMode => Except ProbeError Bool
  | .changeInitialLeverage _ _ => Except ProbeError Unit
  | .positionRisk _ => Except ProbeError (List PositionRiskItem)
  | .placeOrder _ => Except ProbeError OrderResponse
  | .queryOrder _ _ => Except ProbeError OrderResponse
  | .cancelOrder _ _ => Except ProbeError OrderResponse
  | .openOrders _ => Except ProbeError (List JsonText)
  | .symbolRules _ => Except ReadFailure SymbolTradingRules
  | .accountSnapshot _ => Except ReadFailure CopyAccountSnapshot

structure Asked where
  log : EventLog
  query : Query
  reply : query.Reply

structure World where
  log : EventLog
  trace : List Asked

abbrev Engine := Proc World Query Query.Reply

def readLog {α : Type} (query : EventLog → α) : Engine α :=
  .read fun world => query world.log

def writeLog (update : EventLog → EventLog) : Engine Unit :=
  .write fun world => { world with log := update world.log }

/-! The clock and the methods of `HedgeTestnetClient`. -/

def clock : Engine Time :=
  .question Query.clock

def positionMode : Engine (Except ProbeError Bool) :=
  .question Query.positionMode

def changeInitialLeverage (symbol : String) (leverage : ℕ) : Engine (Except ProbeError Unit) :=
  .question (Query.changeInitialLeverage symbol leverage)

def positionRisk (symbol : String) : Engine (Except ProbeError (List PositionRiskItem)) :=
  .question (Query.positionRisk symbol)

def placeOrder (parameters : OrderParameters) : Engine (Except ProbeError OrderResponse) :=
  .question (Query.placeOrder parameters)

def queryOrder (symbol clientOrderId : String) : Engine (Except ProbeError OrderResponse) :=
  .question (Query.queryOrder symbol clientOrderId)

def cancelOrder (symbol clientOrderId : String) : Engine (Except ProbeError OrderResponse) :=
  .question (Query.cancelOrder symbol clientOrderId)

def openOrders (symbol : String) : Engine (Except ProbeError (List JsonText)) :=
  .question (Query.openOrders symbol)

inductive BinanceFuturesEnvironment where
  | testnet | production

inductive CopyExecutionState where
  | acknowledged | partiallyFilled | filled | rejected | unknown | reconciled
deriving DecidableEq

/-- `state.value` as a state of `submission_events`. -/
def CopyExecutionState.submission : CopyExecutionState → SubmissionState
  | .acknowledged => .acknowledged
  | .partiallyFilled => .partiallyFilled
  | .filled => .filled
  | .rejected => .rejected
  | .unknown => .unknown
  | .reconciled => .reconciled

/-- A market order carries no limit policy; a protected limit is an entry with a
positive price. -/
def OrderPolicy (kind : SignalKind) (orderType : CopyOrderType) (limitPrice : Option Decimal)
    (expiresAt : Option Time) : Prop :=
  match orderType with
  | .market => limitPrice = none ∧ expiresAt = none
  | .limit => kind = .increase ∧ limitPrice.any (0 < ·) = true

instance (kind : SignalKind) (orderType : CopyOrderType) (limitPrice : Option Decimal)
    (expiresAt : Option Time) : Decidable (OrderPolicy kind orderType limitPrice expiresAt) :=
  match orderType with
  | .market => inferInstanceAs (Decidable (limitPrice = none ∧ expiresAt = none))
  | .limit => inferInstanceAs (Decidable (kind = .increase ∧ limitPrice.any (0 < ·) = true))

@[ext]
structure CopyMarketOrder where
  signal : NormalizedSignal
  localQuantity : Decimal
  leverage : ℕ
  orderType : CopyOrderType
  limitPrice : Option Decimal
  expiresAt : Option Time
  localQuantity_pos : 0 < localQuantity
  leverage_pos : 1 ≤ leverage
  leverage_le : leverage ≤ 125
  policy : OrderPolicy signal.kind orderType limitPrice expiresAt

instance : DecidableEq CopyMarketOrder := fun _ _ =>
  decidable_of_iff _ CopyMarketOrder.ext_iff.symm

-- The bounds that sample orders and rules carry: one unit, five USDT, leverage twenty.
theorem one_unit_pos : (0 : Decimal) < 1 := by norm_num

theorem five_usdt_pos : (0 : Decimal) < 5 := by norm_num

theorem one_le_leverage_twenty : 1 ≤ 20 := by norm_num

theorem twenty_le_leverage_limit : 20 ≤ 125 := by norm_num

/-- The constructor of `CopyMarketOrder`, whose checks raise. -/
def CopyMarketOrder.create (signal : NormalizedSignal) (localQuantity : Decimal) (leverage : ℕ)
    (orderType : CopyOrderType) (limitPrice : Option Decimal) (expiresAt : Option Time) :
    Option CopyMarketOrder :=
  if hvalid : 0 < localQuantity ∧ 1 ≤ leverage ∧ leverage ≤ 125 ∧
      OrderPolicy signal.kind orderType limitPrice expiresAt then
    some {
      signal := signal
      localQuantity := localQuantity
      leverage := leverage
      orderType := orderType
      limitPrice := limitPrice
      expiresAt := expiresAt
      localQuantity_pos := hvalid.1
      leverage_pos := hvalid.2.1
      leverage_le := hvalid.2.2.1
      policy := hvalid.2.2.2 }
  else none

theorem create_signal {sig : NormalizedSignal} {amount : Decimal} {leverage : ℕ}
    {orderType : CopyOrderType} {limitPrice : Option Decimal} {expiresAt : Option Time}
    {ord : CopyMarketOrder} (hc : CopyMarketOrder.create sig amount leverage
      orderType limitPrice expiresAt = some ord) : ord.signal = sig := by
  unfold CopyMarketOrder.create at hc
  split at hc
  · cases hc
    rfl
  · cases hc

theorem create_localQuantity {sig : NormalizedSignal} {amount : Decimal} {leverage : ℕ}
    {orderType : CopyOrderType} {limitPrice : Option Decimal} {expiresAt : Option Time}
    {ord : CopyMarketOrder} (hc : CopyMarketOrder.create sig amount leverage
      orderType limitPrice expiresAt = some ord) : ord.localQuantity = amount := by
  unfold CopyMarketOrder.create at hc
  split at hc
  · cases hc
    rfl
  · cases hc

structure CopyExecutionReceipt where
  signalId : Digest
  clientOrderId : String
  state : CopyExecutionState
  requestedQuantity : Decimal
  leverage : ℕ
  filledQuantity : Decimal
  averagePrice : Decimal
  exchangeOrderId : Option String
  reasonCodes : List String
deriving DecidableEq

/-- What `lookup` returns: the claim with its upgrade and its latest submission. -/
structure SubmissionClaim where
  signalId : Digest
  clientOrderId : String
  requestHash : Digest
  requestedQuantity : Option Decimal
  leverage : Option ℕ
  orderType : CopyOrderType
  limitPrice : Option Decimal
  expiresAt : Option Time
  requestHashVersion : ℕ
  claimedAt : Time
  policyUpgraded : Bool

/-- The last `count` hexadecimal digits of a number. -/
def hexDigits : ℕ → ℕ → List Char
  | 0, _ => []
  | count + 1, value => hexDigits count (value / 16) ++ [Nat.digitChar (value % 16)]

section Journal

variable [HexOrder]

/-- `signal_id[:28]`: the leading digits of the 64. -/
def digestHead (digest : Digest) : String :=
  String.ofList (hexDigits 28 (HexOrder.value digest / 16 ^ 36))

def copyClientOrderId (signalId : Digest) : BinanceFuturesEnvironment → String
  | .testnet => "aqc-t-" ++ digestHead signalId
  | .production => "aqc-p-" ++ digestHead signalId

def copyGtcUpgradeClientOrderId (signalId : Digest) : BinanceFuturesEnvironment → String
  | .testnet => "aqg-t-" ++ digestHead signalId
  | .production => "aqg-p-" ++ digestHead signalId

/-- `_order_parameters`; a good-till date is in whole seconds. -/
def orderParameters (order : CopyMarketOrder) (clientOrderId : String) : OrderParameters where
  symbol := order.signal.symbol
  side := exchangeOrderSide order.signal
  positionSide := order.signal.positionSide
  orderType := order.orderType
  quantity := order.localQuantity
  newClientOrderId := clientOrderId
  price := if order.orderType = .limit then order.limitPrice else none
  timeInForce :=
    if order.orderType = .limit then
      match order.expiresAt with
      | none => some .gtc
      | some expiresAt => some (.gtd (expiresAt / 1000000 * 1000))
    else none

def CopyMarketOrder.requestHash (order : CopyMarketOrder) (clientOrderId : String) : Digest :=
  .orderRequest (orderParameters order clientOrderId) order.expiresAt

def allowedClientOrderIds (signalId : Digest) (policyUpgraded : Bool) : List String :=
  [copyClientOrderId signalId .testnet, copyClientOrderId signalId .production] ++
    if policyUpgraded then
      [copyGtcUpgradeClientOrderId signalId .testnet,
        copyGtcUpgradeClientOrderId signalId .production] else []

/-- `restored_order`: the claimed request, if the claim is consistent. -/
def SubmissionClaim.restoredOrder (claim : SubmissionClaim) (signal : NormalizedSignal) :
    Option CopyMarketOrder :=
  if claim.signalId ≠ signal.signalId ∨
      claim.clientOrderId ∉ allowedClientOrderIds signal.signalId claim.policyUpgraded then none
  else match claim.requestedQuantity, claim.leverage with
    | some requestedQuantity, some leverage =>
      (CopyMarketOrder.create signal requestedQuantity leverage claim.orderType claim.limitPrice
        claim.expiresAt).filter fun order =>
          claim.requestHashVersion = 1 ||
            (claim.requestHashVersion = 2 &&
              order.requestHash claim.clientOrderId = claim.requestHash)
    | _, _ => none

theorem restoredOrder_signal {claim : SubmissionClaim} {sig : NormalizedSignal}
    {ord : CopyMarketOrder} (hr : claim.restoredOrder sig = some ord) : ord.signal = sig := by
  unfold SubmissionClaim.restoredOrder at hr
  split at hr
  · cases hr
  split at hr
  · rw [Option.filter_eq_some_iff] at hr
    exact create_signal hr.1
  · cases hr

/-- The latest `SUBMITTING` event of a signal. -/
def EventLog.latestSubmitting (log : EventLog) (signalId : Digest) : Option Time :=
  ((log.submissions.filter fun event =>
    event.signalId = signalId && event.state = .submitting).map (·.occurredAt)).max?

/-- `lookup`.  The waiting period restarts with an upgrade and with every `SUBMITTING`
event. -/
def EventLog.lookup (log : EventLog) (signalId : Digest) : Option SubmissionClaim :=
  (log.claims.find? (·.signalId = signalId)).map fun claim =>
    let upgrade := log.policyUpgrades.find? (·.signalId = signalId)
    { signalId := claim.signalId
      clientOrderId := (upgrade.map (·.clientOrderId)).getD claim.clientOrderId
      requestHash := claim.requestHash
      requestHashVersion := if upgrade.isSome then 1 else claim.requestHashVersion
      requestedQuantity := claim.requestedQuantity
      leverage := claim.leverage
      orderType := claim.orderType
      limitPrice := claim.limitPrice
      expiresAt := if upgrade.isSome then none else claim.expiresAt
      claimedAt := max ((upgrade.map (·.occurredAt)).getD claim.claimedAt)
        ((log.latestSubmitting claim.signalId).getD claim.claimedAt)
      policyUpgraded := upgrade.isSome }

/-- `claim`: an atomic insert-if-absent of the claim with its `SUBMITTING` event.  Both
the signal and the client order id are unique; a signal without a claim has no events,
by the foreign key. -/
def EventLog.claim (log : EventLog) (row : SubmissionClaimRow) (submitting : SubmissionEvent) :
    Bool × EventLog :=
  if log.claims.any fun claim =>
      claim.signalId = row.signalId || claim.clientOrderId = row.clientOrderId then
    (false, log)
  else
    (true, { log with
      claims := log.claims ++ [row]
      submissions := log.submissions ++ [submitting] })

/-- `record`: an event that is already there is left alone. -/
def EventLog.recordSubmission (log : EventLog) (event : SubmissionEvent) : EventLog :=
  if log.submissions.any (·.eventId = event.eventId) then log
  else { log with submissions := log.submissions ++ [event] }

def submissionEvent (signalId : Digest) (state : SubmissionState) (occurredAt : Time)
    (filledQuantity : Decimal) (exchangeOrderId : Option String)
    (response : Option OrderResponse) (reasonCodes : List String) : SubmissionEvent where
  eventId := .submissionEvent exchangeOrderId filledQuantity occurredAt response signalId state
  signalId := signalId
  state := state
  filledQuantity := filledQuantity
  exchangeOrderId := exchangeOrderId
  responseHash := response.map .response
  reasonCodes := reasonCodes
  occurredAt := occurredAt

/-- `_record` at the time the clock shows. -/
def recordNow (signalId : Digest) (state : SubmissionState) (filledQuantity : Decimal)
    (exchangeOrderId : Option String) (response : Option OrderResponse)
    (reasonCodes : List String) : Engine Unit := do
  let occurredAt ← clock
  writeLog (·.recordSubmission (submissionEvent signalId state occurredAt filledQuantity
    exchangeOrderId response reasonCodes))

/-- `_rejected_receipt` and `_unknown_receipt`. -/
def emptyReceipt (state : CopyExecutionState) (order : CopyMarketOrder) (clientOrderId : String)
    (reasonCodes : List String) : CopyExecutionReceipt where
  signalId := order.signal.signalId
  clientOrderId := clientOrderId
  state := state
  requestedQuantity := order.localQuantity
  leverage := order.leverage
  filledQuantity := 0
  averagePrice := 0
  exchangeOrderId := none
  reasonCodes := reasonCodes

def unknownSignalReceipt (signal : NormalizedSignal) (clientOrderId reason : String)
    (requestedQuantity : Decimal) (leverage : ℕ) : CopyExecutionReceipt where
  signalId := signal.signalId
  clientOrderId := clientOrderId
  state := .unknown
  requestedQuantity := requestedQuantity
  leverage := leverage
  filledQuantity := 0
  averagePrice := 0
  exchangeOrderId := none
  reasonCodes := [reason]

def mapExchangeState (status : String) (filled : Decimal) (reconciled : Bool) :
    CopyExecutionState × List String :=
  if status = "FILLED" then
    if reconciled then (.reconciled, ["COPY_ORDER_RECONCILED"]) else (.filled, [])
  else if status = "PARTIALLY_FILLED" then (.partiallyFilled, ["COPY_ORDER_PARTIAL_PENDING"])
  else if status = "NEW" then (.acknowledged, [])
  else if status ∈ ["CANCELED", "EXPIRED", "REJECTED"] then
    if 0 < filled then
      (.partiallyFilled, ["COPY_ORDER_PARTIAL_TERMINAL", "COPY_ORDER_" ++ status])
    else (.rejected, ["COPY_ORDER_" ++ status])
  else if 0 < filled then (.unknown, ["COPY_ORDER_STATUS_UNKNOWN_WITH_FILL"])
  else (.unknown, ["COPY_ORDER_STATUS_UNKNOWN"])

def DecimalText.finite? : DecimalText → Option Decimal
  | .finite value => some value
  | _ => none

/-- `_response_average_price` for a finite filled quantity; `none` when it raises.
Comparing a NaN raises, an infinity compares like a number. -/
def responseAveragePrice (response : OrderResponse) (filled : Decimal) : Option DecimalText :=
  let fromQuote : Option DecimalText :=
    match response.cumQuote with
    | .finite quote => some (.finite (if 0 < quote then quote / filled else 0))
    | .infinity true => some (.finite 0)
    | .infinity false => some (.infinity (filled < 0))
    | .nan => none
    | .malformed => none
  match response.avgPrice with
  | .finite average => if 0 < average ∨ filled = 0 then some (.finite average) else fromQuote
  | .infinity false => some (.infinity false)
  | .infinity true => if filled = 0 then some (.infinity true) else fromQuote
  | .nan => none
  | .malformed => none

/-- The status, fill and price of a response that passes the checks of
`_receipt_from_response`. -/
def readResponse (order : CopyMarketOrder) (clientOrderId : String) (response : OrderResponse) :
    Option (String × Decimal × Decimal) := do
  let status ← match response.status with
    | some (.text status) => some status
    | _ => none
  let filled ← response.executedQty.finite?
  let averagePrice ← (← responseAveragePrice response filled).finite?
  if response.clientOrderId = some (.text clientOrderId) ∧ 0 ≤ filled ∧
      filled ≤ order.localQuantity ∧ 0 ≤ averagePrice then
    some (status, filled, averagePrice)
  else none

/-- `code.startswith("COPY_PROTECTED_LIMIT_")`. -/
def isProtectedLimitCode (code : String) : Bool :=
  code.startsWith "COPY_PROTECTED_LIMIT_"

def terminationReasons (order : CopyMarketOrder) (status : String) (reasonCodes : List String) :
    Engine (List String) :=
  if order.orderType = .limit ∧ status ∈ ["CANCELED", "EXPIRED"] ∧
      ¬ reasonCodes.any isProtectedLimitCode then do
    let now ← clock
    if status = "EXPIRED" ∨ order.expiresAt.any (· ≤ now) then
      return reasonCodes ++ ["COPY_PROTECTED_LIMIT_EXPIRED"]
    else return reasonCodes ++ ["COPY_PROTECTED_LIMIT_CANCELLED_EXTERNALLY"]
  else pure reasonCodes

/-- `_receipt_from_response`: a receipt together with its journal event. -/
def receiptFromResponse (order : CopyMarketOrder) (clientOrderId : String)
    (response : OrderResponse) (reconciled : Bool) (additionalReasonCodes : List String) :
    Engine CopyExecutionReceipt :=
  match readResponse order clientOrderId response with
  | none => do
    let receipt := emptyReceipt .unknown order clientOrderId ["COPY_ORDER_RESPONSE_INVALID"]
    recordNow order.signal.signalId .unknown 0 none (some response) receipt.reasonCodes
    return receipt
  | some (status, filled, averagePrice) => do
    let mapped := mapExchangeState status filled reconciled
    let pending := if mapped.1 = .acknowledged ∧ order.orderType = .limit then
      additionalReasonCodes ++ ["COPY_PROTECTED_LIMIT_PENDING"] else additionalReasonCodes
    let additional ← terminationReasons order status pending
    let kept := if additional.any isProtectedLimitCode then
      mapped.2.filter (· ∉ ["COPY_ORDER_CANCELED", "COPY_ORDER_EXPIRED"]) else mapped.2
    let receipt : CopyExecutionReceipt := {
      signalId := order.signal.signalId
      clientOrderId := clientOrderId
      state := mapped.1
      requestedQuantity := order.localQuantity
      leverage := order.leverage
      filledQuantity := filled
      averagePrice := averagePrice
      exchangeOrderId := response.orderId
      reasonCodes := (additional ++ kept).eraseDups }
    recordNow order.signal.signalId mapped.1.submission filled response.orderId (some response)
      receipt.reasonCodes
    return receipt

def CopyExecutionReceipt.isTerminal (receipt : CopyExecutionReceipt) : Bool :=
  receipt.state = .filled || receipt.state = .reconciled ||
    (receipt.state = .partiallyFilled && "COPY_ORDER_PARTIAL_TERMINAL" ∈ receipt.reasonCodes)

/-- `_terminal_fill_price_missing`. -/
def CopyExecutionReceipt.priceMissing (receipt : CopyExecutionReceipt) : Bool :=
  receipt.isTerminal && 0 < receipt.filledQuantity && receipt.averagePrice ≤ 0

/-- `_response_has_positive_fill_price`. -/
def hasPositiveFillPrice (response : OrderResponse) : Bool :=
  match response.executedQty.finite? with
  | none => false
  | some filled =>
    0 < filled && ((responseAveragePrice response filled).bind (·.finite?)).any (0 < ·)

def queryFillPrice (order : CopyMarketOrder) (clientOrderId : String)
    (additionalReasonCodes : List String) : ℕ → Engine (Option CopyExecutionReceipt)
  | 0 => pure none
  | retries + 1 => do
    match ← queryOrder order.signal.symbol clientOrderId with
    | .error _ => queryFillPrice order clientOrderId additionalReasonCodes retries
    | .ok queried =>
      if hasPositiveFillPrice queried then
        let receipt ← receiptFromResponse order clientOrderId queried true additionalReasonCodes
        return some receipt
      else queryFillPrice order clientOrderId additionalReasonCodes retries

/-- The executor's settings: its environment and the number of queries for a missing
fill price. -/
structure ExecutorSettings where
  environment : BinanceFuturesEnvironment := .testnet
  fillPriceRetries : ℕ := 3

variable (settings : ExecutorSettings)

def receiptWithImmediateFillPrice (order : CopyMarketOrder) (clientOrderId : String)
    (response : OrderResponse) (reconciled : Bool) (additionalReasonCodes : List String) :
    Engine CopyExecutionReceipt := do
  let receipt ← receiptFromResponse order clientOrderId response reconciled additionalReasonCodes
  if receipt.priceMissing then
    match ← queryFillPrice order clientOrderId additionalReasonCodes
        settings.fillPriceRetries with
    | some queried => return queried
    | none =>
      let pending := { receipt with
        reasonCodes := (receipt.reasonCodes ++ ["COPY_FILL_PRICE_PENDING"]).eraseDups }
      recordNow order.signal.signalId pending.state.submission pending.filledQuantity
        pending.exchangeOrderId none pending.reasonCodes
      return pending
  else return receipt

def definitivePlaceRejectionReasons : ProbeError → List String
  | .http operation status code =>
    if operation ≠ "PLACE_ORDER" ∨ status ≠ 400 ∨ code ∈ [-1006, -1007, -4116] then []
    else if code = -4164 then
      ["COPY_ORDER_NOTIONAL_BELOW_EXCHANGE_MINIMUM", "COPY_EXCHANGE_CODE_4164"]
    else if code = -4411 then ["COPY_TRADIFI_AGREEMENT_REQUIRED", "COPY_EXCHANGE_CODE_4411"]
    else ["COPY_ORDER_REJECTED_BY_EXCHANGE", "COPY_EXCHANGE_CODE_" ++ toString code.natAbs]
  | .other _ => []

def queryReportsOrderMissing (error : ProbeError) : Bool :=
  error = .http "QUERY_ORDER" 400 (-2013)

/-- `_ABSENCE_CONFIRMATION_DELAY`: two minutes. -/
def absenceConfirmationDelay : Time := 120000000

def submissionDefinitivelyAbsent (order : CopyMarketOrder) (clientOrderId : String)
    (error : ProbeError) (claimedAt : Time) : Engine Bool :=
  if queryReportsOrderMissing error then do
    let now ← clock
    if now < claimedAt ∨ now - claimedAt < absenceConfirmationDelay then return false
    else
      match ← openOrders order.signal.symbol with
      | .error _ => return false
      | .ok openOrders => return !openOrders.any (· = .text clientOrderId)
  else pure false

/-- A receipt that ends in `REJECTED`, with its journal event. -/
def rejectAndRecord (order : CopyMarketOrder) (clientOrderId : String)
    (reasonCodes : List String) : Engine CopyExecutionReceipt := do
  recordNow order.signal.signalId .rejected 0 none none reasonCodes
  return emptyReceipt .rejected order clientOrderId reasonCodes

/-- A receipt that ends in `UNKNOWN`, with its journal event. -/
def unknownAndRecord (order : CopyMarketOrder) (clientOrderId : String)
    (reasonCodes : List String) : Engine CopyExecutionReceipt := do
  recordNow order.signal.signalId .unknown 0 none none reasonCodes
  return emptyReceipt .unknown order clientOrderId reasonCodes

def reconcileAfterUncertainSubmit (order : CopyMarketOrder) (clientOrderId : String)
    (additionalReasonCodes : List String) : Engine CopyExecutionReceipt := do
  match ← queryOrder order.signal.symbol clientOrderId with
  | .error _ =>
    unknownAndRecord order clientOrderId
      (additionalReasonCodes ++ ["COPY_SUBMISSION_STATUS_UNKNOWN"])
  | .ok response =>
    receiptWithImmediateFillPrice settings order clientOrderId response true additionalReasonCodes

/-- `place_order` with the handling of its errors, shared by the first submission and
the resubmission. -/
def placeAndReconcile (order : CopyMarketOrder) (clientOrderId : String)
    (additionalReasonCodes : List String) : Engine CopyExecutionReceipt := do
  match ← placeOrder (orderParameters order clientOrderId) with
  | .error error =>
    let rejectionReasons := definitivePlaceRejectionReasons error
    if rejectionReasons ≠ [] then rejectAndRecord order clientOrderId rejectionReasons
    else reconcileAfterUncertainSubmit settings order clientOrderId additionalReasonCodes
  | .ok response =>
    receiptWithImmediateFillPrice settings order clientOrderId response false
      additionalReasonCodes

def resubmittedReason : String := "COPY_PERSISTENT_ENTRY_RESUBMITTED_AFTER_CONFIRMED_ABSENCE"

def resubmitPersistentEntry (order : CopyMarketOrder) (clientOrderId : String) :
    Engine CopyExecutionReceipt := do
  recordNow order.signal.signalId .submitting 0 none none [resubmittedReason]
  match ← changeInitialLeverage order.signal.symbol order.leverage with
  | .error _ => Proc.halt
  | .ok _ => placeAndReconcile settings order clientOrderId [resubmittedReason]

def cancelExisting (order : CopyMarketOrder) (clientOrderId reasonCode : String)
    (claimedAt : Time) : Engine CopyExecutionReceipt := do
  match ← cancelOrder order.signal.symbol clientOrderId with
  | .ok response =>
    receiptWithImmediateFillPrice settings order clientOrderId response true [reasonCode]
  | .error _ =>
    match ← queryOrder order.signal.symbol clientOrderId with
    | .ok response =>
      receiptWithImmediateFillPrice settings order clientOrderId response true [reasonCode]
    | .error error =>
      if ← submissionDefinitivelyAbsent order clientOrderId error claimedAt then
        rejectAndRecord order clientOrderId [reasonCode, "COPY_SUBMISSION_CONFIRMED_ABSENT"]
      else
        unknownAndRecord order clientOrderId ["COPY_PROTECTED_LIMIT_CANCEL_STATUS_UNKNOWN"]

def CopyMarketOrder.isPersistentEntry (order : CopyMarketOrder) : Bool :=
  order.signal.kind = .increase && order.orderType = .limit && order.expiresAt.isNone

def reconcileExisting (order : CopyMarketOrder) (clientOrderId : String) (claimedAt : Time) :
    Engine CopyExecutionReceipt := do
  match ← queryOrder order.signal.symbol clientOrderId with
  | .error error =>
    if ← submissionDefinitivelyAbsent order clientOrderId error claimedAt then
      if order.isPersistentEntry then resubmitPersistentEntry settings order clientOrderId
      else rejectAndRecord order clientOrderId ["COPY_SUBMISSION_NOT_FOUND_AFTER_GRACE"]
    else
      return emptyReceipt .unknown order clientOrderId
        ["COPY_SUBMISSION_ALREADY_CLAIMED_UNRESOLVED"]
  | .ok response =>
    let now ← clock
    if order.orderType = .limit ∧ order.expiresAt.any (· ≤ now) ∧
        response.status ∈ [some (.text "NEW"), some (.text "PARTIALLY_FILLED")] then
      cancelExisting settings order clientOrderId "COPY_PROTECTED_LIMIT_EXPIRED" claimedAt
    else receiptWithImmediateFillPrice settings order clientOrderId response true []

def reconcileClaim (currentOrder : CopyMarketOrder) (claim : SubmissionClaim) :
    Engine CopyExecutionReceipt :=
  match claim.restoredOrder currentOrder.signal with
  | none =>
    unknownAndRecord currentOrder claim.clientOrderId ["COPY_SUBMISSION_CLAIM_PARAMETERS_INVALID"]
  | some restored => reconcileExisting settings restored claim.clientOrderId claim.claimedAt

/-- `PositionSide.value`. -/
def PositionSide.text : PositionSide → String
  | .long => "LONG"
  | .short => "SHORT"

/-- `_reduction_fits_exchange_position` on the reported positions; comparing a NaN
raises. -/
def reductionFits (order : CopyMarketOrder) (positions : List PositionRiskItem) : Option Bool :=
  match positions.filter fun item =>
      item.symbol.getD (.text order.signal.symbol) = .text order.signal.symbol &&
        item.positionSide = some (.text order.signal.positionSide.text) with
  | [item] =>
    match item.positionAmt with
    | .finite amount => some (order.localQuantity ≤ |amount|)
    | .infinity _ => some true
    | .nan => none
    | .malformed => some false
  | _ => some false

structure AccountRiskDecision where
  allowExecution : Bool
  pauseNewEntries : Bool
  reduceAllRequired : Bool
  reasonCodes : List String

def claimRow (order : CopyMarketOrder) (clientOrderId : String) (now : Time) :
    SubmissionClaimRow where
  signalId := order.signal.signalId
  clientOrderId := clientOrderId
  requestHash := order.requestHash clientOrderId
  requestHashVersion := 2
  requestedQuantity := some order.localQuantity
  leverage := some order.leverage
  orderType := order.orderType
  limitPrice := order.limitPrice
  expiresAt := order.expiresAt
  claimedAt := now

def claimSubmission (order : CopyMarketOrder) (clientOrderId : String) : Engine Bool := do
  let now ← clock
  Proc.transact fun world =>
    let (claimed, log) := world.log.claim (claimRow order clientOrderId now)
      (submissionEvent order.signal.signalId .submitting now 0 none none [])
    (claimed, { world with log := log })

/-- `execute` past its checks: claim, then place. -/
def submitOrder (order : CopyMarketOrder) (clientOrderId : String) :
    Engine CopyExecutionReceipt := do
  let claimed ← claimSubmission order clientOrderId
  if claimed then placeAndReconcile settings order clientOrderId []
  else
    match ← readLog (·.lookup order.signal.signalId) with
    | none =>
      return emptyReceipt .unknown order clientOrderId ["COPY_SUBMISSION_CLAIM_RACE_UNRESOLVED"]
    | some existing => reconcileClaim settings order existing

def execute (order : CopyMarketOrder) (riskDecision : AccountRiskDecision) :
    Engine CopyExecutionReceipt := do
  let clientOrderId := copyClientOrderId order.signal.signalId settings.environment
  match ← readLog (·.lookup order.signal.signalId) with
  | some existing => reconcileClaim settings order existing
  | none =>
    if riskDecision.allowExecution = false then
      return emptyReceipt .rejected order clientOrderId
        (if riskDecision.reasonCodes = [] then ["COPY_ACCOUNT_RISK_DENIED"]
          else riskDecision.reasonCodes)
    else
      match ← positionMode with
      | .error _ => Proc.halt
      | .ok false =>
        return emptyReceipt .rejected order clientOrderId ["COPY_ACCOUNT_HEDGE_MODE_REQUIRED"]
      | .ok true =>
        if order.signal.kind = .increase then
          match ← changeInitialLeverage order.signal.symbol order.leverage with
          | .error _ => Proc.halt
          | .ok _ => submitOrder settings order clientOrderId
        else
          match ← positionRisk order.signal.symbol with
          | .error _ => Proc.halt
          | .ok positions =>
            match reductionFits order positions with
            | none => Proc.halt
            | some true => submitOrder settings order clientOrderId
            | some false =>
              return emptyReceipt .rejected order clientOrderId
                ["COPY_REDUCTION_EXCHANGE_POSITION_INSUFFICIENT"]

/-- `claimed_order`: the exact durable request, so that recovery never re-sizes a
pending order. -/
def claimedOrder (signal : NormalizedSignal) : Engine (Option CopyMarketOrder) := do
  let claim ← readLog (·.lookup signal.signalId)
  return claim.bind (·.restoredOrder signal)

def cancelPendingIncrease (signal : NormalizedSignal) (reasonCode : String) :
    Engine CopyExecutionReceipt := do
  match ← readLog (·.lookup signal.signalId) with
  | none =>
    return unknownSignalReceipt signal (copyClientOrderId signal.signalId settings.environment)
      "COPY_PENDING_ENTRY_CLAIM_MISSING" 0 1
  | some claim =>
    match claim.restoredOrder signal with
    | none =>
      return unknownSignalReceipt signal claim.clientOrderId
        "COPY_SUBMISSION_CLAIM_PARAMETERS_INVALID" (claim.requestedQuantity.getD 0)
        (claim.leverage.getD 1)
    | some order =>
      if order.orderType = .limit then
        cancelExisting settings order claim.clientOrderId reasonCode claim.claimedAt
      else reconcileExisting settings order claim.clientOrderId claim.claimedAt

end Journal

end AiQuant.CopyTrading
