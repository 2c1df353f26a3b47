import AiQuant.Lib.DecimalText
import Mathlib.Data.Rat.Defs
import Mathlib.Algebra.Order.Ring.Rat
import Mathlib.Data.Prod.Lex

/-! Public copy-trading values and their stable identities
(`copy_trading/models.py`).  Decimals are exact rationals, with their exponents
where a digest takes their texts, and instants are microseconds.  A SHA-256 digest of a
canonical JSON document is represented by the document itself, one constructor for each
shape of document the code hashes: equality of digests is then equality of documents.  Only
the order of the hexadecimal texts, which SQL uses to break ties, is left open. -/
namespace AiQuant.CopyTrading

abbrev Decimal := ℚ
abbrev Time := ℤ

inductive LeaderLifecycle where
  | candidate | observeOnly | active | draining | retired
deriving DecidableEq

inductive PositionSide where
  | long | short
deriving DecidableEq

inductive SourcePositionSide where
  | long | short | both
deriving DecidableEq

inductive OrderSide where
  | buy | sell
deriving DecidableEq

inductive SignalKind where
  | increase | reduce
deriving DecidableEq

inductive RuntimeControlState where
  | running | pausedNewEntries | reduceAll
deriving DecidableEq

inductive LeaderSlot where
  | longTerm | shortTerm1 | shortTerm2
  | custom1 | custom2 | custom3 | custom4 | custom5 | custom6 | custom7
deriving DecidableEq

inductive SelectionStrategy where
  | longTerm | shortTerm
deriving DecidableEq

/-- The states of `slot_replacement_events`. -/
inductive SlotReplacementState where
  | requested | applied | superseded | expired
deriving DecidableEq

inductive ControlAction where
  | pauseNewEntries | resumeTestnet | reduceAll | resetAccountSummary
deriving DecidableEq

/-- The actions of `telegram_leader_challenges`. -/
inductive LeaderChangeAction where
  | set | remove
deriving DecidableEq

/-- The states of `signal_decision_events`. -/
inductive DecisionState where
  | received | ignoredOrphan | ignoredMinimum | ignoredDraining | shadowOnly | riskRejected
  | approved | submitted | filled | cancelled | failed | uncertain
deriving DecidableEq

/-- The states of `submission_events`. -/
inductive SubmissionState where
  | submitting | acknowledged | partiallyFilled | filled | rejected | unknown | reconciled
deriving DecidableEq

inductive CopyOrderType where
  | market | limit
deriving DecidableEq

/-- `PositionSide.value` read as a `SourcePositionSide`. -/
def PositionSide.source : PositionSide → SourcePositionSide
  | .long => .long
  | .short => .short

/-- The `(side, order side)` pairs that open or enlarge a position. -/
def increases (side : SourcePositionSide) (order : OrderSide) : Bool :=
  match side, order with
  | .long, .buy => true
  | .short, .sell => true
  | _, _ => false

/-- How the decimals of a row are written: their exponents, and the sign of a profit of
zero.  With the values this gives the texts. -/
structure OrderSpelling where
  executedQuantity : ℤ := 0
  averagePrice : ℤ := 0
  totalPnl : ℤ := 0
  negativeZeroPnl : Bool := false
deriving DecidableEq

/-- One row of the public order history.  `extra` stands for every part of the
JSON document that the parser does not read; the payload hash covers it. -/
structure ApiOrder where
  symbol : String
  positionSide : SourcePositionSide
  side : OrderSide
  orderType : String
  executedQty : Decimal
  avgPrice : Decimal
  totalPnl : Decimal
  orderTime : ℤ
  orderUpdateTime : ℤ
  extra : String
  spelling : OrderSpelling := {}
deriving DecidableEq

/-- A JSON value where the code expects a text: `other` is any non-text. -/
inductive JsonText where
  | text (value : String)
  | other
deriving DecidableEq

/-- The outcome of `Decimal(str(value))` on a JSON value. -/
inductive DecimalText where
  | finite (value : Decimal)
  | nan
  | infinity (negative : Bool)
  | malformed
deriving DecidableEq

/-- The exchange's answer about one order, as far as the executor reads it.  A key
that is absent takes the default of the code's `get`. -/
structure OrderResponse where
  clientOrderId : Option JsonText
  status : Option JsonText
  executedQty : DecimalText
  avgPrice : DecimalText
  cumQuote : DecimalText
  orderId : Option String
deriving DecidableEq

/-- `timeInForce` with the `goodTillDate` of an expiring order. -/
inductive TimeInForce where
  | gtc
  | gtd (goodTillDate : ℤ)
deriving DecidableEq

/-- The parameters of a new order (`_order_parameters`), less the constant
`newOrderRespType`.  A decimal parameter is serialized without an exponent and
without trailing zeros, so its text is determined by its value. -/
structure OrderParameters where
  symbol : String
  side : OrderSide
  positionSide : PositionSide
  orderType : CopyOrderType
  quantity : Decimal
  newClientOrderId : String
  price : Option Decimal
  timeInForce : Option TimeInForce
deriving DecidableEq

inductive Digest where
  /-- Any digest the modelled code receives from elsewhere. -/
  | external (text : String)
  | payload (document : ApiOrder)
  | orderIdentity (leadPortfolioId : String) (orderTimeMs : ℤ) (orderType : String)
      (positionSide : SourcePositionSide) (side : OrderSide) (symbol : String)
  | discriminated (orderType : String) (averagePrice : Decimal) (exponent : ℤ)
      (sourceIdentityKey : Digest)
  | orderEvent (averagePrice executedQuantity : Decimal) (identityKey : Digest)
      (totalPnl : Decimal) (updateTimeMs : ℤ) (spelling : OrderSpelling)
  | epochIdentity (resetEventId sourceIdentityKey : Digest)
  | epochEvent (resetEventId sourceEventKey : Digest)
  | signal (deltaQuantity : Decimal) (exponent : ℤ) (sourceEventKey : Digest)
  | fillDelta (signalId : Digest)
  | controlIdentity (controlEventId : Digest) (leadPortfolioId : String)
      (positionSide : PositionSide) (symbol : String)
  | controlReduction (identity : Digest)
  | decisionEvidence (localQuantity : Decimal) (reasonCodes : List String)
      (signalId : Digest) (state : DecisionState)
  | decisionEvent (evidenceHash : Digest) (occurredAt : Time)
  | positionEvidence (localDelta localResult : Decimal) (signalId : Digest)
      (sourceDelta sourceResult : Decimal)
  | positionEvent (evidenceHash : Digest) (occurredAt : Time)
  | pnlEvidence (fillPrice localDelta previousAverage previousQuantity realizedDelta
      resultingAverage resultingQuantity : Decimal) (signalId : Digest) (slot : LeaderSlot)
  | submissionEvent (exchangeOrderId : Option String) (filledQuantity : Decimal)
      (occurredAt : Time) (response : Option OrderResponse) (signalId : Digest)
      (state : SubmissionState)
  | response (document : OrderResponse)
  | orderRequest (parameters : OrderParameters) (expiresAt : Option Time)
  | runtimeControl (actorId : String) (occurredAt : Time) (reasonCodes : List String)
      (state : RuntimeControlState)
  | leaderSymbolStop (leadPortfolioId : String) (lossLimitUsdt : Decimal) (symbol : String)
      (valuationEventId : Digest)
  | stopIdentity (positionEventId stopEventId : Digest)
  | stopReduction (identity : Digest)
  | stopSignalEvent (positionEventId signalId stopEventId : Digest)
  | selectionRun (candidateDigest policyDigest : Digest) (scheduledFor : Time)
      (strategy : SelectionStrategy)
  | slotAssignment (leadPortfolioId : String) (selectionRunId : Digest) (slot : LeaderSlot)
  | selectionLifecycle (leadPortfolioId : String) (selectionRunId : Digest)
      (state : LeaderLifecycle)
  | slotReplacement (candidate incumbent : String) (selectionRunId : Digest) (slot : LeaderSlot)
  | slotReplacementEvent (replacementId : Digest) (state : SlotReplacementState)
  | replacementAssignment (replacementId : Digest) (slot : LeaderSlot)
  | replacementLifecycle (leadPortfolioId : String) (replacementId : Digest)
      (state : LeaderLifecycle)
  | lifecycle (leadPortfolioId : String) (occurredAt : Time) (state : LeaderLifecycle)
  | drainedRetirement (leadPortfolioId : String) (occurredAt : Time)
  | nonce (text : String)
  | leaderChallenge (action : LeaderChangeAction) (createdAt : Time)
      (leadPortfolioId : Option String) (nonceHash : Digest) (slot : LeaderSlot) (userId : ℤ)
  | challengeConsumption (challengeId : Digest) (consumedAt : Time)
  | manualSlot (challengeId : Digest) (leadPortfolioId : Option String) (slot : LeaderSlot)
  | manualLifecycle (challengeId : Digest) (leadPortfolioId : String) (state : LeaderLifecycle)
  | controlChallenge (action : ControlAction) (createdAt : Time) (nonceHash : Digest)
      (userId : ℤ)
  | positionCloseChallenge (createdAt : Time) (leadPortfolioId : String) (nonceHash : Digest)
      (positionSide : PositionSide) (symbol : String) (userId : ℤ)
  | closeTargets (targets : List (Decimal × PositionSide × String))
  | leaderPositionsCloseChallenge (createdAt : Time) (leadPortfolioId : String)
      (nonceHash targetDigest : Digest) (userId : ℤ)
  | leaderLockChallenge (createdAt : Time) (locked : Bool) (leadPortfolioId : String)
      (nonceHash : Digest) (userId : ℤ)
  | multiplierChallenge (createdAt : Time) (leadPortfolioId : String) (multiplier : ℕ)
      (nonceHash : Digest) (userId : ℤ)
  | entryMarginChallenge (createdAt : Time) (limitUsdt : Decimal) (nonceHash : Digest)
      (userId : ℤ)
  | confirmedControl (actorId : String) (challengeId : Digest) (state : RuntimeControlState)
  | positionClose (challengeId : Digest) (leadPortfolioId : String)
      (positionSide : PositionSide) (leaderScope : Bool) (symbol : String)
  | leaderLock (challengeId : Digest) (leadPortfolioId : String) (locked : Bool)
  | followMultiplier (challengeId : Digest) (leadPortfolioId : String) (multiplier : ℕ)
  | entryMarginLimit (challengeId : Digest) (limitUsdt : Decimal)
  | pnlReset (actorId : String) (occurredAt : Time) (valuationEventId : Digest)
  | envelopeReset (exchangeMarginBalanceUsdt operatingEnvelopeUsdt : Decimal)
      (resetEventId : Digest)
deriving DecidableEq

/-- The leader a source key was derived for.  Every identity is derived from one
leader's row, so keys of different leaders never meet. -/
def Digest.leader? : Digest → Option String
  | .orderIdentity leadPortfolioId .. => some leadPortfolioId
  | .discriminated _ _ _ sourceIdentityKey => sourceIdentityKey.leader?
  | .orderEvent _ _ identityKey _ _ _ => identityKey.leader?
  | .epochIdentity _ sourceIdentityKey => sourceIdentityKey.leader?
  | .epochEvent _ sourceEventKey => sourceEventKey.leader?
  | _ => none

/-- The hexadecimal texts as numbers.  Nothing is assumed about SHA-256 here:
the value only orders rows with equal times. -/
class HexOrder where
  value : Digest → ℕ

/-- A normalized public order.  The positivity that every constructor checks (and
that the `CHECK`s of `source_order_events` repeat) and the leader of its keys are
part of the value. -/
structure PublicLeaderOrder where
  leadPortfolioId : String
  symbol : String
  positionSide : SourcePositionSide
  orderSide : OrderSide
  orderType : String
  executedQuantity : Decimal
  averagePrice : Decimal
  totalPnl : Decimal
  orderTimeMs : ℤ
  updateTimeMs : ℤ
  identityKey : Digest
  eventKey : Digest
  rawPayloadHash : Digest
  spelling : OrderSpelling
  executedQuantity_pos : 0 < executedQuantity
  averagePrice_pos : 0 < averagePrice
  orderTimeMs_pos : 0 < orderTimeMs
  orderTimeMs_le : orderTimeMs ≤ updateTimeMs
  identityKey_leader : identityKey.leader? = some leadPortfolioId
  eventKey_leader : eventKey.leader? = some leadPortfolioId
deriving DecidableEq

/-- The key `(update_time_ms, executed_quantity, event_key)` by which the newest row
of an identity is chosen. -/
def PublicLeaderOrder.recency [HexOrder] (order : PublicLeaderOrder) : ℤ ×ₗ (Decimal ×ₗ ℕ) :=
  toLex (order.updateTimeMs, toLex (order.executedQuantity, HexOrder.value order.eventKey))

/-- `PublicLeaderOrder.from_api`, past the checks on the texts' formats. -/
def PublicLeaderOrder.fromApi (leadPortfolioId : String) (document : ApiOrder) :
    Except String PublicLeaderOrder :=
  if hqty : document.executedQty ≤ 0 then .error "COPY_FIELD_EXECUTEDQTY_INVALID"
  else if hprice : document.avgPrice ≤ 0 then .error "COPY_FIELD_AVGPRICE_INVALID"
  else if htime : document.orderTime ≤ 0 then .error "COPY_FIELD_ORDERTIME_INVALID"
  else if document.orderUpdateTime ≤ 0 then .error "COPY_FIELD_ORDERUPDATETIME_INVALID"
  else if hle : document.orderUpdateTime < document.orderTime then
    .error "COPY_ORDER_TIME_INVALID"
  else
    let identityKey := Digest.orderIdentity leadPortfolioId document.orderTime
      document.orderType document.positionSide document.side document.symbol
    .ok {
      leadPortfolioId := leadPortfolioId
      symbol := document.symbol
      positionSide := document.positionSide
      orderSide := document.side
      orderType := document.orderType
      executedQuantity := document.executedQty
      averagePrice := document.avgPrice
      totalPnl := document.totalPnl
      orderTimeMs := document.orderTime
      updateTimeMs := document.orderUpdateTime
      identityKey := identityKey
      eventKey := .orderEvent document.avgPrice document.executedQty identityKey
        document.totalPnl document.orderUpdateTime document.spelling
      rawPayloadHash := .payload document
      spelling := document.spelling
      executedQuantity_pos := not_le.mp hqty
      averagePrice_pos := not_le.mp hprice
      orderTimeMs_pos := not_le.mp htime
      orderTimeMs_le := not_lt.mp hle
      identityKey_leader := rfl
      eventKey_leader := rfl }

/-- The event key is the digest of the row's own values, as every constructor outside
a reset epoch derives it. -/
def PublicLeaderOrder.Keyed (order : PublicLeaderOrder) : Prop :=
  order.eventKey = .orderEvent order.averagePrice order.executedQuantity order.identityKey
    order.totalPnl order.updateTimeMs order.spelling

/-- `{order_type}_BATCH_AVG_PRICE:{average_price}` -/
def batchDiscriminator (orderType : String) (averagePrice : Decimal) (exponent : ℤ) :
    List Char :=
  orderType.toList ++ "_BATCH_AVG_PRICE:".toList ++
    (Lib.FiniteDecimal.ofValue averagePrice exponent).text

/-- `[A-Z0-9_.:-]{3,96}` -/
def isDiscriminator (text : List Char) : Bool :=
  3 ≤ text.length && text.length ≤ 96 &&
    text.all fun char => char.isUpper || char.isDigit || "_.:-".toList.contains char

def PublicLeaderOrder.discriminable (order : PublicLeaderOrder) : Bool :=
  isDiscriminator (batchDiscriminator order.orderType order.averagePrice
    order.spelling.averagePrice)

/-- The order under the identity that its discriminator gives it. -/
def PublicLeaderOrder.discriminated (order : PublicLeaderOrder) : PublicLeaderOrder :=
  let identityKey := Digest.discriminated order.orderType order.averagePrice
    order.spelling.averagePrice order.identityKey
  { order with
    identityKey := identityKey
    eventKey := .orderEvent order.averagePrice order.executedQuantity identityKey
      order.totalPnl order.updateTimeMs order.spelling
    identityKey_leader := order.identityKey_leader
    eventKey_leader := order.identityKey_leader }

/-- `with_identity_discriminator` for the only discriminator the code derives. -/
def PublicLeaderOrder.withIdentityDiscriminator (order : PublicLeaderOrder) :
    Except String PublicLeaderOrder :=
  if order.discriminable then .ok order.discriminated
  else .error "COPY_ORDER_IDENTITY_DISCRIMINATOR_INVALID"

/-- `resolve_position_side`: an explicit hedge-side view of a one-way order.  The
identity is recomputed from the row, so a discriminator does not survive.  The quantity
and the profit are results of arithmetic, which the event key takes by value. -/
def PublicLeaderOrder.resolvePositionSide (order : PublicLeaderOrder) (side : PositionSide)
    (executedQuantity totalPnl : Decimal) : Except String PublicLeaderOrder :=
  if order.positionSide ≠ .both then .error "COPY_ORDER_POSITION_SIDE_ALREADY_EXPLICIT"
  else if hqty : executedQuantity ≤ 0 then .error "COPY_ORDER_RESOLVED_QUANTITY_INVALID"
  else
    let identityKey := Digest.orderIdentity order.leadPortfolioId order.orderTimeMs
      order.orderType side.source order.orderSide order.symbol
    let spelling : OrderSpelling := { averagePrice := order.spelling.averagePrice }
    .ok { order with
      positionSide := side.source
      executedQuantity := executedQuantity
      totalPnl := totalPnl
      identityKey := identityKey
      eventKey := .orderEvent order.averagePrice executedQuantity identityKey
        totalPnl order.updateTimeMs spelling
      spelling := spelling
      executedQuantity_pos := not_le.mp hqty
      identityKey_leader := rfl
      eventKey_leader := rfl }

structure NormalizedSignal where
  signalId : Digest
  sourceEventKey : Digest
  sourceIdentityKey : Digest
  leadPortfolioId : String
  symbol : String
  positionSide : PositionSide
  kind : SignalKind
  sourceDeltaQuantity : Decimal
  sourceCumulativeQuantity : Decimal
  referencePrice : Decimal
  occurredAtMs : ℤ
deriving DecidableEq

/-- `PositionSide(order.position_side.value)`; `BOTH` is not a `PositionSide`. -/
def SourcePositionSide.explicit? : SourcePositionSide → Option PositionSide
  | .long => some .long
  | .short => some .short
  | .both => none

/-- `from_order`; the signal's id takes the delta as it is written. -/
def NormalizedSignal.fromOrder (order : PublicLeaderOrder) (deltaQuantity : Decimal)
    (exponent : ℤ) : Except String NormalizedSignal :=
  if deltaQuantity ≤ 0 ∨ order.executedQuantity < deltaQuantity then
    .error "COPY_SIGNAL_DELTA_INVALID"
  else match order.positionSide.explicit? with
    | none => .error "COPY_SIGNAL_POSITION_SIDE_AMBIGUOUS"
    | some side =>
      .ok {
        signalId := .signal deltaQuantity exponent order.eventKey
        sourceEventKey := order.eventKey
        sourceIdentityKey := order.identityKey
        leadPortfolioId := order.leadPortfolioId
        symbol := order.symbol
        positionSide := side
        kind := if increases order.positionSide order.orderSide then .increase else .reduce
        sourceDeltaQuantity := deltaQuantity
        sourceCumulativeQuantity := order.executedQuantity
        referencePrice := order.averagePrice
        occurredAtMs := order.updateTimeMs }

@[simp] theorem PositionSide.explicit?_source (side : PositionSide) :
    side.source.explicit? = some side := by
  cases side <;> rfl

theorem PositionSide.source_injective : Function.Injective PositionSide.source := by
  intro left right h
  cases left <;> cases right <;> simp_all [PositionSide.source]

@[simp] theorem PositionSide.source_ne_both (side : PositionSide) : side.source ≠ .both := by
  cases side <;> simp [PositionSide.source]

theorem SourcePositionSide.explicit?_eq_some_iff {source : SourcePositionSide}
    {side : PositionSide} : source.explicit? = some side ↔ source = side.source := by
  cases source <;> cases side <;> simp [SourcePositionSide.explicit?, PositionSide.source]

theorem PublicLeaderOrder.fromApi_spec {leader : String} {doc : ApiOrder}
    {ord : PublicLeaderOrder} (hp : PublicLeaderOrder.fromApi leader doc = .ok ord) :
    ord.leadPortfolioId = leader ∧ ord.Keyed ∧
      ord.identityKey = .orderIdentity leader ord.orderTimeMs ord.orderType
        ord.positionSide ord.orderSide ord.symbol ∧
      ord.rawPayloadHash = .payload doc := by
  unfold PublicLeaderOrder.fromApi at hp
  repeat' split at hp
  all_goals cases hp
  exact ⟨rfl, rfl, rfl, rfl⟩

theorem PublicLeaderOrder.fromApi_injective {leader : String}
    {leftDocument rightDocument : ApiOrder} {left right : PublicLeaderOrder}
    (hl : PublicLeaderOrder.fromApi leader leftDocument = .ok left)
    (hr : PublicLeaderOrder.fromApi leader rightDocument = .ok right)
    (hp : left.rawPayloadHash = right.rawPayloadHash) : left = right := by
  rw [(fromApi_spec hl).2.2.2, (fromApi_spec hr).2.2.2] at hp
  injection hp with hd
  rw [hd, hr] at hl
  exact (Except.ok.inj hl).symm

theorem NormalizedSignal.fromOrder_spec {ord : PublicLeaderOrder} {delta : Decimal} {exp : ℤ}
    {sig : NormalizedSignal} (hs : NormalizedSignal.fromOrder ord delta exp = .ok sig) :
    sig.sourceIdentityKey = ord.identityKey ∧ sig.sourceEventKey = ord.eventKey ∧
      sig.sourceDeltaQuantity = delta ∧
      sig.sourceCumulativeQuantity = ord.executedQuantity := by
  unfold NormalizedSignal.fromOrder at hs
  split at hs
  · cases hs
  split at hs
  · cases hs
  · cases hs
    exact ⟨rfl, rfl, rfl, rfl⟩

end AiQuant.CopyTrading
