import AiQuant.CopyTrading.SlotRows

/-! The confirmations of the operator: the challenges of `copy_trading/telegram_state.py` and
what each kind of them does when it is confirmed.  Six kinds write their effect in the
transaction that consumes the challenge; the reset of the account summary goes through
`reset_pnl_baseline` of `copy_trading/repository.py`, which has a connection of its own. -/
namespace AiQuant.CopyTrading
open AiQuant.Lib

structure CloseTarget where
  localQuantity : Decimal
  positionSide : PositionSide
  symbol : String
deriving DecidableEq

inductive ChallengePayload where
  | control (action : ControlAction)
  | positionClose (key : VirtualPositionKey)
  | leaderPositionsClose (leader : String) (targets : List CloseTarget) (targetDigest : Digest)
  | leaderLock (leader : String) (desiredState : LeaderLockState)
  | followMultiplier (leader : String) (multiplier : ℕ)
  | entryMarginLimit (limitUsdt : Decimal)
  | leaderChange (slot : LeaderSlot) (leader : Option String)
deriving DecidableEq

inductive ChallengeKind where
  | control | positionClose | leaderPositionsClose | leaderLock | followMultiplier
  | entryMarginLimit | leaderChange
deriving DecidableEq

def ChallengePayload.kind : ChallengePayload → ChallengeKind
  | .control _ => .control
  | .positionClose _ => .positionClose
  | .leaderPositionsClose _ _ _ => .leaderPositionsClose
  | .leaderLock _ _ => .leaderLock
  | .followMultiplier _ _ => .followMultiplier
  | .entryMarginLimit _ => .entryMarginLimit
  | .leaderChange _ _ => .leaderChange

structure Challenge where
  challengeId : Digest
  userId : ℤ
  payload : ChallengePayload
  nonceHash : Digest
  expiresAt : Time
  createdAt : Time
deriving DecidableEq

structure ChallengeConsumption where
  consumptionId : Digest
  challengeId : Digest
  userId : ℤ
  consumedAt : Time

structure FollowMultiplierEvent where
  multiplierEventId : Digest
  leadPortfolioId : String
  multiplier : ℕ
  occurredAt : Time

/-- A row of `account_valuation_events`. -/
structure AccountValuationEvent where
  valuationEventId : Digest
  observedAt : Time
  exchangeMarginBalanceUsdt : Decimal
  exchangeAvailableBalanceUsdt : Decimal
  operatingEnvelopeUsdt : Decimal
  totalInitialMarginUsdt : Decimal

/-- A row of `account_position_mark_events`. -/
structure AccountPositionMarkEvent where
  valuationEventId : Digest
  symbol : String
  positionSide : PositionSide
  markPrice : Decimal

/-- A row of `pnl_position_reset_anchors`. -/
structure PnlPositionResetAnchor where
  key : VirtualPositionKey
  cycleRealizedPnlUsdt : Decimal
  unrealizedPnlUsdt : Decimal
deriving DecidableEq

structure PnlReset where
  resetEventId : Digest
  valuationEventId : Digest
  actorId : String
  envelopeEventId : Digest
  operatingEnvelopeUsdt : Decimal
  exchangeMarginBalanceUsdt : Decimal
  anchors : List PnlPositionResetAnchor
  occurredAt : Time
deriving DecidableEq

structure OperatorTables where
  slots : SlotLog
  multipliers : List FollowMultiplierEvent := []
  valuations : List AccountValuationEvent := []
  marks : List AccountPositionMarkEvent := []
  pnlResets : List PnlReset := []
  challenges : List Challenge := []
  consumptions : List ChallengeConsumption := []

inductive EffectRow where
  | control (event : RuntimeControlEvent)
  | closeSignal (row : SignalRow)
  | lock (event : LeaderLockEvent)
  | multiplier (event : FollowMultiplierEvent)
  | entryMarginLimit (event : EntryMarginLimitEvent)
  | slots (rows : SlotRows)
  | pnlReset (reset : PnlReset)

def OperatorTables.insert (tables : OperatorTables) : EffectRow → OperatorTables
  | .control event => { tables with slots := { tables.slots with log := { tables.slots.log with
      controls := tables.slots.log.controls ++ [event] } } }
  | .closeSignal row =>
    if tables.slots.log.signals.any (·.signalId = row.signalId) then tables
    else { tables with slots := { tables.slots with log := { tables.slots.log with
      signals := tables.slots.log.signals ++ [row] } } }
  | .lock event => { tables with slots := { tables.slots with
      locks := tables.slots.locks ++ [event] } }
  | .multiplier event => { tables with multipliers := tables.multipliers ++ [event] }
  | .entryMarginLimit event => { tables with slots := { tables.slots with
      log := { tables.slots.log with
        entryMarginLimits := tables.slots.log.entryMarginLimits ++ [event] } } }
  | .slots rows => { tables with slots := tables.slots.append rows }
  | .pnlReset reset => { tables with pnlResets := tables.pnlResets ++ [reset] }

def OperatorTables.insertAll (tables : OperatorTables) (rows : List EffectRow) : OperatorTables :=
  rows.foldl OperatorTables.insert tables

def ChallengePayload.challengeId (payload : ChallengePayload) (userId : ℤ) (nonceHash : Digest)
    (createdAt : Time) : Digest :=
  match payload with
  | .control action => .controlChallenge action createdAt nonceHash userId
  | .positionClose key => .positionCloseChallenge createdAt key.leadPortfolioId nonceHash
      key.positionSide key.symbol userId
  | .leaderPositionsClose leader _ targetDigest =>
    .leaderPositionsCloseChallenge createdAt leader nonceHash targetDigest userId
  | .leaderLock leader desiredState =>
    .leaderLockChallenge createdAt (desiredState = .locked) leader nonceHash userId
  | .followMultiplier leader multiplier =>
    .multiplierChallenge createdAt leader multiplier nonceHash userId
  | .entryMarginLimit limitUsdt => .entryMarginChallenge createdAt limitUsdt nonceHash userId
  | .leaderChange slot leader =>
    .leaderChallenge (changeAction leader) createdAt leader nonceHash slot userId

def ChallengePayload.challenge (payload : ChallengePayload) (userId : ℤ) (nonce : String)
    (now : Time) : Challenge where
  challengeId := payload.challengeId userId (.nonce nonce) now
  userId := userId
  payload := payload
  nonceHash := .nonce nonce
  expiresAt := now + 120000000
  createdAt := now

/-- What the seven `create` calls have in common: the user, the unique keys and the row.  Which
payloads a kind lets through is left to the caller. -/
def OperatorTables.createChallenge (tables : OperatorTables) (payload : ChallengePayload)
    (userId : ℤ) (nonce : String) (now : Time) : Except String OperatorTables :=
  if userId ≤ 0 then .error "Telegram user ID is invalid"
  else if tables.challenges.any fun other =>
      other.challengeId = payload.challengeId userId (.nonce nonce) now ||
        (other.payload.kind = payload.kind && other.nonceHash = .nonce nonce) then
    .error "TELEGRAM_CHALLENGE_WRITE_FAILED"
  else .ok { tables with
    challenges := tables.challenges ++ [payload.challenge userId nonce now] }

section Effects

variable [HexOrder]

def OperatorTables.pendingChallenge (tables : OperatorTables) (kind : ChallengeKind)
    (userId : ℤ) (nonceHash : Digest) (now : Time) : Option Challenge :=
  tables.challenges.find? fun challenge =>
    challenge.payload.kind = kind && challenge.nonceHash = nonceHash &&
      challenge.userId = userId && now < challenge.expiresAt &&
      !tables.consumptions.any (·.challengeId = challenge.challengeId)

def telegramActor (userId : ℤ) : String := "telegram:" ++ toString userId

/-- `_control_state`; a reset has none. -/
def controlState : ControlAction → Option RuntimeControlState
  | .pauseNewEntries => some .pausedNewEntries
  | .resumeTestnet => some .running
  | .reduceAll => some .reduceAll
  | .resetAccountSummary => none

/-- `action.value.upper()`. -/
def ControlAction.text : ControlAction → String
  | .pauseNewEntries => "PAUSE"
  | .resumeTestnet => "RESUME"
  | .reduceAll => "REDUCE_ALL"
  | .resetAccountSummary => "RESET_SUMMARY"

/-- The event of `execute_confirmed`. -/
def controlEffect (challengeId : Digest) (userId : ℤ) (now : Time) (action : ControlAction) :
    List EffectRow :=
  ((controlState action).map fun state => EffectRow.control {
    controlEventId := .confirmedControl (telegramActor userId) challengeId state
    state := state
    actorId := telegramActor userId
    reasonCodes := ["TELEGRAM_" ++ action.text]
    occurredAt := now }).toList

def EventLog.positionClosePending (log : EventLog) (key : VirtualPositionKey) : Bool :=
  log.signals.any fun row => row.signalOrigin = .controlSignal && row.signalKind = .reduce &&
    row.leadPortfolioId = key.leadPortfolioId && row.symbol = key.symbol &&
    row.positionSide = key.positionSide && (log.latestDecision row.signalId).all
      (·.state ∈ [.received, .approved, .submitted, .uncertain])

/-- The `REDUCE` of one position, unless it is flat or already being closed. -/
def EventLog.closeEffect (log : EventLog) (challengeId : Digest) (leaderScope : Bool)
    (now : Time) (key : VirtualPositionKey) : List EffectRow :=
  match log.latestPosition key with
  | none => []
  | some position =>
    if position.resultingLocalQuantity ≤ 0 || log.positionClosePending key then []
    else [.closeSignal {
      signalId := .positionClose challengeId key.leadPortfolioId key.positionSide leaderScope
        key.symbol
      deltaEventId := none
      leadPortfolioId := key.leadPortfolioId
      symbol := key.symbol
      positionSide := key.positionSide
      signalKind := .reduce
      sourceDeltaQuantity := max position.resultingSourceQuantity position.resultingLocalQuantity
      referencePrice := 1
      occurredAt := now
      signalOrigin := .controlSignal }]

/-- `_leader_position_close_targets`, with the check of the digest. -/
def validCloseTargets (targets : List CloseTarget) (targetDigest : Digest) : Bool :=
  decide (1 ≤ targets.length) && decide (targets.length ≤ 100) &&
    targets.all (fun target => 0 < target.localQuantity) &&
    decide ((targets.map fun target => (target.symbol, target.positionSide)).Nodup) &&
    targetDigest = .closeTargets (targets.map fun target =>
      (target.localQuantity, target.positionSide, target.symbol))

def SlotLog.isAutomatic (state : SlotLog) (leader : String) : Bool :=
  leaderSlots.any fun slot => !isCustomSlot slot && state.currentSlot slot = some leader

def lockEffect (challengeId : Digest) (now : Time) (leader : String)
    (desiredState : LeaderLockState) : List EffectRow :=
  [.lock {
    lockEventId := .leaderLock challengeId leader (desiredState = .locked)
    leadPortfolioId := leader
    state := desiredState
    occurredAt := now }]

/-- `_current_follow_multipliers`, one where nothing is configured. -/
def OperatorTables.followMultiplier (tables : OperatorTables) (leader : String) : ℕ :=
  ((newest (·.occurredAt) (fun event => HexOrder.value event.multiplierEventId)
    (tables.multipliers.filter (·.leadPortfolioId = leader))).map (·.multiplier)).getD 1

def EventLog.currentEntryMarginLimit (log : EventLog) : Decimal :=
  ((newest (·.occurredAt) (fun event => HexOrder.value event.limitEventId)
    log.entryMarginLimits).map (·.limitUsdt)).getD defaultEntryMarginLimitUsdt

/-- `_valid_entry_margin_limit`: in its bounds, and in whole cents. -/
def validEntryMarginLimit (limitUsdt : Decimal) : Bool :=
  decide (5 ≤ limitUsdt) && decide (limitUsdt ≤ defaultEntryMarginLimitUsdt) &&
    decide ((⌊limitUsdt * 100⌋ : ℚ) = limitUsdt * 100)

inductive ConfirmOutcome where
  | refused
  | raised (reason : String)
  | effect (rows : List EffectRow)

def OperatorTables.confirmedEffect (tables : OperatorTables) (challenge : Challenge) (userId : ℤ)
    (now : Time) : ConfirmOutcome :=
  match challenge.payload with
  | .control action => .effect (controlEffect challenge.challengeId userId now action)
  | .positionClose key =>
    .effect (tables.slots.log.closeEffect challenge.challengeId false now key)
  | .leaderPositionsClose leader targets targetDigest =>
    if validCloseTargets targets targetDigest then
      .effect (targets.flatMap fun target => tables.slots.log.closeEffect challenge.challengeId
        true now ⟨leader, target.symbol, target.positionSide⟩)
    else .raised "TELEGRAM_LEADER_POSITION_CLOSE_TARGETS_INVALID"
  | .leaderLock leader desiredState =>
    if !tables.slots.isAutomatic leader then .refused
    else if (leader ∈ tables.slots.lockedLeaderIds) = (desiredState = .locked) then .refused
    else .effect (lockEffect challenge.challengeId now leader desiredState)
  | .followMultiplier leader multiplier =>
    if !leaderSlots.any (tables.slots.currentSlot · = some leader) then .refused
    else if tables.followMultiplier leader = multiplier then .refused
    else .effect [.multiplier {
      multiplierEventId := .followMultiplier challenge.challengeId leader multiplier
      leadPortfolioId := leader
      multiplier := multiplier
      occurredAt := now }]
  | .entryMarginLimit limitUsdt =>
    if !validEntryMarginLimit limitUsdt then .raised "Telegram entry margin limit is invalid"
    else if tables.slots.log.currentEntryMarginLimit = limitUsdt then .refused
    else .effect [.entryMarginLimit {
      limitEventId := .entryMarginLimit challenge.challengeId limitUsdt
      limitUsdt := limitUsdt
      occurredAt := now }]
  | .leaderChange slot leader =>
    let change : LeaderChallenge := ⟨challenge.challengeId, challenge.userId, slot, leader,
      challenge.nonceHash, challenge.expiresAt, challenge.createdAt⟩
    if tables.slots.refusesChange change then .refused
    else .effect [.slots (tables.slots.changeRows change now)]

def EventLog.latestPnlUntil (log : EventLog) (key : VirtualPositionKey) (observedAt : Time) :
    Option LeaderPnlEvent :=
  newest (·.observedAt) (fun event => HexOrder.value event.pnlEventId)
    (log.pnls.filter fun event => event.key = key && event.observedAt ≤ observedAt)

def LeaderPnlEvent.stamp (event : LeaderPnlEvent) : ℤ ×ₗ ℕ :=
  toLex (event.observedAt, HexOrder.value event.pnlEventId)

def EventLog.cycleRealizedPnl (log : EventLog) (latest : LeaderPnlEvent) : Option Decimal :=
  let events := log.pnls.filter fun event =>
    event.key = latest.key && event.stamp ≤ latest.stamp
  (newest (·.observedAt) (fun event => HexOrder.value event.pnlEventId)
    (events.filter fun event => event.previousQuantity = 0 && 0 < event.resultingQuantity)).map
    fun started => ((events.filter (started.stamp ≤ ·.stamp)).map (·.realizedPnlDeltaUsdt)).sum

def EventLog.pnlsOpenUntil (log : EventLog) (observedAt : Time) : List LeaderPnlEvent :=
  ((log.pnls.map (·.key)).dedup.filterMap (log.latestPnlUntil · observedAt)).filter
    (0 < ·.resultingQuantity)

def OperatorTables.markOf (tables : OperatorTables) (valuationEventId : Digest)
    (key : VirtualPositionKey) : Option AccountPositionMarkEvent :=
  tables.marks.find? fun mark => mark.valuationEventId = valuationEventId &&
    mark.symbol = key.symbol && mark.positionSide = key.positionSide

def OperatorTables.resetAnchor (tables : OperatorTables) (valuationEventId : Digest)
    (latest : LeaderPnlEvent) : Option PnlPositionResetAnchor :=
  (tables.markOf valuationEventId latest.key).bind fun mark =>
    (tables.slots.log.cycleRealizedPnl latest).map fun realized => {
      key := latest.key
      cycleRealizedPnlUsdt := realized
      unrealizedPnlUsdt := (mark.markPrice - latest.resultingAverageEntryPrice) *
        latest.resultingQuantity * (if latest.key.positionSide = .long then 1 else -1) }

def OperatorTables.resetPnlBaseline (tables : OperatorTables) (actorId : String)
    (occurredAt : Time) : Except String PnlReset :=
  if actorId.length = 0 || 128 < actorId.length ||
      actorId.toList.any (fun c => c = '\n' || c = '\r') then
    .error "copy PnL reset actor is invalid"
  else match newest (·.observedAt) (fun event => HexOrder.value event.valuationEventId)
      tables.valuations with
    | none => .error "COPY_PNL_RESET_VALUATION_MISSING"
    | some anchor =>
      let resetEventId := Digest.pnlReset actorId occurredAt anchor.valuationEventId
      let opened := tables.slots.log.pnlsOpenUntil anchor.observedAt
      if 120000000 < occurredAt - anchor.observedAt then .error "COPY_PNL_RESET_VALUATION_STALE"
      else if anchor.exchangeMarginBalanceUsdt < 0 || anchor.exchangeAvailableBalanceUsdt < 0 ||
          anchor.operatingEnvelopeUsdt ≤ 0 || anchor.totalInitialMarginUsdt < 0 then
        .error "COPY_PNL_RESET_VALUATION_INVALID"
      else if opened.any fun latest =>
          (tables.markOf anchor.valuationEventId latest.key).isNone then
        .error "COPY_PNL_RESET_MARKS_INCOMPLETE"
      else if tables.pnlResets.any (·.resetEventId = resetEventId) then
        .error "COPY_PNL_RESET_WRITE_FAILED"
      else .ok {
        resetEventId := resetEventId
        valuationEventId := anchor.valuationEventId
        actorId := actorId
        envelopeEventId := .envelopeReset anchor.exchangeMarginBalanceUsdt
          anchor.operatingEnvelopeUsdt resetEventId
        operatingEnvelopeUsdt := anchor.operatingEnvelopeUsdt
        exchangeMarginBalanceUsdt := anchor.exchangeMarginBalanceUsdt
        anchors := opened.filterMap (tables.resetAnchor anchor.valuationEventId)
        occurredAt := occurredAt }

end Effects

end AiQuant.CopyTrading
