import AiQuant.CopyTrading.FlattenCompletion

/-! Stops of a leader's symbol (`enforce_leader_symbol_stops`).  A stop blocks entries for
a day, and as long as it is active every call derives reductions from the newest
position events of its leader and symbol. -/
namespace AiQuant.CopyTrading
open AiQuant.Lib

structure LeaderSymbolPositionPnl where
  key : VirtualPositionKey
  positionEventId : Digest
  quantity : Decimal
  averageEntryPrice : Decimal
  markPrice : Decimal

def LeaderSymbolPositionPnl.unrealizedPnlUsdt (position : LeaderSymbolPositionPnl) : Decimal :=
  (position.markPrice - position.averageEntryPrice) * position.quantity *
    match position.key.positionSide with
    | .long => 1
    | .short => -1

def VirtualPositionKey.leaderSymbol (key : VirtualPositionKey) : String × String :=
  (key.leadPortfolioId, key.symbol)

/-- `aggregate_leader_symbol_pnl`, at one leader and symbol. -/
def aggregateLeaderSymbolPnl (positions : List LeaderSymbolPositionPnl)
    (leaderSymbol : String × String) : Decimal :=
  ((positions.filter (·.key.leaderSymbol = leaderSymbol)).map (·.unrealizedPnlUsdt)).sum

def leaderSymbolStopLossUsdt : Decimal := 10

def leaderSymbolStopCooldown : Time := 86400000000

/-- A row of `leader_symbol_stop_signal_events`. -/
structure LeaderSymbolStopSignalEvent where
  stopSignalEventId : Digest
  stopEventId : Digest
  positionEventId : Digest
  signalId : Digest
  occurredAt : Time

/-- The log with the table that only the stop rules read and write. -/
structure StopLog where
  log : EventLog
  stopSignals : List LeaderSymbolStopSignalEvent

/-- `marks_by_key`. -/
def markOf (positionMarks : List AccountPositionMark) (symbol : String) (side : PositionSide) :
    Option Decimal :=
  (positionMarks.find? fun mark => mark.symbol = symbol && mark.positionSide = side).map
    (·.markPrice)

def stopSignalId (stopEventId positionEventId : Digest) : Digest :=
  .stopReduction (.stopIdentity positionEventId stopEventId)

def stopSignalRow (positionMarks : List AccountPositionMark) (occurredAt : Time)
    (stopEventId : Digest) (position : VirtualPositionEvent) : SignalRow where
  signalId := stopSignalId stopEventId position.positionEventId
  deltaEventId := none
  leadPortfolioId := position.key.leadPortfolioId
  symbol := position.key.symbol
  positionSide := position.key.positionSide
  signalKind := .reduce
  sourceDeltaQuantity := max position.resultingSourceQuantity position.resultingLocalQuantity
  referencePrice :=
    (markOf positionMarks position.key.symbol position.key.positionSide).getD
      position.referencePrice
  occurredAt := occurredAt
  signalOrigin := .controlSignal

def stopSignalEvent (occurredAt : Time) (stopEventId positionEventId : Digest) :
    LeaderSymbolStopSignalEvent where
  stopSignalEventId := .stopSignalEvent positionEventId (stopSignalId stopEventId positionEventId)
    stopEventId
  stopEventId := stopEventId
  positionEventId := positionEventId
  signalId := stopSignalId stopEventId positionEventId
  occurredAt := occurredAt

def StopLog.insertStopSignal (positionMarks : List AccountPositionMark) (occurredAt : Time)
    (state : StopLog) (reduction : Digest × VirtualPositionEvent) : StopLog :=
  let row := stopSignalRow positionMarks occurredAt reduction.1 reduction.2
  { log := state.log.insertControlSignal row
    stopSignals :=
      if state.log.signals.any (·.signalId = row.signalId) then state.stopSignals
      else state.stopSignals ++
        [stopSignalEvent occurredAt reduction.1 reduction.2.positionEventId] }

section Enforce

variable [HexOrder]

def EventLog.openPnls (log : EventLog) : List LeaderPnlEvent :=
  ((log.pnls.map (·.key)).dedup.filterMap log.latestPnl).filter (0 < ·.resultingQuantity)

def EventLog.pnlPositions (log : EventLog) (positionMarks : List AccountPositionMark) :
    List LeaderSymbolPositionPnl :=
  log.openPnls.filterMap fun event =>
    (markOf positionMarks event.key.symbol event.key.positionSide).map fun markPrice => {
      key := event.key
      positionEventId := event.positionEventId
      quantity := event.resultingQuantity
      averageEntryPrice := event.resultingAverageEntryPrice
      markPrice := markPrice }

def EventLog.incompleteKeys (log : EventLog) (positionMarks : List AccountPositionMark) :
    List (String × String) :=
  (log.openPnls.filter fun event =>
    (markOf positionMarks event.key.symbol event.key.positionSide).isNone).map
    (·.key.leaderSymbol)

omit [HexOrder] in
def EventLog.blockingStops (log : EventLog) (occurredAt : Time) : List LeaderSymbolStopEvent :=
  log.stops.filter (occurredAt < ·.blockedUntil)

def LeaderSymbolStopEvent.leaderSymbol (stop : LeaderSymbolStopEvent) : String × String :=
  (stop.leadPortfolioId, stop.symbol)

def EventLog.activeStops (log : EventLog) (occurredAt : Time) : List LeaderSymbolStopEvent :=
  ((log.blockingStops occurredAt).map (·.leaderSymbol)).dedup.filterMap fun leaderSymbol =>
    newestBy (fun stop => (toLex (stop.blockedUntil,
        toLex (stop.triggeredAt, HexOrder.value stop.stopEventId)) : Time ×ₗ (Time ×ₗ ℕ)))
      ((log.blockingStops occurredAt).filter (·.leaderSymbol = leaderSymbol))

omit [HexOrder] in
def EventLog.insertStop (log : EventLog) (stop : LeaderSymbolStopEvent) : EventLog :=
  if log.stops.any (fun other => other.stopEventId = stop.stopEventId ||
      (other.valuationEventId = stop.valuationEventId && other.leaderSymbol = stop.leaderSymbol))
  then log
  else { log with stops := log.stops ++ [stop] }

/-- The first loop: a stop for every leader and symbol whose open sides together have
lost the limit. -/
def EventLog.triggerStops (log : EventLog) (valuationEventId : Digest)
    (positionMarks : List AccountPositionMark) (occurredAt : Time) (lossLimitUsdt : Decimal)
    (cooldown : Time) : EventLog :=
  let positions := log.pnlPositions positionMarks
  let incomplete := log.incompleteKeys positionMarks
  let active := (log.blockingStops occurredAt).map (·.leaderSymbol)
  (positions.map (·.key.leaderSymbol)).dedup.foldl (fun reached leaderSymbol =>
    let netPnl := aggregateLeaderSymbolPnl positions leaderSymbol
    if leaderSymbol ∈ incomplete ∨ leaderSymbol ∈ active ∨ -lossLimitUsdt < netPnl then reached
    else reached.insertStop {
      stopEventId :=
        .leaderSymbolStop leaderSymbol.1 lossLimitUsdt leaderSymbol.2 valuationEventId
      valuationEventId := valuationEventId
      leadPortfolioId := leaderSymbol.1
      symbol := leaderSymbol.2
      lossLimitUsdt := lossLimitUsdt
      netPositionPnlUsdt := netPnl
      triggeredAt := occurredAt
      blockedUntil := occurredAt + cooldown }) log

def EventLog.stoppedPositions (log : EventLog) (stops : List LeaderSymbolStopEvent) :
    List (Digest × VirtualPositionEvent) :=
  stops.flatMap fun stop =>
    (log.openPositions.filter (·.key.leaderSymbol = stop.leaderSymbol)).map (stop.stopEventId, ·)

/-- `enforce_leader_symbol_stops`, which returns the active stops. -/
def StopLog.enforceLeaderSymbolStops (state : StopLog) (valuationEventId : Digest)
    (positionMarks : List AccountPositionMark) (occurredAt : Time)
    (lossLimitUsdt : Decimal := leaderSymbolStopLossUsdt)
    (cooldown : Time := leaderSymbolStopCooldown) :
    Except String (List LeaderSymbolStopEvent × StopLog) :=
  if lossLimitUsdt ≤ 0 ∨ cooldown ≤ 0 then .error "copy leader symbol stop policy is invalid"
  else if ¬ (positionMarks.map fun mark => (mark.symbol, mark.positionSide)).Nodup then
    .error "copy account position marks contain duplicates"
  else
    let log := state.log.triggerStops valuationEventId positionMarks occurredAt lossLimitUsdt
      cooldown
    let stops := log.activeStops occurredAt
    .ok (stops, (log.stoppedPositions stops).foldl
      (StopLog.insertStopSignal positionMarks occurredAt) { state with log := log })

/-- `recoverable_leader_symbol_stop_signals`. -/
def StopLog.recoverableStopSignals (state : StopLog) (stopEventId : Digest) :
    List NormalizedSignal :=
  (orderedSignals (state.log.signals.filter fun row =>
    state.stopSignals.any (fun link =>
      link.stopEventId = stopEventId && link.signalId = row.signalId) &&
      state.log.isRecoverable row.signalId)).map
    fun row => row.normalized none

end Enforce

end AiQuant.CopyTrading
