import AiQuant.CopyTrading.Allocation
import AiQuant.CopyTrading.OneWay

/-! The repository's queries about signals, their decisions and the runtime control
(`copy_trading/repository.py`).  Which orders are still alive is asked in four places,
each with a predicate of its own. -/
namespace AiQuant.CopyTrading
open AiQuant.Lib

def EventLog.deltaOf (log : EventLog) (row : SignalRow) : Option SourceFillDeltaEvent :=
  row.deltaEventId.bind fun deltaEventId =>
    log.fillDeltas.find? (·.deltaEventId = deltaEventId)

def SignalRow.key (row : SignalRow) : VirtualPositionKey where
  leadPortfolioId := row.leadPortfolioId
  symbol := row.symbol
  positionSide := row.positionSide

/-- A stored signal as the queries return it; without a delta it stands for itself. -/
def SignalRow.normalized (row : SignalRow) (delta : Option SourceFillDeltaEvent) :
    NormalizedSignal where
  signalId := row.signalId
  sourceEventKey := (delta.map (·.sourceEventKey)).getD row.signalId
  sourceIdentityKey := (delta.map (·.identityKey)).getD row.signalId
  leadPortfolioId := row.leadPortfolioId
  symbol := row.symbol
  positionSide := row.positionSide
  kind := row.signalKind
  sourceDeltaQuantity := row.sourceDeltaQuantity
  sourceCumulativeQuantity := (delta.map (·.cumulativeExecutedQuantity)).getD
    row.sourceDeltaQuantity
  referencePrice := row.referencePrice
  occurredAtMs := row.occurredAt / 1000

@[simp] theorem SignalRow.normalized_key (row : SignalRow) (delta : Option SourceFillDeltaEvent) :
    (row.normalized delta).key = row.key :=
  rfl

/-- `record_signal_decision`: an event that is already there is left alone. -/
def EventLog.recordSignalDecision (log : EventLog) (signal : NormalizedSignal)
    (state : DecisionState) (localQuantity : Decimal) (reasonCodes : List String)
    (occurredAt : Time) : EventLog :=
  let event : SignalDecisionEvent := {
    decisionEventId := .decisionEvent
      (.decisionEvidence localQuantity reasonCodes signal.signalId state) occurredAt
    signalId := signal.signalId
    state := state
    localQuantity := localQuantity
    reasonCodes := reasonCodes
    occurredAt := occurredAt }
  if log.decisions.any (·.decisionEventId = event.decisionEventId) then log
  else { log with decisions := log.decisions ++ [event] }

/-- What `latest_runtime_control` returns. -/
structure RuntimeControl where
  eventId : Option Digest
  state : RuntimeControlState
  actorId : String
  reasonCodes : List String

/-- `append_runtime_control`; an event that is already there is left alone. -/
def EventLog.appendRuntimeControl (log : EventLog) (state : RuntimeControlState)
    (actorId : String) (reasonCodes : List String) (occurredAt : Time) : EventLog :=
  let event : RuntimeControlEvent := {
    controlEventId := .runtimeControl actorId occurredAt reasonCodes state
    state := state
    actorId := actorId
    reasonCodes := reasonCodes
    occurredAt := occurredAt }
  if log.controls.any (·.controlEventId = event.controlEventId) then log
  else { log with controls := log.controls ++ [event] }

/-- `active_leader_symbol_stop`, of which only the presence is read. -/
def EventLog.activeLeaderSymbolStop (log : EventLog) (leadPortfolioId symbol : String)
    (occurredAt : Time) : Bool :=
  log.stops.any fun stop =>
    stop.leadPortfolioId = leadPortfolioId && stop.symbol = symbol &&
      occurredAt < stop.blockedUntil

def controlIdentity (controlEventId : Digest) (key : VirtualPositionKey) : Digest :=
  .controlIdentity controlEventId key.leadPortfolioId key.positionSide key.symbol

def controlSignalId (controlEventId : Digest) (key : VirtualPositionKey) : Digest :=
  .controlReduction (controlIdentity controlEventId key)

def controlSignalRow (controlEventId : Digest) (position : VirtualPositionEvent)
    (occurredAt : Time) : SignalRow where
  signalId := controlSignalId controlEventId position.key
  deltaEventId := none
  leadPortfolioId := position.key.leadPortfolioId
  symbol := position.key.symbol
  positionSide := position.key.positionSide
  signalKind := .reduce
  sourceDeltaQuantity := max position.resultingSourceQuantity position.resultingLocalQuantity
  referencePrice := 1
  occurredAt := occurredAt
  signalOrigin := .controlSignal

/-- `INSERT … ON CONFLICT (signal_id) DO NOTHING`. -/
def EventLog.insertControlSignal (log : EventLog) (row : SignalRow) : EventLog :=
  if log.signals.any (·.signalId = row.signalId) then log
  else { log with signals := log.signals ++ [row] }

theorem insertControlSignals_spec (cands : List SignalRow) (log : EventLog) :
    ∃ rows, cands.foldl EventLog.insertControlSignal log =
        { log with signals := log.signals ++ rows } ∧
      (∀ row ∈ rows, row ∈ cands) ∧
      (∀ cand ∈ cands, ∃ row ∈ log.signals ++ rows, row.signalId = cand.signalId) ∧
      ((log.signals.map (·.signalId)).Nodup → ((log.signals ++ rows).map (·.signalId)).Nodup) := by
  induction cands generalizing log with
  | nil => exact ⟨[], by simp, by simp, by simp, by simp⟩
  | cons cand cands ih =>
    rw [List.foldl_cons]
    by_cases hk : log.signals.any (·.signalId = cand.signalId) = true
    · have hi : log.insertControlSignal cand = log := by
        rw [EventLog.insertControlSignal, if_pos hk]
      rw [hi]
      obtain ⟨rows, hlog, hro, hc, hn⟩ := ih log
      refine ⟨rows, hlog, fun row hrow => List.mem_cons_of_mem _ (hro row hrow), ?_, hn⟩
      rw [List.forall_mem_cons]
      refine ⟨?_, hc⟩
      rw [List.any_eq_true] at hk
      obtain ⟨row, hrow, hs⟩ := hk
      exact ⟨row, by simp [hrow], of_decide_eq_true hs⟩
    · have hi : log.insertControlSignal cand =
          { log with signals := log.signals ++ [cand] } := by
        rw [EventLog.insertControlSignal, if_neg hk]
      rw [hi]
      obtain ⟨rows, hlog, hro, hc, hn⟩ :=
        ih { log with signals := log.signals ++ [cand] }
      refine ⟨cand :: rows, ?_, ?_, ?_, ?_⟩
      · rw [hlog, List.append_assoc]
        rfl
      · rw [List.forall_mem_cons]
        exact ⟨List.mem_cons_self, fun row hrow => List.mem_cons_of_mem _ (hro row hrow)⟩
      · rw [List.forall_mem_cons]
        refine ⟨⟨cand, by simp, rfl⟩, ?_⟩
        simpa [List.append_assoc] using hc
      · intro hu
        have hf : cand.signalId ∉ log.signals.map (·.signalId) := by
          rw [List.mem_map]
          rintro ⟨row, hrow, hs⟩
          exact hk (List.any_eq_true.mpr ⟨row, hrow, decide_eq_true hs⟩)
        have hst : ((log.signals ++ [cand]).map (·.signalId)).Nodup := by
          rw [List.map_append, List.nodup_append]
          refine ⟨hu, by simp, ?_⟩
          rintro left hl right hr rfl
          rw [List.map_singleton, List.mem_singleton] at hr
          exact hf (hr ▸ hl)
        have ha := hn hst
        rwa [List.append_assoc] at ha

section Queries

variable [HexOrder]

def EventLog.latestDecision (log : EventLog) (signalId : Digest) : Option SignalDecisionEvent :=
  newest (·.occurredAt) (fun event => HexOrder.value event.decisionEventId)
    (log.decisions.filter (·.signalId = signalId))

def EventLog.latestSubmission (log : EventLog) (signalId : Digest) : Option SubmissionEvent :=
  newest (·.occurredAt) (fun event => HexOrder.value event.eventId)
    (log.submissions.filter (·.signalId = signalId))

def EventLog.decidedAs (log : EventLog) (signalId : Digest) (states : List DecisionState) :
    Bool :=
  (log.latestDecision signalId).any (·.state ∈ states)

def liveSubmissionStates : List SubmissionState :=
  [.submitting, .acknowledged, .partiallyFilled, .unknown]

/-- The claim of a signal whose order may still fill and has not been attributed. -/
def EventLog.hasLiveClaim (log : EventLog) (signalId : Digest) : Bool :=
  log.claims.any (·.signalId = signalId) && !log.positions.any (·.signalId = signalId) &&
    (log.latestSubmission signalId).any (·.state ∈ liveSubmissionStates)

/-- `ORDER BY signal.occurred_at,signal.signal_id`. -/
def orderedSignals (rows : List SignalRow) : List SignalRow :=
  rows.insertionSort fun left right =>
    (toLex (left.occurredAt, HexOrder.value left.signalId) : ℤ ×ₗ ℕ) ≤
      toLex (right.occurredAt, HexOrder.value right.signalId)

/-- The condition of `recoverable_signals`. -/
def EventLog.isRecoverable (log : EventLog) (signalId : Digest) : Bool :=
  (log.latestDecision signalId).isNone ||
    log.decidedAs signalId [.received, .approved, .submitted, .uncertain] ||
    log.hasLiveClaim signalId

def EventLog.recoverableSignals (log : EventLog) (limit : ℕ) : List NormalizedSignal :=
  ((orderedSignals (log.signals.filter fun row => log.isRecoverable row.signalId)).take limit).map
    fun row => row.normalized (log.deltaOf row)

def EventLog.isPendingEntry (log : EventLog) (signalId : Digest) : Bool :=
  log.claims.any (fun claim => claim.signalId = signalId && claim.orderType = .limit) &&
    log.decidedAs signalId [.submitted, .uncertain]

def EventLog.pendingIncreaseSignals (log : EventLog) (key : VirtualPositionKey) (limit : ℕ) :
    List NormalizedSignal :=
  ((orderedSignals (log.signals.filter fun row =>
    row.key = key && row.signalKind = .increase && (log.deltaOf row).isSome &&
      log.isPendingEntry row.signalId)).take limit).map
    fun row => row.normalized (log.deltaOf row)

/-- A row of `raw_usage`; a claim without its sizing columns has no margin. -/
structure UsageRow where
  leadPortfolioId : String
  symbol : String
  committedMarginUsdt : Option Decimal
  committedNotionalUsdt : Option Decimal

def EventLog.positionUsage (log : EventLog) : List UsageRow :=
  ((log.positions.map (·.key)).dedup.filterMap log.latestPosition).map fun event =>
    { leadPortfolioId := event.key.leadPortfolioId
      symbol := event.key.symbol
      committedMarginUsdt := some event.committedMarginUsdt
      committedNotionalUsdt := some (event.committedMarginUsdt * event.leverage) }

def SubmissionClaimRow.usage (claim : SubmissionClaimRow) (row : SignalRow) : UsageRow where
  leadPortfolioId := row.leadPortfolioId
  symbol := row.symbol
  committedMarginUsdt := do
    return (← claim.requestedQuantity) * (← claim.limitPrice) / (← claim.leverage)
  committedNotionalUsdt := do
    return (← claim.requestedQuantity) * (← claim.limitPrice)

def EventLog.pendingUsage (log : EventLog) : List UsageRow :=
  (log.claims.filter fun claim =>
    claim.orderType = .limit && log.decidedAs claim.signalId [.submitted, .uncertain]).flatMap
    fun claim => (log.signals.filter (·.signalId = claim.signalId)).map claim.usage

def UsageRow.margin (row : UsageRow) (symbol : String) (currentSymbolLeverage : ℕ) : Decimal :=
  if row.symbol = symbol then
    (row.committedNotionalUsdt.map (· / (currentSymbolLeverage : Decimal))).getD 0
  else row.committedMarginUsdt.getD 0

def EventLog.portfolioUsage (log : EventLog) (leadPortfolioId symbol : String)
    (accountEquityUsdt accountAvailableBalanceUsdt : Decimal) (currentSymbolLeverage : ℕ) :
    PortfolioUsage :=
  let rows := log.positionUsage ++ log.pendingUsage
  let total (rows : List UsageRow) : Decimal :=
    (rows.map (·.margin symbol currentSymbolLeverage)).sum
  { accountEquityUsdt := accountEquityUsdt
    totalCommittedMarginUsdt := total rows
    leaderCommittedMarginUsdt := total (rows.filter (·.leadPortfolioId = leadPortfolioId))
    symbolCommittedMarginUsdt := total (rows.filter (·.symbol = symbol))
    accountAvailableBalanceUsdt := some accountAvailableBalanceUsdt
    configuredEntryMarginUsdt := some
      (((newest (·.occurredAt) (fun event => HexOrder.value event.limitEventId)
        log.entryMarginLimits).map (·.limitUsdt)).getD defaultEntryMarginLimitUsdt) }

def EventLog.leadersWithOwnedExposure (log : EventLog) : List String :=
  (((log.positions.map (·.key)).dedup.filterMap log.latestPosition).filter
    (0 < ·.resultingLocalQuantity)).map (·.key.leadPortfolioId) ++
  (log.signals.filter fun row =>
    row.signalKind = .increase && log.claims.any (·.signalId = row.signalId) &&
      log.decidedAs row.signalId [.approved, .submitted, .uncertain]).map (·.leadPortfolioId)

/-- `latest_runtime_control`: without an event, entries are paused. -/
def EventLog.latestRuntimeControl (log : EventLog) : RuntimeControl :=
  match newest (·.occurredAt) (fun event => HexOrder.value event.controlEventId)
      log.controls with
  | none =>
    { eventId := none
      state := .pausedNewEntries
      actorId := "fail-closed-default"
      reasonCodes := ["COPY_RUNTIME_CONTROL_MISSING"] }
  | some event =>
    { eventId := some event.controlEventId
      state := event.state
      actorId := event.actorId
      reasonCodes := event.reasonCodes }

def EventLog.sourceOf (log : EventLog) (row : SignalRow) : Option SourceOrderEvent :=
  (log.deltaOf row).bind fun delta =>
    log.sourceOrders.find? (·.order.eventKey = delta.sourceEventKey)

def EventLog.sourceDeltas (log : EventLog) (source : SourceOrderEvent) : List Decimal :=
  (log.fillDeltas.filter (·.sourceEventKey = source.order.eventKey)).flatMap fun delta =>
    (log.signals.filter fun row =>
      row.deltaEventId = some delta.deltaEventId && row.signalOrigin = .publicSignal).map
      fun row => match row.signalKind with
        | .increase => row.sourceDeltaQuantity
        | .reduce => -row.sourceDeltaQuantity

/-- `source_position_quantity_before`: the exposure the public history shows just before
a signal; a control reduction has none. -/
def EventLog.sourcePositionQuantityBefore (log : EventLog) (signal : NormalizedSignal) :
    Option Decimal :=
  match log.signals.find? (·.signalId = signal.signalId) with
  | none => none
  | some row =>
    if row.signalOrigin ≠ .publicSignal then none
    else
      let resetAt := (log.latestReset signal.leadPortfolioId).map (·.occurredAt)
      let earlier (current : SourceOrderEvent) := log.sourceOrders.filter fun source =>
        source.order.leadPortfolioId = signal.leadPortfolioId &&
          source.order.symbol = signal.symbol &&
          source.order.positionSide = signal.positionSide.source &&
          resetAt.all (· < source.observedAt) && resetAt.all (· < current.observedAt) &&
          source.order.sortKey < current.order.sortKey
      some (max 0 (((log.sourceOf row).elim [] earlier).flatMap log.sourceDeltas).sum)

def EventLog.openPositions (log : EventLog) : List VirtualPositionEvent :=
  ((log.positions.map (·.key)).dedup.filterMap log.latestPosition).filter
    (0 < ·.resultingLocalQuantity)

theorem mem_openPositions {log : EventLog} {key : VirtualPositionKey}
    {ev : VirtualPositionEvent} (hl : log.latestPosition key = some ev)
    (ho : 0 < ev.resultingLocalQuantity) : ev ∈ log.openPositions := by
  obtain ⟨hm, hk⟩ := EventLog.latestPosition_mem hl
  simp only [EventLog.openPositions, List.mem_filter, List.mem_filterMap, List.mem_dedup,
    List.mem_map, decide_eq_true_eq]
  exact ⟨⟨key, ⟨ev, hm, hk⟩, hl⟩, ho⟩

theorem mem_positions_of_openPositions {log : EventLog} {pos : VirtualPositionEvent}
    (hp : pos ∈ log.openPositions) : pos ∈ log.positions := by
  obtain ⟨key, -, hl⟩ := List.mem_filterMap.mp (List.mem_filter.mp hp).1
  exact (EventLog.latestPosition_mem hl).1

def EventLog.ensureControlReductionSignals (log : EventLog) (controlEventId : Digest)
    (occurredAt : Time) : EventLog :=
  log.openPositions.foldl (fun log position =>
    log.insertControlSignal (controlSignalRow controlEventId position occurredAt)) log

theorem ensureControlReductionSignals_spec (log : EventLog) (eventId : Digest) (time : Time) :
    ∃ rows, log.ensureControlReductionSignals eventId time =
        { log with signals := log.signals ++ rows } ∧
      (∀ row ∈ rows, ∃ pos ∈ log.openPositions, row = controlSignalRow eventId pos time) ∧
      (∀ pos ∈ log.openPositions, ∃ row ∈ log.signals ++ rows,
        row.signalId = controlSignalId eventId pos.key) ∧
      ((log.signals.map (·.signalId)).Nodup → ((log.signals ++ rows).map (·.signalId)).Nodup) := by
  obtain ⟨rows, hl, hr, hc, hn⟩ := insertControlSignals_spec
    (log.openPositions.map fun pos => controlSignalRow eventId pos time) log
  rw [List.foldl_map] at hl
  refine ⟨rows, hl, ?_, ?_, hn⟩
  · intro row hrow
    obtain ⟨pos, hp, hs⟩ := List.mem_map.mp (hr row hrow)
    exact ⟨pos, hp, hs.symm⟩
  · intro pos hp
    exact hc _ (List.mem_map_of_mem hp)

end Queries

end AiQuant.CopyTrading
