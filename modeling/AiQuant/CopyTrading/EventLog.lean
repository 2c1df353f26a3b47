import AiQuant.CopyTrading.Ledger
import AiQuant.Lib.Newest
import Mathlib.Data.List.Dedup
import Mathlib.Data.List.Sort

/-! The append-only tables of the `copytrading` schema.  A table is the list of
its committed rows in commit order; every write appends, and what the code reads
is a query over the whole list.  Columns that no modelled function reads are left
out. -/
namespace AiQuant.CopyTrading
open AiQuant.Lib

structure SourceResolutionResetEvent where
  resetEventId : Digest
  leadPortfolioId : String
  occurredAt : Time
deriving DecidableEq

structure SourceOrderEvent where
  order : PublicLeaderOrder
  isBaseline : Bool
  observedAt : Time
deriving DecidableEq

inductive PollState where
  | succeeded | historyGap | accessDenied | contractDrift
deriving DecidableEq

structure PollEvent where
  leadPortfolioId : String
  state : PollState
  rowCount : ℕ
  maximumUpdateTimeMs : Option ℤ
  reasonCodes : List String
  occurredAt : Time
deriving DecidableEq

structure SourceFillDeltaEvent where
  deltaEventId : Digest
  sourceEventKey : Digest
  identityKey : Digest
  leadPortfolioId : String
  previousExecutedQuantity : Decimal
  deltaQuantity : Decimal
  cumulativeExecutedQuantity : Decimal
  occurredAt : Time
deriving DecidableEq

inductive SignalOrigin where
  | publicSignal | controlSignal
deriving DecidableEq

/-- A row of `copytrading.signals`; control signals have no fill delta. -/
structure SignalRow where
  signalId : Digest
  deltaEventId : Option Digest
  leadPortfolioId : String
  symbol : String
  positionSide : PositionSide
  signalKind : SignalKind
  sourceDeltaQuantity : Decimal
  referencePrice : Decimal
  occurredAt : Time
  signalOrigin : SignalOrigin
deriving DecidableEq

/-- A row of `leader_slot_events` with action `ASSIGNED`. -/
structure LeaderSlotEvent where
  slotEventId : Digest
  slot : LeaderSlot
  leadPortfolioId : String
  occurredAt : Time
deriving DecidableEq

@[ext]
structure VirtualPositionEvent where
  positionEventId : Digest
  key : VirtualPositionKey
  localQuantityDelta : Decimal
  resultingLocalQuantity : Decimal
  sourceQuantityDelta : Decimal
  resultingSourceQuantity : Decimal
  referencePrice : Decimal
  leverage : ℕ
  committedMarginUsdt : Decimal
  signalId : Digest
  occurredAt : Time
  resultingLocalQuantity_nonneg : 0 ≤ resultingLocalQuantity
  resultingSourceQuantity_nonneg : 0 ≤ resultingSourceQuantity

instance : DecidableEq VirtualPositionEvent := fun _ _ =>
  decidable_of_iff _ VirtualPositionEvent.ext_iff.symm

structure LeaderPnlEvent where
  pnlEventId : Digest
  positionEventId : Digest
  signalId : Digest
  key : VirtualPositionKey
  slot : LeaderSlot
  localQuantityDelta : Decimal
  fillPrice : Decimal
  previousQuantity : Decimal
  resultingQuantity : Decimal
  previousAverageEntryPrice : Decimal
  resultingAverageEntryPrice : Decimal
  realizedPnlDeltaUsdt : Decimal
  cumulativeRealizedPnlUsdt : Decimal
  observedAt : Time
deriving DecidableEq

structure LeaderPnlSlotCorrectionEvent where
  pnlEventId : Digest
  correctedSlot : LeaderSlot
deriving DecidableEq

structure SignalDecisionEvent where
  decisionEventId : Digest
  signalId : Digest
  state : DecisionState
  localQuantity : Decimal
  reasonCodes : List String
  occurredAt : Time
deriving DecidableEq

/-- A row of `submission_claims`.  Claims older than the sizing columns have no
quantity and no leverage. -/
structure SubmissionClaimRow where
  signalId : Digest
  clientOrderId : String
  requestHash : Digest
  requestHashVersion : ℕ
  requestedQuantity : Option Decimal
  leverage : Option ℕ
  orderType : CopyOrderType
  limitPrice : Option Decimal
  expiresAt : Option Time
  claimedAt : Time
deriving DecidableEq

/-- A row of `submission_policy_upgrade_events`: a `GTD` claim replaced by a `GTC`
one. -/
structure SubmissionPolicyUpgradeEvent where
  signalId : Digest
  clientOrderId : String
  occurredAt : Time
deriving DecidableEq

structure SubmissionEvent where
  eventId : Digest
  signalId : Digest
  state : SubmissionState
  filledQuantity : Decimal
  exchangeOrderId : Option String
  responseHash : Option Digest
  reasonCodes : List String
  occurredAt : Time
deriving DecidableEq

structure RuntimeControlEvent where
  controlEventId : Digest
  state : RuntimeControlState
  actorId : String
  reasonCodes : List String
  occurredAt : Time
deriving DecidableEq

structure LeaderSymbolStopEvent where
  stopEventId : Digest
  valuationEventId : Digest
  leadPortfolioId : String
  symbol : String
  lossLimitUsdt : Decimal
  netPositionPnlUsdt : Decimal
  triggeredAt : Time
  blockedUntil : Time
deriving DecidableEq

structure EntryMarginLimitEvent where
  limitEventId : Digest
  limitUsdt : Decimal
  occurredAt : Time
deriving DecidableEq

structure EventLog where
  resets : List SourceResolutionResetEvent := []
  polls : List PollEvent := []
  sourceOrders : List SourceOrderEvent := []
  fillDeltas : List SourceFillDeltaEvent := []
  signals : List SignalRow := []
  slotAssignments : List LeaderSlotEvent := []
  positions : List VirtualPositionEvent := []
  pnls : List LeaderPnlEvent := []
  pnlSlotCorrections : List LeaderPnlSlotCorrectionEvent := []
  decisions : List SignalDecisionEvent := []
  claims : List SubmissionClaimRow := []
  policyUpgrades : List SubmissionPolicyUpgradeEvent := []
  submissions : List SubmissionEvent := []
  controls : List RuntimeControlEvent := []
  stops : List LeaderSymbolStopEvent := []
  entryMarginLimits : List EntryMarginLimitEvent := []
deriving DecidableEq

section SourceQueries

variable [HexOrder]

def EventLog.latestReset (log : EventLog) (leadPortfolioId : String) :
    Option SourceResolutionResetEvent :=
  newest (·.occurredAt) (fun reset => HexOrder.value reset.resetEventId)
    (log.resets.filter (·.leadPortfolioId = leadPortfolioId))

def EventLog.epochOrders (log : EventLog) (leadPortfolioId : String) : List SourceOrderEvent :=
  let resetAt := (log.latestReset leadPortfolioId).map (·.occurredAt)
  log.sourceOrders.filter fun row =>
    row.order.leadPortfolioId = leadPortfolioId && resetAt.all (· < row.observedAt)

/-- `max(update_time_ms)` over the rows of the epoch. -/
def EventLog.maximumUpdateTime (log : EventLog) (leadPortfolioId : String) : Option ℤ :=
  ((log.epochOrders leadPortfolioId).map (·.order.updateTimeMs)).max?

/-- `max(executed_quantity)` over the epoch's rows of one identity. -/
def EventLog.previousExecuted (log : EventLog) (leadPortfolioId : String)
    (identityKey : Digest) : Option Decimal :=
  (((log.epochOrders leadPortfolioId).filter (·.order.identityKey = identityKey)).map
    (·.order.executedQuantity)).max?

def EventLog.matchesAmbiguousBaseline (log : EventLog) (leadPortfolioId : String)
    (payloadHash : Digest) : Bool :=
  (log.epochOrders leadPortfolioId).any fun row =>
    row.order.positionSide = .both && row.isBaseline && row.order.rawPayloadHash = payloadHash

/-- `source_orders_for_resolution`: the newest explicit row of each identity. -/
def EventLog.sourceOrdersForResolution (log : EventLog) (leadPortfolioId : String) :
    List PublicLeaderOrder :=
  let rows := ((log.epochOrders leadPortfolioId).map (·.order)).filter (·.positionSide ≠ .both)
  let identities := ((rows.map (·.identityKey)).dedup).insertionSort fun left right =>
    HexOrder.value left ≤ HexOrder.value right
  identities.filterMap fun identityKey =>
    newestBy (·.recency) (rows.filter (·.identityKey = identityKey))

def baselineAmbiguityFenced : String := "COPY_BASELINE_ORDER_IDENTITY_AMBIGUITY_FENCED"

/-- `source_watermark`: SQL's `greatest` ignores a null. -/
def EventLog.sourceWatermark (log : EventLog) (leadPortfolioId : String) : Option ℤ :=
  let resetAt := (log.latestReset leadPortfolioId).map (·.occurredAt)
  let baselineFence := ((log.polls.filter fun poll =>
      poll.leadPortfolioId = leadPortfolioId && poll.state = .succeeded &&
        poll.reasonCodes.contains baselineAmbiguityFenced &&
        resetAt.all (· < poll.occurredAt)).filterMap (·.maximumUpdateTimeMs)).max?
  match log.maximumUpdateTime leadPortfolioId, baselineFence with
  | some left, some right => some (max left right)
  | some left, none => some left
  | none, right => right

/-- The executed quantity an identity has reached, `0` for an unknown one. -/
def EventLog.executedSoFar (log : EventLog) (leadPortfolioId : String) (identityKey : Digest) :
    Decimal :=
  (log.previousExecuted leadPortfolioId identityKey).getD 0

variable {log : EventLog} {leader : String}

variable {row : SourceOrderEvent}

theorem EventLog.mem_epochOrders (hr : log.latestReset leader = none) :
    row ∈ log.epochOrders leader ↔ row ∈ log.sourceOrders ∧ row.order.leadPortfolioId = leader := by
  simp [EventLog.epochOrders, hr]

variable {key : Digest}

theorem EventLog.previousExecuted_eq_none_iff : log.previousExecuted leader key = none ↔
      ∀ row ∈ log.epochOrders leader, row.order.identityKey ≠ key := by
  simp [EventLog.previousExecuted, List.filter_eq_nil_iff]

theorem EventLog.previousExecuted_eq_some_iff {qty : Decimal} :
    log.previousExecuted leader key = some qty ↔
      (∃ row ∈ log.epochOrders leader, row.order.identityKey = key ∧
        row.order.executedQuantity = qty) ∧
      ∀ row ∈ log.epochOrders leader, row.order.identityKey = key →
        row.order.executedQuantity ≤ qty := by
  unfold EventLog.previousExecuted
  rw [List.max?_eq_some_iff]
  simp only [List.mem_map, List.mem_filter, decide_eq_true_eq]
  constructor
  · rintro ⟨⟨row, ⟨hm, hk⟩, hq⟩, hle⟩
    exact ⟨⟨row, hm, hk, hq⟩, fun other ho hk => hle _ ⟨other, ⟨ho, hk⟩, rfl⟩⟩
  · rintro ⟨⟨row, hm, hk, hq⟩, hle⟩
    refine ⟨⟨row, ⟨hm, hk⟩, hq⟩, ?_⟩
    rintro _ ⟨other, ⟨ho, hk⟩, rfl⟩
    exact hle other ho hk

theorem EventLog.executedSoFar_nonneg (key : Digest) : 0 ≤ log.executedSoFar leader key := by
  unfold EventLog.executedSoFar
  cases hp : log.previousExecuted leader key with
  | none => exact le_rfl
  | some qty =>
    obtain ⟨⟨row, -, -, hq⟩, -⟩ := EventLog.previousExecuted_eq_some_iff.mp hp
    rw [Option.getD_some, ← hq]
    exact row.order.executedQuantity_pos.le

theorem EventLog.executedSoFar_of_previous_none (hn : log.previousExecuted leader key = none) :
    log.executedSoFar leader key = 0 := by
  rw [EventLog.executedSoFar, hn, Option.getD_none]

theorem EventLog.le_executedSoFar (hm : row ∈ log.epochOrders leader) :
    row.order.executedQuantity ≤ log.executedSoFar leader row.order.identityKey := by
  unfold EventLog.executedSoFar
  cases hp : log.previousExecuted leader row.order.identityKey with
  | none =>
    rw [EventLog.previousExecuted_eq_none_iff] at hp
    exact absurd rfl (hp row hm)
  | some qty =>
    exact (EventLog.previousExecuted_eq_some_iff.mp hp).2 row hm rfl

theorem EventLog.previousExecuted_eq_none_iff_executedSoFar :
    log.previousExecuted leader key = none ↔ log.executedSoFar leader key = 0 := by
  refine ⟨EventLog.executedSoFar_of_previous_none, fun hz => ?_⟩
  rw [EventLog.previousExecuted_eq_none_iff]
  rintro row hm rfl
  have hle := EventLog.le_executedSoFar hm
  rw [hz] at hle
  exact absurd row.order.executedQuantity_pos (not_lt.mpr hle)

theorem EventLog.sourceOrdersForResolution_nodup :
    ((log.sourceOrdersForResolution leader).map (·.identityKey)).Nodup := by
  unfold EventLog.sourceOrdersForResolution
  rw [List.map_filterMap]
  apply List.Nodup.filterMap
  · intro left right key hl hr
    simp only [Option.mem_def, Option.map_eq_some_iff] at hl hr
    obtain ⟨ord, hl, rfl⟩ := hl
    obtain ⟨other, hr, hk⟩ := hr
    have hl := newestBy_mem _ hl
    have hr := newestBy_mem _ hr
    simp only [List.mem_filter, decide_eq_true_eq] at hl hr
    rw [← hl.2, ← hr.2, hk]
  · exact (List.perm_insertionSort _ _).nodup_iff.mpr (List.nodup_dedup _)

theorem EventLog.mem_sourceOrdersForResolution {ord : PublicLeaderOrder}
    (hm : ord ∈ log.sourceOrdersForResolution leader) : ord.positionSide ≠ .both ∧
      ∃ row ∈ log.epochOrders leader, row.order = ord := by
  unfold EventLog.sourceOrdersForResolution at hm
  rw [List.mem_filterMap] at hm
  obtain ⟨key, -, hn⟩ := hm
  have ho := newestBy_mem _ hn
  simp only [List.mem_filter, List.mem_map, ne_eq, decide_eq_true_eq, decide_not,
    Bool.not_eq_eq_eq_not, Bool.not_true, decide_eq_false_iff_not] at ho
  exact ⟨ho.1.2, ho.1.1⟩

theorem EventLog.exists_sourceOrdersForResolution
    (hm : row ∈ log.epochOrders leader) (hs : row.order.positionSide ≠ .both) :
    ∃ ord ∈ log.sourceOrdersForResolution leader,
      ord.identityKey = row.order.identityKey ∧ row.order.recency ≤ ord.recency := by
  set rows := ((log.epochOrders leader).map (·.order)).filter (·.positionSide ≠ .both)
    with hr
  have hrow : row.order ∈ rows := by
    rw [hr, List.mem_filter]
    exact ⟨List.mem_map.mpr ⟨row, hm, rfl⟩, by simpa using hs⟩
  have hc : row.order ∈ rows.filter (·.identityKey = row.order.identityKey) :=
    List.mem_filter.mpr ⟨hrow, by simp⟩
  cases hn : newestBy (·.recency) (rows.filter (·.identityKey = row.order.identityKey)) with
  | none =>
    rw [newestBy_eq_none_iff] at hn
    rw [hn] at hc
    cases hc
  | some newest =>
    have hne := newestBy_mem _ hn
    rw [List.mem_filter, decide_eq_true_eq] at hne
    refine ⟨newest, ?_, hne.2, le_of_newestBy _ hc hn⟩
    unfold EventLog.sourceOrdersForResolution
    rw [List.mem_filterMap]
    refine ⟨row.order.identityKey, ?_, hn⟩
    rw [(List.perm_insertionSort _ _).mem_iff, List.mem_dedup]
    exact List.mem_map.mpr ⟨row.order, hrow, rfl⟩

variable {post : EventLog}

section

variable (hv : (log.latestReset leader).all (·.occurredAt < row.observedAt) = true)
include hv

theorem EventLog.epochOrders_concat
    (hre : post.resets = log.resets) (hro : post.sourceOrders = log.sourceOrders ++ [row])
    (hl : row.order.leadPortfolioId = leader) :
    post.epochOrders leader = log.epochOrders leader ++ [row] := by
  have ha : post.latestReset leader = log.latestReset leader := by
    simp only [EventLog.latestReset, hre]
  have hr : ((log.latestReset leader).map (·.occurredAt)).all (· < row.observedAt) = true := by
    rw [Option.all_map]
    exact hv
  simp only [EventLog.epochOrders, ha, hro, List.filter_append, hl, hr,
    decide_true, Bool.and_true, List.filter_cons_of_pos, List.filter_nil]

theorem EventLog.previousExecuted_concat
    (hr : post.resets = log.resets) (hro : post.sourceOrders = log.sourceOrders ++ [row])
    (hl : row.order.leadPortfolioId = leader) (key : Digest) : post.previousExecuted leader key =
      if row.order.identityKey = key then
        some ((log.previousExecuted leader key).elim row.order.executedQuantity
          (max · row.order.executedQuantity))
      else log.previousExecuted leader key := by
  unfold EventLog.previousExecuted
  rw [EventLog.epochOrders_concat hv hr hro hl, List.filter_append, List.map_append]
  by_cases hk : row.order.identityKey = key
  · simp only [hk, decide_true, List.filter_cons_of_pos, List.filter_nil, List.map_cons,
      List.map_nil, if_true]
    exact max?_concat _ _
  · simp [hk]

theorem EventLog.executedSoFar_concat
    (hr : post.resets = log.resets) (hro : post.sourceOrders = log.sourceOrders ++ [row])
    (hl : row.order.leadPortfolioId = leader) (key : Digest) : post.executedSoFar leader key =
      if row.order.identityKey = key then
        max (log.executedSoFar leader key) row.order.executedQuantity
      else log.executedSoFar leader key := by
  simp only [EventLog.executedSoFar, EventLog.previousExecuted_concat hv hr hro hl key]
  split
  · cases log.previousExecuted leader key with
    | none => simp [row.order.executedQuantity_pos.le]
    | some qty => rfl
  · rfl

end

theorem EventLog.matchesAmbiguousBaseline_concat (hr : log.latestReset leader = none)
    (hre : post.resets = log.resets) (hro : post.sourceOrders = log.sourceOrders ++ [row])
    (he : row.order.positionSide ≠ .both) (payloadHash : Digest) :
    post.matchesAmbiguousBaseline leader payloadHash =
      log.matchesAmbiguousBaseline leader payloadHash := by
  have ha : post.latestReset leader = none := by
    rw [EventLog.latestReset, hre]
    exact hr
  by_cases hl : row.order.leadPortfolioId = leader
  · simp [EventLog.matchesAmbiguousBaseline, EventLog.epochOrders, ha, hr, hro, hl, he]
  · simp [EventLog.matchesAmbiguousBaseline, EventLog.epochOrders, ha, hr, hro, hl]

theorem EventLog.updateTime_le_maximum (hmem : row ∈ log.epochOrders leader) :
    row.order.updateTimeMs ≤ (log.maximumUpdateTime leader).getD 0 := by
  unfold EventLog.maximumUpdateTime
  have hu : row.order.updateTimeMs ∈ (log.epochOrders leader).map (·.order.updateTimeMs) :=
    List.mem_map.mpr ⟨row, hmem, rfl⟩
  cases hm : ((log.epochOrders leader).map (·.order.updateTimeMs)).max? with
  | none =>
    rw [List.max?_eq_none_iff] at hm
    rw [hm] at hu
    cases hu
  | some maximum => exact le_of_max? hm hu

theorem EventLog.epochOrders_congr (hr : post.resets.filter (·.leadPortfolioId = leader) =
      log.resets.filter (·.leadPortfolioId = leader))
    (hro : post.sourceOrders.filter (·.order.leadPortfolioId = leader) =
      log.sourceOrders.filter (·.order.leadPortfolioId = leader)) :
    post.epochOrders leader = log.epochOrders leader := by
  have hre : post.latestReset leader = log.latestReset leader := by
    simp only [EventLog.latestReset, hr]
  have hs : ∀ rows : List SourceOrderEvent, ∀ keep : SourceOrderEvent → Bool,
      rows.filter (fun row => row.order.leadPortfolioId = leader && keep row) =
        (rows.filter (·.order.leadPortfolioId = leader)).filter keep := by
    intro rows keep
    rw [List.filter_filter]
    exact List.filter_congr fun row _ => Bool.and_comm _ _
  simp only [EventLog.epochOrders, hre, hs, hro]

theorem EventLog.executedSoFar_congr (hro : post.sourceOrders = log.sourceOrders)
    (hr : post.resets = log.resets) (key : Digest) : post.executedSoFar leader key =
      log.executedSoFar leader key := by
  simp only [EventLog.executedSoFar, EventLog.previousExecuted, EventLog.epochOrders,
    EventLog.latestReset, hro, hr]

theorem EventLog.updateTime_le_sourceWatermark (hmem : row ∈ log.epochOrders leader) :
    ∃ watermark, log.sourceWatermark leader = some watermark ∧
      (log.maximumUpdateTime leader).getD 0 ≤ watermark := by
  have hne : log.maximumUpdateTime leader ≠ none := by
    unfold EventLog.maximumUpdateTime
    rw [ne_eq, List.max?_eq_none_iff, List.map_eq_nil_iff]
    exact List.ne_nil_of_mem hmem
  obtain ⟨maximum, hm⟩ := Option.ne_none_iff_exists'.mp hne
  unfold EventLog.sourceWatermark
  rw [hm]
  dsimp only
  split
  · rename_i left right hl _
    cases hl
    exact ⟨_, rfl, le_max_left _ _⟩
  · rename_i left hl _
    cases hl
    exact ⟨_, rfl, le_rfl⟩
  · rename_i hl
    cases hl

end SourceQueries

end AiQuant.CopyTrading
