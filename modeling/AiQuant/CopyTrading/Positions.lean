import AiQuant.CopyTrading.EventLog
import AiQuant.Lib.Fallible

/-! Attribution of exchange fills to the leader that owns them
(`load_virtual_ledger`, `attributed_fill_quantity`, `record_virtual_position`).  One
transaction appends a position event and a PnL event; both tables are read back by
their newest row, each with its own digest as the second sort key. -/
namespace AiQuant.CopyTrading
open AiQuant.Lib

def VirtualPositionEvent.position (event : VirtualPositionEvent) : VirtualPosition where
  key := event.key
  localQuantity := event.resultingLocalQuantity
  observedSourceQuantity := event.resultingSourceQuantity
  localQuantity_nonneg := event.resultingLocalQuantity_nonneg
  observedSourceQuantity_nonneg := event.resultingSourceQuantity_nonneg

def PositionSide.direction : PositionSide → Decimal
  | .long => 1
  | .short => -1

structure PnlState where
  quantity : Decimal
  averageEntryPrice : Decimal
  cumulativeRealizedPnlUsdt : Decimal

/-- The accounting of one fill in `record_virtual_position`: the new state and the
profit it realizes. -/
def leaderPnlUpdate (side : PositionSide) (previous : PnlState)
    (localDelta referencePrice : Decimal) : Except String (PnlState × Decimal) :=
  let resulting := previous.quantity + localDelta
  if 0 < localDelta then
    .ok ({
      quantity := resulting
      averageEntryPrice := (previous.quantity * previous.averageEntryPrice +
        localDelta * referencePrice) / resulting
      cumulativeRealizedPnlUsdt := previous.cumulativeRealizedPnlUsdt + 0 }, 0)
  else if previous.quantity < -localDelta ∨ previous.averageEntryPrice ≤ 0 then
    .error "COPY_LEADER_PNL_REDUCTION_INVALID"
  else
    let realizedDelta :=
      (referencePrice - previous.averageEntryPrice) * -localDelta * side.direction
    .ok ({
      quantity := resulting
      averageEntryPrice := if 0 < resulting then previous.averageEntryPrice else 0
      cumulativeRealizedPnlUsdt := previous.cumulativeRealizedPnlUsdt + realizedDelta },
      realizedDelta)

section PositionQueries

variable [HexOrder]

def EventLog.latestPosition (log : EventLog) (key : VirtualPositionKey) :
    Option VirtualPositionEvent :=
  newest (·.occurredAt) (fun event => HexOrder.value event.positionEventId)
    (log.positions.filter (·.key = key))

def EventLog.latestPnl (log : EventLog) (key : VirtualPositionKey) : Option LeaderPnlEvent :=
  newest (·.observedAt) (fun event => HexOrder.value event.pnlEventId)
    (log.pnls.filter (·.key = key))

variable {log : EventLog}

theorem EventLog.latestPosition_mem {key : VirtualPositionKey} {ev : VirtualPositionEvent}
    (hl : log.latestPosition key = some ev) : ev ∈ log.positions ∧ ev.key = key := by
  have hm := newest_mem _ _ hl
  rwa [List.mem_filter, decide_eq_true_eq] at hm

theorem EventLog.latestPosition_key {key : VirtualPositionKey} {ev : VirtualPositionEvent}
    (hl : log.latestPosition key = some ev) : ev.key = key :=
  (EventLog.latestPosition_mem hl).2

/-- `load_virtual_ledger`: the newest event of each key. -/
def EventLog.loadVirtualLedger (log : EventLog) : VirtualPositionLedger where
  positions := (log.positions.map (·.key)).dedup.filterMap fun key =>
    (log.latestPosition key).map (·.position)
  nodup_keys := by
    rw [List.map_filterMap]
    apply List.Nodup.filterMap _ (List.nodup_dedup _)
    intro left right key hleft hright
    simp only [Option.map_map, Option.mem_def, Option.map_eq_some_iff] at hleft hright
    obtain ⟨event, hleft, rfl⟩ := hleft
    obtain ⟨other, hright, hkeys⟩ := hright
    rw [← EventLog.latestPosition_key hleft, ← EventLog.latestPosition_key hright]
    exact hkeys.symm

def EventLog.pnlSlot (log : EventLog) (event : LeaderPnlEvent) : LeaderSlot :=
  ((log.pnlSlotCorrections.find? (·.pnlEventId = event.pnlEventId)).map (·.correctedSlot)).getD
    event.slot

def EventLog.assignedSlot (log : EventLog) (leadPortfolioId : String) (occurredAt : Time) :
    Option LeaderSlot :=
  (newest (·.occurredAt) (fun event => HexOrder.value event.slotEventId)
    (log.slotAssignments.filter fun event =>
      event.leadPortfolioId = leadPortfolioId && event.occurredAt ≤ occurredAt)).map (·.slot)

/-- `attributed_fill_quantity`: the fill already committed for a signal. -/
def EventLog.attributedFillQuantity (log : EventLog) (signalId : Digest) :
    Except String (Option Decimal) :=
  match log.positions.find? (·.signalId = signalId) with
  | none => .ok none
  | some event =>
    if |event.localQuantityDelta| ≤ 0 then .error "COPY_ATTRIBUTED_FILL_INVALID"
    else .ok (some |event.localQuantityDelta|)

omit [HexOrder] in
theorem EventLog.attributedFillQuantity_eq_none_iff {signalId : Digest} :
    log.attributedFillQuantity signalId = .ok none ↔
      ∀ ev ∈ log.positions, ev.signalId ≠ signalId := by
  unfold EventLog.attributedFillQuantity
  constructor
  · intro hn
    split at hn
    · rename_i hfi
      simpa using hfi
    · split at hn <;> cases hn
  · intro hf
    have hfi : log.positions.find? (·.signalId = signalId) = none := by
      simpa using hf
    rw [hfi]

/-- The PnL state that a fill is applied to.  It must exist for an open position and
agree with the caller's previous quantity. -/
def EventLog.previousPnl (log : EventLog) (previous : VirtualPosition) :
    Except String PnlState :=
  match log.latestPnl previous.key with
  | none =>
    if previous.localQuantity ≠ 0 then .error "COPY_LEADER_PNL_BASELINE_MISSING"
    else .ok {
      quantity := previous.localQuantity
      averageEntryPrice := 0
      cumulativeRealizedPnlUsdt := 0 }
  | some event =>
    if event.resultingQuantity ≠ previous.localQuantity then
      .error "COPY_LEADER_PNL_QUANTITY_MISMATCH"
    else .ok {
      quantity := previous.localQuantity
      averageEntryPrice := event.resultingAverageEntryPrice
      cumulativeRealizedPnlUsdt := event.cumulativeRealizedPnlUsdt }

/-- Increases and reductions of one open lifecycle stay on the line that owned the
opening fill; an opening fill takes the leader's newest assignment. -/
def EventLog.fillSlot (log : EventLog) (previous : VirtualPosition) (occurredAt : Time) :
    Except String LeaderSlot :=
  if 0 < previous.localQuantity then
    match log.latestPnl previous.key with
    | none => .error "COPY_LEADER_PNL_BASELINE_MISSING"
    | some event => .ok (log.pnlSlot event)
  else match log.assignedSlot previous.key.leadPortfolioId occurredAt with
    | none => .error "COPY_LEADER_PNL_SLOT_MISSING"
    | some slot => .ok slot

/-- The arguments of `record_virtual_position`. -/
structure FillRecord where
  signal : NormalizedSignal
  previous : VirtualPosition
  updated : VirtualPosition
  referencePrice : Decimal
  leverage : ℕ
  occurredAt : Time

def FillRecord.localDelta (fill : FillRecord) : Decimal :=
  fill.updated.localQuantity - fill.previous.localQuantity

def FillRecord.sourceDelta (fill : FillRecord) : Decimal :=
  fill.updated.observedSourceQuantity - fill.previous.observedSourceQuantity

/-- The checks before the transaction. -/
def FillRecord.Valid (fill : FillRecord) : Prop :=
  fill.previous.key = fill.signal.key ∧ fill.updated.key = fill.signal.key ∧
    fill.localDelta ≠ 0 ∧ (fill.signal.kind = .increase ↔ 0 < fill.localDelta) ∧
    0 < fill.referencePrice ∧ 1 ≤ fill.leverage ∧ fill.leverage ≤ 125

instance (fill : FillRecord) : Decidable fill.Valid := by
  unfold FillRecord.Valid
  infer_instance

def FillRecord.positionEventId (fill : FillRecord) : Digest :=
  .positionEvent (.positionEvidence fill.localDelta fill.updated.localQuantity
    fill.signal.signalId fill.sourceDelta fill.updated.observedSourceQuantity) fill.occurredAt

def FillRecord.positionEvent (fill : FillRecord) : VirtualPositionEvent where
  positionEventId := fill.positionEventId
  key := fill.signal.key
  localQuantityDelta := fill.localDelta
  resultingLocalQuantity := fill.updated.localQuantity
  sourceQuantityDelta := fill.sourceDelta
  resultingSourceQuantity := fill.updated.observedSourceQuantity
  referencePrice := fill.referencePrice
  leverage := fill.leverage
  committedMarginUsdt := fill.updated.localQuantity * fill.referencePrice / fill.leverage
  signalId := fill.signal.signalId
  occurredAt := fill.occurredAt
  resultingLocalQuantity_nonneg := fill.updated.localQuantity_nonneg
  resultingSourceQuantity_nonneg := fill.updated.observedSourceQuantity_nonneg

def FillRecord.pnlEvent (fill : FillRecord) (slot : LeaderSlot) (previous resulting : PnlState)
    (realizedDelta : Decimal) : LeaderPnlEvent where
  pnlEventId := .pnlEvidence fill.referencePrice fill.localDelta previous.averageEntryPrice
    fill.previous.localQuantity realizedDelta resulting.averageEntryPrice
    fill.updated.localQuantity fill.signal.signalId slot
  positionEventId := fill.positionEventId
  signalId := fill.signal.signalId
  key := fill.signal.key
  slot := slot
  localQuantityDelta := fill.localDelta
  fillPrice := fill.referencePrice
  previousQuantity := fill.previous.localQuantity
  resultingQuantity := fill.updated.localQuantity
  previousAverageEntryPrice := previous.averageEntryPrice
  resultingAverageEntryPrice := resulting.averageEntryPrice
  realizedPnlDeltaUsdt := realizedDelta
  cumulativeRealizedPnlUsdt := resulting.cumulativeRealizedPnlUsdt
  observedAt := fill.occurredAt

/-- `record_virtual_position`: one transaction under the PnL ledger's lock.  A signal
that already has its position event is left alone. -/
def EventLog.recordVirtualPosition (log : EventLog) (fill : FillRecord) :
    Except String EventLog :=
  if ¬ fill.Valid then .error "copy virtual position fill is invalid"
  else if log.positions.any (·.signalId = fill.signal.signalId) then .ok log
  else do
    let previous ← log.previousPnl fill.previous
    let slot ← log.fillSlot fill.previous fill.occurredAt
    let (resulting, realizedDelta) ←
      leaderPnlUpdate fill.signal.positionSide previous fill.localDelta fill.referencePrice
    return { log with
      positions := log.positions ++ [fill.positionEvent]
      pnls := log.pnls ++ [fill.pnlEvent slot previous resulting realizedDelta] }

variable {log post : EventLog} {key : VirtualPositionKey}

theorem EventLog.get?_loadVirtualLedger :
    log.loadVirtualLedger.get? key = (log.latestPosition key).map (·.position) := by
  have hfi : ∀ keys : List VirtualPositionKey,
      (keys.filterMap fun key => (log.latestPosition key).map (·.position)).find? (·.key = key) =
        if key ∈ keys then (log.latestPosition key).map (·.position) else none := by
    intro keys
    induction keys with
    | nil => rfl
    | cons first keys ih =>
      cases hf : log.latestPosition first with
      | none =>
        simp only [List.filterMap_cons, hf, Option.map_none, ih]
        by_cases hk : key = first
        · subst hk
          simp [hf]
        · simp [hk]
      | some ev =>
        have hev : ev.position.key = first := EventLog.latestPosition_key hf
        simp only [List.filterMap_cons, hf, Option.map_some, List.find?_cons, hev, ih]
        by_cases hk : key = first
        · subst hk
          simp [hf]
        · simp [hk, Ne.symm hk]
  unfold VirtualPositionLedger.get? EventLog.loadVirtualLedger
  dsimp only
  rw [hfi]
  split
  · rfl
  · -- a key without rows has no newest row
    rename_i habsent
    rw [List.mem_dedup, List.mem_map] at habsent
    have he : log.positions.filter (·.key = key) = [] := by
      rw [List.filter_eq_nil_iff]
      intro ev hm
      rw [decide_eq_true_eq]
      rintro rfl
      exact habsent ⟨ev, hm, rfl⟩
    simp [EventLog.latestPosition, he]

theorem EventLog.positionFor_loadVirtualLedger (sig : NormalizedSignal) :
    log.loadVirtualLedger.positionFor sig =
      ((log.latestPosition sig.key).map (·.position)).getD { key := sig.key } := by
  rw [VirtualPositionLedger.positionFor, EventLog.get?_loadVirtualLedger]

/-- What a transaction of `record_virtual_position` appends, when it appends. -/
structure EventLog.Attributes (log : EventLog) (fill : FillRecord) (after : EventLog)
    (previous resulting : PnlState) (slot : LeaderSlot) (realizedDelta : Decimal) : Prop where
  fresh : ∀ event ∈ log.positions, event.signalId ≠ fill.signal.signalId
  previous_eq : log.previousPnl fill.previous = .ok previous
  slot_eq : log.fillSlot fill.previous fill.occurredAt = .ok slot
  update_eq : leaderPnlUpdate fill.signal.positionSide previous fill.localDelta
    fill.referencePrice = .ok (resulting, realizedDelta)
  after_eq : after = { log with
    positions := log.positions ++ [fill.positionEvent]
    pnls := log.pnls ++ [fill.pnlEvent slot previous resulting realizedDelta] }

theorem EventLog.recordVirtualPosition_cases {fill : FillRecord}
    (hr : log.recordVirtualPosition fill = .ok post) :
    fill.Valid ∧ ((post = log ∧ ∃ ev ∈ log.positions, ev.signalId = fill.signal.signalId) ∨
        ∃ prev res slot pnl,
          log.Attributes fill post prev res slot pnl) := by
  unfold EventLog.recordVirtualPosition at hr
  split at hr
  · cases hr
  rename_i hvalid
  refine ⟨not_not.mp hvalid, ?_⟩
  split at hr
  · rename_i hany
    cases hr
    rw [List.any_eq_true] at hany
    obtain ⟨ev, hm, hs⟩ := hany
    exact Or.inl ⟨rfl, ev, hm, of_decide_eq_true hs⟩
  · rename_i hany
    simp only [bind_eq_ok_iff] at hr
    obtain ⟨prev, hp, slot, hsl, ⟨res, pnl⟩, hu, ha⟩ :=
      hr
    cases ha
    refine Or.inr ⟨prev, res, slot, pnl, ?_, hp, hsl, hu, rfl⟩
    intro ev hm hs
    exact hany (List.any_eq_true.mpr ⟨ev, hm, decide_eq_true hs⟩)

variable {code : String}

theorem EventLog.previousPnl_error {prev : VirtualPosition}
    (he : log.previousPnl prev = .error code) :
    code = "COPY_LEADER_PNL_BASELINE_MISSING" ∨ code = "COPY_LEADER_PNL_QUANTITY_MISMATCH" := by
  unfold EventLog.previousPnl at he
  split at he
  all_goals
    split at he
    · cases he
      simp
    · cases he

theorem EventLog.fillSlot_error {prev : VirtualPosition} {time : Time}
    (he : log.fillSlot prev time = .error code) :
    code = "COPY_LEADER_PNL_BASELINE_MISSING" ∨ code = "COPY_LEADER_PNL_SLOT_MISSING" := by
  unfold EventLog.fillSlot at he
  split at he
  all_goals
    split at he
    · cases he
      simp
    · cases he

theorem EventLog.recordVirtualPosition_error {fill : FillRecord}
    (he : log.recordVirtualPosition fill = .error code) :
    code = "copy virtual position fill is invalid" ∨
      fill.Valid ∧ (log.previousPnl fill.previous = .error code ∨
        log.fillSlot fill.previous fill.occurredAt = .error code ∨
        ∃ prev, log.previousPnl fill.previous = .ok prev ∧
          leaderPnlUpdate fill.signal.positionSide prev fill.localDelta fill.referencePrice =
            .error code) := by
  unfold EventLog.recordVirtualPosition at he
  split at he
  · cases he
    exact Or.inl rfl
  rename_i hvalid
  refine Or.inr ⟨not_not.mp hvalid, ?_⟩
  split at he
  · cases he
  rw [bind_eq_error_iff] at he
  rcases he with hp | ⟨prev, hp, he⟩
  · exact Or.inl hp
  rw [bind_eq_error_iff] at he
  rcases he with hs | ⟨slot, -, he⟩
  · exact Or.inr (Or.inl hs)
  rw [bind_eq_error_iff] at he
  rcases he with hu | ⟨result, -, he⟩
  · exact Or.inr (Or.inr ⟨prev, hp, hu⟩)
  · cases he

end PositionQueries

end AiQuant.CopyTrading
