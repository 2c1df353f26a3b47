import AiQuant.CopyTrading.Application
import AiQuant.CopyTrading.Ingest
import AiQuant.Lib.Clamped

/-! The denominator of a reduction.  `source_position_quantity_before` adds up the earlier
public signals of a leader, symbol and side and clamps the sum; the one-way resolver clamps
the position after every order.  A reduction of a position from before the baseline makes
the difference. -/
namespace AiQuant.CopyTrading
open AiQuant.Lib

def SignalRow.signedDelta (row : SignalRow) : Decimal :=
  match row.signalKind with
  | .increase => row.sourceDeltaQuantity
  | .reduce => -row.sourceDeltaQuantity

def EventLog.sourceSignals (log : EventLog) (source : SourceOrderEvent) : List SignalRow :=
  (log.fillDeltas.filter (·.sourceEventKey = source.order.eventKey)).flatMap fun delta =>
    log.signals.filter fun row =>
      row.deltaEventId = some delta.deltaEventId && row.signalOrigin = .publicSignal

def sourceOrderSide : PositionSide → SignalKind → OrderSide
  | .long, .increase => .buy
  | .long, .reduce => .sell
  | .short, .increase => .sell
  | .short, .reduce => .buy

theorem EventLog.sourceDeltas_eq (log : EventLog) (source : SourceOrderEvent) :
    log.sourceDeltas source = (log.sourceSignals source).map (·.signedDelta) := by
  rw [EventLog.sourceSignals, List.map_flatMap]
  rfl

theorem increases_sourceOrderSide (side : PositionSide) (kind : SignalKind) :
    increases side.source (sourceOrderSide side kind) = true ↔ kind = .increase := by
  cases side <;> cases kind <;> simp [increases, sourceOrderSide, PositionSide.source]

theorem foldl_applyPositionDelta {rows : List SignalRow}
    (hro : ∀ row ∈ rows, 0 ≤ row.sourceDeltaQuantity) (sym : String) (side : PositionSide) :
    rows.foldl (fun positions earlier => applyPositionDelta positions sym side
      (sourceOrderSide side earlier.signalKind) earlier.sourceDeltaQuantity) (fun _ => 0)
        (sym, side) = clampedTotal (rows.map (·.signedDelta)) := by
  induction rows using List.reverseRecOn with
  | nil => rfl
  | append_singleton rows last ih =>
    obtain ⟨he, hl⟩ := List.forall_mem_append.mp hro
    have hn := add_nonneg (clampedTotal_nonneg (rows.map (·.signedDelta)))
      (hl last (List.mem_singleton_self _))
    rw [List.foldl_concat, List.map_append, List.map_singleton, clampedTotal_concat,
      applyPositionDelta, Function.update_self, ih he]
    by_cases hk : last.signalKind = .increase
    · have hs : last.signedDelta = last.sourceDeltaQuantity := by
        rw [SignalRow.signedDelta, hk]
      rw [if_pos ((increases_sourceOrderSide _ _).mpr hk), hs, max_eq_right hn]
    · have hs : last.signedDelta = -last.sourceDeltaQuantity := by
        unfold SignalRow.signedDelta
        cases hr : last.signalKind with
        | increase => exact absurd hr hk
        | reduce => rfl
      rw [if_neg fun h => hk ((increases_sourceOrderSide _ _).mp h), hs, sub_eq_add_neg]

theorem floorToStep_le {value step : Decimal} (hs : 0 < step) (hv : 0 ≤ value) :
    floorToStep value step ≤ value := by
  unfold floorToStep
  split
  · exact hv
  · calc (⌊value / step⌋ : ℤ) * step ≤ value / step * step := by
          exact mul_le_mul_of_nonneg_right (Int.floor_le _) hs.le
      _ = value := div_mul_cancel₀ _ hs.ne'

namespace VirtualPositionLedger

variable {sig : NormalizedSignal} {ledger : VirtualPositionLedger} {current : VirtualPosition}
  {delta qty : Decimal}

theorem planFrom_closes (hl : 0 < current.localQuantity)
    (hc : current.observedSourceQuantity ≤ delta) (step : Decimal) :
    (planFrom current delta step).closesVirtualPosition = true := by
  have hw : localReduction current delta step = current.localQuantity := by
    rw [localReduction, if_pos (Or.inr hc), min_self]
  rw [planFrom, if_neg (not_le.mpr hl), if_neg (by rw [hw]; exact not_le.mpr hl)]
  exact decide_eq_true hw

theorem planFrom_keeps_part (hl : 0 < current.localQuantity) (hd : 0 < delta)
    (hs : delta < current.observedSourceQuantity) :
    (planFrom current delta (current.localQuantity / 2)).closesVirtualPosition = false := by
  have hso := hd.trans hs
  have hra : delta / current.observedSourceQuantity < 1 := (div_lt_one hso).mpr hs
  have hsh : current.localQuantity * (delta / current.observedSourceQuantity) <
      current.localQuantity := mul_lt_of_lt_one_right hl hra
  have hf := floorToStep_le (half_pos hl) (mul_nonneg hl.le (div_nonneg hd.le hso.le))
  have hr : sourceReduction current delta = delta := by
    rw [sourceReduction, if_neg (not_le.mpr hso), min_eq_left hs.le]
  have hle : localReduction current delta (current.localQuantity / 2) <
      current.localQuantity := by
    rw [localReduction, hr, if_neg (not_or.mpr ⟨not_le.mpr hso, not_le.mpr hs⟩)]
    exact (min_le_right _ _).trans_lt (max_lt (half_lt_self hl) (hf.trans_lt hsh))
  unfold planFrom
  split
  · rfl
  split
  · rfl
  · exact decide_eq_false hle.ne

def rulesWithStep (step : Decimal) (hstep : 0 < step) : SymbolTradingRules where
  quantityStep := step
  minimumQuantity := step
  maximumQuantity := step
  minimumNotionalUsdt := 5
  exchangeMaximumLeverage := 20
  currentLeverage := 5
  priceTick := 1
  quantityStep_pos := hstep
  minimumQuantity_pos := hstep
  minimumNotionalUsdt_pos := five_usdt_pos
  priceTick_pos := one_unit_pos
  minimumQuantity_le := le_rfl
  exchangeMaximumLeverage_le := twenty_le_leverage_limit
  currentLeverage_pos := by norm_num
  currentLeverage_le := by norm_num

theorem planReduction_some (ledger : VirtualPositionLedger) (hk : sig.kind = .reduce)
    (hq : 0 ≤ qty) :
    ∃ current : VirtualPosition, (∀ rules, (ledger.planReduction sig rules (some qty)).1 =
        planFrom current sig.sourceDeltaQuantity rules.quantityStep) ∧
      current.localQuantity = (ledger.positionFor sig).localQuantity ∧
      current.observedSourceQuantity = qty := by
  refine ⟨{ ledger.positionFor sig with
    observedSourceQuantity := qty
    observedSourceQuantity_nonneg := hq }, fun rules => ?_, rfl, rfl⟩
  rw [planReduction, if_neg (not_not.mpr hk)]
  dsimp only
  rw [dif_neg (not_lt.mpr hq)]

theorem planReduction_closes_iff (hk : sig.kind = .reduce) (hd : 0 < sig.sourceDeltaQuantity)
    (hq : 0 ≤ qty) (hl : 0 < (ledger.positionFor sig).localQuantity) :
    (∀ rules, (ledger.planReduction sig rules (some qty)).1.closesVirtualPosition = true) ↔
      qty ≤ sig.sourceDeltaQuantity := by
  obtain ⟨current, hp, hh, rfl⟩ := ledger.planReduction_some hk hq
  rw [← hh] at hl
  constructor
  · intro hc
    by_contra hsmaller
    have hw := hc (rulesWithStep (current.localQuantity / 2) (half_pos hl))
    rw [hp] at hw
    exact absurd (hw.symm.trans (planFrom_keeps_part hl hd (not_le.mp hsmaller))) (by decide)
  · intro hcl rules
    rw [hp]
    exact planFrom_closes hl hcl _

end VirtualPositionLedger

/-- `source_position_closes`. -/
def sourcePositionCloses (signal : NormalizedSignal) (sourceBefore : Option Decimal) : Bool :=
  sourceBefore.all (· ≤ signal.sourceDeltaQuantity)

section Exposure

variable [HexOrder]

def EventLog.earlierSources (log : EventLog) (signal : NormalizedSignal) (row : SignalRow) :
    List SourceOrderEvent :=
  let resetAt := (log.latestReset signal.leadPortfolioId).map (·.occurredAt)
  let earlier (current : SourceOrderEvent) := log.sourceOrders.filter fun source =>
    source.order.leadPortfolioId = signal.leadPortfolioId &&
      source.order.symbol = signal.symbol &&
      source.order.positionSide = signal.positionSide.source &&
      resetAt.all (· < source.observedAt) && resetAt.all (· < current.observedAt) &&
      source.order.sortKey < current.order.sortKey
  ((log.sourceOf row).elim [] earlier).insertionSort fun left right =>
    left.order.sortKey ≤ right.order.sortKey

def EventLog.earlierSignals (log : EventLog) (signal : NormalizedSignal) (row : SignalRow) :
    List SignalRow :=
  (log.earlierSources signal row).flatMap log.sourceSignals

def EventLog.earlierDeltas (log : EventLog) (signal : NormalizedSignal) (row : SignalRow) :
    List Decimal :=
  (log.earlierSignals signal row).map (·.signedDelta)

/-- The position as the resolver would follow it: every earlier signal is applied by
`_apply_position_delta`. -/
def EventLog.trackedSourcePosition (log : EventLog) (signal : NormalizedSignal)
    (row : SignalRow) : Decimal :=
  (log.earlierSignals signal row).foldl (fun positions earlier =>
    applyPositionDelta positions signal.symbol signal.positionSide
      (sourceOrderSide signal.positionSide earlier.signalKind) earlier.sourceDeltaQuantity)
    (fun _ => 0) (signal.symbol, signal.positionSide)

variable {log : EventLog} {sig : NormalizedSignal} {row : SignalRow}

theorem EventLog.sourcePositionQuantityBefore_eq
    (hf : log.signals.find? (·.signalId = sig.signalId) = some row)
    (hp : row.signalOrigin = .publicSignal) :
    log.sourcePositionQuantityBefore sig = some (max 0 (log.earlierDeltas sig row).sum) := by
  rw [EventLog.sourcePositionQuantityBefore, hf]
  dsimp only
  rw [if_neg (not_not.mpr hp)]
  have hpe : (log.earlierDeltas sig row).Perm
      (((log.sourceOf row).elim [] fun current => log.sourceOrders.filter fun source =>
        source.order.leadPortfolioId = sig.leadPortfolioId &&
          source.order.symbol = sig.symbol &&
          source.order.positionSide = sig.positionSide.source &&
          ((log.latestReset sig.leadPortfolioId).map (·.occurredAt)).all (· < source.observedAt) &&
          ((log.latestReset sig.leadPortfolioId).map (·.occurredAt)).all (· < current.observedAt) &&
          source.order.sortKey < current.order.sortKey).flatMap log.sourceDeltas) := by
    unfold EventLog.earlierDeltas EventLog.earlierSignals EventLog.earlierSources
    rw [List.map_flatMap]
    simp only [← EventLog.sourceDeltas_eq]
    exact (List.perm_insertionSort _ _).flatMap_right _
  rw [hpe.sum_eq]

theorem EventLog.mem_signals_of_earlier {earlier : SignalRow}
    (hm : earlier ∈ log.earlierSignals sig row) : earlier ∈ log.signals := by
  obtain ⟨source, -, hm⟩ := List.mem_flatMap.mp hm
  obtain ⟨delta, -, hm⟩ := List.mem_flatMap.mp hm
  exact (List.mem_filter.mp hm).1

theorem EventLog.trackedSourcePosition_eq (hp : ∀ row ∈ log.signals, 0 < row.sourceDeltaQuantity) :
    log.trackedSourcePosition sig row = clampedTotal (log.earlierDeltas sig row) :=
  foldl_applyPositionDelta (fun _ hm => (hp _ (EventLog.mem_signals_of_earlier hm)).le) _ _

/-- The denominator of a stored public signal is its tracked position, and a reduction is a
full close exactly from that position on, if and only if the running total of the earlier
deltas never lies below both zero and the final total. -/
theorem source_denominator_tracks_iff (hpositive : ∀ row ∈ log.signals, 0 < row.sourceDeltaQuantity)
    (hfound : log.signals.find? (·.signalId = sig.signalId) = some row)
    (hpublic : row.signalOrigin = .publicSignal)
    (hsignal : sig = row.normalized (log.deltaOf row)) :
    (log.sourcePositionQuantityBefore sig = some (log.trackedSourcePosition sig row) ∧
      (sig.kind = .reduce →
        (sourcePositionCloses sig (log.sourcePositionQuantityBefore sig) = true ↔
          log.trackedSourcePosition sig row ≤ sig.sourceDeltaQuantity) ∧
        ∀ ledger : VirtualPositionLedger, 0 < (ledger.positionFor sig).localQuantity →
          ((∀ rules, (ledger.planReduction sig rules
              (log.sourcePositionQuantityBefore sig)).1.closesVirtualPosition = true) ↔
            log.trackedSourcePosition sig row ≤ sig.sourceDeltaQuantity))) ↔
      ∀ first, first <+: log.earlierDeltas sig row →
        min 0 (log.earlierDeltas sig row).sum ≤ first.sum := by
  have hd : 0 < sig.sourceDeltaQuantity := by
    rw [hsignal]
    exact hpositive row (List.mem_of_find?_eq_some hfound)
  rw [EventLog.sourcePositionQuantityBefore_eq hfound hpublic, ← clampedTotal_eq_max_iff,
    ← EventLog.trackedSourcePosition_eq hpositive, Option.some.injEq]
  constructor
  · rintro ⟨hs, -⟩
    exact hs.symm
  · intro hs
    rw [← hs]
    refine ⟨rfl, fun hk => ⟨?_, fun ledger hl => ?_⟩⟩
    · rw [sourcePositionCloses, Option.all_some, decide_eq_true_eq]
    · refine VirtualPositionLedger.planReduction_closes_iff hk hd ?_ hl
      rw [hs]
      exact le_max_left _ _

end Exposure

section Untracked

/-- The update times differ, so digests are never compared. -/
local instance untrackedHexOrder : HexOrder := ⟨fun _ => 0⟩

def hedgeDocument (side : OrderSide) (executedQty : Decimal) (orderTime : ℤ) : ApiOrder where
  symbol := "BTCUSDT"
  positionSide := .long
  side := side
  orderType := "MARKET"
  executedQty := executedQty
  avgPrice := 100
  totalPnl := 0
  orderTime := orderTime
  orderUpdateTime := orderTime
  extra := ""

def exposureLog (documents : List ApiOrder) : Except String EventLog := do
  let first ← PublicLeaderOrder.fromApi "1" (hedgeDocument .buy 1 1000)
  let orders ← documents.mapM (PublicLeaderOrder.fromApi "1")
  let (log, _) ← EventLog.ingestOrders {} "1" [first] true 1
  let (log, _) ← log.ingestOrders "1" orders false 2
  .ok log

def trackedLog : EventLog :=
  okValue (exposureLog [hedgeDocument .buy 2 2000, hedgeDocument .sell 1 3000])
    (by with_unfolding_all decide)

def untrackedLog : EventLog :=
  okValue (exposureLog [hedgeDocument .sell 1 2000, hedgeDocument .buy 2 3000,
    hedgeDocument .sell 1 4000]) (by with_unfolding_all decide)

def lastSignal (log : EventLog) (hsome : log.signals ≠ []) : SignalRow :=
  log.signals.getLast hsome

def trackedSale : SignalRow := lastSignal trackedLog (by with_unfolding_all decide)
def untrackedSale : SignalRow := lastSignal untrackedLog (by with_unfolding_all decide)

def trackedSignal : NormalizedSignal := trackedSale.normalized (trackedLog.deltaOf trackedSale)
def untrackedSignal : NormalizedSignal :=
  untrackedSale.normalized (untrackedLog.deltaOf untrackedSale)

theorem tracked_sale_partial : trackedLog.sourcePositionQuantityBefore trackedSignal =
        some (trackedLog.trackedSourcePosition trackedSignal trackedSale) ∧
      trackedLog.trackedSourcePosition trackedSignal trackedSale = 2 ∧
      trackedSignal.sourceDeltaQuantity = 1 ∧
      (sourcePositionCloses trackedSignal (trackedLog.sourcePositionQuantityBefore trackedSignal) =
          true ↔ trackedLog.trackedSourcePosition trackedSignal trackedSale ≤
          trackedSignal.sourceDeltaQuantity) := by
  have hd : trackedLog.earlierDeltas trackedSignal trackedSale = [2] := by
    with_unfolding_all decide
  have hn : ∀ first ∈ [(2 : Decimal)].inits, min 0 [(2 : Decimal)].sum ≤ first.sum := by
    with_unfolding_all decide
  obtain ⟨hs, hc⟩ := (@source_denominator_tracks_iff untrackedHexOrder trackedLog
    trackedSignal trackedSale (by with_unfolding_all decide) (by with_unfolding_all decide)
    (by with_unfolding_all decide) rfl).mpr (by
      rw [hd]
      exact fun first hf => hn first ((List.mem_inits first [2]).mpr hf))
  exact ⟨hs, by with_unfolding_all decide, by with_unfolding_all decide,
    (hc (by with_unfolding_all decide)).1⟩

/-- After a sale of the unit from before the baseline, one unit of two is sold and taken for
the whole position. -/
theorem untracked_sale_closes :
    ¬ ∀ [HexOrder] (log : EventLog) (sig : NormalizedSignal) (row : SignalRow),
        (∀ row ∈ log.signals, 0 < row.sourceDeltaQuantity) →
        log.signals.find? (·.signalId = sig.signalId) = some row →
        row.signalOrigin = .publicSignal → sig = row.normalized (log.deltaOf row) →
        sig.kind = .reduce →
        log.sourcePositionQuantityBefore sig = some (log.trackedSourcePosition sig row) ∧
          (sourcePositionCloses sig (log.sourcePositionQuantityBefore sig) = true ↔
            log.trackedSourcePosition sig row ≤ sig.sourceDeltaQuantity) := by
  intro hc
  obtain ⟨hs, -⟩ := @hc untrackedHexOrder untrackedLog untrackedSignal untrackedSale
    (by with_unfolding_all decide) (by with_unfolding_all decide) (by with_unfolding_all decide) rfl
    (by with_unfolding_all decide)
  have hb : untrackedLog.sourcePositionQuantityBefore untrackedSignal = some 1 := by
    with_unfolding_all decide
  have ht : untrackedLog.trackedSourcePosition untrackedSignal untrackedSale = 2 := by
    with_unfolding_all decide
  rw [hb, ht] at hs
  exact absurd hs (by decide)

end Untracked

end AiQuant.CopyTrading
