import AiQuant.CopyTrading.Positions
import Mathlib.Tactic.Ring
import Mathlib.Algebra.BigOperators.Group.List.Basic

/-! The accounting identity of the PnL ledger.  A run threads accepted fills of one
leader, symbol and side through `record_virtual_position`: each call finds the row of
the call before it.  Realized and unrealized profit together are then what the fills
cost against the mark price. -/
namespace AiQuant.CopyTrading
open AiQuant.Lib

def unrealizedPnlUsdt (side : PositionSide) (quantity averageEntryPrice markPrice : Decimal) :
    Decimal :=
  (markPrice - averageEntryPrice) * quantity * side.direction

/-- A fill as the accounting sees it. -/
structure Fill where
  localDelta : Decimal
  price : Decimal

def FillRecord.fill (record : FillRecord) : Fill where
  localDelta := record.localDelta
  price := record.referencePrice

/-- The cash the fills paid out: their signed quantities at their prices. -/
def cashPaid (fills : List Fill) : Decimal :=
  (fills.map fun fill => fill.localDelta * fill.price).sum

/-- The quantity after a list of fills and the prices of the increases since the
position was last flat. -/
def lifecycleStep (lifecycle : Decimal × List Decimal) (fill : Fill) : Decimal × List Decimal :=
  if lifecycle.1 + fill.localDelta = 0 then (0, [])
  else if 0 < fill.localDelta then (lifecycle.1 + fill.localDelta, lifecycle.2 ++ [fill.price])
  else (lifecycle.1 + fill.localDelta, lifecycle.2)

def openLifecycle (fills : List Fill) : Decimal × List Decimal :=
  fills.foldl lifecycleStep (0, [])

/-- The state a newest PnL row stands for; without a row the position is flat. -/
def pnlStateOf (latest : Option LeaderPnlEvent) : PnlState where
  quantity := (latest.map (·.resultingQuantity)).getD 0
  averageEntryPrice := (latest.map (·.resultingAverageEntryPrice)).getD 0
  cumulativeRealizedPnlUsdt := (latest.map (·.cumulativeRealizedPnlUsdt)).getD 0

structure PnlAccount (side : PositionSide) (fills : List Fill) (state : PnlState) : Prop where
  quantity_eq : (openLifecycle fills).1 = state.quantity
  quantity_nonneg : 0 ≤ state.quantity
  realized_eq : state.cumulativeRealizedPnlUsdt =
    side.direction * (state.averageEntryPrice * state.quantity - cashPaid fills)
  average_flat : state.quantity = 0 → state.averageEntryPrice = 0
  average_pos : 0 < state.quantity → 0 < state.averageEntryPrice
  prices_pos : ∀ price ∈ (openLifecycle fills).2, 0 < price
  prices_ne_nil : 0 < state.quantity → (openLifecycle fills).2 ≠ []
  low_le : ∀ low, (∀ price ∈ (openLifecycle fills).2, low ≤ price) → 0 < state.quantity →
    low ≤ state.averageEntryPrice
  le_high : ∀ high, (∀ price ∈ (openLifecycle fills).2, price ≤ high) → 0 < state.quantity →
    state.averageEntryPrice ≤ high

variable {side : PositionSide} {fills : List Fill} {st res : PnlState} {fill : Fill}
  {pnl : Decimal}

@[simp] theorem cashPaid_concat (fills : List Fill) (fill : Fill) :
    cashPaid (fills ++ [fill]) = cashPaid fills + fill.localDelta * fill.price := by
  simp [cashPaid]

@[simp] theorem openLifecycle_concat (fills : List Fill) (fill : Fill) :
    openLifecycle (fills ++ [fill]) = lifecycleStep (openLifecycle fills) fill := by
  simp [openLifecycle]

theorem pnlAccount_nil : PnlAccount side [] (pnlStateOf none) where
  quantity_eq := rfl
  quantity_nonneg := le_rfl
  realized_eq := by simp [cashPaid, pnlStateOf]
  average_flat _ := rfl
  average_pos hopen := absurd hopen (lt_irrefl 0)
  prices_pos := by simp [openLifecycle]
  prices_ne_nil hopen := absurd hopen (lt_irrefl 0)
  low_le _ _ hopen := absurd hopen (lt_irrefl 0)
  le_high _ _ hopen := absurd hopen (lt_irrefl 0)

theorem le_weighted_average {weight other left right low : Decimal} (hw : 0 ≤ weight)
    (ho : 0 < other) (hl : 0 < weight → low ≤ left) (hr : low ≤ right) :
    low ≤ (weight * left + other * right) / (weight + other) := by
  rw [le_div_iff₀ (by linarith)]
  have hf : weight * low ≤ weight * left := by
    rcases hw.eq_or_lt with hz | hp
    · simp [← hz]
    · exact mul_le_mul_of_nonneg_left (hl hp) hw
  have hs : other * low ≤ other * right := mul_le_mul_of_nonneg_left hr ho.le
  linarith

theorem weighted_average_le {weight other left right high : Decimal} (hw : 0 ≤ weight)
    (ho : 0 < other) (hl : 0 < weight → left ≤ high) (hr : right ≤ high) :
    (weight * left + other * right) / (weight + other) ≤ high := by
  have hn : -high ≤ (weight * -left + other * -right) / (weight + other) :=
    le_weighted_average hw ho (fun hp => neg_le_neg (hl hp)) (neg_le_neg hr)
  have hs : (weight * -left + other * -right) / (weight + other) =
      -((weight * left + other * right) / (weight + other)) := by
    rw [← neg_div]
    congr 1
    ring
  rw [hs] at hn
  linarith

theorem PnlAccount.increase (ha : PnlAccount side fills st) (hd : 0 < fill.localDelta)
    (hpr : 0 < fill.price)
    (hu : leaderPnlUpdate side st fill.localDelta fill.price = .ok (res, pnl)) :
    PnlAccount side (fills ++ [fill]) res := by
  rw [leaderPnlUpdate, if_pos hd] at hu
  cases hu
  have hq := ha.quantity_nonneg
  have ho : 0 < st.quantity + fill.localDelta := by linarith
  have hl : openLifecycle (fills ++ [fill]) =
      (st.quantity + fill.localDelta, (openLifecycle fills).2 ++ [fill.price]) := by
    rw [openLifecycle_concat, lifecycleStep, ha.quantity_eq, if_neg ho.ne', if_pos hd]
  have hp : ∀ bound : Decimal → Prop, (∀ price ∈ (openLifecycle (fills ++ [fill])).2, bound price) →
        (∀ price ∈ (openLifecycle fills).2, bound price) ∧ bound fill.price := by
    intro bound hall
    rw [hl] at hall
    exact ⟨fun price hm => hall price (List.mem_append_left _ hm), hall _ (by simp)⟩
  constructor
  · rw [hl]
  · exact ho.le
  · dsimp only
    rw [div_mul_cancel₀ _ ho.ne', ha.realized_eq, cashPaid_concat]
    ring
  · intro hf
    exact absurd hf ho.ne'
  · intro _
    apply div_pos _ ho
    have hold : 0 ≤ st.quantity * st.averageEntryPrice := by
      rcases hq.eq_or_lt with hz | hpos
      · simp [← hz]
      · exact (mul_pos hpos (ha.average_pos hpos)).le
    have hn := mul_pos hd hpr
    linarith
  · intro price hm
    rw [hl, List.mem_append, List.mem_singleton] at hm
    rcases hm with hm | rfl
    · exact ha.prices_pos price hm
    · exact hpr
  · intro _
    rw [hl]
    simp
  · intro low hlow _
    obtain ⟨hold, hn⟩ := hp (low ≤ ·) hlow
    exact le_weighted_average hq hd (ha.low_le low hold) hn
  · intro high hh _
    obtain ⟨hold, hn⟩ := hp (· ≤ high) hh
    exact weighted_average_le hq hd (ha.le_high high hold) hn

theorem PnlAccount.reduce (ha : PnlAccount side fills st) (hd : fill.localDelta < 0)
    (hr : 0 ≤ st.quantity + fill.localDelta)
    (hu : leaderPnlUpdate side st fill.localDelta fill.price = .ok (res, pnl)) :
    PnlAccount side (fills ++ [fill]) res := by
  rw [leaderPnlUpdate, if_neg hd.not_gt] at hu
  split at hu
  · cases hu
  rename_i hvalid
  rw [not_or, not_le] at hvalid
  cases hu
  have ho : 0 < st.quantity := by linarith
  rcases hr.eq_or_lt with hf | hre
  · -- the position closes: nothing of its lifecycle is left
    have hl : openLifecycle (fills ++ [fill]) = (0, []) := by
      rw [openLifecycle_concat, lifecycleStep, ha.quantity_eq, if_pos hf.symm]
    have hq : st.quantity = -fill.localDelta := by linarith
    constructor
    · rw [hl]
      exact hf
    · exact hr
    · simp only [← hf, lt_irrefl, if_false, ha.realized_eq, cashPaid_concat]
      rw [hq]
      ring
    · intro _
      simp [← hf]
    all_goals simp [← hf, hl]
  · have hl : openLifecycle (fills ++ [fill]) =
        (st.quantity + fill.localDelta, (openLifecycle fills).2) := by
      rw [openLifecycle_concat, lifecycleStep, ha.quantity_eq, if_neg hre.ne', if_neg hd.not_gt]
    simp only [hre, if_true]
    constructor
    · rw [hl]
    · exact hr
    · simp only [ha.realized_eq, cashPaid_concat]
      ring
    · intro hz
      exact absurd hz hre.ne'
    · intro _
      exact ha.average_pos ho
    · rw [hl]
      exact ha.prices_pos
    · rw [hl]
      exact fun _ => ha.prices_ne_nil ho
    · rw [hl]
      exact fun low hlow _ => ha.low_le low hlow ho
    · rw [hl]
      exact fun high hh _ => ha.le_high high hh ho

theorem PnlAccount.update (ha : PnlAccount side fills st) (hd : fill.localDelta ≠ 0)
    (hp : 0 < fill.price) (hr : 0 ≤ st.quantity + fill.localDelta)
    (hu : leaderPnlUpdate side st fill.localDelta fill.price = .ok (res, pnl)) :
    PnlAccount side (fills ++ [fill]) res := by
  rcases hd.lt_or_gt with hn | hpos
  · exact ha.reduce hn hr hu
  · exact ha.increase hpos hp hu

variable {delta : Decimal}

theorem PnlAccount.reduction_accepted (ha : PnlAccount side fills st)
    (hd : 0 < -delta) (hle : -delta ≤ st.quantity) (price : Decimal) :
    ∃ result, leaderPnlUpdate side st delta price = .ok result := by
  have hav : 0 < st.averageEntryPrice := ha.average_pos (by linarith)
  rw [leaderPnlUpdate, if_neg (by linarith), if_neg (not_or.mpr ⟨not_lt.mpr hle, hav.not_ge⟩)]
  exact ⟨_, rfl⟩

theorem leaderPnlUpdate_quantity {price : Decimal}
    (hu : leaderPnlUpdate side st delta price = .ok (res, pnl)) :
    res.quantity = st.quantity + delta := by
  unfold leaderPnlUpdate at hu
  dsimp only at hu
  split at hu
  · cases hu
    rfl
  split at hu
  · cases hu
  · cases hu
    rfl

theorem leaderPnlUpdate_error {price : Decimal} {code : String}
    (he : leaderPnlUpdate side st delta price = .error code) :
    code = "COPY_LEADER_PNL_REDUCTION_INVALID" := by
  unfold leaderPnlUpdate at he
  dsimp only at he
  split at he
  · cases he
  split at he
  · cases he
    rfl
  · cases he

section Run

variable [HexOrder] {key : VirtualPositionKey} {latest : Option LeaderPnlEvent}

/-- A run of accepted fills of one key: every call is made on a log whose newest PnL
row of the key is the row of the call before. -/
inductive FillRun (key : VirtualPositionKey) : List Fill → Option LeaderPnlEvent → Prop
  | start : FillRun key [] none
  | record {fills : List Fill} {latest : Option LeaderPnlEvent} {log after : EventLog}
      {record : FillRecord} {event : LeaderPnlEvent} (hrun : FillRun key fills latest)
      (hkey : record.signal.key = key) (hlatest : log.latestPnl key = latest)
      (hrecord : log.recordVirtualPosition record = .ok after)
      (hevent : after.pnls = log.pnls ++ [event]) :
      FillRun key (fills ++ [record.fill]) (some event)

theorem EventLog.previousPnl_eq {log : EventLog} {prev : VirtualPosition} {st : PnlState}
    (hp : log.previousPnl prev = .ok st) : st = pnlStateOf (log.latestPnl prev.key) ∧
      st.quantity = prev.localQuantity := by
  unfold EventLog.previousPnl at hp
  cases hl : log.latestPnl prev.key with
  | none =>
    simp only [hl] at hp
    split at hp
    · cases hp
    · rename_i hzero
      cases hp
      exact ⟨by simp [pnlStateOf, not_not.mp hzero], rfl⟩
  | some ev =>
    simp only [hl] at hp
    split at hp
    · cases hp
    · rename_i hquantity
      cases hp
      exact ⟨by simp [pnlStateOf, not_not.mp hquantity], rfl⟩

theorem EventLog.Attributes.pnlStateOf_event {log post : EventLog} {record : FillRecord}
    {prev res : PnlState} {slot : LeaderSlot} {pnl : Decimal}
    (ha : log.Attributes record post prev res slot pnl) :
    pnlStateOf (some (record.pnlEvent slot prev res pnl)) = res := by
  have hq := leaderPnlUpdate_quantity ha.update_eq
  rw [(EventLog.previousPnl_eq ha.previous_eq).2, FillRecord.localDelta, add_sub_cancel] at hq
  simp [pnlStateOf, FillRecord.pnlEvent, ← hq]

theorem pnlAccount_of_fillRun (hrun : FillRun key fills latest) :
    PnlAccount key.positionSide fills (pnlStateOf latest) := by
  induction hrun with
  | start => exact pnlAccount_nil
  | @record fills latest log post record ev _ hk hl hrecord he ih =>
    obtain ⟨hv, hun | ⟨prev, res, slot, pnl, ha⟩⟩ :=
      EventLog.recordVirtualPosition_cases hrecord
    · rw [hun.1] at he
      simp at he
    obtain ⟨hpr, -, hd, -, hpri, -⟩ := hv
    obtain ⟨hp, hq⟩ := EventLog.previousPnl_eq ha.previous_eq
    rw [hpr, hk, hl] at hp
    have hs : record.signal.positionSide = key.positionSide := by rw [← hk]; rfl
    have hu := ha.update_eq
    rw [hs, hp] at hu
    have hr : 0 ≤ (pnlStateOf latest).quantity + record.fill.localDelta := by
      rw [← hp, hq, FillRecord.fill, FillRecord.localDelta, add_sub_cancel]
      exact record.updated.localQuantity_nonneg
    -- the appended row is the one the accounting computed
    rw [ha.after_eq] at he
    have he := List.append_cancel_left he
    rw [List.cons.injEq] at he
    rw [← he.1, ha.pnlStateOf_event]
    exact ih.update hd hpri hr hu

/-- Realized plus unrealized profit is the value of the position at the mark less what
the fills paid, for both directions; the average entry price is that of a real open
lifecycle; and no reduction of at most the held quantity is refused as invalid. -/
theorem pnl_identity_of_fillRun (hrun : FillRun key fills latest) (markPrice : Decimal) :
    (pnlStateOf latest).cumulativeRealizedPnlUsdt +
        unrealizedPnlUsdt key.positionSide (pnlStateOf latest).quantity
          (pnlStateOf latest).averageEntryPrice markPrice = key.positionSide.direction *
        (markPrice * (pnlStateOf latest).quantity - cashPaid fills) ∧
    (0 < (pnlStateOf latest).quantity → 0 < (pnlStateOf latest).averageEntryPrice ∧
      ∃ low high, (openLifecycle fills).2.min? = some low ∧
        (openLifecycle fills).2.max? = some high ∧
        low ≤ (pnlStateOf latest).averageEntryPrice ∧
        (pnlStateOf latest).averageEntryPrice ≤ high) ∧
    ((pnlStateOf latest).quantity = 0 → (pnlStateOf latest).averageEntryPrice = 0) ∧
    ∀ (log : EventLog) (record : FillRecord), log.latestPnl key = latest →
      record.signal.key = key → 0 < -record.localDelta →
      -record.localDelta ≤ (pnlStateOf latest).quantity →
      log.recordVirtualPosition record ≠ .error "COPY_LEADER_PNL_REDUCTION_INVALID" := by
  have ha := pnlAccount_of_fillRun hrun
  refine ⟨?_, ?_, ha.average_flat, ?_⟩
  · rw [ha.realized_eq, unrealizedPnlUsdt]
    ring
  · intro ho
    have hne := ha.prices_ne_nil ho
    obtain ⟨low, hlow⟩ := Option.ne_none_iff_exists'.mp (mt List.min?_eq_none_iff.mp hne)
    obtain ⟨high, hh⟩ := Option.ne_none_iff_exists'.mp (mt List.max?_eq_none_iff.mp hne)
    refine ⟨ha.average_pos ho, low, high, hlow, hh, ?_, ?_⟩
    · exact ha.low_le low (List.min?_eq_some_iff.mp hlow).2 ho
    · exact ha.le_high high (List.max?_eq_some_iff.mp hh).2 ho
  · intro log record hl hk hd hle he
    rcases EventLog.recordVirtualPosition_error he with hc | ⟨hv, he⟩
    · exact absurd hc (by decide)
    rcases he with hp | hsl | ⟨prev, hp, hu⟩
    · exact absurd (EventLog.previousPnl_error hp) (by decide)
    · exact absurd (EventLog.fillSlot_error hsl) (by decide)
    · have hs := (EventLog.previousPnl_eq hp).1
      rw [hv.1, hk, hl] at hs
      have hsi : record.signal.positionSide = key.positionSide := by rw [← hk]; rfl
      obtain ⟨result, hok⟩ := ha.reduction_accepted hd hle record.referencePrice
      rw [hs, hsi, hok] at hu
      cases hu

end Run

section HalfClosed

local instance singleRowPnlOrder : HexOrder := ⟨fun _ => 0⟩

def shortSignal (text : String) (kind : SignalKind) (delta : Decimal) : NormalizedSignal where
  signalId := .external text
  sourceEventKey := .external text
  sourceIdentityKey := .external text
  leadPortfolioId := "1"
  symbol := "BTCUSDT"
  positionSide := .short
  kind := kind
  sourceDeltaQuantity := delta
  sourceCumulativeQuantity := delta
  referencePrice := 100
  occurredAtMs := 1000

def shortKey : VirtualPositionKey := ⟨"1", "BTCUSDT", .short⟩

def shortOpen : FillRecord where
  signal := shortSignal "open" .increase 2
  previous := VirtualPositionLedger.positionFor ⟨[], List.nodup_nil⟩ (shortSignal "open" .increase 2)
  updated := ⟨shortKey, 2, 2, by decide, by decide⟩
  referencePrice := 100
  leverage := 10
  occurredAt := 1000

def shortHalf : FillRecord where
  signal := shortSignal "half" .reduce 1
  previous := ⟨shortKey, 2, 2, by decide, by decide⟩
  updated := ⟨shortKey, 1, 1, by decide, by decide⟩
  referencePrice := 90
  leverage := 10
  occurredAt := 2000

def assignedLog : EventLog :=
  { slotAssignments := [⟨.external "slot", .longTerm, "1", 0⟩] }

def shortOpened : EventLog :=
  okValue (assignedLog.recordVirtualPosition shortOpen) (by with_unfolding_all decide)

def shortHalved : EventLog :=
  okValue (shortOpened.recordVirtualPosition shortHalf) (by with_unfolding_all decide)

def shortOpenPnl : LeaderPnlEvent :=
  shortOpen.pnlEvent .longTerm ⟨0, 0, 0⟩ ⟨2, 100, 0⟩ 0

def shortHalfPnl : LeaderPnlEvent :=
  shortHalf.pnlEvent .longTerm ⟨2, 100, 0⟩ ⟨1, 100, 10⟩ 10

/-- Two sold at 100 and one bought back at 90: ten realized, and with the mark at 80
another twenty on the unit that is still open. -/
theorem half_closed_short_identity :
    shortHalfPnl.cumulativeRealizedPnlUsdt + unrealizedPnlUsdt .short 1 100 80 =
      -1 * (80 * 1 - (2 * 100 - 1 * 90)) := by
  have hopen : assignedLog.recordVirtualPosition shortOpen = .ok shortOpened := eq_ok_okValue _
  have hhalf : shortOpened.recordVirtualPosition shortHalf = .ok shortHalved := eq_ok_okValue _
  have ho : shortOpened.pnls = assignedLog.pnls ++ [shortOpenPnl] := by
    with_unfolding_all decide
  have hh : shortHalved.pnls = shortOpened.pnls ++ [shortHalfPnl] := by
    with_unfolding_all decide
  have hop := FillRun.record (@FillRun.start _ shortKey) rfl (by decide) hopen ho
  have hha := FillRun.record hop rfl (by with_unfolding_all decide) hhalf hh
  have hi := (pnl_identity_of_fillRun hha 80).1
  have hc : cashPaid ([] ++ [shortOpen.fill] ++ [shortHalf.fill]) = 2 * 100 - 1 * 90 := by
    with_unfolding_all decide
  rw [hc] at hi
  exact hi

end HalfClosed

end AiQuant.CopyTrading
