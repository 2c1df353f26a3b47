import AiQuant.CopyTrading.Models
import AiQuant.Lib.Fallible
import Mathlib.Data.List.Induction
import Mathlib.Data.List.Sort
import Mathlib.Algebra.Order.BigOperators.Group.List
import Mathlib.Tactic.Linarith
import Mathlib.Tactic.Ring

/-! Fail-closed resolution of one-way (`BOTH`) public orders into hedge sides
(`copy_trading/one_way.py`).  The resolver keeps, for every raw order, the
quantity already attributed to each side, and splits only the quantity beyond it. -/
namespace AiQuant.CopyTrading
open AiQuant.Lib

/-- `key=lambda order: (order.update_time_ms, order.event_key)`. -/
def PublicLeaderOrder.sortKey [HexOrder] (order : PublicLeaderOrder) : ℤ ×ₗ ℕ :=
  toLex (order.updateTimeMs, HexOrder.value order.eventKey)

def sortedOrders [HexOrder] (orders : List PublicLeaderOrder) : List PublicLeaderOrder :=
  orders.insertionSort fun left right => left.sortKey ≤ right.sortKey

structure RawOrderKey where
  symbol : String
  orderSide : OrderSide
  orderType : String
  orderTimeMs : ℤ
deriving DecidableEq

def PublicLeaderOrder.rawKey (order : PublicLeaderOrder) : RawOrderKey :=
  ⟨order.symbol, order.orderSide, order.orderType, order.orderTimeMs⟩

/-- A public position interval that may still be open at its evidence watermark.
The history endpoint only knows `Long` and `Short`. -/
structure ClosedLeaderPosition where
  symbol : String
  positionSide : PositionSide
  openedAtMs : ℤ
  closedAtMs : Option ℤ
  maximumOpenQuantity : Decimal
  closedQuantity : Decimal
  evidenceUpdatedAtMs : Option ℤ
deriving DecidableEq

abbrev SourcePositions := String × PositionSide → Decimal
abbrev BySide := PositionSide → Decimal

def openingSide : OrderSide → PositionSide
  | .buy => .long
  | .sell => .short

def reductionSide : OrderSide → PositionSide
  | .buy => .short
  | .sell => .long

def applyPositionDelta (positions : SourcePositions) (symbol : String) (side : PositionSide)
    (orderSide : OrderSide) (quantity : Decimal) : SourcePositions :=
  let current := positions (symbol, side)
  Function.update positions (symbol, side)
    (if increases side.source orderSide then current + quantity else max 0 (current - quantity))

/-- The loop of `_latest_by_identity` on one row. -/
def keepLatest [HexOrder] (latest : List PublicLeaderOrder) (order : PublicLeaderOrder) :
    List PublicLeaderOrder :=
  match latest.find? (·.identityKey = order.identityKey) with
  | none => latest ++ [order]
  | some previous =>
    if previous.recency < order.recency then
      latest.map fun kept => if kept.identityKey = order.identityKey then order else kept
    else latest

/-- `_latest_by_identity`: one row for each identity, in order of first appearance. -/
def latestByIdentity [HexOrder] (orders : List PublicLeaderOrder) : List PublicLeaderOrder :=
  orders.foldl keepLatest []

/-- `_closed_interval`: the one public interval of the symbol that covers the order. -/
def closedInterval (order : PublicLeaderOrder) (positions : List ClosedLeaderPosition) :
    Except String (Option ClosedLeaderPosition) :=
  let covers (position : ClosedLeaderPosition) : Bool :=
    match position.closedAtMs <|> position.evidenceUpdatedAtMs with
    | none => false
    | some intervalEnd =>
      position.symbol = order.symbol &&
        ((position.openedAtMs ≤ order.orderTimeMs && order.orderTimeMs ≤ intervalEnd) ||
          (position.openedAtMs ≤ order.updateTimeMs && order.updateTimeMs ≤ intervalEnd))
  match positions.filter covers with
  | [] => .ok none
  | [position] => .ok (some position)
  | _ => .error "COPY_ONE_WAY_POSITION_INTERVAL_OVERLAP"

/-- `_allocate_against_position`: reduce the opposing side first, open with the rest. -/
def allocateAgainstPosition (order : PublicLeaderOrder) (delta : Decimal)
    (positions : SourcePositions) : Except String (List (PositionSide × Decimal)) :=
  let opening := openingSide order.orderSide
  let reducing := reductionSide order.orderSide
  let opposing := positions (order.symbol, reducing)
  let same := positions (order.symbol, opening)
  if 0 < opposing ∧ 0 < same then .error "COPY_ONE_WAY_SOURCE_STATE_HEDGED"
  else if opposing ≤ 0 then
    if order.totalPnl ≠ 0 ∧ same ≤ 0 then .error "COPY_ONE_WAY_REDUCTION_STATE_MISSING"
    else .ok [(opening, delta)]
  else
    let reduction := min opposing delta
    let increase := delta - reduction
    .ok ((reducing, reduction) :: if 0 < increase then [(opening, increase)] else [])

/-- `_allocate_with_closed_interval`: the interval's closed volume is authoritative. -/
def allocateWithClosedInterval (order : PublicLeaderOrder) (delta : Decimal)
    (interval : ClosedLeaderPosition) (previousBySide : BySide) :
    Except String (List (PositionSide × Decimal)) :=
  let side := interval.positionSide
  if increases side.source order.orderSide then .ok [(side, delta)]
  else if interval.closedAtMs = none then .ok [(side, delta)]
  else
    let remaining := max 0 (interval.closedQuantity - previousBySide side)
    let reduction := min delta remaining
    let increase := delta - reduction
    let allocations :=
      (if 0 < reduction then [(side, reduction)] else []) ++
        (if 0 < increase then [(openingSide order.orderSide, increase)] else [])
    if allocations.isEmpty then .error "COPY_ONE_WAY_CLOSED_VOLUME_EXHAUSTED"
    else .ok allocations

structure ResolverState where
  positions : SourcePositions
  cumulative : RawOrderKey → BySide
  resolved : List PublicLeaderOrder

def emitAllocation (order : PublicLeaderOrder) (allocationCount : ℕ) (state : ResolverState)
    (allocation : PositionSide × Decimal) : Except String ResolverState :=
  let (side, allocated) := allocation
  if allocated ≤ 0 then .ok state
  else do
    let quantity := state.cumulative order.rawKey side + allocated
    let resolved ← order.resolvePositionSide side quantity
      (if side = reductionSide order.orderSide ∨ allocationCount = 1 then order.totalPnl else 0)
    .ok {
      positions := applyPositionDelta state.positions order.symbol side order.orderSide allocated
      cumulative := Function.update state.cumulative order.rawKey
        (Function.update (state.cumulative order.rawKey) side quantity)
      resolved := state.resolved ++ [resolved] }

def resolveOrder (closedPositions : List ClosedLeaderPosition) (state : ResolverState)
    (order : PublicLeaderOrder) : Except String ResolverState :=
  if order.positionSide ≠ .both then
    .ok { state with resolved := state.resolved ++ [order] }
  else
    let previousBySide := state.cumulative order.rawKey
    let previousTotal := previousBySide .long + previousBySide .short
    if order.executedQuantity ≤ previousTotal then .ok state
    else do
      let delta := order.executedQuantity - previousTotal
      let allocations ← match ← closedInterval order closedPositions with
        | some interval => allocateWithClosedInterval order delta interval previousBySide
        | none => allocateAgainstPosition order delta state.positions
      allocations.foldlM (emitAllocation order allocations.length) state

def replayPrior (state : ResolverState) (prior : PublicLeaderOrder) : ResolverState :=
  match prior.positionSide.explicit? with
  | none => state
  | some side =>
    let bySide := state.cumulative prior.rawKey
    { state with
      positions := applyPositionDelta state.positions prior.symbol side prior.orderSide
        prior.executedQuantity
      cumulative := Function.update state.cumulative prior.rawKey
        (Function.update bySide side (max (bySide side) prior.executedQuantity)) }

def resolveOneWayOrders [HexOrder] (orders priorOrders : List PublicLeaderOrder)
    (closedPositions : List ClosedLeaderPosition) : Except String (List PublicLeaderOrder) :=
  if ((priorOrders ++ orders).map (·.leadPortfolioId)).dedup.length > 1 then
    .error "COPY_ONE_WAY_LEADER_MISMATCH"
  else if priorOrders.any (·.positionSide = .both) then
    .error "COPY_ONE_WAY_PRIOR_ORDER_UNRESOLVED"
  else do
    let ledger := (sortedOrders (latestByIdentity priorOrders)).foldl replayPrior
      ⟨fun _ => 0, fun _ _ => 0, []⟩
    let state ← (sortedOrders orders).foldlM (resolveOrder closedPositions) ledger
    .ok state.resolved

/-- A split of `delta` over distinct sides into positive parts. -/
structure IsSplit (delta : Decimal) (allocations : List (PositionSide × Decimal)) : Prop where
  positive : ∀ allocation ∈ allocations, 0 < allocation.2
  nodup : (allocations.map Prod.fst).Nodup
  total : (allocations.map Prod.snd).sum = delta

theorem reductionSide_ne_openingSide (side : OrderSide) :
    reductionSide side ≠ openingSide side := by
  cases side <;> simp [reductionSide, openingSide]

theorem ne_openingSide_of_not_increases {side : PositionSide} {orderSide : OrderSide}
    (hr : ¬ increases side.source orderSide = true) : side ≠ openingSide orderSide := by
  cases side <;> cases orderSide <;>
    simp_all [increases, PositionSide.source, openingSide]

variable {delta : Decimal}

private theorem isSplit_single (hd : 0 < delta) (side : PositionSide) :
    IsSplit delta [(side, delta)] := by
  constructor <;> simp [hd]

private theorem isSplit_pair {first second : Decimal} {left right : PositionSide}
    (hf : 0 < first) (hs : 0 < second) (hne : left ≠ right) :
    IsSplit (first + second) [(left, first), (right, second)] := by
  constructor <;> simp [hf, hs, hne]

theorem isSplit_of_allocateAgainstPosition {ord : PublicLeaderOrder} {positions : SourcePositions}
    {allocs : List (PositionSide × Decimal)} (hd : 0 < delta)
    (ha : allocateAgainstPosition ord delta positions = .ok allocs) : IsSplit delta allocs := by
  simp only [allocateAgainstPosition] at ha
  split at ha
  · cases ha
  split at ha
  · split at ha
    · cases ha
    · cases ha
      exact isSplit_single hd _
  · rename_i hopposing
    rw [not_le] at hopposing
    cases ha
    have hr : 0 < min (positions (ord.symbol, reductionSide ord.orderSide)) delta :=
      lt_min hopposing hd
    split
    · rename_i hincrease
      have hs := isSplit_pair hr hincrease (reductionSide_ne_openingSide ord.orderSide)
      rwa [add_sub_cancel] at hs
    · rename_i hincrease
      have hall : min (positions (ord.symbol, reductionSide ord.orderSide)) delta = delta :=
        le_antisymm (min_le_right _ _) (by linarith)
      rw [hall]
      exact isSplit_single hd _

theorem isSplit_of_allocateWithClosedInterval {ord : PublicLeaderOrder} {ivl : ClosedLeaderPosition}
    {previousBySide : BySide} {allocs : List (PositionSide × Decimal)} (hd : 0 < delta)
    (ha : allocateWithClosedInterval ord delta ivl previousBySide = .ok allocs) :
    IsSplit delta allocs := by
  simp only [allocateWithClosedInterval] at ha
  split at ha
  · cases ha
    exact isSplit_single hd _
  rename_i hreduces
  split at ha
  · cases ha
    exact isSplit_single hd _
  set remaining := max 0 (ivl.closedQuantity - previousBySide ivl.positionSide)
  by_cases hr : 0 < min delta remaining
  · by_cases hi : 0 < delta - min delta remaining
    · simp only [hr, hi, if_true, List.singleton_append, List.isEmpty_cons,
        Bool.false_eq_true, if_false] at ha
      cases ha
      have hs := isSplit_pair hr hi (ne_openingSide_of_not_increases hreduces)
      rwa [add_sub_cancel] at hs
    · simp only [hr, hi, if_true, List.append_nil, List.isEmpty_cons,
        Bool.false_eq_true, if_false] at ha
      cases ha
      have hall : min delta remaining = delta :=
        le_antisymm (min_le_left _ _) (by linarith)
      rw [hall]
      exact isSplit_single hd _
  · have hn : min delta remaining = 0 :=
      le_antisymm (not_lt.mp hr) (le_min hd.le (le_max_left _ _))
    simp only [hn, lt_irrefl, if_false, sub_zero, hd, if_true, List.nil_append,
      List.isEmpty_cons, Bool.false_eq_true] at ha
    cases ha
    exact isSplit_single hd _

end AiQuant.CopyTrading
