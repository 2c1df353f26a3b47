import AiQuant.CopyTrading.Models
import Mathlib.Algebra.Order.Floor.Ring
import Mathlib.Data.Rat.Floor
import Mathlib.Data.String.Basic
import Mathlib.Tactic.Linarith
import Mathlib.Tactic.FieldSimp
import Mathlib.Tactic.Positivity

/-! Per-leader virtual positions over an exchange-level hedge-mode aggregate
(`copy_trading/ledger.py`).  The dictionary of positions is a list with one entry
for each key, so a ledger with two positions of one leader, symbol and side cannot
be built. -/
namespace AiQuant.CopyTrading

structure VirtualPositionKey where
  leadPortfolioId : String
  symbol : String
  positionSide : PositionSide
deriving DecidableEq

/-- The quantities a leader owns of one symbol and side.  Both are non-negative, as
`__post_init__` checks. -/
structure VirtualPosition where
  key : VirtualPositionKey
  localQuantity : Decimal := 0
  observedSourceQuantity : Decimal := 0
  localQuantity_nonneg : 0 ≤ localQuantity := by exact le_rfl
  observedSourceQuantity_nonneg : 0 ≤ observedSourceQuantity := by exact le_rfl
deriving DecidableEq

/-- The exchange's filters of a symbol, positive and in range as `__post_init__`
checks. -/
structure SymbolTradingRules where
  quantityStep : Decimal
  minimumQuantity : Decimal
  maximumQuantity : Decimal
  minimumNotionalUsdt : Decimal
  exchangeMaximumLeverage : ℕ
  currentLeverage : ℕ
  priceTick : Decimal
  quantityStep_pos : 0 < quantityStep
  minimumQuantity_pos : 0 < minimumQuantity
  minimumNotionalUsdt_pos : 0 < minimumNotionalUsdt
  priceTick_pos : 0 < priceTick
  minimumQuantity_le : minimumQuantity ≤ maximumQuantity
  exchangeMaximumLeverage_le : exchangeMaximumLeverage ≤ 125
  currentLeverage_pos : 1 ≤ currentLeverage
  currentLeverage_le : currentLeverage ≤ exchangeMaximumLeverage

structure ReductionPlan where
  approved : Bool
  key : VirtualPositionKey
  requestedLocalQuantity : Decimal
  attributedSourceQuantity : Decimal
  closesVirtualPosition : Bool
  reasonCodes : List String
deriving DecidableEq

structure VirtualPositionLedger where
  positions : List VirtualPosition
  nodup_keys : (positions.map (·.key)).Nodup
deriving DecidableEq

/-- `_key_for`. -/
def NormalizedSignal.key (signal : NormalizedSignal) : VirtualPositionKey where
  leadPortfolioId := signal.leadPortfolioId
  symbol := signal.symbol
  positionSide := signal.positionSide

/-- The exchange's positions by symbol and side, one entry for each. -/
structure ExchangePositions where
  entries : List ((String × PositionSide) × Decimal)
  nodup_keys : (entries.map Prod.fst).Nodup

/-- `exchange_positions.get((symbol, side), Decimal("0"))`. -/
def ExchangePositions.quantity (exchange : ExchangePositions) (pair : String × PositionSide) :
    Decimal :=
  ((exchange.entries.find? (·.1 = pair)).map (·.2)).getD 0

def VirtualPositionKey.pair (key : VirtualPositionKey) : String × PositionSide :=
  (key.symbol, key.positionSide)

/-- `(item[0], item[1].value)`: the text of `LONG` comes before that of `SHORT`. -/
def pairOrder (pair : String × PositionSide) : String ×ₗ ℕ :=
  toLex (pair.1, match pair.2 with
    | .long => 0
    | .short => 1)

def exchangeOrderSide (signal : NormalizedSignal) : OrderSide :=
  match signal.positionSide, signal.kind with
  | .long, .increase => .buy
  | .long, .reduce => .sell
  | .short, .increase => .sell
  | .short, .reduce => .buy

def floorToStep (value step : Decimal) : Decimal :=
  if value ≤ 0 then 0 else (⌊value / step⌋ : ℤ) * step

def ceilToStep (value step : Decimal) : Decimal :=
  let floored := floorToStep value step
  if floored = value then floored else floored + step

namespace VirtualPositionLedger

/-- `self._positions.get(key)`. -/
def get? (ledger : VirtualPositionLedger) (key : VirtualPositionKey) : Option VirtualPosition :=
  ledger.positions.find? (·.key = key)

/-- `self._positions[position.key] = position`. -/
def set (ledger : VirtualPositionLedger) (position : VirtualPosition) :
    VirtualPositionLedger where
  positions := position :: ledger.positions.filter (·.key ≠ position.key)
  nodup_keys := by
    rw [List.map_cons, List.nodup_cons]
    constructor
    · simp
    · exact ledger.nodup_keys.sublist (List.Sublist.map _ List.filter_sublist)

@[simp] theorem get?_set (ledger : VirtualPositionLedger) (pos : VirtualPosition)
    (key : VirtualPositionKey) : (ledger.set pos).get? key =
      if pos.key = key then some pos else ledger.get? key := by
  unfold get? set
  rw [List.find?_cons]
  by_cases hk : pos.key = key
  · simp [hk]
  · simp only [hk, decide_false, if_false, List.find?_filter]
    congr 1
    funext other
    by_cases ho : other.key = key
    · simp [ho, Ne.symm hk]
    · simp [ho]

/-- `position_for`: an absent key has an empty position. -/
def positionFor (ledger : VirtualPositionLedger) (signal : NormalizedSignal) : VirtualPosition :=
  (ledger.get? signal.key).getD { key := signal.key }

/-- `attributed_source_quantity or signal.source_delta_quantity`: an attributed
quantity of zero is replaced too. -/
def increaseSource (attributedSourceQuantity : Option Decimal) (sourceDeltaQuantity : Decimal) :
    Decimal :=
  match attributedSourceQuantity with
  | some quantity => if quantity = 0 then sourceDeltaQuantity else quantity
  | none => sourceDeltaQuantity

def recordIncreaseFill (ledger : VirtualPositionLedger) (signal : NormalizedSignal)
    (filledLocalQuantity : Decimal) (attributedSourceQuantity : Option Decimal) :
    Except String (VirtualPosition × VirtualPositionLedger) :=
  if hfill : signal.kind ≠ .increase ∨ filledLocalQuantity ≤ 0 then
    .error "copy increase fill is invalid"
  else
    let sourceQuantity := increaseSource attributedSourceQuantity signal.sourceDeltaQuantity
    if hsource : ¬ (0 < sourceQuantity ∧ sourceQuantity ≤ signal.sourceDeltaQuantity) then
      .error "copy attributed source increase is invalid"
    else
      let current := ledger.positionFor signal
      let updated : VirtualPosition := {
        key := current.key
        localQuantity := current.localQuantity + filledLocalQuantity
        observedSourceQuantity := current.observedSourceQuantity + sourceQuantity
        localQuantity_nonneg :=
          add_nonneg current.localQuantity_nonneg (not_le.mp (not_or.mp hfill).2).le
        observedSourceQuantity_nonneg :=
          add_nonneg current.observedSourceQuantity_nonneg (not_not.mp hsource).1.le }
      .ok (updated, ledger.set updated)

def rejectedReduction (key : VirtualPositionKey) (reason : String) : ReductionPlan where
  approved := false
  key := key
  requestedLocalQuantity := 0
  attributedSourceQuantity := 0
  closesVirtualPosition := false
  reasonCodes := [reason]

def sourceReduction (current : VirtualPosition) (sourceDeltaQuantity : Decimal) : Decimal :=
  if current.observedSourceQuantity ≤ 0 then sourceDeltaQuantity
  else min sourceDeltaQuantity current.observedSourceQuantity

def localReduction (current : VirtualPosition) (sourceDeltaQuantity quantityStep : Decimal) :
    Decimal :=
  min current.localQuantity <|
    if current.observedSourceQuantity ≤ 0 ∨
        current.observedSourceQuantity ≤ sourceDeltaQuantity then
      current.localQuantity
    else
      max quantityStep (floorToStep (current.localQuantity *
        (sourceReduction current sourceDeltaQuantity / current.observedSourceQuantity))
        quantityStep)

/-- The sizing part of `plan_reduction`, on the position it reads. -/
def planFrom (current : VirtualPosition) (sourceDeltaQuantity quantityStep : Decimal) :
    ReductionPlan :=
  if current.localQuantity ≤ 0 then rejectedReduction current.key "COPY_REDUCTION_ORPHAN"
  else if localReduction current sourceDeltaQuantity quantityStep ≤ 0 then
    rejectedReduction current.key "COPY_REDUCTION_BELOW_EXCHANGE_STEP"
  else {
    approved := true
    key := current.key
    requestedLocalQuantity := localReduction current sourceDeltaQuantity quantityStep
    attributedSourceQuantity := sourceReduction current sourceDeltaQuantity
    closesVirtualPosition :=
      localReduction current sourceDeltaQuantity quantityStep = current.localQuantity
    reasonCodes := [] }

/-- `plan_reduction`.  A given source quantity replaces the observed one, also in the
ledger itself. -/
def planReduction (ledger : VirtualPositionLedger) (signal : NormalizedSignal)
    (rules : SymbolTradingRules) (sourcePositionQuantity : Option Decimal) :
    ReductionPlan × VirtualPositionLedger :=
  if signal.kind ≠ .reduce then
    (rejectedReduction signal.key "COPY_REDUCTION_NOT_A_REDUCTION", ledger)
  else match sourcePositionQuantity with
    | none =>
      (planFrom (ledger.positionFor signal) signal.sourceDeltaQuantity rules.quantityStep, ledger)
    | some quantity =>
      if hquantity : quantity < 0 then
        (rejectedReduction signal.key "COPY_SOURCE_POSITION_QUANTITY_INVALID", ledger)
      else
        let current : VirtualPosition := { ledger.positionFor signal with
          observedSourceQuantity := quantity
          observedSourceQuantity_nonneg := not_lt.mp hquantity }
        (planFrom current signal.sourceDeltaQuantity rules.quantityStep, ledger.set current)

def recordReductionFill (ledger : VirtualPositionLedger) (plan : ReductionPlan)
    (filledLocalQuantity : Decimal) : Except String (VirtualPosition × VirtualPositionLedger) :=
  if plan.approved = false ∨
      ¬ (0 < filledLocalQuantity ∧ filledLocalQuantity ≤ plan.requestedLocalQuantity) then
    .error "copy reduction fill is invalid"
  else match ledger.get? plan.key with
    | none => .error "copy reduction exceeds leader-owned position"
    | some current =>
      if hfill : current.localQuantity < filledLocalQuantity then
        .error "copy reduction exceeds leader-owned position"
      else
        let sourceReduction := min current.observedSourceQuantity
          (plan.attributedSourceQuantity * (filledLocalQuantity / plan.requestedLocalQuantity))
        let remainingLocal := current.localQuantity - filledLocalQuantity
        let updated : VirtualPosition := {
          key := current.key
          localQuantity := remainingLocal
          observedSourceQuantity :=
            if remainingLocal = 0 then 0 else current.observedSourceQuantity - sourceReduction
          localQuantity_nonneg := sub_nonneg.mpr (not_lt.mp hfill)
          observedSourceQuantity_nonneg := by
            split
            · exact le_rfl
            · exact sub_nonneg.mpr (min_le_left _ _) }
        .ok (updated, ledger.set updated)

@[simp] theorem positionFor_key (ledger : VirtualPositionLedger) (sig : NormalizedSignal) :
    (ledger.positionFor sig).key = sig.key := by
  unfold positionFor get?
  cases hf : ledger.positions.find? (·.key = sig.key) with
  | none => rfl
  | some pos => simpa using List.find?_some hf

/-- The local quantity of a key, `0` for an absent one. -/
def localQuantity (ledger : VirtualPositionLedger) (key : VirtualPositionKey) : Decimal :=
  ((ledger.get? key).map (·.localQuantity)).getD 0

/-- What the leaders own together of a symbol and side. -/
def ownedQuantity (ledger : VirtualPositionLedger) (symbol : String)
    (positionSide : PositionSide) : Decimal :=
  ((ledger.positions.filter fun position =>
    position.key.symbol = symbol && position.key.positionSide = positionSide).map
    (·.localQuantity)).sum

theorem positionFor_localQuantity (ledger : VirtualPositionLedger) (sig : NormalizedSignal) :
    (ledger.positionFor sig).localQuantity = ledger.localQuantity sig.key := by
  unfold positionFor localQuantity
  cases ledger.get? sig.key with
  | none => rfl
  | some pos => rfl

theorem localQuantity_nonneg (ledger : VirtualPositionLedger) (key : VirtualPositionKey) :
    0 ≤ ledger.localQuantity key := by
  unfold localQuantity
  cases ledger.get? key with
  | none => exact le_rfl
  | some pos => exact pos.localQuantity_nonneg

variable {ledger : VirtualPositionLedger} {sig : NormalizedSignal}

theorem positionFor_set {pos : VirtualPosition} (hk : pos.key = sig.key) :
    (ledger.set pos).positionFor sig = pos := by
  rw [positionFor, get?_set, if_pos hk, Option.getD_some]

variable {post : VirtualPositionLedger} {filled : Decimal} {updated : VirtualPosition}

theorem recordIncreaseFill_spec {attributed : Option Decimal}
    (hr : ledger.recordIncreaseFill sig filled attributed = .ok (updated, post)) :
    sig.kind = .increase ∧ 0 < filled ∧ updated.key = sig.key ∧
      updated.localQuantity = (ledger.positionFor sig).localQuantity + filled := by
  unfold recordIncreaseFill at hr
  split at hr
  · cases hr
  rename_i hf
  rw [not_or, not_not, not_le] at hf
  dsimp only at hr
  split at hr
  · cases hr
  cases hr
  exact ⟨hf.1, hf.2, ledger.positionFor_key sig, rfl⟩

theorem planFrom_requested {current : VirtualPosition} {delta step : Decimal}
    (ha : (planFrom current delta step).approved = true) :
    0 < (planFrom current delta step).requestedLocalQuantity ∧
      (planFrom current delta step).requestedLocalQuantity ≤ current.localQuantity ∧
      (planFrom current delta step).key = current.key := by
  unfold planFrom at ha ⊢
  split at ha
  · cases ha
  split at ha
  · cases ha
  rename_i hlocal hpositive
  rw [if_neg hlocal, if_neg hpositive]
  exact ⟨not_le.mp hpositive, min_le_left _ _, rfl⟩

variable {plan : ReductionPlan}

theorem planReduction_requested {rules : SymbolTradingRules} {source : Option Decimal}
    (hpl : ledger.planReduction sig rules source = (plan, post)) (ha : plan.approved = true) :
    sig.kind = .reduce ∧ plan.key = sig.key ∧ 0 < plan.requestedLocalQuantity ∧
      plan.requestedLocalQuantity ≤ (post.positionFor sig).localQuantity ∧
      (post.positionFor sig).localQuantity = (ledger.positionFor sig).localQuantity := by
  unfold planReduction at hpl
  split at hpl
  · cases hpl
    cases ha
  rename_i hk
  rw [ne_eq, not_not] at hk
  split at hpl
  · cases hpl
    obtain ⟨hp, hle, hkey⟩ := planFrom_requested ha
    exact ⟨hk, hkey.trans (ledger.positionFor_key sig), hp, hle, rfl⟩
  split at hpl
  · cases hpl
    cases ha
  dsimp only at hpl
  cases hpl
  obtain ⟨hp, hle, hkey⟩ := planFrom_requested ha
  have hc := ledger.positionFor_key sig
  refine ⟨hk, hkey.trans hc, hp, ?_⟩
  rw [positionFor_set (by exact hc)]
  exact ⟨hle, rfl⟩

theorem recordReductionFill_spec
    (hr : ledger.recordReductionFill plan filled = .ok (updated, post)) :
    0 < filled ∧ ∃ current, ledger.get? plan.key = some current ∧
      updated.key = current.key ∧ updated.localQuantity = current.localQuantity - filled := by
  unfold recordReductionFill at hr
  split at hr
  · cases hr
  rename_i hv
  rw [not_or, not_not] at hv
  split at hr
  · cases hr
  rename_i current hc
  split at hr
  · cases hr
  cases hr
  exact ⟨hv.2.1, current, hc, rfl, rfl⟩

theorem recordReductionFill_planned {aligned : VirtualPositionLedger} {rules : SymbolTradingRules}
    {source : Option Decimal} (hpl : ledger.planReduction sig rules source = (plan, aligned))
    (ha : plan.approved = true)
    (hr : aligned.recordReductionFill plan filled = .ok (updated, post)) : 0 < filled ∧
      updated.localQuantity = (aligned.positionFor sig).localQuantity - filled := by
  obtain ⟨hf, current, hc, -, hl⟩ := recordReductionFill_spec hr
  obtain ⟨-, hk, -⟩ := planReduction_requested hpl ha
  have hp : aligned.positionFor sig = current := by
    rw [positionFor, ← hk, hc, Option.getD_some]
  rw [hp]
  exact ⟨hf, hl⟩

theorem recordReductionFill_isOk (ha : plan.approved = true) (hk : plan.key = sig.key)
    (hf : 0 < filled) (hle : filled ≤ plan.requestedLocalQuantity)
    (hh : plan.requestedLocalQuantity ≤ (ledger.positionFor sig).localQuantity) :
    ∃ updated post, ledger.recordReductionFill plan filled = .ok (updated, post) ∧
      updated.key = sig.key ∧
      updated.localQuantity = (ledger.positionFor sig).localQuantity - filled := by
  have hp : ledger.get? sig.key = some (ledger.positionFor sig) := by
    cases hget : ledger.get? sig.key with
    | none =>
      rw [positionFor, hget] at hh
      exact absurd (hf.trans_le (hle.trans hh)) (lt_irrefl _)
    | some pos => rw [positionFor, hget, Option.getD_some]
  have hg : ¬ (plan.approved = false ∨
      ¬ (0 < filled ∧ filled ≤ plan.requestedLocalQuantity)) := by
    simp [ha, hf, hle]
  have hc : ¬ (ledger.positionFor sig).localQuantity < filled :=
    not_lt.mpr (hle.trans hh)
  rw [recordReductionFill, if_neg hg, hk, hp]
  dsimp only
  rw [dif_neg hc]
  exact ⟨_, _, rfl, ledger.positionFor_key sig, rfl⟩

end VirtualPositionLedger

end AiQuant.CopyTrading
