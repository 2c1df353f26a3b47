import AiQuant.Lib.Fallible
import Mathlib.Algebra.Order.Field.Basic
import Mathlib.Algebra.Order.Ring.Rat
import Mathlib.Data.Rat.Floor
import Mathlib.Tactic.Linarith
import Mathlib.Tactic.NormNum
import Mathlib.Tactic.Positivity

/-! Exact hard-limit sizing for linear contracts (`risk/sizing.py`).  Decimals are exact
rationals. -/
namespace AiQuant.Risk
open AiQuant.Lib

/-- `BINANCE_USDM_LEVERAGE_PROTOCOL_MAXIMUM` -/
def leverageProtocolMaximum : ℚ := 125

/-- A share that `__post_init__` accepts. -/
def Share (cap value : ℚ) : Prop := 0 ≤ value ∧ value ≤ cap

/-- The limits that pass `__post_init__`. -/
structure ConfiguredRiskLimits where
  perTradeInitialStopPct : ℚ
  totalOpenRiskPct : ℚ
  correlationClusterRiskPct : ℚ
  utcDailyNetLossPct : ℚ
  intradayEquityDrawdownPct : ℚ
  effectiveLeverage : ℚ
  concurrentPositions : ℤ
  perTrade_share : Share (5 / 1000) perTradeInitialStopPct
  total_share : Share (20 / 1000) totalOpenRiskPct
  cluster_share : Share (10 / 1000) correlationClusterRiskPct
  daily_share : Share (40 / 1000) utcDailyNetLossPct
  drawdown_share : Share (50 / 1000) intradayEquityDrawdownPct
  leverage_mem : 1 ≤ effectiveLeverage ∧ effectiveLeverage ≤ leverageProtocolMaximum
  positions_mem : 0 ≤ concurrentPositions ∧ concurrentPositions ≤ 10

def ConfiguredRiskLimits.standard : ConfiguredRiskLimits where
  perTradeInitialStopPct := 5 / 1000
  totalOpenRiskPct := 20 / 1000
  correlationClusterRiskPct := 10 / 1000
  utcDailyNetLossPct := 40 / 1000
  intradayEquityDrawdownPct := 50 / 1000
  effectiveLeverage := 125
  concurrentPositions := 10
  perTrade_share := ⟨by norm_num, le_rfl⟩
  total_share := ⟨by norm_num, le_rfl⟩
  cluster_share := ⟨by norm_num, le_rfl⟩
  daily_share := ⟨by norm_num, le_rfl⟩
  drawdown_share := ⟨by norm_num, le_rfl⟩
  leverage_mem := ⟨by norm_num, le_rfl⟩
  positions_mem := ⟨by norm_num, le_rfl⟩

structure EffectiveRiskLimits where
  perTradeInitialStopPct : ℚ
  totalOpenRiskPct : ℚ
  correlationClusterRiskPct : ℚ
  utcDailyNetLossPct : ℚ
  intradayEquityDrawdownPct : ℚ
  effectiveLeverage : ℚ
  concurrentPositions : ℤ

/-- How the functions raise. -/
inductive SizingError where
  | riskMultiplier
deriving DecidableEq

def SizingError.text : SizingError → String
  | riskMultiplier => "risk multiplier must be within [0,1]"

def effectiveLimits (configured : ConfiguredRiskLimits) (multiplier : ℚ) :
    Except SizingError EffectiveRiskLimits :=
  if ¬(0 ≤ multiplier ∧ multiplier ≤ 1) then .error .riskMultiplier
  else .ok {
    perTradeInitialStopPct := configured.perTradeInitialStopPct * multiplier
    totalOpenRiskPct := configured.totalOpenRiskPct * multiplier
    correlationClusterRiskPct := configured.correlationClusterRiskPct * multiplier
    utcDailyNetLossPct := configured.utcDailyNetLossPct * multiplier
    intradayEquityDrawdownPct := configured.intradayEquityDrawdownPct * multiplier
    effectiveLeverage := configured.effectiveLeverage
    concurrentPositions := configured.concurrentPositions }

structure RiskSizingInput where
  equity : ℚ
  entryAssumption : ℚ
  stopTrigger : ℚ
  entrySlippagePerUnit : ℚ
  emergencyExitSlippagePerUnit : ℚ
  entryFeePerUnit : ℚ
  exitFeePerUnit : ℚ
  fundingBufferPerUnit : ℚ
  reservedEpisodeRisk : ℚ
  reservedAllRisk : ℚ
  reservedClusterRisk : ℚ
  currentDailyLoss : ℚ
  currentDrawdown : ℚ
  currentGrossNotional : ℚ
  currentPositions : ℤ
  stepSize : ℚ
  minimumQuantity : ℚ
  minimumNotional : ℚ
  maximumExecutableQuantity : ℚ

structure RiskSizingDecision where
  approved : Bool
  quantity : ℚ
  lossPerUnit : ℚ
  reservedRisk : ℚ
  availableRisk : ℚ
  reasonCodes : List String
deriving DecidableEq

/-- `to_integral_value(rounding=ROUND_FLOOR)` of the steps. -/
def floorToStep (quantity stepSize : ℚ) : ℚ :=
  ⌊quantity / stepSize⌋ * stepSize

namespace RiskSizingInput

variable (request : RiskSizingInput) (limits : EffectiveRiskLimits)

def values : List ℚ :=
  [request.equity, request.entryAssumption, request.stopTrigger, request.entrySlippagePerUnit,
    request.emergencyExitSlippagePerUnit, request.entryFeePerUnit, request.exitFeePerUnit,
    request.fundingBufferPerUnit, request.reservedEpisodeRisk, request.reservedAllRisk,
    request.reservedClusterRisk, request.currentDailyLoss, request.currentDrawdown,
    request.currentGrossNotional, request.stepSize, request.minimumQuantity,
    request.minimumNotional, request.maximumExecutableQuantity]

def lossPerUnit : ℚ :=
  |request.entryAssumption - request.stopTrigger| + request.entrySlippagePerUnit +
    request.emergencyExitSlippagePerUnit + request.entryFeePerUnit + request.exitFeePerUnit +
    request.fundingBufferPerUnit

def tradeBudget : ℚ :=
  request.equity * limits.perTradeInitialStopPct - request.reservedEpisodeRisk

def totalBudget : ℚ :=
  request.equity * limits.totalOpenRiskPct - request.reservedAllRisk

def clusterBudget : ℚ :=
  request.equity * limits.correlationClusterRiskPct - request.reservedClusterRisk

def dailyBudget : ℚ :=
  request.equity * limits.utcDailyNetLossPct - request.currentDailyLoss

def drawdownBudget : ℚ :=
  request.equity * limits.intradayEquityDrawdownPct - request.currentDrawdown

def availableRisk : ℚ :=
  max 0 (min (request.tradeBudget limits) (min (request.totalBudget limits)
    (min (request.clusterBudget limits)
      (min (request.dailyBudget limits) (request.drawdownBudget limits)))))

def leverageHeadroom : ℚ :=
  max 0 (request.equity * limits.effectiveLeverage - request.currentGrossNotional)

def quantity : ℚ :=
  floorToStep (min (request.availableRisk limits / request.lossPerUnit)
    (min (request.leverageHeadroom limits / request.entryAssumption)
      request.maximumExecutableQuantity)) request.stepSize

end RiskSizingInput

def denied (reason : String) : RiskSizingDecision := ⟨false, 0, 0, 0, 0, [reason]⟩

def sizeEntry (request : RiskSizingInput) (configured : Option ConfiguredRiskLimits)
    (riskMultiplier : ℚ) : Except SizingError RiskSizingDecision :=
  if request.values.any (· < 0) then .ok (denied "RISK_INPUT_INVALID")
  else if request.equity ≤ 0 ∨ request.stepSize ≤ 0 ∨ request.entryAssumption ≤ 0 ∨
      request.stopTrigger ≤ 0 then .ok (denied "RISK_INPUT_INVALID")
  else do
    let limits ← effectiveLimits (configured.getD .standard) riskMultiplier
    if limits.concurrentPositions ≤ request.currentPositions then
      return denied "RISK_POSITION_COUNT_LIMIT"
    let loss := request.lossPerUnit
    if loss ≤ 0 then return denied "RISK_STOP_DISTANCE_INVALID"
    let available := request.availableRisk limits
    if available ≤ 0 then return ⟨false, 0, loss, 0, available, ["RISK_BUDGET_EXHAUSTED"]⟩
    let quantity := request.quantity limits
    if quantity < request.minimumQuantity then
      return ⟨false, 0, loss, 0, available, ["RISK_MIN_QUANTITY"]⟩
    if quantity * request.entryAssumption < request.minimumNotional then
      return ⟨false, 0, loss, 0, available, ["RISK_MIN_NOTIONAL"]⟩
    return ⟨true, quantity, loss, quantity * loss, available, []⟩

/-- What an approval promises. -/
structure RiskSizingInput.WithinBudgets (request : RiskSizingInput) (limits : EffectiveRiskLimits)
    (decision : RiskSizingDecision) : Prop where
  quantity_pos : 0 < decision.quantity
  whole_steps : ∃ steps : ℤ, decision.quantity = steps * request.stepSize
  le_executable : decision.quantity ≤ request.maximumExecutableQuantity
  loss_eq : decision.lossPerUnit = request.lossPerUnit
  reserved_eq : decision.reservedRisk = decision.quantity * decision.lossPerUnit
  le_trade : decision.reservedRisk ≤ request.tradeBudget limits
  le_total : decision.reservedRisk ≤ request.totalBudget limits
  le_cluster : decision.reservedRisk ≤ request.clusterBudget limits
  le_daily : decision.reservedRisk ≤ request.dailyBudget limits
  le_drawdown : decision.reservedRisk ≤ request.drawdownBudget limits
  leverage : request.currentGrossNotional + decision.quantity * request.entryAssumption ≤
    request.equity * limits.effectiveLeverage

theorem floorToStep_le {qty stepSize : ℚ} (hs : 0 < stepSize) : floorToStep qty stepSize ≤ qty :=
  (le_div_iff₀ hs).mp (Int.floor_le _)

theorem effectiveLimits_eq_ok {configured : ConfiguredRiskLimits} {multiplier : ℚ}
    {limits : EffectiveRiskLimits} (hl : effectiveLimits configured multiplier = .ok limits) :
    (0 ≤ multiplier ∧ multiplier ≤ 1) ∧
      limits.totalOpenRiskPct = configured.totalOpenRiskPct * multiplier ∧
      limits.correlationClusterRiskPct = configured.correlationClusterRiskPct * multiplier := by
  rw [effectiveLimits, ite_error_eq_ok_iff] at hl
  obtain ⟨hm, hl⟩ := hl
  obtain rfl := Except.ok.inj hl
  exact ⟨not_not.mp hm, rfl, rfl⟩

structure RiskSizingInput.Approves (request : RiskSizingInput) (limits : EffectiveRiskLimits)
    (decision : RiskSizingDecision) : Prop where
  equity_pos : 0 < request.equity
  step_pos : 0 < request.stepSize
  entry_pos : 0 < request.entryAssumption
  loss_pos : 0 < request.lossPerUnit
  available_pos : 0 < request.availableRisk limits
  minimum_le : request.minimumQuantity ≤ request.quantity limits
  decision_eq : decision = ⟨true, request.quantity limits, request.lossPerUnit,
    request.quantity limits * request.lossPerUnit, request.availableRisk limits, []⟩

theorem sizeEntry_approved {request : RiskSizingInput} {configured : Option ConfiguredRiskLimits}
    {multiplier : ℚ} {dec : RiskSizingDecision}
    (hd : sizeEntry request configured multiplier = .ok dec) (ha : dec.approved = true) :
    ∃ limits, effectiveLimits (configured.getD .standard) multiplier = .ok limits ∧
      request.Approves limits dec := by
  unfold sizeEntry at hd
  split at hd
  · cases hd
    cases ha
  split at hd
  · cases hd
    cases ha
  next hp =>
    obtain ⟨limits, hl, hr⟩ := bind_eq_ok_iff.mp hd
    refine ⟨limits, hl, ?_⟩
    simp only [not_or, not_le] at hp
    obtain ⟨he, hs, hen, -⟩ := hp
    dsimp only at hr
    split at hr
    · cases hr
      cases ha
    split at hr
    · cases hr
      cases ha
    next hlo =>
      split at hr
      · cases hr
        cases ha
      next hav =>
        split at hr
        · cases hr
          cases ha
        next hm =>
          split at hr
          · cases hr
            cases ha
          · cases hr
            exact ⟨he, hs, hen, not_le.mp hlo, not_le.mp hav, not_lt.mp hm, rfl⟩

namespace RiskSizingInput

variable {request : RiskSizingInput} {limits : EffectiveRiskLimits}

theorem availableRisk_le (hp : 0 < request.availableRisk limits) :
    request.availableRisk limits ≤ request.tradeBudget limits ∧
      request.availableRisk limits ≤ request.totalBudget limits ∧
      request.availableRisk limits ≤ request.clusterBudget limits ∧
      request.availableRisk limits ≤ request.dailyBudget limits ∧
      request.availableRisk limits ≤ request.drawdownBudget limits := by
  have hs := (lt_max_iff.mp hp).resolve_left (lt_irrefl 0)
  rw [availableRisk, max_eq_right hs.le]
  simp only [min_le_iff, le_refl, true_or, or_true, and_self]

theorem quantity_le (limits : EffectiveRiskLimits) (hs : 0 < request.stepSize) :
    request.quantity limits ≤ request.availableRisk limits / request.lossPerUnit ∧
      request.quantity limits ≤ request.leverageHeadroom limits / request.entryAssumption ∧
      request.quantity limits ≤ request.maximumExecutableQuantity := by
  have hr : request.quantity limits ≤ min (request.availableRisk limits / request.lossPerUnit)
      (min (request.leverageHeadroom limits / request.entryAssumption)
        request.maximumExecutableQuantity) := floorToStep_le hs
  rw [le_min_iff, le_min_iff] at hr
  exact hr

theorem quantity_leverage (hs : 0 < request.stepSize) (he : 0 < request.entryAssumption)
    (hp : 0 < request.quantity limits) :
    request.currentGrossNotional + request.quantity limits * request.entryAssumption ≤
      request.equity * limits.effectiveLeverage := by
  have hn := (le_div_iff₀ he).mp (quantity_le limits hs).2.1
  have hh : 0 < request.leverageHeadroom limits := (mul_pos hp he).trans_le hn
  have hr := (lt_max_iff.mp hh).resolve_left (lt_irrefl 0)
  rw [leverageHeadroom, max_eq_right hr.le] at hn
  linarith

end RiskSizingInput

theorem RiskSizingInput.Approves.withinBudgets {request : RiskSizingInput}
    {limits : EffectiveRiskLimits} {dec : RiskSizingDecision}
    (ha : request.Approves limits dec) (hp : 0 < request.quantity limits) :
    request.WithinBudgets limits dec := by
  obtain ⟨ht, hto, hc, hda, hd⟩ :=
    RiskSizingInput.availableRisk_le ha.available_pos
  obtain ⟨hri, -, he⟩ := RiskSizingInput.quantity_le limits ha.step_pos
  have hr := (le_div_iff₀ ha.loss_pos).mp hri
  have hl := RiskSizingInput.quantity_leverage ha.step_pos ha.entry_pos hp
  obtain rfl := ha.decision_eq
  exact {
    quantity_pos := hp
    whole_steps := ⟨_, rfl⟩
    le_executable := he
    loss_eq := rfl
    reserved_eq := rfl
    le_trade := hr.trans ht
    le_total := hr.trans hto
    le_cluster := hr.trans hc
    le_daily := hr.trans hda
    le_drawdown := hr.trans hd
    leverage := hl }

section Sequences

variable {Cluster : Type} [DecidableEq Cluster]

/-- The risk that is reserved, in all and in each cluster. -/
structure Reserves (Cluster : Type) where
  all : ℚ
  cluster : Cluster → ℚ

/-- A request, the cluster that it belongs to, and the multiplier at that time. -/
structure SizingCall (Cluster : Type) where
  request : RiskSizingInput
  cluster : Cluster
  riskMultiplier : ℚ

def SizingCall.against (call : SizingCall Cluster) (equity : ℚ) (reserves : Reserves Cluster) :
    RiskSizingInput :=
  { call.request with
    equity := equity
    reservedAllRisk := reserves.all
    reservedClusterRisk := reserves.cluster call.cluster }

namespace Reserves

def add (reserves : Reserves Cluster) (cluster : Cluster) (risk : ℚ) : Reserves Cluster where
  all := reserves.all + risk
  cluster other := if other = cluster then reserves.cluster other + risk else reserves.cluster other

def step (configured : Option ConfiguredRiskLimits) (equity : ℚ) (reserves : Reserves Cluster)
    (call : SizingCall Cluster) : Reserves Cluster :=
  match sizeEntry (call.against equity reserves) configured call.riskMultiplier with
  | .ok decision =>
    if decision.approved then reserves.add call.cluster decision.reservedRisk else reserves
  | .error _ => reserves

def run (configured : Option ConfiguredRiskLimits) (equity : ℚ) (reserves : Reserves Cluster)
    (calls : List (SizingCall Cluster)) : Reserves Cluster :=
  calls.foldl (step configured equity) reserves

/-- No total exceeds its bound. -/
structure Below (reserves : Reserves Cluster) (all : ℚ) (cluster : Cluster → ℚ) : Prop where
  all_le : reserves.all ≤ all
  cluster_le : ∀ name, reserves.cluster name ≤ cluster name

variable {configured : Option ConfiguredRiskLimits} {equity bound : ℚ}
  {reserves : Reserves Cluster} {call : SizingCall Cluster}

theorem step_cases (configured : Option ConfiguredRiskLimits) (equity : ℚ)
    (reserves : Reserves Cluster) (call : SizingCall Cluster) :
    step configured equity reserves call = reserves ∨
      ∃ risk, step configured equity reserves call = reserves.add call.cluster risk ∧
        0 < equity ∧ call.riskMultiplier ≤ 1 ∧
        reserves.all + risk ≤
          equity * ((configured.getD .standard).totalOpenRiskPct * call.riskMultiplier) ∧
        reserves.cluster call.cluster + risk ≤
          equity * ((configured.getD .standard).correlationClusterRiskPct * call.riskMultiplier) := by
  rw [step]
  cases hd : sizeEntry (call.against equity reserves) configured call.riskMultiplier with
  | error code => exact Or.inl rfl
  | ok dec =>
    dsimp only
    by_cases hap : dec.approved = true
    · rw [if_pos hap]
      obtain ⟨limits, hl, ha⟩ := sizeEntry_approved hd hap
      obtain ⟨hm, ht, hc⟩ := effectiveLimits_eq_ok hl
      obtain ⟨-, hto, hcl, -, -⟩ :=
        RiskSizingInput.availableRisk_le ha.available_pos
      have hri := (RiskSizingInput.quantity_le limits ha.step_pos).1
      have hr := (le_div_iff₀ ha.loss_pos).mp hri
      obtain rfl := ha.decision_eq
      refine Or.inr ⟨_, rfl, ha.equity_pos, hm.2, ?_, ?_⟩
      · rw [← ht]
        exact le_sub_iff_add_le'.mp (hr.trans hto)
      · rw [← hc]
        exact le_sub_iff_add_le'.mp (hr.trans hcl)
    · rw [if_neg hap]
      exact Or.inl rfl

theorem Below.step {all : ℚ} {cluster : Cluster → ℚ} (hb : reserves.Below all cluster)
    (hm : call.riskMultiplier ≤ bound)
    (ha : equity * ((configured.getD .standard).totalOpenRiskPct * bound) ≤ all) (hc : ∀ name,
      equity * ((configured.getD .standard).correlationClusterRiskPct * bound) ≤ cluster name) :
    (reserves.step configured equity call).Below all cluster := by
  rcases step_cases configured equity reserves call with
    hsa | ⟨risk, hst, he, -, ht, ho⟩
  · rw [hsa]
    exact hb
  · have hs : ∀ share, 0 ≤ share →
        equity * (share * call.riskMultiplier) ≤ equity * (share * bound) := fun share hsh =>
      mul_le_mul_of_nonneg_left (mul_le_mul_of_nonneg_left hm hsh) he.le
    rw [hst]
    constructor
    · exact ht.trans ((hs _ (configured.getD .standard).total_share.1).trans ha)
    · intro name
      show (if name = call.cluster then reserves.cluster name + risk else reserves.cluster name) ≤ _
      split
      · next hn =>
        subst hn
        exact ho.trans ((hs _ (configured.getD .standard).cluster_share.1).trans (hc call.cluster))
      · exact hb.cluster_le name

theorem Below.run {all : ℚ} {cluster : Cluster → ℚ} {calls : List (SizingCall Cluster)}
    (hb : reserves.Below all cluster) (hm : ∀ call ∈ calls, call.riskMultiplier ≤ bound)
    (ha : equity * ((configured.getD .standard).totalOpenRiskPct * bound) ≤ all) (hc : ∀ name,
      equity * ((configured.getD .standard).correlationClusterRiskPct * bound) ≤ cluster name) :
    (reserves.run configured equity calls).Below all cluster := by
  induction calls generalizing reserves with
  | nil => exact hb
  | cons call rest ih =>
    have hn := hb.step (hm call List.mem_cons_self) ha hc
    exact ih hn fun other hmem => hm other (List.mem_cons_of_mem call hmem)

end Reserves

end Sequences

/-- An approval is within every budget, and entries one after another never take the reserves
above the limits, unless they were above them before. -/
theorem sizing_within_budgets :
    (∀ (request : RiskSizingInput) (configured : Option ConfiguredRiskLimits) (multiplier : ℚ)
      (dec : RiskSizingDecision), 0 < request.minimumQuantity →
      sizeEntry request configured multiplier = .ok dec → dec.approved = true →
      ∃ limits, effectiveLimits (configured.getD .standard) multiplier = .ok limits ∧
        request.WithinBudgets limits dec) ∧
    ∀ {Cluster : Type} [DecidableEq Cluster] (configured : Option ConfiguredRiskLimits)
      (equity bound : ℚ) (initial : Reserves Cluster) (calls : List (SizingCall Cluster)),
      (∀ call ∈ calls, call.riskMultiplier ≤ bound) → (initial.run configured equity calls).Below
        (max initial.all (equity * ((configured.getD .standard).totalOpenRiskPct * bound)))
        fun cluster => max (initial.cluster cluster)
          (equity * ((configured.getD .standard).correlationClusterRiskPct * bound)) := by
  constructor
  · intro request configured multiplier dec hmi hd hap
    obtain ⟨limits, hl, ha⟩ := sizeEntry_approved hd hap
    exact ⟨limits, hl, ha.withinBudgets (hmi.trans_le ha.minimum_le)⟩
  · intro Cluster _ configured equity bound initial calls hm
    have hs : initial.Below
        (max initial.all (equity * ((configured.getD .standard).totalOpenRiskPct * bound)))
        fun cluster => max (initial.cluster cluster)
          (equity * ((configured.getD .standard).correlationClusterRiskPct * bound)) :=
      ⟨le_max_left _ _, fun _ => le_max_left _ _⟩
    exact hs.run hm (le_max_right _ _) fun _ => le_max_right _ _

/-- A long entry at 100 with its stop at 99, on an equity of 10000. -/
def sampleRequest : RiskSizingInput where
  equity := 10000
  entryAssumption := 100
  stopTrigger := 99
  entrySlippagePerUnit := 1 / 10
  emergencyExitSlippagePerUnit := 2 / 10
  entryFeePerUnit := 5 / 100
  exitFeePerUnit := 5 / 100
  fundingBufferPerUnit := 1 / 10
  reservedEpisodeRisk := 0
  reservedAllRisk := 0
  reservedClusterRisk := 0
  currentDailyLoss := 0
  currentDrawdown := 0
  currentGrossNotional := 0
  currentPositions := 0
  stepSize := 1 / 1000
  minimumQuantity := 1 / 1000
  minimumNotional := 5
  maximumExecutableQuantity := 1000

theorem sampleRequest_within_budgets :
    (∃ limits, effectiveLimits .standard 1 = .ok limits ∧ sampleRequest.WithinBudgets limits
      ⟨true, 33333 / 1000, 3 / 2, 99999 / 2000, 50, []⟩) ∧
      (Reserves.run none 10000 ⟨0, fun _ => 0⟩
        [⟨sampleRequest, "majors", 1⟩, ⟨sampleRequest, "majors", 1⟩]).Below
        (max 0 (10000 * (20 / 1000 * 1))) fun _ => max 0 (10000 * (10 / 1000 * 1)) := by
  have hd : sizeEntry sampleRequest none 1 =
      .ok ⟨true, 33333 / 1000, 3 / 2, 99999 / 2000, 50, []⟩ := by
    with_unfolding_all decide
  constructor
  · exact sizing_within_budgets.1 sampleRequest none 1 _ (by norm_num [sampleRequest]) hd rfl
  · refine sizing_within_budgets.2 none 10000 1 ⟨0, fun _ => 0⟩ _ fun call hm => ?_
    simp only [List.mem_cons, List.not_mem_nil, or_false, or_self] at hm
    rw [hm]

end AiQuant.Risk
