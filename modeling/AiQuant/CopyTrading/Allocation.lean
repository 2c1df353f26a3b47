import AiQuant.CopyTrading.Execution

/-! The account-level circuit breaker (`copy_trading/risk.py`), the price of a protected
entry, and the sizing of an entry within the operating envelope
(`copy_trading/allocation.py`). -/
namespace AiQuant.CopyTrading

structure CopyAccountRiskPolicy where
  warningEquityUsdt : Decimal := 120
  emergencyEquityUsdt : Decimal := 105
  warningMarginRatioPct : Decimal := 65
  emergencyMarginRatioPct : Decimal := 80
  maximumSnapshotAge : Time := 15000000
  automaticInterventionEnabled : Bool := false

def CopyAccountSnapshot.maintenanceMarginRatioPct (snapshot : CopyAccountSnapshot) : Decimal :=
  if snapshot.marginBalanceUsdt ≤ 0 then
    if 0 < snapshot.totalMaintenanceMarginUsdt then 100 else 0
  else snapshot.totalMaintenanceMarginUsdt / snapshot.marginBalanceUsdt * 100

def invalidSnapshotReasons (policy : CopyAccountRiskPolicy) (snapshot : CopyAccountSnapshot)
    (now : Time) : List String :=
  (if now < snapshot.observedAt ∨ policy.maximumSnapshotAge < now - snapshot.observedAt then
    ["COPY_ACCOUNT_SNAPSHOT_STALE"] else []) ++
  (if snapshot.hedgeMode then [] else ["COPY_ACCOUNT_HEDGE_MODE_REQUIRED"]) ++
  (if snapshot.canTrade then [] else ["COPY_ACCOUNT_TRADING_DISABLED"])

/-- `evaluate_account_risk`.  The risk lines stop entries only under a policy that
intervenes. -/
def evaluateAccountRisk (policy : CopyAccountRiskPolicy) (snapshot : CopyAccountSnapshot)
    (kind : SignalKind) (now : Time) : AccountRiskDecision :=
  let invalidReasons := invalidSnapshotReasons policy snapshot now
  let allowed := !policy.automaticInterventionEnabled || kind = .reduce
  if invalidReasons ≠ [] then ⟨false, true, false, invalidReasons⟩
  else if snapshot.marginBalanceUsdt ≤ policy.emergencyEquityUsdt ∨
      policy.emergencyMarginRatioPct ≤ snapshot.maintenanceMarginRatioPct then
    ⟨allowed, policy.automaticInterventionEnabled, policy.automaticInterventionEnabled,
      ["COPY_ACCOUNT_EMERGENCY_RISK_LINE"]⟩
  else if snapshot.marginBalanceUsdt ≤ policy.warningEquityUsdt ∨
      policy.warningMarginRatioPct ≤ snapshot.maintenanceMarginRatioPct then
    ⟨allowed, policy.automaticInterventionEnabled, false, ["COPY_ACCOUNT_WARNING_RISK_LINE"]⟩
  else ⟨true, false, false, []⟩

def tickSafePrice (signal : NormalizedSignal) (priceTick : Decimal) : Decimal :=
  let price := (⌊signal.referencePrice / priceTick⌋ : ℤ) * priceTick
  if exchangeOrderSide signal = .sell ∧ price < signal.referencePrice then price + priceTick
  else price

/-- `protected_entry_price`; `none` below one tick, where it raises. -/
def protectedEntryPrice (signal : NormalizedSignal) (priceTick : Decimal) : Option Decimal :=
  if tickSafePrice signal priceTick ≤ 0 then none else some (tickSafePrice signal priceTick)

def defaultEntryMarginLimitUsdt : Decimal := 120

structure PortfolioAllocationPolicy where
  operatingEnvelopeUsdt : Decimal := 150
  entryAllocationUsdt : Decimal := defaultEntryMarginLimitUsdt
  reserveUsdt : Decimal := 30
  defaultLeverage : ℕ := 10
  maximumLeverage : ℕ := 125
  maximumOrderMarginUsdt : Decimal := 5

/-- The checks of the constructor, which raises. -/
def PortfolioAllocationPolicy.Valid (policy : PortfolioAllocationPolicy) : Prop :=
  0 < policy.operatingEnvelopeUsdt ∧
    policy.entryAllocationUsdt + policy.reserveUsdt = policy.operatingEnvelopeUsdt ∧
    1 ≤ policy.defaultLeverage ∧ policy.defaultLeverage ≤ policy.maximumLeverage ∧
    policy.maximumLeverage ≤ 125 ∧ 0 < policy.maximumOrderMarginUsdt ∧
    policy.maximumOrderMarginUsdt ≤ policy.entryAllocationUsdt

instance (policy : PortfolioAllocationPolicy) : Decidable policy.Valid := by
  unfold PortfolioAllocationPolicy.Valid
  infer_instance

structure LeaderAllocation where
  leadPortfolioId : String
  sourceAumUsdt : Decimal
  portfolioWeight : Decimal
  followMultiplier : ℕ

/-- The checks of the constructor, which raises. -/
def LeaderAllocation.Valid (leader : LeaderAllocation) : Prop :=
  leader.leadPortfolioId ≠ "" ∧ 0 < leader.sourceAumUsdt ∧ 0 < leader.portfolioWeight ∧
    leader.portfolioWeight ≤ 1 ∧ 1 ≤ leader.followMultiplier ∧ leader.followMultiplier ≤ 10

instance (leader : LeaderAllocation) : Decidable leader.Valid := by
  unfold LeaderAllocation.Valid
  infer_instance

structure PortfolioUsage where
  accountEquityUsdt : Decimal
  totalCommittedMarginUsdt : Decimal
  leaderCommittedMarginUsdt : Decimal
  symbolCommittedMarginUsdt : Decimal
  accountAvailableBalanceUsdt : Option Decimal := none
  configuredEntryMarginUsdt : Option Decimal := none

/-- `account_available_balance`: without a value, the equity. -/
def PortfolioUsage.accountAvailableBalance (usage : PortfolioUsage) : Decimal :=
  usage.accountAvailableBalanceUsdt.getD usage.accountEquityUsdt

/-- The checks of the constructor, which raises. -/
def PortfolioUsage.Valid (usage : PortfolioUsage) : Prop :=
  (∀ limit ∈ usage.configuredEntryMarginUsdt, 0 < limit ∧ limit ≤ defaultEntryMarginLimitUsdt) ∧
    0 ≤ usage.accountEquityUsdt ∧ 0 ≤ usage.totalCommittedMarginUsdt ∧
    0 ≤ usage.leaderCommittedMarginUsdt ∧ 0 ≤ usage.symbolCommittedMarginUsdt ∧
    0 ≤ usage.accountAvailableBalance

instance (usage : PortfolioUsage) : Decidable usage.Valid := by
  unfold PortfolioUsage.Valid
  infer_instance

structure SizeDecision where
  approved : Bool
  localQuantity : Decimal
  localNotionalUsdt : Decimal
  committedMarginUsdt : Decimal
  leverage : ℕ
  sourceQuantityScale : Decimal
  reasonCodes : List String

def rejectedSize (reason : String) (leverage : ℕ) : SizeDecision :=
  ⟨false, 0, 0, 0, leverage, 0, [reason]⟩

/-- `min(..., key=...)`: the first of the smallest capacities. -/
def bindingCapacity (first : String × Decimal) (others : List (String × Decimal)) :
    String × Decimal :=
  others.foldl (fun smallest capacity =>
    if capacity.2 < smallest.2 then capacity else smallest) first

def accountEntryCapacity (policy : PortfolioAllocationPolicy) (usage : PortfolioUsage) : Decimal :=
  min policy.entryAllocationUsdt
    (usage.configuredEntryMarginUsdt.getD policy.entryAllocationUsdt)

def availableMargin (policy : PortfolioAllocationPolicy) (usage : PortfolioUsage) :
    String × Decimal :=
  bindingCapacity
    ("COPY_SIZE_TOTAL_MARGIN_CAP_REACHED",
      accountEntryCapacity policy usage - usage.totalCommittedMarginUsdt)
    [("COPY_SIZE_AVAILABLE_BALANCE_RESERVE_REACHED",
        usage.accountAvailableBalance - policy.reserveUsdt),
      ("COPY_SIZE_ORDER_MARGIN_CAP_REACHED", policy.maximumOrderMarginUsdt)]

def sizeIncrease (policy : PortfolioAllocationPolicy) (signal : NormalizedSignal)
    (marketPrice : Decimal) (leader : LeaderAllocation) (usage : PortfolioUsage)
    (rules : SymbolTradingRules) : SizeDecision :=
  let leverage := min policy.maximumLeverage rules.exchangeMaximumLeverage
  let (bindingReason, margin) := availableMargin policy usage
  let minimumQuantity := max rules.minimumQuantity
    (ceilToStep (rules.minimumNotionalUsdt / marketPrice) rules.quantityStep)
  let sourceTarget := signal.sourceDeltaQuantity * signal.referencePrice *
    leader.followMultiplier / marketPrice
  let desired := min (max sourceTarget minimumQuantity) rules.maximumQuantity
  let capacity := floorToStep (margin * leverage / marketPrice) rules.quantityStep
  let localQuantity := floorToStep (min desired capacity) rules.quantityStep
  if signal.kind ≠ .increase then rejectedSize "COPY_SIZE_NOT_AN_INCREASE" 0
  else if signal.leadPortfolioId ≠ leader.leadPortfolioId then
    rejectedSize "COPY_SIZE_LEADER_MISMATCH" 0
  else if marketPrice ≤ 0 then rejectedSize "COPY_SIZE_MARKET_PRICE_INVALID" 0
  else if 0 < usage.symbolCommittedMarginUsdt ∧ leverage < rules.currentLeverage then
    rejectedSize "COPY_SIZE_CURRENT_LEVERAGE_ABOVE_POLICY" rules.currentLeverage
  else if margin ≤ 0 then rejectedSize bindingReason leverage
  else if localQuantity < minimumQuantity then rejectedSize bindingReason leverage
  else if localQuantity < rules.minimumQuantity then
    rejectedSize "COPY_SIZE_BELOW_MINIMUM_QUANTITY" leverage
  else if localQuantity * marketPrice < rules.minimumNotionalUsdt then
    rejectedSize "COPY_SIZE_BELOW_MINIMUM_NOTIONAL" leverage
  else if margin < localQuantity * marketPrice / leverage then rejectedSize bindingReason leverage
  else {
    approved := true
    localQuantity := localQuantity
    localNotionalUsdt := localQuantity * marketPrice
    committedMarginUsdt := localQuantity * marketPrice / leverage
    leverage := leverage
    sourceQuantityScale := localQuantity / signal.sourceDeltaQuantity
    reasonCodes := [] }

theorem not_of_approved {rejects : Prop} [Decidable rejects] {reason : String} {leverage : ℕ}
    {size : SizeDecision}
    (ha : (if rejects then rejectedSize reason leverage else size).approved = true) :
    ¬ rejects ∧ size.approved = true := by
  by_cases hr : rejects
  · rw [if_pos hr] at ha
    cases ha
  · rw [if_neg hr] at ha
    exact ⟨hr, ha⟩

end AiQuant.CopyTrading
