import AiQuant.CopyTrading.SourceExposure

/-! Entry sizing (`size_increase`) as a whole: which entries are approved, at which quantity, and
how the quantity moves with the margin that is left. -/
namespace AiQuant.CopyTrading
open VirtualPositionLedger (rulesWithStep)

/-- A positive multiple of the quantity step. -/
def OnStep (step quantity : Decimal) : Prop :=
  ∃ count : ℕ, 0 < count ∧ quantity = count * step

section Steps

variable {step value larger qty : Decimal}

section

variable (hs : 0 < step)
include hs

theorem OnStep.pos (hq : OnStep step qty) : 0 < qty := by
  obtain ⟨count, hc, rfl⟩ := hq
  exact mul_pos (Nat.cast_pos.mpr hc) hs

theorem onStep_floorToStep (hp : 0 < floorToStep value step) :
    OnStep step (floorToStep value step) := by
  unfold floorToStep at hp ⊢
  split_ifs at hp ⊢ with hv
  · exact absurd hp (lt_irrefl 0)
  · have hc : 0 < ⌊value / step⌋ := by
      exact_mod_cast pos_of_mul_pos_left hp hs.le
    refine ⟨⌊value / step⌋.toNat, Int.lt_toNat.mpr hc, ?_⟩
    have hca : ((⌊value / step⌋.toNat : ℕ) : ℚ) = (⌊value / step⌋ : ℤ) := by
      exact_mod_cast Int.toNat_of_nonneg hc.le
    rw [hca]

theorem OnStep.le_floorToStep_iff (hq : OnStep step qty) :
    qty ≤ floorToStep value step ↔ qty ≤ value := by
  have hp := hq.pos hs
  obtain ⟨count, hc, rfl⟩ := hq
  unfold floorToStep
  split_ifs with hv
  · exact ⟨fun hle => absurd hle (not_le.mpr hp),
      fun hle => absurd (hle.trans hv) (not_le.mpr hp)⟩
  · rw [mul_le_mul_iff_of_pos_right hs, ← le_div_iff₀ hs]
    have hf : ((count : ℤ) : ℚ) ≤ value / step ↔ (count : ℤ) ≤ ⌊value / step⌋ :=
      Int.le_floor.symm
    exact_mod_cast hf.symm

theorem floorToStep_nonneg : 0 ≤ floorToStep value step := by
  unfold floorToStep
  split_ifs with hv
  · exact le_rfl
  · have hf : 0 ≤ ⌊value / step⌋ :=
      Int.floor_nonneg.mpr (div_nonneg (not_le.mp hv).le hs.le)
    exact mul_nonneg (by exact_mod_cast hf) hs.le

theorem floorToStep_le_of_pos (hp : 0 < floorToStep value step) : floorToStep value step ≤ value :=
  ((onStep_floorToStep hs hp).le_floorToStep_iff hs).mp le_rfl

theorem floorToStep_mono (hle : value ≤ larger) :
    floorToStep value step ≤ floorToStep larger step := by
  rcases (floorToStep_nonneg hs).eq_or_lt with hz | hp
  · rw [← hz]
    exact floorToStep_nonneg hs
  · rw [(onStep_floorToStep hs hp).le_floorToStep_iff hs]
    exact (floorToStep_le_of_pos hs hp).trans hle

theorem OnStep.ceilToStep_le_iff (hv : 0 < value)
    (hq : OnStep step qty) : ceilToStep value step ≤ qty ↔ value ≤ qty := by
  obtain ⟨count, hco, rfl⟩ := hq
  unfold ceilToStep floorToStep
  rw [if_neg (not_le.mpr hv)]
  dsimp only
  split_ifs with he
  · rw [he]
  · have hb : (⌊value / step⌋ : ℚ) * step < value :=
      lt_of_le_of_ne ((le_div_iff₀ hs).mp (Int.floor_le _)) he
    constructor
    · intro hle
      have ha := (div_lt_iff₀ hs).mp (Int.lt_floor_add_one (value / step))
      rw [add_mul, one_mul] at ha
      exact ha.le.trans hle
    · intro hle
      have hc : (⌊value / step⌋ : ℚ) * step < count * step := hb.trans_le hle
      rw [mul_lt_mul_iff_of_pos_right hs] at hc
      have hn : ⌊value / step⌋ + 1 ≤ (count : ℤ) := by exact_mod_cast hc
      calc (⌊value / step⌋ : ℚ) * step + step = ((⌊value / step⌋ + 1 : ℤ) : ℚ) * step := by
            push_cast
            ring
        _ ≤ count * step := mul_le_mul_of_nonneg_right (by exact_mod_cast hn) hs.le

theorem onStep_ceilToStep (hv : 0 < value) : OnStep step (ceilToStep value step) := by
  have hf := @floorToStep_nonneg step value hs
  unfold ceilToStep
  dsimp only
  split_ifs with he
  · rw [← he] at hv
    exact onStep_floorToStep hs hv
  · rcases hf.eq_or_lt with hz | hp
    · exact ⟨1, Nat.one_pos, by rw [← hz, Nat.cast_one, one_mul, zero_add]⟩
    · obtain ⟨count, -, hc⟩ := onStep_floorToStep hs hp
      exact ⟨count + 1, Nat.succ_pos count, by rw [hc]; push_cast; ring⟩

end

end Steps

/-- `leverage`: the policy's, within what the exchange allows. -/
def entryLeverage (policy : PortfolioAllocationPolicy) (rules : SymbolTradingRules) : ℕ :=
  min policy.maximumLeverage rules.exchangeMaximumLeverage

def sourceTargetQuantity (signal : NormalizedSignal) (marketPrice : Decimal)
    (leader : LeaderAllocation) : Decimal :=
  signal.sourceDeltaQuantity * signal.referencePrice * leader.followMultiplier / marketPrice

/-- `minimum_quantity`: what the exchange takes at this price. -/
def exchangeMinimum (marketPrice : Decimal) (rules : SymbolTradingRules) : Decimal :=
  max rules.minimumQuantity
    (ceilToStep (rules.minimumNotionalUsdt / marketPrice) rules.quantityStep)

def desiredQuantity (signal : NormalizedSignal) (marketPrice : Decimal)
    (leader : LeaderAllocation) (rules : SymbolTradingRules) : Decimal :=
  min (max (sourceTargetQuantity signal marketPrice leader) (exchangeMinimum marketPrice rules))
    rules.maximumQuantity

/-- `capacity_quantity`, for a margin. -/
def capacityQuantity (policy : PortfolioAllocationPolicy) (marketPrice margin : Decimal)
    (rules : SymbolTradingRules) : Decimal :=
  floorToStep (margin * entryLeverage policy rules / marketPrice) rules.quantityStep

/-- `local_quantity`, for a margin. -/
def sizedQuantity (policy : PortfolioAllocationPolicy) (signal : NormalizedSignal)
    (marketPrice : Decimal) (leader : LeaderAllocation) (margin : Decimal)
    (rules : SymbolTradingRules) : Decimal :=
  floorToStep
    (min (desiredQuantity signal marketPrice leader rules)
      (capacityQuantity policy marketPrice margin rules)) rules.quantityStep

def entryMargin (policy : PortfolioAllocationPolicy) (usage : PortfolioUsage) : Decimal :=
  min (accountEntryCapacity policy usage - usage.totalCommittedMarginUsdt)
    (min (usage.accountAvailableBalance - policy.reserveUsdt) policy.maximumOrderMarginUsdt)

/-- The signal is no entry, is another leader's, or the symbol's leverage would have to be
lowered under an open position. -/
def TurnsAway (policy : PortfolioAllocationPolicy) (signal : NormalizedSignal)
    (leader : LeaderAllocation) (usage : PortfolioUsage) (rules : SymbolTradingRules) : Prop :=
  signal.kind ≠ .increase ∨ signal.leadPortfolioId ≠ leader.leadPortfolioId ∨
    0 < usage.symbolCommittedMarginUsdt ∧ entryLeverage policy rules < rules.currentLeverage

theorem PortfolioAllocationPolicy.Valid.entryLeverage_pos {policy : PortfolioAllocationPolicy}
    (hp : policy.Valid) (rules : SymbolTradingRules) : 0 < entryLeverage policy rules := by
  obtain ⟨-, -, hd, hm, -⟩ := hp
  exact lt_min (hd.trans hm) (rules.currentLeverage_pos.trans rules.currentLeverage_le)

theorem availableMargin_eq (policy : PortfolioAllocationPolicy) (usage : PortfolioUsage) :
    (availableMargin policy usage).2 = entryMargin policy usage := by
  have hs : ∀ first second : String × Decimal,
      (if second.2 < first.2 then second else first).2 = min first.2 second.2 := by
    intro first second
    split_ifs with hl
    · exact (min_eq_right hl.le).symm
    · exact (min_eq_left (not_lt.mp hl)).symm
  unfold availableMargin bindingCapacity entryMargin
  rw [List.foldl_cons, List.foldl_cons, List.foldl_nil, hs, hs, min_assoc]

section Sizing

variable {policy : PortfolioAllocationPolicy} {sig : NormalizedSignal}
  {marketPrice margin larger qty : Decimal} {leader : LeaderAllocation}
  {usage : PortfolioUsage} {rules : SymbolTradingRules}

theorem OnStep.exchangeMinimum_le_iff (hp : 0 < marketPrice) (hq : OnStep rules.quantityStep qty) :
    exchangeMinimum marketPrice rules ≤ qty ↔
      rules.minimumQuantity ≤ qty ∧ rules.minimumNotionalUsdt ≤ qty * marketPrice := by
  have hn := div_pos rules.minimumNotionalUsdt_pos hp
  rw [exchangeMinimum, max_le_iff, hq.ceilToStep_le_iff rules.quantityStep_pos hn, div_le_iff₀ hp]

theorem onStep_exchangeMinimum (hp : 0 < marketPrice)
    (hm : OnStep rules.quantityStep rules.minimumQuantity) :
    OnStep rules.quantityStep (exchangeMinimum marketPrice rules) := by
  rcases max_choice rules.minimumQuantity
      (ceilToStep (rules.minimumNotionalUsdt / marketPrice) rules.quantityStep) with hmax | hmax
  · rw [exchangeMinimum, hmax]
    exact hm
  · rw [exchangeMinimum, hmax]
    exact onStep_ceilToStep rules.quantityStep_pos (div_pos rules.minimumNotionalUsdt_pos hp)

theorem onStep_sizedQuantity (hp : 0 < sizedQuantity policy sig marketPrice leader margin rules) :
    OnStep rules.quantityStep (sizedQuantity policy sig marketPrice leader margin rules) :=
  onStep_floorToStep rules.quantityStep_pos hp

theorem OnStep.le_sizedQuantity_iff (hl : 0 < entryLeverage policy rules)
    (hp : 0 < marketPrice) (hq : OnStep rules.quantityStep qty) :
    qty ≤ sizedQuantity policy sig marketPrice leader margin rules ↔
      qty ≤ desiredQuantity sig marketPrice leader rules ∧
        qty * marketPrice / entryLeverage policy rules ≤ margin := by
  have hc : (0 : ℚ) < entryLeverage policy rules := Nat.cast_pos.mpr hl
  rw [sizedQuantity, hq.le_floorToStep_iff rules.quantityStep_pos, le_min_iff,
    capacityQuantity, hq.le_floorToStep_iff rules.quantityStep_pos, le_div_iff₀ hp,
    div_le_iff₀ hc]

theorem sizedQuantity_mono (hp : 0 < marketPrice) (hle : margin ≤ larger) :
    sizedQuantity policy sig marketPrice leader margin rules ≤
      sizedQuantity policy sig marketPrice leader larger rules := by
  apply floorToStep_mono rules.quantityStep_pos
  apply min_le_min_left
  apply floorToStep_mono rules.quantityStep_pos
  exact div_le_div_of_nonneg_right (mul_le_mul_of_nonneg_right hle (Nat.cast_nonneg _)) hp.le

/-- What an approved size is made of. -/
structure Sized (policy : PortfolioAllocationPolicy) (signal : NormalizedSignal)
    (marketPrice : Decimal) (leader : LeaderAllocation) (usage : PortfolioUsage)
    (rules : SymbolTradingRules) (decision : SizeDecision) : Prop where
  quantity_eq : decision.localQuantity =
    sizedQuantity policy signal marketPrice leader (entryMargin policy usage) rules
  notional_eq : decision.localNotionalUsdt = decision.localQuantity * marketPrice
  leverage_eq : decision.leverage = entryLeverage policy rules
  margin_eq : decision.committedMarginUsdt = decision.localNotionalUsdt / decision.leverage
  scale_eq : decision.sourceQuantityScale = decision.localQuantity / signal.sourceDeltaQuantity

structure Admits (policy : PortfolioAllocationPolicy) (signal : NormalizedSignal)
    (marketPrice : Decimal) (leader : LeaderAllocation) (usage : PortfolioUsage)
    (rules : SymbolTradingRules) : Prop where
  taken : ¬ TurnsAway policy signal leader usage rules
  price : 0 < marketPrice
  enough : exchangeMinimum marketPrice rules ≤
    sizedQuantity policy signal marketPrice leader (entryMargin policy usage) rules

theorem Admits.minimum_pos (ha : Admits policy sig marketPrice leader usage rules) :
    0 < sizedQuantity policy sig marketPrice leader (entryMargin policy usage) rules :=
  rules.minimumQuantity_pos.trans_le ((le_max_left _ _).trans ha.enough)

theorem Admits.margin_pos (hl : 0 < entryLeverage policy rules)
    (ha : Admits policy sig marketPrice leader usage rules) : 0 < entryMargin policy usage := by
  have hq := ha.minimum_pos
  have hc := (((onStep_sizedQuantity hq).le_sizedQuantity_iff hl ha.price).mp le_rfl).2
  exact (div_pos (mul_pos hq ha.price) (Nat.cast_pos.mpr hl)).trans_le hc

theorem sizeIncrease_eq : sizeIncrease policy sig marketPrice leader usage rules =
      if sig.kind ≠ .increase then rejectedSize "COPY_SIZE_NOT_AN_INCREASE" 0
      else if sig.leadPortfolioId ≠ leader.leadPortfolioId then
        rejectedSize "COPY_SIZE_LEADER_MISMATCH" 0
      else if marketPrice ≤ 0 then rejectedSize "COPY_SIZE_MARKET_PRICE_INVALID" 0
      else if 0 < usage.symbolCommittedMarginUsdt ∧
          entryLeverage policy rules < rules.currentLeverage then
        rejectedSize "COPY_SIZE_CURRENT_LEVERAGE_ABOVE_POLICY" rules.currentLeverage
      else if entryMargin policy usage ≤ 0 then
        rejectedSize (availableMargin policy usage).1 (entryLeverage policy rules)
      else
        let qty :=
          sizedQuantity policy sig marketPrice leader (entryMargin policy usage) rules
        if qty < exchangeMinimum marketPrice rules then
          rejectedSize (availableMargin policy usage).1 (entryLeverage policy rules)
        else if qty < rules.minimumQuantity then
          rejectedSize "COPY_SIZE_BELOW_MINIMUM_QUANTITY" (entryLeverage policy rules)
        else if qty * marketPrice < rules.minimumNotionalUsdt then
          rejectedSize "COPY_SIZE_BELOW_MINIMUM_NOTIONAL" (entryLeverage policy rules)
        else if entryMargin policy usage < qty * marketPrice / entryLeverage policy rules then
          rejectedSize (availableMargin policy usage).1 (entryLeverage policy rules)
        else {
          approved := true
          localQuantity := qty
          localNotionalUsdt := qty * marketPrice
          committedMarginUsdt := qty * marketPrice / entryLeverage policy rules
          leverage := entryLeverage policy rules
          sourceQuantityScale := qty / sig.sourceDeltaQuantity
          reasonCodes := [] } := by
  rw [← availableMargin_eq]
  rfl

theorem sizeIncrease_of_admits (hl : 0 < entryLeverage policy rules)
    (ha : Admits policy sig marketPrice leader usage rules) :
    (sizeIncrease policy sig marketPrice leader usage rules).approved = true ∧
      Sized policy sig marketPrice leader usage rules
        (sizeIncrease policy sig marketPrice leader usage rules) := by
  have hq := onStep_sizedQuantity ha.minimum_pos
  have hm := (hq.exchangeMinimum_le_iff ha.price).mp ha.enough
  have hc := ((hq.le_sizedQuantity_iff hl ha.price).mp le_rfl).2
  obtain ⟨hk, hle, hcu⟩ : sig.kind = .increase ∧
      sig.leadPortfolioId = leader.leadPortfolioId ∧
      ¬ (0 < usage.symbolCommittedMarginUsdt ∧
        entryLeverage policy rules < rules.currentLeverage) := by
    have ht := ha.taken
    unfold TurnsAway at ht
    push Not at ht
    exact ⟨ht.1, ht.2.1, fun hb => (ht.2.2 hb.1).not_gt hb.2⟩
  rw [sizeIncrease_eq, if_neg (not_not.mpr hk), if_neg (not_not.mpr hle),
    if_neg (not_le.mpr ha.price), if_neg hcu,
    if_neg (not_le.mpr (ha.margin_pos hl))]
  dsimp only
  rw [if_neg (not_lt.mpr ha.enough), if_neg (not_lt.mpr hm.1),
    if_neg (not_lt.mpr hm.2), if_neg (not_lt.mpr hc)]
  exact ⟨rfl, rfl, rfl, rfl, rfl, rfl⟩

theorem admits_of_approved
    (ha : (sizeIncrease policy sig marketPrice leader usage rules).approved = true) :
    Admits policy sig marketPrice leader usage rules := by
  rw [sizeIncrease_eq] at ha
  dsimp only at ha
  obtain ⟨hk, ha⟩ := not_of_approved ha
  obtain ⟨hl, ha⟩ := not_of_approved ha
  obtain ⟨hp, ha⟩ := not_of_approved ha
  obtain ⟨hc, ha⟩ := not_of_approved ha
  obtain ⟨-, ha⟩ := not_of_approved ha
  obtain ⟨he, -⟩ := not_of_approved ha
  exact {
    taken := not_or.mpr ⟨hk, not_or.mpr ⟨hl, hc⟩⟩
    price := not_le.mp hp
    enough := not_lt.mp he }

theorem sizeIncrease_approved_iff (hl : 0 < entryLeverage policy rules) :
    (sizeIncrease policy sig marketPrice leader usage rules).approved = true ↔
      Admits policy sig marketPrice leader usage rules :=
  ⟨admits_of_approved, fun ha => (sizeIncrease_of_admits hl ha).1⟩

theorem sizeIncrease_rejected
    (hr : (sizeIncrease policy sig marketPrice leader usage rules).approved ≠ true) :
    (sizeIncrease policy sig marketPrice leader usage rules).localQuantity = 0 := by
  revert hr
  rw [sizeIncrease_eq]
  dsimp only
  split_ifs <;> first | exact fun _ => rfl | exact fun hr => absurd rfl hr

end Sizing

/-- The laws of an approved size. -/
structure SoundSize (policy : PortfolioAllocationPolicy) (signal : NormalizedSignal)
    (marketPrice : Decimal) (leader : LeaderAllocation) (usage : PortfolioUsage)
    (rules : SymbolTradingRules) (decision : SizeDecision) : Prop where
  onStep : OnStep rules.quantityStep decision.localQuantity
  minimum : rules.minimumQuantity ≤ decision.localQuantity
  maximum : decision.localQuantity ≤ rules.maximumQuantity
  notional_eq : decision.localNotionalUsdt = decision.localQuantity * marketPrice
  notional : rules.minimumNotionalUsdt ≤ decision.localNotionalUsdt
  leverage_eq : decision.leverage = min policy.maximumLeverage rules.exchangeMaximumLeverage
  margin_eq : decision.committedMarginUsdt = decision.localNotionalUsdt / decision.leverage
  margin : decision.committedMarginUsdt ≤ entryMargin policy usage
  source : decision.localQuantity ≤
    max (sourceTargetQuantity signal marketPrice leader) (exchangeMinimum marketPrice rules)

/-- A quantity that the exchange and the margin allow. -/
structure Fits (policy : PortfolioAllocationPolicy) (marketPrice : Decimal)
    (usage : PortfolioUsage) (rules : SymbolTradingRules) (quantity : Decimal) : Prop where
  onStep : OnStep rules.quantityStep quantity
  minimum : rules.minimumQuantity ≤ quantity
  maximum : quantity ≤ rules.maximumQuantity
  notional : rules.minimumNotionalUsdt ≤ quantity * marketPrice
  margin : quantity * marketPrice / entryLeverage policy rules ≤ entryMargin policy usage

/-- The second policy and usage leave at least as much margin, all else being the same. -/
structure Eases (policy : PortfolioAllocationPolicy) (usage : PortfolioUsage)
    (policy' : PortfolioAllocationPolicy) (usage' : PortfolioUsage) : Prop where
  maximumLeverage : policy.maximumLeverage = policy'.maximumLeverage
  reserve : policy.reserveUsdt = policy'.reserveUsdt
  orderMargin : policy.maximumOrderMarginUsdt = policy'.maximumOrderMarginUsdt
  symbol : usage.symbolCommittedMarginUsdt = usage'.symbolCommittedMarginUsdt
  available : usage.accountAvailableBalance ≤ usage'.accountAvailableBalance
  ceiling : accountEntryCapacity policy usage ≤ accountEntryCapacity policy' usage'
  committed : usage'.totalCommittedMarginUsdt ≤ usage.totalCommittedMarginUsdt

section Laws

variable {policy policy' : PortfolioAllocationPolicy} {sig : NormalizedSignal}
  {marketPrice qty : Decimal} {leader : LeaderAllocation} {usage usage' : PortfolioUsage}
  {rules : SymbolTradingRules}

theorem sizeIncrease_sound (hl : 0 < entryLeverage policy rules)
    (hap : (sizeIncrease policy sig marketPrice leader usage rules).approved = true) :
    SoundSize policy sig marketPrice leader usage rules
      (sizeIncrease policy sig marketPrice leader usage rules) := by
  have ha := admits_of_approved hap
  have hs := (sizeIncrease_of_admits hl ha).2
  have ho := onStep_sizedQuantity ha.minimum_pos
  have hm := (ho.exchangeMinimum_le_iff ha.price).mp ha.enough
  have hw := (ho.le_sizedQuantity_iff hl ha.price).mp le_rfl
  rw [← hs.quantity_eq] at ho hm hw
  have hd := le_min_iff.mp hw.1
  exact {
    onStep := ho
    minimum := hm.1
    maximum := hd.2
    notional_eq := hs.notional_eq
    notional := by
      rw [hs.notional_eq]
      exact hm.2
    leverage_eq := hs.leverage_eq
    margin_eq := hs.margin_eq
    margin := by
      rw [hs.margin_eq, hs.notional_eq, hs.leverage_eq]
      exact hw.2
    source := hd.1 }

theorem Fits.price_pos (hf : Fits policy marketPrice usage rules qty) : 0 < marketPrice := by
  have hn := rules.minimumNotionalUsdt_pos.trans_le hf.notional
  exact pos_of_mul_pos_right hn (hf.onStep.pos rules.quantityStep_pos).le

theorem sizeIncrease_complete (hl : 0 < entryLeverage policy rules)
    (hm : OnStep rules.quantityStep rules.minimumQuantity)
    (ht : ¬ TurnsAway policy sig leader usage rules)
    (hf : Fits policy marketPrice usage rules qty) :
    (sizeIncrease policy sig marketPrice leader usage rules).approved = true := by
  have hp := hf.price_pos
  have he : exchangeMinimum marketPrice rules ≤ qty :=
    (hf.onStep.exchangeMinimum_le_iff hp).mpr ⟨hf.minimum, hf.notional⟩
  have ho := onStep_exchangeMinimum hp hm
  refine (sizeIncrease_approved_iff hl).mpr ⟨ht, hp, ?_⟩
  rw [ho.le_sizedQuantity_iff hl hp]
  constructor
  · exact le_min (le_max_right _ _) (he.trans hf.maximum)
  · refine le_trans ?_ hf.margin
    exact div_le_div_of_nonneg_right (mul_le_mul_of_nonneg_right he hp.le) (Nat.cast_nonneg _)

theorem Eases.entryMargin_le (he : Eases policy usage policy' usage') :
    entryMargin policy usage ≤ entryMargin policy' usage' := by
  unfold entryMargin
  rw [he.reserve, he.orderMargin]
  exact min_le_min (sub_le_sub he.ceiling he.committed)
    (min_le_min_right _ (sub_le_sub_right he.available _))

theorem sizeIncrease_mono (hl : 0 < entryLeverage policy rules)
    (he : Eases policy usage policy' usage') :
    (sizeIncrease policy sig marketPrice leader usage rules).localQuantity ≤
        (sizeIncrease policy' sig marketPrice leader usage' rules).localQuantity ∧
      ((sizeIncrease policy sig marketPrice leader usage rules).approved = true →
        (sizeIncrease policy' sig marketPrice leader usage' rules).approved = true) := by
  have hsa : entryLeverage policy rules = entryLeverage policy' rules := by
    rw [entryLeverage, he.maximumLeverage, entryLeverage]
  by_cases hap : (sizeIncrease policy sig marketPrice leader usage rules).approved = true
  · have had := admits_of_approved hap
    have hm : sizedQuantity policy sig marketPrice leader (entryMargin policy usage) rules ≤
        sizedQuantity policy' sig marketPrice leader (entryMargin policy' usage') rules := by
      have hp : sizedQuantity policy sig marketPrice leader (entryMargin policy usage)
          rules = sizedQuantity policy' sig marketPrice leader (entryMargin policy usage)
            rules := by
        rw [sizedQuantity, capacityQuantity, hsa, sizedQuantity, capacityQuantity]
      rw [hp]
      exact sizedQuantity_mono had.price he.entryMargin_le
    have hadm : Admits policy' sig marketPrice leader usage' rules := {
      taken := by
        have ht := had.taken
        rw [TurnsAway, hsa, he.symbol] at ht
        exact ht
      price := had.price
      enough := had.enough.trans hm }
    obtain ⟨ha, hs⟩ := sizeIncrease_of_admits (hsa ▸ hl) hadm
    rw [(sizeIncrease_of_admits hl had).2.quantity_eq, hs.quantity_eq]
    exact ⟨hm, fun _ => ha⟩
  · refine ⟨?_, fun h => absurd h hap⟩
    rw [sizeIncrease_rejected hap]
    by_cases ha : (sizeIncrease policy' sig marketPrice leader usage' rules).approved = true
    · have hadm := admits_of_approved ha
      rw [(sizeIncrease_of_admits (hsa ▸ hl) hadm).2.quantity_eq]
      exact hadm.minimum_pos.le
    · rw [sizeIncrease_rejected ha]

/-- An approved size obeys the laws; if the exchange's minimum lies on the step, an entry that is
not turned away is rejected only if no quantity fits; and more margin never lowers the
quantity. -/
theorem sizeIncrease_sound_complete_monotone (hpolicy : policy.Valid) :
    ((sizeIncrease policy sig marketPrice leader usage rules).approved = true →
        SoundSize policy sig marketPrice leader usage rules
          (sizeIncrease policy sig marketPrice leader usage rules)) ∧
      (OnStep rules.quantityStep rules.minimumQuantity → ¬ TurnsAway policy sig leader usage rules →
        (sizeIncrease policy sig marketPrice leader usage rules).approved = false →
        ∀ qty, ¬ Fits policy marketPrice usage rules qty) ∧
      ∀ policy' usage', Eases policy usage policy' usage' →
        (sizeIncrease policy sig marketPrice leader usage rules).localQuantity ≤
            (sizeIncrease policy' sig marketPrice leader usage' rules).localQuantity ∧
          ((sizeIncrease policy sig marketPrice leader usage rules).approved = true →
            (sizeIncrease policy' sig marketPrice leader usage' rules).approved = true) := by
  have hl := hpolicy.entryLeverage_pos rules
  refine ⟨sizeIncrease_sound hl, ?_, fun _ _ => sizeIncrease_mono hl⟩
  intro hm ht hr qty hf
  rw [sizeIncrease_complete hl hm ht hf] at hr
  cases hr

end Laws

/-! ### A sample entry -/

def sizedEntry : NormalizedSignal where
  signalId := .external "unit"
  sourceEventKey := .external "unit"
  sourceIdentityKey := .external "unit"
  leadPortfolioId := "1"
  symbol := "BTCUSDT"
  positionSide := .long
  kind := .increase
  sourceDeltaQuantity := 1
  sourceCumulativeQuantity := 1
  referencePrice := 100
  occurredAtMs := 1767225599000

def unitLeader : LeaderAllocation where
  leadPortfolioId := "1"
  sourceAumUsdt := 1000
  portfolioWeight := 1
  followMultiplier := 1

def balanceUsage (available : Decimal) : PortfolioUsage where
  accountEquityUsdt := 150
  totalCommittedMarginUsdt := 0
  leaderCommittedMarginUsdt := 0
  symbolCommittedMarginUsdt := 0
  accountAvailableBalanceUsdt := some available

theorem unit_entry_sized :
    SoundSize {} sizedEntry 100 unitLeader (balanceUsage 150) (rulesWithStep 1 one_pos)
        (sizeIncrease {} sizedEntry 100 unitLeader (balanceUsage 150) (rulesWithStep 1 one_pos)) ∧
      ∀ qty, ¬ Fits {} 100 (balanceUsage 34) (rulesWithStep 1 one_pos) qty := by
  have hp : PortfolioAllocationPolicy.Valid {} := by with_unfolding_all decide
  have ho : OnStep (rulesWithStep 1 one_pos).quantityStep
      (rulesWithStep 1 one_pos).minimumQuantity := ⟨1, Nat.one_pos, by norm_num [rulesWithStep]⟩
  have ht : ¬ TurnsAway {} sizedEntry unitLeader (balanceUsage 34) (rulesWithStep 1 one_pos) := by
    rintro (hk | hl | ⟨hs, -⟩)
    · exact hk rfl
    · exact hl rfl
    · exact absurd hs (lt_irrefl 0)
  exact ⟨(sizeIncrease_sound_complete_monotone hp).1 (by with_unfolding_all decide),
    (@sizeIncrease_sound_complete_monotone {} sizedEntry 100 unitLeader _ _ hp).2.1 ho
      ht (by with_unfolding_all decide)⟩

end AiQuant.CopyTrading
