import AiQuant.CopyTrading.EntrySizing

/-! `protected_entry_price` (`copy_trading/execution.py`): the leader's price, moved to the tick
by less than one tick and never to the worse side. -/
namespace AiQuant.CopyTrading

/-- `protected_entry_price` with all its checks. -/
def protectedEntryPriceOf (signal : NormalizedSignal) (priceTick : Decimal)
    (marketPrice : Option Decimal) : Except String Decimal :=
  if signal.kind ≠ .increase then .error "copy protected price requires an increase signal"
  else if priceTick ≤ 0 then .error "copy protected price tick is invalid"
  else if tickSafePrice signal priceTick ≤ 0 then
    .error "copy protected price is below one exchange tick"
  else if marketPrice.any (· ≤ 0) then .error "copy protected market price is invalid"
  else .ok (tickSafePrice signal priceTick)

/-- A price that an order on this side may have for the price of the leader. -/
structure PriceProtected (side : OrderSide) (tick reference price : Decimal) : Prop where
  onTick : OnStep tick price
  buy_le : side = .buy → price ≤ reference
  le_sell : side = .sell → reference ≤ price
  within : |price - reference| < tick
  exact : (∃ count : ℤ, reference = count * tick) → price = reference

section Prices

variable {sig : NormalizedSignal} {tick : Decimal}

theorem tickSafePrice_buy (hs : exchangeOrderSide sig = .buy) :
    tickSafePrice sig tick = ⌊sig.referencePrice / tick⌋ * tick := by
  rw [tickSafePrice, if_neg (by simp [hs])]

theorem tickSafePrice_sell (ht : 0 < tick) (hs : exchangeOrderSide sig = .sell) :
    tickSafePrice sig tick = ⌈sig.referencePrice / tick⌉ * tick := by
  have hle := Int.floor_le (sig.referencePrice / tick)
  have hlt := Int.lt_floor_add_one (sig.referencePrice / tick)
  rw [tickSafePrice]
  split_ifs with hup
  · have hc : ⌈sig.referencePrice / tick⌉ = ⌊sig.referencePrice / tick⌋ + 1 := by
      rw [Int.ceil_eq_iff]
      push_cast
      refine ⟨?_, hlt.le⟩
      rw [add_sub_cancel_right, lt_div_iff₀ ht]
      exact hup.2
    rw [hc]
    push_cast
    ring
  · have hge : sig.referencePrice ≤ ⌊sig.referencePrice / tick⌋ * tick :=
      not_lt.mp fun hl => hup ⟨hs, hl⟩
    have hw := le_antisymm ((div_le_iff₀ ht).mpr hge) hle
    rw [hw, Int.ceil_intCast, Int.floor_intCast]

theorem tickSafePrice_nonpos_iff (ht : 0 < tick) (hr : 0 < sig.referencePrice) :
    tickSafePrice sig tick ≤ 0 ↔ exchangeOrderSide sig = .buy ∧ sig.referencePrice < tick := by
  cases hsi : exchangeOrderSide sig with
  | buy =>
    have hst : 0 < ⌊sig.referencePrice / tick⌋ ↔ tick ≤ sig.referencePrice := by
      rw [Int.floor_pos, le_div_iff₀ ht, one_mul]
    rw [tickSafePrice_buy hsi, ← not_lt, mul_pos_iff_of_pos_right ht, Int.cast_pos, hst, not_le]
    exact ⟨fun hl => ⟨rfl, hl⟩, fun hl => hl.2⟩
  | sell =>
    have hc : (0 : Decimal) < ⌈sig.referencePrice / tick⌉ :=
      (div_pos hr ht).trans_le (Int.le_ceil _)
    rw [tickSafePrice_sell ht hsi]
    exact ⟨fun hle => absurd (mul_pos hc ht) (not_lt.mpr hle), fun hs => by cases hs.1⟩

theorem onStep_of_pos {count : ℤ} (ht : 0 < tick) (hp : 0 < count * tick) :
    OnStep tick (count * tick) := by
  have hc : 0 < count := by exact_mod_cast pos_of_mul_pos_left hp ht.le
  refine ⟨count.toNat, Int.lt_toNat.mpr hc, ?_⟩
  have hca : ((count.toNat : ℕ) : ℚ) = count := by exact_mod_cast Int.toNat_of_nonneg hc.le
  rw [hca]

theorem priceProtected_tickSafePrice (ht : 0 < tick) (hp : 0 < tickSafePrice sig tick) :
    PriceProtected (exchangeOrderSide sig) tick sig.referencePrice (tickSafePrice sig tick) := by
  have hq : sig.referencePrice / tick * tick = sig.referencePrice :=
    div_mul_cancel₀ _ ht.ne'
  cases hs : exchangeOrderSide sig with
  | buy =>
    rw [tickSafePrice_buy hs] at hp ⊢
    have hle := (le_div_iff₀ ht).mp (Int.floor_le (sig.referencePrice / tick))
    have hlt := (div_lt_iff₀ ht).mp (Int.lt_floor_add_one (sig.referencePrice / tick))
    refine ⟨onStep_of_pos ht hp, fun _ => hle, (by rintro ⟨⟩), ?_, ?_⟩
    · rw [abs_lt]
      constructor <;> linarith
    · rintro ⟨count, hc⟩
      rw [hc, mul_div_cancel_right₀ _ ht.ne', Int.floor_intCast]
  | sell =>
    rw [tickSafePrice_sell ht hs] at hp ⊢
    have hle := (div_le_iff₀ ht).mp (Int.le_ceil (sig.referencePrice / tick))
    have hlt := mul_lt_mul_of_pos_right (Int.ceil_lt_add_one (sig.referencePrice / tick)) ht
    refine ⟨onStep_of_pos ht hp, (by rintro ⟨⟩), fun _ => hle, ?_, ?_⟩
    · rw [add_mul, hq] at hlt
      rw [abs_lt]
      constructor <;> linarith
    · rintro ⟨count, hc⟩
      rw [hc, mul_div_cancel_right₀ _ ht.ne', Int.ceil_intCast]

end Prices

/-- A market price that is given must be positive; it does not move the price. -/
theorem protected_entry_price_sound (sig : NormalizedSignal) (priceTick : Decimal)
    (marketPrice : Option Decimal) (hkind : sig.kind = .increase) (href : 0 < sig.referencePrice)
    (htick : 0 < priceTick) (hmarket : ∀ price ∈ marketPrice, 0 < price) :
    ((∃ msg, protectedEntryPriceOf sig priceTick marketPrice = .error msg) ↔
      exchangeOrderSide sig = .buy ∧ sig.referencePrice < priceTick) ∧
    ∀ price, protectedEntryPriceOf sig priceTick marketPrice = .ok price →
      PriceProtected (exchangeOrderSide sig) priceTick sig.referencePrice price := by
  have hv : ¬(marketPrice.any (· ≤ 0)) = true := by
    rw [Option.any_eq_true_iff_get]
    rintro ⟨hs, hle⟩
    exact absurd (of_decide_eq_true hle) (not_le.mpr (hmarket _ (Option.get_mem hs)))
  rw [protectedEntryPriceOf, if_neg (not_not.mpr hkind), if_neg (not_le.mpr htick),
    if_neg hv, ← tickSafePrice_nonpos_iff htick href]
  split_ifs with hl
  · exact ⟨⟨fun _ => hl, fun _ => ⟨_, rfl⟩⟩, fun _ hok => by cases hok⟩
  · refine ⟨⟨fun ⟨_, hr⟩ => (by cases hr), fun hle => absurd hle hl⟩, ?_⟩
    rintro _ ⟨⟩
    exact priceProtected_tickSafePrice htick (not_le.mp hl)

def leaderPurchase : NormalizedSignal where
  signalId := .external "purchase"
  sourceEventKey := .external "purchase"
  sourceIdentityKey := .external "purchase"
  leadPortfolioId := "1"
  symbol := "ETHUSDT"
  positionSide := .long
  kind := .increase
  sourceDeltaQuantity := 1
  sourceCumulativeQuantity := 1
  referencePrice := 2000019 / 1000
  occurredAtMs := 1767225599000

theorem protected_entry_price_leaderPurchase :
    ∃ price, protectedEntryPriceOf leaderPurchase (1 / 100) none = .ok price ∧
      PriceProtected .buy (1 / 100) (2000019 / 1000) price := by
  obtain ⟨hr, hok⟩ := protected_entry_price_sound leaderPurchase (1 / 100) none rfl
    (by norm_num [leaderPurchase]) (by norm_num) (by simp)
  cases hp : protectedEntryPriceOf leaderPurchase (1 / 100) none with
  | error msg =>
    have hl := (hr.mp ⟨msg, hp⟩).2
    norm_num [leaderPurchase] at hl
  | ok price => exact ⟨price, rfl, hok price hp⟩

end AiQuant.CopyTrading
