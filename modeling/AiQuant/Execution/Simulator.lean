import AiQuant.Lib.DecimalGrid
import Mathlib.Algebra.BigOperators.Group.List.Basic
import Mathlib.Algebra.Order.BigOperators.Group.List
import Mathlib.Algebra.Order.Field.Basic
import Mathlib.Algebra.Order.Ring.Rat
import Mathlib.Data.List.Pairwise
import Mathlib.Tactic.Linarith
import Mathlib.Tactic.NormNum
import Mathlib.Tactic.Ring

/-! Conservative replay fills (`execution/simulator.py`).  A maker fill needs consumed queue; a
taker fill walks the visible levels.  Sums, differences, products and the average are rounded to 28
digits. -/
namespace AiQuant.Execution
open AiQuant.Lib

inductive SimulatedOrderType where
  | maker
  | taker

structure Level where
  price : ℚ
  available : ℚ
deriving DecidableEq

structure SimulatedOrder where
  side : String
  quantity : ℚ
  orderType : SimulatedOrderType
  limitPrice : Option ℚ
  visibleLevels : List Level
  tradedAtLimitAfterOrder : ℚ := 0
  queueAhead : Option ℚ := none

structure FillResult where
  filledQuantity : ℚ
  averagePrice : Option ℚ
  remainingQuantity : ℚ
deriving DecidableEq

structure Walk where
  remaining : ℚ
  notional : ℚ
  filled : ℚ

def walkLevels (walk : Walk) : List Level → Walk
  | [] => walk
  | level :: levels =>
    let take := min walk.remaining level.available
    if take ≤ 0 then walkLevels walk levels
    else
      let next : Walk := {
        remaining := decimalContext.round (walk.remaining - take)
        notional := decimalContext.round
          (walk.notional + decimalContext.round (take * level.price))
        filled := decimalContext.round (walk.filled + take) }
      if next.remaining = 0 then next else walkLevels next levels

namespace SimulatedOrder

variable (order : SimulatedOrder)

/-- The check at the top of `simulate_fill`. -/
def Valid : Prop :=
  0 < order.quantity ∧ order.side ∈ ["BUY", "SELL"]

instance : Decidable order.Valid := inferInstanceAs (Decidable (_ ∧ _))

def makerFill : FillResult :=
  match order.limitPrice, order.queueAhead with
  | some limitPrice, some queueAhead =>
    let provable := max 0 (decimalContext.round (order.tradedAtLimitAfterOrder - queueAhead))
    let filled := min order.quantity provable
    ⟨filled, if filled = 0 then none else some limitPrice,
      decimalContext.round (order.quantity - filled)⟩
  | _, _ => ⟨0, none, order.quantity⟩

def takerFill : FillResult :=
  let walk := walkLevels ⟨order.quantity, 0, 0⟩ order.visibleLevels
  ⟨walk.filled, if walk.filled = 0 then none
    else some (decimalContext.round (walk.notional / walk.filled)), walk.remaining⟩

end SimulatedOrder

def simulateFill (order : SimulatedOrder) : Except String FillResult :=
  if ¬ order.Valid then .error "invalid simulated order"
  else match order.orderType with
    | .maker => .ok order.makerFill
    | .taker => .ok order.takerFill

structure Take where
  level : Level
  quantity : ℚ

def takes (remaining : ℚ) : List Level → List Take
  | [] => []
  | level :: levels =>
    let take := min remaining level.available
    if take ≤ 0 then ⟨level, 0⟩ :: takes remaining levels
    else if remaining - take = 0 then ⟨level, take⟩ :: levels.map (⟨·, 0⟩)
    else ⟨level, take⟩ :: takes (remaining - take) levels

def takenQuantity (taken : List Take) : ℚ :=
  (taken.map Take.quantity).sum

def takenNotional (taken : List Take) : ℚ :=
  (taken.map fun take => take.quantity * take.level.price).sum

@[simp] theorem takenQuantity_nil : takenQuantity [] = 0 := rfl

@[simp] theorem takenQuantity_cons (take : Take) (taken : List Take) :
    takenQuantity (take :: taken) = take.quantity + takenQuantity taken := by
  simp [takenQuantity]

@[simp] theorem takenNotional_nil : takenNotional [] = 0 := rfl

@[simp] theorem takenNotional_cons (take : Take) (taken : List Take) :
    takenNotional (take :: taken) = take.quantity * take.level.price + takenNotional taken := by
  simp [takenNotional]

@[simp] theorem takenQuantity_untouched (levels : List Level) :
    takenQuantity (levels.map (⟨·, 0⟩)) = 0 := by
  induction levels with
  | nil => rfl
  | cons level levels ih => simp [ih]

@[simp] theorem takenNotional_untouched (levels : List Level) :
    takenNotional (levels.map (⟨·, 0⟩)) = 0 := by
  induction levels with
  | nil => rfl
  | cons level levels ih => simp [ih]

/-- The level takes part with sizes and prices on their grids, and no price above the highest. -/
structure Level.OnGrid (sizes prices : ℤ) (highest : ℚ) (level : Level) : Prop where
  available : level.available ∈ decimalGrid sizes
  price : level.price ∈ decimalGrid prices
  price_pos : 0 < level.price
  price_le : level.price ≤ highest

structure Walk.OnGrid (sizes prices : ℤ) (highest : ℚ) (walk : Walk) : Prop where
  remaining : walk.remaining ∈ decimalGrid sizes
  remaining_nonneg : 0 ≤ walk.remaining
  filled : walk.filled ∈ decimalGrid sizes
  filled_nonneg : 0 ≤ walk.filled
  notional : walk.notional ∈ decimalGrid (sizes + prices)
  notional_nonneg : 0 ≤ walk.notional
  notional_le : walk.notional ≤ walk.filled * highest
  few : walk.remaining + walk.filled < 10 ^ 28 * 10 ^ sizes
  small : (walk.remaining + walk.filled) * highest < 10 ^ 28 * 10 ^ (sizes + prices)

/-- The step of the loop without a rounding. -/
def Walk.took (walk : Walk) (level : Level) (quantity : ℚ) : Walk :=
  ⟨walk.remaining - quantity, walk.notional + quantity * level.price, walk.filled + quantity⟩

section Grid

variable {sizes prices : ℤ} {highest : ℚ} {walk : Walk} {level : Level}

theorem Walk.OnGrid.took (hw : walk.OnGrid sizes prices highest)
    (hl : level.OnGrid sizes prices highest) {qty : ℚ} (hq : qty ∈ decimalGrid sizes)
    (hp : 0 < qty) (hle : qty ≤ walk.remaining) :
    (walk.took level qty).OnGrid sizes prices highest where
  remaining := sub_mem hw.remaining hq
  remaining_nonneg := sub_nonneg.mpr hle
  filled := add_mem hw.filled hq
  filled_nonneg := add_nonneg hw.filled_nonneg hp.le
  notional := add_mem hw.notional (mul_mem_decimalGrid hq hl.price)
  notional_nonneg := add_nonneg hw.notional_nonneg (mul_pos hp hl.price_pos).le
  notional_le := by
    have hn := hw.notional_le
    have ht := mul_le_mul_of_nonneg_left hl.price_le hp.le
    change walk.notional + qty * level.price ≤ (walk.filled + qty) * highest
    linarith
  few := by simpa [Walk.took] using hw.few
  small := by simpa [Walk.took] using hw.small

/-- On the grids the loop rounds nothing. -/
theorem Walk.OnGrid.rounded (hw : walk.OnGrid sizes prices highest)
    (hl : level.OnGrid sizes prices highest) {qty : ℚ} (hq : qty ∈ decimalGrid sizes)
    (hp : 0 < qty) (hle : qty ≤ walk.remaining) : (⟨decimalContext.round (walk.remaining - qty),
      decimalContext.round (walk.notional + decimalContext.round (qty * level.price)),
      decimalContext.round (walk.filled + qty)⟩ : Walk) = walk.took level qty := by
  have hn := hw.took hl hq hp hle
  have hproduct : 0 < qty * level.price := mul_pos hp hl.price_pos
  have hhighest : 0 ≤ highest := hl.price_pos.le.trans hl.price_le
  have htotal : (walk.took level qty).notional < 10 ^ 28 * 10 ^ (sizes + prices) := by
    refine hn.notional_le.trans_lt (lt_of_le_of_lt ?_ hn.small)
    exact mul_le_mul_of_nonneg_right (le_add_of_nonneg_left hn.remaining_nonneg) hhighest
  have hpart : qty * level.price < 10 ^ 28 * 10 ^ (sizes + prices) :=
    (le_add_of_nonneg_left hw.notional_nonneg).trans_lt htotal
  have hr : decimalContext.round (walk.remaining - qty) = walk.remaining - qty := by
    refine decimalContext_round_eq hn.remaining ((abs_of_nonneg hn.remaining_nonneg).trans_lt ?_)
    exact (le_add_of_nonneg_right hn.filled_nonneg).trans_lt hn.few
  have hf : decimalContext.round (walk.filled + qty) = walk.filled + qty := by
    refine decimalContext_round_eq hn.filled ((abs_of_nonneg hn.filled_nonneg).trans_lt ?_)
    exact (le_add_of_nonneg_left hn.remaining_nonneg).trans_lt hn.few
  have hm : decimalContext.round (qty * level.price) = qty * level.price :=
    decimalContext_round_eq (mul_mem_decimalGrid hq hl.price) (by rwa [abs_of_pos hproduct])
  have ha : decimalContext.round (walk.notional + qty * level.price) =
      walk.notional + qty * level.price :=
    decimalContext_round_eq hn.notional ((abs_of_nonneg hn.notional_nonneg).trans_lt htotal)
  rw [hr, hf, hm, ha, Walk.took]

theorem walkLevels_eq {levels : List Level} (hw : walk.OnGrid sizes prices highest)
    (hl : ∀ level ∈ levels, level.OnGrid sizes prices highest) : walkLevels walk levels =
      ⟨walk.remaining - takenQuantity (takes walk.remaining levels),
        walk.notional + takenNotional (takes walk.remaining levels),
        walk.filled + takenQuantity (takes walk.remaining levels)⟩ := by
  induction levels generalizing walk with
  | nil => simp [walkLevels, takes]
  | cons level levels ih =>
    obtain ⟨hlevel, hlevels⟩ := List.forall_mem_cons.mp hl
    simp only [walkLevels, takes]
    split_ifs with hn hr hz hz
    · simp [ih hw hlevels]
    all_goals
      have hq := min_mem_decimalGrid hw.remaining hlevel.available
      have hro := hw.rounded hlevel hq (not_le.mp hn) (min_le_left _ _)
    · rw [hro]
      simp [Walk.took]
    · exact absurd ((congrArg Walk.remaining hro).symm.trans hr) hz
    · exact absurd ((congrArg Walk.remaining hro).trans hz) hr
    · rw [hro, ih (hw.took hlevel hq (not_le.mp hn) (min_le_left _ _)) hlevels]
      simp only [Walk.took, takenQuantity_cons, takenNotional_cons, Walk.mk.injEq]
      refine ⟨?_, ?_, ?_⟩ <;> ring

end Grid

theorem takes_levels (remaining : ℚ) (levels : List Level) :
    (takes remaining levels).map Take.level = levels := by
  induction levels generalizing remaining with
  | nil => rfl
  | cons level levels ih =>
    simp only [takes]
    split_ifs with hn hl
    · simp [ih]
    · simp [Function.comp_def]
    · simp [ih]

theorem takes_cons {remaining : ℚ} {level : Level} (levels : List Level)
    (hr : 0 < remaining) (ha : 0 ≤ level.available) : (level.available = 0 ∧
        takes remaining (level :: levels) = ⟨level, 0⟩ :: takes remaining levels) ∨
      (0 < level.available ∧ remaining ≤ level.available ∧
        takes remaining (level :: levels) = ⟨level, remaining⟩ :: levels.map (⟨·, 0⟩)) ∨
      (0 < level.available ∧ level.available < remaining ∧ takes remaining (level :: levels) =
          ⟨level, level.available⟩ :: takes (remaining - level.available) levels) := by
  rcases ha.eq_or_lt with he | hs
  · left
    have ht : min remaining level.available ≤ 0 := (min_le_right _ _).trans he.ge
    exact ⟨he.symm, by simp only [takes, if_pos ht]⟩
  · right
    rcases le_or_gt remaining level.available with hl | hm
    · left
      refine ⟨hs, hl, ?_⟩
      simp only [takes, min_eq_left hl, if_neg hr.not_ge, sub_self, if_true]
    · right
      have hre : ¬ remaining - level.available = 0 := (sub_pos.mpr hm).ne'
      refine ⟨hs, hm, ?_⟩
      simp only [takes, min_eq_right hm.le, if_neg hs.not_ge, if_neg hre]

theorem takes_offered {remaining : ℚ} {levels : List Level} (hr : 0 < remaining)
    (hs : ∀ level ∈ levels, 0 ≤ level.available) : ∀ take ∈ takes remaining levels,
      0 ≤ take.quantity ∧ take.quantity ≤ take.level.available := by
  induction levels generalizing remaining with
  | nil => simp [takes]
  | cons level levels ih =>
    obtain ⟨hh, ht⟩ := List.forall_mem_cons.mp hs
    rcases takes_cons levels hr hh with
      ⟨he, heq⟩ | ⟨hsi, hl, heq⟩ | ⟨hsi, hm, heq⟩
    · rw [heq, List.forall_mem_cons]
      exact ⟨⟨le_rfl, hh⟩, ih hr ht⟩
    · rw [heq, List.forall_mem_cons]
      refine ⟨⟨hr.le, hl⟩, ?_⟩
      intro take hta
      obtain ⟨other, ho, rfl⟩ := List.mem_map.mp hta
      exact ⟨le_rfl, ht other ho⟩
    · rw [heq, List.forall_mem_cons]
      exact ⟨⟨hsi.le, le_rfl⟩, ih (sub_pos.mpr hm) ht⟩

theorem takenQuantity_takes_le {remaining : ℚ} {levels : List Level}
    (hr : 0 < remaining) (hs : ∀ level ∈ levels, 0 ≤ level.available) :
    takenQuantity (takes remaining levels) ≤ remaining := by
  induction levels generalizing remaining with
  | nil => exact hr.le
  | cons level levels ih =>
    obtain ⟨hh, ht⟩ := List.forall_mem_cons.mp hs
    rcases takes_cons levels hr hh with
      ⟨he, heq⟩ | ⟨hsi, hl, heq⟩ | ⟨hsi, hm, heq⟩
    · simpa [heq] using ih hr ht
    · simp [heq]
    · have hre := ih (sub_pos.mpr hm) ht
      rw [heq, takenQuantity_cons]
      linarith

theorem takes_bestFirst {remaining : ℚ} {levels : List Level} (hr : 0 < remaining)
    (hs : ∀ level ∈ levels, 0 ≤ level.available) :
    (takes remaining levels).Pairwise fun earlier later =>
      0 < later.quantity → earlier.quantity = earlier.level.available := by
  induction levels generalizing remaining with
  | nil => exact List.Pairwise.nil
  | cons level levels ih =>
    obtain ⟨hh, ht⟩ := List.forall_mem_cons.mp hs
    rcases takes_cons levels hr hh with
      ⟨he, heq⟩ | ⟨hsi, hla, heq⟩ | ⟨hsi, hm, heq⟩
    · rw [heq, List.pairwise_cons]
      exact ⟨fun _ _ _ => he.symm, ih hr ht⟩
    · rw [heq, List.pairwise_cons]
      constructor
      · intro later hl hu
        obtain ⟨other, -, rfl⟩ := List.mem_map.mp hl
        exact absurd hu (lt_irrefl 0)
      · rw [List.pairwise_map]
        exact List.pairwise_of_forall fun _ _ hu => absurd hu (lt_irrefl 0)
    · rw [heq, List.pairwise_cons]
      exact ⟨fun _ _ _ => rfl, ih (sub_pos.mpr hm) ht⟩

def cost (side : String) (price : ℚ) : ℚ :=
  if side = "BUY" then price else -price

def AtLeastAsGood (side : String) (price other : ℚ) : Prop :=
  cost side price ≤ cost side other

instance (side : String) (price other : ℚ) : Decidable (AtLeastAsGood side price other) :=
  inferInstanceAs (Decidable (_ ≤ _))

theorem cost_mul (side : String) (qty price : ℚ) :
    qty * cost side price = cost side (qty * price) := by
  unfold cost
  split_ifs <;> ring

theorem cost_add (side : String) (left right : ℚ) :
    cost side (left + right) = cost side left + cost side right := by
  unfold cost
  split_ifs <;> ring

@[simp] theorem cost_zero (side : String) : cost side 0 = 0 := by
  simp [cost]

def usedLevels (taken : List Take) : List Level :=
  (taken.filter fun take => 0 < take.quantity).map Take.level

theorem mem_usedLevels {taken : List Take} {level : Level} :
    level ∈ usedLevels taken ↔ ∃ take ∈ taken, 0 < take.quantity ∧ take.level = level := by
  simp [usedLevels, and_assoc]

theorem takenNotional_bounds {side : String} {taken : List Take} {low high : ℚ}
    (hn : ∀ take ∈ taken, 0 ≤ take.quantity)
    (hu : ∀ level ∈ usedLevels taken, low ≤ cost side level.price ∧ cost side level.price ≤ high) :
    takenQuantity taken * low ≤ cost side (takenNotional taken) ∧
      cost side (takenNotional taken) ≤ takenQuantity taken * high := by
  induction taken with
  | nil => simp
  | cons take taken ih =>
    obtain ⟨hh, hta⟩ := List.forall_mem_cons.mp hn
    have hr := ih hta fun level hl => hu level (by
      obtain ⟨later, hla, hl⟩ := mem_usedLevels.mp hl
      exact mem_usedLevels.mpr ⟨later, List.mem_cons_of_mem _ hla, hl⟩)
    have ht : take.quantity * low ≤ take.quantity * cost side take.level.price ∧
        take.quantity * cost side take.level.price ≤ take.quantity * high := by
      rcases hh.eq_or_lt with hz | hp
      · simp [← hz]
      · obtain ⟨hlow, hhi⟩ := hu take.level (mem_usedLevels.mpr ⟨take, List.mem_cons_self, hp, rfl⟩)
        exact ⟨mul_le_mul_of_nonneg_left hlow hh, mul_le_mul_of_nonneg_left hhi hh⟩
    rw [takenQuantity_cons, takenNotional_cons, cost_add, ← cost_mul, add_mul, add_mul]
    exact ⟨add_le_add ht.1 hr.1, add_le_add ht.2 hr.2⟩

theorem usedLevels_ne_nil {taken : List Take} (hn : ∀ take ∈ taken, 0 ≤ take.quantity)
    (hf : takenQuantity taken ≠ 0) : usedLevels taken ≠ [] := by
  induction taken with
  | nil => exact absurd rfl hf
  | cons take taken ih =>
    obtain ⟨hh, ht⟩ := List.forall_mem_cons.mp hn
    rcases hh.eq_or_lt with hz | hp
    · have hr : takenQuantity taken ≠ 0 := by simpa [← hz] using hf
      simpa [usedLevels, ← hz] using ih ht hr
    · simp [usedLevels, hp]

theorem usedLevels_sorted {side : String} {taken : List Take}
    (hs : (taken.map Take.level).Pairwise fun better worse =>
      AtLeastAsGood side better.price worse.price) : (usedLevels taken).Pairwise fun better worse =>
      AtLeastAsGood side better.price worse.price :=
  hs.sublist (List.filter_sublist.map Take.level)

def sizeWithin (side : String) (limit : ℚ) (levels : List Level) : ℚ :=
  ((levels.filter fun level => AtLeastAsGood side level.price limit).map Level.available).sum

theorem sizeWithin_eq_zero {side : String} {limit : ℚ} {levels : List Level}
    (hw : ∀ level ∈ levels, ¬ AtLeastAsGood side level.price limit) :
    sizeWithin side limit levels = 0 := by
  have hn : (levels.filter fun level => AtLeastAsGood side level.price limit) = [] := by
    simpa using hw
  simp [sizeWithin, hn]

theorem sizeWithin_nonneg {side : String} {limit : ℚ} {levels : List Level}
    (hs : ∀ level ∈ levels, 0 ≤ level.available) : 0 ≤ sizeWithin side limit levels := by
  apply List.sum_nonneg
  intro size hsi
  obtain ⟨level, hl, rfl⟩ := List.mem_map.mp hsi
  exact hs level (List.mem_filter.mp hl).1

theorem takes_within_iff {side : String} (limit : ℚ) {remaining : ℚ} {levels : List Level}
    (hr : 0 < remaining) (hsi : ∀ level ∈ levels, 0 ≤ level.available)
    (hso : levels.Pairwise fun better worse => AtLeastAsGood side better.price worse.price) :
    (∀ level ∈ usedLevels (takes remaining levels), AtLeastAsGood side level.price limit) ↔
      remaining ≤ sizeWithin side limit levels ∨
        ∀ level ∈ levels, 0 < level.available → AtLeastAsGood side level.price limit := by
  induction levels generalizing remaining with
  | nil => simp [takes, usedLevels]
  | cons level levels ih =>
    obtain ⟨hh, ht⟩ := List.forall_mem_cons.mp hsi
    obtain ⟨hb, hre⟩ := List.pairwise_cons.mp hso
    by_cases hw : AtLeastAsGood side level.price limit
    · have hsize : sizeWithin side limit (level :: levels) =
          level.available + sizeWithin side limit levels := by
        simp [sizeWithin, hw]
      rcases takes_cons levels hr hh with
        ⟨he, heq⟩ | ⟨ha, hla, heq⟩ | ⟨ha, hm, heq⟩
      · have hu : usedLevels (takes remaining (level :: levels)) =
            usedLevels (takes remaining levels) := by simp [heq, usedLevels]
        rw [hu, ih hr ht hre, hsize, he, zero_add]
        simp [he]
      · have hn : 0 ≤ sizeWithin side limit levels := sizeWithin_nonneg ht
        have hc : remaining ≤ sizeWithin side limit (level :: levels) := by
          rw [hsize]
          linarith
        have hu : usedLevels (takes remaining (level :: levels)) = [level] := by
          simp [heq, usedLevels, hr]
        simp [hu, hw, hc]
      · have hu : usedLevels (takes remaining (level :: levels)) =
            level :: usedLevels (takes (remaining - level.available) levels) := by
          simp [heq, usedLevels, ha]
        rw [hu, List.forall_mem_cons, ih (sub_pos.mpr hm) ht hre, hsize,
          List.forall_mem_cons, sub_le_iff_le_add']
        simp [hw]
    · have hwo : ∀ later ∈ level :: levels, ¬ AtLeastAsGood side later.price limit := by
        rw [List.forall_mem_cons]
        refine ⟨hw, ?_⟩
        intro later hl hg
        exact hw ((hb later hl).trans hg)
      have hs : ¬ remaining ≤ sizeWithin side limit (level :: levels) := by
        rw [sizeWithin_eq_zero hwo]
        exact not_le.mpr hr
      rcases takes_cons levels hr hh with
        ⟨he, heq⟩ | ⟨ha, hla, heq⟩ | ⟨ha, hm, heq⟩
      · have hu : usedLevels (takes remaining (level :: levels)) =
            usedLevels (takes remaining levels) := by simp [heq, usedLevels]
        have hsize : sizeWithin side limit (level :: levels) =
            sizeWithin side limit levels := by simp [sizeWithin, hw]
        rw [hu, ih hr ht hre, hsize]
        simp [he]
      · have hu : usedLevels (takes remaining (level :: levels)) = [level] := by
          simp [heq, usedLevels, hr]
        simp [hu, hw, hs, ha]
      · have hu : usedLevels (takes remaining (level :: levels)) =
            level :: usedLevels (takes (remaining - level.available) levels) := by
          simp [heq, usedLevels, ha]
        simp [hu, hw, hs, ha]

namespace SimulatedOrder

variable (order : SimulatedOrder)

def taken : List Take :=
  takes order.quantity order.visibleLevels

/-- Positive prices and sizes that are not negative, from best to worst. -/
structure BookOrdered : Prop where
  prices : ∀ level ∈ order.visibleLevels, 0 < level.price
  sizes : ∀ level ∈ order.visibleLevels, 0 ≤ level.available
  sorted : order.visibleLevels.Pairwise fun better worse =>
    AtLeastAsGood order.side better.price worse.price

structure TakerConservative (result : FillResult) : Prop where
  levels : order.taken.map Take.level = order.visibleLevels
  offered : ∀ take ∈ order.taken,
    0 ≤ take.quantity ∧ take.quantity ≤ take.level.available
  bestFirst : order.taken.Pairwise fun earlier later =>
    0 < later.quantity → earlier.quantity = earlier.level.available
  filled : result.filledQuantity = takenQuantity order.taken
  average : ∀ average, result.averagePrice = some average →
    average = decimalContext.round (takenNotional order.taken / result.filledQuantity) ∧
      ∃ best ∈ usedLevels order.taken, ∃ worst ∈ usedLevels order.taken,
        (∀ level ∈ usedLevels order.taken,
          AtLeastAsGood order.side best.price level.price ∧
            AtLeastAsGood order.side level.price worst.price) ∧
          AtLeastAsGood order.side best.price average ∧
            AtLeastAsGood order.side average worst.price
  withinLimit : ∀ limit, order.limitPrice = some limit →
    ∀ level ∈ usedLevels order.taken, AtLeastAsGood order.side level.price limit

structure MakerConservative (result : FillResult) : Prop where
  queued : ∀ queueAhead, order.queueAhead = some queueAhead →
    result.filledQuantity ≤ max 0 (order.tradedAtLimitAfterOrder - queueAhead)
  unproven : order.queueAhead = none → result.filledQuantity = 0
  atLimit : ∀ average, result.averagePrice = some average → order.limitPrice = some average

structure Conservative (result : FillResult) : Prop where
  total : result.filledQuantity + result.remainingQuantity = order.quantity
  filled_nonneg : 0 ≤ result.filledQuantity
  remaining_nonneg : 0 ≤ result.remainingQuantity
  priced : result.averagePrice = none ↔ result.filledQuantity = 0
  taker : order.orderType = .taker → order.TakerConservative result
  maker : order.orderType = .maker → order.MakerConservative result

/-- A taker's limit that the walk cannot pass: the levels within it hold the quantity, or no
level offers anything beyond it. -/
def LimitCovered : Prop :=
  order.orderType = .taker → ∀ limit, order.limitPrice = some limit →
    order.quantity ≤ sizeWithin order.side limit order.visibleLevels ∨
      ∀ level ∈ order.visibleLevels, 0 < level.available →
        AtLeastAsGood order.side level.price limit

/-- Sizes and prices are multiples of a power of ten each, few enough for 28 digits to hold the
quantity and its value at every price. -/
structure TakerOnGrid (sizes prices : ℤ) : Prop where
  quantity : order.quantity ∈ decimalGrid sizes
  few : order.quantity < 10 ^ 28 * 10 ^ sizes
  levels : ∀ level ∈ order.visibleLevels, level.available ∈ decimalGrid sizes ∧
    level.price ∈ decimalGrid prices ∧
    order.quantity * level.price < 10 ^ 28 * 10 ^ (sizes + prices)

structure MakerOnGrid (sizes : ℤ) (queueAhead : ℚ) : Prop where
  quantity : order.quantity ∈ decimalGrid sizes
  few : order.quantity < 10 ^ 28 * 10 ^ sizes
  traded : order.tradedAtLimitAfterOrder ∈ decimalGrid sizes
  queued : queueAhead ∈ decimalGrid sizes
  beyond : |order.tradedAtLimitAfterOrder - queueAhead| < 10 ^ 28 * 10 ^ sizes

/-- No number of the fill has more than 28 digits, the average apart. -/
def OnGrid : Prop :=
  match order.orderType with
  | .taker => ∃ sizes prices, order.TakerOnGrid sizes prices
  | .maker => ∀ queueAhead ∈ order.queueAhead, ∃ sizes, order.MakerOnGrid sizes queueAhead

variable {order}

theorem makerFill_spec (hquantity : 0 < order.quantity)
    (hgrid : ∀ queueAhead ∈ order.queueAhead, ∃ sizes, order.MakerOnGrid sizes queueAhead) :
    (0 ≤ order.makerFill.filledQuantity ∧ 0 ≤ order.makerFill.remainingQuantity) ∧
      order.makerFill.filledQuantity + order.makerFill.remainingQuantity = order.quantity ∧
      (order.makerFill.averagePrice = none ↔ order.makerFill.filledQuantity = 0) ∧
      order.MakerConservative order.makerFill := by
  cases hl : order.limitPrice with
  | none =>
    have heq : order.makerFill = ⟨0, none, order.quantity⟩ := by simp [makerFill, hl]
    rw [heq]
    refine ⟨⟨le_rfl, hquantity.le⟩, zero_add _, by simp, ?_, fun _ => rfl, by simp⟩
    exact fun _ _ => le_max_left _ _
  | some limit =>
    cases hq : order.queueAhead with
    | none =>
      have heq : order.makerFill = ⟨0, none, order.quantity⟩ := by
        simp [makerFill, hl, hq]
      rw [heq]
      refine ⟨⟨le_rfl, hquantity.le⟩, zero_add _, by simp, ?_, fun _ => rfl, by simp⟩
      exact fun _ _ => le_max_left _ _
    | some queueAhead =>
      obtain ⟨sizes, hg⟩ := hgrid queueAhead hq
      have hb := sub_mem hg.traded hg.queued
      have hprovable : decimalContext.round (order.tradedAtLimitAfterOrder - queueAhead) =
          order.tradedAtLimitAfterOrder - queueAhead := decimalContext_round_eq hb hg.beyond
      have hf : order.makerFill.filledQuantity =
          min order.quantity (max 0 (order.tradedAtLimitAfterOrder - queueAhead)) := by
        simp [makerFill, hl, hq, hprovable]
      have hr : order.makerFill.remainingQuantity =
          order.quantity - order.makerFill.filledQuantity := by
        have hfm := min_mem_decimalGrid hg.quantity (max_mem_decimalGrid (zero_mem _) hb)
        rw [← hf] at hfm
        have hle : order.makerFill.filledQuantity ≤ order.quantity := hf ▸ min_le_left _ _
        have hnn : 0 ≤ order.makerFill.filledQuantity :=
          hf ▸ le_min hquantity.le (le_max_left _ _)
        rw [← decimalContext_round_eq (sub_mem hg.quantity hfm)
          ((abs_of_nonneg (sub_nonneg.mpr hle)).trans_lt ((sub_le_self _ hnn).trans_lt hg.few))]
        simp [makerFill, hl, hq]
      have ha : order.makerFill.averagePrice =
          if order.makerFill.filledQuantity = 0 then none else some limit := by
        simp [makerFill, hl, hq]
      refine ⟨⟨?_, ?_⟩, ?_, ?_, ?_, ?_, ?_⟩
      · rw [hf]
        exact le_min hquantity.le (le_max_left _ _)
      · rw [hr, hf]
        exact sub_nonneg.mpr (min_le_left _ _)
      · rw [hr]
        ring
      · rw [ha]
        simp
      · intro other ho
        rw [hq, Option.some.injEq] at ho
        rw [hf, ← ho]
        exact min_le_right _ _
      · intro hn
        rw [hq] at hn
        exact absurd hn (Option.some_ne_none _)
      · intro average hs
        rw [ha] at hs
        split_ifs at hs with hz
        rw [hl, ← hs]

theorem exists_highest {levels : List Level} {qty bound : ℚ} (hb : 0 < bound)
    (hl : ∀ level ∈ levels, qty * level.price < bound) :
    ∃ highest, (∀ level ∈ levels, level.price ≤ highest) ∧ qty * highest < bound := by
  induction levels with
  | nil => exact ⟨0, by simp, by simpa using hb⟩
  | cons level levels ih =>
    obtain ⟨hlevel, hlevels⟩ := List.forall_mem_cons.mp hl
    obtain ⟨highest, hle, hsmall⟩ := ih hlevels
    refine ⟨max level.price highest, ?_, ?_⟩
    · rw [List.forall_mem_cons]
      exact ⟨le_max_left _ _, fun other ho => (hle other ho).trans (le_max_right _ _)⟩
    · rcases max_choice level.price highest with hm | hm <;> rwa [hm]

theorem takerFill_eq (hquantity : 0 < order.quantity) (hbook : order.BookOrdered)
    {sizes prices : ℤ} (hgrid : order.TakerOnGrid sizes prices) :
    order.takerFill = ⟨takenQuantity order.taken,
      if takenQuantity order.taken = 0 then none
      else some (decimalContext.round (takenNotional order.taken / takenQuantity order.taken)),
      order.quantity - takenQuantity order.taken⟩ := by
  have hunit : (0 : ℚ) < 10 ^ 28 * 10 ^ (sizes + prices) :=
    mul_pos (by norm_num) (zpow_pos (by norm_num) _)
  obtain ⟨highest, hh, hs⟩ := exists_highest hunit fun level hl => (hgrid.levels level hl).2.2
  have hw : (⟨order.quantity, 0, 0⟩ : Walk).OnGrid sizes prices highest := by
    refine ⟨hgrid.quantity, hquantity.le, zero_mem _, le_rfl, zero_mem _, le_rfl, by simp, ?_, ?_⟩
    · simpa using hgrid.few
    · simpa using hs
  have hl : ∀ level ∈ order.visibleLevels, level.OnGrid sizes prices highest := fun level hm =>
    ⟨(hgrid.levels level hm).1, (hgrid.levels level hm).2.1, hbook.prices level hm, hh level hm⟩
  simp only [takerFill, walkLevels_eq hw hl, zero_add]
  rfl

theorem price_fits (hquantity : 0 < order.quantity) (hbook : order.BookOrdered)
    {sizes prices : ℤ} (hgrid : order.TakerOnGrid sizes prices) {level : Level}
    (hl : level ∈ order.visibleLevels) : Fits 28 level.price := by
  obtain ⟨-, hp, hs⟩ := hgrid.levels level hl
  have hpos := hbook.prices level hl
  refine fits_of_mem hp ?_
  rw [abs_of_pos hpos]
  have hu : (0 : ℚ) < 10 ^ sizes := zpow_pos (by norm_num) _
  have hle := mul_le_mul_of_nonneg_right (unit_le_of_mem hgrid.quantity hquantity) hpos.le
  have hlt : (10 : ℚ) ^ sizes * level.price < 10 ^ sizes * (10 ^ 28 * 10 ^ prices) := by
    calc (10 : ℚ) ^ sizes * level.price ≤ order.quantity * level.price := hle
      _ < 10 ^ 28 * 10 ^ (sizes + prices) := hs
      _ = 10 ^ sizes * (10 ^ 28 * 10 ^ prices) := by
        rw [zpow_add₀ (by norm_num)]
        ring
  exact lt_of_mul_lt_mul_left hlt hu.le

theorem atLeastAsGood_round {side : String} {price value : ℚ} (hf : Fits 28 price)
    (hv : 0 < value) (hg : AtLeastAsGood side price value) :
    AtLeastAsGood side price (decimalContext.round value) := by
  unfold AtLeastAsGood cost at hg ⊢
  split_ifs at hg ⊢
  · exact hf.le_round (by norm_num) hv hg
  · exact neg_le_neg (hf.round_le (by norm_num) hv (neg_le_neg_iff.mp hg))

theorem round_atLeastAsGood {side : String} {price value : ℚ} (hf : Fits 28 price)
    (hv : 0 < value) (hg : AtLeastAsGood side value price) :
    AtLeastAsGood side (decimalContext.round value) price := by
  unfold AtLeastAsGood cost at hg ⊢
  split_ifs at hg ⊢
  · exact hf.round_le (by norm_num) hv hg
  · exact neg_le_neg (hf.le_round (by norm_num) hv (neg_le_neg_iff.mp hg))

theorem usedLevels_subset {level : Level} (hl : level ∈ usedLevels order.taken) :
    level ∈ order.visibleLevels := by
  obtain ⟨take, ht, -, rfl⟩ := mem_usedLevels.mp hl
  rw [← takes_levels order.quantity order.visibleLevels]
  exact List.mem_map_of_mem ht

section Taker

variable (hquantity : 0 < order.quantity) (hbook : order.BookOrdered)

include hquantity hbook

theorem taken_nonneg : ∀ take ∈ order.taken, 0 ≤ take.quantity := by
  intro take ht
  exact (takes_offered hquantity hbook.sizes take ht).1

theorem takenQuantity_nonneg : 0 ≤ takenQuantity order.taken := by
  apply List.sum_nonneg
  intro qty hm
  obtain ⟨take, ht, rfl⟩ := List.mem_map.mp hm
  exact taken_nonneg hquantity hbook take ht

theorem average_between (hf : takenQuantity order.taken ≠ 0) :
    ∃ best ∈ usedLevels order.taken, ∃ worst ∈ usedLevels order.taken,
      (∀ level ∈ usedLevels order.taken, AtLeastAsGood order.side best.price level.price ∧
          AtLeastAsGood order.side level.price worst.price) ∧
        AtLeastAsGood order.side best.price
          (takenNotional order.taken / takenQuantity order.taken) ∧
          AtLeastAsGood order.side
            (takenNotional order.taken / takenQuantity order.taken) worst.price := by
  have hn := taken_nonneg hquantity hbook
  have hp : 0 < takenQuantity order.taken :=
    (takenQuantity_nonneg hquantity hbook).lt_of_ne' hf
  have hne := usedLevels_ne_nil hn hf
  have hs : (usedLevels order.taken).Pairwise fun better worse =>
      AtLeastAsGood order.side better.price worse.price := by
    apply usedLevels_sorted
    rw [taken, takes_levels]
    exact hbook.sorted
  have hb : ∀ level ∈ usedLevels order.taken,
      AtLeastAsGood order.side ((usedLevels order.taken).head hne).price level.price := by
    intro level hl
    exact hs.rel_head_of_rel_head_head hl le_rfl
  have hw : ∀ level ∈ usedLevels order.taken,
      AtLeastAsGood order.side level.price ((usedLevels order.taken).getLast hne).price := by
    intro level hl
    exact hs.rel_getLast_of_rel_getLast_getLast hl le_rfl
  obtain ⟨hlow, hh⟩ := takenNotional_bounds hn fun level hl =>
    ⟨hb level hl, hw level hl⟩
  have ha : takenQuantity order.taken *
      cost order.side (takenNotional order.taken / takenQuantity order.taken) =
        cost order.side (takenNotional order.taken) := by
    rw [cost_mul, mul_div_cancel₀ _ hp.ne']
  rw [← ha] at hlow hh
  exact ⟨_, List.head_mem hne, _, List.getLast_mem hne,
    fun level hl => ⟨hb level hl, hw level hl⟩,
    le_of_mul_le_mul_left hlow hp, le_of_mul_le_mul_left hh hp⟩

theorem rounded_average_between {sizes prices : ℤ} (hgrid : order.TakerOnGrid sizes prices)
    (hf : takenQuantity order.taken ≠ 0) :
    ∃ best ∈ usedLevels order.taken, ∃ worst ∈ usedLevels order.taken,
      (∀ level ∈ usedLevels order.taken, AtLeastAsGood order.side best.price level.price ∧
          AtLeastAsGood order.side level.price worst.price) ∧
        AtLeastAsGood order.side best.price
          (decimalContext.round (takenNotional order.taken / takenQuantity order.taken)) ∧
          AtLeastAsGood order.side
            (decimalContext.round (takenNotional order.taken / takenQuantity order.taken))
            worst.price := by
  obtain ⟨best, hb, worst, hw, hl, hlow, hhigh⟩ := average_between hquantity hbook hf
  have hbest := hbook.prices best (usedLevels_subset hb)
  have hworst := hbook.prices worst (usedLevels_subset hw)
  have hpos : 0 < takenNotional order.taken / takenQuantity order.taken := by
    unfold AtLeastAsGood cost at hlow hhigh
    split_ifs at hlow hhigh
    · exact hbest.trans_le hlow
    · exact hworst.trans_le (neg_le_neg_iff.mp hhigh)
  have hfits : ∀ level ∈ usedLevels order.taken, Fits 28 level.price := fun level hm =>
    price_fits hquantity hbook hgrid (usedLevels_subset hm)
  exact ⟨best, hb, worst, hw, hl, atLeastAsGood_round (hfits best hb) hpos hlow,
    round_atLeastAsGood (hfits worst hw) hpos hhigh⟩

theorem takerConservative_of_within {sizes prices : ℤ} (hgrid : order.TakerOnGrid sizes prices)
    (hw : ∀ limit, order.limitPrice = some limit →
      ∀ level ∈ usedLevels order.taken, AtLeastAsGood order.side level.price limit) :
    order.TakerConservative order.takerFill := by
  refine ⟨takes_levels _ _, takes_offered hquantity hbook.sizes,
    takes_bestFirst hquantity hbook.sizes, ?_, ?_, hw⟩
  · rw [takerFill_eq hquantity hbook hgrid]
  · intro average ha
    rw [takerFill_eq hquantity hbook hgrid] at ha ⊢
    dsimp only at ha ⊢
    split_ifs at ha with hz
    obtain rfl := Option.some.inj ha
    exact ⟨rfl, rounded_average_between hquantity hbook hgrid hz⟩

theorem takerFill_spec {sizes prices : ℤ} (hgrid : order.TakerOnGrid sizes prices) :
    (0 ≤ order.takerFill.filledQuantity ∧ 0 ≤ order.takerFill.remainingQuantity) ∧
      order.takerFill.filledQuantity + order.takerFill.remainingQuantity = order.quantity ∧
      (order.takerFill.averagePrice = none ↔ order.takerFill.filledQuantity = 0) := by
  rw [takerFill_eq hquantity hbook hgrid]
  refine ⟨⟨takenQuantity_nonneg hquantity hbook, ?_⟩, ?_, ?_⟩
  · exact sub_nonneg.mpr (takenQuantity_takes_le hquantity hbook.sizes)
  · exact add_sub_cancel _ _
  · simp

end Taker

end SimulatedOrder

theorem simulateFill_of_valid {order : SimulatedOrder} (hv : order.Valid) :
    simulateFill order = .ok (match order.orderType with
      | .maker => order.makerFill
      | .taker => order.takerFill) := by
  rw [simulateFill, if_neg (not_not_intro hv)]
  cases order.orderType <;> rfl

/-- Two to buy at 100 or better, and the book offers them at 101. -/
def pricierOrder : SimulatedOrder where
  side := "BUY"
  quantity := 2
  orderType := .taker
  limitPrice := some 100
  visibleLevels := [⟨101, 5⟩]

/-- Three to buy at 101 or better, at an average that no number of digits holds, and a level beyond
the limit. -/
def coveredOrder : SimulatedOrder where
  side := "BUY"
  quantity := 3
  orderType := .taker
  limitPrice := some 101
  visibleLevels := [⟨100, 1⟩, ⟨101, 2⟩, ⟨102, 5⟩]

theorem mem_unit_grid (value : ℤ) : (value : ℚ) ∈ decimalGrid 0 :=
  mem_decimalGrid.mpr ⟨value, by simp⟩

theorem coveredOrder_onGrid : coveredOrder.OnGrid := by
  refine ⟨0, 0, mem_unit_grid 3, by norm_num [coveredOrder], ?_⟩
  simp only [coveredOrder, List.forall_mem_cons, List.not_mem_nil, false_implies, implies_true,
    and_true]
  refine ⟨⟨mem_unit_grid 1, mem_unit_grid 100, ?_⟩, ⟨mem_unit_grid 2, mem_unit_grid 101, ?_⟩,
    mem_unit_grid 5, mem_unit_grid 102, ?_⟩ <;> norm_num

end AiQuant.Execution
