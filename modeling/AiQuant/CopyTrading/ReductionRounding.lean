import AiQuant.CopyTrading.SourceExposure
import AiQuant.Lib.DecimalGrid

/-! `plan_reduction` and `record_reduction_fill` as Python's decimal context computes them: every
quotient, product and difference is rounded to 28 digits.  Without rounding they are the functions
of the exact ledger. -/
namespace AiQuant.CopyTrading
open AiQuant.Lib

theorem nonneg_of_not_neg {qty : Decimal} (hq : ¬qty < 0) : 0 ≤ qty :=
  not_lt.mp hq

namespace VirtualPositionLedger

section Definitions

variable (context : DecimalContext)

/-- `_floor_to_step`; a whole quotient of too many digits raises `InvalidOperation`. -/
def floorToStepIn (value step : Decimal) : Option Decimal :=
  if value ≤ 0 then some 0
  else (context.wholeQuotient value step).map fun quotient : ℤ => context.round (quotient * step)

/-- `current.local_quantity * (source_reduction / current.observed_source_quantity)` -/
def rawReductionIn (current : VirtualPosition) (sourceDeltaQuantity : Decimal) : Decimal :=
  context.round (current.localQuantity *
    context.round (sourceReduction current sourceDeltaQuantity / current.observedSourceQuantity))

def localReductionIn (current : VirtualPosition) (sourceDeltaQuantity quantityStep : Decimal) :
    Option Decimal :=
  if current.observedSourceQuantity ≤ 0 ∨
      current.observedSourceQuantity ≤ sourceDeltaQuantity then
    some current.localQuantity
  else (floorToStepIn context (rawReductionIn context current sourceDeltaQuantity)
    quantityStep).map fun floored => min current.localQuantity (max quantityStep floored)

/-- The sizing part of `plan_reduction`. -/
def planFromIn (current : VirtualPosition) (sourceDeltaQuantity quantityStep : Decimal) :
    Option ReductionPlan :=
  if current.localQuantity ≤ 0 then
    some (rejectedReduction current.key "COPY_REDUCTION_ORPHAN")
  else (localReductionIn context current sourceDeltaQuantity quantityStep).map fun reduction =>
    if reduction ≤ 0 then
      rejectedReduction current.key "COPY_REDUCTION_BELOW_EXCHANGE_STEP"
    else {
      approved := true
      key := current.key
      requestedLocalQuantity := reduction
      attributedSourceQuantity := sourceReduction current sourceDeltaQuantity
      closesVirtualPosition := reduction = current.localQuantity
      reasonCodes := [] }

/-- `plan_reduction`.  The ledger keeps a given source quantity also if the plan raises. -/
def planReductionIn (ledger : VirtualPositionLedger) (signal : NormalizedSignal)
    (rules : SymbolTradingRules) (sourcePositionQuantity : Option Decimal) :
    Option ReductionPlan × VirtualPositionLedger :=
  if signal.kind ≠ .reduce then
    (some (rejectedReduction signal.key "COPY_REDUCTION_NOT_A_REDUCTION"), ledger)
  else match sourcePositionQuantity with
    | none => (planFromIn context (ledger.positionFor signal) signal.sourceDeltaQuantity
        rules.quantityStep, ledger)
    | some quantity =>
      if hquantity : quantity < 0 then
        (some (rejectedReduction signal.key "COPY_SOURCE_POSITION_QUANTITY_INVALID"), ledger)
      else
        let current : VirtualPosition := { ledger.positionFor signal with
          observedSourceQuantity := quantity
          observedSourceQuantity_nonneg := nonneg_of_not_neg hquantity }
        (planFromIn context current signal.sourceDeltaQuantity rules.quantityStep,
          ledger.set current)

/-- `record_reduction_fill`. -/
def recordReductionFillIn (ledger : VirtualPositionLedger) (plan : ReductionPlan)
    (filledLocalQuantity : Decimal) : Except String (VirtualPosition × VirtualPositionLedger) :=
  if plan.approved = false ∨
      ¬ (0 < filledLocalQuantity ∧ filledLocalQuantity ≤ plan.requestedLocalQuantity) then
    .error "copy reduction fill is invalid"
  else match ledger.get? plan.key with
    | none => .error "copy reduction exceeds leader-owned position"
    | some current =>
      if hfill : current.localQuantity < filledLocalQuantity then
        .error "copy reduction exceeds leader-owned position"
      else
        let fillRatio := context.round (filledLocalQuantity / plan.requestedLocalQuantity)
        let sourceReduction := min current.observedSourceQuantity
          (context.round (plan.attributedSourceQuantity * fillRatio))
        let remainingLocal := context.round (current.localQuantity - filledLocalQuantity)
        let updated : VirtualPosition := {
          key := current.key
          localQuantity := remainingLocal
          observedSourceQuantity :=
            if remainingLocal = 0 then 0
            else context.round (current.observedSourceQuantity - sourceReduction)
          localQuantity_nonneg :=
            DecimalContext.round_nonneg (sub_nonneg.mpr (not_lt.mp hfill))
          observedSourceQuantity_nonneg := by
            split
            · exact le_rfl
            · exact DecimalContext.round_nonneg (sub_nonneg.mpr (min_le_left _ _)) }
        .ok (updated, ledger.set updated)

end Definitions

section Exact

variable {step : Decimal}

theorem floorToStepIn_exact {value : Decimal} (hs : 0 < step) :
    floorToStepIn .exact value step = some (floorToStep value step) := by
  unfold floorToStepIn floorToStep
  split_ifs with hv
  · rfl
  · have hq : 0 ≤ value / step := div_nonneg (not_le.mp hv).le hs.le
    rw [DecimalContext.wholeQuotient, if_pos hq]
    rfl

theorem localReductionIn_exact {current : VirtualPosition} {delta : Decimal} (hs : 0 < step) :
    localReductionIn .exact current delta step = some (localReduction current delta step) := by
  unfold localReductionIn localReduction
  split_ifs with hc
  · rw [min_self]
  · rw [floorToStepIn_exact hs]
    rfl

theorem planFromIn_exact {current : VirtualPosition} {delta : Decimal} (hs : 0 < step) :
    planFromIn .exact current delta step = some (planFrom current delta step) := by
  unfold planFromIn planFrom
  split_ifs with hl hr
  · rfl
  · rw [localReductionIn_exact hs, Option.map_some, if_pos hr]
  · rw [localReductionIn_exact hs, Option.map_some, if_neg hr]

theorem planReductionIn_exact (ledger : VirtualPositionLedger) (signal : NormalizedSignal)
    (rules : SymbolTradingRules) (source : Option Decimal) :
    ledger.planReductionIn .exact signal rules source =
      (some (ledger.planReduction signal rules source).1,
        (ledger.planReduction signal rules source).2) := by
  unfold planReductionIn planReduction
  split_ifs with hk
  · rfl
  · cases source with
    | none =>
      dsimp only
      rw [planFromIn_exact rules.quantityStep_pos]
    | some qty =>
      dsimp only
      split_ifs with hq
      · rfl
      · rw [planFromIn_exact rules.quantityStep_pos]

theorem recordReductionFillIn_exact (ledger : VirtualPositionLedger) (plan : ReductionPlan)
    (filled : Decimal) :
    ledger.recordReductionFillIn .exact plan filled = ledger.recordReductionFill plan filled := rfl

end Exact

section Plans

variable {context : DecimalContext} {current : VirtualPosition} {delta step : Decimal}
  {plan : ReductionPlan}

def proportionalShare (current : VirtualPosition) (sourceDeltaQuantity : Decimal) : Decimal :=
  current.localQuantity * sourceDeltaQuantity / current.observedSourceQuantity

structure Unrounded (context : DecimalContext) (current : VirtualPosition)
    (sourceDeltaQuantity quantityStep : Decimal) : Prop where
  raw : rawReductionIn context current sourceDeltaQuantity =
    proportionalShare current sourceDeltaQuantity
  steps : ∀ quotient : ℤ, context.wholeQuotient (proportionalShare current sourceDeltaQuantity)
    quantityStep = some quotient →
      context.round (quotient * quantityStep) = quotient * quantityStep

/-- An approved plan, against the position that it was made for. -/
structure TracksSource (context : DecimalContext) (current : VirtualPosition)
    (sourceDeltaQuantity quantityStep : Decimal) (plan : ReductionPlan) : Prop where
  requested_pos : 0 < plan.requestedLocalQuantity
  requested_le : plan.requestedLocalQuantity ≤ current.localQuantity
  closes : current.observedSourceQuantity ≤ 0 ∨
      current.observedSourceQuantity ≤ sourceDeltaQuantity →
    plan.requestedLocalQuantity = current.localQuantity
  proportional : 0 < sourceDeltaQuantity → sourceDeltaQuantity < current.observedSourceQuantity →
    |plan.requestedLocalQuantity - proportionalShare current sourceDeltaQuantity| <
        quantityStep + 4 * context.unit * proportionalShare current sourceDeltaQuantity ∨
      plan.requestedLocalQuantity = current.localQuantity
  unrounded : 0 < sourceDeltaQuantity → sourceDeltaQuantity < current.observedSourceQuantity →
    Unrounded context current sourceDeltaQuantity quantityStep →
    |plan.requestedLocalQuantity - proportionalShare current sourceDeltaQuantity| <
        quantityStep ∨
      plan.requestedLocalQuantity = current.localQuantity

theorem abs_max_sub_lt {unit share raw whole floored : ℚ} (hu : 0 ≤ unit) (hs : unit ≤ 1 / 10)
    (hsh : 0 < share) (hst : 0 < step) (hraw : share * (1 - unit) ^ 2 ≤ raw)
    (hr : raw ≤ share * (1 + unit) ^ 2) (hwh : raw - step < whole) (hw : whole ≤ raw)
    (hf : whole * (1 - unit) ≤ floored) (hfl : floored ≤ whole * (1 + unit)) :
    |max step floored - share| < step + 4 * unit * share := by
  have he : 0 ≤ unit * share := mul_nonneg hu hsh.le
  have hl : 0 < 1 - unit := by linarith
  have hb : share - floored < step + 4 * unit * share := by
    have hk : (raw - step) * (1 - unit) < floored :=
      (mul_lt_mul_of_pos_right hwh hl).trans_le hf
    have hlo : step * (1 - unit) ≤ step := mul_le_of_le_one_right hst.le (by linarith)
    have ht : share * (1 - unit) ^ 2 * (1 - unit) ≤ raw * (1 - unit) :=
      mul_le_mul_of_nonneg_right hraw hl.le
    have hc : share * (1 - 3 * unit) ≤ share * (1 - unit) ^ 2 * (1 - unit) := by
      have hre : 0 ≤ unit * share * (unit * (3 - unit)) :=
        mul_nonneg he (mul_nonneg hu (by linarith))
      linarith
    linarith
  have ha : floored - share ≤ 4 * unit * share := by
    have ht : whole * (1 + unit) ≤ share * (1 + unit) ^ 2 * (1 + unit) :=
      mul_le_mul_of_nonneg_right (hw.trans hr) (by linarith)
    have hc : share * (1 + unit) ^ 2 * (1 + unit) ≤ share * (1 + 4 * unit) := by
      have hre : 0 ≤ unit * share * (1 - 3 * unit - unit * unit) :=
        mul_nonneg he (by nlinarith only [hu, hs])
      linarith
    linarith
  rcases le_total floored step with ho | hm
  · rw [max_eq_left ho, abs_lt]
    constructor <;> linarith
  · rw [max_eq_right hm, abs_lt]
    constructor <;> linarith

theorem proportionalShare_pos (hl : 0 < current.localQuantity) (hd : 0 < delta)
    (hr : delta < current.observedSourceQuantity) : 0 < proportionalShare current delta :=
  div_pos (mul_pos hl hd) (hd.trans hr)

theorem rawReductionIn_bounds (hl : 0 < current.localQuantity) (hd : 0 < delta)
    (hre : delta < current.observedSourceQuantity) :
    proportionalShare current delta * (1 - context.unit) ^ 2 ≤
        rawReductionIn context current delta ∧
      rawReductionIn context current delta ≤
        proportionalShare current delta * (1 + context.unit) ^ 2 := by
  have hu := context.unit_nonneg
  have hle := context.one_sub_unit_pos
  have hs := hd.trans hre
  have hred : sourceReduction current delta = delta := by
    rw [sourceReduction, if_neg (not_le.mpr hs), min_eq_left hre.le]
  have hsh : proportionalShare current delta =
      current.localQuantity * (delta / current.observedSourceQuantity) := mul_div_assoc _ _ _
  have hr : 0 ≤ delta / current.observedSourceQuantity := (div_pos hd hs).le
  have hro : 0 ≤ context.round (delta / current.observedSourceQuantity) :=
    DecimalContext.round_nonneg hr
  have hp := mul_nonneg hl.le hro
  rw [rawReductionIn, hred, hsh]
  constructor
  · calc current.localQuantity * (delta / current.observedSourceQuantity) * (1 - context.unit) ^ 2
        = current.localQuantity * (delta / current.observedSourceQuantity * (1 - context.unit)) *
            (1 - context.unit) := by ring
      _ ≤ current.localQuantity * context.round (delta / current.observedSourceQuantity) *
            (1 - context.unit) :=
          mul_le_mul_of_nonneg_right
            (mul_le_mul_of_nonneg_left (DecimalContext.le_round hr) hl.le) hle.le
      _ ≤ _ := DecimalContext.le_round hp
  · calc context.round (current.localQuantity *
          context.round (delta / current.observedSourceQuantity))
        ≤ current.localQuantity * context.round (delta / current.observedSourceQuantity) *
            (1 + context.unit) := DecimalContext.round_le hp
      _ ≤ current.localQuantity * (delta / current.observedSourceQuantity * (1 + context.unit)) *
            (1 + context.unit) :=
          mul_le_mul_of_nonneg_right (mul_le_mul_of_nonneg_left (DecimalContext.round_le hr) hl.le)
            (by linarith)
      _ = _ := by ring

theorem floorToStepIn_eq_some {value floored : Decimal} (hv : 0 < value) (hs : 0 < step)
    (hf : floorToStepIn context value step = some floored) :
    ∃ quotient, context.wholeQuotient value step = some quotient ∧
      floored = context.round (quotient * step) ∧
      value - step < quotient * step ∧ quotient * step ≤ value ∧ 0 ≤ (quotient : ℚ) * step := by
  rw [floorToStepIn, if_neg (not_le.mpr hv), Option.map_eq_some_iff] at hf
  obtain ⟨quotient, hfo, rfl⟩ := hf
  obtain rfl := DecimalContext.wholeQuotient_eq_some hv.le hs hfo
  refine ⟨_, hfo, rfl, ?_, ?_, ?_⟩
  · have hn := Int.lt_floor_add_one (value / step)
    rw [div_lt_iff₀ hs] at hn
    linarith
  · exact (le_div_iff₀ hs).mp (Int.floor_le _)
  · have hfl := Int.floor_nonneg.mpr (div_pos hv hs).le
    exact mul_nonneg (by exact_mod_cast hfl) hs.le

theorem planFromIn_approved (hpl : planFromIn context current delta step = some plan)
    (ha : plan.approved = true) :
    0 < current.localQuantity ∧ 0 < plan.requestedLocalQuantity ∧ plan.key = current.key ∧
      plan.attributedSourceQuantity = sourceReduction current delta ∧
      localReductionIn context current delta step = some plan.requestedLocalQuantity := by
  unfold planFromIn at hpl
  split_ifs at hpl with hl
  · obtain rfl := Option.some.inj hpl
    cases ha
  · obtain ⟨reduction, hr, rfl⟩ := Option.map_eq_some_iff.mp hpl
    split_ifs at ha ⊢ with hp
    · cases ha
    · exact ⟨not_le.mp hl, not_le.mp hp, rfl, rfl, hr⟩

theorem localReductionIn_cases {reduction : Decimal}
    (hr : localReductionIn context current delta step = some reduction) :
    (current.observedSourceQuantity ≤ 0 ∨ current.observedSourceQuantity ≤ delta) ∧
        reduction = current.localQuantity ∨
      (0 < current.observedSourceQuantity ∧ delta < current.observedSourceQuantity) ∧
        ∃ floored, floorToStepIn context (rawReductionIn context current delta) step =
          some floored ∧ reduction = min current.localQuantity (max step floored) := by
  unfold localReductionIn at hr
  split_ifs at hr with hc
  · exact .inl ⟨hc, (Option.some.inj hr).symm⟩
  · rw [not_or, not_le, not_le] at hc
    obtain ⟨floored, hf, rfl⟩ := Option.map_eq_some_iff.mp hr
    exact .inr ⟨hc, floored, hf, rfl⟩

theorem planFromIn_rejected (hs : 0 < step)
    (hpl : planFromIn context current delta step = some plan)
    (hr : plan.approved = false) : current.localQuantity = 0 := by
  unfold planFromIn at hpl
  split_ifs at hpl with hl
  · exact le_antisymm hl current.localQuantity_nonneg
  · rw [not_le] at hl
    obtain ⟨reduction, hre, rfl⟩ := Option.map_eq_some_iff.mp hpl
    have hp : 0 < reduction := by
      rcases localReductionIn_cases hre with ⟨-, rfl⟩ | ⟨-, floored, -, rfl⟩
      · exact hl
      · exact lt_min hl (hs.trans_le (le_max_left _ _))
    rw [if_neg (not_le.mpr hp)] at hr
    cases hr

theorem planFromIn_tracks (hst : 0 < step) (hpl : planFromIn context current delta step = some plan)
    (ha : plan.approved = true) : TracksSource context current delta step plan := by
  obtain ⟨hl, hreq, -, -, hred⟩ := planFromIn_approved hpl ha
  have hun := context.unit_nonneg
  rcases localReductionIn_cases hred with ⟨hc, hall⟩ |
    ⟨⟨hso, hre⟩, floored, hf, hmin⟩
  · exact ⟨hreq, hall.le, fun _ => hall, fun _ _ => .inr hall, fun _ _ _ => .inr hall⟩
  · -- the smaller of the two is everything, or at least one step of it
    have hca : plan.requestedLocalQuantity = current.localQuantity ∨
        plan.requestedLocalQuantity = max step floored := by
      rw [hmin]
      exact min_choice _ _
    refine ⟨hreq, hmin ▸ min_le_left _ _, fun hc => ?_, fun hd _ => ?_,
      fun hd _ hu => ?_⟩
    · exact (hc.elim (not_le.mpr hso) (not_le.mpr hre)).elim
    · obtain ⟨hraw, hra⟩ := @rawReductionIn_bounds context current delta hl hd hre
      have hs := proportionalShare_pos hl hd hre
      have hp : 0 < rawReductionIn context current delta :=
        (mul_pos hs (pow_pos context.one_sub_unit_pos 2)).trans_le hraw
      obtain ⟨quotient, -, hr, hb, hle, hn⟩ :=
        floorToStepIn_eq_some hp hst hf
      refine hca.symm.imp_left fun hm => ?_
      rw [hm]
      exact abs_max_sub_lt hun context.unit_le hs hst hraw hra hb hle
        (hr ▸ DecimalContext.le_round hn) (hr ▸ DecimalContext.round_le hn)
    · have hs := proportionalShare_pos hl hd hre
      rw [hu.raw] at hf
      obtain ⟨quotient, hfo, hr, hb, hle, hn⟩ :=
        floorToStepIn_eq_some hs hst hf
      rw [hu.steps quotient hfo] at hr
      refine hca.symm.imp_left fun hm => ?_
      have he := @abs_max_sub_lt step 0 _ _ _ floored le_rfl (by norm_num) hs hst
        (by norm_num) (by norm_num) hb hle (by simp [hr]) (by simp [hr])
      rw [hm]
      simpa using he

/-- The position is of so few steps that no plan of it raises. -/
def Sized (localQuantity step : Decimal) : Prop := 20 * localQuantity ≤ 10 ^ 28 * step

theorem planFromIn_isSome (hst : 0 < step) (hd : 0 < delta)
    (hsi : Sized current.localQuantity step) :
    ∃ plan, planFromIn decimalContext current delta step = some plan := by
  unfold planFromIn
  split_ifs with hl
  · exact ⟨_, rfl⟩
  · unfold localReductionIn
    split_ifs with hc
    · exact ⟨_, rfl⟩
    · rw [not_or, not_le, not_le] at hc
      rw [not_le] at hl
      obtain ⟨hraw, hr⟩ :=
        @rawReductionIn_bounds decimalContext current delta hl hd hc.2
      have hsh := proportionalShare_pos hl hd hc.2
      have hs : proportionalShare current delta ≤ current.localQuantity := by
        rw [proportionalShare, div_le_iff₀ hc.1]
        exact mul_le_mul_of_nonneg_left hc.2.le hl.le
      have hg : (1 + decimalContext.unit) ^ 2 ≤ 2 := by
        have hu := decimalContext.unit_le
        have hn := decimalContext.unit_nonneg
        calc (1 + decimalContext.unit) ^ 2 ≤ (1 + 1 / 10) ^ 2 := by gcongr
          _ ≤ 2 := by norm_num
      have hp : 0 < rawReductionIn decimalContext current delta :=
        (mul_pos hsh (pow_pos decimalContext.one_sub_unit_pos 2)).trans_le hraw
      have hsm : rawReductionIn decimalContext current delta < 10 ^ 28 * step := by
        have hdo := mul_le_mul hs hg (by positivity) hl.le
        unfold Sized at hsi
        linarith
      have hw : decimalContext.wholeQuotient (rawReductionIn decimalContext current delta)
          step = some _ :=
        DecimalContext.wholeQuotient_ofDigits _ hp.le hst hsm
      rw [floorToStepIn, if_neg (not_le.mpr hp), hw]
      exact ⟨_, rfl⟩

theorem remainder_le (hstep : 0 < step) (hs : Sized current.localQuantity step)
    (hp : planFromIn decimalContext current delta step = some plan) (ha : plan.approved = true) :
    decimalContext.round (current.localQuantity - plan.requestedLocalQuantity) ≤
      current.localQuantity := by
  obtain ⟨hl, hre, -, -, hr⟩ := planFromIn_approved hp ha
  have hso : plan.requestedLocalQuantity = current.localQuantity ∨
      step ≤ plan.requestedLocalQuantity := by
    rcases localReductionIn_cases hr with ⟨-, hall⟩ | ⟨-, floored, -, hmin⟩
    · exact .inl hall
    · rw [hmin]
      rcases min_choice current.localQuantity (max step floored) with hall | hm
      · exact .inl hall
      · rw [hm]
        exact .inr (le_max_left _ _)
  rcases hso with hall | hst
  · rw [hall, sub_self, DecimalContext.round_zero]
    exact hl.le
  · have hle := (planFromIn_tracks hstep hp ha).requested_le
    have hro := @DecimalContext.round_le decimalContext _ (sub_nonneg.mpr hle)
    have hu : decimalContext.unit = 5 / 10 ^ 28 := rfl
    rw [hu] at hro
    unfold Sized at hs
    have he : (current.localQuantity - plan.requestedLocalQuantity) * (5 / 10 ^ 28) ≤
        plan.requestedLocalQuantity := by
      linarith
    linarith

end Plans

section Fills

variable {context : DecimalContext} {ledger aligned after : VirtualPositionLedger}
  {signal : NormalizedSignal} {rules : SymbolTradingRules} {source : Option Decimal}
  {plan : ReductionPlan}

theorem planReductionIn_eq (hp : ledger.planReductionIn context signal rules source =
      (some plan, aligned)) (ha : plan.approved = true) : signal.kind = .reduce ∧
      planFromIn context (aligned.positionFor signal) signal.sourceDeltaQuantity
        rules.quantityStep = some plan ∧
      (aligned.positionFor signal).localQuantity = (ledger.positionFor signal).localQuantity := by
  unfold planReductionIn at hp
  split_ifs at hp with hk
  · obtain ⟨hr, -⟩ := Prod.mk.inj hp
    rw [← Option.some.inj hr] at ha
    cases ha
  · rw [ne_eq, not_not] at hk
    cases source with
    | none =>
      obtain ⟨hm, rfl⟩ := Prod.mk.inj hp
      exact ⟨hk, hm, rfl⟩
    | some qty =>
      dsimp only at hp
      split_ifs at hp with hq
      · obtain ⟨hr, -⟩ := Prod.mk.inj hp
        rw [← Option.some.inj hr] at ha
        cases ha
      · obtain ⟨hm, rfl⟩ := Prod.mk.inj hp
        rw [positionFor_set (by exact ledger.positionFor_key signal)]
        exact ⟨hk, hm, rfl⟩

/-- What is left of a position after a full fill of a plan. -/
structure LeavesRemainder (context : DecimalContext) (current : VirtualPosition)
    (sourceDeltaQuantity : Decimal) (plan : ReductionPlan) (updated : VirtualPosition) :
    Prop where
  key_eq : updated.key = current.key
  local_eq : updated.localQuantity =
    context.round (current.localQuantity - plan.requestedLocalQuantity)
  source_eq : updated.localQuantity ≠ 0 → updated.observedSourceQuantity =
    context.round (current.observedSourceQuantity -
      min current.observedSourceQuantity (context.round
        (min sourceDeltaQuantity current.observedSourceQuantity)))

theorem recordReductionFillIn_full (hpl : ledger.planReductionIn context signal rules source =
      (some plan, aligned)) (ha : plan.approved = true) :
    ∃ updated, aligned.recordReductionFillIn context plan plan.requestedLocalQuantity =
        .ok (updated, aligned.set updated) ∧
      LeavesRemainder context (aligned.positionFor signal) signal.sourceDeltaQuantity plan
        updated := by
  obtain ⟨-, hm, -⟩ := planReductionIn_eq hpl ha
  obtain ⟨hl, hr, hk, hat, hre⟩ :=
    planFromIn_approved hm ha
  have ht := planFromIn_tracks rules.quantityStep_pos hm ha
  have hp : aligned.get? plan.key = some (aligned.positionFor signal) := by
    rw [hk, positionFor_key]
    cases hget : aligned.get? signal.key with
    | none =>
      rw [positionFor, hget] at hl
      exact absurd hl (lt_irrefl _)
    | some pos => rw [positionFor, hget, Option.getD_some]
  have hg : ¬ (plan.approved = false ∨ ¬ (0 < plan.requestedLocalQuantity ∧
      plan.requestedLocalQuantity ≤ plan.requestedLocalQuantity)) := by
    simp [ha, hr]
  rw [recordReductionFillIn, if_neg hg, hp]
  dsimp only
  rw [dif_neg (not_lt.mpr ht.requested_le)]
  refine ⟨_, rfl, rfl, rfl, fun hle => ?_⟩
  -- a position that is closed leaves nothing
  have ho : 0 < (aligned.positionFor signal).observedSourceQuantity := by
    by_contra hclosed
    have hz : context.round
        ((aligned.positionFor signal).localQuantity - plan.requestedLocalQuantity) = 0 := by
      rw [ht.closes (.inl (not_lt.mp hclosed)), sub_self, DecimalContext.round_zero]
    exact hle hz
  change (if _ = _ then _ else _) = _
  rw [if_neg hle, div_self hr.ne', context.round_one, mul_one, hat,
    sourceReduction, if_neg (not_le.mpr ho)]

end Fills

/-- Plans from the ledger's own source quantity, each filled in full; a plan that is not approved
records nothing, and one that raises ends the sequence. -/
def reduceAll (context : DecimalContext) (ledger : VirtualPositionLedger) :
    List (NormalizedSignal × SymbolTradingRules) → Option VirtualPositionLedger
  | [] => some ledger
  | (signal, rules) :: rest =>
    match ledger.planReductionIn context signal rules none with
    | (none, _) => none
    | (some plan, aligned) =>
      if plan.approved then
        match aligned.recordReductionFillIn context plan plan.requestedLocalQuantity with
        | .error _ => none
        | .ok (_, after) => reduceAll context after rest
      else reduceAll context aligned rest

/-- The observed source quantity of a key, `0` for an absent one. -/
def sourceQuantity (ledger : VirtualPositionLedger) (key : VirtualPositionKey) : Decimal :=
  ((ledger.get? key).map (·.observedSourceQuantity)).getD 0

/-- No source quantity of the sequence is rounded. -/
def SourceUnrounded (context : DecimalContext) : Decimal → List Decimal → Prop
  | _, [] => True
  | source, delta :: rest =>
    context.round (min delta source) = min delta source ∧
      context.round (source - min delta source) = source - min delta source ∧
      SourceUnrounded context (source - min delta source) rest

/-- While 28 digits hold the source, multiples of one power of ten are not rounded. -/
theorem sourceUnrounded_of_mem {exp : ℤ} {source : Decimal} {deltas : List Decimal}
    (hs : source ∈ decimalGrid exp) (hn : 0 ≤ source) (hl : source < 10 ^ 28 * 10 ^ exp)
    (hd : ∀ delta ∈ deltas, delta ∈ decimalGrid exp ∧ 0 < delta) :
    SourceUnrounded decimalContext source deltas := by
  induction deltas generalizing source with
  | nil => trivial
  | cons delta deltas ih =>
    obtain ⟨⟨hg, hp⟩, hrest⟩ := List.forall_mem_cons.mp hd
    have hm := min_mem_decimalGrid hg hs
    have hmn : 0 ≤ min delta source := le_min hp.le hn
    have hr : 0 ≤ source - min delta source := sub_nonneg.mpr (min_le_right _ _)
    have hrl := (sub_le_self source hmn).trans_lt hl
    refine ⟨decimalContext_round_eq hm ?_, decimalContext_round_eq (sub_mem hs hm) ?_,
      ih (sub_mem hs hm) hr hrl hrest⟩
    · rw [abs_of_nonneg hmn]
      exact (min_le_right _ _).trans_lt hl
    · rwa [abs_of_nonneg hr]

section Sequences

variable {context : DecimalContext} {ledger final : VirtualPositionLedger}
  {signal : NormalizedSignal} {rules : SymbolTradingRules}
  {reductions : List (NormalizedSignal × SymbolTradingRules)}

theorem reduceAll_cons (hk : signal.kind = .reduce)
    (hrun : ledger.reduceAll context ((signal, rules) :: reductions) = some final) :
    (ledger.positionFor signal).localQuantity = 0 ∧
        ledger.reduceAll context reductions = some final ∨
      ∃ plan updated, LeavesRemainder context (ledger.positionFor signal)
          signal.sourceDeltaQuantity plan updated ∧
        TracksSource context (ledger.positionFor signal) signal.sourceDeltaQuantity
          rules.quantityStep plan ∧
        (ledger.set updated).reduceAll context reductions = some final := by
  have hp : ledger.planReductionIn context signal rules none =
      (planFromIn context (ledger.positionFor signal) signal.sourceDeltaQuantity
        rules.quantityStep, ledger) := by
    rw [planReductionIn, if_neg (not_not.mpr hk)]
  rw [reduceAll, hp] at hrun
  cases hm : planFromIn context (ledger.positionFor signal) signal.sourceDeltaQuantity
      rules.quantityStep with
  | none =>
    rw [hm] at hrun
    cases hrun
  | some plan =>
    rw [hm] at hrun hp
    dsimp only at hrun
    split_ifs at hrun with ha
    · obtain ⟨updated, hr, hl⟩ := recordReductionFillIn_full hp ha
      rw [hr] at hrun
      exact .inr ⟨plan, updated, hl, planFromIn_tracks rules.quantityStep_pos hm ha, hrun⟩
    · rw [Bool.not_eq_true] at ha
      exact .inl ⟨planFromIn_rejected rules.quantityStep_pos hm ha, hrun⟩

theorem positionFor_sourceQuantity (ledger : VirtualPositionLedger) (signal : NormalizedSignal) :
    (ledger.positionFor signal).observedSourceQuantity = ledger.sourceQuantity signal.key := by
  unfold positionFor sourceQuantity
  cases ledger.get? signal.key with
  | none => rfl
  | some pos => rfl

variable {key : VirtualPositionKey}

theorem reduceAll_of_empty
    (hr : ∀ reduction ∈ reductions, reduction.1.kind = .reduce ∧ reduction.1.key = key)
    (he : ledger.localQuantity key = 0) (hrun : ledger.reduceAll context reductions =
      some final) : final.localQuantity key = 0 := by
  induction reductions generalizing ledger with
  | nil =>
    obtain rfl := Option.some.inj hrun
    exact he
  | cons reduction reductions ih =>
    obtain ⟨signal, rules⟩ := reduction
    obtain ⟨⟨hk, rfl⟩, hre⟩ := List.forall_mem_cons.mp hr
    rw [← positionFor_localQuantity] at he
    rcases reduceAll_cons hk hrun with ⟨-, hrun⟩ | ⟨plan, -, -, ht, -⟩
    · exact ih hre (by rwa [← positionFor_localQuantity]) hrun
    · exact absurd (ht.requested_pos.trans_le ht.requested_le) (by rw [he]; simp)

theorem reduceAll_closes {source : Decimal}
    (hr : ∀ reduction ∈ reductions, reduction.1.kind = .reduce ∧ reduction.1.key = key)
    (hso : reductions ≠ [] ∨ 0 < source) (hs : ∀ signal : NormalizedSignal, signal.key = key →
      (ledger.positionFor signal).observedSourceQuantity = source)
    (he : SourceUnrounded context source (reductions.map (·.1.sourceDeltaQuantity)))
    (hsum : source ≤ (reductions.map (·.1.sourceDeltaQuantity)).sum)
    (hrun : ledger.reduceAll context reductions = some final) : final.localQuantity key = 0 := by
  induction reductions generalizing ledger source with
  | nil => exact absurd (hso.resolve_left (by simp)) (not_lt.mpr hsum)
  | cons reduction reductions ih =>
    obtain ⟨signal, rules⟩ := reduction
    obtain ⟨⟨hk, rfl⟩, hrest⟩ := List.forall_mem_cons.mp hr
    obtain ⟨hm, hd, hla⟩ := he
    rw [List.map_cons, List.sum_cons] at hsum
    rcases reduceAll_cons hk hrun with ⟨hem, hrun⟩ | ⟨plan, updated, hl, ht, hrun⟩
    · exact reduceAll_of_empty hrest (by rw [← positionFor_localQuantity, hem]) hrun
    · have hu : ∀ other : NormalizedSignal, other.key = signal.key →
          (ledger.set updated).positionFor other = updated := by
        intro other ho
        exact positionFor_set (by rw [hl.key_eq, positionFor_key, ho])
      by_cases hc : updated.localQuantity = 0
      · exact reduceAll_of_empty hrest (by rw [← positionFor_localQuantity, hu signal rfl, hc]) hrun
      · -- the position is open, so the delta is less than the source
        have hre : ¬ source ≤ signal.sourceDeltaQuantity := by
          intro hcl
          rw [← hs signal rfl] at hcl
          rw [hl.local_eq, ht.closes (.inr hcl), sub_self] at hc
          exact hc DecimalContext.round_zero
        have hle : source - min signal.sourceDeltaQuantity source =
            source - signal.sourceDeltaQuantity := by
          rw [min_eq_left (not_le.mp hre).le]
        refine ih hrest (.inr ?_) (fun other ho => ?_) hla ?_ hrun
        · rw [hle]
          linarith
        · rw [hu other ho, hl.source_eq hc, hs signal rfl, hm, min_eq_right (min_le_right _ _), hd]
        · rw [hle]
          linarith

theorem reduceAll_isSome
    (hr : ∀ reduction ∈ reductions, reduction.1.kind = .reduce ∧ reduction.1.key = key ∧
      0 < reduction.1.sourceDeltaQuantity ∧
      Sized (ledger.localQuantity key) reduction.2.quantityStep) :
    ∃ final, ledger.reduceAll decimalContext reductions = some final := by
  induction reductions generalizing ledger with
  | nil => exact ⟨ledger, rfl⟩
  | cons reduction reductions ih =>
    obtain ⟨signal, rules⟩ := reduction
    obtain ⟨⟨hk, rfl, hd, hs⟩, hrest⟩ := List.forall_mem_cons.mp hr
    rw [← positionFor_localQuantity] at hs
    have hst := rules.quantityStep_pos
    obtain ⟨plan, hm⟩ := planFromIn_isSome hst hd hs
    have hp : ledger.planReductionIn decimalContext signal rules none = (some plan, ledger) := by
      rw [planReductionIn, if_neg (not_not.mpr hk), hm]
    rw [reduceAll, hp]
    dsimp only
    split_ifs with ha
    · obtain ⟨updated, hre, hl⟩ := recordReductionFillIn_full hp ha
      rw [hre]
      refine ih fun other hother => ?_
      obtain ⟨hoth, hothe, hot, ho⟩ := hrest other hother
      refine ⟨hoth, hothe, hot, ?_⟩
      have hkey : updated.key = signal.key := by rw [hl.key_eq, positionFor_key]
      rw [← positionFor_localQuantity, positionFor_set hkey, hl.local_eq]
      rw [← positionFor_localQuantity] at ho
      have hle := remainder_le hst hs hm ha
      unfold Sized at ho ⊢
      linarith
    · exact ih hrest

end Sequences

/-- Plans ask for the source's share in whole steps, and sequences that take all of the source
leave nothing. -/
theorem reductions_track_source (ledger : VirtualPositionLedger) :
    (∀ signal rules source plan aligned,
      ledger.planReductionIn decimalContext signal rules source = (some plan, aligned) →
      plan.approved = true →
      TracksSource decimalContext (aligned.positionFor signal) signal.sourceDeltaQuantity
          rules.quantityStep plan ∧
        ∃ updated, aligned.recordReductionFillIn decimalContext plan plan.requestedLocalQuantity =
            .ok (updated, aligned.set updated) ∧
          LeavesRemainder decimalContext (aligned.positionFor signal) signal.sourceDeltaQuantity
            plan updated) ∧
      ∀ (key : VirtualPositionKey) (reductions : List (NormalizedSignal × SymbolTradingRules)),
        (∀ reduction ∈ reductions, reduction.1.kind = .reduce ∧ reduction.1.key = key ∧
          0 < reduction.1.sourceDeltaQuantity) → (reductions ≠ [] ∨ 0 < ledger.sourceQuantity key) →
        SourceUnrounded decimalContext (ledger.sourceQuantity key)
          (reductions.map (·.1.sourceDeltaQuantity)) →
        ledger.sourceQuantity key ≤ (reductions.map (·.1.sourceDeltaQuantity)).sum →
        ((∀ final, ledger.reduceAll decimalContext reductions = some final →
            final.localQuantity key = 0) ∧
          ((∀ reduction ∈ reductions, Sized (ledger.localQuantity key) reduction.2.quantityStep) →
            ∃ final, ledger.reduceAll decimalContext reductions = some final)) := by
  refine ⟨fun signal rules source plan aligned hp ha => ?_, ?_⟩
  · obtain ⟨-, hm, -⟩ := planReductionIn_eq hp ha
    exact ⟨planFromIn_tracks rules.quantityStep_pos hm ha, recordReductionFillIn_full hp ha⟩
  · intro key reductions hre hso he hsum
    refine ⟨fun final hrun => ?_, fun hsi => ?_⟩
    · refine reduceAll_closes (fun reduction hr => ?_) hso (fun signal hs => ?_) he hsum hrun
      · obtain ⟨hk, hkey, -⟩ := hre reduction hr
        exact ⟨hk, hkey⟩
      · rw [positionFor_sourceQuantity, hs]
    · refine @reduceAll_isSome ledger reductions key fun reduction hr => ?_
      obtain ⟨hk, hkey, hd⟩ := hre reduction hr
      exact ⟨hk, hkey, hd, hsi reduction hr⟩

section Rounded

def heldKey : VirtualPositionKey := ⟨"1", "BTCUSDT", .long⟩

theorem heldQuantity_nonneg (qty : ℕ) : 0 ≤ (qty : Decimal) / 10 ^ 18 := by positivity

def heldLedger (localQuantity sourceQuantity : ℕ) : VirtualPositionLedger where
  positions := [{
    key := heldKey
    localQuantity := localQuantity / 10 ^ 18
    observedSourceQuantity := sourceQuantity / 10 ^ 18
    localQuantity_nonneg := heldQuantity_nonneg localQuantity
    observedSourceQuantity_nonneg := heldQuantity_nonneg sourceQuantity }]
  nodup_keys := List.nodup_singleton heldKey

def heldReduction (sourceDelta : ℕ) : NormalizedSignal where
  signalId := .external "reduction"
  sourceEventKey := .external "reduction"
  sourceIdentityKey := .external "reduction"
  leadPortfolioId := "1"
  symbol := "BTCUSDT"
  positionSide := .long
  kind := .reduce
  sourceDeltaQuantity := sourceDelta / 10 ^ 18
  sourceCumulativeQuantity := sourceDelta / 10 ^ 18
  referencePrice := 100
  occurredAtMs := 1767225599000

theorem five_steps_pos : (0 : Decimal) < 5 := by norm_num

theorem halves_close : ∃ final, (heldLedger (3 * 10 ^ 18) (10 ^ 18)).reduceAll decimalContext
      [(heldReduction (5 * 10 ^ 17), rulesWithStep 1 one_unit_pos),
        (heldReduction (5 * 10 ^ 17), rulesWithStep 1 one_unit_pos)] = some final ∧
      final.localQuantity heldKey = 0 := by
  have hfive : (heldReduction (5 * 10 ^ 17)).sourceDeltaQuantity ∈ decimalGrid (-1) :=
    mem_decimalGrid.mpr ⟨5, by norm_num [heldReduction]⟩
  have hone : (heldLedger (3 * 10 ^ 18) (10 ^ 18)).sourceQuantity heldKey ∈ decimalGrid (-1) :=
    mem_decimalGrid.mpr ⟨10, by decide +kernel⟩
  have hl := (reductions_track_source (heldLedger (3 * 10 ^ 18) (10 ^ 18))).2 heldKey
    [(heldReduction (5 * 10 ^ 17), rulesWithStep 1 one_unit_pos),
      (heldReduction (5 * 10 ^ 17), rulesWithStep 1 one_unit_pos)]
    (by with_unfolding_all decide) (.inl (List.cons_ne_nil _ _))
    (sourceUnrounded_of_mem hone (by decide +kernel) (by decide +kernel) (by
      simp only [List.map_cons, List.map_nil, List.forall_mem_cons, List.not_mem_nil,
        false_implies, implies_true, and_true]
      exact ⟨⟨hfive, by decide +kernel⟩, hfive, by decide +kernel⟩))
    (by with_unfolding_all decide)
  have hs : ∀ reduction ∈ [(heldReduction (5 * 10 ^ 17), rulesWithStep 1 one_unit_pos),
      (heldReduction (5 * 10 ^ 17), rulesWithStep 1 one_unit_pos)],
      Sized ((heldLedger (3 * 10 ^ 18) (10 ^ 18)).localQuantity heldKey)
        reduction.2.quantityStep := by
    unfold Sized
    with_unfolding_all decide
  obtain ⟨final, hr⟩ := hl.2 hs
  exact ⟨final, hr, hl.1 final hr⟩

def plannedReduction (requested source : Decimal) : ReductionPlan where
  approved := true
  key := heldKey
  requestedLocalQuantity := requested
  attributedSourceQuantity := source
  closesVirtualPosition := false
  reasonCodes := []

/-- A third of 30 is rounded to less than 10, and what is left of `100000000000.000000000000000001`
to an integer; a source quantity that is rounded up outlasts its deltas; and a position without
a source stays until its first reduction. -/
theorem rounded_reductions_miss :
    (¬ ∀ (ledger : VirtualPositionLedger) (signal : NormalizedSignal) (rules : SymbolTradingRules)
      (plan : ReductionPlan),
      ledger.planReductionIn decimalContext signal rules none = (some plan, ledger) →
      plan.approved = true → 0 < signal.sourceDeltaQuantity →
      signal.sourceDeltaQuantity < (ledger.positionFor signal).observedSourceQuantity →
      |plan.requestedLocalQuantity -
          proportionalShare (ledger.positionFor signal) signal.sourceDeltaQuantity| <
            rules.quantityStep ∨
        plan.requestedLocalQuantity = (ledger.positionFor signal).localQuantity) ∧
      (¬ ∀ (ledger : VirtualPositionLedger) (signal : NormalizedSignal)
        (rules : SymbolTradingRules) (plan : ReductionPlan) (updated : VirtualPosition),
        ledger.planReductionIn decimalContext signal rules none = (some plan, ledger) →
        ledger.recordReductionFillIn decimalContext plan plan.requestedLocalQuantity =
          .ok (updated, ledger.set updated) → updated.localQuantity =
          (ledger.positionFor signal).localQuantity - plan.requestedLocalQuantity) ∧
      (¬ ∀ (ledger final : VirtualPositionLedger) (key : VirtualPositionKey)
        (reductions : List (NormalizedSignal × SymbolTradingRules)), reductions ≠ [] →
        (∀ reduction ∈ reductions, reduction.1.kind = .reduce ∧ reduction.1.key = key ∧
          0 < reduction.1.sourceDeltaQuantity) →
        ledger.sourceQuantity key ≤ (reductions.map (·.1.sourceDeltaQuantity)).sum →
        ledger.reduceAll decimalContext reductions = some final → final.localQuantity key = 0) ∧
      ¬ ∀ (ledger final : VirtualPositionLedger) (key : VirtualPositionKey)
        (reductions : List (NormalizedSignal × SymbolTradingRules)),
        (∀ reduction ∈ reductions, reduction.1.kind = .reduce ∧ reduction.1.key = key ∧
          0 < reduction.1.sourceDeltaQuantity) →
        SourceUnrounded decimalContext (ledger.sourceQuantity key)
          (reductions.map (·.1.sourceDeltaQuantity)) →
        ledger.sourceQuantity key ≤ (reductions.map (·.1.sourceDeltaQuantity)).sum →
        ledger.reduceAll decimalContext reductions = some final → final.localQuantity key = 0 := by
  refine ⟨fun hc => ?_, fun hc => ?_, fun hc => ?_, fun hc => ?_⟩
  · have hm := hc (heldLedger (30 * 10 ^ 18) (3 * 10 ^ 18)) (heldReduction (10 ^ 18))
      (rulesWithStep 5 five_steps_pos) (plannedReduction 5 1) (by with_unfolding_all decide) rfl
      (by with_unfolding_all decide) (by with_unfolding_all decide)
    exact absurd hm (by with_unfolding_all decide)
  · have hp : (heldLedger (10 ^ 29 + 1) (2 * 10 ^ 18)).planReductionIn decimalContext
        (heldReduction (10 ^ 18)) (rulesWithStep 1 one_unit_pos) none =
          (some (plannedReduction 50000000000 1), heldLedger (10 ^ 29 + 1) (2 * 10 ^ 18)) := by
      with_unfolding_all decide
    obtain ⟨updated, hr, hl⟩ := recordReductionFillIn_full hp rfl
    have hk := hc _ _ _ _ updated hp hr
    rw [hl.local_eq] at hk
    exact absurd hk (by with_unfolding_all decide)
  · have hle := hc (heldLedger (25 * 10 ^ 17) (10 ^ 29)) (heldLedger (5 * 10 ^ 17) 0) heldKey
      [(heldReduction 1, rulesWithStep 1 one_unit_pos),
        (heldReduction (10 ^ 29 - 1), rulesWithStep 1 one_unit_pos)] (List.cons_ne_nil _ _)
      (by decide +kernel) (by decide +kernel) (by decide +kernel)
    exact absurd hle (by with_unfolding_all decide)
  · have hle := hc (heldLedger 1 0) _ heldKey [] (by simp) trivial
      (by with_unfolding_all decide) rfl
    exact absurd hle (by with_unfolding_all decide)

end Rounded

end VirtualPositionLedger

end AiQuant.CopyTrading
