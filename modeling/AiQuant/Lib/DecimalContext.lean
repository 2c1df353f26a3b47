import Mathlib.Algebra.Order.Archimedean.Basic
import Mathlib.Data.Int.Log
import Mathlib.Data.Rat.Floor
import Mathlib.Tactic.FieldSimp
import Mathlib.Tactic.Linarith
import Mathlib.Tactic.NormNum
import Mathlib.Tactic.Positivity
import Mathlib.Tactic.Ring

/-! Decimal arithmetic that keeps a fixed number of significant digits of every result, over the
exact rationals.  What is proved of a computation needs the relative error of one rounding only,
so it holds for any number of digits, and for exact arithmetic too. -/
namespace AiQuant.Lib

def roundHalfEven (value : ℚ) : ℤ :=
  if Int.fract value < 1 / 2 then ⌊value⌋
  else if 1 / 2 < Int.fract value then ⌊value⌋ + 1
  else if ⌊value⌋ % 2 = 0 then ⌊value⌋
  else ⌊value⌋ + 1

def lastPlace (digits : ℕ) (value : ℚ) : ℚ :=
  10 ^ (Int.log 10 |value| + 1 - digits)

def roundToDigits (digits : ℕ) (value : ℚ) : ℚ :=
  roundHalfEven (value / lastPlace digits value) * lastPlace digits value

section Digits

variable {digits : ℕ} {value : ℚ}

theorem abs_roundHalfEven_sub_le (value : ℚ) : |(roundHalfEven value : ℚ) - value| ≤ 1 / 2 := by
  have hf : (⌊value⌋ : ℚ) = value - Int.fract value := (Int.self_sub_fract value).symm
  have hn := Int.fract_nonneg value
  have hlt := Int.fract_lt_one value
  unfold roundHalfEven
  split_ifs with hb ha he
  · rw [hf, abs_le]
    constructor <;> linarith
  · rw [Int.cast_add, Int.cast_one, hf, abs_le]
    constructor <;> linarith
  · rw [hf, abs_le]
    constructor <;> linarith
  · rw [Int.cast_add, Int.cast_one, hf, abs_le]
    constructor <;> linarith

@[simp] theorem roundHalfEven_intCast (value : ℤ) : roundHalfEven value = value := by
  rw [roundHalfEven, Int.fract_intCast, if_pos (by norm_num), Int.floor_intCast]

theorem lastPlace_pos : 0 < lastPlace digits value :=
  zpow_pos (by norm_num) _

theorem lastPlace_le (hv : value ≠ 0) : lastPlace digits value ≤ 10 / 10 ^ digits * |value| := by
  have hl : (10 : ℚ) ^ Int.log 10 |value| ≤ |value| := by
    exact_mod_cast Int.zpow_log_le_self (by norm_num : 1 < 10) (abs_pos.mpr hv)
  have ht : (10 : ℚ) ≠ 0 := by norm_num
  have hs : lastPlace digits value = 10 / 10 ^ digits * 10 ^ Int.log 10 |value| := by
    rw [lastPlace, zpow_sub₀ ht, zpow_add₀ ht, zpow_one, zpow_natCast]
    ring
  rw [hs]
  exact mul_le_mul_of_nonneg_left hl (by positivity)

theorem abs_roundToDigits_sub_le (digits : ℕ) (value : ℚ) :
    |roundToDigits digits value - value| ≤ 5 / 10 ^ digits * |value| := by
  by_cases hv : value = 0
  · rw [hv, roundToDigits, zero_div]
    norm_num [roundHalfEven]
  · have hp := @lastPlace_pos digits value
    have hs : roundToDigits digits value - value =
        (roundHalfEven (value / lastPlace digits value) - value / lastPlace digits value) *
          lastPlace digits value := by
      rw [roundToDigits, sub_mul, div_mul_cancel₀ _ hp.ne']
    calc |roundToDigits digits value - value|
        = |(roundHalfEven (value / lastPlace digits value) : ℚ) -
            value / lastPlace digits value| * lastPlace digits value := by
          rw [hs, abs_mul, abs_of_pos hp]
      _ ≤ 1 / 2 * lastPlace digits value :=
          mul_le_mul_of_nonneg_right (abs_roundHalfEven_sub_le _) hp.le
      _ ≤ 1 / 2 * (10 / 10 ^ digits * |value|) :=
          mul_le_mul_of_nonneg_left (lastPlace_le hv) (by norm_num)
      _ = 5 / 10 ^ digits * |value| := by ring

theorem roundToDigits_of_fits {coef exp : ℤ} (hf : |coef| < 10 ^ digits) :
    roundToDigits digits (coef * 10 ^ exp) = coef * 10 ^ exp := by
  by_cases hz : coef = 0
  · rw [hz, Int.cast_zero, zero_mul, roundToDigits, zero_div]
    norm_num [roundHalfEven]
  · have ht : (10 : ℚ) ≠ 0 := by norm_num
    have hp : (0 : ℚ) < 10 ^ exp := zpow_pos (by norm_num) _
    have ha : |(coef : ℚ) * 10 ^ exp| = |coef| * 10 ^ exp := by
      rw [abs_mul, abs_of_pos hp, Int.cast_abs]
    have hpos : 0 < |(coef : ℚ) * 10 ^ exp| := by
      rw [abs_pos]
      exact mul_ne_zero (Int.cast_ne_zero.mpr hz) hp.ne'
    have hb : |(coef : ℚ) * 10 ^ exp| < ((10 : ℕ) : ℚ) ^ (digits + exp) := by
      rw [ha, Nat.cast_ofNat, zpow_add₀ ht, zpow_natCast]
      exact mul_lt_mul_of_pos_right (by exact_mod_cast hf) hp
    have hl := (Int.lt_zpow_iff_log_lt (by norm_num) hpos).mp hb
    -- the last place divides the unit of the value
    obtain ⟨shift, hs⟩ := Int.eq_ofNat_of_zero_le
      (show 0 ≤ exp - (Int.log 10 |(coef : ℚ) * 10 ^ exp| + 1 - digits) by omega)
    have hpl : (coef : ℚ) * 10 ^ exp /
        lastPlace digits (coef * 10 ^ exp) = ((coef * 10 ^ shift : ℤ) : ℚ) := by
      rw [lastPlace, mul_div_assoc, ← zpow_sub₀ ht, hs]
      push_cast
      rw [zpow_natCast]
    rw [roundToDigits, hpl, roundHalfEven_intCast, ← hpl, div_mul_cancel₀ _ lastPlace_pos.ne']

end Digits

structure DecimalContext where
  round : ℚ → ℚ
  /-- The largest relative error of a rounding. -/
  unit : ℚ
  unit_nonneg : 0 ≤ unit
  unit_le : unit ≤ 1 / 10
  abs_round_sub_le : ∀ value, |round value - value| ≤ unit * |value|
  round_one : round 1 = 1
  quotientFits : ℤ → Bool

namespace DecimalContext

def exact : DecimalContext where
  round := id
  unit := 0
  unit_nonneg := le_rfl
  unit_le := by norm_num
  abs_round_sub_le value := by simp
  round_one := rfl
  quotientFits _ := true

theorem roundToDigits_one {digits : ℕ} (hd : 2 ≤ digits) : roundToDigits digits 1 = 1 := by
  have hf : |(1 : ℤ)| < 10 ^ digits := by
    rw [abs_one]
    exact one_lt_pow₀ (by norm_num) (by omega)
  simpa using @roundToDigits_of_fits digits 1 0 hf

theorem unit_ofDigits_le {digits : ℕ} (hd : 2 ≤ digits) : 5 / 10 ^ digits ≤ (1 / 10 : ℚ) := by
  have hp : (10 : ℚ) ^ 2 ≤ 10 ^ digits := pow_le_pow_right₀ (by norm_num) hd
  rw [div_le_div_iff₀ (by positivity) (by norm_num)]
  linarith

def ofDigits (digits : ℕ) (hdigits : 2 ≤ digits) : DecimalContext where
  round := roundToDigits digits
  unit := 5 / 10 ^ digits
  unit_nonneg := by positivity
  unit_le := unit_ofDigits_le hdigits
  abs_round_sub_le := abs_roundToDigits_sub_le digits
  round_one := roundToDigits_one hdigits
  quotientFits quotient := |quotient| < 10 ^ digits

def wholeQuotient (context : DecimalContext) (value step : ℚ) : Option ℤ :=
  let quotient := if 0 ≤ value / step then ⌊value / step⌋ else ⌈value / step⌉
  if context.quotientFits quotient then some quotient else none

section Rounding

variable {context : DecimalContext} {value step : ℚ}

@[simp] theorem round_zero : context.round 0 = 0 := by
  have he := context.abs_round_sub_le 0
  rw [abs_zero, mul_zero, sub_zero] at he
  exact abs_nonpos_iff.mp he

theorem round_le (hv : 0 ≤ value) : context.round value ≤ value * (1 + context.unit) := by
  have he := (abs_le.mp (context.abs_round_sub_le value)).2
  rw [abs_of_nonneg hv] at he
  linarith

theorem le_round (hv : 0 ≤ value) : value * (1 - context.unit) ≤ context.round value := by
  have he := (abs_le.mp (context.abs_round_sub_le value)).1
  rw [abs_of_nonneg hv] at he
  linarith

theorem one_sub_unit_pos (context : DecimalContext) : 0 < 1 - context.unit := by
  have hu := context.unit_le
  linarith

theorem round_nonneg (hv : 0 ≤ value) : 0 ≤ context.round value :=
  (mul_nonneg hv context.one_sub_unit_pos.le).trans (le_round hv)

theorem wholeQuotient_eq_some {quotient : ℤ} (hv : 0 ≤ value) (hs : 0 < step)
    (hf : context.wholeQuotient value step = some quotient) : quotient = ⌊value / step⌋ := by
  unfold wholeQuotient at hf
  rw [if_pos (div_nonneg hv hs.le)] at hf
  dsimp only at hf
  split_ifs at hf
  exact (Option.some.inj hf).symm

theorem wholeQuotient_ofDigits {digits : ℕ} (hd : 2 ≤ digits) (hv : 0 ≤ value)
    (hst : 0 < step) (hs : value < 10 ^ digits * step) :
    (ofDigits digits hd).wholeQuotient value step = some ⌊value / step⌋ := by
  have hq := div_nonneg hv hst.le
  have hb : ⌊value / step⌋ < (10 ^ digits : ℤ) := by
    rw [Int.floor_lt]
    push_cast
    exact (div_lt_iff₀ hst).mpr hs
  have hf : (ofDigits digits hd).quotientFits ⌊value / step⌋ = true := by
    change decide (|⌊value / step⌋| < 10 ^ digits) = true
    rw [abs_of_nonneg (Int.floor_nonneg.mpr hq)]
    exact decide_eq_true hb
  rw [wholeQuotient, if_pos hq]
  exact if_pos hf

end Rounding

end DecimalContext

/-- The context of Python's `decimal` module where no other is set. -/
def decimalContext : DecimalContext := .ofDigits 28 (by norm_num)

end AiQuant.Lib
