import AiQuant.Lib.DecimalContext
import Mathlib.Algebra.Group.Subgroup.ZPowers.Basic
import Mathlib.Algebra.Group.Subgroup.Pointwise

/-! Multiples of a power of ten.  They are closed under sums, differences and products, and a
context that keeps enough digits for their size does not round them. -/
namespace AiQuant.Lib

def decimalGrid (exponent : ℤ) : AddSubgroup ℚ := AddSubgroup.zmultiples (10 ^ exponent)

section Grid

variable {digits : ℕ} {exponent finer : ℤ} {value other : ℚ}

theorem mem_decimalGrid :
    value ∈ decimalGrid exponent ↔ ∃ coef : ℤ, coef * 10 ^ exponent = value := by
  simp only [decimalGrid, AddSubgroup.mem_zmultiples_iff, zsmul_eq_mul]

theorem mul_mem_decimalGrid (hv : value ∈ decimalGrid exponent) (ho : other ∈ decimalGrid finer) :
    value * other ∈ decimalGrid (exponent + finer) := by
  obtain ⟨left, rfl⟩ := mem_decimalGrid.mp hv
  obtain ⟨right, rfl⟩ := mem_decimalGrid.mp ho
  refine mem_decimalGrid.mpr ⟨left * right, ?_⟩
  rw [zpow_add₀ (by norm_num)]
  push_cast
  ring

theorem min_mem_decimalGrid (hv : value ∈ decimalGrid exponent)
    (ho : other ∈ decimalGrid exponent) : min value other ∈ decimalGrid exponent := by
  rcases min_choice value other with hm | hm <;> rwa [hm]

theorem max_mem_decimalGrid (hv : value ∈ decimalGrid exponent)
    (ho : other ∈ decimalGrid exponent) : max value other ∈ decimalGrid exponent := by
  rcases max_choice value other with hm | hm <;> rwa [hm]

/-- The unit is the least positive multiple. -/
theorem unit_le_of_mem (hv : value ∈ decimalGrid exponent) (hp : 0 < value) :
    10 ^ exponent ≤ value := by
  obtain ⟨coef, rfl⟩ := mem_decimalGrid.mp hv
  have hu : (0 : ℚ) < 10 ^ exponent := zpow_pos (by norm_num) _
  have hc : (1 : ℤ) ≤ coef := by
    have hpos := pos_of_mul_pos_left hp hu.le
    exact_mod_cast hpos
  have hle : (1 : ℚ) ≤ coef := by exact_mod_cast hc
  exact le_mul_of_one_le_left hu.le hle

/-- The value has so many significant digits that none of them is lost. -/
def Fits (digits : ℕ) (value : ℚ) : Prop :=
  ∃ coefficient exponent : ℤ, |coefficient| < 10 ^ digits ∧ coefficient * 10 ^ exponent = value

theorem Fits.round_eq (hf : Fits digits value) : roundToDigits digits value = value := by
  obtain ⟨coef, exponent, hc, rfl⟩ := hf
  exact roundToDigits_of_fits hc

theorem fits_of_mem (hv : value ∈ decimalGrid exponent)
    (hb : |value| < 10 ^ digits * 10 ^ exponent) : Fits digits value := by
  obtain ⟨coef, rfl⟩ := mem_decimalGrid.mp hv
  refine ⟨coef, exponent, ?_, rfl⟩
  have hu : (0 : ℚ) < 10 ^ exponent := zpow_pos (by norm_num) _
  rw [abs_mul, abs_of_pos hu] at hb
  exact_mod_cast lt_of_mul_lt_mul_right hb hu.le

theorem round_eq_of_mem (hv : value ∈ decimalGrid exponent)
    (hb : |value| < 10 ^ digits * 10 ^ exponent) : roundToDigits digits value = value :=
  (fits_of_mem hv hb).round_eq

end Grid

section Between

variable {digits : ℕ} {value bound : ℚ} {whole : ℤ}

theorem le_roundHalfEven (hle : whole ≤ value) : whole ≤ roundHalfEven value := by
  have hf : whole ≤ ⌊value⌋ := Int.le_floor.mpr hle
  unfold roundHalfEven
  split_ifs <;> omega

theorem roundHalfEven_le (hle : value ≤ whole) : roundHalfEven value ≤ whole := by
  rcases hle.eq_or_lt with rfl | hl
  · rw [roundHalfEven_intCast]
  · have hf : ⌊value⌋ < whole := Int.floor_lt.mpr hl
    unfold roundHalfEven
    split_ifs <;> omega

/-- A value that fits is a multiple of the last place of a positive one, or less than its
leading digit. -/
theorem Fits.multiple_or_lt (hd : 0 < digits) (hv : 0 < value) (hf : Fits digits bound) :
    (∃ multiple : ℤ, bound = multiple * lastPlace digits value) ∨
      ∃ multiple : ℤ, bound < multiple * lastPlace digits value ∧
        multiple * lastPlace digits value ≤ value := by
  obtain ⟨coef, exponent, hc, rfl⟩ := hf
  have ht : (10 : ℚ) ≠ 0 := by norm_num
  have hu : (0 : ℚ) < 10 ^ exponent := zpow_pos (by norm_num) _
  by_cases he : Int.log 10 |value| + 1 - digits ≤ exponent
  · obtain ⟨shift, hs⟩ := Int.eq_ofNat_of_zero_le (sub_nonneg.mpr he)
    refine .inl ⟨coef * 10 ^ shift, ?_⟩
    rw [lastPlace, show exponent = (Int.log 10 |value| + 1 - digits) + shift by omega,
      zpow_add₀ ht, zpow_natCast]
    push_cast
    ring
  · obtain ⟨places, rfl⟩ := Nat.exists_eq_succ_of_ne_zero hd.ne'
    have hl : (10 : ℚ) ^ Int.log 10 |value| ≤ |value| := by
      exact_mod_cast Int.zpow_log_le_self (by norm_num : 1 < 10) (abs_pos.mpr hv.ne')
    have hlead : (((10 ^ places : ℤ)) : ℚ) * lastPlace (places + 1) value =
        10 ^ Int.log 10 |value| := by
      rw [lastPlace, Int.cast_pow, Int.cast_ofNat, ← zpow_natCast, ← zpow_add₀ ht]
      congr 1
      push_cast
      omega
    refine .inr ⟨10 ^ places, ?_, ?_⟩
    · have hb : (coef : ℚ) < 10 ^ (places + 1) := by
        exact_mod_cast (le_abs_self coef).trans_lt hc
      calc (coef : ℚ) * 10 ^ exponent
          < 10 ^ (places + 1) * 10 ^ exponent := mul_lt_mul_of_pos_right hb hu
        _ = 10 ^ ((places + 1 : ℕ) + exponent) := by rw [zpow_add₀ ht, zpow_natCast]
        _ ≤ 10 ^ Int.log 10 |value| := by
          refine zpow_le_zpow_right₀ (by norm_num) ?_
          push_cast at he ⊢
          omega
        _ = _ := hlead.symm
    · rw [hlead]
      exact hl.trans_eq (abs_of_pos hv)

/-- Rounding does not pass a value that fits. -/
theorem Fits.le_round (hd : 0 < digits) (hv : 0 < value) (hf : Fits digits bound)
    (hle : bound ≤ value) : bound ≤ roundToDigits digits value := by
  have hp := @lastPlace_pos digits value
  have hm : ∀ multiple : ℤ, multiple * lastPlace digits value ≤ value →
      multiple * lastPlace digits value ≤ roundToDigits digits value := by
    intro multiple hmul
    refine mul_le_mul_of_nonneg_right ?_ hp.le
    exact_mod_cast le_roundHalfEven ((le_div_iff₀ hp).mpr hmul)
  rcases hf.multiple_or_lt hd hv with ⟨multiple, rfl⟩ | ⟨multiple, hlt, hmul⟩
  · exact hm multiple hle
  · exact hlt.le.trans (hm multiple hmul)

theorem Fits.round_le (hd : 0 < digits) (hv : 0 < value) (hf : Fits digits bound)
    (hle : value ≤ bound) : roundToDigits digits value ≤ bound := by
  have hp := @lastPlace_pos digits value
  rcases hf.multiple_or_lt hd hv with ⟨multiple, rfl⟩ | ⟨multiple, hlt, hmul⟩
  · refine mul_le_mul_of_nonneg_right ?_ hp.le
    exact_mod_cast roundHalfEven_le ((div_le_iff₀ hp).mpr hle)
  · exact absurd (hlt.trans_le hmul) hle.not_gt

end Between

theorem decimalContext_round_eq {exponent : ℤ} {value : ℚ} (hv : value ∈ decimalGrid exponent)
    (hb : |value| < 10 ^ 28 * 10 ^ exponent) : decimalContext.round value = value :=
  round_eq_of_mem hv hb

end AiQuant.Lib
