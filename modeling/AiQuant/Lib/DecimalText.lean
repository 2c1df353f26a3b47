import Mathlib.Algebra.Order.Field.Power
import Mathlib.Algebra.Order.Field.Rat
import Mathlib.Algebra.Order.Ring.Rat
import Mathlib.Data.List.DropRight
import Mathlib.Tactic.FieldSimp
import Mathlib.Tactic.Linarith
import Mathlib.Tactic.NormNum
import Mathlib.Tactic.Positivity
import Mathlib.Tactic.Ring

/-! Decimal numbers as they are written: a sign, a coefficient and an exponent, so that equal
numbers can be different decimals.  The fixed-point text shows the exponent only by the zeros at
its end. -/
namespace AiQuant.Lib

/-- A finite `Decimal`. -/
structure FiniteDecimal where
  negative : Bool
  coefficient : ℕ
  exponent : ℤ
deriving DecidableEq

namespace FiniteDecimal

def value (decimal : FiniteDecimal) : ℚ :=
  (if decimal.negative then -1 else 1) * (decimal.coefficient * 10 ^ decimal.exponent)

/-- Zero with a sign. -/
def IsNegativeZero (decimal : FiniteDecimal) : Prop :=
  decimal.negative = true ∧ decimal.coefficient = 0

def parts (coefficient : ℕ) (exponent : ℤ) : List Char × List Char :=
  let digits := Nat.toDigits 10 coefficient
  match exponent with
  | .ofNat zeros =>
    (digits ++ List.replicate (if coefficient = 0 then 0 else zeros) '0', [])
  | .negSucc before =>
    if before + 1 < digits.length then digits.splitAt (digits.length - (before + 1))
    else (['0'], List.replicate (before + 1 - digits.length) '0' ++ digits)

def signText (negative : Bool) : List Char :=
  if negative then ['-'] else []

def join (whole fraction : List Char) : List Char :=
  if fraction = [] then whole else whole ++ '.' :: fraction

/-- `format(decimal, "f")` -/
def fixedText (decimal : FiniteDecimal) : List Char :=
  signText decimal.negative ++
    join (parts decimal.coefficient decimal.exponent).1
      (parts decimal.coefficient decimal.exponent).2

/-- `Decimal(text)` of a text without an exponent. -/
def ofText (text : List Char) : Option FiniteDecimal :=
  let negative := text.head? = some '-'
  let unsigned := if text.head? = some '-' || text.head? = some '+' then text.tail else text
  let whole := unsigned.takeWhile (· ≠ '.')
  let fraction := (unsigned.dropWhile (· ≠ '.')).tail
  if (whole ++ fraction).all Char.isDigit && !(whole ++ fraction).isEmpty then
    some ⟨negative, Nat.ofDigitChars 10 (whole ++ fraction) 0, -fraction.length⟩
  else none

/-- `str(decimal)`: an exponent is shown where it is positive, and where the first digit stands
more than six places behind the point. -/
def text (decimal : FiniteDecimal) : List Char :=
  let digits := Nat.toDigits 10 decimal.coefficient
  let leading := decimal.exponent + digits.length - 1
  if decimal.exponent ≤ 0 ∧ -6 ≤ leading then decimal.fixedText
  else signText decimal.negative ++ join (digits.take 1) (digits.drop 1) ++
    'E' :: (if 0 ≤ leading then '+' else '-') :: Nat.toDigits 10 leading.natAbs

/-- A value as it is written with a given exponent. -/
def ofValue (value : ℚ) (exponent : ℤ) : FiniteDecimal where
  negative := value < 0
  coefficient := match exponent with
    | .ofNat zeros => value.num.natAbs / 10 ^ zeros
    | .negSucc before => value.num.natAbs * 10 ^ (before + 1) / value.den
  exponent := exponent

/-- The exponent of an exact result: the ideal one, unless the coefficient would need more
digits than are kept. -/
def resultExponent (digits : ℕ) (value : ℚ) (ideal : ℤ) : ℤ :=
  ideal + ((Nat.toDigits 10 (ofValue value ideal).coefficient).length - digits : ℕ)

section Parts

variable {coefficient : ℕ} {exp : ℤ}

theorem parts_zero (exp : ℤ) :
    ∃ count, parts 0 exp = (['0'], List.replicate count '0') := by
  cases exp with
  | ofNat zeros => exact ⟨0, rfl⟩
  | negSucc pre =>
    refine ⟨pre + 1, ?_⟩
    have hd : ¬ pre + 1 < (Nat.toDigits 10 0).length := by
      rw [Nat.toDigits_zero]
      simp
    simp only [parts, if_neg hd]
    rw [Nat.toDigits_zero, List.length_singleton, Nat.add_sub_cancel, ← List.replicate_succ']

theorem parts_mul_ten (hc : 0 < coefficient) : ∃ count, parts (10 * coefficient) (exp - 1) =
      ((parts coefficient exp).1,
        (parts coefficient exp).2 ++ List.replicate count '0') := by
  have hd : Nat.toDigits 10 (10 * coefficient) = Nat.toDigits 10 coefficient ++ ['0'] := by
    have ha := @Nat.toDigits_append_toDigits 10 coefficient 0 (by norm_num) hc (by norm_num)
    rw [Nat.toDigits_zero, Nat.add_zero] at ha
    exact ha.symm
  have hpo := @Nat.length_toDigits_pos 10 coefficient
  cases exp with
  | ofNat zeros =>
    cases zeros with
    | zero =>
      refine ⟨1, ?_⟩
      change parts (10 * coefficient) (.negSucc 0) = _
      simp only [parts, hd, List.length_append, List.length_singleton]
      rw [if_pos (by omega)]
      simp
    | succ zeros =>
      refine ⟨0, ?_⟩
      have he : Int.ofNat (zeros + 1) - 1 = Int.ofNat zeros := by simp
      rw [he]
      simp only [parts, hd, if_neg hc.ne',
        if_neg (Nat.mul_ne_zero (by norm_num : 10 ≠ 0) hc.ne'), List.replicate_zero,
        List.append_nil, List.append_assoc]
      rw [List.replicate_succ]
      rfl
  | negSucc pre =>
    refine ⟨1, ?_⟩
    have he : Int.negSucc pre - 1 = Int.negSucc (pre + 1) := rfl
    rw [he]
    simp only [parts, hd, List.length_append, List.length_singleton, List.replicate_one]
    by_cases hi : pre + 1 < (Nat.toDigits 10 coefficient).length
    · rw [if_pos (by omega), if_pos hi, List.splitAt_eq, List.splitAt_eq]
      have hp : (Nat.toDigits 10 coefficient).length + 1 - (pre + 1 + 1) =
          (Nat.toDigits 10 coefficient).length - (pre + 1) := by omega
      rw [hp, List.take_append_of_le_length (by omega), List.drop_append_of_le_length (by omega)]
    · rw [if_neg (by omega), if_neg hi, List.append_assoc]
      have hz : pre + 1 + 1 - ((Nat.toDigits 10 coefficient).length + 1) =
          pre + 1 - (Nat.toDigits 10 coefficient).length := by omega
      rw [hz]

theorem parts_digits : (parts coefficient exp).1 ≠ [] ∧
      ∀ digit ∈ (parts coefficient exp).1 ++ (parts coefficient exp).2,
        digit.isDigit = true := by
  have hd : ∀ digit ∈ Nat.toDigits 10 coefficient, digit.isDigit = true := fun digit =>
    Nat.isDigit_of_mem_toDigits (by norm_num) (by norm_num)
  have hz : ∀ count, ∀ digit ∈ List.replicate count '0', digit.isDigit = true := by
    intro count digit hdi
    rw [List.eq_of_mem_replicate hdi]
    rfl
  cases exp with
  | ofNat zeros =>
    refine ⟨List.append_ne_nil_of_left_ne_nil Nat.toDigits_ne_nil _, ?_⟩
    simp only [parts, List.append_nil, List.forall_mem_append]
    exact ⟨hd, hz _⟩
  | negSucc pre =>
    simp only [parts]
    split_ifs with hi
    · rw [List.splitAt_eq, List.take_append_drop]
      refine ⟨fun hn => ?_, hd⟩
      have hl := congrArg List.length hn
      rw [List.length_take, List.length_nil] at hl
      omega
    · refine ⟨List.cons_ne_nil _ _, ?_⟩
      simp only [List.forall_mem_append, List.forall_mem_singleton]
      exact ⟨rfl, hz _, hd⟩

theorem ofDigitChars_parts :
    (Nat.ofDigitChars 10 ((parts coefficient exp).1 ++ (parts coefficient exp).2) 0 : ℚ) *
        10 ^ (-((parts coefficient exp).2.length : ℤ)) = coefficient * 10 ^ exp := by
  have ht : (10 : ℚ) ≠ 0 := by norm_num
  cases exp with
  | ofNat zeros =>
    simp only [parts, List.append_nil, List.length_nil, Nat.cast_zero, neg_zero, zpow_zero,
      mul_one, Nat.ofDigitChars_append, Nat.ofDigitChars_ten_toDigits,
      Nat.ofDigitChars_replicate_zero, Int.ofNat_eq_natCast, zpow_natCast]
    split_ifs with hze
    · rw [hze]
      simp
    · push_cast
      ring
  | negSucc pre =>
    simp only [parts]
    split_ifs with hi
    · have hl : (List.drop ((Nat.toDigits 10 coefficient).length - (pre + 1))
          (Nat.toDigits 10 coefficient)).length = pre + 1 := by
        rw [List.length_drop]
        omega
      rw [List.splitAt_eq, List.take_append_drop, Nat.ofDigitChars_ten_toDigits, hl]
      rfl
    · have hl : (List.replicate (pre + 1 - (Nat.toDigits 10 coefficient).length) '0' ++
          Nat.toDigits 10 coefficient).length = pre + 1 := by
        rw [List.length_append, List.length_replicate]
        omega
      have hz : Nat.ofDigitChars 10 (['0'] ++ List.replicate (pre + 1 -
          (Nat.toDigits 10 coefficient).length) '0') 0 = 0 := by
        rw [Nat.ofDigitChars_append, Nat.ofDigitChars_replicate_zero]
        rfl
      rw [hl, ← List.append_assoc, Nat.ofDigitChars_append, hz, Nat.ofDigitChars_ten_toDigits]
      rfl

end Parts

def plainText (decimal : FiniteDecimal) : List Char :=
  signText decimal.negative ++
    join (parts decimal.coefficient decimal.exponent).1
      ((parts decimal.coefficient decimal.exponent).2.rdropWhile (· = '0'))

section PlainText

variable {decimal other : FiniteDecimal} {negative : Bool} {coefficient : ℕ} {exp : ℤ}

theorem rdropWhile_append_zeros (digits : List Char) (count : ℕ) :
    (digits ++ List.replicate count '0').rdropWhile (· = '0') = digits.rdropWhile (· = '0') := by
  induction count with
  | zero => rw [List.replicate_zero, List.append_nil]
  | succ count ih =>
    rw [List.replicate_succ', ← List.append_assoc, List.rdropWhile_concat_pos _ _ _ (by simp), ih]

theorem plainText_mul_ten (hc : 0 < coefficient) :
    plainText ⟨negative, 10 * coefficient, exp - 1⟩ =
      plainText ⟨negative, coefficient, exp⟩ := by
  obtain ⟨count, hp⟩ := @parts_mul_ten coefficient exp hc
  rw [plainText, plainText, hp, rdropWhile_append_zeros]

theorem plainText_mul_pow (hc : 0 < coefficient) (shift : ℕ) :
    plainText ⟨negative, 10 ^ shift * coefficient, exp - shift⟩ =
      plainText ⟨negative, coefficient, exp⟩ := by
  induction shift with
  | zero => rw [pow_zero, one_mul, Nat.cast_zero, sub_zero]
  | succ shift ih =>
    have hs : 10 ^ (shift + 1) * coefficient = 10 * (10 ^ shift * coefficient) := by ring
    rw [hs, Nat.cast_succ, ← sub_sub, plainText_mul_ten (by positivity), ih]

theorem plainText_zero : plainText ⟨negative, 0, exp⟩ = signText negative ++ ['0'] := by
  obtain ⟨count, hp⟩ := parts_zero exp
  have hz : (List.replicate count '0').rdropWhile (· = '0') = [] := by
    exact rdropWhile_append_zeros [] count
  rw [plainText, hp, hz]
  rfl

theorem value_eq_zero_iff : decimal.value = 0 ↔ decimal.coefficient = 0 := by
  have hp : (10 : ℚ) ^ decimal.exponent ≠ 0 := zpow_ne_zero _ (by norm_num)
  unfold value
  split_ifs <;> simp [hp]

theorem same_sign (hv : decimal.value = other.value) (hn : decimal.coefficient ≠ 0) :
    decimal.negative = other.negative ∧ (decimal.coefficient : ℚ) * 10 ^ decimal.exponent =
        other.coefficient * 10 ^ other.exponent := by
  have hpo : 0 < (decimal.coefficient : ℚ) * 10 ^ decimal.exponent := by positivity
  have hp : 0 ≤ (other.coefficient : ℚ) * 10 ^ other.exponent := by positivity
  unfold value at hv
  cases hsi : decimal.negative <;> cases hs : other.negative <;>
    rw [hsi, hs] at hv <;> simp only [Bool.false_eq_true, if_true, if_false] at hv
  · exact ⟨rfl, by linarith⟩
  · exact absurd hv (by linarith)
  · exact absurd hv (by linarith)
  · exact ⟨rfl, by linarith⟩

theorem plainText_eq_of_value (hv : decimal.value = other.value)
    (hd : ¬ decimal.IsNegativeZero) (ho : ¬ other.IsNegativeZero) :
    decimal.plainText = other.plainText := by
  obtain ⟨negative, coefficient, exp⟩ := decimal
  obtain ⟨negative', coefficient', exponent'⟩ := other
  by_cases hze : coefficient = 0
  · have hz : coefficient' = 0 := by
      have hn := (@value_eq_zero_iff ⟨negative, coefficient, exp⟩).mpr hze
      rw [hv] at hn
      exact value_eq_zero_iff.mp hn
    subst hze hz
    have hpo : negative = false := by
      by_contra hsi
      exact hd ⟨by simpa using hsi, rfl⟩
    have hp : negative' = false := by
      by_contra hsi
      exact ho ⟨by simpa using hsi, rfl⟩
    rw [plainText_zero, plainText_zero, hpo, hp]
  · obtain ⟨hsi, ha⟩ := same_sign hv hze
    dsimp only at hsi ha
    subst hsi
    have ht : (10 : ℚ) ≠ 0 := by norm_num
    -- the one of the smaller exponent has the larger coefficient
    have hs : ∀ {first second : ℕ} {low high : ℤ}, low ≤ high →
        (first : ℚ) * 10 ^ low = second * 10 ^ high →
        ∃ shift : ℕ, first = 10 ^ shift * second ∧ low = high - shift := by
      intro first second low high hle he
      obtain ⟨shift, hs⟩ := Int.eq_ofNat_of_zero_le (sub_nonneg.mpr hle)
      refine ⟨shift, ?_, by omega⟩
      have hh : high = low + shift := by omega
      have hl : (10 : ℚ) ^ low ≠ 0 := zpow_ne_zero _ ht
      rw [hh, zpow_add₀ ht, zpow_natCast] at he
      have hc : (first : ℚ) = 10 ^ shift * second :=
        mul_right_cancel₀ hl (by rw [he]; ring)
      exact_mod_cast hc
    rcases le_total exp exponent' with hle | hle
    · obtain ⟨shift, rfl, rfl⟩ := hs hle ha
      exact plainText_mul_pow (Nat.pos_of_ne_zero fun h => hze (by rw [h, Nat.mul_zero])) shift
    · obtain ⟨shift, rfl, rfl⟩ := hs hle ha.symm
      exact (plainText_mul_pow (Nat.pos_of_ne_zero hze) shift).symm

theorem takeWhile_join {whole fraction : List Char} (hw : ∀ digit ∈ whole, digit ≠ '.') :
    (join whole fraction).takeWhile (· ≠ '.') = whole ∧
      ((join whole fraction).dropWhile (· ≠ '.')).tail = fraction := by
  have ha : ∀ digit ∈ whole, decide (digit ≠ '.') = true := fun digit hd =>
    decide_eq_true (hw digit hd)
  unfold join
  split_ifs with hn
  · rw [List.takeWhile_eq_self_iff.mpr ha, List.dropWhile_eq_nil_iff.mpr ha, hn]
    exact ⟨rfl, rfl⟩
  · rw [List.takeWhile_append_of_pos ha, List.dropWhile_append_of_pos ha]
    simp

theorem not_point_of_isDigit {digit : Char} (hd : digit.isDigit = true) :
    digit ≠ '.' ∧ digit ≠ '-' ∧ digit ≠ '+' := by
  refine ⟨?_, ?_, ?_⟩ <;> rintro rfl <;> cases hd

theorem ofText_join {whole fraction : List Char} (hw : whole ≠ [])
    (hd : ∀ digit ∈ whole ++ fraction, digit.isDigit = true) :
    ofText (signText negative ++ join whole fraction) =
      some ⟨negative, Nat.ofDigitChars 10 (whole ++ fraction) 0, -fraction.length⟩ := by
  obtain ⟨first, rest, rfl⟩ := List.exists_cons_of_ne_nil hw
  have hf := not_point_of_isDigit (hd first (by simp))
  have hp : ∀ digit ∈ first :: rest, digit ≠ '.' := fun digit hdi =>
    (not_point_of_isDigit (hd digit (List.mem_append_left _ hdi))).1
  obtain ⟨ht, hdr⟩ := @takeWhile_join (first :: rest) fraction hp
  have hu : ∃ later, join (first :: rest) fraction = first :: later := by
    unfold join
    split_ifs
    · exact ⟨rest, rfl⟩
    · exact ⟨rest ++ '.' :: fraction, rfl⟩
  obtain ⟨later, hl⟩ := hu
  have ha : (first :: rest ++ fraction).all Char.isDigit = true := List.all_eq_true.mpr hd
  cases negative with
  | true =>
    simp only [signText, if_true, List.singleton_append, ofText, List.head?_cons, List.tail_cons,
      decide_true, Bool.true_or, ht, hdr, ha]
    rfl
  | false =>
    have hh : (join (first :: rest) fraction).head? = some first := by rw [hl]; rfl
    simp only [signText, Bool.false_eq_true, if_false, List.nil_append, ofText, hh,
      Option.some.injEq, hf.2.1, hf.2.2, decide_false, Bool.or_self, ht, hdr, ha]
    rfl

theorem exists_zeros (digits : List Char) :
    ∃ count, digits = digits.rdropWhile (· = '0') ++ List.replicate count '0' := by
  induction digits using List.reverseRecOn with
  | nil => exact ⟨0, rfl⟩
  | append_singleton digits digit ih =>
    by_cases hz : digit = '0'
    · obtain ⟨count, hc⟩ := ih
      refine ⟨count + 1, ?_⟩
      rw [List.rdropWhile_concat_pos _ _ _ (by simp [hz]), List.replicate_succ',
        ← List.append_assoc, ← hc, hz]
    · refine ⟨0, ?_⟩
      rw [List.rdropWhile_concat_neg _ _ _ (by simp [hz]), List.replicate_zero, List.append_nil]

theorem ofText_plainText (decimal : FiniteDecimal) :
    ∃ read, ofText decimal.plainText = some read ∧ read.negative = decimal.negative ∧
      read.value = decimal.value := by
  obtain ⟨hw, hd⟩ := @parts_digits decimal.coefficient decimal.exponent
  have hp := @ofDigitChars_parts decimal.coefficient decimal.exponent
  obtain ⟨count, hc⟩ := exists_zeros (parts decimal.coefficient decimal.exponent).2
  have hk : ∀ digit ∈ (parts decimal.coefficient decimal.exponent).1 ++
      (parts decimal.coefficient decimal.exponent).2.rdropWhile (· = '0'),
      digit.isDigit = true := by
    intro digit hdi
    refine hd digit ((List.mem_append.mp hdi).elim (List.mem_append_left _) fun hm => ?_)
    exact List.mem_append_right _ ((List.rdropWhile_prefix _ _).subset hm)
  refine ⟨_, ofText_join hw hk, rfl, ?_⟩
  -- every zero that is kept out is a power of ten in both factors
  have hs : (Nat.ofDigitChars 10 ((parts decimal.coefficient decimal.exponent).1 ++
      (parts decimal.coefficient decimal.exponent).2.rdropWhile (· = '0')) 0 : ℚ) *
        10 ^ (-(((parts decimal.coefficient decimal.exponent).2.rdropWhile
          (· = '0')).length : ℤ)) = decimal.coefficient * 10 ^ decimal.exponent := by
    rw [← hp]
    generalize (parts decimal.coefficient decimal.exponent).2.rdropWhile (· = '0') = kept at hc
    have ht : (10 : ℚ) ≠ 0 := by norm_num
    rw [hc, ← List.append_assoc, Nat.ofDigitChars_append _ (m := List.replicate count '0'),
      Nat.ofDigitChars_replicate_zero, List.length_append, List.length_replicate]
    push_cast
    rw [neg_add, zpow_add₀ ht, zpow_neg 10 (count : ℤ), zpow_natCast]
    field_simp
  simp only [value]
  rw [hs]

theorem plainText_eq_iff (hd : ¬ decimal.IsNegativeZero) (ho : ¬ other.IsNegativeZero) :
    decimal.plainText = other.plainText ↔ decimal.value = other.value := by
  refine ⟨fun ht => ?_, fun hv => plainText_eq_of_value hv hd ho⟩
  obtain ⟨read, hre, -, hv⟩ := ofText_plainText decimal
  obtain ⟨read', hr, -, hva⟩ := ofText_plainText other
  rw [ht, hr] at hre
  rw [← hv, ← hva, Option.some.inj hre]

end PlainText

end FiniteDecimal

end AiQuant.Lib
