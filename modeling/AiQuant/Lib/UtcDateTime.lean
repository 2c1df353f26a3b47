import AiQuant.Lib.DecimalContext

/-! A `datetime` with the offset of UTC.  Its fields, its instant and its text determine one
another. -/
namespace AiQuant.Lib

def isLeap (year : ℕ) : Bool :=
  year % 4 = 0 && (year % 100 ≠ 0 || year % 400 = 0)

def daysInMonth (year : ℕ) : ℕ → ℕ
  | 0 => 0
  | 2 => if isLeap year then 29 else 28
  | 4 => 30
  | 6 => 30
  | 9 => 30
  | 11 => 30
  | _ => 31

def daysBeforeMonth (year : ℕ) : ℕ → ℕ
  | 0 => 0
  | month + 1 => daysBeforeMonth year month + daysInMonth year month

def daysBeforeYear (year : ℕ) : ℕ :=
  (year - 1) * 365 + (year - 1) / 4 - (year - 1) / 100 + (year - 1) / 400

structure UtcDateTime where
  year : ℕ
  month : ℕ
  day : ℕ
  hour : ℕ
  minute : ℕ
  second : ℕ
  microsecond : ℕ
  year_mem : 1 ≤ year ∧ year ≤ 9999
  month_mem : 1 ≤ month ∧ month ≤ 12
  day_mem : 1 ≤ day ∧ day ≤ daysInMonth year month
  hour_lt : hour < 24
  minute_lt : minute < 60
  second_lt : second < 60
  microsecond_lt : microsecond < 1000000

def fixedDigits : ℕ → ℕ → List Char
  | 0, _ => []
  | width + 1, value => fixedDigits width (value / 10) ++ [Nat.digitChar (value % 10)]

def nearestDouble (value : ℚ) : ℚ :=
  roundHalfEven (value / 2 ^ (Int.log 2 |value| - 52)) * 2 ^ (Int.log 2 |value| - 52)

theorem abs_nearestDouble_sub_le (value : ℚ) :
    |nearestDouble value - value| ≤ 1 / 2 ^ 53 * |value| := by
  by_cases hv : value = 0
  · rw [hv, nearestDouble, zero_div]
    norm_num [roundHalfEven]
  · have hp : (0 : ℚ) < 2 ^ (Int.log 2 |value| - 52) := zpow_pos (by norm_num) _
    have hs : nearestDouble value - value = (roundHalfEven (value / 2 ^ (Int.log 2 |value| - 52)) -
          value / 2 ^ (Int.log 2 |value| - 52)) * 2 ^ (Int.log 2 |value| - 52) := by
      rw [nearestDouble, sub_mul, div_mul_cancel₀ _ hp.ne']
    have hl : (2 : ℚ) ^ Int.log 2 |value| ≤ |value| := by
      exact_mod_cast Int.zpow_log_le_self (by norm_num : 1 < 2) (abs_pos.mpr hv)
    calc |nearestDouble value - value|
        = |(roundHalfEven (value / 2 ^ (Int.log 2 |value| - 52)) : ℚ) -
            value / 2 ^ (Int.log 2 |value| - 52)| * 2 ^ (Int.log 2 |value| - 52) := by
          rw [hs, abs_mul, abs_of_pos hp]
      _ ≤ 1 / 2 * 2 ^ (Int.log 2 |value| - 52) :=
          mul_le_mul_of_nonneg_right (abs_roundHalfEven_sub_le _) hp.le
      _ = 1 / 2 ^ 53 * 2 ^ Int.log 2 |value| := by
          rw [zpow_sub₀ (by norm_num)]
          norm_num
          ring
      _ ≤ 1 / 2 ^ 53 * |value| := mul_le_mul_of_nonneg_left hl (by norm_num)

namespace UtcDateTime

/-- `_ymd2ord` -/
def ordinal (moment : UtcDateTime) : ℕ :=
  daysBeforeYear moment.year + daysBeforeMonth moment.year moment.month + moment.day

def microseconds (moment : UtcDateTime) : ℕ :=
  (((moment.ordinal * 24 + moment.hour) * 60 + moment.minute) * 60 + moment.second) * 1000000 +
    moment.microsecond

/-- The microseconds since the epoch; 719163 is the ordinal of 1970-01-01. -/
def instant (moment : UtcDateTime) : ℤ :=
  (moment.microseconds : ℤ) - 719163 * 86400000000

/-- `int(moment.timestamp())` -/
def wholeTimestamp (moment : UtcDateTime) : ℤ :=
  let timestamp := nearestDouble (moment.instant / 1000000)
  if 0 ≤ timestamp then ⌊timestamp⌋ else ⌈timestamp⌉

def fractionText (microsecond : ℕ) : List Char :=
  if microsecond = 0 then [] else '.' :: fixedDigits 6 microsecond

/-- `moment.isoformat()` -/
def isoformat (moment : UtcDateTime) : List Char :=
  fixedDigits 4 moment.year ++ '-' :: (fixedDigits 2 moment.month ++
    '-' :: (fixedDigits 2 moment.day ++ 'T' :: (fixedDigits 2 moment.hour ++
      ':' :: (fixedDigits 2 moment.minute ++ ':' :: (fixedDigits 2 moment.second ++
        (fractionText moment.microsecond ++ ['+', '0', '0', ':', '0', '0']))))))

end UtcDateTime

section Calendar

variable {year month : ℕ}

theorem daysBeforeYear_succ (hy : 1 ≤ year) :
    daysBeforeYear (year + 1) = daysBeforeYear year + (if isLeap year then 366 else 365) := by
  obtain ⟨pre, rfl⟩ := Nat.exists_eq_add_of_le' hy
  have hc : pre / 100 ≤ pre := Nat.div_le_self _ _
  have hh : 100 ∣ pre + 1 → 4 ∣ pre + 1 := (show 4 ∣ 100 by decide).trans
  have hf : 400 ∣ pre + 1 → 100 ∣ pre + 1 := (show 100 ∣ 400 by decide).trans
  have hl : isLeap (pre + 1) = true ↔ 4 ∣ pre + 1 ∧ (¬ 100 ∣ pre + 1 ∨ 400 ∣ pre + 1) := by
    simp [isLeap, Nat.dvd_iff_mod_eq_zero]
  simp only [daysBeforeYear, Nat.add_sub_cancel, Nat.succ_div, hl]
  generalize pre / 4 = fours at *
  generalize pre / 100 = hundreds at *
  generalize pre / 400 = fourHundreds at *
  by_cases h4 : 4 ∣ pre + 1
  · by_cases h100 : 100 ∣ pre + 1
    · by_cases h400 : 400 ∣ pre + 1
      · simp only [h4, h100, h400, if_true, or_true, and_self]
        omega
      · simp only [h4, h100, h400, if_true, if_false, not_true, or_self, and_false]
        omega
    · have h400 : ¬ 400 ∣ pre + 1 := fun hd => h100 (hf hd)
      simp only [h4, h100, h400, if_true, if_false, not_false_iff, true_or, and_self]
      omega
  · have h100 : ¬ 100 ∣ pre + 1 := fun hd => h4 (hh hd)
    have h400 : ¬ 400 ∣ pre + 1 := fun hd => h100 (hf hd)
    simp only [h4, h100, h400, if_false, false_and]
    omega

theorem daysBeforeYear_mono (hy : 1 ≤ year) {later : ℕ} (hle : year ≤ later) :
    daysBeforeYear year ≤ daysBeforeYear later := by
  induction later, hle using Nat.le_induction with
  | base => exact le_rfl
  | succ later hle ih =>
    rw [daysBeforeYear_succ (hy.trans hle)]
    exact ih.trans (Nat.le_add_right _ _)

theorem daysBeforeMonth_mono {later : ℕ} (hle : month ≤ later) :
    daysBeforeMonth year month ≤ daysBeforeMonth year later := by
  induction later, hle using Nat.le_induction with
  | base => exact le_rfl
  | succ later _ ih => exact ih.trans (Nat.le_add_right _ _)

theorem daysBeforeMonth_thirteen (year : ℕ) :
    daysBeforeMonth year 13 = if isLeap year then 366 else 365 := by
  simp only [daysBeforeMonth, daysInMonth]
  split_ifs <;> rfl

end Calendar

namespace UtcDateTime

variable {moment other : UtcDateTime}

theorem ordinal_lt_of_year_lt (hlt : moment.year < other.year) : moment.ordinal < other.ordinal := by
  have hm := @daysBeforeMonth_mono moment.year (moment.month + 1) 13
    (by have := moment.month_mem; omega)
  rw [daysBeforeMonth_thirteen, daysBeforeMonth] at hm
  have hy := daysBeforeYear_mono (Nat.le_add_left 1 _) (Nat.succ_le_of_lt hlt)
  rw [daysBeforeYear_succ moment.year_mem.1] at hy
  have hd := moment.day_mem
  have ho := other.day_mem
  unfold ordinal
  omega

theorem ordinal_lt_of_month_lt (hy : moment.year = other.year)
    (hlt : moment.month < other.month) : moment.ordinal < other.ordinal := by
  have hm := @daysBeforeMonth_mono other.year (moment.month + 1) other.month hlt
  have hd := moment.day_mem
  have ho := other.day_mem
  rw [daysBeforeMonth] at hm
  unfold ordinal
  rw [hy] at hd ⊢
  omega

theorem eq_of_ordinal (ho : moment.ordinal = other.ordinal) :
    moment.year = other.year ∧ moment.month = other.month ∧ moment.day = other.day := by
  have hy : moment.year = other.year := by
    rcases lt_trichotomy moment.year other.year with hlt | heq | hlt
    · exact absurd ho (ordinal_lt_of_year_lt hlt).ne
    · exact heq
    · exact absurd ho (ordinal_lt_of_year_lt hlt).ne'
  have hm : moment.month = other.month := by
    rcases lt_trichotomy moment.month other.month with hlt | heq | hlt
    · exact absurd ho (ordinal_lt_of_month_lt hy hlt).ne
    · exact heq
    · exact absurd ho (ordinal_lt_of_month_lt hy.symm hlt).ne'
  refine ⟨hy, hm, ?_⟩
  unfold ordinal at ho
  rw [hy, hm] at ho
  omega

theorem ext_fields (hy : moment.year = other.year) (hmo : moment.month = other.month)
    (hd : moment.day = other.day) (hh : moment.hour = other.hour)
    (hmi : moment.minute = other.minute) (hs : moment.second = other.second)
    (hm : moment.microsecond = other.microsecond) : moment = other := by
  cases moment
  cases other
  congr

theorem eq_of_instant (hi : moment.instant = other.instant) : moment = other := by
  have hho := moment.hour_lt
  have hh := other.hour_lt
  have hminu := moment.minute_lt
  have hmin := other.minute_lt
  have hse := moment.second_lt
  have hs := other.second_lt
  have hmi := moment.microsecond_lt
  have hm := other.microsecond_lt
  unfold instant microseconds at hi
  have ho : moment.ordinal = other.ordinal := by omega
  obtain ⟨hy, hmo, hd⟩ := eq_of_ordinal ho
  refine ext_fields hy hmo hd ?_ ?_ ?_ ?_ <;> omega

end UtcDateTime

section Text

variable {width value other : ℕ} {rest rest' : List Char}

theorem length_fixedDigits (width value : ℕ) : (fixedDigits width value).length = width := by
  induction width generalizing value with
  | zero => rfl
  | succ width ih => rw [fixedDigits, List.length_append, ih, List.length_singleton]

theorem ofDigitChars_fixedDigits (width value : ℕ) :
    Nat.ofDigitChars 10 (fixedDigits width value) 0 = value % 10 ^ width := by
  induction width generalizing value with
  | zero => rw [pow_zero, Nat.mod_one, fixedDigits, Nat.ofDigitChars_nil]
  | succ width ih =>
    rw [fixedDigits, Nat.ofDigitChars_append, ih, pow_succ', Nat.mod_mul,
      Nat.ofDigitChars_cons_digitChar_of_lt_ten (Nat.mod_lt _ (by norm_num)), Nat.ofDigitChars_nil]
    omega

theorem fixedDigits_append_inj (hv : value < 10 ^ width) (ho : other < 10 ^ width)
    (ht : fixedDigits width value ++ rest = fixedDigits width other ++ rest') :
    value = other ∧ rest = rest' := by
  obtain ⟨hd, hr⟩ := List.append_inj ht (by rw [length_fixedDigits, length_fixedDigits])
  have hn := ofDigitChars_fixedDigits width value
  rw [hd, ofDigitChars_fixedDigits, Nat.mod_eq_of_lt hv, Nat.mod_eq_of_lt ho] at hn
  exact ⟨hn.symm, hr⟩

end Text

namespace UtcDateTime

theorem daysInMonth_le (year month : ℕ) : daysInMonth year month ≤ 31 := by
  unfold daysInMonth
  split
  · omega
  · split_ifs <;> omega
  all_goals omega

theorem fractionText_inj {first second : ℕ} (hf : first < 1000000)
    (hs : second < 1000000) (ht : fractionText first = fractionText second) : first = second := by
  unfold fractionText at ht
  split_ifs at ht with hze hz hz
  · rw [hze, hz]
  · obtain ⟨-, hd⟩ := List.cons.inj ht
    have hsa := @fixedDigits_append_inj 6 first second [] [] hf hs
      (by rw [List.append_nil, List.append_nil, hd])
    exact hsa.1

theorem eq_of_isoformat {moment other : UtcDateTime} (ht : moment.isoformat = other.isoformat) :
    moment = other := by
  have hb : ∀ each : UtcDateTime, each.year < 10 ^ 4 ∧ each.month < 10 ^ 2 ∧
      each.day < 10 ^ 2 ∧ each.hour < 10 ^ 2 ∧ each.minute < 10 ^ 2 ∧ each.second < 10 ^ 2 := by
    intro each
    have hyear := each.year_mem
    have hmo := each.month_mem
    have hday := each.day_mem
    have hd := daysInMonth_le each.year each.month
    have hhour := each.hour_lt
    have hm := each.minute_lt
    have hs := each.second_lt
    omega
  obtain ⟨hyear, hmo, hday, hhour, hm, hs⟩ := hb moment
  obtain ⟨hye, hmon, hda, hh, hmi, hse⟩ := hb other
  unfold isoformat at ht
  obtain ⟨hy, ht⟩ := fixedDigits_append_inj hyear hye ht
  obtain ⟨hmont, ht⟩ := fixedDigits_append_inj hmo hmon (List.cons.inj ht).2
  obtain ⟨hd, ht⟩ := fixedDigits_append_inj hday hda (List.cons.inj ht).2
  obtain ⟨hho, ht⟩ := fixedDigits_append_inj hhour hh (List.cons.inj ht).2
  obtain ⟨hmin, ht⟩ := fixedDigits_append_inj hm hmi (List.cons.inj ht).2
  obtain ⟨hsec, ht⟩ := fixedDigits_append_inj hs hse (List.cons.inj ht).2
  have hf := List.append_cancel_right ht
  exact ext_fields hy hmont hd hho hmin hsec
    (fractionText_inj moment.microsecond_lt other.microsecond_lt hf)

end UtcDateTime

end AiQuant.Lib
