import Mathlib.Algebra.BigOperators.Group.List.Basic
import Mathlib.Algebra.Order.Field.Rat
import Mathlib.Algebra.Order.Ring.Rat
import Mathlib.Data.List.Count
import Mathlib.Tactic.Linarith
import Mathlib.Tactic.Ring

/-! The middle rank of a value among those of a list: how many lie below it, and half of the
others that are equal to it.  Ties change the ranks, not their total. -/
namespace AiQuant.Lib

variable {α : Type}

section Counting

theorem sum_countP_comm (relation : α → α → Bool) (left right : List α) :
    (left.map fun first => right.countP fun second => relation first second).sum =
      (right.map fun second => left.countP fun first => relation first second).sum := by
  induction left with
  | nil => simp
  | cons first rest ih =>
    have hf : ∀ items : List α,
        (items.map fun second => (first :: rest).countP fun item => relation item second).sum =
          (items.countP fun second => relation first second) +
            (items.map fun second => rest.countP fun item => relation item second).sum := by
      intro items
      induction items with
      | nil => rfl
      | cons second items ih =>
        rw [List.map_cons, List.sum_cons, ih, List.map_cons, List.sum_cons, List.countP_cons,
          List.countP_cons]
        omega
    rw [List.map_cons, List.sum_cons, ih, hf]

variable [LinearOrder α]

theorem countP_trichotomy (values : List α) (value : α) :
    values.countP (· < value) + values.count value + values.countP (value < ·) = values.length := by
  induction values with
  | nil => rfl
  | cons first rest ih =>
    rw [List.countP_cons, List.countP_cons, List.count_cons, List.length_cons]
    rcases lt_trichotomy first value with hlt | rfl | hgt
    · simp only [hlt, hlt.ne, not_lt_of_gt hlt, decide_true, decide_false, if_true, beq_iff_eq,
        if_false, Bool.false_eq_true]
      omega
    · simp only [lt_irrefl, decide_false, beq_self_eq_true, if_true, Bool.false_eq_true, if_false]
      omega
    · simp only [hgt, hgt.ne', not_lt_of_gt hgt, decide_true, decide_false, if_true, beq_iff_eq,
        if_false, Bool.false_eq_true]
      omega

end Counting

variable [LinearOrder α]

def midrank (values : List α) (value : α) : ℚ :=
  (values.countP (· < value) : ℚ) + ((values.count value : ℚ) - 1) / 2

variable {values other : List α} {value larger : α}

theorem midrank_perm (hp : values.Perm other) (value : α) :
    midrank values value = midrank other value := by
  rw [midrank, midrank, hp.countP_eq, hp.count_eq]

theorem one_le_count (hm : value ∈ values) : (1 : ℚ) ≤ values.count value :=
  Nat.one_le_cast.mpr (List.count_pos_iff.mpr hm)

theorem midrank_nonneg (hm : value ∈ values) : 0 ≤ midrank values value := by
  have hc := one_le_count hm
  have hl : (0 : ℚ) ≤ values.countP (· < value) := Nat.cast_nonneg _
  rw [midrank]
  linarith

theorem midrank_le (hm : value ∈ values) : midrank values value ≤ values.length - 1 := by
  have hc := one_le_count hm
  have ha : (values.countP (· < value) + values.count value : ℚ) ≤ values.length := by
    exact_mod_cast (Nat.le_add_right _ _).trans_eq (countP_trichotomy values value)
  rw [midrank]
  linarith

theorem countP_lt_add_count_le (hl : value < larger) (values : List α) :
    values.countP (· < value) + values.count value ≤ values.countP (· < larger) := by
  induction values with
  | nil => exact le_rfl
  | cons first rest ih =>
    rw [List.countP_cons, List.count_cons, List.countP_cons]
    rcases lt_trichotomy first value with hlt | rfl | hgt
    · simp only [hlt, hlt.ne, hlt.trans hl, decide_true, if_true, beq_iff_eq, if_false]
      omega
    · simp only [lt_irrefl, hl, decide_false, decide_true, beq_self_eq_true, if_true,
        Bool.false_eq_true, if_false]
      omega
    · simp only [not_lt_of_gt hgt, hgt.ne', decide_false, beq_iff_eq, if_false, Bool.false_eq_true]
      omega

theorem midrank_mono (hle : value ≤ larger) (hm : larger ∈ values) :
    midrank values value ≤ midrank values larger := by
  rcases hle.eq_or_lt with rfl | hl
  · exact le_rfl
  · have hb : (values.countP (· < value) + values.count value : ℚ) ≤
        values.countP (· < larger) := by
      exact_mod_cast countP_lt_add_count_le hl values
    have hn : (0 : ℚ) ≤ values.count value := Nat.cast_nonneg _
    have hc := one_le_count hm
    rw [midrank, midrank]
    linarith

theorem sum_map_midrank (values items : List α) : (items.map (midrank values)).sum =
      ((items.map fun value => values.countP (· < value)).sum : ℚ) +
        (((items.map values.count).sum : ℚ) - items.length) / 2 := by
  induction items with
  | nil => simp
  | cons first rest ih =>
    simp only [List.map_cons, List.sum_cons, ih, midrank, Nat.cast_add, List.length_cons,
      Nat.cast_one]
    ring

theorem sum_map_trichotomy (values items : List α) :
    (items.map fun value => values.countP (· < value)).sum + (items.map values.count).sum +
      (items.map fun value => values.countP (value < ·)).sum = items.length * values.length := by
  induction items with
  | nil => simp
  | cons first rest ih =>
    have hf := countP_trichotomy values first
    simp only [List.map_cons, List.sum_cons, List.length_cons, Nat.add_mul, Nat.one_mul]
    omega

theorem sum_midrank (values : List α) :
    (values.map (midrank values)).sum = values.length * (values.length - 1) / 2 := by
  have ha := sum_map_trichotomy values values
  have hs : (values.map fun value => values.countP (value < ·)).sum =
      (values.map fun value => values.countP (· < value)).sum :=
    sum_countP_comm (fun first second => decide (first < second)) values values
  rw [hs] at ha
  have hc : (((values.map fun value => values.countP (· < value)).sum : ℕ) : ℚ) * 2 +
      ((values.map values.count).sum : ℕ) = values.length * values.length := by
    rw [← Nat.cast_mul, ← ha]
    push_cast
    ring
  rw [sum_map_midrank]
  linarith

end AiQuant.Lib
