import Mathlib.Algebra.Order.Group.Defs
import Mathlib.Algebra.Order.Sub.Basic
import Mathlib.Data.List.Basic

/-! Sliding windows over a log of times, the oldest first.  Dropping from the front what has left
the window finds what a look through the whole log finds, and a log to which a time is only added
when its window has room never has more than that in any window. -/
namespace AiQuant.Lib.SlidingWindow

variable {α : Type} [AddCommGroup α] [LinearOrder α] [IsOrderedAddMonoid α]
  {width now : α} {log : List α} {limit : ℕ}

/-- How much of the log the window of this width that ends now holds. -/
def held (width now : α) (log : List α) : ℕ :=
  log.countP fun time => now - width < time ∧ time ≤ now

omit [AddCommGroup α] [IsOrderedAddMonoid α] in
theorem dropWhile_eq_filter (ho : log.Pairwise (· ≤ ·)) (bound : α) :
    log.dropWhile (· ≤ bound) = log.filter (bound < ·) := by
  induction log with
  | nil => rfl
  | cons first log ih =>
    rw [List.pairwise_cons] at ho
    by_cases hb : first ≤ bound
    · rw [List.dropWhile_cons_of_pos (by simpa using hb), ih ho.2,
        List.filter_cons_of_neg (by simpa using hb)]
    · have hall : ∀ time ∈ first :: log, decide (bound < time) = true := by
        intro time ht
        rcases List.mem_cons.mp ht with rfl | ht
        · exact decide_eq_true (not_le.mp hb)
        · exact decide_eq_true ((not_le.mp hb).trans_le (ho.1 time ht))
      rw [List.dropWhile_cons_of_neg (by simpa using hb), List.filter_eq_self.mpr hall]

omit [IsOrderedAddMonoid α] in
theorem length_filter_eq_held (hl : ∀ time ∈ log, time ≤ now) :
    (log.filter (now - width < ·)).length = held width now log := by
  rw [held, ← List.countP_eq_length_filter]
  apply List.countP_congr
  intro time ht
  simp [hl time ht]

inductive Bounded (width : α) (limit : ℕ) : List α → Prop
  | nil : Bounded width limit []
  | append {log : List α} {now : α} (hlog : Bounded width limit log)
      (hlatest : ∀ time ∈ log, time ≤ now) (hroom : held width now log < limit) :
      Bounded width limit (log ++ [now])

/-- A window that holds the last time lies, up to it, in the window that the last time ends. -/
theorem Bounded.held_le (hb : Bounded width limit log) (now : α) : held width now log ≤ limit := by
  induction hb with
  | nil => exact Nat.zero_le _
  | @append log last _ hlatest hroom ih =>
    rw [held, List.countP_append, List.countP_singleton]
    split_ifs with hlast
    · rw [decide_eq_true_eq] at hlast
      have hle : log.countP (fun time => now - width < time ∧ time ≤ now) ≤
          held width last log := by
        apply List.countP_mono_left
        intro time ht hin
        rw [decide_eq_true_eq] at hin ⊢
        exact ⟨(sub_le_sub_right hlast.2 width).trans_lt hin.1, hlatest time ht⟩
      omega
    · exact ih

end AiQuant.Lib.SlidingWindow
