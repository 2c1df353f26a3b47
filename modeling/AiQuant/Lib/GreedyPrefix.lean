import Mathlib.Algebra.Order.Group.Defs
import Mathlib.Algebra.BigOperators.Group.List.Basic
import Mathlib.Order.Basic

/-! Taking items off a total, in a fixed order, while the total exceeds a limit.  What is taken
is a beginning of the order; it is the shortest one that is enough. -/
namespace AiQuant.Lib

variable {α M : Type} [AddCommGroup M] [LinearOrder M]

/-- The items that are taken off `total`. -/
def takeWhileOver (weight : α → M) (limit : M) : List α → M → List α
  | [], _ => []
  | item :: rest, total =>
    if total ≤ limit then []
    else item :: takeWhileOver weight limit rest (total - weight item)

variable {weight : α → M} {limit total : M} {items : List α}

theorem takeWhileOver_of_le (hw : total ≤ limit) : takeWhileOver weight limit items total = [] := by
  cases items with
  | nil => rfl
  | cons item rest => rw [takeWhileOver, if_pos hw]

theorem takeWhileOver_prefix : takeWhileOver weight limit items total <+: items := by
  induction items generalizing total with
  | nil => exact List.prefix_rfl
  | cons item rest ih =>
    rw [takeWhileOver]
    split_ifs
    · exact List.nil_prefix
    · exact List.prefix_cons_inj item |>.mpr ih

theorem takeWhileOver_enough :
    total - ((takeWhileOver weight limit items total).map weight).sum ≤ limit ∨
      takeWhileOver weight limit items total = items := by
  induction items generalizing total with
  | nil => exact .inr rfl
  | cons item rest ih =>
    rw [takeWhileOver]
    split_ifs with hw
    · left
      rw [List.map_nil, List.sum_nil, sub_zero]
      exact hw
    · rw [List.map_cons, List.sum_cons, ← sub_sub]
      exact ih.imp id fun hr => congrArg (item :: ·) hr

theorem takeWhileOver_needed {fewer more : List α} {last : α}
    (hs : takeWhileOver weight limit items total = fewer ++ last :: more) :
    limit < total - (fewer.map weight).sum := by
  induction items generalizing total fewer with
  | nil => cases fewer <;> cases hs
  | cons item rest ih =>
    rw [takeWhileOver] at hs
    split_ifs at hs with hw
    · cases fewer <;> cases hs
    · cases fewer with
      | nil =>
        rw [List.map_nil, List.sum_nil, sub_zero]
        exact not_le.mp hw
      | cons first fewer =>
        obtain ⟨rfl, hr⟩ := List.cons.inj hs
        rw [List.map_cons, List.sum_cons, ← sub_sub]
        exact ih hr

end AiQuant.Lib
