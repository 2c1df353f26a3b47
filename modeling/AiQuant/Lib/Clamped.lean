import Mathlib.Algebra.BigOperators.Group.List.Basic
import Mathlib.Algebra.Order.Group.Defs
import Mathlib.Algebra.Order.Group.MinMax
import Mathlib.Data.List.Infix

/-! Running totals that cannot fall below zero.  Clamping after every step forgets a
deficit at once, clamping the final total carries it along: the two agree exactly when no
earlier total lies below both zero and the final one. -/
namespace AiQuant.Lib

section Clamped

variable {α : Type} [AddCommGroup α] [LinearOrder α] [IsOrderedAddMonoid α]

def clampedTotal (deltas : List α) : α :=
  deltas.foldl (fun total delta => max 0 (total + delta)) 0

omit [IsOrderedAddMonoid α] in
theorem clampedTotal_concat (deltas : List α) (delta : α) :
    clampedTotal (deltas ++ [delta]) = max 0 (clampedTotal deltas + delta) := by
  rw [clampedTotal, List.foldl_concat]
  rfl

omit [IsOrderedAddMonoid α] in
theorem clampedTotal_nonneg (deltas : List α) : 0 ≤ clampedTotal deltas := by
  induction deltas using List.reverseRecOn with
  | nil => exact le_rfl
  | append_singleton deltas delta _ =>
    rw [clampedTotal_concat]
    exact le_max_left _ _

theorem clampedTotal_le_iff {deltas : List α} {bound : α} :
    clampedTotal deltas ≤ bound ↔ ∀ last, last <:+ deltas → last.sum ≤ bound := by
  induction deltas using List.reverseRecOn generalizing bound with
  | nil => simp [clampedTotal]
  | append_singleton deltas delta ih =>
    rw [clampedTotal_concat, max_le_iff, ← le_sub_iff_add_le, ih]
    constructor
    · rintro ⟨hb, hla⟩ last hs
      rcases List.suffix_concat_iff.mp hs with rfl | ⟨rest, rfl, hr⟩
      · exact hb
      · rw [List.sum_append, List.sum_singleton]
        exact le_sub_iff_add_le.mp (hla rest hr)
    · intro ha
      refine ⟨ha [] (List.nil_suffix), fun last hla => ?_⟩
      have hl := ha (last ++ [delta]) (List.suffix_concat_iff.mpr (Or.inr ⟨last, rfl, hla⟩))
      rw [List.sum_append, List.sum_singleton] at hl
      exact le_sub_iff_add_le.mpr hl

theorem clampedTotal_eq_max_iff {deltas : List α} : clampedTotal deltas = max 0 deltas.sum ↔
      ∀ first, first <+: deltas → min 0 deltas.sum ≤ first.sum := by
  have hge : max 0 deltas.sum ≤ clampedTotal deltas :=
    max_le (clampedTotal_nonneg deltas) (clampedTotal_le_iff.mp le_rfl deltas List.suffix_rfl)
  rw [le_antisymm_iff, and_iff_left hge, clampedTotal_le_iff]
  -- a first and a last part make up the whole total
  have hp : ∀ first last, first ++ last = deltas →
      (last.sum ≤ max 0 deltas.sum ↔ min 0 deltas.sum ≤ first.sum) := by
    rintro first last rfl
    calc last.sum ≤ max 0 (first ++ last).sum
        ↔ first.sum + last.sum ≤ first.sum + max 0 (first ++ last).sum :=
          (add_le_add_iff_left first.sum).symm
      _ ↔ max 0 (first ++ last).sum + min 0 (first ++ last).sum ≤
            max 0 (first ++ last).sum + first.sum := by
          rw [max_add_min, zero_add, List.sum_append, add_comm first.sum (max 0 _)]
      _ ↔ min 0 (first ++ last).sum ≤ first.sum := add_le_add_iff_left _
  constructor
  · rintro hl first ⟨last, hs⟩
    exact (hp first last hs).mp (hl last ⟨first, hs⟩)
  · rintro hf last ⟨first, hs⟩
    exact (hp first last hs).mpr (hf first ⟨last, hs⟩)

end Clamped

end AiQuant.Lib
