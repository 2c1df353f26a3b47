import Mathlib.Logic.Function.Basic
import Mathlib.Order.Defs.Unbundled

/-! Tables that lose no entry: what an entry turns into is related to what it was. -/
namespace AiQuant.Lib

variable {κ α : Type}

/-- Every entry of the first table is in the second, changed at most as the relation allows. -/
def Persists (related : α → α → Prop) (before after : κ → Option α) : Prop :=
  ∀ key value, before key = some value → ∃ later, after key = some later ∧ related value later

namespace Persists

variable {rel : α → α → Prop} {pre mid post : κ → Option α}

theorem refl [Std.Refl rel] (table : κ → Option α) : Persists rel table table :=
  fun _ value hv => ⟨value, hv, Std.Refl.refl value⟩

theorem trans [IsTrans α rel] (hf : Persists rel pre mid)
    (hs : Persists rel mid post) : Persists rel pre post := by
  intro key value hv
  obtain ⟨other, ho, hr⟩ := hf key value hv
  obtain ⟨last, hl, hla⟩ := hs key other ho
  exact ⟨last, hl, IsTrans.trans _ _ _ hr hla⟩

theorem update [DecidableEq κ] [Std.Refl rel] {name : κ} {entry : α}
    (ho : ∀ old, pre name = some old → rel old entry) :
    Persists rel pre (Function.update pre name (some entry)) := by
  intro key value hv
  by_cases hk : key = name
  · rw [hk, Function.update_self]
    exact ⟨entry, rfl, ho value (hk ▸ hv)⟩
  · rw [Function.update_of_ne hk]
    exact ⟨value, hv, Std.Refl.refl value⟩

end Persists

end AiQuant.Lib
