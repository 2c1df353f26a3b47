import AiQuant.Lib.KeyedList
import Mathlib.Logic.Function.Basic

/-! Filling vacant slots in order.  Members that hold a slot stay; if there are as many newcomers
as vacancies, every newcomer gets one, in the order in which they come. -/
namespace AiQuant.Lib

variable {σ α : Type}

def entries : List σ → (σ → Option α) → Option (List (σ × α))
  | [], _ => some []
  | slot :: slots, holder =>
    (holder slot).bind fun member => (entries slots holder).map ((slot, member) :: ·)

variable {slots : List σ} {holder final : σ → Option α} {newcomers : List α}
variable {listed other : List (σ × α)}

theorem entries_spec (hf : ∀ slot ∈ slots, final slot ≠ none) :
    ∃ listed, entries slots final = some listed ∧ listed.map Prod.fst = slots ∧
      listed.map (fun entry => some entry.2) = slots.map final ∧
      ∀ entry ∈ listed, final entry.1 = some entry.2 := by
  induction slots with
  | nil => exact ⟨[], rfl, rfl, rfl, by simp⟩
  | cons slot slots ih =>
    obtain ⟨listed, hl, hs, hme, ha⟩ := ih fun other ho =>
      hf other (List.mem_cons_of_mem _ ho)
    obtain ⟨member, hm⟩ := Option.ne_none_iff_exists'.mp (hf slot List.mem_cons_self)
    refine ⟨(slot, member) :: listed, by rw [entries, hm, hl]; rfl, ?_, ?_, ?_⟩
    · rw [List.map_cons, hs]
    · rw [List.map_cons, List.map_cons, hme, hm]
    · intro entry he
      rcases List.mem_cons.mp he with rfl | he
      · exact hm
      · exact ha entry he

theorem eq_of_same_slots (hn : (listed.map Prod.fst).Nodup)
    (hs : other.map Prod.fst = listed.map Prod.fst) (hsub : listed ⊆ other) : other = listed := by
  induction listed generalizing other with
  | nil => exact List.map_eq_nil_iff.mp hs
  | cons entry listed ih =>
    obtain ⟨first, other, rfl⟩ := List.exists_cons_of_ne_nil
      (List.ne_nil_of_mem (hsub List.mem_cons_self))
    obtain ⟨hf, hr⟩ := List.cons.inj hs
    obtain ⟨hnew, hn⟩ := List.nodup_cons.mp hn
    have he : entry = first := by
      refine (List.mem_cons.mp (hsub List.mem_cons_self)).resolve_right fun hm => hnew ?_
      rw [← hr]
      exact List.mem_map_of_mem hm
    rw [he, ih hn hr fun later hl => ?_]
    refine (List.mem_cons.mp (hsub (List.mem_cons_of_mem _ hl))).resolve_left fun hsa => hnew ?_
    rw [he, ← hsa]
    exact List.mem_map_of_mem hl

variable [DecidableEq σ]

/-- Each vacant slot takes the next newcomer; `none` when they run out. -/
def fillVacant : List σ → (σ → Option α) → List α → Option (σ → Option α)
  | [], holder, _ => some holder
  | slot :: slots, holder, newcomers =>
    if (holder slot).isSome then fillVacant slots holder newcomers
    else match newcomers with
      | [] => none
      | newcomer :: rest => fillVacant slots (Function.update holder slot (some newcomer)) rest

def holderIn (listed : List (σ × α)) (slot : σ) : Option α :=
  (listed.find? (·.1 = slot)).map Prod.snd

theorem fillVacant_spec (hn : slots.Nodup)
    (hc : (slots.filter fun slot => holder slot = none).length = newcomers.length) :
    ∃ final, fillVacant slots holder newcomers = some final ∧
      (∀ slot, holder slot ≠ none → final slot = holder slot) ∧
      (slots.filter fun slot => holder slot = none).map final = newcomers.map some := by
  induction slots generalizing holder newcomers with
  | nil =>
    obtain rfl := List.eq_nil_of_length_eq_zero hc.symm
    exact ⟨holder, rfl, fun _ _ => rfl, rfl⟩
  | cons slot slots ih =>
    obtain ⟨hnew, hr⟩ := List.nodup_cons.mp hn
    cases hs : holder slot with
    | some member =>
      rw [List.filter_cons_of_neg (by simp [hs])] at hc ⊢
      obtain ⟨final, hf, hk, hm⟩ := ih hr hc
      refine ⟨final, ?_, hk, hm⟩
      cases newcomers <;> rw [fillVacant, if_pos (by simp [hs]), hf]
    | none =>
      rw [List.filter_cons_of_pos (by simp [hs])] at hc ⊢
      cases newcomers with
      | nil => cases hc
      | cons newcomer rest =>
        -- the slot is not among the rest, whose vacancies stay the same
        have hsa : (slots.filter fun other =>
              Function.update holder slot (some newcomer) other = none) =
            slots.filter fun other => holder other = none := by
          refine List.filter_congr fun other ho => ?_
          have hne : other ≠ slot := fun he => hnew (he ▸ ho)
          rw [Function.update_of_ne hne]
        obtain ⟨final, hf, hk, hm⟩ := @ih (Function.update holder slot (some newcomer)) rest hr
          (by rw [hsa]; exact Nat.succ.inj hc)
        rw [hsa] at hm
        refine ⟨final, by rw [fillVacant, if_neg (by simp [hs])]; exact hf, fun other ho => ?_, ?_⟩
        · have hne : other ≠ slot := fun he => ho (he ▸ hs)
          rw [hk other (by rwa [Function.update_of_ne hne]), Function.update_of_ne hne]
        · rw [List.map_cons, List.map_cons, hm,
            hk slot (by rw [Function.update_self]; exact Option.some_ne_none _),
            Function.update_self]

theorem holderIn_of_mem {slot : σ} {member : α} (hn : (listed.map Prod.fst).Nodup)
    (hm : (slot, member) ∈ listed) : holderIn listed slot = some member := by
  have hf := @KeyedList.lookup_of_mem _ _ _ _ ⟨listed, hn⟩ _ hm
  exact congrArg (Option.map Prod.snd) hf

theorem filterMap_holderIn (hn : (listed.map Prod.fst).Nodup) :
    (listed.map Prod.fst).filterMap (holderIn listed) = listed.map Prod.snd := by
  have ha : ∀ entry ∈ listed, (holderIn listed ∘ Prod.fst) entry = some entry.2 :=
    fun _ he => holderIn_of_mem hn he
  rw [List.filterMap_map, List.filterMap_congr ha]
  exact congrFun List.filterMap_eq_map listed

end AiQuant.Lib
