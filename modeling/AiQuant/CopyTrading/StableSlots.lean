import AiQuant.CopyTrading.Models
import AiQuant.Lib.Vacancies
import Mathlib.Data.List.Perm.Basic

/-! `stable_slot_assignments` (`copy_trading/leader_slots.py`): a reselected leader keeps its
slot, and the others fill the vacated slots in the order of the ranking. -/
namespace AiQuant.CopyTrading
open AiQuant.Lib

structure SlotInputs where
  targetSlots : List LeaderSlot
  rankedLeaderIds : List String
  currentAssignments : LeaderSlot → Option String

namespace SlotInputs

variable (inputs : SlotInputs)

/-- What the first check raises at. -/
def Invalid : Prop :=
  inputs.targetSlots = [] ∨ inputs.rankedLeaderIds.length ≠ inputs.targetSlots.length ∨
    ¬inputs.targetSlots.Nodup ∨ ¬inputs.rankedLeaderIds.Nodup ∨
    ∃ leaderId ∈ inputs.rankedLeaderIds, leaderId = ""

instance : Decidable inputs.Invalid := inferInstanceAs (Decidable (_ ∨ _ ∨ _ ∨ _ ∨ _))

def incumbentIds : List String := inputs.targetSlots.filterMap inputs.currentAssignments

/-- `assigned` before the loop. -/
def kept (slot : LeaderSlot) : Option String :=
  if slot ∈ inputs.targetSlots then
    (inputs.currentAssignments slot).filter fun leaderId => leaderId ∈ inputs.rankedLeaderIds
  else none

/-- `set(assigned.values())` -/
def preserved : List String := inputs.targetSlots.filterMap inputs.kept

def newcomers : List String :=
  inputs.rankedLeaderIds.filter fun leaderId => leaderId ∉ inputs.preserved

def Accepted : Prop := ¬inputs.Invalid ∧ inputs.incumbentIds.Nodup

end SlotInputs

def stableSlotAssignments (inputs : SlotInputs) : Except String (List (LeaderSlot × String)) :=
  if inputs.Invalid then .error "copy stable slot assignment inputs are invalid"
  else if ¬inputs.incumbentIds.Nodup then
    .error "copy target slots contain a duplicate incumbent"
  else match fillVacant inputs.targetSlots inputs.kept inputs.newcomers with
    | none => .error "StopIteration"
    | some assigned =>
      match entries inputs.targetSlots assigned with
      | none => .error "KeyError"
      | some assignments => .ok assignments

/-- Every slot with one of the leaders, the incumbents where they were. -/
structure StableAssignment (inputs : SlotInputs) (assignments : List (LeaderSlot × String)) :
    Prop where
  slots : assignments.map Prod.fst = inputs.targetSlots
  leaders : (assignments.map Prod.snd).Perm inputs.rankedLeaderIds
  kept : ∀ slot ∈ inputs.targetSlots, ∀ leaderId ∈ inputs.rankedLeaderIds,
    inputs.currentAssignments slot = some leaderId → (slot, leaderId) ∈ assignments
  filled : (assignments.filter fun entry =>
      inputs.currentAssignments entry.1 ≠ some entry.2).map Prod.snd =
    inputs.rankedLeaderIds.filter fun leaderId => ∀ slot ∈ inputs.targetSlots,
      inputs.currentAssignments slot ≠ some leaderId

namespace SlotInputs

variable {inputs : SlotInputs}

theorem kept_eq_some {slot : LeaderSlot} {leaderId : String} :
    inputs.kept slot = some leaderId ↔ slot ∈ inputs.targetSlots ∧
      inputs.currentAssignments slot = some leaderId ∧ leaderId ∈ inputs.rankedLeaderIds := by
  rw [kept]
  split_ifs with hs <;> simp [hs, Option.filter_eq_some_iff]

theorem mem_preserved {leaderId : String} : leaderId ∈ inputs.preserved ↔
    leaderId ∈ inputs.rankedLeaderIds ∧ ∃ slot ∈ inputs.targetSlots,
      inputs.currentAssignments slot = some leaderId := by
  rw [preserved, List.mem_filterMap]
  constructor
  · rintro ⟨slot, hs, hk⟩
    obtain ⟨-, hc, hr⟩ := kept_eq_some.mp hk
    exact ⟨hr, slot, hs, hc⟩
  · rintro ⟨hr, slot, hs, hc⟩
    exact ⟨slot, hs, kept_eq_some.mpr ⟨hs, hc, hr⟩⟩

theorem newcomers_eq : inputs.newcomers = inputs.rankedLeaderIds.filter fun leaderId =>
    ∀ slot ∈ inputs.targetSlots, inputs.currentAssignments slot ≠ some leaderId := by
  refine List.filter_congr fun leaderId hr => ?_
  rw [decide_eq_decide, mem_preserved]
  constructor
  · intro hn slot hs hc
    exact hn ⟨hr, slot, hs, hc⟩
  · rintro hall ⟨-, slot, hs, hc⟩
    exact hall slot hs hc

theorem preserved_nodup (hn : inputs.incumbentIds.Nodup) : inputs.preserved.Nodup := by
  have hf : inputs.preserved =
      inputs.incumbentIds.filter fun leaderId => leaderId ∈ inputs.rankedLeaderIds := by
    rw [preserved, incumbentIds, List.filter_filterMap]
    exact List.filterMap_congr fun slot hs => by rw [kept, if_pos hs]
  rw [hf]
  exact hn.filter _

theorem map_some_filterMap (holder : LeaderSlot → Option String) (slots : List LeaderSlot) :
    (slots.filterMap holder).map some =
      (slots.filter fun slot => !decide (holder slot = none)).map holder := by
  induction slots with
  | nil => rfl
  | cons slot slots ih =>
    cases hs : holder slot with
    | none => rw [List.filterMap_cons_none hs, List.filter_cons_of_neg (by simp [hs]), ih]
    | some leaderId =>
      rw [List.filterMap_cons_some hs, List.filter_cons_of_pos (by simp [hs]),
        List.map_cons, List.map_cons, ih, hs]

namespace Accepted

section

variable (ha : inputs.Accepted)
include ha

theorem length_eq : inputs.rankedLeaderIds.length = inputs.targetSlots.length := by
  by_contra hnot
  exact ha.1 (.inr (.inl hnot))

theorem slots_nodup : inputs.targetSlots.Nodup := by
  by_contra hnot
  exact ha.1 (.inr (.inr (.inl hnot)))

theorem ranked_nodup : inputs.rankedLeaderIds.Nodup := by
  by_contra hnot
  exact ha.1 (.inr (.inr (.inr (.inl hnot))))

theorem ranked_perm : inputs.rankedLeaderIds.Perm (inputs.preserved ++ inputs.newcomers) := by
  have hk : (inputs.rankedLeaderIds.filter fun leaderId =>
      leaderId ∈ inputs.preserved).Perm inputs.preserved := by
    rw [List.perm_ext_iff_of_nodup (ha.ranked_nodup.filter _) (preserved_nodup ha.2)]
    intro leaderId
    rw [List.mem_filter, decide_eq_true_eq, mem_preserved]
    exact ⟨fun hm => hm.2, fun hm => ⟨hm.1, hm⟩⟩
  have hs := (List.filter_append_perm (fun leaderId => decide (leaderId ∈ inputs.preserved))
    inputs.rankedLeaderIds).symm
  simp only [← decide_not] at hs
  exact hs.trans (hk.append_right _)

theorem vacant_count : (inputs.targetSlots.filter fun slot => inputs.kept slot = none).length =
      inputs.newcomers.length := by
  have hr := ha.ranked_perm.length_eq
  have hs := (List.filter_append_perm (fun slot => decide (inputs.kept slot = none))
    inputs.targetSlots).length_eq
  have hk := congrArg List.length (map_some_filterMap inputs.kept inputs.targetSlots)
  rw [List.length_map, List.length_map] at hk
  rw [ha.length_eq, List.length_append, preserved] at hr
  rw [List.length_append] at hs
  omega

theorem members_perm {final : LeaderSlot → Option String}
    (hk : ∀ slot, inputs.kept slot ≠ none → final slot = inputs.kept slot)
    (hm : (inputs.targetSlots.filter fun slot => inputs.kept slot = none).map final =
      inputs.newcomers.map some) :
    (inputs.targetSlots.map final).Perm (inputs.rankedLeaderIds.map some) := by
  have hs := List.filter_append_perm (fun slot => decide (inputs.kept slot = none))
    inputs.targetSlots
  refine ((hs.map final).symm.trans ?_).trans (ha.ranked_perm.map some).symm
  rw [List.map_append, List.map_append, hm, preserved, map_some_filterMap]
  refine List.perm_append_comm.trans (List.Perm.append_right _ (List.Perm.of_eq ?_))
  refine List.map_congr_left fun slot hsl => hk slot ?_
  simpa using (List.mem_filter.mp hsl).2

theorem stable : ∃ assignments, stableSlotAssignments inputs = .ok assignments ∧
      StableAssignment inputs assignments := by
  obtain ⟨final, hfi, hke, hmap⟩ :=
    fillVacant_spec ha.slots_nodup ha.vacant_count
  have hm := ha.members_perm hke hmap
  have hfu : ∀ slot ∈ inputs.targetSlots, final slot ≠ none := by
    intro slot hsl hn
    obtain ⟨leaderId, -, hl⟩ := List.mem_map.mp
      (hm.mem_iff.mp (List.mem_map_of_mem (f := final) hsl))
    rw [hn] at hl
    cases hl
  obtain ⟨listed, hl, hs, hle, hall⟩ := entries_spec hfu
  have hp : (listed.map Prod.snd).Perm inputs.rankedLeaderIds := by
    rw [← List.map_perm_map_iff (Option.some_injective String), List.map_map]
    exact (List.Perm.of_eq hle).trans hm
  have hmo : ∀ entry ∈ listed,
      inputs.currentAssignments entry.1 ≠ some entry.2 ↔ inputs.kept entry.1 = none := by
    intro entry he
    have ht : entry.1 ∈ inputs.targetSlots := hs ▸ List.mem_map_of_mem he
    have hr : entry.2 ∈ inputs.rankedLeaderIds := hp.mem_iff.mp (List.mem_map_of_mem he)
    constructor
    · intro hne
      by_contra hk
      exact hne (kept_eq_some.mp ((hke entry.1 hk).symm.trans (hall entry he))).2.1
    · intro hn hc
      rw [kept_eq_some.mpr ⟨ht, hc, hr⟩] at hn
      cases hn
  have hv : ∀ vacant : LeaderSlot → Bool,
      (listed.filter (vacant ∘ Prod.fst)).map Prod.fst = inputs.targetSlots.filter vacant := by
    intro vacant
    rw [← hs, List.filter_map]
  refine ⟨listed, ?_, hs, hp, ?_, ?_⟩
  · rw [stableSlotAssignments, if_neg ha.1, if_neg (not_not.mpr ha.2), hfi]
    simp only [hl]
  · intro slot hsl leaderId hr hc
    have hk := kept_eq_some.mpr ⟨hsl, hc, hr⟩
    obtain ⟨entry, he, hen⟩ := List.mem_map.mp (hs ▸ hsl)
    have hf := hall entry he
    rw [hen, hke slot (by rw [hk]; exact Option.some_ne_none _), hk] at hf
    rw [← hen, Option.some.inj hf]
    exact he
  · rw [← newcomers_eq, List.filter_congr fun entry he => decide_eq_decide.mpr (hmo entry he)]
    apply (Option.some_injective String).list_map
    have hco := List.map_congr_left (f := some ∘ Prod.snd) (g := final ∘ Prod.fst)
      (l := listed.filter fun entry => inputs.kept entry.1 = none)
      fun entry he => (hall entry (List.mem_filter.mp he).1).symm
    rw [← hmap, List.map_map, hco, ← List.map_map]
    exact congrArg (List.map final) (hv fun slot => inputs.kept slot = none)

theorem again {assignments : List (LeaderSlot × String)} {reranked : List String}
    (hs : StableAssignment inputs assignments) (hp : reranked.Perm inputs.rankedLeaderIds) :
    Accepted ⟨inputs.targetSlots, reranked, holderIn assignments⟩ := by
  refine ⟨fun hi => ha.1 ?_, ?_⟩
  · rw [Invalid, hp.length_eq, hp.nodup_iff] at hi
    simpa only [Invalid, hp.mem_iff] using hi
  · rw [incumbentIds]
    show (inputs.targetSlots.filterMap (holderIn assignments)).Nodup
    rw [← hs.slots, filterMap_holderIn (hs.slots ▸ ha.slots_nodup), hs.leaders.nodup_iff]
    exact ha.ranked_nodup

end

end Accepted

end SlotInputs

theorem stable_slot_assignments_stable (inputs : SlotInputs) (haccepted : inputs.Accepted) :
    ∃ assignments, stableSlotAssignments inputs = .ok assignments ∧
      StableAssignment inputs assignments ∧
      ∀ reranked : List String, reranked.Perm inputs.rankedLeaderIds →
        stableSlotAssignments ⟨inputs.targetSlots, reranked, holderIn assignments⟩ =
          .ok assignments := by
  obtain ⟨assignments, hok, hs⟩ := haccepted.stable
  refine ⟨assignments, hok, hs, fun reranked hp => ?_⟩
  have hn : (assignments.map Prod.fst).Nodup := hs.slots ▸ haccepted.slots_nodup
  obtain ⟨again, ha, hsa⟩ := (haccepted.again hs hp).stable
  rw [ha, eq_of_same_slots hn (hsa.slots.trans hs.slots.symm) fun entry he => ?_]
  refine hsa.kept entry.1 (hs.slots ▸ List.mem_map_of_mem he) entry.2 ?_ (holderIn_of_mem hn he)
  exact hp.mem_iff.mpr (hs.leaders.mem_iff.mp (List.mem_map_of_mem he))

def shortTermInputs : SlotInputs where
  targetSlots := [.shortTerm1, .shortTerm2]
  rankedLeaderIds := ["leader-b", "leader-c"]
  currentAssignments
    | .shortTerm1 => some "leader-a"
    | .shortTerm2 => some "leader-b"
    | _ => none

theorem stable_slot_assignments_shortTerm :
    ∃ assignments, stableSlotAssignments shortTermInputs = .ok assignments ∧
      stableSlotAssignments ⟨[.shortTerm1, .shortTerm2], ["leader-c", "leader-b"],
        holderIn assignments⟩ = .ok assignments := by
  obtain ⟨assignments, hok, -, ha⟩ :=
    stable_slot_assignments_stable shortTermInputs ⟨by decide, by decide⟩
  exact ⟨assignments, hok, ha _ (List.Perm.swap _ _ _)⟩

end AiQuant.CopyTrading
