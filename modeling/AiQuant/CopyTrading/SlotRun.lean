import AiQuant.CopyTrading.SlotMoves

/-! Runs of the slots.  The two calls are sequences of moves from any state between calls: a
selection settles the open replacement of a slot before it requests another, and hands out
slots that were read as free; the reconciler settles each pending row once. -/
namespace AiQuant.CopyTrading
open AiQuant.Lib

theorem mem_leaderSlots (slot : LeaderSlot) : slot ∈ leaderSlots := by
  cases slot <;> decide

theorem SelectionStrategy.nodup_slots (strategy : SelectionStrategy) : strategy.slots.Nodup := by
  cases strategy <;> decide

theorem selectedLifecycle_ne_retired (life : Option LeaderLifecycle) :
    selectedLifecycle life ≠ .retired := by
  rcases life with _ | life
  · decide
  · cases life <;> decide

theorem requestedReplacement_keyed (sel : SlotSelection) (slot : LeaderSlot)
    (incumbent leader : String) : (sel.requestedReplacement slot incumbent leader).Keyed := rfl

section Selection

variable [HexOrder] {st : SlotLog} {sel : SlotSelection}

def SlotLog.Unselected (state : SlotLog) (selection : SlotSelection) (slot : LeaderSlot) : Prop :=
  ∀ event ∈ state.replacements, event.slot = slot →
    event.occurredAt < selection.occurredAt ∧ event.selectionRunId ≠ selection.selectionRunId

variable {clock : Time} {slot : LeaderSlot}

theorem supersedeOpenSlotReplacements_cases (hi : SlotInvariant clock st)
    (hu : st.Unselected sel slot) :
    (st.supersedeOpenSlotReplacements slot sel.selectionRunId sel.occurredAt =
        st ∧ ∀ row ∈ openReplacements st.replacements, row.slot ≠ slot) ∨
      ∃ row ∈ openReplacements st.replacements, row.slot = slot ∧
        row.occurredAt < sel.occurredAt ∧
        st.supersedeOpenSlotReplacements slot sel.selectionRunId sel.occurredAt =
          st.appendReplacement (row.terminal .superseded
            "COPY_SLOT_REPLACEMENT_SUPERSEDED_BY_NEW_SELECTION" sel.occurredAt) := by
  have ho : ∀ row, row ∈ (openReplacements (st.replacements.filter (·.slot = slot))).filter
      (·.selectionRunId ≠ sel.selectionRunId) ↔
        row ∈ openReplacements st.replacements ∧ row.slot = slot := by
    intro row
    rw [List.mem_filter, mem_openReplacements_slot_iff hi.replaceable hi.keyed, decide_eq_true_eq]
    refine and_iff_left_of_imp fun ⟨hr, hsl⟩ => ?_
    have hm := ((mem_openReplacements_iff hi.replaceable).mp hr).1
    exact (hu row hm hsl).2
  have hn := (nodup_openReplacements (st.replacements.filter (·.slot = slot))).filter
    (·.selectionRunId ≠ sel.selectionRunId)
  unfold SlotLog.supersedeOpenSlotReplacements
  generalize (openReplacements (st.replacements.filter (·.slot = slot))).filter
    (·.selectionRunId ≠ sel.selectionRunId) = rows at ho hn ⊢
  match rows with
  | [] => exact Or.inl ⟨rfl, fun row hr hsl => by simpa using (ho row).mpr ⟨hr, hsl⟩⟩
  | [row] =>
    obtain ⟨hr, hsl⟩ := (ho row).mp (by simp)
    have hm := ((mem_openReplacements_iff hi.replaceable).mp hr).1
    exact Or.inr ⟨row, hr, hsl, (hu row hm hsl).1, rfl⟩
  | first :: second :: rest =>
    obtain ⟨hfi, hf⟩ := (ho first).mp (by simp)
    obtain ⟨hse, hs⟩ := (ho second).mp (by simp)
    have hsa := hi.oneOpen first hfi second hse (hf.trans hs.symm)
    rw [hsa] at hn
    simp at hn

theorem supersedeOpenSlotReplacements_moves (hi : SlotInvariant clock st)
    (hu : st.Unselected sel slot) :
    ∃ superseded, st.supersedeOpenSlotReplacements slot sel.selectionRunId
        sel.occurredAt = superseded ∧
      SlotMoves sel.occurredAt st superseded ∧
      (∀ row ∈ openReplacements superseded.replacements, row.slot ≠ slot) ∧
      ∃ added, superseded = { st with replacements := st.replacements ++ added } ∧
        ∀ ev ∈ added, ev.slot = slot ∧
          ev.selectionRunId ≠ sel.selectionRunId := by
  rcases supersedeOpenSlotReplacements_cases hi hu with
    ⟨hsa, hn⟩ | ⟨row, hr, hsl, hl, hs⟩
  · refine ⟨st, hsa, Relation.ReflTransGen.refl, hn, [], ?_, by simp⟩
    rw [List.append_nil]
  · refine ⟨_, hs, Relation.ReflTransGen.single (.settle _ hr hl rfl (by simp)), ?_, [_], rfl, ?_⟩
    · intro other ho hot
      rw [SlotLog.appendReplacement, mem_openReplacements_settled_iff
        (hi.replaceable.settle hr rfl _ hl) rfl] at ho
      have hsa := hi.oneOpen other ho.1 row hr (hot.trans hsl.symm)
      rw [hsa] at ho
      exact ho.2 rfl
    · have hm := ((mem_openReplacements_iff hi.replaceable).mp hr).1
      exact List.forall_mem_singleton.mpr ⟨hsl, (hu row hm hsl).2⟩

variable {asg : LeaderSlot × String}

theorem selectSlot_moves (start : SlotLog) (hi : SlotInvariant clock st)
    (hc : clock ≤ sel.occurredAt) (hr : sel.selectionRunId ∈ st.selectionRuns)
    (hu : st.Unselected sel asg.1) : SlotMoves sel.occurredAt st (start.selectSlot sel st asg) ∧
      ∃ added, start.selectSlot sel st asg = { st with replacements := st.replacements ++ added } ∧
        ∀ ev ∈ added, ev.slot = asg.1 := by
  obtain ⟨superseded, hsu, hm, hn, added, ha, hsl⟩ :=
    supersedeOpenSlotReplacements_moves hi hu
  have hke : SlotMoves sel.occurredAt st superseded ∧
      ∃ added, superseded = { st with replacements := st.replacements ++ added } ∧
        ∀ ev ∈ added, ev.slot = asg.1 :=
    ⟨hm, added, ha, fun ev he => (hsl ev he).1⟩
  unfold SlotLog.selectSlot
  rw [hsu]
  dsimp only
  cases start.currentSlot asg.1 with
  | none => exact hke
  | some incumbent =>
    dsimp only
    split
    · have hf : ∀ old ∈ superseded.replacements, old.replacementId ≠
          (sel.requestedReplacement asg.1 incumbent asg.2).replacementId := by
        intro old ho hsa
        have hk := (hm.invariant hi hc).keyed old ho
        obtain ⟨hslot, hs⟩ :=
          hk.slot_eq (requestedReplacement_keyed ..) hsa
        rw [ha] at ho
        rcases List.mem_append.mp ho with hea | hnew
        · exact (hu old hea hslot).2 hs
        · exact (hsl old hnew).2 hs
      constructor
      · refine hm.tail (.request (requestedReplacement_keyed ..) rfl rfl ?_ hf hn)
        rw [ha]
        exact hr
      · refine ⟨added ++ [sel.requestedReplacement asg.1 incumbent asg.2], ?_,
          List.forall_mem_append.mpr
            ⟨fun ev he => (hsl ev he).1, List.forall_mem_singleton.mpr rfl⟩⟩
        rw [ha, SlotLog.appendReplacement]
        simp only [List.append_assoc]
    · exact hke

theorem selectSlots_moves (start : SlotLog) {assignments : List (LeaderSlot × String)}
    (hd : (assignments.map Prod.fst).Nodup) (hi : SlotInvariant sel.occurredAt st)
    (hrun : sel.selectionRunId ∈ st.selectionRuns)
    (hu : ∀ asg ∈ assignments, st.Unselected sel asg.1) :
    SlotMoves sel.occurredAt st (assignments.foldl (start.selectSlot sel) st) ∧
      ∃ replacements, assignments.foldl (start.selectSlot sel) st =
        { st with replacements := replacements } := by
  induction assignments generalizing st with
  | nil => exact ⟨Relation.ReflTransGen.refl, st.replacements, rfl⟩
  | cons asg rest ih =>
    rw [List.map_cons, List.nodup_cons] at hd
    obtain ⟨hm, added, ha, hs⟩ := selectSlot_moves start hi le_rfl hrun (hu asg (by simp))
    have hl : ∀ other ∈ rest, (start.selectSlot sel st asg).Unselected sel other.1 := by
      intro other ho ev he hsl
      rw [ha] at he
      rcases List.mem_append.mp he with hold | hn
      · exact hu other (List.mem_cons_of_mem _ ho) ev hold hsl
      · have hh : other.1 = asg.1 := hsl.symm.trans (hs ev hn)
        exact absurd (hh ▸ List.mem_map_of_mem ho) hd.1
    have hru : sel.selectionRunId ∈ (start.selectSlot sel st asg).selectionRuns := by
      rw [ha]
      exact hrun
    obtain ⟨hre, replacements, hr⟩ :=
      ih hd.2 (hm.invariant hi le_rfl) hru hl
    refine ⟨hm.trans hre, replacements, ?_⟩
    rw [List.foldl_cons, hr, ha]

theorem appendAssignments_moves {events : List LeaderSlotEvent} {time : Time}
    (hs : (events.map (·.slot)).Nodup) (hl : (events.map (·.leadPortfolioId)).Nodup)
    (hat : ∀ ev ∈ events, ev.occurredAt = time)
    (ha : ∀ ev ∈ events, st.Assignable time ev.slot ev.leadPortfolioId) :
    SlotMoves time st (events.foldl SlotLog.appendAssignment st) := by
  induction events generalizing st with
  | nil => exact Relation.ReflTransGen.refl
  | cons ev rest ih =>
    rw [List.map_cons, List.nodup_cons] at hs hl
    obtain ⟨hhe, hre⟩ := List.forall_mem_cons.mp ha
    obtain ⟨hh, hr⟩ := List.forall_mem_cons.mp hat
    have hla : ∀ row ∈ st.slotRows, row.slot = ev.slot → row.occurredAt < ev.occurredAt := by
      rw [hh]
      exact hhe.latest
    refine Relation.ReflTransGen.head (.assign hh hhe) (ih hs.2 hl.2 hr fun other ho => ?_)
    apply (hre other ho).appendAssignment hla
    · exact fun hsa => hs.1 (hsa ▸ List.mem_map_of_mem ho)
    · exact fun hsa => hl.1 (hsa ▸ List.mem_map_of_mem ho)

theorem appendLifecycles_moves {events : List LeaderLifecycleEvent} (time : Time)
    (hr : ∀ ev ∈ events, ev.state = .retired →
      ev.leadPortfolioId ∉ st.log.leadersWithOwnedExposure) :
    SlotMoves time st (events.foldl SlotLog.appendLifecycle st) := by
  induction events generalizing st with
  | nil => exact Relation.ReflTransGen.refl
  | cons ev rest ih =>
    obtain ⟨hh, hre⟩ := List.forall_mem_cons.mp hr
    exact Relation.ReflTransGen.head (.lifecycle hh) (ih hre)

theorem currentSlot_ne_of_selectionRefusal (ha : st.selectionRefusal sel = none)
    (hmem : asg ∈ sel.slotAssignments) {other : LeaderSlot}
    (hot : other ≠ asg.1) : st.currentSlot other ≠ some asg.2 := by
  intro ho
  have hs : asg.2 ∈ sel.selectedLeaderIds := (List.of_mem_zip hmem).2
  unfold SlotLog.selectionRefusal at ha
  dsimp only at ha
  split_ifs at ha with hd hc hb hm hr
  by_cases ht : other ∈ sel.strategy.slots
  · apply hr
    refine List.any_eq_true.mpr ⟨asg, hmem, List.any_eq_true.mpr ⟨other, ht, ?_⟩⟩
    simp [hot, ho]
  · apply hm
    refine List.any_eq_true.mpr ⟨asg.2, hs, List.any_eq_true.mpr ⟨other, mem_leaderSlots other, ?_⟩⟩
    simp [ht, ho]

theorem not_guarded_of_slotStatus {leader incumbent : String}
    (hc : st.currentSlot slot = some incumbent) (hs : st.slotStatus slot leader ∈
      ([.assigned, .replaced] : List SlotSelectionStatus)) : ¬ st.Guarded incumbent := by
  unfold SlotLog.slotStatus at hs
  rw [hc] at hs
  dsimp only at hs
  unfold SlotLog.Guarded
  split_ifs at hs with hsa hl hi he
  · simp at hs
  · simp at hs
  · simp at hs
  · simp at hs
  · exact not_or.mpr ⟨hi, he⟩

theorem directAssignments_assignable (hi : SlotInvariant clock st)
    (hcl : clock < sel.occurredAt) (hac : st.selectionRefusal sel = none)
    (hm : asg ∈ st.directAssignments sel) : st.Assignable sel.occurredAt asg.1 asg.2 := by
  obtain ⟨ha, hs⟩ := List.mem_filter.mp hm
  rw [decide_eq_true_eq] at hs
  exact {
    latest := fun row hr _ => (hi.slotTimes row hr).trans_lt hcl
    free := fun other ho => currentSlot_ne_of_selectionRefusal hac ha ho
    unguarded := fun incumbent hc => not_guarded_of_slotStatus hc hs }

theorem lifecycleChanges_unexposed {ev : LeaderLifecycleEvent}
    (hm : ev ∈ st.lifecycleChanges sel) (hr : ev.state = .retired) :
    ev.leadPortfolioId ∉ st.log.leadersWithOwnedExposure := by
  unfold SlotLog.lifecycleChanges at hm
  rcases List.mem_append.mp hm with hs | hd
  · obtain ⟨leader, -, rfl⟩ := List.mem_map.mp hs
    exact absurd hr (selectedLifecycle_ne_retired _)
  · obtain ⟨leader, hl, rfl⟩ := List.mem_map.mp hd
    unfold SlotLog.retiredLeaders at hl
    rw [List.mem_filter, List.mem_dedup, List.mem_filterMap] at hl
    obtain ⟨⟨asg, ha, hc⟩, -⟩ := hl
    rw [List.mem_filter, decide_eq_true_eq] at ha
    have hst : st.slotStatus asg.1 asg.2 ∈ ([.assigned, .replaced] : List SlotSelectionStatus) := by
      rw [ha.2]
      decide
    exact fun he => not_guarded_of_slotStatus hc hst (Or.inr he)

theorem commitSelection_moves (hi : SlotInvariant clock st) (hc : clock < sel.occurredAt)
    (hw : sel.WellFormed) (hn : sel.selectionRunId ∉ st.selectionRuns)
    (hac : st.selectionRefusal sel = none) :
    SlotMoves sel.occurredAt st (st.commitSelection sel) := by
  have hs : (sel.slotAssignments.map Prod.fst).Nodup := by
    rw [SlotSelection.slotAssignments, List.map_fst_zip hw.1.ge]
    exact sel.strategy.nodup_slots
  have hle : (sel.slotAssignments.map Prod.snd).Nodup := by
    rw [SlotSelection.slotAssignments, List.map_snd_zip hw.1.le]
    exact hw.2.1
  have hr : SlotMoves sel.occurredAt st
      { st with selectionRuns := st.selectionRuns ++ [sel.selectionRunId] } :=
    Relation.ReflTransGen.single (.register _)
  obtain ⟨hlo, replacements, hl⟩ := selectSlots_moves st hs
    (hr.invariant hi hc.le) (by simp) fun asg _ ev he _ =>
      ⟨(hi.times ev he).trans_lt hc,
        fun hsa => hn (hsa ▸ hi.runs ev he)⟩
  have hd : (st.directAssignments sel).Sublist sel.slotAssignments :=
    List.filter_sublist ..
  unfold SlotLog.commitSelection
  dsimp only
  generalize sel.slotAssignments.foldl (st.selectSlot sel) _ = looped
    at hlo hl ⊢
  have has : SlotMoves sel.occurredAt looped (((st.directAssignments sel).map sel.slotEvent).foldl
        SlotLog.appendAssignment looped) := by
    apply appendAssignments_moves
    · rw [List.map_map]
      exact hs.sublist (hd.map _)
    · rw [List.map_map]
      exact hle.sublist (hd.map _)
    · exact List.forall_mem_map.mpr fun _ _ => rfl
    · refine List.forall_mem_map.mpr fun asg ha => ?_
      obtain ⟨hla, hf, hu⟩ :=
        directAssignments_assignable hi hc hac ha
      rw [hl]
      exact ⟨hla, hf, hu⟩
  have hm := (hr.trans hlo).trans has
  refine hm.trans (appendLifecycles_moves _ fun ev he hre => ?_)
  rw [(SlotMoves.safe hm).exposure_eq]
  exact lifecycleChanges_unexposed he hre

end Selection

section Exposure

variable [HexOrder] {log : EventLog} {leader : String} {requestedAt : Time}

theorem not_mem_leadersWithOwnedExposure
    (hu : (log.leaderOwnedExposureState leader requestedAt).1 = false) :
    leader ∉ log.leadersWithOwnedExposure := by
  unfold EventLog.leaderOwnedExposureState at hu
  rw [Bool.or_eq_false_iff, List.any_eq_false, List.any_eq_false] at hu
  intro hm
  rcases List.mem_append.mp hm with hpo | hen
  · obtain ⟨ev, he, rfl⟩ := List.mem_map.mp hpo
    rw [List.mem_filter, List.mem_filterMap] at he
    obtain ⟨⟨key, hkey, hl⟩, hp⟩ := he
    rw [EventLog.latestPosition_key hl] at hu
    refine hu.1 ev (List.mem_filterMap.mpr ⟨key, ?_, hl⟩) hp
    exact List.mem_filter.mpr ⟨hkey, decide_eq_true rfl⟩
  · obtain ⟨row, hr, rfl⟩ := List.mem_map.mp hen
    rw [List.mem_filter, Bool.and_eq_true, Bool.and_eq_true] at hr
    obtain ⟨hs, ⟨hk, hc⟩, hd⟩ := hr
    unfold EventLog.decidedAs at hd
    rw [Option.any_eq_true] at hd
    obtain ⟨ev, hl, hst⟩ := hd
    refine hu.2 ev (List.mem_filterMap.mpr ⟨row, ?_, hl⟩) hst
    simp only [List.mem_filter, hs, hk, hc, decide_true, Bool.and_self, and_self]

theorem cleared_of_leaderOwnedExposureState {st : SlotLog} {row : SlotReplacementEvent}
    (hu : (st.log.leaderOwnedExposureState row.incumbent row.requestedAt).1 = false)
    (hc : (st.log.leaderOwnedExposureState row.incumbent row.requestedAt).2 ≤
      row.expiresAt) : st.Cleared row := by
  obtain ⟨-, hr⟩ := max_le_iff.mp hc
  obtain ⟨hp, hd⟩ := max_le_iff.mp hr
  exact {
    unexposed := not_mem_leadersWithOwnedExposure hu
    orders := fun ev he => (le_getD_max? (List.mem_map_of_mem he) _).trans hp
    decisions := fun ev he =>
      (le_getD_max? (List.mem_map_of_mem he) _).trans hd }

end Exposure

section Reconcile

variable [HexOrder] {st : SlotLog} {row other : SlotReplacementEvent} {time : Time}

structure SlotLog.Pending (state : SlotLog) (occurredAt : Time) (row : SlotReplacementEvent) :
    Prop where
  isOpen : row ∈ openReplacements state.replacements
  later : row.occurredAt < occurredAt
  latest : ∀ slotRow ∈ state.slotRows, slotRow.slot = row.slot → slotRow.occurredAt < occurredAt

theorem SlotLog.Pending.settle (ho : st.Pending time other) (hi : SlotInvariant time st)
    (hr : st.Pending time row) (hs : other.slot ≠ row.slot) (terminal : SlotReplacementState)
    (ht : terminal.isTerminal = true) (reasonCode : String) :
    (st.appendReplacement (row.terminal terminal reasonCode time)).Pending time other where
  isOpen := by
    rw [SlotLog.appendReplacement, mem_openReplacements_settled_iff
      (hi.replaceable.settle hr.isOpen ht reasonCode hr.later) ht]
    refine ⟨ho.isOpen, fun hsa => hs ?_⟩
    have hm := ((mem_openReplacements_iff hi.replaceable).mp hr.isOpen).1
    have hot := ((mem_openReplacements_iff hi.replaceable).mp ho.isOpen).1
    exact ((hi.keyed other hot).slot_eq (hi.keyed row hm) hsa).1
  later := ho.later
  latest := ho.latest

theorem SlotLog.Pending.assign (ho : st.Pending time other)
    {ev : LeaderSlotEvent} (hsl : other.slot ≠ ev.slot) :
    (st.appendAssignment ev).Pending time other where
  isOpen := ho.isOpen
  later := ho.later
  latest slotRow hs hsame := by
    rcases SlotLog.mem_slotRows_appendAssignment.mp hs with hold | rfl
    · exact ho.latest slotRow hold hsame
    · exact absurd hsame.symm hsl

structure SlotLog.Applicable (state : SlotLog) (row : SlotReplacementEvent) : Prop where
  incumbent : state.currentSlot row.slot = some row.incumbent
  unlocked : row.incumbent ∉ state.lockedLeaderIds
  free : ∀ slot, slot ≠ row.slot → state.currentSlot slot ≠ some row.candidate
  cleared : state.Cleared row

theorem applicable_of_replacementOutcome
    (ho : st.replacementOutcome st.lockedLeaderIds st.currentSlot row time =
      .applied) : st.Applicable row := by
  unfold SlotLog.replacementOutcome at ho
  dsimp only at ho
  split_ifs at ho with hi hl ha he hexp
  refine ⟨not_not.mp hi, hl, fun slot hs hc => ha ?_, cleared_of_leaderOwnedExposureState he.1 he.2⟩
  refine List.any_eq_true.mpr ⟨slot, mem_leaderSlots slot, ?_⟩
  simp [hs, hc]

theorem applyReplacement_moves (hp : st.Pending time row) (ha : st.Applicable row) :
    SlotMoves time st (st.applyReplacement row time) := by
  obtain ⟨hu, ho, hd⟩ := ha.cleared
  have has : st.Assignable time row.slot row.candidate := {
    latest := hp.latest
    free := ha.free
    unguarded := fun incumbent hc => by
      rw [ha.incumbent, Option.some.injEq] at hc
      rw [← hc]
      exact not_or.mpr ⟨ha.unlocked, hu⟩ }
  unfold SlotLog.applyReplacement
  refine (((Relation.ReflTransGen.single (.assign rfl has)).tail
    (.lifecycle fun hr => ?_)).tail (.lifecycle fun _ => hu)).tail
    (.settle _ hp.isOpen hp.later rfl fun _ => ⟨hu, ho, hd⟩)
  exact absurd hr (selectedLifecycle_ne_retired _)

theorem currentSlot_applyReplacement (hp : st.Pending time row) :
    (st.applyReplacement row time).currentSlot =
      Function.update st.currentSlot row.slot (some row.candidate) := by
  funext slot
  by_cases hs : slot = row.slot
  · rw [hs, Function.update_self]
    show (st.appendAssignment ⟨_, row.slot, row.candidate, time⟩).currentSlot row.slot = _
    exact SlotLog.currentSlot_appendAssignment hp.latest
  · rw [Function.update_of_ne hs]
    show (st.appendAssignment ⟨_, row.slot, row.candidate, time⟩).currentSlot slot = _
    exact SlotLog.currentSlot_appendAssignment_of_ne hs

theorem SlotLog.Pending.apply (ho : st.Pending time other)
    (hi : SlotInvariant time st) (hr : st.Pending time row) (hsl : other.slot ≠ row.slot) :
    (st.applyReplacement row time).Pending time other := by
  have hs := ho.settle hi hr hsl .applied rfl "COPY_SLOT_REPLACEMENT_APPLIED_AFTER_EXPOSURE_CLOSE"
  have ha : (st.appendAssignment ⟨.replacementAssignment row.replacementId row.slot,
      row.slot, row.candidate, time⟩).Pending time other := ho.assign hsl
  exact ⟨hs.isOpen, ho.later, ha.latest⟩

theorem reconcileRows_moves {rows : List SlotReplacementEvent} (hi : SlotInvariant time st)
    (hp : ∀ row ∈ rows, st.Pending time row) (hd : (rows.map (·.slot)).Nodup) : SlotMoves time st
      (SlotLog.reconcileRows st.lockedLeaderIds time rows st.currentSlot st).2 := by
  induction rows generalizing st with
  | nil => exact Relation.ReflTransGen.refl
  | cons row rest ih =>
    rw [List.map_cons, List.nodup_cons] at hd
    obtain ⟨hrow, hr⟩ := List.forall_mem_cons.mp hp
    have hsl : ∀ other ∈ rest, other.slot ≠ row.slot := fun other ho hsa =>
      hd.1 (hsa ▸ List.mem_map_of_mem ho)
    have hs : ∀ terminal reasonCode, terminal.isTerminal = true → terminal ≠ .applied →
        SlotMoves time st (SlotLog.reconcileRows st.lockedLeaderIds time rest
          st.currentSlot
          (st.appendReplacement (row.terminal terminal reasonCode time))).2 := by
      intro terminal reasonCode ht hu
      have hmo : SlotMove time st (st.appendReplacement (row.terminal terminal reasonCode time)) :=
        .settle reasonCode hrow.isOpen hrow.later ht fun ha =>
          absurd ha hu
      exact Relation.ReflTransGen.head hmo (ih (hi.move le_rfl hmo)
        (fun other ho => (hr other ho).settle hi hrow (hsl other ho) terminal ht reasonCode) hd.2)
    unfold SlotLog.reconcileRows
    cases hou : st.replacementOutcome st.lockedLeaderIds st.currentSlot row time with
    | superseded reasonCode => exact hs .superseded reasonCode rfl (by decide)
    | applied =>
      have hm := applyReplacement_moves hrow (applicable_of_replacementOutcome hou)
      have hl := ih (hm.invariant hi le_rfl)
        (fun other ho => (hr other ho).apply hi hrow (hsl other ho))
        hd.2
      rw [currentSlot_applyReplacement hrow] at hl
      exact hm.trans hl
    | expired => exact hs .expired _ rfl (by decide)
    | waiting => exact ih hi hr hd.2

theorem reconcilePendingSlotReplacements_moves {clock : Time}
    (hi : SlotInvariant clock st) (hc : clock < time) :
    SlotMoves time st (st.reconcilePendingSlotReplacements time).2 := by
  have hm : ∀ row, row ∈ st.pendingReplacements ↔
      row ∈ openReplacements st.replacements := fun row => List.mem_insertionSort _
  apply reconcileRows_moves (hi.later hc.le)
  · intro row hrow
    have ho := (hm row).mp hrow
    have he := ((mem_openReplacements_iff hi.replaceable).mp ho).1
    exact ⟨ho, (hi.times row he).trans_lt hc,
      fun slotRow hs _ => (hi.slotTimes slotRow hs).trans_lt hc⟩
  · apply List.Nodup.map_on
    · intro left hl right hr
      exact hi.oneOpen left ((hm left).mp hl) right ((hm right).mp hr)
    · exact (List.perm_insertionSort _ _).nodup_iff.mpr (nodup_openReplacements _)

end Reconcile

section Run

variable [HexOrder] {clock time : Time} {st post : SlotLog}

/-- A committed call at `occurredAt`. -/
inductive SlotCall (occurredAt : Time) (before : SlotLog) : SlotLog → Prop
  | select {selection : SlotSelection} {result : Digest × SlotLog}
      (hat : selection.occurredAt = occurredAt)
      (hselect : before.applySlotSelection selection = .ok result) :
      SlotCall occurredAt before result.2
  | reconcile :
      SlotCall occurredAt before (before.reconcilePendingSlotReplacements occurredAt).2

/-- Calls at strictly increasing times.  Between two of them the rest of the tables may change in
any way: fills, decisions, claims, locks and lifecycles are somebody else's. -/
inductive SlotRun : Time → SlotLog → Prop
  | start {clock : Time} {state : SlotLog} (honce : state.OccupiesOnce)
      (htimes : ∀ row ∈ state.slotRows, row.occurredAt ≤ clock)
      (hnone : state.replacements = []) : SlotRun clock state
  | call {clock occurredAt : Time} {state after : SlotLog} (hrun : SlotRun clock state)
      (hlater : clock < occurredAt) (hcall : SlotCall occurredAt state after) :
      SlotRun occurredAt after
  | outside {clock : Time} {state after : SlotLog} (hrun : SlotRun clock state)
      (hassignments : after.log.slotAssignments = state.log.slotAssignments)
      (hclearings : after.slotClearings = state.slotClearings)
      (hreplacements : after.replacements = state.replacements)
      (hruns : after.selectionRuns = state.selectionRuns) : SlotRun clock after

theorem SlotCall.moves (hc : SlotCall time st post)
    (hi : SlotInvariant clock st) (hl : clock < time) : SlotMoves time st post := by
  cases hc with
  | @select sel result hat hs =>
    unfold SlotLog.applySlotSelection at hs
    split_ifs at hs with hw hk
    · cases hs
      exact Relation.ReflTransGen.refl
    · cases ha : st.selectionRefusal sel with
      | some reason =>
        rw [ha] at hs
        cases hs
      | none =>
        rw [ha] at hs
        cases hs
        rw [← hat] at hl ⊢
        exact commitSelection_moves hi hl hw hk ha
  | reconcile => exact reconcilePendingSlotReplacements_moves hi hl

theorem SlotInvariant.start (ho : st.OccupiesOnce)
    (ht : ∀ row ∈ st.slotRows, row.occurredAt ≤ clock) (hn : st.replacements = []) :
    SlotInvariant clock st where
  once := ho
  slotTimes := ht
  times := by simp [hn]
  keyed := by simp [hn]
  runs := by simp [hn]
  replaceable := by
    rw [hn]
    exact ⟨List.nodup_nil, by simp⟩
  oneOpen := by simp [hn, openReplacements]

theorem SlotInvariant.outside (hi : SlotInvariant clock st)
    (ha : post.log.slotAssignments = st.log.slotAssignments)
    (hc : post.slotClearings = st.slotClearings) (hr : post.replacements = st.replacements)
    (hru : post.selectionRuns = st.selectionRuns) : SlotInvariant clock post := by
  have hro : post.slotRows = st.slotRows := by
    unfold SlotLog.slotRows
    rw [ha, hc]
  have hcu : post.currentSlot = st.currentSlot := by
    funext slot
    unfold SlotLog.currentSlot SlotLog.latestSlotRow
    rw [hro]
  constructor
  · unfold SlotLog.OccupiesOnce
    rw [hcu]
    exact hi.once
  · rw [hro]
    exact hi.slotTimes
  · rw [hr]
    exact hi.times
  · rw [hr]
    exact hi.keyed
  · rw [hr, hru]
    exact hi.runs
  · rw [hr]
    exact hi.replaceable
  · rw [hr]
    exact hi.oneOpen

theorem SlotRun.invariant (hr : SlotRun clock st) : SlotInvariant clock st := by
  induction hr with
  | start honce htimes hnone => exact SlotInvariant.start honce htimes hnone
  | call _ hlater hc ih => exact (hc.moves ih hlater).invariant ih hlater.le
  | outside _ hassignments hclearings hreplacements hruns ih =>
    exact ih.outside hassignments hclearings hreplacements hruns

omit [HexOrder] in
theorem length_le_one_of_forall_eq {α : Type} {rows : List α} (hn : rows.Nodup)
    (he : ∀ left ∈ rows, ∀ right ∈ rows, left = right) : rows.length ≤ 1 := by
  match rows with
  | [] => exact zero_le_one
  | [_] => exact le_rfl
  | first :: second :: rest =>
    rw [he first (by simp) second (by simp)] at hn
    simp at hn

omit [HexOrder] in
theorem Replaceable.settled_once {events : List SlotReplacementEvent}
    (he : Replaceable events) (replacementId : Digest) : (events.filter fun ev =>
      ev.replacementId = replacementId && ev.state.isTerminal).length ≤ 1 := by
  apply length_le_one_of_forall_eq (he.distinct.of_map.filter _)
  intro left hl right hr
  simp only [List.mem_filter, Bool.and_eq_true, decide_eq_true_eq] at hl hr
  apply List.inj_on_of_nodup_map he.distinct hl.1 hr.1
  rw [hl.2.1, hl.2.2, hr.2.1, hr.2.2]

/-- In every state of a run, no leader occupies two slots, a replacement is settled once at
most, and a slot has one open replacement at most.  Every call from such a state leaves locked
leaders and leaders who own anything in their slots, retires nobody who owns anything, and
applies a replacement only if its incumbent was cleared by orders given before it expired. -/
theorem slots_safe (hrun : SlotRun clock st) : st.OccupiesOnce ∧
      (∀ replacementId, (st.replacements.filter fun ev =>
        ev.replacementId = replacementId && ev.state.isTerminal).length ≤ 1) ∧
      (∀ slot, ((openReplacements st.replacements).filter (·.slot = slot)).length ≤ 1) ∧
      ∀ time post, clock < time → SlotCall time st post → SlotSafe st post := by
  have hi := hrun.invariant
  refine ⟨hi.once, hi.replaceable.settled_once, fun slot => ?_,
    fun time post hl hc => (hc.moves hi hl).safe⟩
  apply length_le_one_of_forall_eq ((nodup_openReplacements _).filter _)
  intro left hle right hr
  simp only [List.mem_filter, decide_eq_true_eq] at hle hr
  exact hi.oneOpen left hle.1 right hr.1 (hle.2.trans hr.2.symm)

end Run

section LateFill

local instance lateFillHexOrder : HexOrder := ⟨fun _ => 0⟩

def incumbentRow (name : String) (kind : SignalKind) (occurredAt : Time) : SignalRow where
  signalId := .external name
  deltaEventId := some (.fillDelta (.external name))
  leadPortfolioId := "incumbent"
  symbol := "BTCUSDT"
  positionSide := .long
  signalKind := kind
  sourceDeltaQuantity := 1
  referencePrice := 100
  occurredAt := occurredAt
  signalOrigin := .publicSignal

theorem units_nonneg (units : ℕ) : (0 : Decimal) ≤ units := Nat.cast_nonneg units

/-- The fill of the order's copy, after which `resulting` units are held. -/
def incumbentFill (name : String) (delta : ℤ) (resulting : ℕ) (occurredAt : Time) :
    VirtualPositionEvent where
  positionEventId := .external name
  key := ⟨"incumbent", "BTCUSDT", .long⟩
  localQuantityDelta := delta
  resultingLocalQuantity := resulting
  sourceQuantityDelta := delta
  resultingSourceQuantity := resulting
  referencePrice := 100
  leverage := 20
  committedMarginUsdt := 5 * resulting
  signalId := .external name
  occurredAt := occurredAt
  resultingLocalQuantity_nonneg := units_nonneg resulting
  resultingSourceQuantity_nonneg := units_nonneg resulting

def occupiedSlots : SlotLog where
  log := {
    signals := [incumbentRow "open" .increase 1]
    slotAssignments := [⟨.external "assigned", .longTerm, "incumbent", 0⟩]
    positions := [incumbentFill "open" 1 1 2] }

def candidateSelection : SlotSelection where
  candidateIds := ["candidate"]
  selectedLeaderIds := ["candidate"]
  strategy := .longTerm
  scheduledFor := 0
  candidateDigest := .external "candidates"
  policyDigest := .external "policy"
  occurredAt := 10

def requestedSlots : SlotLog := occupiedSlots.commitSelection candidateSelection

/-- The leader closes within the hour.  The order is found and copied two days later. -/
def recoveredSlots : SlotLog :=
  { requestedSlots with log := { requestedSlots.log with
      signals := requestedSlots.log.signals ++ [incumbentRow "close" .reduce 3600000000]
      positions := requestedSlots.log.positions ++
        [incumbentFill "close" (-1) 0 172800000000] } }

def appliedSlots : SlotLog := (recoveredSlots.reconcilePendingSlotReplacements 172800000001).2

theorem slotRun_recoveredSlots : SlotRun 10 recoveredSlots := by
  have ho : ∀ slot leader, occupiedSlots.currentSlot slot = some leader → slot = .longTerm := by
    intro slot leader hc
    cases slot <;> first | rfl | cases hc
  have hst : SlotRun 0 occupiedSlots :=
    .start (fun left right leader hl hr =>
      (ho left leader hl).trans (ho right leader hr).symm) (by decide) rfl
  have hs : occupiedSlots.applySlotSelection candidateSelection =
      .ok (candidateSelection.selectionRunId, requestedSlots) := by
    have ha : occupiedSlots.selectionRefusal candidateSelection = none := by
      decide
    unfold SlotLog.applySlotSelection
    rw [if_neg (not_not.mpr (by decide)), if_neg (by decide), ha]
    rfl
  exact .outside (.call hst (by decide) (.select rfl hs)) rfl rfl rfl rfl

def EventLog.asOf (log : EventLog) (instant : Time) : EventLog :=
  { log with
    positions := log.positions.filter (·.occurredAt ≤ instant)
    decisions := log.decisions.filter (·.occurredAt ≤ instant) }

theorem applied_slots_safe :
    appliedSlots.currentSlot .longTerm = some "candidate" ∧ appliedSlots.OccupiesOnce ∧
      SlotSafe recoveredSlots appliedSlots := by
  have hc : SlotCall 172800000001 recoveredSlots appliedSlots := .reconcile
  refine ⟨by decide, ?_, ?_⟩
  · exact (slots_safe (slotRun_recoveredSlots.call (by decide) hc)).1
  · exact (slots_safe slotRun_recoveredSlots).2.2.2 _ _ (by decide) hc

/-- A replacement is applied although its incumbent held a unit when it expired: the leader's
order that closed it is from before, the fill of its copy from after. -/
theorem late_fill_applied :
    ¬ ∀ [HexOrder] (clock time : Time) (st post : SlotLog), SlotRun clock st →
      clock < time → SlotCall time st post →
      ∀ ev ∈ post.replacements, ev ∉ st.replacements → ev.state = .applied →
        ev.incumbent ∉ (st.log.asOf ev.expiresAt).leadersWithOwnedExposure := by
  intro hc
  have hn : ∀ ev ∈ appliedSlots.replacements, ev ∉ recoveredSlots.replacements →
      ev.state = .applied →
      ev.incumbent ∉ (recoveredSlots.log.asOf ev.expiresAt).leadersWithOwnedExposure :=
    hc 10 172800000001 recoveredSlots appliedSlots slotRun_recoveredSlots (by decide)
      .reconcile
  revert hn
  decide

end LateFill

end AiQuant.CopyTrading
