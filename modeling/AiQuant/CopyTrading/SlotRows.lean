import AiQuant.CopyTrading.ConfirmedChanges

/-! What a change of the slots appends.  A selection, a reconciliation and a confirmed change
compute rows from the tables as they read them; the rows are committed later, onto tables that
others may have appended lifecycles to.  Every call gives a leader whom it assigns a lifecycle
that is polled, and retires only leaders whom it leaves without a slot. -/
namespace AiQuant.CopyTrading
open AiQuant.Lib

section Occupants

def OneSlotEach (current : LeaderSlot → Option String) : Prop :=
  ∀ left right leader, current left = some leader → current right = some leader → left = right

variable {current : LeaderSlot → Option String} {slot : LeaderSlot} {leader : String}

theorem OneSlotEach.assign (ho : OneSlotEach current)
    (hf : ∀ other, other ≠ slot → current other ≠ some leader) :
    OneSlotEach (Function.update current slot (some leader)) := by
  intro left right name hle hri
  by_cases hl : left = slot
  · by_cases hr : right = slot
    · exact hl.trans hr.symm
    · rw [hl, Function.update_self, Option.some.injEq] at hle
      rw [Function.update_of_ne hr, ← hle] at hri
      exact absurd hri (hf right hr)
  · rw [Function.update_of_ne hl] at hle
    by_cases hr : right = slot
    · rw [hr, Function.update_self, Option.some.injEq] at hri
      rw [← hri] at hle
      exact absurd hle (hf left hl)
    · rw [Function.update_of_ne hr] at hri
      exact ho left right name hle hri

theorem OneSlotEach.clear (hon : OneSlotEach current) :
    OneSlotEach (Function.update current slot none) := by
  have hk : ∀ other name, Function.update current slot none other = some name →
      current other = some name := by
    intro other name ho
    by_cases hs : other = slot
    · rw [hs, Function.update_self] at ho
      cases ho
    · rwa [Function.update_of_ne hs] at ho
  intro left right name hl hr
  exact hon left right name (hk left name hl) (hk right name hr)

def afterRows (rows : List SlotRow) (current : LeaderSlot → Option String) :
    LeaderSlot → Option String :=
  rows.foldl (fun current row => Function.update current row.slot row.occupant) current

theorem afterRows_cons (row : SlotRow) (rest : List SlotRow) : afterRows (row :: rest) current =
      afterRows rest (Function.update current row.slot row.occupant) := rfl

variable {rows : List SlotRow}

theorem afterRows_of_not_mem (hm : slot ∉ rows.map (·.slot)) :
    afterRows rows current slot = current slot := by
  induction rows generalizing current with
  | nil => rfl
  | cons row rest ih =>
    rw [List.map_cons, List.mem_cons, not_or] at hm
    rw [afterRows_cons, ih hm.2, Function.update_of_ne hm.1]

theorem afterRows_of_mem (hn : (rows.map (·.slot)).Nodup) {row : SlotRow} (hm : row ∈ rows) :
    afterRows rows current row.slot = row.occupant := by
  induction rows generalizing current with
  | nil => cases hm
  | cons first rest ih =>
    rw [List.map_cons, List.nodup_cons] at hn
    rcases List.mem_cons.mp hm with rfl | hr
    · rw [afterRows_cons, afterRows_of_not_mem hn.1, Function.update_self]
    · exact ih hn.2 hr

theorem afterRows_cases (ho : afterRows rows current slot = some leader) :
    current slot = some leader ∨ ∃ row ∈ rows, row.slot = slot ∧ row.occupant = some leader := by
  induction rows generalizing current with
  | nil => exact Or.inl ho
  | cons row rest ih =>
    rw [afterRows_cons] at ho
    rcases ih ho with hb | ⟨other, hot, hr⟩
    · by_cases hs : slot = row.slot
      · rw [hs, Function.update_self] at hb
        exact Or.inr ⟨row, List.mem_cons_self, hs.symm, hb⟩
      · rw [Function.update_of_ne hs] at hb
        exact Or.inl hb
    · exact Or.inr ⟨other, List.mem_cons_of_mem _ hot, hr⟩

theorem OneSlotEach.displaced (hon : OneSlotEach current)
    {cand : String} (hi : current slot = some leader) (hot : cand ≠ leader)
    (hr : ∀ row ∈ rows, row.occupant ≠ some leader) (left : LeaderSlot) :
    afterRows rows (Function.update current slot (some cand)) left ≠ some leader := by
  intro ho
  rcases afterRows_cases ho with hb | ⟨row, hrow, -, hn⟩
  · by_cases hs : left = slot
    · rw [hs, Function.update_self, Option.some.injEq] at hb
      exact hot hb
    · rw [Function.update_of_ne hs] at hb
      exact hs (hon left slot leader hb hi)
  · exact hr row hrow hn

end Occupants

structure SlotRows where
  assignments : List LeaderSlotEvent := []
  clearings : List SlotClearingEvent := []
  lifecycles : List LeaderLifecycleEvent := []
  replacements : List SlotReplacementEvent := []
  selectionRuns : List Digest := []

def SlotLog.append (state : SlotLog) (rows : SlotRows) : SlotLog :=
  { state with
    log := { state.log with slotAssignments := state.log.slotAssignments ++ rows.assignments }
    slotClearings := state.slotClearings ++ rows.clearings
    lifecycles := state.lifecycles ++ rows.lifecycles
    replacements := state.replacements ++ rows.replacements
    selectionRuns := state.selectionRuns ++ rows.selectionRuns }

def SlotRows.slotRows (rows : SlotRows) : List SlotRow :=
  rows.assignments.map (·.row) ++ rows.clearings.map (·.row)

/-- The states that `active_assignments` polls. -/
def LeaderLifecycle.followed : LeaderLifecycle → Bool
  | .observeOnly | .active | .draining => true
  | .candidate | .retired => false

structure SlotRows.Sound (rows : SlotRows) (current : LeaderSlot → Option String) : Prop where
  entered : ∀ assignment ∈ rows.assignments, ∃ event ∈ rows.lifecycles,
    event.leadPortfolioId = assignment.leadPortfolioId ∧ event.state.followed = true ∧
      event.occurredAt = assignment.occurredAt
  left : ∀ event ∈ rows.lifecycles, event.state.followed = false →
    (∀ assignment ∈ rows.assignments, assignment.leadPortfolioId ≠ event.leadPortfolioId) →
    ∀ slot, afterRows rows.slotRows current slot ≠ some event.leadPortfolioId
  once : OneSlotEach (afterRows rows.slotRows current)

/-- Whoever is assigned gets a lifecycle that is polled. -/
def SlotRows.Entered (rows : SlotRows) : Prop :=
  ∀ assignment ∈ rows.assignments, ∃ event ∈ rows.lifecycles,
    event.leadPortfolioId = assignment.leadPortfolioId ∧ event.state.followed = true ∧
      event.occurredAt = assignment.occurredAt

theorem SlotRows.Sound.nothing {current : LeaderSlot → Option String}
    (ho : OneSlotEach current) : SlotRows.Sound {} current where
  entered := by simp
  left := by simp
  once := ho

theorem selectedLifecycle_followed (life : Option LeaderLifecycle) :
    (selectedLifecycle life).followed = true := by
  rcases life with _ | life
  · rfl
  · cases life <;> rfl

theorem manuallySelectedLifecycle_followed (life : Option LeaderLifecycle) :
    (manuallySelectedLifecycle life).followed = true := by
  rcases life with _ | life
  · rfl
  · cases life <;> rfl

theorem foldl_appendAssignment (events : List LeaderSlotEvent) (st : SlotLog) :
    events.foldl SlotLog.appendAssignment st = st.append { assignments := events } := by
  induction events generalizing st with
  | nil => simp [SlotLog.append]
  | cons ev rest ih =>
    rw [List.foldl_cons, ih]
    simp [SlotLog.append, SlotLog.appendAssignment]

theorem foldl_appendLifecycle (events : List LeaderLifecycleEvent) (st : SlotLog) :
    events.foldl SlotLog.appendLifecycle st = st.append { lifecycles := events } := by
  induction events generalizing st with
  | nil => simp [SlotLog.append]
  | cons ev rest ih =>
    rw [List.foldl_cons, ih]
    simp [SlotLog.append, SlotLog.appendLifecycle]

/-! ### Confirmed changes -/

section Confirmed

variable [HexOrder] {st : SlotLog}

def SlotLog.changeRows (state : SlotLog) (challenge : LeaderChallenge) (now : Time) : SlotRows where
  assignments := challenge.leadPortfolioId.toList.map fun leader =>
    ⟨.manualSlot challenge.challengeId challenge.leadPortfolioId challenge.slot, challenge.slot,
      leader, now⟩
  clearings := if challenge.leadPortfolioId = none then
    [⟨.manualSlot challenge.challengeId challenge.leadPortfolioId challenge.slot, challenge.slot,
      now⟩] else []
  lifecycles := challenge.leadPortfolioId.toList.map (fun leader =>
      challenge.lifecycleEvent leader
        (manuallySelectedLifecycle (state.latestLeaderLifecycle leader)) now) ++
    (state.displacedLeader challenge).toList.map fun displaced =>
      challenge.lifecycleEvent displaced.1 displaced.2 now

theorem applyLeaderChange_eq_append (st : SlotLog) (chal : LeaderChallenge) (now : Time) :
    st.applyLeaderChange chal now = st.append (st.changeRows chal now) := by
  unfold SlotLog.applyLeaderChange SlotLog.changeRows SlotLog.appendSlotChange
  cases chal.leadPortfolioId with
  | none => cases st.displacedLeader chal <;> simp [SlotLog.append, SlotLog.appendLifecycle]
  | some leader =>
    cases st.displacedLeader chal <;>
      simp [SlotLog.append, SlotLog.appendLifecycle, SlotLog.appendAssignment] <;> rfl

theorem slotRows_changeRows (st : SlotLog) (chal : LeaderChallenge) (now : Time) :
    (st.changeRows chal now).slotRows =
      [⟨.manualSlot chal.challengeId chal.leadPortfolioId chal.slot,
        chal.slot, chal.leadPortfolioId, now⟩] := by
  unfold SlotLog.changeRows SlotRows.slotRows
  cases chal.leadPortfolioId <;> rfl

theorem changeRows_entered (st : SlotLog) (chal : LeaderChallenge) (now : Time) :
    (st.changeRows chal now).Entered := by
  intro asg ha
  obtain ⟨leader, hl, rfl⟩ := List.mem_map.mp ha
  refine ⟨_, List.mem_append_left _ (List.mem_map_of_mem hl), rfl, ?_, rfl⟩
  exact manuallySelectedLifecycle_followed _

theorem changeRows_sound {chal : LeaderChallenge} (now : Time) (ho : OneSlotEach st.currentSlot)
    (ha : st.refusesChange chal = false) : (st.changeRows chal now).Sound st.currentSlot where
  entered := changeRows_entered st chal now
  left ev hev hunfollowed _ := by
    rw [slotRows_changeRows]
    rcases List.mem_append.mp hev with he | hd
    · obtain ⟨leader, -, rfl⟩ := List.mem_map.mp he
      exact absurd (manuallySelectedLifecycle_followed _) (Bool.eq_false_iff.mp hunfollowed)
    · obtain ⟨displaced, hm, rfl⟩ := List.mem_map.mp hd
      unfold SlotLog.displacedLeader at hm
      rw [Option.mem_toList, Option.map_eq_some_iff] at hm
      obtain ⟨old, hold, rfl⟩ := hm
      rw [Option.filter_eq_some_iff, List.all_eq_true] at hold
      intro slot
      exact of_decide_eq_true (hold.2 slot (mem_leaderSlots slot))
  once := by
    rw [slotRows_changeRows]
    have hf := refusesChange_eq_false_iff.mp ha
    unfold afterRows
    rw [List.foldl_cons, List.foldl_nil]
    cases hl : chal.leadPortfolioId with
    | none => exact ho.clear
    | some leader =>
      rw [hl] at hf
      exact ho.assign fun other _ => hf other

end Confirmed

/-! ### Selections -/

section Selection

variable [HexOrder] {st : SlotLog} {sel : SlotSelection}

omit [HexOrder] in
theorem foldl_appendReplacement {α : Type} (ev : α → SlotReplacementEvent) (items : List α)
    (st : SlotLog) : items.foldl (fun st item => st.appendReplacement (ev item)) st =
      st.append { replacements := items.map ev } := by
  induction items generalizing st with
  | nil => simp [SlotLog.append]
  | cons item rest ih =>
    rw [List.foldl_cons, ih]
    simp [SlotLog.append, SlotLog.appendReplacement]

theorem selectSlot_append (start : SlotLog) (sel : SlotSelection) (st : SlotLog)
    (asg : LeaderSlot × String) : ∃ replacements, start.selectSlot sel st asg =
      st.append { replacements := replacements } := by
  unfold SlotLog.selectSlot SlotLog.supersedeOpenSlotReplacements
  dsimp only
  rw [foldl_appendReplacement]
  cases start.currentSlot asg.1 with
  | none => exact ⟨_, rfl⟩
  | some incumbent =>
    dsimp only
    split
    · exact ⟨_, by simp [SlotLog.append, SlotLog.appendReplacement]; rfl⟩
    · exact ⟨_, rfl⟩

theorem foldl_selectSlot_append (start : SlotLog) (sel : SlotSelection)
    (assignments : List (LeaderSlot × String)) (st : SlotLog) :
    ∃ replacements, assignments.foldl (start.selectSlot sel) st =
      st.append { replacements := replacements } := by
  induction assignments generalizing st with
  | nil => exact ⟨[], by simp [SlotLog.append]⟩
  | cons asg rest ih =>
    obtain ⟨first, hf⟩ := selectSlot_append start sel st asg
    obtain ⟨later, hl⟩ := ih (st.append { replacements := first })
    refine ⟨first ++ later, ?_⟩
    rw [List.foldl_cons, hf, hl]
    simp [SlotLog.append]

def SlotLog.selectionRows (state : SlotLog) (selection : SlotSelection)
    (replacements : List SlotReplacementEvent) : SlotRows where
  assignments := (state.directAssignments selection).map selection.slotEvent
  lifecycles := state.lifecycleChanges selection
  replacements := replacements
  selectionRuns := [selection.selectionRunId]

theorem commitSelection_eq_append (st : SlotLog) (sel : SlotSelection) :
    ∃ replacements, st.commitSelection sel = st.append (st.selectionRows sel replacements) := by
  obtain ⟨replacements, hl⟩ := foldl_selectSlot_append st sel sel.slotAssignments
    { st with selectionRuns := st.selectionRuns ++ [sel.selectionRunId] }
  refine ⟨replacements, ?_⟩
  unfold SlotLog.commitSelection
  dsimp only
  rw [hl, foldl_appendAssignment, foldl_appendLifecycle]
  simp [SlotLog.append, SlotLog.selectionRows]

omit [HexOrder] in
theorem slotAssignments_nodup (hw : sel.WellFormed) : (sel.slotAssignments.map Prod.fst).Nodup ∧
      (sel.slotAssignments.map Prod.snd).Nodup := by
  unfold SlotSelection.slotAssignments
  rw [List.map_fst_zip hw.1.ge, List.map_snd_zip hw.1.le]
  exact ⟨sel.strategy.nodup_slots, hw.2.1⟩

omit [HexOrder] in
theorem OneSlotEach.assignAll {current : LeaderSlot → Option String}
    (hon : OneSlotEach current) {events : List LeaderSlotEvent}
    (hs : (events.map (·.slot)).Nodup) (hl : (events.map (·.leadPortfolioId)).Nodup)
    (hf : ∀ ev ∈ events, ∀ other, other ≠ ev.slot → current other ≠ some ev.leadPortfolioId) :
    OneSlotEach (afterRows (events.map (·.row)) current) := by
  induction events generalizing current with
  | nil => exact hon
  | cons ev rest ih =>
    rw [List.map_cons, List.nodup_cons] at hs hl
    obtain ⟨hh, hr⟩ := List.forall_mem_cons.mp hf
    rw [List.map_cons, afterRows_cons]
    refine ih (hon.assign hh) hs.2 hl.2 fun later hla other ho => ?_
    dsimp only [LeaderSlotEvent.row]
    by_cases hsl : other = ev.slot
    · rw [hsl, Function.update_self, Ne, Option.some.injEq]
      exact fun hsa => hl.1 (hsa ▸ List.mem_map_of_mem hla)
    · rw [Function.update_of_ne hsl]
      exact hr later hla other ho

theorem slotRows_selectionRows (replacements : List SlotReplacementEvent) :
    (st.selectionRows sel replacements).slotRows =
      ((st.directAssignments sel).map sel.slotEvent).map (·.row) :=
  List.append_nil _

theorem afterRows_selection (hw : sel.WellFormed)
    (replacements : List SlotReplacementEvent) (slot : LeaderSlot) :
    afterRows (st.selectionRows sel replacements).slotRows st.currentSlot slot =
      st.finalSlot sel slot := by
  have hn : ((st.selectionRows sel replacements).slotRows.map (·.slot)).Nodup := by
    rw [slotRows_selectionRows, List.map_map, List.map_map]
    exact (slotAssignments_nodup hw).1.sublist ((List.filter_sublist ..).map _)
  unfold SlotLog.finalSlot
  cases hf : (st.directAssignments sel).find? (·.1 = slot) with
  | none =>
    refine afterRows_of_not_mem fun hm => ?_
    rw [slotRows_selectionRows, List.map_map, List.map_map] at hm
    obtain ⟨asg, ha, hs⟩ := List.mem_map.mp hm
    exact List.find?_eq_none.mp hf asg ha (decide_eq_true hs)
  | some asg =>
    have hs := List.find?_some hf
    rw [decide_eq_true_eq] at hs
    have hr : (sel.slotEvent asg).row ∈ (st.selectionRows sel replacements).slotRows := by
      rw [slotRows_selectionRows]
      exact List.mem_map_of_mem (List.mem_map_of_mem (List.mem_of_find?_eq_some hf))
    rw [← hs]
    exact afterRows_of_mem hn hr

theorem selectionRows_entered (st : SlotLog) (sel : SlotSelection)
    (replacements : List SlotReplacementEvent) : (st.selectionRows sel replacements).Entered := by
  intro ev he
  obtain ⟨asg, ha, rfl⟩ := List.mem_map.mp he
  obtain ⟨hm, hs⟩ := List.mem_filter.mp ha
  rw [decide_eq_true_eq] at hs
  have hse : asg.2 ∈ st.selectedDirect sel := by
    refine List.mem_map_of_mem (List.mem_filter.mpr ⟨hm, decide_eq_true ?_⟩)
    exact List.mem_cons_of_mem _ (List.mem_cons_of_mem _ hs)
  refine ⟨_, List.mem_append_left _ (List.mem_map_of_mem hse), rfl, ?_, rfl⟩
  exact selectedLifecycle_followed _

theorem selectionRows_sound (hon : OneSlotEach st.currentSlot) (hw : sel.WellFormed)
    (hac : st.selectionRefusal sel = none) (replacements : List SlotReplacementEvent) :
    (st.selectionRows sel replacements).Sound st.currentSlot where
  entered := selectionRows_entered st sel replacements
  left ev he hunfollowed _ slot := by
    rw [afterRows_selection hw]
    rcases List.mem_append.mp he with hs | hr
    · obtain ⟨leader, -, rfl⟩ := List.mem_map.mp hs
      exact absurd (selectedLifecycle_followed _) (Bool.eq_false_iff.mp hunfollowed)
    · obtain ⟨leader, hl, rfl⟩ := List.mem_map.mp hr
      have hg := (List.mem_filter.mp hl).2
      rw [List.all_eq_true] at hg
      exact of_decide_eq_true (hg slot (mem_leaderSlots slot))
  once := by
    rw [slotRows_selectionRows]
    have hd : (st.directAssignments sel).Sublist sel.slotAssignments :=
      List.filter_sublist ..
    refine hon.assignAll ?_ ?_ ?_
    · rw [List.map_map]
      exact (slotAssignments_nodup hw).1.sublist (hd.map _)
    · rw [List.map_map]
      exact (slotAssignments_nodup hw).2.sublist (hd.map _)
    · refine List.forall_mem_map.mpr fun asg ha other ho => ?_
      exact currentSlot_ne_of_selectionRefusal hac (hd.subset ha) ho

theorem applySlotSelection_cases {result : Digest × SlotLog}
    (hs : st.applySlotSelection sel = .ok result) :
    (sel.selectionRunId ∈ st.selectionRuns ∧ result.2 = st.append {}) ∨
    sel.selectionRunId ∉ st.selectionRuns ∧ sel.WellFormed ∧
      st.selectionRefusal sel = none ∧
      ∃ replacements, result.2 = st.append (st.selectionRows sel replacements) := by
  unfold SlotLog.applySlotSelection at hs
  split_ifs at hs with hw hk
  · cases hs
    exact Or.inl ⟨hk, by simp [SlotLog.append]⟩
  · cases ha : st.selectionRefusal sel with
    | some reason =>
      rw [ha] at hs
      cases hs
    | none =>
      rw [ha] at hs
      cases hs
      exact Or.inr ⟨hk, hw, rfl, commitSelection_eq_append st sel⟩

theorem applySlotSelection_rows (ho : OneSlotEach st.currentSlot)
    {result : Digest × SlotLog} (hs : st.applySlotSelection sel = .ok result) :
    ∃ rows : SlotRows, result.2 = st.append rows ∧ rows.Sound st.currentSlot ∧
      rows.assignments = if sel.selectionRunId ∈ st.selectionRuns then []
        else (st.directAssignments sel).map sel.slotEvent := by
  rcases applySlotSelection_cases hs with ⟨hk, hr⟩ |
    ⟨hk, hw, ha, replacements, hr⟩
  · exact ⟨{}, hr, .nothing ho, (if_pos hk).symm⟩
  · exact ⟨_, hr, selectionRows_sound ho hw ha replacements, (if_neg hk).symm⟩

end Selection

/-! ### Reconciliations -/

section Reconciliation

variable [HexOrder] {current : LeaderSlot → Option String} {locked : List String}
  {row : SlotReplacementEvent} {time : Time}

theorem replacementOutcome_applied {st : SlotLog}
    (ho : st.replacementOutcome locked current row time = .applied) :
    current row.slot = some row.incumbent ∧
      ∀ other, other ≠ row.slot → current other ≠ some row.candidate := by
  unfold SlotLog.replacementOutcome at ho
  dsimp only at ho
  split_ifs at ho with hi hl ha he hexp
  refine ⟨not_not.mp hi, fun other hot hc => ha ?_⟩
  refine List.any_eq_true.mpr ⟨other, mem_leaderSlots other, ?_⟩
  simp [hot, hc]

def SlotLog.applyRows (state : SlotLog) (row : SlotReplacementEvent) (occurredAt : Time)
    (rest : SlotRows) : SlotRows :=
  let assignment : LeaderSlotEvent :=
    ⟨.replacementAssignment row.replacementId row.slot, row.slot, row.candidate, occurredAt⟩
  let lifecycle (leader : String) (lifecycle : LeaderLifecycle) : LeaderLifecycleEvent :=
    ⟨.replacementLifecycle leader row.replacementId lifecycle, leader, lifecycle,
      some row.selectionRunId, ["COPY_DEFERRED_SLOT_REPLACEMENT"], occurredAt⟩
  { rest with
    assignments := assignment :: rest.assignments
    lifecycles := lifecycle row.candidate
        (selectedLifecycle (state.latestLeaderLifecycle row.candidate)) ::
      lifecycle row.incumbent .retired :: rest.lifecycles
    replacements := row.terminal .applied
        "COPY_SLOT_REPLACEMENT_APPLIED_AFTER_EXPOSURE_CLOSE" occurredAt :: rest.replacements }

theorem applyReplacement_append (st : SlotLog) (row : SlotReplacementEvent)
    (time : Time) (rest : SlotRows) : (st.applyReplacement row time).append rest =
      st.append (st.applyRows row time rest) := by
  simp [SlotLog.applyReplacement, SlotLog.append, SlotLog.applyRows, SlotLog.appendAssignment,
    SlotLog.appendLifecycle, SlotLog.appendReplacement, SlotLog.latestLeaderLifecycle]

omit [HexOrder] in
theorem appendReplacement_append (st : SlotLog) (ev : SlotReplacementEvent) (rest : SlotRows) :
    (st.appendReplacement ev).append rest =
      st.append { rest with replacements := ev :: rest.replacements } := by
  simp [SlotLog.append, SlotLog.appendReplacement]

theorem SlotRows.Sound.apply {rest : SlotRows} (st : SlotLog) (hon : OneSlotEach current)
    (hi : current row.slot = some row.incumbent) (hcl : rest.clearings = [])
    (hr : rest.Sound (Function.update current row.slot (some row.candidate))) :
    (st.applyRows row time rest).Sound current where
  entered asg ha := by
    rcases List.mem_cons.mp ha with rfl | hl
    · exact ⟨_, List.mem_cons_self, rfl, selectedLifecycle_followed _, rfl⟩
    · obtain ⟨ev, he, hen⟩ := hr.entered asg hl
      exact ⟨ev, List.mem_cons_of_mem _ (List.mem_cons_of_mem _ he), hen⟩
  left ev he hunfollowed hunassigned slot := by
    obtain ⟨hc, ho⟩ := List.forall_mem_cons.mp hunassigned
    rcases List.mem_cons.mp he with rfl | he
    · exact absurd (selectedLifecycle_followed _) (Bool.eq_false_iff.mp hunfollowed)
    rcases List.mem_cons.mp he with rfl | he
    · refine hon.displaced hi hc (fun later hl hn => ?_) slot
      have hl : later ∈ rest.assignments.map (·.row) ++ rest.clearings.map (·.row) := hl
      rw [hcl, List.map_nil, List.append_nil] at hl
      obtain ⟨asg, ha, rfl⟩ := List.mem_map.mp hl
      exact ho asg ha (Option.some.inj hn)
    · exact hr.left ev he hunfollowed ho slot
  once := hr.once

omit [HexOrder] in
theorem SlotRows.Entered.append {asg : LeaderSlotEvent} {ev other : LeaderLifecycleEvent}
    {rest : SlotRows} {replacements : List SlotReplacementEvent} (hr : rest.Entered)
    (hl : ev.leadPortfolioId = asg.leadPortfolioId)
    (hf : ev.state.followed = true) (ht : ev.occurredAt = asg.occurredAt) :
    SlotRows.Entered { rest with
      assignments := asg :: rest.assignments
      lifecycles := ev :: other :: rest.lifecycles
      replacements := replacements } := by
  intro entered he
  rcases List.mem_cons.mp he with rfl | hla
  · exact ⟨ev, List.mem_cons_self, hl, hf, ht⟩
  · obtain ⟨found, hfo, hk⟩ := hr entered hla
    exact ⟨found, List.mem_cons_of_mem _ (List.mem_cons_of_mem _ hfo), hk⟩

theorem reconcileRows_append (locked : List String) (time : Time)
    (pending : List SlotReplacementEvent) (current : LeaderSlot → Option String) (st : SlotLog) :
    ∃ rows : SlotRows, rows.clearings = [] ∧ rows.Entered ∧
      (OneSlotEach current → rows.Sound current) ∧
      (SlotLog.reconcileRows locked time pending current st).2 = st.append rows := by
  induction pending generalizing current st with
  | nil =>
    refine ⟨{}, rfl, ?_, .nothing, by simp [SlotLog.reconcileRows, SlotLog.append]⟩
    exact fun _ ha => absurd ha List.not_mem_nil
  | cons row rest ih =>
    have hse : ∀ ev, ∃ rows : SlotRows, rows.clearings = [] ∧ rows.Entered ∧
        (OneSlotEach current → rows.Sound current) ∧
        (SlotLog.reconcileRows locked time rest current
          (st.appendReplacement ev)).2 = st.append rows := by
      intro ev
      obtain ⟨rows, hc, he, hs, hl⟩ := ih current (st.appendReplacement ev)
      refine ⟨_, ?_, ?_, ?_, hl.trans (appendReplacement_append st ev rows)⟩
      · exact hc
      · exact he
      · exact fun hon => ⟨(hs hon).entered, (hs hon).left, (hs hon).once⟩
    unfold SlotLog.reconcileRows
    cases ho : st.replacementOutcome locked current row time with
    | superseded reasonCode => exact hse _
    | applied =>
      obtain ⟨hi, hf⟩ := replacementOutcome_applied ho
      obtain ⟨rows, hc, he, hs, hl⟩ :=
        ih (Function.update current row.slot (some row.candidate))
          (st.applyReplacement row time)
      refine ⟨_, ?_, ?_, ?_, hl.trans (applyReplacement_append st row time rows)⟩
      · exact hc
      · exact he.append rfl (selectedLifecycle_followed _) rfl
      · exact fun hon => (hs (hon.assign hf)).apply st hon hi hc
    | expired => exact hse _
    | waiting => exact ih current st

theorem reconcileRows_rows (locked : List String) (time : Time)
    (pending : List SlotReplacementEvent) (st : SlotLog) (ho : OneSlotEach current) :
    ∃ rows : SlotRows, rows.clearings = [] ∧ rows.Sound current ∧
      (SlotLog.reconcileRows locked time pending current st).2 = st.append rows := by
  obtain ⟨rows, hc, -, hs, hl⟩ :=
    reconcileRows_append locked time pending current st
  exact ⟨rows, hc, hs ho, hl⟩

end Reconciliation

end AiQuant.CopyTrading
