import AiQuant.CopyTrading.SlotRows

/-! Slots and lifecycles under interleaved transactions.  The changes of the slots exclude one
another by their lock, the retirement of drained leaders has a lock of its own, and the
activations of the poller have none.  Each change reads, computes its rows and commits them
later; each row carries a time that its caller took before.  An occupant is polled as long as
what commits is later than what it has to outdate. -/
namespace AiQuant.CopyTrading
open AiQuant.Lib

/-- A change that has computed its rows, with the occupants that it reports. -/
structure PendingChange where
  rows : SlotRows
  reported : List (LeaderSlot × String)

/-- The committed tables and the transactions that are under way, one for each lock. -/
structure SlotSystem where
  tables : SlotLog
  changing : Option PendingChange := none
  retiring : Option (List String × Time) := none

section System

variable [HexOrder]

inductive SlotChange (read : SlotLog) : PendingChange → Prop
  | select {selection : SlotSelection} {result : Digest × SlotLog} {rows : SlotRows}
      (hselect : read.applySlotSelection selection = .ok result)
      (hrows : result.2 = read.append rows) :
      SlotChange read ⟨rows, if selection.selectionRunId ∈ read.selectionRuns then []
        else read.directAssignments selection⟩
  | reconcile (occurredAt : Time) {rows : SlotRows}
      (hrows : (read.reconcilePendingSlotReplacements occurredAt).2 = read.append rows) :
      SlotChange read ⟨rows, rows.assignments.map fun row => (row.slot, row.leadPortfolioId)⟩
  | confirm {tables after : LeaderTables} {userId : ℤ} {nonce : String} {now : Time}
      {report : LeaderChangeReport} {rows : SlotRows} (hread : tables.slots = read)
      (hexecute : tables.executeLeaderChangeConfirmed userId nonce now = (some report, after))
      (hrows : after.slots = read.append rows) :
      SlotChange read ⟨rows, report.assigned.toList.map (report.slot, ·)⟩

inductive SlotAction where
  | begin (change : PendingChange)
  | commit
  | rollback
  | read (occurredAt : Time)
  | retire
  | abandon
  | activate (leader : String) (occurredAt : Time) (reasonCodes : List String)
  | outside (tables : SlotLog)

/-- One statement or commit.  A change and a retirement may be rolled back; what others write
leaves the slot events and the lifecycles alone. -/
inductive SlotSystemStep (before : SlotSystem) : SlotAction → SlotSystem → Prop
  | begin {change : PendingChange} (hfree : before.changing = none)
      (hchange : SlotChange before.tables change) :
      SlotSystemStep before (.begin change) { before with changing := some change }
  | commit {change : PendingChange} (hchanging : before.changing = some change) :
      SlotSystemStep before .commit
        { before with tables := before.tables.append change.rows, changing := none }
  | rollback : SlotSystemStep before .rollback { before with changing := none }
  | read (occurredAt : Time) (hfree : before.retiring = none) :
      SlotSystemStep before (.read occurredAt)
        { before with retiring := some (before.tables.drainedLeaders, occurredAt) }
  | retire {leaders : List String} {occurredAt : Time}
      (hretiring : before.retiring = some (leaders, occurredAt)) :
      SlotSystemStep before .retire
        { before with
          tables := before.tables.retireLeaders leaders occurredAt, retiring := none }
  | abandon : SlotSystemStep before .abandon { before with retiring := none }
  | activate (leader : String) (occurredAt : Time) (reasonCodes : List String) :
      SlotSystemStep before (.activate leader occurredAt reasonCodes)
        { before with
          tables := before.tables.recordLifecycle leader .active occurredAt reasonCodes }
  | outside {tables : SlotLog} (hassignments : tables.log.slotAssignments =
        before.tables.log.slotAssignments)
      (hclearings : tables.slotClearings = before.tables.slotClearings)
      (hlifecycles : tables.lifecycles = before.tables.lifecycles) :
      SlotSystemStep before (.outside tables) { before with tables := tables }

/-- The latest lifecycle of the leader is one that `active_assignments` polls. -/
def SlotLog.Followed (state : SlotLog) (leader : String) : Prop :=
  ∃ lifecycle, state.latestLeaderLifecycle leader = some lifecycle ∧ lifecycle.followed = true

/-- Every occupant is polled. -/
def SlotLog.Coherent (state : SlotLog) : Prop :=
  ∀ slot leader, state.currentSlot slot = some leader → state.Followed leader

/-- A system without transactions under way. -/
structure SlotSystem.Idle (state : SlotSystem) : Prop where
  once : OneSlotEach state.tables.currentSlot
  coherent : state.tables.Coherent
  changing : state.changing = none
  retiring : state.retiring = none

omit [HexOrder] in
/-- The rows are later than what they have to outdate: the rows of their slots, and whatever
has retired the leaders whom they assign.  No slot is written twice. -/
structure SlotRows.Timely (rows : SlotRows) (tables : SlotLog) : Prop where
  slots : ∀ row ∈ rows.slotRows, ∀ old ∈ tables.slotRows, old.slot = row.slot →
    old.occurredAt < row.occurredAt
  once : (rows.slotRows.map (·.slot)).Nodup
  leaders : ∀ assignment ∈ rows.assignments, ∀ event ∈ tables.lifecycles ++ rows.lifecycles,
    event.leadPortfolioId = assignment.leadPortfolioId → event.state.followed = false →
    event.occurredAt < assignment.occurredAt

/-- A retirement at `occurredAt` takes nothing from the leader: it has no slot, or a later
lifecycle hides it. -/
def SlotLog.MayRetire (state : SlotLog) (leader : String) (occurredAt : Time) : Prop :=
  (∀ slot, state.currentSlot slot ≠ some leader) ∨
    ∃ event ∈ state.lifecycles, event.leadPortfolioId = leader ∧ occurredAt < event.occurredAt

/-- A step that commits rows in the order of their times. -/
def SlotAction.Orderly (before : SlotSystem) : SlotAction → Prop
  | .commit => ∀ change, before.changing = some change → change.rows.Timely before.tables
  | .retire => ∀ leaders occurredAt, before.retiring = some (leaders, occurredAt) →
      ∀ leader ∈ leaders, before.tables.MayRetire leader occurredAt
  | _ => True

abbrev SlotSystemRun : SlotSystem → SlotSystem → Prop :=
  Relation.ReflTransGen fun before after => ∃ action, SlotSystemStep before action after

/-- The states of the interleavings whose commits are in order. -/
abbrev OrderlySlotRun : SlotSystem → SlotSystem → Prop :=
  Relation.ReflTransGen fun before after =>
    ∃ action, action.Orderly before ∧ SlotSystemStep before action after

end System

section Commit

variable [HexOrder] {tables : SlotLog} {rows : SlotRows}

theorem SlotLog.followed_iff {leader : String} : tables.Followed leader ↔
      ∃ ev, newest (·.occurredAt) (fun ev => HexOrder.value ev.eventId)
        (tables.lifecycles.filter (·.leadPortfolioId = leader)) = some ev ∧
          ev.state.followed = true := by
  unfold SlotLog.Followed SlotLog.latestLeaderLifecycle
  constructor
  · rintro ⟨life, hl, hf⟩
    obtain ⟨ev, he, rfl⟩ := Option.map_eq_some_iff.mp hl
    exact ⟨ev, he, hf⟩
  · rintro ⟨ev, he, hf⟩
    exact ⟨ev.state, by rw [he]; rfl, hf⟩

omit [HexOrder] in
theorem SlotLog.mem_slotRows_append {row : SlotRow} :
    row ∈ (tables.append rows).slotRows ↔ row ∈ tables.slotRows ∨ row ∈ rows.slotRows := by
  simp only [SlotLog.slotRows, SlotLog.append, SlotRows.slotRows, List.map_append, List.mem_append]
  tauto

theorem latestSlotRow_append (ht : rows.Timely tables) {row : SlotRow}
    (hr : row ∈ rows.slotRows) : (tables.append rows).latestSlotRow row.slot = some row := by
  apply newest_eq_some_of_lt
  · exact List.mem_filter.mpr ⟨SlotLog.mem_slotRows_append.mpr (Or.inr hr), by simp⟩
  · intro other ho hne
    rw [List.mem_filter, decide_eq_true_eq, SlotLog.mem_slotRows_append] at ho
    rcases ho.1 with hold | hn
    · exact ht.slots row hr other hold ho.2
    · exact absurd (List.inj_on_of_nodup_map ht.once hn hr ho.2) hne

theorem latestSlotRow_append_of_not_mem (tables : SlotLog) {slot : LeaderSlot}
    (hs : slot ∉ rows.slotRows.map (·.slot)) :
    (tables.append rows).latestSlotRow slot = tables.latestSlotRow slot := by
  have hn : ∀ {α : Type} (events : List α) (row : α → SlotRow),
      (∀ ev ∈ events, row ev ∈ rows.slotRows) →
      (events.map row).filter (·.slot = slot) = [] := by
    intro α events row hev
    refine List.filter_eq_nil_iff.mpr fun other ho hsa => hs ?_
    obtain ⟨ev, he, rfl⟩ := List.mem_map.mp ho
    exact of_decide_eq_true hsa ▸ List.mem_map_of_mem (hev ev he)
  have ha := hn rows.assignments (·.row) fun ev he =>
    List.mem_append_left _ (List.mem_map_of_mem he)
  have hc := hn rows.clearings (·.row) fun ev he =>
    List.mem_append_right _ (List.mem_map_of_mem he)
  unfold SlotLog.latestSlotRow SlotLog.slotRows SlotLog.append
  simp only [List.map_append, List.filter_append, ha, hc, List.append_nil]

theorem currentSlot_append (ht : rows.Timely tables) :
    (tables.append rows).currentSlot = afterRows rows.slotRows tables.currentSlot := by
  funext slot
  unfold SlotLog.currentSlot
  by_cases hs : slot ∈ rows.slotRows.map (·.slot)
  · obtain ⟨row, hr, rfl⟩ := List.mem_map.mp hs
    rw [afterRows_of_mem ht.once hr, latestSlotRow_append ht hr]
    rfl
  · rw [afterRows_of_not_mem hs, latestSlotRow_append_of_not_mem tables hs]

theorem SlotLog.Followed.append {leader : String} (hf : tables.Followed leader)
    (ha : ∀ ev ∈ rows.lifecycles, ev.leadPortfolioId = leader → ev.state.followed = true) :
    (tables.append rows).Followed leader := by
  rw [SlotLog.followed_iff] at hf ⊢
  have hl : (tables.append rows).lifecycles = tables.lifecycles ++ rows.lifecycles := rfl
  rw [hl, List.filter_append]
  refine newest_append_of_forall _ _ hf fun ev he => ?_
  rw [List.mem_filter, decide_eq_true_eq] at he
  exact ha ev he.1 he.2

theorem SlotRows.Timely.followed {current : LeaderSlot → Option String} (ht : rows.Timely tables)
    (hs : rows.Sound current) {asg : LeaderSlotEvent} (ha : asg ∈ rows.assignments) :
    (tables.append rows).Followed asg.leadPortfolioId := by
  obtain ⟨entered, hen, hl, -, hti⟩ := hs.entered asg ha
  rw [SlotLog.followed_iff]
  have hm : entered ∈ (tables.append rows).lifecycles.filter
      (·.leadPortfolioId = asg.leadPortfolioId) :=
    List.mem_filter.mpr ⟨List.mem_append_right _ hen, decide_eq_true hl⟩
  refine newest_of_later _ _ hm fun ev he hu => ?_
  rw [List.mem_filter, decide_eq_true_eq] at he
  rw [hti]
  exact ht.leaders asg ha ev he.1 he.2 (Bool.eq_false_iff.mpr hu)

theorem SlotLog.Coherent.append (hc : tables.Coherent) (ht : rows.Timely tables)
    (hs : rows.Sound tables.currentSlot) : (tables.append rows).Coherent := by
  intro slot leader ho
  rw [currentSlot_append ht] at ho
  by_cases ha : ∃ asg ∈ rows.assignments, asg.leadPortfolioId = leader
  · obtain ⟨asg, has, rfl⟩ := ha
    exact ht.followed hs has
  · push Not at ha
    have hb : tables.currentSlot slot = some leader := by
      rcases afterRows_cases ho with hb | ⟨row, hr, -, hn⟩
      · exact hb
      · rcases List.mem_append.mp hr with he | hcl
        · obtain ⟨asg, has, rfl⟩ := List.mem_map.mp he
          exact absurd (Option.some.inj hn) (ha asg has)
        · obtain ⟨clearing, -, rfl⟩ := List.mem_map.mp hcl
          cases hn
    refine (hc slot leader hb).append fun ev hev hl => ?_
    by_contra hunfollowed
    rw [Bool.not_eq_true] at hunfollowed
    rw [← hl] at ho ha
    exact hs.left ev hev hunfollowed ha slot ho

theorem currentSlot_of_timely (ht : rows.Timely tables) {asg : LeaderSlotEvent}
    (ha : asg ∈ rows.assignments) :
    (tables.append rows).currentSlot asg.slot = some asg.leadPortfolioId := by
  rw [currentSlot_append ht]
  have hr : asg.row ∈ rows.slotRows :=
    List.mem_append_left _ (List.mem_map_of_mem ha)
  exact afterRows_of_mem ht.once hr

end Commit

section Steps

variable [HexOrder] {tables : SlotLog} {start st post : SlotSystem}

omit [HexOrder] in
theorem SlotLog.append_injective {first second : SlotRows}
    (hs : tables.append first = tables.append second) : first = second := by
  have ha := congrArg (·.log.slotAssignments) hs
  have hc := congrArg (·.slotClearings) hs
  have hl := congrArg (·.lifecycles) hs
  have hr := congrArg (·.replacements) hs
  have hru := congrArg (·.selectionRuns) hs
  cases first
  cases second
  simp only [SlotLog.append, List.append_cancel_left_eq] at *
  simp only [*]

theorem SlotChange.sound {change : PendingChange} (hc : SlotChange tables change)
    (ho : OneSlotEach tables.currentSlot) : change.rows.Sound tables.currentSlot ∧
      ∀ entry ∈ change.reported, ∃ asg ∈ change.rows.assignments,
        (asg.slot, asg.leadPortfolioId) = entry := by
  cases hc with
  | @select sel result rows hselect hro =>
    obtain ⟨found, hf, hs, has⟩ := applySlotSelection_rows ho hselect
    obtain rfl := SlotLog.append_injective (hro.symm.trans hf)
    refine ⟨hs, fun entry he => ?_⟩
    dsimp only at he ⊢
    rw [has]
    split_ifs at he ⊢ with hk
    · cases he
    · exact ⟨_, List.mem_map_of_mem he, rfl⟩
  | reconcile time hro =>
    obtain ⟨rows, -, hs, hlo⟩ := reconcileRows_rows tables.lockedLeaderIds time
      tables.pendingReplacements tables ho
    obtain rfl := SlotLog.append_injective (hro.symm.trans hlo)
    refine ⟨hs, fun entry he => ?_⟩
    obtain ⟨asg, ha, rfl⟩ := List.mem_map.mp he
    exact ⟨asg, ha, rfl⟩
  | confirm hread hexecute hro =>
    obtain ⟨chal, hr, rfl, haf⟩ := executeLeaderChangeConfirmed_slots hexecute
    rw [hread] at hr
    rw [hread, applyLeaderChange_eq_append] at haf
    obtain rfl := SlotLog.append_injective (hro.symm.trans haf)
    refine ⟨changeRows_sound _ ho hr, fun entry he => ?_⟩
    obtain ⟨leader, hl, rfl⟩ := List.mem_map.mp he
    exact ⟨_, List.mem_map_of_mem hl, rfl⟩

structure SlotSystem.Invariant (state : SlotSystem) : Prop where
  once : OneSlotEach state.tables.currentSlot
  coherent : state.tables.Coherent
  pending : ∀ change, state.changing = some change →
    change.rows.Sound state.tables.currentSlot ∧
      ∀ entry ∈ change.reported, ∃ assignment ∈ change.rows.assignments,
        (assignment.slot, assignment.leadPortfolioId) = entry

theorem SlotSystem.Idle.invariant (hi : start.Idle) : start.Invariant where
  once := hi.once
  coherent := hi.coherent
  pending change hc := by
    rw [hi.changing] at hc
    cases hc

omit [HexOrder] in
theorem SlotLog.insertLifecycle_cases (tables : SlotLog) (ev : LeaderLifecycleEvent) :
    tables.insertLifecycle ev = tables ∨
      tables.insertLifecycle ev = tables.append { lifecycles := [ev] } := by
  unfold SlotLog.insertLifecycle
  split
  · exact Or.inl rfl
  · exact Or.inr (by simp [SlotLog.append, SlotLog.appendLifecycle])

theorem SlotLog.currentSlot_append_lifecycles (events : List LeaderLifecycleEvent) :
    (tables.append { lifecycles := events }).currentSlot = tables.currentSlot := by
  unfold SlotLog.currentSlot SlotLog.latestSlotRow SlotLog.slotRows SlotLog.append
  simp

theorem SlotLog.currentSlot_insertLifecycle (ev : LeaderLifecycleEvent) :
    (tables.insertLifecycle ev).currentSlot = tables.currentSlot := by
  rcases tables.insertLifecycle_cases ev with hs | hn
  · rw [hs]
  · rw [hn, SlotLog.currentSlot_append_lifecycles]

theorem latestLeaderLifecycle_append_hidden {ev later : LeaderLifecycleEvent}
    (hla : later ∈ tables.lifecycles) (hle : later.leadPortfolioId = ev.leadPortfolioId)
    (ht : ev.occurredAt < later.occurredAt) (leader : String) :
    (tables.append { lifecycles := [ev] }).latestLeaderLifecycle leader =
      tables.latestLeaderLifecycle leader := by
  have hl : (tables.append { lifecycles := [ev] }).lifecycles = tables.lifecycles ++ [ev] := rfl
  unfold SlotLog.latestLeaderLifecycle
  rw [hl, List.filter_append]
  congr 1
  cases hb : newest (·.occurredAt) (fun ev => HexOrder.value ev.eventId)
      (tables.lifecycles.filter (·.leadPortfolioId = leader)) with
  | none =>
    rw [newest_eq_none_iff] at hb ⊢
    rw [hb, List.nil_append, List.filter_eq_nil_iff]
    intro row hr hs
    cases List.mem_singleton.mp hr
    refine List.filter_eq_nil_iff.mp hb later hla (decide_eq_true ?_)
    exact hle.trans (of_decide_eq_true hs)
  | some best =>
    refine newest_append_of_not_newer _ _ hb fun row hr hn => ?_
    rw [List.mem_filter, List.mem_singleton, decide_eq_true_eq] at hr
    obtain ⟨rfl, hs⟩ := hr
    have hm : later ∈ tables.lifecycles.filter (·.leadPortfolioId = leader) :=
      List.mem_filter.mpr ⟨hla, decide_eq_true (hle.trans hs)⟩
    refine not_newer_of_newest _ _ hb hm (Newer.trans _ _ ?_ hn)
    exact Prod.Lex.toLex_lt_toLex.mpr (Or.inl ht)

theorem SlotLog.Coherent.insertLifecycle (hc : tables.Coherent) {ev : LeaderLifecycleEvent}
    (he : ev.state.followed = true ∨ tables.MayRetire ev.leadPortfolioId ev.occurredAt) :
    (tables.insertLifecycle ev).Coherent := by
  intro slot leader ho
  rw [SlotLog.currentSlot_insertLifecycle] at ho
  have hb := hc slot leader ho
  rcases tables.insertLifecycle_cases ev with hs | hn
  · rwa [hs]
  rw [hn]
  rcases he with hf | hfr | ⟨later, hlat, hl, ht⟩
  · exact hb.append (List.forall_mem_singleton.mpr fun _ => hf)
  · refine hb.append (List.forall_mem_singleton.mpr fun hl => ?_)
    exact absurd (hl ▸ ho) (hfr slot)
  · obtain ⟨life, hla, hf⟩ := hb
    refine ⟨life, ?_, hf⟩
    rw [latestLeaderLifecycle_append_hidden hlat hl ht, hla]

theorem SlotLog.MayRetire.insertLifecycle {leader : String} {time : Time}
    (hm : tables.MayRetire leader time) (ev : LeaderLifecycleEvent) :
    (tables.insertLifecycle ev).MayRetire leader time := by
  rcases hm with hf | ⟨later, hla, hl, ht⟩
  · left
    rwa [SlotLog.currentSlot_insertLifecycle]
  · right
    rcases tables.insertLifecycle_cases ev with hs | hn
    · rw [hs]
      exact ⟨later, hla, hl, ht⟩
    · rw [hn]
      exact ⟨later, List.mem_append_left _ hla, hl, ht⟩

theorem SlotLog.Coherent.retireLeaders (hc : tables.Coherent) {leaders : List String}
    {time : Time} (hm : ∀ leader ∈ leaders, tables.MayRetire leader time) :
    (tables.retireLeaders leaders time).Coherent ∧
      (tables.retireLeaders leaders time).currentSlot = tables.currentSlot := by
  induction leaders generalizing tables with
  | nil => exact ⟨hc, rfl⟩
  | cons leader rest ih =>
    obtain ⟨hf, hre⟩ := List.forall_mem_cons.mp hm
    have hr : (tables.insertLifecycle (drainedRetirement leader time)).Coherent :=
      hc.insertLifecycle (Or.inr hf)
    obtain ⟨ha, hs⟩ := ih hr
      fun other ho => (hre other ho).insertLifecycle _
    exact ⟨ha, hs.trans (SlotLog.currentSlot_insertLifecycle _)⟩

theorem SlotSystem.Invariant.step (hi : st.Invariant) {action : SlotAction}
    (ho : action.Orderly st) (hst : SlotSystemStep st action post) : post.Invariant := by
  obtain ⟨hon, hc, hp⟩ := hi
  cases hst with
  | begin hfree hchange =>
    refine ⟨hon, hc, fun change hch => ?_⟩
    cases hch
    exact hchange.sound hon
  | @commit change hch =>
    have ht := ho change hch
    have hso := (hp change hch).1
    refine ⟨?_, hc.append ht hso, fun _ hn => by cases hn⟩
    dsimp only
    rw [currentSlot_append ht]
    exact hso.once
  | rollback => exact ⟨hon, hc, fun _ hn => by cases hn⟩
  | read time hfree => exact ⟨hon, hc, hp⟩
  | retire hretiring =>
    obtain ⟨hr, hs⟩ := hc.retireLeaders (ho _ _ hretiring)
    constructor
    · dsimp only
      rw [hs]
      exact hon
    · exact hr
    · dsimp only
      rw [hs]
      exact hp
  | abandon => exact ⟨hon, hc, hp⟩
  | activate leader time codes =>
    unfold SlotLog.recordLifecycle
    constructor
    · dsimp only
      rw [SlotLog.currentSlot_insertLifecycle]
      exact hon
    · exact hc.insertLifecycle (Or.inl rfl)
    · dsimp only
      rw [SlotLog.currentSlot_insertLifecycle]
      exact hp
  | @outside tables hassignments hcl hlifecycles =>
    have hs : tables.currentSlot = st.tables.currentSlot := by
      unfold SlotLog.currentSlot SlotLog.latestSlotRow SlotLog.slotRows
      rw [hassignments, hcl]
    have hf : tables.Followed = st.tables.Followed := by
      unfold SlotLog.Followed SlotLog.latestLeaderLifecycle
      rw [hlifecycles]
    constructor
    · dsimp only
      rw [hs]
      exact hon
    · unfold SlotLog.Coherent
      dsimp only
      rw [hs, hf]
      exact hc
    · dsimp only
      rw [hs]
      exact hp

theorem OrderlySlotRun.invariant (hi : start.Idle) (hr : OrderlySlotRun start st) :
    st.Invariant := by
  induction hr with
  | refl => exact hi.invariant
  | tail _ hs ih =>
    obtain ⟨action, ho, hs⟩ := hs
    exact ih.step ho hs

/-- In every state of an orderly interleaving each occupant is polled, and what a change reports
as assigned is what its commit puts in place. -/
theorem slots_coherent (hidle : start.Idle) (hrun : OrderlySlotRun start st) : st.tables.Coherent ∧
      ∀ change post, st.changing = some change → change.rows.Timely st.tables →
        SlotSystemStep st .commit post → ∀ entry ∈ change.reported,
          post.tables.currentSlot entry.1 = some entry.2 := by
  have hi := OrderlySlotRun.invariant hidle hrun
  refine ⟨hi.coherent, fun change post hch ht hs entry he => ?_⟩
  cases hs with
  | commit hc =>
    rw [hch] at hc
    cases hc
    obtain ⟨asg, ha, rfl⟩ := (hi.pending change hch).2 entry he
    exact currentSlot_of_timely ht ha

end Steps

section OvertakenAssignment

local instance overtakenSlotHexOrder : HexOrder := ⟨fun _ => 0⟩

def slotlessLeader : String := "4000000000000000001"

def drainingSystem : SlotSystem where
  tables := {
    log := {}
    lifecycles := [⟨.external "draining", slotlessLeader, .draining, none, [], 0⟩] }

def returnRequest : LeaderChangeRequest where
  userId := 7
  slot := .longTerm
  leadPortfolioId := some slotlessLeader

def returnChallenge : LeaderChallenge := returnRequest.challenge removalNonce 5

def returnTables : LeaderTables where
  slots := drainingSystem.tables
  challenges := [returnChallenge]

def returnChange : PendingChange :=
  ⟨drainingSystem.tables.changeRows returnChallenge 10, [(.longTerm, slotlessLeader)]⟩

theorem slotChange_return : SlotChange drainingSystem.tables returnChange := by
  have hr : (returnTables.executeLeaderChangeConfirmed 7 removalNonce 10).1 =
      some ⟨.longTerm, some slotlessLeader, none⟩ := by decide
  have hro : (returnTables.executeLeaderChangeConfirmed 7 removalNonce 10).2.slots =
      drainingSystem.tables.append returnChange.rows :=
    applyLeaderChange_eq_append drainingSystem.tables returnChallenge 10
  exact .confirm rfl (Prod.ext hr rfl) hro

def returnedSystem : SlotSystem where
  tables := drainingSystem.tables.append returnChange.rows

theorem drainingSystem_idle : drainingSystem.Idle where
  once := by
    intro left right leader hl
    cases left <;> cases hl
  coherent := by
    intro slot leader ho
    cases slot <;> cases ho
  changing := rfl
  retiring := rfl

theorem returnChange_timely : returnChange.rows.Timely drainingSystem.tables where
  slots := by decide
  once := by decide
  leaders := by decide

theorem returned_coherent : returnedSystem.tables.Coherent ∧
      returnedSystem.tables.currentSlot .longTerm = some slotlessLeader := by
  have hp : OrderlySlotRun drainingSystem { drainingSystem with changing := some returnChange } :=
    .single ⟨.begin returnChange, trivial, .begin rfl slotChange_return⟩
  have hc : SlotSystemStep { drainingSystem with changing := some returnChange } .commit
      returnedSystem := .commit rfl
  have ho : SlotAction.commit.Orderly { drainingSystem with changing := some returnChange } := by
    intro change hch
    cases hch
    exact returnChange_timely
  constructor
  · exact (slots_coherent drainingSystem_idle (hp.tail ⟨.commit, ho, hc⟩)).1
  · exact (slots_coherent drainingSystem_idle hp).2 returnChange returnedSystem rfl
      returnChange_timely hc _ List.mem_cons_self

def overtakenSystem : SlotSystem where
  tables := returnedSystem.tables.retireLeaders [slotlessLeader] 20

theorem slotSystemRun_overtaken : SlotSystemRun drainingSystem overtakenSystem := by
  have hre : drainingSystem.tables.drainedLeaders = [slotlessLeader] := by decide
  have hf : SlotSystemStep drainingSystem (.read 20)
      { drainingSystem with retiring := some ([slotlessLeader], 20) } :=
    hre ▸ .read 20 rfl
  have hb : SlotSystemStep { drainingSystem with retiring := some ([slotlessLeader], 20) }
      (.begin returnChange)
      { drainingSystem with
        changing := some returnChange, retiring := some ([slotlessLeader], 20) } :=
    .begin rfl slotChange_return
  have hc : SlotSystemStep { drainingSystem with
        changing := some returnChange, retiring := some ([slotlessLeader], 20) } .commit
      { returnedSystem with retiring := some ([slotlessLeader], 20) } := .commit rfl
  have hr : SlotSystemStep { returnedSystem with retiring := some ([slotlessLeader], 20) }
      .retire overtakenSystem := .retire rfl
  exact (((Relation.ReflTransGen.single ⟨_, hf⟩).tail ⟨_, hb⟩).tail ⟨_, hc⟩).tail ⟨_, hr⟩

theorem overtaken_occupant_retired :
    ¬ ∀ [HexOrder] (start st : SlotSystem), start.Idle → SlotSystemRun start st →
      st.tables.Coherent := by
  intro hcl
  have hc := hcl drainingSystem overtakenSystem drainingSystem_idle slotSystemRun_overtaken
  have ho : overtakenSystem.tables.currentSlot .longTerm = some slotlessLeader := by
    decide
  obtain ⟨life, hl, hf⟩ := hc .longTerm slotlessLeader ho
  have hr : overtakenSystem.tables.latestLeaderLifecycle slotlessLeader = some .retired := by
    decide
  rw [hr] at hl
  cases hl
  cases hf

end OvertakenAssignment

end AiQuant.CopyTrading
