import AiQuant.CopyTrading.LeaderSlots
import Mathlib.Logic.Relation

/-! The slots of the leaders, one append at a time.  A call is a sequence of guarded appends:
an open replacement is settled, a replacement is requested for a slot that has none, a slot is
given to a leader who has no other, a lifecycle is recorded.  What every append keeps, every
call keeps. -/
namespace AiQuant.CopyTrading
open AiQuant.Lib

def SlotReplacementState.isTerminal : SlotReplacementState → Bool
  | .requested => false
  | _ => true

theorem SlotReplacementState.isTerminal_eq_false {st : SlotReplacementState} :
    st.isTerminal = false ↔ st = .requested := by
  cases st <;> simp [SlotReplacementState.isTerminal]

/-- The identity of a replacement names its leaders, its selection and its slot. -/
def SlotReplacementEvent.Keyed (event : SlotReplacementEvent) : Prop :=
  event.replacementId =
    .slotReplacement event.candidate event.incumbent event.selectionRunId event.slot

theorem SlotReplacementEvent.Keyed.slot_eq {left right : SlotReplacementEvent}
    (hl : left.Keyed) (hr : right.Keyed) (hs : left.replacementId = right.replacementId) :
    left.slot = right.slot ∧ left.selectionRunId = right.selectionRunId := by
  rw [hl, hr] at hs
  cases left
  cases right
  cases hs
  exact ⟨rfl, rfl⟩

structure Replaceable (events : List SlotReplacementEvent) : Prop where
  distinct : (events.map fun event => (event.replacementId, event.state.isTerminal)).Nodup
  ordered : ∀ request ∈ events, ∀ settled ∈ events,
    request.replacementId = settled.replacementId → request.state = .requested →
    settled.state.isTerminal = true → request.occurredAt < settled.occurredAt

theorem Replaceable.sublist {events kept : List SlotReplacementEvent}
    (he : Replaceable events) (hk : kept.Sublist events) : Replaceable kept where
  distinct := he.distinct.sublist (hk.map _)
  ordered req hrequest settled hsettled :=
    he.ordered req (hk.subset hrequest) settled (hk.subset hsettled)

section Open

variable [HexOrder] {events : List SlotReplacementEvent} {ev : SlotReplacementEvent}

omit [HexOrder] in
theorem Replaceable.eq_of_requested (he : Replaceable events) {other : SlotReplacementEvent}
    (hm : ev ∈ events) (hot : other ∈ events) (hsa : other.replacementId = ev.replacementId)
    (hs : ev.state = .requested) (ho : other.state = .requested) : other = ev := by
  apply List.inj_on_of_nodup_map he.distinct hot hm
  rw [hsa, hs, ho]

theorem mem_openReplacements_iff (he : Replaceable events) :
    ev ∈ openReplacements events ↔ ev ∈ events ∧ ev.state = .requested ∧
      ∀ other ∈ events, other.replacementId = ev.replacementId →
        other.state.isTerminal = false := by
  unfold openReplacements
  rw [List.mem_filter, List.mem_filterMap, decide_eq_true_eq]
  constructor
  · rintro ⟨⟨replacementId, -, hl⟩, hs⟩
    have hf := newest_mem _ _ hl
    rw [List.mem_filter, decide_eq_true_eq] at hf
    obtain ⟨hm, rfl⟩ := hf
    refine ⟨hm, hs, fun other ho hsa => ?_⟩
    by_contra hterminal
    rw [Bool.not_eq_false] at hterminal
    have hla := he.ordered ev hm other ho hsa.symm hs hterminal
    exact not_newer_of_newest _ _ hl (List.mem_filter.mpr ⟨ho, decide_eq_true hsa⟩)
      (Prod.Lex.toLex_lt_toLex.mpr (Or.inl hla))
  · rintro ⟨hm, hs, hop⟩
    refine ⟨⟨ev.replacementId, List.mem_dedup.mpr (List.mem_map_of_mem hm), ?_⟩, hs⟩
    apply newest_eq_some_of_lt
    · exact List.mem_filter.mpr ⟨hm, decide_eq_true rfl⟩
    · intro other ho hne
      rw [List.mem_filter, decide_eq_true_eq] at ho
      have hot :=
        SlotReplacementState.isTerminal_eq_false.mp (hop other ho.1 ho.2)
      exact absurd (he.eq_of_requested hm ho.1 ho.2 hs hot) hne

theorem mem_openReplacements_slot_iff (he : Replaceable events)
    (hk : ∀ ev ∈ events, ev.Keyed) {slot : LeaderSlot} :
    ev ∈ openReplacements (events.filter (·.slot = slot)) ↔
      ev ∈ openReplacements events ∧ ev.slot = slot := by
  rw [mem_openReplacements_iff (he.sublist (List.filter_sublist ..)), mem_openReplacements_iff he]
  simp only [List.mem_filter, decide_eq_true_eq]
  constructor
  · rintro ⟨⟨hm, hsl⟩, hs, hop⟩
    refine ⟨⟨hm, hs, fun other ho hsa => ?_⟩, hsl⟩
    have hot := ((hk other ho).slot_eq (hk ev hm) hsa).1
    exact hop other ⟨ho, hot.trans hsl⟩ hsa
  · rintro ⟨⟨hm, hs, hop⟩, hsl⟩
    exact ⟨⟨hm, hsl⟩, hs, fun other ho hsa => hop other ho.1 hsa⟩

theorem nodup_openReplacements (events : List SlotReplacementEvent) :
    (openReplacements events).Nodup := by
  unfold openReplacements
  apply List.Nodup.filter
  apply List.Nodup.filterMap _ (List.nodup_dedup _)
  intro left right ev hle hri
  have hl := newest_mem _ _ hle
  have hr := newest_mem _ _ hri
  rw [List.mem_filter, decide_eq_true_eq] at hl hr
  exact hl.2.symm.trans hr.2

theorem mem_openReplacements_settled_iff {settled : SlotReplacementEvent}
    (he : Replaceable (events ++ [settled])) (ht : settled.state.isTerminal = true) :
    ev ∈ openReplacements (events ++ [settled]) ↔
      ev ∈ openReplacements events ∧ ev.replacementId ≠ settled.replacementId := by
  rw [mem_openReplacements_iff he,
    mem_openReplacements_iff (he.sublist (List.sublist_append_left ..))]
  constructor
  · rintro ⟨hmem, hs, hop⟩
    rcases List.mem_append.mp hmem with hold | hn
    · refine ⟨⟨hold, hs, fun other ho => hop other (List.mem_append_left _ ho)⟩, ?_⟩
      intro hsa
      have hc := hop settled (by simp) hsa.symm
      rw [ht] at hc
      cases hc
    · rw [List.mem_singleton.mp hn] at hs
      rw [hs] at ht
      cases ht
  · rintro ⟨⟨hmem, hs, hop⟩, ho⟩
    refine ⟨List.mem_append_left _ hmem, hs, fun other hm hsa => ?_⟩
    rcases List.mem_append.mp hm with hold | hn
    · exact hop other hold hsa
    · rw [List.mem_singleton.mp hn] at hsa
      exact absurd hsa.symm ho

theorem mem_openReplacements_requested {requested : SlotReplacementEvent}
    (he : Replaceable (events ++ [requested]))
    (hm : ev ∈ openReplacements (events ++ [requested])) :
    ev ∈ openReplacements events ∨ ev = requested := by
  rw [mem_openReplacements_iff he] at hm
  obtain ⟨hm, hs, hop⟩ := hm
  rcases List.mem_append.mp hm with hold | hn
  · rw [mem_openReplacements_iff (he.sublist (List.sublist_append_left ..))]
    exact Or.inl ⟨hold, hs, fun other ho => hop other (List.mem_append_left _ ho)⟩
  · exact Or.inr (List.mem_singleton.mp hn)

omit [HexOrder] in
theorem Replaceable.concat (hev : Replaceable events)
    (he : ∀ old ∈ events, old.replacementId = ev.replacementId →
      old.state = .requested ∧ ev.state.isTerminal = true ∧ old.occurredAt < ev.occurredAt) :
    Replaceable (events ++ [ev]) := by
  constructor
  · rw [List.map_append, List.nodup_append]
    refine ⟨hev.distinct, List.nodup_singleton _, ?_⟩
    intro key hk new hn heq
    obtain ⟨old, ho, rfl⟩ := List.mem_map.mp hk
    rw [List.map_singleton, List.mem_singleton] at hn
    rw [hn, Prod.mk.injEq] at heq
    obtain ⟨hre, ht, -⟩ := he old ho heq.1
    rw [ht, hre] at heq
    cases heq.2
  · intro req hr settled hse hsa hre hs
    rcases List.mem_append.mp hse with hse | hse
    · rcases List.mem_append.mp hr with hr | hr
      · exact hev.ordered req hr settled hse hsa hre hs
      · rw [List.mem_singleton.mp hr] at hsa
        rw [(he settled hse hsa.symm).1] at hs
        cases hs
    · rw [List.mem_singleton.mp hse] at hsa hs ⊢
      rcases List.mem_append.mp hr with hr | hr
      · exact (he req hr hsa).2.2
      · rw [List.mem_singleton.mp hr] at hre
        rw [hre] at hs
        cases hs

theorem Replaceable.settle (he : Replaceable events) (ho : ev ∈ openReplacements events)
    {terminal : SlotReplacementState} (ht : terminal.isTerminal = true)
    (reasonCode : String) {time : Time} (hl : ev.occurredAt < time) :
    Replaceable (events ++ [ev.terminal terminal reasonCode time]) := by
  obtain ⟨hm, hs, hu⟩ := (mem_openReplacements_iff he).mp ho
  refine he.concat fun old hold hsa => ?_
  have hr := SlotReplacementState.isTerminal_eq_false.mp (hu old hold hsa)
  refine ⟨hr, ht, ?_⟩
  rw [he.eq_of_requested hm hold hsa hs hr]
  exact hl

omit [HexOrder] in
theorem Replaceable.request (he : Replaceable events)
    (hf : ∀ old ∈ events, old.replacementId ≠ ev.replacementId) : Replaceable (events ++ [ev]) :=
  he.concat fun old ho hs => absurd hs (hf old ho)

end Open

section Occupants

variable [HexOrder] {st : SlotLog}

/-- No leader occupies two slots. -/
def SlotLog.OccupiesOnce (state : SlotLog) : Prop :=
  ∀ left right leader, state.currentSlot left = some leader →
    state.currentSlot right = some leader → left = right

def SlotLog.Guarded (state : SlotLog) (leader : String) : Prop :=
  leader ∈ state.lockedLeaderIds ∨ leader ∈ state.log.leadersWithOwnedExposure

variable {ev : LeaderSlotEvent}

omit [HexOrder] in
theorem SlotLog.mem_slotRows_appendAssignment {row : SlotRow} :
    row ∈ (st.appendAssignment ev).slotRows ↔ row ∈ st.slotRows ∨ row = ev.row := by
  simp only [SlotLog.slotRows, SlotLog.appendAssignment, List.map_append, List.map_singleton,
    List.mem_append, List.mem_singleton]
  tauto

theorem SlotLog.currentSlot_appendAssignment_of_ne {slot : LeaderSlot} (hne : slot ≠ ev.slot) :
    (st.appendAssignment ev).currentSlot slot = st.currentSlot slot := by
  have hr : decide (ev.row.slot = slot) = false := decide_eq_false fun h => hne h.symm
  unfold SlotLog.currentSlot SlotLog.latestSlotRow SlotLog.slotRows SlotLog.appendAssignment
  simp [List.filter_append, hr]

theorem SlotLog.currentSlot_appendAssignment
    (hl : ∀ row ∈ st.slotRows, row.slot = ev.slot → row.occurredAt < ev.occurredAt) :
    (st.appendAssignment ev).currentSlot ev.slot = some ev.leadPortfolioId := by
  have hf : (st.appendAssignment ev).latestSlotRow ev.slot = some ev.row := by
    apply newest_eq_some_of_lt
    · rw [List.mem_filter]
      exact ⟨SlotLog.mem_slotRows_appendAssignment.mpr (Or.inr rfl), decide_eq_true rfl⟩
    · intro other ho hne
      rw [List.mem_filter, decide_eq_true_eq, SlotLog.mem_slotRows_appendAssignment] at ho
      exact hl other (ho.1.resolve_right hne) ho.2
  unfold SlotLog.currentSlot
  rw [hf]
  rfl

/-- A slot that an assignment at `occurredAt` may give to a leader. -/
structure SlotLog.Assignable (state : SlotLog) (occurredAt : Time) (slot : LeaderSlot)
    (leader : String) : Prop where
  latest : ∀ row ∈ state.slotRows, row.slot = slot → row.occurredAt < occurredAt
  free : ∀ other, other ≠ slot → state.currentSlot other ≠ some leader
  unguarded : ∀ incumbent, state.currentSlot slot = some incumbent → ¬ state.Guarded incumbent

theorem SlotLog.Assignable.appendAssignment {time : Time} {slot : LeaderSlot}
    {leader : String} (ha : st.Assignable time slot leader)
    (hla : ∀ row ∈ st.slotRows, row.slot = ev.slot → row.occurredAt < ev.occurredAt)
    (hs : ev.slot ≠ slot) (hl : ev.leadPortfolioId ≠ leader) :
    (st.appendAssignment ev).Assignable time slot leader where
  latest row hr hsame := by
    rcases SlotLog.mem_slotRows_appendAssignment.mp hr with ho | rfl
    · exact ha.latest row ho hsame
    · exact absurd hsame hs
  free other hother := by
    by_cases he : other = ev.slot
    · rw [he, SlotLog.currentSlot_appendAssignment hla]
      exact fun heq => hl (Option.some.inj heq)
    · rw [SlotLog.currentSlot_appendAssignment_of_ne he]
      exact ha.free other hother
  unguarded incumbent hincumbent := by
    rw [SlotLog.currentSlot_appendAssignment_of_ne hs.symm] at hincumbent
    exact ha.unguarded incumbent hincumbent

theorem SlotLog.OccupiesOnce.appendAssignment (ho : st.OccupiesOnce)
    (ha : st.Assignable ev.occurredAt ev.slot ev.leadPortfolioId) :
    (st.appendAssignment ev).OccupiesOnce := by
  have hs := SlotLog.currentSlot_appendAssignment ha.latest
  intro left right leader hle hri
  by_cases hl : left = ev.slot
  · by_cases hr : right = ev.slot
    · exact hl.trans hr.symm
    · rw [hl, hs, Option.some.injEq] at hle
      rw [SlotLog.currentSlot_appendAssignment_of_ne hr, ← hle] at hri
      exact absurd hri (ha.free right hr)
  · rw [SlotLog.currentSlot_appendAssignment_of_ne hl] at hle
    by_cases hr : right = ev.slot
    · rw [hr, hs, Option.some.injEq] at hri
      rw [← hri] at hle
      exact absurd hle (ha.free left hl)
    · rw [SlotLog.currentSlot_appendAssignment_of_ne hr] at hri
      exact ho left right leader hle hri

end Occupants

section Moves

variable [HexOrder]

/-- The incumbent owns nothing, and the latest fill of each of its keys goes back to an order
that the leader had given when the replacement expired; so do the decisions of its entries. -/
structure SlotLog.Cleared (state : SlotLog) (row : SlotReplacementEvent) : Prop where
  unexposed : row.incumbent ∉ state.log.leadersWithOwnedExposure
  orders : ∀ event ∈ state.log.leaderPositions row.incumbent,
    state.log.sourceOccurredAt event ≤ row.expiresAt
  decisions : ∀ event ∈ state.log.leaderEntryDecisions row.incumbent,
    event.occurredAt ≤ row.expiresAt

/-- One append of a call at `occurredAt`. -/
inductive SlotMove (occurredAt : Time) (before : SlotLog) : SlotLog → Prop
  | settle {row : SlotReplacementEvent} {terminal : SlotReplacementState} (reasonCode : String)
      (hopen : row ∈ openReplacements before.replacements) (hlater : row.occurredAt < occurredAt)
      (hterminal : terminal.isTerminal = true)
      (hcleared : terminal = .applied → before.Cleared row) :
      SlotMove occurredAt before
        (before.appendReplacement (row.terminal terminal reasonCode occurredAt))
  | request {event : SlotReplacementEvent} (hkeyed : event.Keyed)
      (hstate : event.state = .requested) (hat : event.occurredAt = occurredAt)
      (hrun : event.selectionRunId ∈ before.selectionRuns)
      (hfresh : ∀ old ∈ before.replacements, old.replacementId ≠ event.replacementId)
      (hclosed : ∀ old ∈ openReplacements before.replacements, old.slot ≠ event.slot) :
      SlotMove occurredAt before (before.appendReplacement event)
  | assign {event : LeaderSlotEvent} (hat : event.occurredAt = occurredAt)
      (hassignable : before.Assignable occurredAt event.slot event.leadPortfolioId) :
      SlotMove occurredAt before (before.appendAssignment event)
  | lifecycle {event : LeaderLifecycleEvent} (hretired : event.state = .retired →
      event.leadPortfolioId ∉ before.log.leadersWithOwnedExposure) :
      SlotMove occurredAt before (before.appendLifecycle event)
  | register (run : Digest) :
      SlotMove occurredAt before { before with selectionRuns := before.selectionRuns ++ [run] }

/-- What holds of the tables between two calls, the last of which was at `clock`. -/
structure SlotInvariant (clock : Time) (state : SlotLog) : Prop where
  once : state.OccupiesOnce
  slotTimes : ∀ row ∈ state.slotRows, row.occurredAt ≤ clock
  times : ∀ event ∈ state.replacements, event.occurredAt ≤ clock
  keyed : ∀ event ∈ state.replacements, event.Keyed
  runs : ∀ event ∈ state.replacements, event.selectionRunId ∈ state.selectionRuns
  replaceable : Replaceable state.replacements
  oneOpen : ∀ left ∈ openReplacements state.replacements,
    ∀ right ∈ openReplacements state.replacements, left.slot = right.slot → left = right

variable {clock time : Time} {st post : SlotLog}

section

variable (hi : SlotInvariant clock st)
include hi

theorem SlotInvariant.settle (hc : clock ≤ time)
    {row : SlotReplacementEvent} {terminal : SlotReplacementState} (reasonCode : String)
    (ho : row ∈ openReplacements st.replacements) (hl : row.occurredAt < time)
    (ht : terminal.isTerminal = true) : SlotInvariant time
      (st.appendReplacement (row.terminal terminal reasonCode time)) := by
  have hm := ((mem_openReplacements_iff hi.replaceable).mp ho).1
  have hs := hi.replaceable.settle ho ht reasonCode hl
  exact {
    once := hi.once
    slotTimes := fun row hrow => (hi.slotTimes row hrow).trans hc
    times := List.forall_mem_append.mpr ⟨fun ev he => (hi.times ev he).trans hc,
        List.forall_mem_singleton.mpr le_rfl⟩
    keyed := List.forall_mem_append.mpr
      ⟨hi.keyed, List.forall_mem_singleton.mpr (hi.keyed row hm)⟩
    runs := List.forall_mem_append.mpr ⟨hi.runs, List.forall_mem_singleton.mpr (hi.runs row hm)⟩
    replaceable := hs
    oneOpen := fun left hle right hr hsl => hi.oneOpen
      left ((mem_openReplacements_settled_iff hs ht).mp hle).1
      right ((mem_openReplacements_settled_iff hs ht).mp hr).1 hsl }

theorem SlotInvariant.request (hcl : clock ≤ time) {ev : SlotReplacementEvent} (hk : ev.Keyed)
    (hat : ev.occurredAt = time) (hrun : ev.selectionRunId ∈ st.selectionRuns)
    (hf : ∀ old ∈ st.replacements, old.replacementId ≠ ev.replacementId)
    (hc : ∀ old ∈ openReplacements st.replacements, old.slot ≠ ev.slot) :
    SlotInvariant time (st.appendReplacement ev) := by
  have hr := hi.replaceable.request hf
  exact {
    once := hi.once
    slotTimes := fun row hrow => (hi.slotTimes row hrow).trans hcl
    times := List.forall_mem_append.mpr ⟨fun old hold => (hi.times old hold).trans hcl,
        List.forall_mem_singleton.mpr hat.le⟩
    keyed := List.forall_mem_append.mpr ⟨hi.keyed, List.forall_mem_singleton.mpr hk⟩
    runs := List.forall_mem_append.mpr ⟨hi.runs, List.forall_mem_singleton.mpr hrun⟩
    replaceable := hr
    oneOpen := by
      intro left hl right hri hs
      rcases mem_openReplacements_requested hr hl with hol | hne <;>
        rcases mem_openReplacements_requested hr hri with ho | hn
      · exact hi.oneOpen left hol right ho hs
      · exact absurd (hn ▸ hs) (hc left hol)
      · exact absurd (hne ▸ hs.symm) (hc right ho)
      · exact hne.trans hn.symm }

theorem SlotInvariant.assign (hc : clock ≤ time) {ev : LeaderSlotEvent} (hat : ev.occurredAt = time)
    (ha : st.Assignable time ev.slot ev.leadPortfolioId) :
    SlotInvariant time (st.appendAssignment ev) where
  once := by
    rw [← hat] at ha
    exact hi.once.appendAssignment ha
  slotTimes row hr := by
    rcases SlotLog.mem_slotRows_appendAssignment.mp hr with ho | rfl
    · exact (hi.slotTimes row ho).trans hc
    · exact hat.le
  times ev hevent := (hi.times ev hevent).trans hc
  keyed := hi.keyed
  runs := hi.runs
  replaceable := hi.replaceable
  oneOpen := hi.oneOpen

theorem SlotInvariant.later (hc : clock ≤ time) : SlotInvariant time st :=
  { hi with
    slotTimes := fun row hr => (hi.slotTimes row hr).trans hc
    times := fun ev he => (hi.times ev he).trans hc }

theorem SlotInvariant.move (hc : clock ≤ time)
    (hm : SlotMove time st post) : SlotInvariant time post := by
  cases hm with
  | settle reasonCode hopen hlater hterminal _ =>
    exact hi.settle hc reasonCode hopen hlater hterminal
  | request hkeyed _ hat hrun hfresh hclosed =>
    exact hi.request hc hkeyed hat hrun hfresh hclosed
  | assign hat hassignable => exact hi.assign hc hat hassignable
  | lifecycle _ => exact { hi.later hc with }
  | register run =>
    exact { hi.later hc with
      runs := fun ev he => List.mem_append_left _ (hi.runs ev he) }

end

/-- What a sequence of moves does to the tables: the fills, the decisions and the locks stay, a
guarded leader keeps its slot, nobody who owns anything is retired, and a replacement is
applied only when its incumbent is cleared. -/
structure SlotSafe (before after : SlotLog) : Prop where
  locks : after.locks = before.locks
  log : after.log = { before.log with slotAssignments := after.log.slotAssignments }
  kept : ∀ slot leader, before.currentSlot slot = some leader → before.Guarded leader →
    after.currentSlot slot = some leader
  retired : ∃ added, after.lifecycles = before.lifecycles ++ added ∧ ∀ event ∈ added,
    event.state = .retired → event.leadPortfolioId ∉ before.log.leadersWithOwnedExposure
  applied : ∃ added, after.replacements = before.replacements ++ added ∧ ∀ event ∈ added,
    event.state = .applied → before.Cleared event

theorem SlotSafe.refl (st : SlotLog) : SlotSafe st st where
  locks := rfl
  log := rfl
  kept _ _ hcurrent _ := hcurrent
  retired := ⟨[], (List.append_nil _).symm, by simp⟩
  applied := ⟨[], (List.append_nil _).symm, by simp⟩

theorem SlotSafe.exposure_eq (hs : SlotSafe st post) :
    post.log.leadersWithOwnedExposure = st.log.leadersWithOwnedExposure := by
  rw [hs.log]
  rfl

theorem SlotSafe.guarded_iff (hs : SlotSafe st post) {leader : String} :
    post.Guarded leader ↔ st.Guarded leader := by
  unfold SlotLog.Guarded SlotLog.lockedLeaderIds
  rw [hs.exposure_eq, hs.locks]

theorem SlotSafe.cleared (hs : SlotSafe st post) {row : SlotReplacementEvent}
    (hc : post.Cleared row) : st.Cleared row where
  unexposed := by
    rw [← hs.exposure_eq]
    exact hc.unexposed
  orders := by
    have ho := hc.orders
    rw [hs.log] at ho
    exact ho
  decisions := by
    have hd := hc.decisions
    rw [hs.log] at hd
    exact hd

theorem SlotSafe.trans {later : SlotLog} (hf : SlotSafe st post)
    (hse : SlotSafe post later) : SlotSafe st later where
  locks := hse.locks.trans hf.locks
  log := by rw [hse.log, hf.log]
  kept slot leader hcurrent hguarded := hse.kept slot leader
    (hf.kept slot leader hcurrent hguarded) (hf.guarded_iff.mpr hguarded)
  retired := by
    obtain ⟨first, hfi, hfir⟩ := hf.retired
    obtain ⟨second, hsec, hs⟩ := hse.retired
    refine ⟨first ++ second, by rw [hsec, hfi, List.append_assoc], ?_⟩
    rw [hf.exposure_eq] at hs
    exact List.forall_mem_append.mpr ⟨hfir, hs⟩
  applied := by
    obtain ⟨first, hfi, hfirs⟩ := hf.applied
    obtain ⟨second, hsec, hseco⟩ := hse.applied
    refine ⟨first ++ second, by rw [hsec, hfi, List.append_assoc], ?_⟩
    exact List.forall_mem_append.mpr ⟨hfirs,
      fun ev he ha => hf.cleared (hseco ev he ha)⟩

theorem SlotMove.safe (hm : SlotMove time st post) : SlotSafe st post := by
  cases hm with
  | @settle row terminal reasonCode _ _ _ hcleared =>
    refine { SlotSafe.refl st with applied := ⟨[_], rfl, ?_⟩ }
    refine List.forall_mem_singleton.mpr fun ha => ?_
    obtain ⟨hu, ho, hd⟩ := hcleared ha
    exact ⟨hu, ho, hd⟩
  | @request ev _ hstate _ _ _ _ =>
    refine { SlotSafe.refl st with applied := ⟨[_], rfl, ?_⟩ }
    refine List.forall_mem_singleton.mpr fun ha => ?_
    rw [hstate] at ha
    cases ha
  | @assign ev _ hassignable =>
    refine { SlotSafe.refl st with log := rfl, kept := ?_ }
    intro slot leader hc hg
    have hot : slot ≠ ev.slot := by
      rintro rfl
      exact hassignable.unguarded leader hc hg
    rw [SlotLog.currentSlot_appendAssignment_of_ne hot]
    exact hc
  | @lifecycle ev hretired =>
    exact { SlotSafe.refl st with
      retired := ⟨[_], rfl, List.forall_mem_singleton.mpr hretired⟩ }
  | register run => exact { SlotSafe.refl st with }

abbrev SlotMoves (occurredAt : Time) : SlotLog → SlotLog → Prop :=
  Relation.ReflTransGen (SlotMove occurredAt)

theorem SlotMoves.safe (hm : SlotMoves time st post) : SlotSafe st post := by
  induction hm with
  | refl => exact SlotSafe.refl st
  | tail _ hmove ih => exact ih.trans hmove.safe

theorem SlotMoves.invariant (hm : SlotMoves time st post)
    (hi : SlotInvariant clock st) (hc : clock ≤ time) : SlotInvariant time post := by
  induction hm with
  | refl => exact hi.later hc
  | tail _ hmove ih => exact ih.move le_rfl hmove

end Moves

end AiQuant.CopyTrading
