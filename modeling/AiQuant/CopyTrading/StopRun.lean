import AiQuant.CopyTrading.SymbolStops

/-! The reductions of an active stop over whole runs.  A reduction is identified by its
stop and the position event it was derived from: as long as that event is the newest of
an open side, a reduction that was given up is not written again. -/
namespace AiQuant.CopyTrading
open AiQuant.Lib

theorem stopSignalId_inj {stop other positionEventId otherEventId : Digest}
    (hs : stopSignalId stop positionEventId = stopSignalId other otherEventId) :
    stop = other ∧ positionEventId = otherEventId := by
  simp only [stopSignalId, Digest.stopReduction.injEq, Digest.stopIdentity.injEq] at hs
  exact ⟨hs.2, hs.1⟩

section Inserts

variable (positionMarks : List AccountPositionMark) (time : Time)

theorem insertStopSignals_log (reductions : List (Digest × VirtualPositionEvent)) (st : StopLog) :
    (reductions.foldl (StopLog.insertStopSignal positionMarks time) st).log =
      (reductions.map fun reduction => stopSignalRow positionMarks time reduction.1
        reduction.2).foldl EventLog.insertControlSignal st.log := by
  induction reductions generalizing st with
  | nil => rfl
  | cons reduction reductions ih =>
    rw [List.foldl_cons, ih]
    rfl

theorem insertStopSignals_stopSignals (reductions : List (Digest × VirtualPositionEvent))
    (st : StopLog) : st.stopSignals ⊆
      (reductions.foldl (StopLog.insertStopSignal positionMarks time) st).stopSignals := by
  induction reductions generalizing st with
  | nil => exact List.Subset.refl _
  | cons reduction reductions ih =>
    rw [List.foldl_cons]
    refine List.Subset.trans ?_ (ih _)
    dsimp only [StopLog.insertStopSignal]
    split
    · exact List.Subset.refl _
    · exact List.subset_append_left _ _

theorem insertStopSignals_linked (reductions : List (Digest × VirtualPositionEvent))
    (st : StopLog) : ∀ row ∈ (reductions.foldl (StopLog.insertStopSignal positionMarks time)
        st).log.signals, row ∈ st.log.signals ∨
      ∃ reduction ∈ reductions, row = stopSignalRow positionMarks time reduction.1 reduction.2 ∧
        ∃ link ∈ (reductions.foldl (StopLog.insertStopSignal positionMarks time)
          st).stopSignals, link.stopEventId = reduction.1 ∧ link.signalId = row.signalId := by
  induction reductions generalizing st with
  | nil => exact fun row hr => Or.inl hr
  | cons reduction reductions ih =>
    rw [List.foldl_cons]
    intro row hr
    rcases ih _ row hr with he | ⟨found, hf, hv, hl⟩
    · -- the row was there, or this insert wrote it together with its stop row
      dsimp only [StopLog.insertStopSignal, EventLog.insertControlSignal] at he
      split at he
      · exact Or.inl he
      · rename_i hnew
        rcases List.mem_append.mp he with ho | hr
        · exact Or.inl ho
        · rw [List.mem_singleton] at hr
          subst hr
          have hl : stopSignalEvent time reduction.1 reduction.2.positionEventId ∈
              (StopLog.insertStopSignal positionMarks time st reduction).stopSignals := by
            dsimp only [StopLog.insertStopSignal]
            rw [if_neg hnew]
            simp
          exact Or.inr ⟨reduction, List.mem_cons_self, rfl, _,
            insertStopSignals_stopSignals _ _ reductions _ hl, rfl, rfl⟩
    · exact Or.inr ⟨found, List.mem_cons_of_mem _ hf, hv, hl⟩

end Inserts

section Trigger

variable [HexOrder]

theorem triggerStops_eq (log : EventLog) (valuationEventId : Digest)
    (positionMarks : List AccountPositionMark) (time : Time) (lossLimitUsdt : Decimal)
    (cooldown : Time) :
    ∃ stops, log.triggerStops valuationEventId positionMarks time lossLimitUsdt cooldown =
      { log with stops := stops } := by
  unfold EventLog.triggerStops
  dsimp only
  generalize ((log.pnlPositions positionMarks).map (·.key.leaderSymbol)).dedup = leaderSymbols
  induction leaderSymbols using List.reverseRecOn with
  | nil => exact ⟨log.stops, rfl⟩
  | append_singleton leaderSymbols sym ih =>
    obtain ⟨stops, hs⟩ := ih
    rw [List.foldl_append, List.foldl_cons, List.foldl_nil, hs]
    split
    · exact ⟨stops, rfl⟩
    · dsimp only [EventLog.insertStop]
      split
      · exact ⟨stops, rfl⟩
      · exact ⟨_, rfl⟩

structure StopLog.Enforces (state : StopLog) (stops : List LeaderSymbolStopEvent)
    (after : StopLog) : Prop where
  frame : ∃ rows blocking, after.log =
    { state.log with stops := blocking, signals := state.log.signals ++ rows }
  links : state.stopSignals ⊆ after.stopSignals
  rows : ∀ row ∈ after.log.signals, row ∈ state.log.signals ∨
    ∃ stopEventId, ∃ position ∈ state.log.openPositions,
      row.signalId = stopSignalId stopEventId position.positionEventId ∧
      row.key = position.key ∧ row.signalKind = .reduce ∧
      ∃ link ∈ after.stopSignals, link.stopEventId = stopEventId ∧ link.signalId = row.signalId
  covered : ∀ stop ∈ stops, ∀ position ∈ state.log.openPositions,
    position.key.leaderSymbol = stop.leaderSymbol →
    ∃ row ∈ after.log.signals,
      row.signalId = stopSignalId stop.stopEventId position.positionEventId

theorem enforces_of_enforceLeaderSymbolStops {st post : StopLog} {valuationEventId : Digest}
    {positionMarks : List AccountPositionMark} {time cooldown : Time}
    {lossLimitUsdt : Decimal} {stops : List LeaderSymbolStopEvent}
    (he : st.enforceLeaderSymbolStops valuationEventId positionMarks time
      lossLimitUsdt cooldown = .ok (stops, post)) : st.Enforces stops post := by
  unfold StopLog.enforceLeaderSymbolStops at he
  split at he
  · cases he
  split at he
  · cases he
  obtain ⟨blocking, ht⟩ := triggerStops_eq st.log valuationEventId positionMarks
    time lossLimitUsdt cooldown
  dsimp only at he
  rw [ht] at he
  obtain ⟨rfl, rfl⟩ := Prod.mk.inj (Except.ok.inj he)
  clear he
  generalize EventLog.activeStops _ time = stops
  have hpo : ∀ reduction ∈ EventLog.stoppedPositions { st.log with stops := blocking }
      stops, reduction.2 ∈ st.log.openPositions := by
    intro reduction hr
    obtain ⟨stop, -, hr⟩ := List.mem_flatMap.mp hr
    obtain ⟨pos, hp, rfl⟩ := List.mem_map.mp hr
    exact (List.mem_filter.mp hp).1
  obtain ⟨rows, hlog, -, hc, -⟩ := insertControlSignals_spec
    ((EventLog.stoppedPositions { st.log with stops := blocking } stops).map fun reduction =>
      stopSignalRow positionMarks time reduction.1 reduction.2)
    { st.log with stops := blocking }
  have hlog := (insertStopSignals_log positionMarks time _
    ⟨{ st.log with stops := blocking }, st.stopSignals⟩).trans hlog
  refine ⟨⟨rows, blocking, hlog⟩, insertStopSignals_stopSignals positionMarks time _
    ⟨{ st.log with stops := blocking }, st.stopSignals⟩, ?_, ?_⟩
  · intro row hrow
    refine (insertStopSignals_linked _ _ _ _ row hrow).imp_right ?_
    rintro ⟨reduction, hr, rfl, hl⟩
    exact ⟨reduction.1, reduction.2, hpo reduction hr, rfl, rfl, rfl, hl⟩
  · intro stop hs pos hp hk
    have hr : (stop.stopEventId, pos) ∈
        EventLog.stoppedPositions { st.log with stops := blocking } stops := by
      refine List.mem_flatMap.mpr ⟨stop, hs, List.mem_map.mpr ⟨pos, ?_, rfl⟩⟩
      exact List.mem_filter.mpr ⟨hp, decide_eq_true hk⟩
    obtain ⟨row, hrow, hid⟩ := hc _ (List.mem_map_of_mem hr)
    exact ⟨row, by rw [hlog]; exact hrow, hid⟩

end Trigger

def EventLog.StopIssued (log : EventLog) (signal : NormalizedSignal) : Prop :=
  ∀ stopEventId positionEventId, signal.signalId = stopSignalId stopEventId positionEventId →
    ∃ row ∈ log.signals, row.signalId = signal.signalId

def KeepsStops (before after : EventLog) : Prop :=
  ∀ row ∈ after.signals, ∀ stopEventId positionEventId,
    row.signalId = stopSignalId stopEventId positionEventId → row ∈ before.signals

section Runs

variable [HexOrder] {allowed : EventLog → EventLog → Prop} {st : StopLog} {post : EventLog}

/-- The runtime seen through its transactions, of which the run takes those that
`allowed` admits.  Only the stop rules write stop reductions. -/
inductive StopRun (allowed : EventLog → EventLog → Prop) : StopLog → Prop
  | start {log : EventLog} (hunused : log.Unused)
      (hnone : ∀ row ∈ log.signals, ∀ stopEventId positionEventId,
        row.signalId ≠ stopSignalId stopEventId positionEventId) : StopRun allowed ⟨log, []⟩
  | write {state : StopLog} {after : EventLog} (hrun : StopRun allowed state)
      (hwrite : Transaction state.log.StopIssued state.log after)
      (hallowed : allowed state.log after) : StopRun allowed { state with log := after }
  | control {state : StopLog} (hrun : StopRun allowed state) (controlEventId : Digest)
      (occurredAt : Time) :
      StopRun allowed { state with
        log := state.log.ensureControlReductionSignals controlEventId occurredAt }
  | enforce {state after : StopLog} (hrun : StopRun allowed state) {valuationEventId : Digest}
      {positionMarks : List AccountPositionMark} {occurredAt cooldown : Time}
      {lossLimitUsdt : Decimal} {stops : List LeaderSymbolStopEvent}
      (henforce : state.enforceLeaderSymbolStops valuationEventId positionMarks occurredAt
        lossLimitUsdt cooldown = .ok (stops, after)) : StopRun allowed after
  | outside {state : StopLog} {after : EventLog} (hrun : StopRun allowed state)
      (houtside : Outside state.log after) (hkeeps : KeepsStops state.log after) :
      StopRun allowed { state with log := after }

structure StopTables (state : StopLog) : Prop where
  submissions : ∀ event ∈ state.log.submissions, event.Keyed
  keyed : ∀ position ∈ state.log.positions, ∃ localDelta localResult sourceDelta sourceResult
    time, position.positionEventId = .positionEvent (.positionEvidence localDelta localResult
      position.signalId sourceDelta sourceResult) time
  distinct : ∀ position ∈ state.log.positions, ∀ other ∈ state.log.positions,
    position.positionEventId = other.positionEventId → position = other
  rows : ∀ row ∈ state.log.signals, ∀ stopEventId positionEventId,
    row.signalId = stopSignalId stopEventId positionEventId → row.signalKind = .reduce ∧
      (∃ position ∈ state.log.positions, position.positionEventId = positionEventId ∧
        position.key = row.key) ∧
      ∃ link ∈ state.stopSignals, link.stopEventId = stopEventId ∧ link.signalId = row.signalId
  decided : ∀ event ∈ state.log.decisions, ∀ stopEventId positionEventId,
    event.signalId = stopSignalId stopEventId positionEventId →
      ∃ row ∈ state.log.signals, row.signalId = event.signalId

omit [HexOrder] in
theorem StopTables.of_keeps (ht : StopTables st) (hs : post.submissions = st.log.submissions)
    (hp : post.positions = st.log.positions) (hd : post.decisions = st.log.decisions)
    (hsi : ∀ row ∈ st.log.signals, row ∈ post.signals)
    (hk : KeepsStops st.log post) : StopTables { st with log := post } := by
  constructor
  · rw [hs]
    exact ht.submissions
  · rw [hp]
    exact ht.keyed
  · rw [hp]
    exact ht.distinct
  · intro row hr stopEventId positionEventId hid
    rw [hp]
    exact ht.rows row (hk row hr _ _ hid) _ _ hid
  · intro ev he stopEventId positionEventId hid
    rw [hd] at he
    obtain ⟨row, hr, hsa⟩ := ht.decided ev he _ _ hid
    exact ⟨row, hsi row hr, hsa⟩

theorem StopTables.positionEventId_ne (ht : StopTables st) {fill : FillRecord}
    {prev res : PnlState} {slot : LeaderSlot} {pnl : Decimal}
    (ha : st.log.Attributes fill post prev res slot pnl) :
    ∀ pos ∈ st.log.positions, pos.positionEventId ≠ fill.positionEventId := by
  intro pos hp hsa
  obtain ⟨_, _, _, _, _, hid⟩ := ht.keyed pos hp
  rw [hid] at hsa
  unfold FillRecord.positionEventId at hsa
  injection hsa with he
  injection he with _ _ hs
  exact ha.fresh pos hp hs

theorem StopTables.write (ht : StopTables st) (hw : Transaction st.log.StopIssued st.log post) :
    StopTables { st with log := post } := by
  have hs := hw.keyed ht.submissions
  rcases hw.cases with ⟨claims, submissions, -, rfl⟩ | ⟨sig, ev, hi, hid, rfl⟩ |
    ⟨fill, prev, res, slot, pnl, -, -, -, -, ha⟩ |
    ⟨controls, -, rfl⟩
  · exact ⟨hs, ht.keyed, ht.distinct, ht.rows, ht.decided⟩
  · refine ⟨hs, ht.keyed, ht.distinct, ht.rows, ?_⟩
    intro dec hd stopEventId positionEventId hst
    rcases List.mem_append.mp hd with hold | hn
    · exact ht.decided dec hold _ _ hst
    · rw [List.mem_singleton] at hn
      subst hn
      rw [hid]
      exact hi stopEventId positionEventId (hid.symm.trans hst)
  · have hf := ht.positionEventId_ne ha
    rw [ha.after_eq] at hs ⊢
    refine ⟨hs, ?_, ?_, ?_, ht.decided⟩
    · intro pos hp
      rcases List.mem_append.mp hp with hold | hn
      · exact ht.keyed pos hold
      · rw [List.mem_singleton] at hn
        subst hn
        exact ⟨_, _, _, _, _, rfl⟩
    · intro pos hp other hoth hsa
      rcases List.mem_append.mp hp with hold | hn
      · rcases List.mem_append.mp hoth with hot | ho
        · exact ht.distinct pos hold other hot hsa
        · rw [List.mem_singleton] at ho
          subst ho
          exact absurd hsa (hf pos hold)
      · rw [List.mem_singleton] at hn
        subst hn
        rcases List.mem_append.mp hoth with hot | ho
        · exact absurd hsa.symm (hf other hot)
        · rw [List.mem_singleton] at ho
          exact ho.symm
    · intro row hr stopEventId positionEventId hst
      obtain ⟨hk, ⟨pos, hp, hv⟩, hl⟩ := ht.rows row hr _ _ hst
      exact ⟨hk, ⟨pos, List.mem_append_left _ hp, hv⟩, hl⟩
  · exact ⟨hs, ht.keyed, ht.distinct, ht.rows, ht.decided⟩

theorem StopTables.enforces (ht : StopTables st) {stops : List LeaderSymbolStopEvent}
    {enforced : StopLog} (he : st.Enforces stops enforced) : StopTables enforced := by
  obtain ⟨added, blocking, hlog⟩ := he.frame
  constructor
  · rw [hlog]
    exact ht.submissions
  · rw [hlog]
    exact ht.keyed
  · rw [hlog]
    exact ht.distinct
  · intro row hr stopEventId positionEventId hid
    have hpo : enforced.log.positions = st.log.positions := by rw [hlog]
    rw [hpo]
    rcases he.rows row hr with ho | ⟨found, pos, hp, hf, hkey, hk, hl⟩
    · obtain ⟨hk, hp, link, hm, hl⟩ := ht.rows row ho _ _ hid
      exact ⟨hk, hp, link, he.links hm, hl⟩
    · obtain ⟨rfl, rfl⟩ := stopSignalId_inj (hf.symm.trans hid)
      exact ⟨hk, ⟨pos, mem_positions_of_openPositions hp, rfl, hkey.symm⟩, hl⟩
  · intro ev hev stopEventId positionEventId hid
    rw [hlog] at hev ⊢
    obtain ⟨row, hr, hs⟩ := ht.decided ev hev _ _ hid
    exact ⟨row, List.mem_append_left _ hr, hs⟩

theorem keepsStops_ensureControlReductionSignals (log : EventLog) (eventId : Digest) (time : Time) :
    KeepsStops log (log.ensureControlReductionSignals eventId time) := by
  obtain ⟨rows, hl, hr, -⟩ := ensureControlReductionSignals_spec log eventId time
  rw [hl]
  intro row hrow stopEventId positionEventId hid
  rcases List.mem_append.mp hrow with ho | hn
  · exact ho
  · obtain ⟨pos, -, rfl⟩ := hr row hn
    cases hid

theorem StopTables.control (ht : StopTables st) (eventId : Digest)
    (time : Time) : StopTables { st with
      log := st.log.ensureControlReductionSignals eventId time } := by
  have hk := keepsStops_ensureControlReductionSignals st.log eventId time
  obtain ⟨rows, hl, -⟩ := ensureControlReductionSignals_spec st.log eventId time
  rw [hl] at hk ⊢
  exact ht.of_keeps rfl rfl rfl (fun row hr => List.mem_append_left _ hr) hk

theorem StopRun.tables (hrun : StopRun allowed st) : StopTables st := by
  induction hrun with
  | start hunused hn =>
    constructor
    · simp [hunused.submissions]
    · simp [hunused.positions]
    · simp [hunused.positions]
    · intro row hr stopEventId positionEventId hid
      exact absurd hid (hn row hr _ _)
    · simp [hunused.decisions]
  | write _ hwrite _ ih => exact ih.write hwrite
  | control _ eventId time ih => exact ih.control eventId time
  | enforce _ henforce ih => exact ih.enforces (enforces_of_enforceLeaderSymbolStops henforce)
  | outside _ houtside hk ih =>
    exact ih.of_keeps houtside.submissions houtside.positions houtside.decisions houtside.signals hk

def EventLog.Superseded (log : EventLog) (positionEventId : Digest) : Prop :=
  ∀ key position, log.latestPosition key = some position →
    position.positionEventId = positionEventId → position.resultingLocalQuantity = 0

/-- A stop reduction is given a terminal decision only after its position event was
superseded. -/
def StopsAnswered (log after : EventLog) : Prop :=
  ∀ stopEventId positionEventId event, after.decisions = log.decisions ++ [event] →
    event.signalId = stopSignalId stopEventId positionEventId → event.state.isTerminal = true →
    log.Superseded positionEventId

structure StopInvariant (state : StopLog) : Prop where
  tables : StopTables state
  answered : ∀ event ∈ state.log.decisions, ∀ stopEventId positionEventId,
    event.signalId = stopSignalId stopEventId positionEventId → event.state.isTerminal = true →
    state.log.Superseded positionEventId

theorem EventLog.Superseded.congr {log : EventLog} {positionEventId : Digest}
    (hs : log.Superseded positionEventId) (hp : post.positions = log.positions) :
    post.Superseded positionEventId := by
  intro key pos hl
  rw [EventLog.latestPosition, hp] at hl
  exact hs key pos hl

theorem EventLog.Superseded.append {log : EventLog} {positionEventId : Digest}
    {ev : VirtualPositionEvent} (hs : log.Superseded positionEventId)
    (hp : post.positions = log.positions ++ [ev])
    (hne : ev.positionEventId ≠ positionEventId) : post.Superseded positionEventId := by
  intro key pos hl hid
  rw [EventLog.latestPosition, hp, List.filter_append] at hl
  rcases newest_append_cases (fun pos : VirtualPositionEvent => pos.occurredAt)
      (fun pos => HexOrder.value pos.positionEventId)
      (log.positions.filter (·.key = key)) ([ev].filter (·.key = key)) with
    hsa | ⟨added, ha, hn⟩
  · rw [hsa] at hl
    exact hs key pos hl hid
  · rw [hn] at hl
    have he : added = ev := by
      simpa using (List.mem_filter.mp ha).1
    rw [← Option.some.inj hl, he] at hid
    exact absurd hid hne

theorem StopInvariant.write (hi : StopInvariant st) (hw : Transaction st.log.StopIssued st.log post)
    (han : StopsAnswered st.log post) : StopInvariant { st with log := post } := by
  refine ⟨hi.tables.write hw, ?_⟩
  rcases hw.cases with ⟨claims, submissions, -, rfl⟩ | ⟨sig, ev, -, -, rfl⟩ |
    ⟨fill, prev, res, slot, pnl, -, -, -, -, ha⟩ |
    ⟨controls, -, rfl⟩
  · exact hi.answered
  · intro dec hd stopEventId positionEventId hid ht
    rcases List.mem_append.mp hd with ho | hn
    · exact hi.answered dec ho _ _ hid ht
    · rw [List.mem_singleton] at hn
      subst hn
      exact han stopEventId positionEventId dec rfl hid ht
  · intro dec hd stopEventId positionEventId hid ht
    have hde : post.decisions = st.log.decisions := by rw [ha.after_eq]
    have hp : post.positions = st.log.positions ++ [fill.positionEvent] := by
      rw [ha.after_eq]
    rw [hde] at hd
    have hs := hi.answered dec hd _ _ hid ht
    refine hs.append hp ?_
    -- the reduction's position event was there before the fill
    obtain ⟨row, hr, hsa⟩ := hi.tables.decided dec hd _ _ hid
    obtain ⟨-, ⟨pos, hpo, he, -⟩, -⟩ :=
      hi.tables.rows row hr _ _ (hsa.trans hid)
    rw [← he]
    exact (hi.tables.positionEventId_ne ha pos hpo).symm
  · exact hi.answered

theorem StopRun.invariant (hr : StopRun StopsAnswered st) : StopInvariant st := by
  induction hr with
  | start hunused hnone =>
    have hs : StopRun StopsAnswered _ := .start hunused hnone
    exact ⟨hs.tables, by simp [hunused.decisions]⟩
  | write _ hwrite hanswered ih => exact ih.write hwrite hanswered
  | @control st _ eventId time ih =>
    refine ⟨ih.tables.control eventId time, ?_⟩
    obtain ⟨rows, hl, -⟩ := ensureControlReductionSignals_spec st.log eventId time
    rw [hl]
    exact ih.answered
  | enforce _ henforce ih =>
    have he := enforces_of_enforceLeaderSymbolStops henforce
    refine ⟨ih.tables.enforces he, ?_⟩
    obtain ⟨rows, blocking, hl⟩ := he.frame
    rw [hl]
    exact ih.answered
  | outside hr houtside hkeeps ih =>
    refine ⟨(StopRun.outside hr houtside hkeeps).tables, ?_⟩
    intro ev hev stopEventId positionEventId hid ht
    dsimp only at hev ⊢
    rw [houtside.decisions] at hev
    exact (ih.answered ev hev _ _ hid ht).congr houtside.positions

/-- Every open side under the stops has a reduction that the next cycle takes up. -/
def StopLog.Covers (state : StopLog) (stops : List LeaderSymbolStopEvent) : Prop :=
  ∀ stop ∈ stops, ∀ key event, key.leaderSymbol = stop.leaderSymbol →
    state.log.latestPosition key = some event → 0 < event.resultingLocalQuantity →
    ∃ signal ∈ state.recoverableStopSignals stop.stopEventId,
      signal.kind = .reduce ∧ signal.key = key

/-- In a run that answers its stops, a call leaves no open side of an active stop without
an actionable reduction. -/
theorem active_stops_covered {enforced : StopLog} {valuationEventId : Digest}
    {positionMarks : List AccountPositionMark} {time cooldown : Time}
    {lossLimitUsdt : Decimal} {stops : List LeaderSymbolStopEvent} (hrun : StopRun StopsAnswered st)
    (henforce : st.enforceLeaderSymbolStops valuationEventId positionMarks time
      lossLimitUsdt cooldown = .ok (stops, enforced)) : enforced.Covers stops := by
  have he := enforces_of_enforceLeaderSymbolStops henforce
  have hi := (StopRun.enforce hrun henforce).invariant
  obtain ⟨rows, blocking, hlog⟩ := he.frame
  intro stop hst key ev hkey hl ho
  have hb : st.log.latestPosition key = some ev := by
    rwa [hlog] at hl
  have hev := EventLog.latestPosition_key hb
  obtain ⟨row, hrow, hid⟩ := he.covered stop hst ev (mem_openPositions hb ho) (by rw [hev, hkey])
  obtain ⟨hk, ⟨pos, hp, heve, hro⟩, link, hlink, hlin, hli⟩ :=
    hi.tables.rows row hrow _ _ hid
  have hsa : pos = ev := by
    refine hi.tables.distinct pos hp ev ?_ heve
    exact (EventLog.latestPosition_mem hl).1
  have hr : enforced.log.isRecoverable row.signalId = true := by
    apply isRecoverable_of_not_terminal
    intro dec hd hs
    by_contra hterminal
    rw [Bool.not_eq_false] at hterminal
    have hz := hi.answered dec hd _ _ (hs.trans hid) hterminal key ev hl rfl
    exact ho.ne' hz
  refine ⟨row.normalized none, List.mem_map.mpr ⟨row, ?_, rfl⟩, hk, ?_⟩
  · rw [orderedSignals, List.mem_insertionSort, List.mem_filter]
    refine ⟨hrow, ?_⟩
    rw [Bool.and_eq_true]
    refine ⟨List.any_eq_true.mpr ⟨link, hlink, ?_⟩, hr⟩
    rw [Bool.and_eq_true]
    exact ⟨decide_eq_true hlin, decide_eq_true hli⟩
  · rw [SignalRow.normalized_key, ← hro, hsa, hev]

def StopAnswers (before : World) (query : Query) (reply : query.Reply) (after : World) : Prop :=
  Answers before query reply after ∧ KeepsStops before.log after.log

/-- Every world the runtime reaches from unused tables, with the stop rows, when each
cycle may enforce the stops. -/
inductive StopEngineRun : World → List LeaderSymbolStopSignalEvent → Prop
  | start {log : EventLog} (hstored : log.SignalsStored) (hunused : log.Unused)
      (hnone : ∀ row ∈ log.signals, ∀ stopEventId positionEventId,
        row.signalId ≠ stopSignalId stopEventId positionEventId) : StopEngineRun ⟨log, []⟩ []
  | process {world reached : World} {links : List LeaderSymbolStopSignalEvent}
      (hrun : StopEngineRun world links) (settings : RuntimeSettings) {row : SignalRow}
      (hrow : row ∈ world.log.signals) {signal : NormalizedSignal}
      (hsignal : row.Describes signal) (assignment : LeaderAssignment)
      (hcall : Proc.Reaches StopAnswers world (processSignal settings signal assignment)
        reached) : StopEngineRun reached links
  | control {world : World} {links : List LeaderSymbolStopSignalEvent}
      (hrun : StopEngineRun world links) {controlEventId : Digest}
      (hflattening : world.log.Flattening controlEventId) (occurredAt : Time) :
      StopEngineRun { world with
        log := world.log.ensureControlReductionSignals controlEventId occurredAt } links
  | enforce {world : World} {links : List LeaderSymbolStopSignalEvent} {after : StopLog}
      (hrun : StopEngineRun world links) {valuationEventId : Digest}
      {positionMarks : List AccountPositionMark} {occurredAt cooldown : Time}
      {lossLimitUsdt : Decimal} {stops : List LeaderSymbolStopEvent}
      (henforce : StopLog.enforceLeaderSymbolStops ⟨world.log, links⟩ valuationEventId
        positionMarks occurredAt lossLimitUsdt cooldown = .ok (stops, after)) :
      StopEngineRun { world with log := after.log } after.stopSignals
  | outside {world : World} {links : List LeaderSymbolStopSignalEvent}
      (hrun : StopEngineRun world links) {log : EventLog} (houtside : Outside world.log log)
      (hkeeps : KeepsStops world.log log) : StopEngineRun { world with log := log } links

theorem stopRun_rules (start : EventLog) (links : List LeaderSymbolStopSignalEvent) :
    EngineRules StopAnswers start.StopIssued fun world =>
      StopRun (fun _ _ => True) ⟨world.log, links⟩ ∧
        ∀ row ∈ start.signals, row ∈ world.log.signals where
  keyed hw := hw.1.tables.submissions
  pending hw hentry := by
    obtain ⟨row, hrow, -, hki, -, rfl⟩ := mem_pendingIncreaseSignals hentry
    intro stopEventId positionEventId hid
    -- an entry never carries the identifier of a stop reduction
    have hr := (hw.1.tables.rows row hrow _ _ hid).1
    rw [hki] at hr
    cases hr
  asks hb henv := by
    obtain ⟨⟨-, ho⟩, hk⟩ := henv
    refine ⟨⟨.outside hb.1 ho hk, ?_⟩, ho.submissions, ho.lookup_eq⟩
    exact fun row hrow => ho.signals row (hb.2 row hrow)
  writes hb hwr _ := by
    refine ⟨.write hb.1 (hwr.mono ?_) trivial, ?_⟩
    · intro sig hi stopEventId positionEventId hid
      obtain ⟨row, hrow, hs⟩ := hi stopEventId positionEventId hid
      exact ⟨row, hb.2 row hrow, hs⟩
    · intro row hrow
      rw [hwr.signals_eq]
      exact hb.2 row hrow

theorem StopEngineRun.stopRun {world : World} {links : List LeaderSymbolStopSignalEvent}
    (hrun : StopEngineRun world links) : StopRun (fun _ _ => True) ⟨world.log, links⟩ := by
  induction hrun with
  | start _ hunused hnone => exact .start hunused hnone
  | @process world _ links _ cfg row hr sig hsi asg hcall ih =>
    have hi : world.log.StopIssued sig :=
      fun _ _ _ => ⟨row, hr, hsi.signalId.symm⟩
    have hs : StopRun (fun _ _ => True) ⟨world.log, links⟩ ∧
        ∀ row ∈ world.log.signals, row ∈ world.log.signals :=
      ⟨ih, fun _ hm => hm⟩
    exact (((stopRun_rules world.log links).processSignal cfg hi hs asg).reaches hs hcall).1
  | control _ _ time ih => exact .control ih _ time
  | enforce _ henforce ih => exact .enforce ih henforce
  | outside _ houtside hkeeps ih => exact .outside ih houtside hkeeps

theorem StopRun.answered_of_no_stop (hrun : StopRun (fun _ _ => True) st)
    (hn : ∀ row ∈ st.log.signals, ∀ stopEventId positionEventId,
      row.signalId ≠ stopSignalId stopEventId positionEventId) : StopRun StopsAnswered st := by
  induction hrun with
  | start hunused hstart => exact .start hunused hstart
  | write hrun hwrite hallowed ih =>
    have ht := (StopRun.write hrun hwrite hallowed).tables
    refine .write (ih ?_) hwrite ?_
    · dsimp only at hn
      rwa [hwrite.signals_eq] at hn
    · intro stopEventId positionEventId ev hd hid
      have he : ev ∈ _ := hd ▸ List.mem_append_right _ (List.mem_singleton.mpr rfl)
      obtain ⟨row, hr, hs⟩ := ht.decided ev he _ _ hid
      exact absurd (hs.trans hid) (hn row hr _ _)
  | @control pre _ eventId time ih =>
    refine .control (ih fun row hr => hn row ?_) eventId time
    obtain ⟨rows, hl, -⟩ := ensureControlReductionSignals_spec pre.log eventId time
    rw [hl]
    exact List.mem_append_left _ hr
  | enforce _ henforce ih =>
    refine .enforce (ih fun row hr => hn row ?_) henforce
    obtain ⟨rows, blocking, hl⟩ := (enforces_of_enforceLeaderSymbolStops henforce).frame
    rw [hl]
    exact List.mem_append_left _ hr
  | outside _ ho hkeeps ih =>
    exact .outside (ih fun row hr => hn row (ho.signals row hr)) ho hkeeps

end Runs

section OneStop

local instance oneStopHexOrder : HexOrder := distinctHexOrder

def halvedMarks : List AccountPositionMark := [⟨"BTCUSDT", .long, 1, 50⟩]

theorem stopAnswers_exchangeAnswer (world : World) (qry : Query) :
    StopAnswers world qry (exchangeAnswer world qry).1 (exchangeAnswer world qry).2 :=
  ⟨answers_exchangeAnswer world qry, fun _ hr _ _ _ => hr⟩

theorem stopEngineRun_entryRetried : StopEngineRun entryRetried [] := by
  have hst : StopEngineRun ⟨entryStored, []⟩ [] := by
    refine .start signalsStored_entryStored ⟨rfl, rfl, rfl, rfl, rfl, rfl⟩ ?_
    intro row hr stopEventId positionEventId hid
    rw [List.mem_singleton.mp hr] at hid
    cases hid
  have hs : StopEngineRun entryStopped [] :=
    .process hst {} (List.mem_singleton.mpr rfl) (entryRow.describes_normalized _)
      activeLeader (Proc.reaches_runFor stopAnswers_exchangeAnswer 21)
  exact .process hs {} (show entryRow ∈ entryStopped.log.signals by with_unfolding_all decide)
    (entryRow.describes_normalized _) activeLeader (Proc.reaches_run stopAnswers_exchangeAnswer)

def stopTriggered : List LeaderSymbolStopEvent × StopLog :=
  okValue (StopLog.enforceLeaderSymbolStops ⟨entryRetried.log, []⟩ (.external "valuation")
    halvedMarks (newYear + 3600000000)) (by decide)

theorem triggered_stop_covered : stopTriggered.1.map (·.netPositionPnlUsdt) = [-50] ∧
      stopTriggered.2.Covers stopTriggered.1 := by
  refine ⟨by with_unfolding_all decide, ?_⟩
  have hrun : StopRun StopsAnswered ⟨entryRetried.log, []⟩ := by
    refine stopEngineRun_entryRetried.stopRun.answered_of_no_stop ?_
    have hs : entryRetried.log.signals = [entryRow] := by with_unfolding_all decide
    intro row hr stopEventId positionEventId hid
    dsimp only at hr
    rw [hs, List.mem_singleton] at hr
    rw [hr] at hid
    cases hid
  have he : StopLog.enforceLeaderSymbolStops ⟨entryRetried.log, []⟩ (.external "valuation")
      halvedMarks (newYear + 3600000000) = .ok stopTriggered := eq_ok_okValue _
  exact active_stops_covered hrun he

def unlistedReply (trace : List Asked) (query : Query) : query.Reply :=
  match query with
  | .symbolRules _ => .error (.rejected "COPY_SYMBOL_NOT_AVAILABLE_ON_EXCHANGE")
  | other => exchangeReply trace other

def unlistedAnswer (world : World) (query : Query) : query.Reply × World :=
  (unlistedReply world.trace query,
    { world with trace := world.trace ++ [⟨world.log, query, unlistedReply world.trace query⟩] })

def stopReduction : SignalRow :=
  stopTriggered.2.log.signals.getLast (by with_unfolding_all decide)

def stopRejected : World :=
  ((processSignal {} (stopReduction.normalized none) activeLeader).run unlistedAnswer
    { entryRetried with log := stopTriggered.2.log }).2

theorem stopEngineRun_stopRejected : StopEngineRun stopRejected stopTriggered.2.stopSignals := by
  have he : StopLog.enforceLeaderSymbolStops ⟨entryRetried.log, []⟩ (.external "valuation")
      halvedMarks (newYear + 3600000000) = .ok stopTriggered := eq_ok_okValue _
  refine .process (.enforce stopEngineRun_entryRetried he) {} (List.getLast_mem _)
    (stopReduction.describes_normalized _) activeLeader (Proc.reaches_run ?_)
  intro world qry
  exact ⟨answers_traced world qry _, fun _ hr _ _ _ => hr⟩

def stopRepeated : List LeaderSymbolStopEvent × StopLog :=
  okValue (StopLog.enforceLeaderSymbolStops ⟨stopRejected.log, stopTriggered.2.stopSignals⟩
    (.external "next") halvedMarks (newYear + 7200000000)) (by decide)

/-- A rejected reduction is not written again: the open unit is left to itself for as
long as no position event supersedes the one that the reduction was derived from. -/
theorem rejected_stop_leaves_unit_uncovered :
    ¬ ∀ [HexOrder] (world : World) (links : List LeaderSymbolStopSignalEvent)
      (valuationEventId : Digest) (positionMarks : List AccountPositionMark)
      (time cooldown : Time) (lossLimitUsdt : Decimal)
      (stops : List LeaderSymbolStopEvent) (post : StopLog), StopEngineRun world links →
      StopLog.enforceLeaderSymbolStops ⟨world.log, links⟩ valuationEventId positionMarks time
        lossLimitUsdt cooldown = .ok (stops, post) → post.Covers stops := by
  intro hcl
  have hr : StopLog.enforceLeaderSymbolStops
      ⟨stopRejected.log, stopTriggered.2.stopSignals⟩ (.external "next") halvedMarks
      (newYear + 7200000000) = .ok stopRepeated := eq_ok_okValue _
  have hc : stopRepeated.2.Covers stopRepeated.1 :=
    hcl _ _ _ _ _ _ _ _ _ stopEngineRun_stopRejected hr
  have ha : stopRepeated.1.map (fun stop => (stop.leaderSymbol,
      stopRepeated.2.recoverableStopSignals stop.stopEventId)) =
      [(("1", "BTCUSDT"), [])] := by
    with_unfolding_all decide
  have ho : (stopRepeated.2.log.latestPosition entryRow.key).map (·.resultingLocalQuantity) =
      some 1 := by
    with_unfolding_all decide
  obtain ⟨stop, hst, hv⟩ := List.mem_map.mp
    (ha ▸ List.mem_singleton.mpr rfl : (("1", "BTCUSDT"), []) ∈ stopRepeated.1.map _)
  obtain ⟨hl, hn⟩ := Prod.mk.inj hv
  obtain ⟨ev, hla, hq⟩ := Option.map_eq_some_iff.mp ho
  obtain ⟨sig, hs, -⟩ := hc stop hst entryRow.key ev hl.symm hla (by rw [hq]; norm_num)
  rw [hn] at hs
  cases hs

end OneStop

end AiQuant.CopyTrading
