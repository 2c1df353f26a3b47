import AiQuant.CopyTrading.ExactlyOnce

/-! The reductions of a `REDUCE_ALL` control.  Every cycle writes them again, but a
reduction is identified by its control event and its key alone: a key that is open
after its reduction has finished gets no second one. -/
namespace AiQuant.CopyTrading
open AiQuant.Lib

def DecisionState.isTerminal : DecisionState → Bool
  | .received => false
  | .approved => false
  | .submitted => false
  | .uncertain => false
  | _ => true

def EventLog.Finished (log : EventLog) (signalId : Digest) : Prop :=
  (∃ event ∈ log.positions, event.signalId = signalId) ∨
    ∃ event ∈ log.decisions, event.signalId = signalId ∧ event.state.isTerminal = true

variable {log : EventLog}

theorem isRecoverable_of_not_terminal [HexOrder] {signalId : Digest}
    (ho : ∀ ev ∈ log.decisions, ev.signalId = signalId → ev.state.isTerminal = false) :
    log.isRecoverable signalId = true := by
  unfold EventLog.isRecoverable EventLog.decidedAs
  cases hl : log.latestDecision signalId with
  | none => rfl
  | some ev =>
    have hm := newest_mem _ _ hl
    rw [List.mem_filter, decide_eq_true_eq] at hm
    have hs := ho ev hm.1 hm.2
    cases hc : ev.state <;> simp_all [DecisionState.isTerminal]

theorem controlSignalId_inj {left right : Digest} {key other : VirtualPositionKey}
    (hs : controlSignalId left key = controlSignalId right other) : left = right ∧ key = other := by
  obtain ⟨leader, sym, side⟩ := key
  obtain ⟨leader', symbol', side'⟩ := other
  simp only [controlSignalId, controlIdentity, Digest.controlReduction.injEq,
    Digest.controlIdentity.injEq] at hs
  obtain ⟨rfl, rfl, rfl, rfl⟩ := hs
  exact ⟨rfl, rfl⟩

/-- A signal that carries the identifier of a control reduction reduces that key, for a
control event of the log. -/
def EventLog.Issued (log : EventLog) (signal : NormalizedSignal) : Prop :=
  ∀ eventId key, signal.signalId = controlSignalId eventId key →
    signal.key = key ∧ ∃ control ∈ log.controls, control.controlEventId = eventId

theorem EventLog.SignalsStored.issued (hst : log.SignalsStored)
    {row : SignalRow} (hr : row ∈ log.signals) {sig : NormalizedSignal}
    (hs : row.Describes sig) : log.Issued sig := by
  intro eventId key hid
  rw [hs.signalId] at hid
  obtain ⟨hk, -, hc⟩ := hst.controls row hr eventId key hid
  exact ⟨hs.key.trans hk, hc⟩

theorem EventLog.Issued.mono {post : EventLog} {sig : NormalizedSignal} (hi : log.Issued sig)
    (hg : ∀ control ∈ log.controls, control ∈ post.controls) : post.Issued sig := by
  intro eventId key hid
  obtain ⟨hk, control, hm, hc⟩ := hi eventId key hid
  exact ⟨hk, control, hg control hm, hc⟩

section Flatten

variable [HexOrder] {log post : EventLog} {eventId : Digest}

/-- The latest control is the `REDUCE_ALL` of this event. -/
def EventLog.Flattening (log : EventLog) (controlEventId : Digest) : Prop :=
  log.latestRuntimeControl.state = .reduceAll ∧
    log.latestRuntimeControl.eventId = some controlEventId

def EventLog.Flat (log : EventLog) (key : VirtualPositionKey) : Prop :=
  ∀ event, log.latestPosition key = some event → event.resultingLocalQuantity = 0

/-- Every open key has a reduction of the control event that is not finished. -/
def EventLog.Covered (log : EventLog) (controlEventId : Digest) : Prop :=
  ∀ key event, log.latestPosition key = some event → 0 < event.resultingLocalQuantity →
    ∃ row ∈ log.signals, row.signalId = controlSignalId controlEventId key ∧ row.key = key ∧
      row.signalKind = .reduce ∧ ¬ log.Finished row.signalId

/-- The runtime seen through its transactions, of which the run takes those that
`allowed` admits. -/
inductive ControlRun (allowed : EventLog → EventLog → Prop) : EventLog → Prop
  | start {log : EventLog} (hstored : log.SignalsStored) (hunused : log.Unused) :
      ControlRun allowed log
  | write {log after : EventLog} (hrun : ControlRun allowed log)
      (hwrite : Transaction log.Issued log after) (hallowed : allowed log after) :
      ControlRun allowed after
  | control {log : EventLog} (hrun : ControlRun allowed log) {controlEventId : Digest}
      (hflattening : log.Flattening controlEventId) (occurredAt : Time) :
      ControlRun allowed (log.ensureControlReductionSignals controlEventId occurredAt)
  | outside {log after : EventLog} (hrun : ControlRun allowed log)
      (houtside : Outside log after) : ControlRun allowed after

theorem EventLog.Flattening.recorded (hf : log.Flattening eventId) :
    ∃ control ∈ log.controls, control.controlEventId = eventId ∧
      control.state = .reduceAll := by
  obtain ⟨hs, hid⟩ := hf
  unfold EventLog.latestRuntimeControl at hs hid
  split at hid
  · cases hid
  · rename_i ev hnewest
    rw [hnewest] at hs
    exact ⟨ev, newest_mem _ _ hnewest, Option.some.inj hid, hs⟩

theorem EventLog.Flattening.of_append {added : List RuntimeControlEvent}
    (hc : post.controls = log.controls ++ added) (hf : post.Flattening eventId) :
    log.Flattening eventId ∨
      ∃ control ∈ added, control.controlEventId = eventId := by
  rcases newest_append_cases (·.occurredAt)
      (fun ev => HexOrder.value ev.controlEventId) log.controls added with
    hs | ⟨control, hm, hn⟩
  · left
    unfold EventLog.Flattening EventLog.latestRuntimeControl at hf ⊢
    rwa [hc, hs] at hf
  · right
    have hid := hf.2
    unfold EventLog.latestRuntimeControl at hid
    rw [hc, hn] at hid
    exact ⟨control, hm, Option.some.inj hid⟩

variable {rel : NormalizedSignal → Prop}

theorem Transaction.stored (hw : Transaction rel log post) (hs : log.SignalsStored) :
    post.SignalsStored := by
  rcases hw.cases with ⟨claims, submissions, -, rfl⟩ | ⟨-, ev, -, -, rfl⟩ |
    ⟨fill, prev, res, slot, pnl, -, -, -, -, ha⟩ |
    ⟨controls, hc, rfl⟩
  · exact ⟨hs.nodup, hs.entries, hs.controls, hs.nodup_controls⟩
  · exact ⟨hs.nodup, hs.entries, hs.controls, hs.nodup_controls⟩
  · rw [ha.after_eq]
    exact ⟨hs.nodup, hs.entries, hs.controls, hs.nodup_controls⟩
  · rcases hc with rfl | ⟨ev, hn, rfl⟩
    · exact ⟨hs.nodup, hs.entries, hs.controls, hs.nodup_controls⟩
    refine ⟨hs.nodup, hs.entries, ?_, ?_⟩
    · intro row hrow eventId key hid
      obtain ⟨hkey, hk, control, hm, hco⟩ :=
        hs.controls row hrow eventId key hid
      exact ⟨hkey, hk, control, List.mem_append_left _ hm, hco⟩
    · rw [List.map_append, List.nodup_append]
      refine ⟨hs.nodup_controls, by simp, ?_⟩
      rintro left hl right hr rfl
      obtain ⟨old, ho, rfl⟩ := List.mem_map.mp hl
      rw [List.map_singleton, List.mem_singleton] at hr
      exact hn old ho hr

theorem EventLog.SignalsStored.ensureControlReductionSignals (hs : log.SignalsStored)
    (hf : log.Flattening eventId) (time : Time) :
    (log.ensureControlReductionSignals eventId time).SignalsStored := by
  obtain ⟨rows, hl, hr, -, hn⟩ :=
    ensureControlReductionSignals_spec log eventId time
  rw [hl]
  refine ⟨hn hs.nodup, ?_, ?_, hs.nodup_controls⟩
  · intro row hrow hk
    rcases List.mem_append.mp hrow with ho | hnew
    · exact hs.entries row ho hk
    · obtain ⟨pos, -, rfl⟩ := hr row hnew
      cases hk
  · intro row hrow other key hid
    rcases List.mem_append.mp hrow with ho | hnew
    · exact hs.controls row ho other key hid
    · obtain ⟨pos, -, rfl⟩ := hr row hnew
      obtain ⟨rfl, hkey⟩ := controlSignalId_inj hid
      obtain ⟨control, hm, hc, -⟩ := hf.recorded
      exact ⟨hkey, rfl, control, hm, hc⟩

theorem Transaction.signals_eq
    (hw : Transaction rel log post) : post.signals = log.signals := by
  rcases hw.cases with ⟨claims, submissions, -, rfl⟩ | ⟨-, ev, -, -, rfl⟩ |
    ⟨fill, prev, res, slot, pnl, -, -, -, -, ha⟩ |
    ⟨controls, -, rfl⟩
  · rfl
  · rfl
  · rw [ha.after_eq]
  · rfl

theorem Transaction.controls_grow (hw : Transaction rel log post) :
    ∀ control ∈ log.controls, control ∈ post.controls := by
  intro control hm
  rcases hw.cases with ⟨claims, submissions, -, rfl⟩ | ⟨-, ev, -, -, rfl⟩ |
    ⟨fill, prev, res, slot, pnl, -, -, -, -, ha⟩ |
    ⟨controls, rfl | ⟨ev, -, rfl⟩, rfl⟩
  · exact hm
  · exact hm
  · rw [ha.after_eq]
    exact hm
  · exact hm
  · exact List.mem_append_left _ hm

/-- While `REDUCE_ALL` is in force, a fill of a control reduction, or of a key whose
control reduction is finished, closes the key and is its newest fill; and a control
reduction is given up only for a key that is closed. -/
structure ClosesItsKeys (log after : EventLog) : Prop where
  fills : ∀ eventId event, log.Flattening eventId →
    after.positions = log.positions ++ [event] →
    event.signalId = controlSignalId eventId event.key ∨
      log.Finished (controlSignalId eventId event.key) →
    event.resultingLocalQuantity = 0 ∧
      ∀ earlier ∈ log.keyPositions event.key, earlier.occurredAt < event.occurredAt
  decisions : ∀ eventId key event, log.Flattening eventId →
    after.decisions = log.decisions ++ [event] →
    event.signalId = controlSignalId eventId key → event.state.isTerminal = true →
    log.Flat key

structure FlattenInvariant (log : EventLog) : Prop where
  stored : log.SignalsStored
  recorded : ∀ eventId key, log.Finished (controlSignalId eventId key) →
    ∃ control ∈ log.controls, control.controlEventId = eventId
  closed : ∀ eventId key, log.Flattening eventId →
    log.Finished (controlSignalId eventId key) → log.Flat key

theorem FlattenInvariant.controls_append (hi : FlattenInvariant log)
    (hs : post.SignalsStored) {added : List RuntimeControlEvent}
    (hc : post.controls = log.controls ++ added) (hp : post.positions = log.positions)
    (hd : post.decisions = log.decisions) : FlattenInvariant post := by
  have hf : ∀ signalId, post.Finished signalId ↔ log.Finished signalId := by
    intro signalId
    rw [EventLog.Finished, hp, hd]
    rfl
  have hflat : ∀ key, log.Flat key → post.Flat key := by
    intro key hflat ev hl
    rw [EventLog.latestPosition, hp] at hl
    exact hflat ev hl
  refine ⟨hs, ?_, ?_⟩
  · intro eventId key he
    obtain ⟨control, hm, hid⟩ := hi.recorded _ _ ((hf _).mp he)
    exact ⟨control, by simp [hc, hm], hid⟩
  · intro eventId key hfl he
    rcases hfl.of_append hc with hsa | ⟨control, hm, hid⟩
    · exact hflat key (hi.closed _ key hsa ((hf _).mp he))
    -- a finished reduction belongs to an earlier control event, and identifiers are unique
    · obtain ⟨old, ho, hsa⟩ := hi.recorded _ _ ((hf _).mp he)
      have hn := hs.nodup_controls
      rw [hc, List.map_append, List.nodup_append] at hn
      exact absurd (hsa.trans hid.symm) (hn.2.2 _ (List.mem_map_of_mem ho) _
        (List.mem_map_of_mem hm))

theorem FlattenInvariant.decides (hi : FlattenInvariant log) {sig : NormalizedSignal}
    {ev : SignalDecisionEvent} (his : log.Issued sig) (hsi : ev.signalId = sig.signalId)
    (hcl : ClosesItsKeys log { log with decisions := log.decisions ++ [ev] }) :
    FlattenInvariant { log with decisions := log.decisions ++ [ev] } := by
  have hc : ∀ signalId, EventLog.Finished { log with decisions := log.decisions ++ [ev] }
      signalId → log.Finished signalId ∨
        ev.signalId = signalId ∧ ev.state.isTerminal = true := by
    rintro signalId (hfi | ⟨other, hm, hid, ht⟩)
    · exact Or.inl (Or.inl hfi)
    · rcases List.mem_append.mp hm with ho | hn
      · exact Or.inl (Or.inr ⟨other, ho, hid, ht⟩)
      · rw [List.mem_singleton.mp hn] at hid ht
        exact Or.inr ⟨hid, ht⟩
  have hs := hi.stored
  refine ⟨⟨hs.nodup, hs.entries, hs.controls, hs.nodup_controls⟩, ?_, ?_⟩
  · intro eventId key he
    rcases hc _ he with hb | ⟨hid, -⟩
    · exact hi.recorded _ _ hb
    · exact (his eventId key (hsi.symm.trans hid)).2
  · intro eventId key hf he
    rcases hc _ he with hb | ⟨hid, ht⟩
    · exact hi.closed _ key hf hb
    · exact hcl.decisions _ key ev hf rfl hid ht

theorem FlattenInvariant.attributes (hi : FlattenInvariant log) {fill : FillRecord}
    {prev res : PnlState} {slot : LeaderSlot} {pnl : Decimal}
    (his : log.Issued fill.signal) (ha : log.Attributes fill post prev res slot pnl)
    (hcl : ClosesItsKeys log post) (hs : post.SignalsStored) : FlattenInvariant post := by
  have hp : post.positions = log.positions ++ [fill.positionEvent] := by
    rw [ha.after_eq]
  have hc : post.controls = log.controls := by
    rw [ha.after_eq]
  have hca : ∀ signalId, post.Finished signalId → log.Finished signalId ∨
      fill.signal.signalId = signalId := by
    rintro signalId (⟨ev, hm, hid⟩ | hd)
    · rw [hp] at hm
      rcases List.mem_append.mp hm with ho | hn
      · exact Or.inl (Or.inl ⟨ev, ho, hid⟩)
      · rw [List.mem_singleton.mp hn] at hid
        exact Or.inr hid
    · rw [ha.after_eq] at hd
      exact Or.inl (Or.inr hd)
  refine ⟨hs, ?_, ?_⟩
  · intro eventId key he
    rw [hc]
    rcases hca _ he with hbe | hid
    · exact hi.recorded _ _ hbe
    · exact (his eventId key hid).2
  · intro eventId key hf he
    have hb : log.Flattening eventId := by
      rwa [EventLog.Flattening, EventLog.latestRuntimeControl, hc] at hf
    by_cases hk : fill.signal.key = key
    · subst hk
      -- the fill is the reduction's own, or comes after it
      have hown : fill.positionEvent.signalId = controlSignalId eventId fill.positionEvent.key ∨
          log.Finished (controlSignalId eventId fill.positionEvent.key) :=
        (hca _ he).symm
      obtain ⟨hz, hla⟩ := hcl.fills _ _ hb hp hown
      intro ev hl
      rw [ha.latestPosition_eq hla] at hl
      rw [← Option.some.inj hl]
      exact hz
    · have he : log.Finished (controlSignalId eventId key) := by
        rcases hca _ he with hbe | hid
        · exact hbe
        · exact absurd (his eventId key hid).1 hk
      intro ev hl
      have hsa : post.latestPosition key = log.latestPosition key :=
        congrArg _ (ha.keyPositions_of_ne hk)
      rw [hsa] at hl
      exact hi.closed _ key hb he ev hl

theorem FlattenInvariant.write (hi : FlattenInvariant log)
    (hw : Transaction log.Issued log post) (hc : ClosesItsKeys log post) :
    FlattenInvariant post := by
  have hs := hw.stored hi.stored
  rcases hw.cases with ⟨claims, submissions, -, rfl⟩ | ⟨sig, ev, his, hid, rfl⟩ |
    ⟨fill, prev, res, slot, pnl, his, -, -, -, ha⟩ |
    ⟨controls, hco, rfl⟩
  · exact ⟨hs, hi.recorded, hi.closed⟩
  · exact hi.decides his hid hc
  · exact hi.attributes his ha hc hs
  · rcases hco with rfl | ⟨ev, -, rfl⟩
    · exact ⟨hs, hi.recorded, hi.closed⟩
    · exact hi.controls_append hs rfl rfl rfl

theorem ControlRun.flattenInvariant (hr : ControlRun ClosesItsKeys log) : FlattenInvariant log := by
  induction hr with
  | start hs hu =>
    refine ⟨hs, ?_, ?_⟩
    · rintro eventId key he
      simp [EventLog.Finished, hu.positions, hu.decisions] at he
    · rintro eventId key - he
      simp [EventLog.Finished, hu.positions, hu.decisions] at he
  | write _ hwrite hcloses ih => exact ih.write hwrite hcloses
  | control _ hflattening time ih =>
    have hs := ih.stored.ensureControlReductionSignals hflattening time
    obtain ⟨rows, hl, -⟩ := ensureControlReductionSignals_spec _ _ time
    rw [hl] at hs ⊢
    exact ⟨hs, ih.recorded, ih.closed⟩
  | outside _ ho ih =>
    obtain ⟨added, hc⟩ := ho.controls
    exact ih.controls_append (ho.stored ih.stored) hc ho.positions ho.decisions

/-- In a run whose fills and decisions close the keys of their control reductions, a
cycle under `REDUCE_ALL` leaves no open key without an actionable reduction. -/
theorem reduceAll_covers_open_keys (hrun : ControlRun ClosesItsKeys log)
    (hflattening : log.Flattening eventId) (time : Time) :
    (log.ensureControlReductionSignals eventId time).Covered eventId := by
  have hi := hrun.flattenInvariant
  have hs := hi.stored.ensureControlReductionSignals hflattening time
  obtain ⟨rows, hlog, -, hc, -⟩ :=
    ensureControlReductionSignals_spec log eventId time
  rw [hlog] at hs ⊢
  intro key ev hl ho
  have hl : log.latestPosition key = some ev := hl
  obtain ⟨row, hrow, hid⟩ := hc ev (mem_openPositions hl ho)
  rw [EventLog.latestPosition_key hl] at hid
  obtain ⟨hr, hk, -⟩ := hs.controls row hrow eventId key hid
  refine ⟨row, hrow, hid, hr, hk, ?_⟩
  rw [hid]
  intro he
  exact ho.ne' (hi.closed eventId key hflattening he ev hl)

theorem Transaction.mono {other : NormalizedSignal → Prop} (hw : Transaction rel log post)
    (hr : ∀ sig, rel sig → other sig) : Transaction other log post := by
  cases hw with
  | claim ord env now hsignal => exact .claim ord env now (hr _ hsignal)
  | record hkeyed => exact .record hkeyed
  | decide hsignal st amount codes time =>
    exact .decide (hr _ hsignal) st amount codes time
  | attributes hsignal hreceipt hrecord => exact .attributes (hr _ hsignal) hreceipt hrecord
  | control st actorId codes time =>
    exact .control st actorId codes time

theorem ControlRun.stored_keyed {allowed : EventLog → EventLog → Prop}
    (hr : ControlRun allowed log) : log.SignalsStored ∧ ∀ ev ∈ log.submissions, ev.Keyed := by
  induction hr with
  | start hs hunused => exact ⟨hs, by simp [hunused.submissions]⟩
  | write _ hw _ ih => exact ⟨hw.stored ih.1, hw.keyed ih.2⟩
  | control _ hflattening time ih =>
    refine ⟨ih.1.ensureControlReductionSignals hflattening time, ?_⟩
    obtain ⟨rows, hl, -⟩ := ensureControlReductionSignals_spec _ _ time
    rw [hl]
    exact ih.2
  | outside _ ho ih =>
    refine ⟨ho.stored ih.1, ?_⟩
    rw [ho.submissions]
    exact ih.2

theorem controlRun_rules (start : EventLog) : EngineRules Answers start.Issued fun world =>
      ControlRun (fun _ _ => True) world.log ∧
        ∀ control ∈ start.controls, control ∈ world.log.controls where
  keyed hw := hw.1.stored_keyed.2
  pending hw hentry := by
    obtain ⟨row, hrow, -, hk, -, rfl⟩ := mem_pendingIncreaseSignals hentry
    intro eventId key hid
    -- an entry never carries the identifier of a control reduction
    have hr := (hw.1.stored_keyed.1.controls row hrow eventId key hid).2.1
    rw [hk] at hr
    cases hr
  asks hb he := by
    refine ⟨⟨.outside hb.1 he.2, ?_⟩, he.2.submissions, he.2.lookup_eq⟩
    obtain ⟨added, hc⟩ := he.2.controls
    intro control hm
    rw [hc]
    exact List.mem_append_left _ (hb.2 control hm)
  writes hb hwr _ :=
    ⟨.write hb.1 (hwr.mono fun _ hi => hi.mono hb.2) trivial,
      fun control hm => hwr.controls_grow control (hb.2 control hm)⟩

theorem EngineRun.controlRun {world : World} (hr : EngineRun world) :
    ControlRun (fun _ _ => True) world.log := by
  induction hr with
  | start hstored hunused => exact .start hstored hunused
  | @process world _ _ cfg _ hrow _ hsignal asg hcall ih =>
    have hi := ih.stored_keyed.1.issued hrow hsignal
    have hs : ControlRun (fun _ _ => True) world.log ∧
        ∀ control ∈ world.log.controls, control ∈ world.log.controls :=
      ⟨ih, fun _ hm => hm⟩
    exact (((controlRun_rules world.log).processSignal cfg hi hs asg).reaches hs hcall).1
  | control _ hcontrol time ih => exact .control ih hcontrol time
  | outside _ houtside ih => exact .outside ih houtside

theorem ControlRun.closesItsKeys_of_no_reduceAll (hr : ControlRun (fun _ _ => True) log)
    (hn : ∀ control ∈ log.controls, control.state ≠ .reduceAll) : ControlRun ClosesItsKeys log := by
  induction hr with
  | start hstored hunused => exact .start hstored hunused
  | @write pre _ _ hw _ ih =>
    have hb : ∀ control ∈ pre.controls, control.state ≠ .reduceAll :=
      fun control hm => hn control (hw.controls_grow control hm)
    refine .write (ih hb) hw ⟨?_, ?_⟩
    · intro eventId ev hf
      obtain ⟨control, hm, -, hs⟩ := hf.recorded
      exact absurd hs (hb control hm)
    · intro eventId key ev hf
      obtain ⟨control, hm, -, hs⟩ := hf.recorded
      exact absurd hs (hb control hm)
  | control _ hf time ih =>
    obtain ⟨rows, hl, -⟩ := ensureControlReductionSignals_spec _ _ time
    rw [hl] at hn
    exact .control (ih hn) hf time
  | outside _ houtside ih =>
    obtain ⟨added, hc⟩ := houtside.controls
    refine .outside (ih fun control hm => hn control ?_) houtside
    rw [hc]
    exact List.mem_append_left _ hm

theorem outside_appendRuntimeControl (log : EventLog) (st : RuntimeControlState)
    (actorId : String) (codes : List String) (time : Time) :
    Outside log (log.appendRuntimeControl st actorId codes time) := by
  have hs : log.SignalsStored → (log.appendRuntimeControl st actorId codes time).SignalsStored :=
    (Transaction.control st actorId codes time :
      Transaction (fun _ => True) log _).stored
  dsimp only [EventLog.appendRuntimeControl] at hs ⊢
  split at hs
  · rename_i hknown
    rw [if_pos hknown]
    exact ⟨rfl, rfl, rfl, rfl, rfl, rfl, fun _ hr => hr, ⟨[], (List.append_nil _).symm⟩, hs⟩
  · rename_i hnew
    rw [if_neg hnew]
    exact ⟨rfl, rfl, rfl, rfl, rfl, rfl, fun _ hr => hr, ⟨_, rfl⟩, hs⟩

end Flatten

section OneFlatten

local instance oneFlattenHexOrder : HexOrder := distinctHexOrder

def flattenAsked : EventLog :=
  entryRetried.log.appendRuntimeControl .reduceAll "telegram:1" ["TELEGRAM_REDUCE_ALL"]
    (newYear + 3600000000)

def flattenEventId : Digest :=
  .runtimeControl "telegram:1" (newYear + 3600000000) ["TELEGRAM_REDUCE_ALL"] .reduceAll

theorem flattening_flattenAsked : flattenAsked.Flattening flattenEventId :=
  ⟨by with_unfolding_all decide, by with_unfolding_all decide⟩

theorem controlRun_flattenAsked : ControlRun ClosesItsKeys flattenAsked :=
  .outside (engineRun_entryRetried.controlRun.closesItsKeys_of_no_reduceAll
    (by with_unfolding_all decide))
    (outside_appendRuntimeControl _ _ _ _ _)

theorem first_cycle_covers_open_unit :
    (flattenAsked.latestPosition entryRow.key).map (·.resultingLocalQuantity) = some 1 ∧
      (flattenAsked.ensureControlReductionSignals flattenEventId
        (newYear + 3601000000)).Covered flattenEventId :=
  ⟨by with_unfolding_all decide,
    reduceAll_covers_open_keys controlRun_flattenAsked flattening_flattenAsked _⟩

def flattenWritten : World where
  log := flattenAsked.ensureControlReductionSignals flattenEventId (newYear + 3601000000)
  trace := entryRetried.trace

def flattenRow : SignalRow where
  signalId := controlSignalId flattenEventId entryRow.key
  deltaEventId := none
  leadPortfolioId := "1"
  symbol := "BTCUSDT"
  positionSide := .long
  signalKind := .reduce
  sourceDeltaQuantity := 1
  referencePrice := 1
  occurredAt := newYear + 3601000000
  signalOrigin := .controlSignal

def flattenExpired : World :=
  ((processSignal {} (flattenRow.normalized none) activeLeader).run exchangeAnswer
    flattenWritten).2

theorem engineRun_flattenExpired : EngineRun flattenExpired :=
  .process (.control (.outside engineRun_entryRetried (outside_appendRuntimeControl _ _ _ _ _))
      flattening_flattenAsked _) {}
    (show flattenRow ∈ flattenWritten.log.signals by with_unfolding_all decide)
    (flattenRow.describes_normalized _) activeLeader (Proc.reaches_run answers_exchangeAnswer)

/-- The remainder of a key whose control reduction was partially filled is left without
an actionable reduction in every later cycle of the flatten. -/
theorem expired_flatten_leaves_remainder_uncovered :
    ¬ ∀ [HexOrder] (world : World) (eventId : Digest) (time : Time),
      EngineRun world → world.log.Flattening eventId →
        (world.log.ensureControlReductionSignals eventId time).Covered
          eventId := by
  intro hcl
  have hc := @hcl distinctHexOrder flattenExpired flattenEventId (newYear + 7200000000)
    engineRun_flattenExpired ⟨by with_unfolding_all decide, by with_unfolding_all decide⟩
  have ho : ((flattenExpired.log.ensureControlReductionSignals flattenEventId
      (newYear + 7200000000)).latestPosition entryRow.key).map (·.resultingLocalQuantity) =
      some (3 / 5) := by
    with_unfolding_all decide
  obtain ⟨ev, hl, hq⟩ := Option.map_eq_some_iff.mp ho
  obtain ⟨row, -, hid, -, -, hu⟩ := hc entryRow.key ev hl (by rw [hq]; norm_num)
  apply hu
  rw [hid]
  left
  with_unfolding_all decide

end OneFlatten

end AiQuant.CopyTrading
