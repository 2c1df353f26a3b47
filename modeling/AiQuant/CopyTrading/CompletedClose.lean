import AiQuant.CopyTrading.RecoveryRun
import AiQuant.CopyTrading.SignalOutcome

/-! Reductions that close.  A reduction of at least the source position asks for all that the
leader owns, but what is attributed, and decided as `FILLED`, is what its order had filled
when it ended: an order that expires early leaves the rest of the position behind. -/
namespace AiQuant.CopyTrading
open AiQuant.Lib

namespace VirtualPositionLedger

theorem planFrom_whole {current : VirtualPosition} {delta step : Decimal}
    (ha : (planFrom current delta step).approved = true)
    (hc : current.observedSourceQuantity ≤ delta) :
    (planFrom current delta step).requestedLocalQuantity = current.localQuantity := by
  unfold planFrom at ha ⊢
  split at ha
  · cases ha
  split at ha
  · cases ha
  rename_i hlocal hpositive
  rw [if_neg hlocal, if_neg hpositive]
  show localReduction current delta step = current.localQuantity
  rw [localReduction, if_pos (Or.inr hc), min_self]

theorem planReduction_aligned {ledger aligned : VirtualPositionLedger} {sig : NormalizedSignal}
    {rules : SymbolTradingRules} {source : Option Decimal} {plan : ReductionPlan}
    (hp : ledger.planReduction sig rules source = (plan, aligned)) (ha : plan.approved = true) :
    (aligned.positionFor sig).observedSourceQuantity =
        source.getD (ledger.positionFor sig).observedSourceQuantity ∧
      ((aligned.positionFor sig).observedSourceQuantity ≤ sig.sourceDeltaQuantity →
        plan.requestedLocalQuantity = (aligned.positionFor sig).localQuantity) := by
  unfold planReduction at hp
  split at hp
  · cases hp
    cases ha
  split at hp
  · cases hp
    exact ⟨rfl, planFrom_whole ha⟩
  split at hp
  · cases hp
    cases ha
  dsimp only at hp
  cases hp
  have hc := ledger.positionFor_key sig
  rw [positionFor_set (by exact hc)]
  exact ⟨rfl, planFrom_whole ha⟩

end VirtualPositionLedger

def VirtualPositionEvent.sourceBefore (event : VirtualPositionEvent) : Decimal :=
  event.resultingSourceQuantity - event.sourceQuantityDelta

/-- A reduction's fill, planned on a source position of at most `delta`. -/
def VirtualPositionEvent.Closing (event : VirtualPositionEvent) (delta : Decimal) : Prop :=
  event.localQuantityDelta < 0 ∧ event.sourceBefore ≤ delta

theorem FillRecord.sourceBefore_positionEvent (fill : FillRecord) :
    fill.positionEvent.sourceBefore = fill.previous.observedSourceQuantity :=
  sub_sub_cancel _ _

section Close

variable [HexOrder]

/-- The source position that a reduction is planned on: the tracked one, else the one
recorded with the key's newest fill. -/
def plannedSource (tracked planned : EventLog) (signal : NormalizedSignal) : Decimal :=
  (tracked.sourcePositionQuantityBefore signal).getD
    (planned.loadVirtualLedger.positionFor signal).observedSourceQuantity

/-- The last answer about an order reports that the signal's claimed order has ended, with a
part of it filled. -/
def EndedInPart (signal : NormalizedSignal) (calls : List Asked) (log : EventLog) : Prop :=
  ∃ response clientOrderId filled quantity, lastOrderReply calls = some (.ok response) ∧
    log.claimedId signal = some clientOrderId ∧
    (log.durableRequest signal).bind (·.1) = some quantity ∧
    EndedBy clientOrderId filled response ∧ 0 < filled ∧ filled < quantity

/-- A fill of the signal that was to close its key. -/
def ClosedBy (signal : NormalizedSignal) (log : EventLog) (event : VirtualPositionEvent) : Prop :=
  event ∈ log.positions ∧ event.signalId = signal.signalId ∧
    event.Closing signal.sourceDeltaQuantity

/-- The signal was decided as `FILLED` between the two logs. -/
def DecidedFilled (signal : NormalizedSignal) (before after : EventLog) : Prop :=
  ∃ decision ∈ after.decisions, decision ∉ before.decisions ∧
    decision.signalId = signal.signalId ∧ decision.state = .filled

/-- What a call must meet: the order of a closing reduction does not end in part, and when the
reduction is decided as `FILLED`, its fill is later than every other fill of the key. -/
structure CloseCondition (signal : NormalizedSignal) (world reached : World) : Prop where
  whole : ∀ event, ClosedBy signal reached.log event → event ∉ world.log.positions →
    ¬ EndedInPart signal (reached.trace.drop world.trace.length) reached.log
  latest : ∀ event, ClosedBy signal reached.log event →
    DecidedFilled signal world.log reached.log →
    ∀ other ∈ reached.log.keyPositions event.key, other ≠ event →
      other.occurredAt < event.occurredAt

/-- The runs of the runtime whose calls all meet the condition. -/
inductive CloseRun : World → Prop
  | start {log : EventLog} (hstored : log.SignalsStored) (hunused : log.Unused) :
      CloseRun ⟨log, []⟩
  | process {world reached : World} (hrun : CloseRun world) (settings : RuntimeSettings)
      {row : SignalRow} (hrow : row ∈ world.log.signals) {signal : NormalizedSignal}
      (hsignal : row.Describes signal) (assignment : LeaderAssignment)
      (hcall : Proc.Reaches Answers world (processSignal settings signal assignment) reached)
      (hcondition : CloseCondition signal world reached) : CloseRun reached
  | control {world : World} (hrun : CloseRun world) {controlEventId : Digest}
      (hcontrol : world.log.latestRuntimeControl.state = .reduceAll ∧
        world.log.latestRuntimeControl.eventId = some controlEventId) (occurredAt : Time) :
      CloseRun { world with
        log := world.log.ensureControlReductionSignals controlEventId occurredAt }
  | outside {world : World} (hrun : CloseRun world) {log : EventLog}
      (houtside : Outside world.log log) : CloseRun { world with log := log }

theorem CloseRun.engineRun {world : World} (hr : CloseRun world) : EngineRun world := by
  induction hr with
  | start hstored hunused => exact .start hstored hunused
  | process _ cfg hrow hsignal asg hcall _ ih =>
    exact .process ih cfg hrow hsignal asg hcall
  | control _ hcontrol time ih => exact .control ih hcontrol time
  | outside _ houtside ih => exact .outside ih houtside

theorem Transaction.claimsChecked {rel : NormalizedSignal → Prop} {log post : EventLog}
    (hw : Transaction rel log post) (hc : log.ClaimsChecked) : post.ClaimsChecked := by
  obtain ⟨hu, hcla | ⟨ord, env, now, -, -, ha⟩⟩ := hw.claims_cases
  · refine ⟨?_, ?_⟩ <;> rw [hcla]
    · exact hc.quantities
    · rw [hu]
      exact hc.upgrades
  · refine ⟨?_, ?_⟩ <;> rw [ha]
    · intro claim hcl qty hq
      rcases List.mem_append.mp hcl with ho | hn
      · exact hc.quantities claim ho qty hq
      · rw [List.mem_singleton.mp hn] at hq
        cases hq
        exact ord.localQuantity_pos
    · intro upgrade hup
      obtain ⟨claim, hcl, hs⟩ := hc.upgrades upgrade hup
      exact ⟨claim, List.mem_append_left _ hcl, hs⟩

omit [HexOrder] in
theorem Outside.claimsChecked {log post : EventLog} (ho : Outside log post)
    (hc : log.ClaimsChecked) : post.ClaimsChecked := by
  refine ⟨?_, ?_⟩ <;> rw [ho.claims]
  · exact hc.quantities
  · rw [ho.policyUpgrades]
    exact hc.upgrades

theorem claimsChecked_rules : LogRules (fun _ => True)
      fun log => (∀ event ∈ log.submissions, event.Keyed) ∧ log.ClaimsChecked where
  start _ hunused := by
    refine ⟨by simp [hunused.submissions], ?_, ?_⟩
    · simp [hunused.claims]
    · simp [hunused.policyUpgrades]
  keyed hl := hl.1
  related_of_row _ _ _ := trivial
  writes hl hw := ⟨hw.keyed hl.1, hw.claimsChecked hl.2⟩
  controls eventId time hl := by
    obtain ⟨rows, hc, -⟩ := ensureControlReductionSignals_spec _ eventId time
    rw [hc]
    exact ⟨hl.1, hl.2.quantities, hl.2.upgrades⟩
  outside hl ho := by
    refine ⟨?_, ho.claimsChecked hl.2⟩
    rw [ho.submissions]
    exact hl.1

structure Since (before after : World) : Prop where
  trace : ∃ calls, after.trace = before.trace ++ calls
  signals : ∀ row ∈ before.log.signals, row ∈ after.log.signals

section Since

omit [HexOrder]

variable {pre mid post : World}

theorem Since.refl (world : World) : Since world world :=
  ⟨⟨[], (List.append_nil _).symm⟩, fun _ hr => hr⟩

theorem Since.asks (hs : Since pre mid) {qry : Query} {reply : qry.Reply}
    (ha : Answers mid qry reply post) : Since pre post := by
  obtain ⟨calls, ht⟩ := hs.trace
  refine ⟨⟨calls ++ [⟨mid.log, qry, reply⟩], ?_⟩, ?_⟩
  · rw [ha.1, ht, List.append_assoc]
  · exact fun row hr => ha.2.signals row (hs.signals row hr)

theorem Since.writes (hs : Since pre mid) {log : EventLog}
    (hsi : log.signals = mid.log.signals) : Since pre { mid with log := log } :=
  ⟨hs.trace, fun row hr => hsi.symm ▸ hs.signals row hr⟩

theorem Since.started (hs : Since pre post) : pre.trace.length ≤ post.trace.length := by
  obtain ⟨calls, ht⟩ := hs.trace
  rw [ht, List.length_append]
  exact Nat.le_add_right _ _

end Since

/-- The signal is a stored reduction without a fill, and since `start` it was not decided as
`FILLED`. -/
structure Unfilled (signal : NormalizedSignal) (start world : World) : Prop where
  since : Since start world
  keyed : ∀ event ∈ world.log.submissions, event.Keyed
  stored : world.log.SignalsStored
  row : ∃ row ∈ world.log.signals, row.signalId = signal.signalId ∧ row.signalKind = .reduce
  checked : world.log.ClaimsChecked
  unattributed : ∀ event ∈ world.log.positions, event.signalId ≠ signal.signalId
  undecided : ¬ DecidedFilled signal start.log world.log

section Unfilled

variable {sig : NormalizedSignal} {start world : World}

omit [HexOrder] in
theorem DecidedFilled.of_added {pre mid post : EventLog} (hf : DecidedFilled sig pre post)
    (ha : ∀ dec ∈ post.decisions, dec ∈ mid.decisions ∨
      dec.signalId ≠ sig.signalId ∨ dec.state ≠ .filled) : DecidedFilled sig pre mid := by
  obtain ⟨dec, hm, hn, hs, hst⟩ := hf
  rcases ha dec hm with hold | ho | ho
  · exact ⟨dec, hold, hn, hs, hst⟩
  · exact absurd hs ho
  · exact absurd hst ho

omit [HexOrder] in
theorem Unfilled.asks (hu : Unfilled sig start world) {post : World} {qry : Query}
    {reply : qry.Reply} (ha : Answers world qry reply post) : Unfilled sig start post := by
  have ho := ha.2
  obtain ⟨row, hr, hv⟩ := hu.row
  refine ⟨hu.since.asks ha, ?_, ho.stored hu.stored,
    ⟨row, ho.signals row hr, hv⟩, ho.claimsChecked hu.checked, ?_, ?_⟩
  · rw [ho.submissions]
    exact hu.keyed
  · rw [ho.positions]
    exact hu.unattributed
  · intro hf
    refine hu.undecided (hf.of_added fun dec hm => ?_)
    rw [ho.decisions] at hm
    exact Or.inl hm

theorem Unfilled.writes (hu : Unfilled sig start world)
    {rel : NormalizedSignal → Prop} {log : EventLog} (hw : Transaction rel world.log log)
    (hp : ∀ event ∈ log.positions, event ∈ world.log.positions ∨ event.signalId ≠ sig.signalId)
    (hd : ∀ dec ∈ log.decisions, dec ∈ world.log.decisions ∨
      dec.signalId ≠ sig.signalId ∨ dec.state ≠ .filled) :
    Unfilled sig start { world with log := log } := by
  obtain ⟨row, hr, hv⟩ := hu.row
  refine ⟨hu.since.writes hw.signals_eq, hw.keyed hu.keyed,
    hw.stored hu.stored, ⟨row, hw.signals_eq.symm ▸ hr, hv⟩,
    hw.claimsChecked hu.checked, ?_, ?_⟩
  · intro event hm
    rcases hp event hm with hold | ho
    · exact hu.unattributed event hold
    · exact ho
  · intro hf
    exact hu.undecided (hf.of_added hd)

omit [HexOrder] in
theorem Unfilled.restart (hu : Unfilled sig start world) : Unfilled sig world world :=
  { hu with
    since := .refl world
    undecided := fun ⟨_, hm, hn, _⟩ => hn hm }

theorem unfilled_rules : EngineRules Answers (fun other => other.signalId ≠ sig.signalId)
      (Unfilled sig start) where
  keyed hworld := hworld.keyed
  pending hworld hentry := hworld.stored.pending_ne hworld.row hentry
  asks hb he := ⟨hb.asks he, he.2.submissions, he.2.lookup_eq⟩
  writes hb hw _ := by
    refine hb.writes hw ?_ ?_
    · intro event hm
      refine (hw.positions_added event hm).imp_right ?_
      rintro ⟨fill, ho, -, rfl⟩
      exact ho
    · intro dec hm
      refine (hw.decisions_added dec hm).imp_right ?_
      rintro ⟨other, ho, hid⟩
      exact Or.inl (hid ▸ ho)

end Unfilled

structure Submitting (signal : NormalizedSignal) (start planned world : World) : Prop
    extends Unfilled signal start world where
  sincePlan : Since planned world
  positions : world.log.positions = planned.log.positions

/-- A new fill of the signal: a reduction, planned on the source position that the call read,
which closes the key when it was to close it and its order did not end in part. -/
structure NewFill (signal : NormalizedSignal) (start reached : World)
    (event : VirtualPositionEvent) : Prop where
  signalId : event.signalId = signal.signalId
  key : event.key = signal.key
  reduces : event.localQuantityDelta < 0
  planned : ∃ tracked planned : World, Since start tracked ∧ Since tracked planned ∧
    Since planned reached ∧ reached.log.positions = planned.log.positions ++ [event] ∧
    event.sourceBefore = plannedSource tracked.log planned.log signal
  whole : event.sourceBefore ≤ signal.sourceDeltaQuantity →
    ¬ EndedInPart signal (reached.trace.drop start.trace.length) reached.log →
    event.resultingLocalQuantity = 0

def Filling (signal : NormalizedSignal) (start world : World) : Prop :=
  Unfilled signal start world ∨ ∃ event, NewFill signal start world event

def OrderEnded (signal : NormalizedSignal) (calls : List Asked) (log : EventLog)
    (receipt : CopyExecutionReceipt) : Prop :=
  ∃ response clientOrderId, lastOrderReply calls = some (.ok response) ∧
    log.claimedId signal = some clientOrderId ∧
    (log.durableRequest signal).bind (·.1) = some receipt.requestedQuantity ∧
    EndedBy clientOrderId receipt.filledQuantity response

section Filling

variable {sig : NormalizedSignal} {start tracked planned world : World}
  {rcpt : CopyExecutionReceipt}

omit [HexOrder] in
theorem Submitting.asks (hw : Submitting sig start planned world) {post : World}
    {qry : Query} {reply : qry.Reply} (ha : Answers world qry reply post) :
    Submitting sig start planned post where
  toUnfilled := hw.toUnfilled.asks ha
  sincePlan := hw.sincePlan.asks ha
  positions := ha.2.positions.trans hw.positions

variable {log : EventLog}

theorem Submitting.writes (hw : Submitting sig start planned world)
    {rel : NormalizedSignal → Prop}
    (hwr : Transaction rel world.log log) (hp : log.positions = world.log.positions)
    (hd : ∀ dec ∈ log.decisions, dec ∈ world.log.decisions ∨
      dec.signalId ≠ sig.signalId ∨ dec.state ≠ .filled) :
    Submitting sig start planned { world with log := log } where
  toUnfilled := hw.toUnfilled.writes hwr (fun _ hm => Or.inl (hp ▸ hm)) hd
  sincePlan := hw.sincePlan.writes hwr.signals_eq
  positions := hp.trans hw.positions

variable {st : DecisionState}

omit [HexOrder] in
theorem recordSignalDecision_added (allowed : DecisionState → Prop) (hs : allowed st)
    (amount : Decimal) (codes : List String) (time : Time) : ∀ dec ∈
        (log.recordSignalDecision sig st amount codes time).decisions,
      dec ∈ log.decisions ∨ dec.signalId ≠ sig.signalId ∨
        allowed dec.state := by
  intro dec hm
  dsimp only [EventLog.recordSignalDecision] at hm
  split at hm
  · exact Or.inl hm
  · rcases List.mem_append.mp hm with ho | hn
    · exact Or.inl ho
    · rw [List.mem_singleton.mp hn]
      exact Or.inr (Or.inr hs)

omit [HexOrder] in
theorem recordSignalDecision_tables (log : EventLog) (sig : NormalizedSignal)
    (st : DecisionState) (amount : Decimal) (codes : List String) (time : Time) :
    let decided := log.recordSignalDecision sig st amount codes time
    decided.signals = log.signals ∧ decided.positions = log.positions ∧
      decided.claims = log.claims ∧ decided.policyUpgrades = log.policyUpgrades := by
  dsimp only [EventLog.recordSignalDecision]
  split <;> exact ⟨rfl, rfl, rfl, rfl⟩

theorem Submitting.decides (hwo : Submitting sig start planned world) (hs : st ≠ .filled)
    (amount : Decimal) (codes : List String) (time : Time) :
    Submitting sig start planned { world with
      log := world.log.recordSignalDecision sig st amount codes
        time } := by
  have hw : Transaction (fun _ => True) world.log
      (world.log.recordSignalDecision sig st amount codes time) :=
    .decide trivial st amount codes time
  exact hwo.writes hw (recordSignalDecision_tables _ _ _ _ _ _).2.1
    (recordSignalDecision_added (· ≠ .filled) hs _ _ _)

omit [HexOrder] in
theorem recordSubmission_tables (log : EventLog) (event : SubmissionEvent) :
    (log.recordSubmission event).positions = log.positions ∧
      (log.recordSubmission event).decisions = log.decisions := by
  unfold EventLog.recordSubmission
  split <;> exact ⟨rfl, rfl⟩

omit [HexOrder] in
theorem claim_tables (log : EventLog) (row : SubmissionClaimRow) (submitting : SubmissionEvent) :
    (log.claim row submitting).2.positions = log.positions ∧
      (log.claim row submitting).2.decisions = log.decisions := by
  rcases claim_cases log row submitting with hl | ⟨-, claimed, hw, hr⟩
  · rw [hl]
    exact ⟨rfl, rfl⟩
  · rw [hw, hr]
    exact ⟨rfl, rfl⟩

theorem journalRules_of_writes {inv : World → Prop}
    (has : ∀ {pre post : World} {qry : Query} {reply : qry.Reply}, inv pre →
      Answers pre qry reply post → inv post) (hw : ∀ {pre : World} {log : EventLog}, inv pre →
      Transaction (fun _ => True) pre.log log → log.positions = pre.log.positions →
      log.decisions = pre.log.decisions → inv { pre with log := log }) :
    JournalRules Answers sig inv (fun _ _ => True) where
  asks hbefore he := ⟨has hbefore he, he.2.lookup_eq _⟩
  records rcpt exchangeOrderId resp hworld := by
    simp only [recordNow, clock, writeLog, Proc.safe_bind, Proc.safe_question, Proc.safe_write]
    intro time asked he
    have ha := has hworld he
    have hk := submissionEvent_keyed sig.signalId rcpt.state.submission time
      rcpt.filledQuantity exchangeOrderId resp rcpt.reasonCodes
    have hr := hw ha (.record hk) (recordSubmission_tables _ _).1 (recordSubmission_tables _ _).2
    exact ⟨ha, hr, hr, trivial⟩
  resubmits codes hworld := by
    simp only [recordNow, clock, writeLog, Proc.safe_bind, Proc.safe_question, Proc.safe_write]
    intro time asked he
    have ha := has hworld he
    have hk := submissionEvent_keyed sig.signalId .submitting time 0 none none codes
    have hr := hw ha (.record hk) (recordSubmission_tables _ _).1 (recordSubmission_tables _ _).2
    exact ⟨ha, hr, hr⟩
  claims ord env hsignal hworld := by
    subst hsignal
    simp only [claimSubmission, clock, Proc.safe_bind, Proc.safe_question, Proc.safe_transact]
    intro now asked he
    have ha := has hworld he
    have hc := hw ha (.claim ord env now trivial) (claim_tables _ _ _).1 (claim_tables _ _ _).2
    exact ⟨ha, hc, hc⟩
  unknown _ _ := trivial
  refused _ _ _ := trivial

theorem submitting_rules :
    JournalRules Answers sig (Submitting sig start planned) (fun _ _ => True) :=
  journalRules_of_writes (fun hw he => hw.asks he)
    fun hw hwr hp hd =>
      hw.writes hwr hp fun _ hm => Or.inl (hd ▸ hm)

omit [HexOrder] in
theorem Since.lastOrderReply_eq {reply : Except ProbeError OrderResponse}
    (hf : Since start planned) (hs : Since planned world)
    (hl : lastOrderReply (world.trace.drop planned.trace.length) = some reply) :
    lastOrderReply (world.trace.drop start.trace.length) = some reply := by
  obtain ⟨earlier, hp⟩ := hf.trace
  obtain ⟨later, ht⟩ := hs.trace
  rw [ht, List.drop_left] at hl
  rw [ht, hp, List.append_assoc, List.drop_left, lastOrderReply, List.filterMap_append,
    List.getLast?_append]
  rw [lastOrderReply] at hl
  rw [hl]
  rfl

theorem OrderEnded.of_same {calls later : List Asked} {post : EventLog}
    (he : OrderEnded sig calls log rcpt) (hl : lastOrderReply later = lastOrderReply calls)
    (hc : post.claims = log.claims) (hu : post.policyUpgrades = log.policyUpgrades) :
    OrderEnded sig later post rcpt := by
  unfold OrderEnded at he ⊢
  rw [hl, claimedId_of_tables hc hu, durableRequest_of_tables hc hu]
  exact he

theorem execute_ended (hw : Submitting sig start world world)
    (cfg : ExecutorSettings) {ord : CopyMarketOrder} (hs : ord.signal = sig)
    (risk : AccountRiskDecision) : (execute cfg ord risk).Safe Answers (Submitting sig start world)
      (fun rcpt reached => Submitting sig start world reached ∧
        (rcpt.isTerminal = true → 0 < rcpt.filledQuantity → 0 < rcpt.averagePrice →
          OrderEnded sig (reached.trace.drop start.trace.length) reached.log rcpt))
      world := by
  subst hs
  have hk := submitting_rules.execute cfg rfl hw risk
  apply ((hk.and (execute_sound cfg hw.checked ord risk)).weaken
    fun _ hre => hre.1).mono
  rintro rcpt reached ⟨⟨hre, -⟩, he⟩
  refine ⟨hre, fun ht hf hp => ?_⟩
  obtain ⟨resp, orderId, hl, hc, hen⟩ := he.ended ht hp
  refine ⟨resp, orderId, hw.since.lastOrderReply_eq hre.sincePlan hl, hc, ?_, hen⟩
  have hr := he.requested
  unfold RequestedAs at hr
  split at hr
  · rename_i hdurable
    rw [hdurable, hr]
    rfl
  · exact absurd hr.2.1 hf.ne'

theorem Unfilled.decides (hw : Unfilled sig start world) (hst : st ≠ .filled)
    (amount : Decimal) (codes : List String) (time : Time) :
    (recordDecision sig st amount codes time).Safe Answers
      (Filling sig start) (fun _ => Filling sig start) world := by
  have hs : Submitting sig start world world := ⟨hw, .refl world, rfl⟩
  have hd := (hs.decides hst amount codes time).toUnfilled
  exact ⟨Or.inl hd, Or.inl hd⟩

theorem NewFill.decides {event : VirtualPositionEvent} (hf : NewFill sig start world event)
    (st : DecisionState) (amount : Decimal) (codes : List String) (time : Time) :
    NewFill sig start { world with
      log := world.log.recordSignalDecision sig st amount codes time }
      event := by
  obtain ⟨tracked, planned, ht, hpl, hsi, hp, hso⟩ := hf.planned
  obtain ⟨hs, hsa, hc, hu⟩ :=
    recordSignalDecision_tables world.log sig st amount codes time
  refine ⟨hf.signalId, hf.key, hf.reduces, ⟨tracked, planned, ht, hpl,
    hsi.writes hs, hsa.trans hp, hso⟩, ?_⟩
  intro hclo he
  apply hf.whole hclo
  rintro ⟨resp, orderId, filled, qty, hl, hcl, hq, hv⟩
  refine he ⟨resp, orderId, filled, qty, hl, ?_, ?_, hv⟩
  · rw [claimedId_of_tables hc hu, hcl]
  · rw [durableRequest_of_tables hc hu, hq]

variable {rules : SymbolTradingRules} {plan : ReductionPlan} {aligned : VirtualPositionLedger}

theorem newFill_of_attributes (ht : Since start tracked) (hpl : Since tracked planned)
    (hplan : planned.log.loadVirtualLedger.planReduction sig rules
      (tracked.log.sourcePositionQuantityBefore sig) = (plan, aligned))
    (hap : plan.approved = true) (hw : Submitting sig start planned world)
    (hen : OrderEnded sig (world.trace.drop start.trace.length) world.log rcpt)
    (hr : plan.requestedLocalQuantity = rcpt.requestedQuantity)
    {fill : FillRecord} (hsi : fill.signal = sig)
    (hp : fill.previous = aligned.positionFor sig) (hf : 0 < rcpt.filledQuantity)
    (hu : fill.updated.localQuantity = fill.previous.localQuantity - rcpt.filledQuantity)
    {prev res : PnlState} {slot : LeaderSlot} {pnl : Decimal}
    (ha : world.log.Attributes fill log prev res slot pnl) :
    NewFill sig start { world with log := log } fill.positionEvent := by
  obtain ⟨hal, hwh⟩ := VirtualPositionLedger.planReduction_aligned hplan hap
  have hs := fill.sourceBefore_positionEvent
  rw [hp] at hs
  have hsig : log.signals = world.log.signals := by rw [ha.after_eq]
  refine ⟨congrArg (·.signalId) hsi, congrArg (·.key) hsi, ?_,
    ⟨tracked, planned, ht, hpl, hw.sincePlan.writes hsig, ?_, ?_⟩, ?_⟩
  · show fill.updated.localQuantity - fill.previous.localQuantity < 0
    rw [hu, sub_sub_cancel_left]
    exact neg_neg_of_pos hf
  · rw [ha.after_eq, ← hw.positions]
  · rw [hs, hal, plannedSource]
  · intro hc hno
    rw [hs] at hc
    obtain ⟨resp, orderId, hl, hcl, hq, he⟩ := hen
    have hre : fill.positionEvent.resultingLocalQuantity =
        rcpt.requestedQuantity - rcpt.filledQuantity := by
      show fill.updated.localQuantity = _
      rw [hu, hp, ← hwh hc, hr]
    -- an order that ended with less than was asked for has ended in part
    have hall : rcpt.requestedQuantity ≤ rcpt.filledQuantity := by
      by_contra hless
      apply hno
      rw [ha.after_eq]
      exact ⟨resp, orderId, _, _, hl, hcl, hq, he, hf, not_le.mp hless⟩
    have hn := fill.positionEvent.resultingLocalQuantity_nonneg
    rw [hre] at hn ⊢
    exact le_antisymm (sub_nonpos.mpr hall) hn

theorem attributeReduction_fills (ht : Since start tracked) (hp : Since tracked planned)
    (hpl : planned.log.loadVirtualLedger.planReduction sig rules
      (tracked.log.sourcePositionQuantityBefore sig) = (plan, aligned))
    (ha : plan.approved = true) (hw : Submitting sig start planned world)
    (he : OrderEnded sig (world.trace.drop start.trace.length) world.log rcpt) (time : Time) :
    (attributeReduction sig aligned plan rcpt time).Safe Answers
      (Filling sig start) (fun _ => Filling sig start) world := by
  unfold attributeReduction
  split
  · exact hw.toUnfilled.decides (by simp) _ _ _
  rename_i hrequested
  split
  · exact Proc.safe_halt
  rename_i updated _ hupdated
  obtain ⟨hf, hl⟩ :=
    VirtualPositionLedger.recordReductionFill_planned hpl ha hupdated
  simp only [recordVirtualPosition, Proc.safe_bind, Proc.safe_transact]
  cases hr : world.log.recordVirtualPosition ⟨sig, aligned.positionFor sig, updated,
      rcpt.averagePrice, rcpt.leverage, time⟩ with
  | error code => exact ⟨Or.inl hw.toUnfilled, Proc.safe_halt⟩
  | ok log =>
    obtain ⟨-, ⟨-, event, hev, hk⟩ | ⟨prev, res, slot, realized, hat⟩⟩ :=
      EventLog.recordVirtualPosition_cases hr
    · exact absurd hk (hw.unattributed event hev)
    · have hfi : NewFill sig start { world with log := log } _ :=
        newFill_of_attributes ht hp hpl ha hw he (not_not.mp hrequested) rfl rfl hf hl hat
      exact ⟨Or.inr ⟨_, hfi⟩, Or.inr ⟨_, hfi.decides _ _ _ _⟩, Or.inr ⟨_, hfi.decides _ _ _ _⟩⟩

omit [HexOrder] in
theorem rejectedDecision_ne_filled (codes : List String) : rejectedDecision codes ≠ .filled := by
  unfold rejectedDecision
  repeat' split
  all_goals simp

theorem recordOutcome_fills {onFill : CopyExecutionReceipt → Time → Engine Unit}
    (hw : Unfilled sig start world) (hf : rcpt.isTerminal = true → 0 < rcpt.filledQuantity →
      0 < rcpt.averagePrice → ∀ time, (onFill rcpt time).Safe Answers
        (Filling sig start) (fun _ => Filling sig start) world) (time : Time) :
    (recordOutcome sig rcpt onFill time).Safe Answers (Filling sig start)
      (fun _ => Filling sig start) world := by
  unfold recordOutcome
  split
  · rename_i hterminal
    split
    · exact hw.decides (by simp) _ _ _
    rename_i hfilled
    split
    · split
      · exact Or.inl hw
      · exact hw.decides (by simp) _ _ _
    · rename_i hprice
      exact hf hterminal (not_le.mp hfilled) (not_le.mp hprice) time
  split
  · exact hw.decides (by simp) _ _ _
  · exact hw.decides (by simp) _ _ _
  · exact Or.inl hw
  · exact hw.decides (rejectedDecision_ne_filled _) _ _ _

theorem submitSignal_fills (htr : Since start tracked) (hp : Since tracked planned)
    (hw : Unfilled sig start planned) (hpl : planned.log.loadVirtualLedger.planReduction sig rules
      (tracked.log.sourcePositionQuantityBefore sig) = (plan, aligned))
    (hap : plan.approved = true) (cfg : RuntimeSettings) {ord : CopyMarketOrder}
    (hsi : ord.signal = sig) (amount : Decimal) (risk : AccountRiskDecision) (now : Time) :
    (submitSignal cfg sig ord amount risk (attributeReduction sig aligned plan)
      now).Safe Answers (Filling sig start) (fun _ => Filling sig start) planned := by
  unfold submitSignal
  split
  · exact hw.decides (by simp) _ _ _
  split
  · exact hw.decides (by simp) _ _ _
  rw [Proc.safe_bind]
  have hs : Submitting sig start planned planned := ⟨hw, .refl planned, rfl⟩
  apply ((execute_ended hs cfg.executor hsi risk).weaken
    fun _ hr => Or.inl hr.toUnfilled).mono
  rintro rcpt executed ⟨he, hen⟩
  -- from the receipt on, only the clock is asked before the fill is attributed
  have hre : ∀ announced, Submitting sig start planned announced →
      announced.trace = executed.trace → announced.log.claims = executed.log.claims →
      announced.log.policyUpgrades = executed.log.policyUpgrades →
      (do
        let clockAt ← clock
        recordOutcome sig rcpt (attributeReduction sig aligned plan)
          (max clockAt (now + 1)) : Engine Unit).Safe Answers (Filling sig start)
        (fun _ => Filling sig start) announced := by
    intro announced ha htra hc hu
    simp only [clock, Proc.safe_bind, Proc.safe_question]
    intro clockAt asked han
    have has := ha.asks han
    refine ⟨Or.inl has.toUnfilled, recordOutcome_fills has.toUnfilled ?_ _⟩
    intro ht hf hpr time
    refine attributeReduction_fills htr hp hpl hap has
      ((hen ht hf hpr).of_same ?_ (han.2.claims.trans hc) (han.2.policyUpgrades.trans hu)) time
    rw [han.1, htra, List.drop_append_of_le_length he.since.started, lastOrderReply_concat]
    rfl
  rw [Proc.safe_bind]
  unfold announceSubmission
  split
  · exact hre executed he rfl rfl rfl
  · have hsu : DecisionState.submitted ≠ .filled := by simp
    have ha := he.decides hsu rcpt.requestedQuantity
      (if resubmittedReason ∈ rcpt.reasonCodes then [resubmittedReason] else []) now
    obtain ⟨-, -, hc, hu⟩ := recordSignalDecision_tables executed.log sig .submitted
      rcpt.requestedQuantity
      (if resubmittedReason ∈ rcpt.reasonCodes then [resubmittedReason] else []) now
    exact ⟨Or.inl ha.toUnfilled, hre _ ha rfl hc hu⟩

theorem processReduction_fills (hw : Unfilled sig start world) (cfg : RuntimeSettings)
    {claimed : Option CopyMarketOrder} (hc : ∀ ord ∈ claimed, ord.signal = sig)
    (rules : SymbolTradingRules) (risk : AccountRiskDecision) (now : Time) :
    (processReduction cfg sig claimed rules risk now).Safe Answers (Filling sig start)
      (fun _ => Filling sig start) world := by
  simp only [processReduction, readLog, Proc.safe_bind, Proc.safe_read]
  refine ⟨Or.inl hw, ?_⟩
  -- the entries that the reduction supersedes are other signals
  have hre : (resolveSuperseded cfg sig
      (world.log.sourcePositionQuantityBefore sig) now).Safe Answers
      (fun reached => Unfilled sig start reached ∧ Unfilled sig world reached)
      (fun _ reached => Unfilled sig start reached ∧ Unfilled sig world reached) world :=
    (unfilled_rules.resolveSuperseded cfg hw _ now).and
      (unfilled_rules.resolveSuperseded cfg hw.restart _ now)
  apply (hre.weaken fun _ hr => Or.inl hr.1).mono
  rintro resolved planned ⟨hr, hsi⟩
  split
  · exact hr.decides (by simp) _ _ _
  rw [Proc.safe_bind, Proc.safe_read]
  refine ⟨Or.inl hr, ?_⟩
  split
  · exact hr.decides (by simp) _ _ _
  rename_i happroved
  split
  · exact Proc.safe_halt
  · rename_i ord horder
    have hs : ord.signal = sig := EngineRules.claimed_or_create_signal hc horder
    refine submitSignal_fills hw.since hsi.since hr rfl ?_ cfg hs _ _ _
    exact eq_true_of_ne_false happroved

theorem processOpen_fills (hw : Unfilled sig start world) (hk : sig.kind = .reduce)
    (cfg : RuntimeSettings) {claimed : Option CopyMarketOrder}
    (hcl : ∀ ord ∈ claimed, ord.signal = sig) (asg : LeaderAssignment) (now : Time) :
    (processOpen cfg sig asg claimed now).Safe Answers (Filling sig start)
      (fun _ => Filling sig start) world := by
  rw [processOpen, Proc.safe_bind]
  apply (((unfilled_rules.readMarket hw now).and (readMarket_reduction hk now)).weaken
    fun _ hr => Or.inl hr.1).mono
  rintro market read ⟨hre, hn⟩
  split
  · exact Proc.safe_halt
  · exact hre.decides (by simp) _ _ _
  · rename_i rules limitPrice acct
    cases hn rules limitPrice acct rfl
    rw [Proc.safe_bind]
    apply ((unfilled_rules.applyRiskControl cfg hre _ now).weaken
      fun _ hr => Or.inl hr).mono
    intro _ controlled hc
    exact processReduction_fills hc cfg hcl _ _ _

theorem processSignal_fills (hw : Unfilled sig world world)
    (hk : sig.kind = .reduce) (cfg : RuntimeSettings) (asg : LeaderAssignment) :
    (processSignal cfg sig asg).Safe Answers (Filling sig world)
      (fun _ => Filling sig world) world := by
  simp only [processSignal, clock, readLog, Proc.safe_bind, Proc.safe_question, Proc.safe_read]
  intro now asked han
  have ha := hw.asks han
  refine ⟨Or.inl ha, Or.inl ha, ?_⟩
  have hn : asked.log.attributedFillQuantity sig.signalId = .ok none :=
    EventLog.attributedFillQuantity_eq_none_iff.mpr ha.unattributed
  rw [hn]
  simp only [Proc.safe_bind]
  apply (EngineRules.executorClaim cfg (Or.inl ha)).mono
  rintro claimed _ ⟨rfl, hc⟩
  simp only [Proc.safe_read]
  refine ⟨Or.inl ha, Or.inl ha, ?_⟩
  rw [entryBlock, if_pos (by rw [hk]; decide)]
  exact processOpen_fills ha hk cfg hc asg now

end Filling

def EventLog.ClosesKept (log : EventLog) : Prop :=
  ∀ event ∈ log.positions, event.localQuantityDelta < 0 → ∃ row ∈ log.signals,
    row.signalId = event.signalId ∧ row.key = event.key ∧
      (event.sourceBefore ≤ row.sourceDeltaQuantity → event.resultingLocalQuantity = 0)

/-- Since `start`, only the signal's own fill may have reduced a key. -/
structure OnlyOwnReduces (signal : NormalizedSignal) (start world : World) : Prop where
  since : Since start world
  keyed : ∀ event ∈ world.log.submissions, event.Keyed
  fills : ∀ event ∈ world.log.positions, event ∈ start.log.positions ∨
    0 < event.localQuantityDelta ∨ event.signalId = signal.signalId ∧ signal.kind = .reduce

section Runs

variable {sig : NormalizedSignal} {start world reached : World} {row : SignalRow}

theorem onlyOwnReduces_rules :
    EngineRules Answers (fun other => other = sig ∨ other.kind = .increase)
      (OnlyOwnReduces sig start) where
  keyed hworld := hworld.keyed
  pending _ hentry := by
    obtain ⟨row, -, -, hi, -, rfl⟩ := mem_pendingIncreaseSignals hentry
    exact Or.inr hi
  asks hb he := by
    refine ⟨⟨hb.since.asks he, ?_, ?_⟩, he.2.submissions, he.2.lookup_eq⟩
    · rw [he.2.submissions]
      exact hb.keyed
    · rw [he.2.positions]
      exact hb.fills
  writes hb hw _ := by
    refine ⟨hb.since.writes hw.signals_eq, hw.keyed hb.keyed, ?_⟩
    intro event hm
    rcases hw.positions_added event hm with ho | ⟨fill, hr, hv, rfl⟩
    · exact hb.fills event ho
    · -- an entry's fill is positive, and the only other signal is the call's own
      cases hk : fill.signal.kind with
      | increase => exact Or.inr (Or.inl (hv.2.2.2.1.mp hk))
      | reduce =>
        rcases hr with rfl | hi
        · exact Or.inr (Or.inr ⟨rfl, hk⟩)
        · rw [hk] at hi
          cases hi

theorem unfilled_of_engineRun (hr : EngineRun world) (hrow : row ∈ world.log.signals)
    (hs : row.Describes sig) (hk : sig.kind = .reduce)
    (hu : ∀ event ∈ world.log.positions, event.signalId ≠ sig.signalId) :
    Unfilled sig world world where
  since := .refl world
  keyed := hr.controlRun.stored_keyed.2
  stored := hr.controlRun.stored_keyed.1
  row := ⟨row, hrow, hs.signalId.symm, hs.kind.symm.trans hk⟩
  checked := (hr.keeps claimsChecked_rules).2
  unattributed := hu
  undecided := fun ⟨_, hm, hn, _⟩ => hn hm

theorem fills_of_call (hr : EngineRun world) (hrow : row ∈ world.log.signals)
    (hs : row.Describes sig) (hk : sig.kind = .reduce) (cfg : RuntimeSettings)
    (asg : LeaderAssignment) (hc : Proc.Reaches Answers world (processSignal cfg sig asg) reached) :
    (∃ event ∈ world.log.positions, event.signalId = sig.signalId ∧
        reached.log.positions = world.log.positions) ∨
      (∀ event ∈ world.log.positions, event.signalId ≠ sig.signalId) ∧
        Filling sig world reached := by
  by_cases ha : ∃ event ∈ world.log.positions, event.signalId = sig.signalId
  · obtain ⟨event, hm, hid⟩ := ha
    have ho := (hr.keeps attributedOnce_rules).retry hm hid.symm cfg asg hc
    exact Or.inl ⟨event, hm, hid, ho.positions⟩
  · have hu : ∀ event ∈ world.log.positions, event.signalId ≠ sig.signalId :=
      fun event hm hid => ha ⟨event, hm, hid⟩
    have hun := unfilled_of_engineRun hr hrow hs hk hu
    have hf := processSignal_fills hun hk cfg asg
    exact Or.inr ⟨hu, hf.reaches (Or.inl hun) hc⟩

variable {event : VirtualPositionEvent}

theorem NewFill.mem (hf : NewFill sig start reached event) : event ∈ reached.log.positions := by
  obtain ⟨tracked, planned, -, -, -, hp, -⟩ := hf.planned
  rw [hp]
  simp

theorem newFill_of_mem (hrun : EngineRun world) (hrow : row ∈ world.log.signals)
    (hs : row.Describes sig) (cfg : RuntimeSettings) (asg : LeaderAssignment)
    (hc : Proc.Reaches Answers world (processSignal cfg sig asg) reached)
    (hm : event ∈ reached.log.positions) (hr : event.localQuantityDelta < 0) :
    event ∈ world.log.positions ∨ NewFill sig world reached event := by
  have hst : OnlyOwnReduces sig world world :=
    ⟨.refl world, hrun.controlRun.stored_keyed.2, fun _ hm => Or.inl hm⟩
  have hown := (onlyOwnReduces_rules.processSignal cfg (Or.inl rfl) hst asg).reaches hst hc
  rcases hown.fills event hm with hold | hp | ⟨hid, hk⟩
  · exact Or.inl hold
  · exact absurd hr hp.asymm
  rcases fills_of_call hrun hrow hs hk cfg asg hc with
    ⟨_, -, -, hsa⟩ | ⟨-, hu | ⟨filled, hf⟩⟩
  · exact Or.inl (hsa ▸ hm)
  · exact absurd hid (hu.unattributed event hm)
  · have ho := ((hrun.process cfg hrow hs asg hc).keeps attributedOnce_rules).once
    have he := List.inj_on_of_nodup_map ho hm hf.mem (hid.trans hf.signalId.symm)
    exact Or.inr (he ▸ hf)

omit [HexOrder] in
theorem EventLog.ClosesKept.grows {log post : EventLog} (hk : log.ClosesKept)
    (hp : post.positions = log.positions)
    (hs : ∀ row ∈ log.signals, row ∈ post.signals) : post.ClosesKept := by
  unfold EventLog.ClosesKept
  rw [hp]
  intro event hm hr
  obtain ⟨row, hrow, hv⟩ := hk event hm hr
  exact ⟨row, hs row hrow, hv⟩

theorem EventLog.ClosesKept.process (hk : world.log.ClosesKept) (hrun : EngineRun world)
    (hrow : row ∈ world.log.signals) (hs : row.Describes sig) (cfg : RuntimeSettings)
    (asg : LeaderAssignment) (hca : Proc.Reaches Answers world (processSignal cfg sig asg) reached)
    (hco : CloseCondition sig world reached) : reached.log.ClosesKept := by
  have hst : OnlyOwnReduces sig world world :=
    ⟨.refl world, hrun.controlRun.stored_keyed.2, fun _ hm => Or.inl hm⟩
  have hsi := ((onlyOwnReduces_rules.processSignal cfg (Or.inl rfl) hst asg).reaches hst hca).since
  intro event hm hr
  by_cases hold : event ∈ world.log.positions
  · obtain ⟨other, ho, hv⟩ := hk event hold hr
    exact ⟨other, hsi.signals other ho, hv⟩
  rcases newFill_of_mem hrun hrow hs cfg asg hca hm hr with
    hb | hf
  · exact absurd hb hold
  refine ⟨row, hsi.signals row hrow, ?_, ?_, ?_⟩
  · rw [hf.signalId, hs.signalId]
  · rw [hf.key, hs.key]
  · intro hc
    rw [← hs.delta] at hc
    exact hf.whole hc (hco.whole event ⟨hm, hf.signalId, hr, hc⟩ hold)

theorem CloseRun.closesKept (hr : CloseRun world) : world.log.ClosesKept := by
  induction hr with
  | start _ hunused =>
    intro event hm
    rw [hunused.positions] at hm
    cases hm
  | process hr cfg hrow hsignal asg hcall hcondition ih =>
    exact ih.process hr.engineRun hrow hsignal cfg asg hcall hcondition
  | control _ _ time ih =>
    obtain ⟨rows, hl, -⟩ := ensureControlReductionSignals_spec _ _ time
    refine ih.grows ?_ ?_
    · rw [hl]
    · rw [hl]
      exact fun row hrow => List.mem_append_left _ hrow
  | outside _ houtside ih => exact ih.grows houtside.positions houtside.signals

theorem EventLog.positionFor_of_latest {log : EventLog}
    (hm : event ∈ log.positions) (hk : event.key = sig.key)
    (hl : ∀ other ∈ log.keyPositions event.key, other ≠ event →
      other.occurredAt < event.occurredAt) :
    (log.loadVirtualLedger.positionFor sig).localQuantity = event.resultingLocalQuantity := by
  have ho : event ∈ log.keyPositions sig.key :=
    List.mem_filter.mpr ⟨hm, decide_eq_true hk⟩
  rw [hk] at hl
  have hn : log.latestPosition sig.key = some event :=
    newest_eq_some_of_lt _ _ ho hl
  rw [EventLog.positionFor_loadVirtualLedger, hn]
  rfl

/-- A completed close leaves the leader flat, in every run whose calls meet the condition. -/
theorem completed_close_leaves_flat (hrun : CloseRun world) (hrow : row ∈ world.log.signals)
    (hsignal : row.Describes sig) (hkind : row.signalKind = .reduce)
    (cfg : RuntimeSettings) (asg : LeaderAssignment)
    (hcall : Proc.Reaches Answers world (processSignal cfg sig asg) reached)
    (hcondition : CloseCondition sig world reached)
    (hfilled : DecidedFilled sig world.log reached.log) :
    ∃ event ∈ reached.log.positions, event.signalId = sig.signalId ∧
      (event ∈ world.log.positions ∨ NewFill sig world reached event) ∧
      (event.Closing sig.sourceDeltaQuantity →
        (reached.log.loadVirtualLedger.positionFor sig).localQuantity = 0) := by
  have hred : sig.kind = .reduce := hsignal.kind.trans hkind
  -- what the fill of a closing reduction has left is what the ledger shows
  have hfl : ∀ event ∈ reached.log.positions, event.signalId = sig.signalId →
      (event.Closing sig.sourceDeltaQuantity → event.key = sig.key ∧
        event.resultingLocalQuantity = 0) →
      (event.Closing sig.sourceDeltaQuantity →
        (reached.log.loadVirtualLedger.positionFor sig).localQuantity = 0) := by
    intro event hm hid hcl hc
    obtain ⟨hk, hz⟩ := hcl hc
    have hl := hcondition.latest event ⟨hm, hid, hc⟩ hfilled
    rw [EventLog.positionFor_of_latest hm hk hl, hz]
  have he := hrun.engineRun
  rcases fills_of_call he hrow hsignal hred cfg asg hcall with
    ⟨event, hm, hid, hs⟩ | ⟨hu, hun | ⟨event, hf⟩⟩
  · -- the fill was recorded by an earlier call
    have hre : event ∈ reached.log.positions := hs.symm ▸ hm
    refine ⟨event, hre, hid, Or.inl hm, hfl event hre hid ?_⟩
    rintro ⟨hr, hc⟩
    obtain ⟨other, hoth, hot, ho, hz⟩ := hrun.closesKept event hm hr
    have heq := List.inj_on_of_nodup_map he.controlRun.stored_keyed.1.nodup hoth hrow
      (hot.trans (hid.trans hsignal.signalId))
    subst heq
    rw [hsignal.delta] at hc
    exact ⟨ho.symm.trans hsignal.key.symm, hz hc⟩
  · exact absurd hfilled hun.undecided
  · refine ⟨event, hf.mem, hf.signalId, Or.inr hf, hfl event hf.mem hf.signalId ?_⟩
    rintro ⟨hr, hc⟩
    refine ⟨hf.key, ?_⟩
    have hn : event ∉ world.log.positions := fun hold => hu event hold hf.signalId
    exact hf.whole hc (hcondition.whole event ⟨hf.mem, hf.signalId, hr, hc⟩ hn)

end Runs

end Close

section Flattened

local instance flattenedHexOrder : HexOrder := distinctHexOrder

theorem closeCondition_of_increases {sig : NormalizedSignal} {world reached : World}
    (hi : ∀ event ∈ reached.log.positions, 0 ≤ event.localQuantityDelta) :
    CloseCondition sig world reached where
  whole event hclosed := absurd hclosed.2.2.1 (not_lt.mpr (hi event hclosed.1))
  latest event hclosed := absurd hclosed.2.2.1 (not_lt.mpr (hi event hclosed.1))

theorem closeRun_flattenWritten : CloseRun flattenWritten := by
  have hs : CloseRun entryStopped :=
    .process (.start signalsStored_entryStored ⟨rfl, rfl, rfl, rfl, rfl, rfl⟩) {}
      (List.mem_singleton.mpr rfl) (entryRow.describes_normalized _) activeLeader
      (Proc.reaches_runFor answers_exchangeAnswer 21)
      (closeCondition_of_increases (by with_unfolding_all decide))
  have hr : CloseRun entryRetried :=
    .process hs {} (show entryRow ∈ entryStopped.log.signals by with_unfolding_all decide)
      (entryRow.describes_normalized _) activeLeader (Proc.reaches_run answers_exchangeAnswer)
      (closeCondition_of_increases (by with_unfolding_all decide))
  exact .control (.outside hr (outside_appendRuntimeControl _ _ _ _ _)) flattening_flattenAsked _

def flattenFilled : World :=
  ((processSignal {} (flattenRow.normalized none) activeLeader).run (recoveryAnswer false)
    flattenWritten).2

theorem closeCondition_flattenFilled :
    CloseCondition (flattenRow.normalized none) flattenWritten flattenFilled where
  whole := by
    rintro - - - ⟨resp, orderId, filled, qty, hla, -, hq, hen, -, hle⟩
    have hr : lastOrderReply (flattenFilled.trace.drop flattenWritten.trace.length) =
        some (.ok (filledResponse flattenClientOrderId)) := by
      with_unfolding_all decide
    have ha : (flattenFilled.log.durableRequest (flattenRow.normalized none)).bind (·.1) =
        some 1 := by
      with_unfolding_all decide
    rw [hr] at hla
    cases hla
    rw [ha] at hq
    cases hq
    have he := hen.executed
    cases he
    exact lt_irrefl _ hle
  latest := by
    have hl : ∀ event ∈ flattenFilled.log.positions,
        event.signalId = (flattenRow.normalized none).signalId →
        ∀ other ∈ flattenFilled.log.keyPositions event.key, other ≠ event →
          other.occurredAt < event.occurredAt := by
      with_unfolding_all decide
    exact fun event hc _ => hl event hc.1 hc.2.1

theorem filled_flatten_leaves_flat :
    DecidedFilled (flattenRow.normalized none) flattenWritten.log flattenFilled.log ∧
      ∃ event, ClosedBy (flattenRow.normalized none) flattenFilled.log event ∧
        (flattenFilled.log.loadVirtualLedger.positionFor
          (flattenRow.normalized none)).localQuantity = 0 := by
  have hf : DecidedFilled (flattenRow.normalized none) flattenWritten.log
      flattenFilled.log := by
    unfold DecidedFilled
    with_unfolding_all decide
  have hcl : ∀ event ∈ flattenFilled.log.positions,
      event.signalId = (flattenRow.normalized none).signalId →
      event.localQuantityDelta < 0 ∧ event.sourceBefore ≤ 1 := by
    with_unfolding_all decide
  obtain ⟨event, hm, hid, -, hfl⟩ := completed_close_leaves_flat closeRun_flattenWritten
    (show flattenRow ∈ flattenWritten.log.signals by with_unfolding_all decide)
    (flattenRow.describes_normalized _) rfl {} activeLeader
    (Proc.reaches_run (answers_recoveryAnswer false)) closeCondition_flattenFilled hf
  have hc := hcl event hm hid
  exact ⟨hf, event, ⟨hm, hid, hc⟩, hfl hc⟩

/-- The order of a reduction that closes the key expires after two fifths of it: the reduction
is decided as `FILLED`, and the rest of the position is still there. -/
theorem expired_flatten_leaves_position :
    ¬ ∀ [HexOrder] (world reached : World) (row : SignalRow) (sig : NormalizedSignal)
      (cfg : RuntimeSettings) (asg : LeaderAssignment) (event : VirtualPositionEvent),
      EngineRun world → row ∈ world.log.signals → row.Describes sig → row.signalKind = .reduce →
      plannedSource world.log world.log sig ≤ sig.sourceDeltaQuantity →
      Proc.Reaches Answers world (processSignal cfg sig asg) reached →
      DecidedFilled sig world.log reached.log → ClosedBy sig reached.log event →
      (reached.log.loadVirtualLedger.positionFor sig).localQuantity = 0 := by
  intro hcla
  have hf : DecidedFilled (flattenRow.normalized none) flattenWritten.log
      flattenExpired.log := by
    unfold DecidedFilled
    with_unfolding_all decide
  have hc : ∃ event ∈ flattenExpired.log.positions,
      event.signalId = (flattenRow.normalized none).signalId ∧
        event.localQuantityDelta < 0 ∧ event.sourceBefore ≤ 1 := by
    with_unfolding_all decide
  have hr : (flattenExpired.log.loadVirtualLedger.positionFor
      (flattenRow.normalized none)).localQuantity = 3 / 5 := by
    with_unfolding_all decide
  obtain ⟨event, hm, hid, hcl⟩ := hc
  have hfl := @hcla distinctHexOrder flattenWritten flattenExpired flattenRow
    (flattenRow.normalized none) {} activeLeader event closeRun_flattenWritten.engineRun
    (by with_unfolding_all decide) (flattenRow.describes_normalized _) rfl
    (by with_unfolding_all decide)
    (Proc.reaches_run answers_exchangeAnswer) hf ⟨hm, hid, hcl⟩
  rw [hr] at hfl
  norm_num at hfl

end Flattened

end AiQuant.CopyTrading
