import AiQuant.CopyTrading.BlockedEntries
import AiQuant.CopyTrading.WatchdogRun

/-! The controls that the watchdog and the risk engine append among other writers.  Both
read their clock first and stamp the control with that reading, however late they append
it; and the control in force is the one with the latest stamp. -/
namespace AiQuant.CopyTrading
open AiQuant.Lib

/-- The control was stamped before the clock reading `now`, or is as strong as `control`. -/
def RuntimeControlEvent.GivesWay (event : RuntimeControlEvent) (control : RuntimeControlState)
    (now : Time) : Prop :=
  event.occurredAt < now ∨ control.priority ≤ event.state.priority

def EventLog.GivesWay (log : EventLog) (control : RuntimeControlState) (now : Time) : Prop :=
  ∀ event ∈ log.controls, event.GivesWay control now

/-- Other writers append controls, and anything to the other tables. -/
def AppendsGivingWay (control : RuntimeControlState) (now : Time) (before after : EventLog) :
    Prop :=
  ∃ added, after.controls = before.controls ++ added ∧
    ∀ event ∈ added, event.GivesWay control now

theorem EventLog.GivesWay.appends {pre post : EventLog} {control : RuntimeControlState}
    {now : Time} (hb : pre.GivesWay control now)
    (ha : AppendsGivingWay control now pre post) : post.GivesWay control now := by
  obtain ⟨added, hc, had⟩ := ha
  unfold EventLog.GivesWay
  rw [hc, List.forall_mem_append]
  exact ⟨hb, had⟩

def AppendsAt (now : Time) (before after : EventLog) : Prop :=
  ∃ state actorId reasonCodes, after = before.appendRuntimeControl state actorId reasonCodes now

theorem AppendsAt.occurredAt {now : Time} {pre post : EventLog} {ev : RuntimeControlEvent}
    (ha : AppendsAt now pre post) (hc : post.controls = pre.controls ++ [ev]) :
    ev.occurredAt = now := by
  obtain ⟨st, actorId, codes, rfl⟩ := ha
  dsimp only [EventLog.appendRuntimeControl] at hc
  split at hc
  · simp at hc
  · have he := List.append_cancel_left hc
    rw [List.cons.injEq] at he
    rw [← he.1]

section Effect

variable [HexOrder]

instance (event other : RuntimeControlEvent) : Decidable (event.newerThan other) :=
  inferInstanceAs (Decidable (Newer _ _ event other))

theorem latestRuntimeControl_concat {pre post : EventLog} {ev : RuntimeControlEvent}
    (hc : post.controls = pre.controls ++ [ev]) : post.latestRuntimeControl.state =
      match pre.newestControl with
      | none => ev.state
      | some control => if ev.newerThan control then ev.state else control.state := by
  unfold EventLog.latestRuntimeControl EventLog.newestControl
  rw [hc, newest, newestBy_concat]
  unfold newest
  cases hb : newestBy (fun ev : RuntimeControlEvent =>
      (toLex (ev.occurredAt, HexOrder.value ev.controlEventId) : ℤ ×ₗ ℕ)) pre.controls with
  | none => rfl
  | some control =>
    dsimp only
    by_cases hn : ev.newerThan control
    · rw [if_pos hn]
      rw [if_pos (show _ < _ from hn)]
    · rw [if_neg hn]
      rw [if_neg (show ¬ _ < _ from hn)]

theorem EventLog.GivesWay.priority_le {pre post : EventLog} {ev : RuntimeControlEvent}
    (hb : pre.GivesWay ev.state ev.occurredAt) (hc : post.controls = pre.controls ++ [ev]) :
    ev.state.priority ≤ post.latestRuntimeControl.state.priority := by
  rw [latestRuntimeControl_concat hc]
  cases hn : pre.newestControl with
  | none => exact le_rfl
  | some other =>
    dsimp only
    split
    · exact le_rfl
    · rename_i hnewer
      refine (hb other (newest_mem _ _ hn)).resolve_left fun hlt => hnewer ?_
      exact Prod.Lex.toLex_lt_toLex.mpr (Or.inl hlt)

/-- Every such control that these transactions append is in force right after its
transaction, or a stronger one is. -/
def TakesEffect {S : Type} (logOf : S → EventLog) (control : RuntimeControlState)
    (own : List (S × S)) : Prop :=
  ∀ step ∈ own, ∀ event, (logOf step.2).controls = (logOf step.1).controls ++ [event] →
    event.state = control →
      control.priority ≤ (logOf step.2).latestRuntimeControl.state.priority

abbrev AppendsOnce {S Q : Type} {R : Q → Type} {α : Type} (logOf : S → EventLog) (now : Time)
    (proc : Proc S Q R α) : Prop :=
  proc.Once (fun before after => (logOf after).controls = (logOf before).controls)
    fun before after => AppendsAt now (logOf before) (logOf after)

theorem takesEffect_of_appendsOnce {S Q : Type} {R : Q → Type} {α : Type}
    {logOf : S → EventLog} {proc : Proc S Q R α} {control : RuntimeControlState} {now : Time}
    {start final : S} {own : List (S × S)} (ho : AppendsOnce logOf now proc)
    (hs : (logOf start).GivesWay control now) (hr : Proc.Interleaves
      (fun pre post => AppendsGivingWay control now (logOf pre) (logOf post))
      start proc own final) : TakesEffect logOf control own := by
  rintro ⟨pre, post⟩ hm ev hc hst
  dsimp only at hc ⊢
  rcases hr.own_once ho _ hm with hq | ⟨ha, hreached⟩
  · rw [hq] at hc
    simp at hc
  -- nothing but controls of others separates the transaction from the start
  · have hb : (logOf pre).GivesWay control now := by
      clear hc ha hm
      dsimp only at hreached
      induction hreached with
      | refl => exact hs
      | tail _ hmove ih =>
        rcases hmove with hothers | hquiet
        · exact ih.appends hothers
        · unfold EventLog.GivesWay
          rw [hquiet]
          exact ih
    obtain rfl := hst
    obtain rfl := ha.occurredAt hc
    exact hb.priority_le hc

end Effect

section Watchdog

variable [HexOrder] [DecimalFormat]

theorem watchdogAt_appendsOnce (now : Time) : AppendsOnce id now (watchdogAt now) := by
  have ha (append : ControlAppend) : AppendsOnce id now (appendControl append now) :=
    Proc.once_write fun log => ⟨_, _, _, rfl⟩
  have hr {α : Type} (qry : EventLog → α) : (Proc.read qry : Watchdog α).Within
      (fun _ => True) fun pre post => (id post).controls = (id pre).controls :=
    Proc.within_read.mpr fun _ => rfl
  have hq (qry : WatchdogQuery) : (Proc.question qry : Watchdog qry.Reply).Within
      (fun _ => True) fun pre post => (id post).controls = (id pre).controls :=
    Proc.within_question.mpr trivial
  refine Proc.once_bind_quiet (hq _) fun facts => ?_
  refine Proc.once_bind_quiet (hq _) fun reply => ?_
  cases reply with
  | error failure => trivial
  | ok reply =>
    refine Proc.once_bind_quiet (hq _) fun host => ?_
    refine Proc.once_bind ?_ fun _ => Proc.within_pure
    refine Proc.once_bind_quiet (hr _) fun current => ?_
    split
    · split
      · exact ha _
      · trivial
    · split
      · exact ha _
      · refine Proc.once_bind_quiet (hr _) fun recoverable => ?_
        split
        · exact ha _
        · trivial

end Watchdog

/-! Apart from its risk control a call of `_process_signal` appends no control. -/

abbrev Uncontrolled {α : Type} (proc : Engine α) : Prop :=
  proc.Within (fun _ => True) fun before after => after.log.controls = before.log.controls

section Engine

variable {α : Type}

theorem Riskless.uncontrolled {proc : Engine α} (hr : Riskless proc) : Uncontrolled proc :=
  hr.mono (fun _ _ => trivial) fun _ _ => Bookkept.controls

theorem Quiet.uncontrolled {signalId : Digest} {proc : Engine α} (hq : Quiet signalId proc) :
    Uncontrolled proc :=
  hq.riskless.uncontrolled

theorem Looks.uncontrolled {signalId : Digest} {proc : Engine α} (hl : Looks signalId proc) :
    Uncontrolled proc :=
  hl.quiet.uncontrolled

theorem readLog_uncontrolled (qry : EventLog → α) : Uncontrolled (readLog qry) :=
  Proc.within_read.mpr fun _ => rfl

theorem question_uncontrolled (qry : Query) : Uncontrolled (Proc.question qry : Engine qry.Reply) :=
  Proc.within_question.mpr trivial

theorem recordDecision_uncontrolled (sig : NormalizedSignal) (st : DecisionState)
    (amount : Decimal) (codes : List String) (time : Time) :
    Uncontrolled (recordDecision sig st amount codes time) :=
  Riskless.uncontrolled (recordDecision_keeps sig st amount codes time)

section Execution

variable (cfg : ExecutorSettings) (ord : CopyMarketOrder) (orderId : String)

theorem placeAndReconcile_uncontrolled (codes : List String) :
    Uncontrolled (placeAndReconcile cfg ord orderId codes) := by
  apply Proc.within_bind (question_uncontrolled _)
  intro placed
  split
  · dsimp only
    split
    · exact (rejectAndRecord_records ord orderId _).looks.uncontrolled
    · exact (reconcileAfterUncertainSubmit_looks cfg ord orderId _).uncontrolled
  · exact (receiptWithImmediateFillPrice_looks cfg ord orderId _ _ _).uncontrolled

theorem resubmitPersistentEntry_uncontrolled :
    Uncontrolled (resubmitPersistentEntry cfg ord orderId) := by
  apply Proc.within_bind
  · apply Proc.within_bind (question_uncontrolled _)
    intro time
    apply Proc.within_write.mpr
    intro world
    unfold EventLog.recordSubmission
    dsimp only
    split <;> rfl
  intro _
  apply Proc.within_bind (question_uncontrolled _)
  intro changed
  split
  · exact Proc.within_halt
  · exact placeAndReconcile_uncontrolled cfg ord orderId _

theorem reconcileExisting_uncontrolled (claimedAt : Time) :
    Uncontrolled (reconcileExisting cfg ord orderId claimedAt) := by
  by_cases he : ord.isPersistentEntry = false
  · exact (reconcileExisting_quiet cfg ord orderId claimedAt he).uncontrolled
  · apply Proc.within_bind (question_uncontrolled _)
    intro queried
    split
    · apply Proc.within_bind (submissionDefinitivelyAbsent_looks ord orderId _ _).uncontrolled
      intro absent
      split
      · rw [if_pos (by simpa using he)]
        exact resubmitPersistentEntry_uncontrolled cfg ord orderId
      · exact Proc.within_pure
    · apply Proc.within_bind (question_uncontrolled _)
      intro now
      split
      · exact (cancelExisting_quiet cfg ord orderId _ _).uncontrolled
      · exact (receiptWithImmediateFillPrice_looks cfg ord orderId _ _ _).uncontrolled

variable [HexOrder]

theorem reconcileClaim_uncontrolled (claim : SubmissionClaim) :
    Uncontrolled (reconcileClaim cfg ord claim) := by
  unfold reconcileClaim
  split
  · exact (unknownAndRecord_records ord _ _).looks.uncontrolled
  · exact reconcileExisting_uncontrolled cfg _ _ _

theorem submitOrder_uncontrolled : Uncontrolled (submitOrder cfg ord orderId) := by
  apply Proc.within_bind
  · apply Proc.within_bind (question_uncontrolled _)
    intro now
    apply Proc.within_transact.mpr
    intro world
    rcases claim_cases world.log (claimRow ord orderId now)
      (submissionEvent ord.signal.signalId .submitting now 0 none none []) with
      hl | ⟨-, claimed, hw, hr⟩
    · rw [hl]
    · rw [hw, hr]
  intro claimed
  split
  · exact placeAndReconcile_uncontrolled cfg ord orderId _
  apply Proc.within_bind (readLog_uncontrolled _)
  intro found
  split
  · exact Proc.within_pure
  · exact reconcileClaim_uncontrolled cfg ord _

theorem execute_uncontrolled (riskDecision : AccountRiskDecision) :
    Uncontrolled (execute cfg ord riskDecision) := by
  apply Proc.within_bind (readLog_uncontrolled _)
  intro found
  split
  · exact reconcileClaim_uncontrolled cfg ord _
  split
  · exact Proc.within_pure
  apply Proc.within_bind (question_uncontrolled _)
  intro mode
  split
  · exact Proc.within_halt
  · exact Proc.within_pure
  split
  · apply Proc.within_bind (question_uncontrolled _)
    intro changed
    split
    · exact Proc.within_halt
    · exact submitOrder_uncontrolled cfg ord _
  apply Proc.within_bind (question_uncontrolled _)
  intro positions
  split
  · exact Proc.within_halt
  split
  · exact Proc.within_halt
  · exact submitOrder_uncontrolled cfg ord _
  · exact Proc.within_pure

end Execution

variable [HexOrder]

theorem executorClaim_uncontrolled (cfg : RuntimeSettings) (sig : NormalizedSignal) :
    Uncontrolled (executorClaim cfg sig) := by
  unfold executorClaim
  split
  · exact Proc.within_bind (readLog_uncontrolled _) fun _ => Proc.within_pure
  · exact Proc.within_pure

theorem attributeReduction_uncontrolled (sig : NormalizedSignal)
    (ledger : VirtualPositionLedger) (plan : ReductionPlan) (rcpt : CopyExecutionReceipt)
    (time : Time) : Uncontrolled (attributeReduction sig ledger plan rcpt time) := by
  unfold attributeReduction
  split
  · exact recordDecision_uncontrolled _ _ _ _ _
  split
  · exact Proc.within_halt
  · exact Proc.within_bind (Riskless.uncontrolled (recordVirtualPosition_keeps _))
      fun _ => recordDecision_uncontrolled _ _ _ _ _

variable (cfg : RuntimeSettings) (sig : NormalizedSignal) (asg : LeaderAssignment)

omit [HexOrder] in
theorem recordOutcome_uncontrolled (rcpt : CopyExecutionReceipt)
    {onFill : CopyExecutionReceipt → Time → Engine Unit}
    (hf : ∀ rcpt time, Uncontrolled (onFill rcpt time)) (time : Time) :
    Uncontrolled (recordOutcome sig rcpt onFill time) := by
  unfold recordOutcome
  repeat' split
  · exact recordDecision_uncontrolled _ _ _ _ _
  · exact Proc.within_pure
  · exact recordDecision_uncontrolled _ _ _ _ _
  · exact hf _ _
  · exact recordDecision_uncontrolled _ _ _ _ _
  · exact recordDecision_uncontrolled _ _ _ _ _
  · exact Proc.within_pure
  · exact recordDecision_uncontrolled _ _ _ _ _

theorem submitSignal_uncontrolled (ord : CopyMarketOrder) (amount : Decimal)
    (risk : AccountRiskDecision) {onFill : CopyExecutionReceipt → Time → Engine Unit}
    (hf : ∀ rcpt time, Uncontrolled (onFill rcpt time)) (now : Time) :
    Uncontrolled (submitSignal cfg sig ord amount risk onFill now) := by
  unfold submitSignal
  split
  · exact recordDecision_uncontrolled _ _ _ _ _
  split
  · exact recordDecision_uncontrolled _ _ _ _ _
  apply Proc.within_bind (execute_uncontrolled cfg.executor ord risk)
  intro rcpt
  apply Proc.within_bind
  · unfold announceSubmission
    split
    · exact Proc.within_pure
    · exact recordDecision_uncontrolled _ _ _ _ _
  intro _
  apply Proc.within_bind (question_uncontrolled _)
  intro clockAt
  exact recordOutcome_uncontrolled sig rcpt hf _

theorem cancelEntry_uncontrolled (entry : NormalizedSignal) (now : Time) :
    Uncontrolled (cancelEntry cfg entry now) := by
  apply Proc.within_bind (cancelPendingIncrease_quiet _ _ _).uncontrolled
  intro rcpt
  split
  · exact Riskless.uncontrolled (recordIncreaseFill_keeps entry rcpt now)
  split
  · exact Proc.within_bind (recordDecision_uncontrolled _ _ _ _ _) fun _ => Proc.within_pure
  · exact Proc.within_bind (recordDecision_uncontrolled _ _ _ _ _) fun _ => Proc.within_pure

theorem cancelEntries_uncontrolled (now : Time) (entries : List NormalizedSignal) :
    Uncontrolled (cancelEntries cfg now entries) := by
  induction entries with
  | nil => exact Proc.within_pure
  | cons entry entries ih =>
    apply Proc.within_bind (cancelEntry_uncontrolled cfg entry now)
    intro cancelled
    split
    · exact ih
    · exact Proc.within_pure

theorem cancelPages_uncontrolled (key : VirtualPositionKey) (now : Time) (pages : ℕ) :
    Uncontrolled (cancelPages cfg key now pages) := by
  induction pages with
  | zero => exact Proc.within_pure
  | succ pages ih =>
    apply Proc.within_bind (readLog_uncontrolled _)
    intro pending
    apply Proc.within_bind (cancelEntries_uncontrolled cfg now pending)
    intro cancelled
    split
    · split
      · exact Proc.within_pure
      · exact ih
    · exact Proc.within_pure

theorem processEntry_uncontrolled (claimed : Option CopyMarketOrder) (rules : SymbolTradingRules)
    (limitPrice : Decimal) (acct : CopyAccountSnapshot) (risk : AccountRiskDecision)
    (now : Time) : Uncontrolled (processEntry cfg sig asg claimed rules limitPrice
      acct risk now) := by
  have hf (rcpt : CopyExecutionReceipt) (time : Time) :=
    Riskless.uncontrolled (attributeEntry_keeps sig rcpt time)
  unfold processEntry
  split
  · exact submitSignal_uncontrolled cfg sig _ _ _ hf _
  apply Proc.within_bind (readLog_uncontrolled _)
  intro usage
  dsimp only
  split
  · exact Proc.within_halt
  split
  · exact recordDecision_uncontrolled _ _ _ _ _
  split
  · exact Proc.within_halt
  · exact submitSignal_uncontrolled cfg sig _ _ _ hf _

theorem processReduction_uncontrolled (claimed : Option CopyMarketOrder)
    (rules : SymbolTradingRules) (risk : AccountRiskDecision) (now : Time) :
    Uncontrolled (processReduction cfg sig claimed rules risk now) := by
  apply Proc.within_bind (readLog_uncontrolled _)
  intro sourceBefore
  apply Proc.within_bind
  · unfold resolveSuperseded
    split
    · exact cancelPages_uncontrolled cfg _ now _
    · exact Proc.within_pure
  intro resolved
  split
  · exact recordDecision_uncontrolled _ _ _ _ _
  apply Proc.within_bind (readLog_uncontrolled _)
  intro ledger
  dsimp only
  split
  · exact recordDecision_uncontrolled _ _ _ _ _
  split
  · exact Proc.within_halt
  · exact submitSignal_uncontrolled cfg sig _ _ _ (attributeReduction_uncontrolled sig _ _) _

theorem applyRiskControl_appendsOnce (risk : AccountRiskDecision) (now : Time) :
    AppendsOnce World.log now (applyRiskControl cfg risk now) := by
  have ha (st : RuntimeControlState) : AppendsOnce World.log now
      (writeLog (·.appendRuntimeControl st "account-risk-engine" risk.reasonCodes now)) :=
    Proc.once_write fun world => ⟨_, _, _, rfl⟩
  unfold applyRiskControl
  split
  · trivial
  apply Proc.once_bind_quiet (readLog_uncontrolled _)
  intro control
  split
  · exact ha _
  split
  · exact ha _
  · trivial

theorem processSignalAt_appendsOnce (now : Time) :
    AppendsOnce World.log now (processSignalAt cfg sig asg now) := by
  apply Proc.once_bind_quiet (readLog_uncontrolled _)
  intro filled
  split
  · trivial
  · exact (recordDecision_uncontrolled _ _ _ _ _).once
  apply Proc.once_bind_quiet (executorClaim_uncontrolled cfg sig)
  intro claimed
  apply Proc.once_bind_quiet (readLog_uncontrolled _)
  intro control
  apply Proc.once_bind_quiet (readLog_uncontrolled _)
  intro stopped
  split
  · exact (processBlocked_riskless cfg sig _ _ _ _).uncontrolled.once
  apply Proc.once_bind_quiet (readMarket_riskless sig now).uncontrolled
  intro market
  split
  · trivial
  · exact (recordDecision_uncontrolled _ _ _ _ _).once
  apply Proc.once_bind (applyRiskControl_appendsOnce cfg _ now)
  intro _
  split
  · exact processEntry_uncontrolled cfg sig asg _ _ _ _ _ _
  · exact processReduction_uncontrolled cfg sig _ _ _ _

end Engine

/-- Among any writers of control events, a control that the watchdog or the risk engine
appends takes effect, if every weaker control that it finds was stamped before the run
read its clock. -/
theorem safety_control_takes_effect [HexOrder] [DecimalFormat] (control : RuntimeControlState)
    (now : Time) :
    (∀ (start final : EventLog) (own : List (EventLog × EventLog)), start.GivesWay control now →
      Proc.Interleaves (AppendsGivingWay control now) start (watchdogAt now) own final →
      TakesEffect id control own) ∧
    ∀ (cfg : RuntimeSettings) (sig : NormalizedSignal) (asg : LeaderAssignment)
      (start final : World) (own : List (World × World)), start.log.GivesWay control now →
      Proc.Interleaves (fun pre post => AppendsGivingWay control now pre.log post.log)
        start (processSignalAt cfg sig asg now) own final → TakesEffect World.log control own := by
  constructor
  · intro start final own hs hr
    exact takesEffect_of_appendsOnce (watchdogAt_appendsOnce now) hs hr
  · intro cfg sig asg start final own hs hr
    exact takesEffect_of_appendsOnce (processSignalAt_appendsOnce cfg sig asg now) hs hr

theorem watchdogAt_appends [HexOrder] [DecimalFormat] {now : Time} {facts : DatabaseHealthFacts}
    {acct : CopyAccountSnapshot} {exchange : ExchangePositions} {host : HostHealthFacts}
    {requested : RuntimeControlState} {append : ControlAppend} {first last : EventLog}
    {others : EventLog → EventLog → Prop}
    (hr : (evaluateHealth facts acct exchange now (some host)).requestedControl = some requested)
    (ha : requestedAppend first.latestRuntimeControl
      (evaluateHealth facts acct exchange now (some host)) requested = some append)
    (hl : others first last) : Proc.Interleaves others first (watchdogAt now)
      [(first, first), (last, last.appendRuntimeControl append.state append.actorId
        append.reasonCodes now)]
      (last.appendRuntimeControl append.state append.actorId append.reasonCodes now) := by
  refine .ask facts (.ask (.ok (acct, exchange)) (.ask host (.atomic (.others hl ?_))))
  dsimp only
  rw [hr]
  dsimp only [Proc.bind]
  rw [ha]
  exact .atomic .here

section LateResume

local instance lateResumeHexOrder : HexOrder := ⟨fun _ => 0⟩

local instance lateResumeDecimalFormat : DecimalFormat := ⟨fun value => toString value.num⟩

def resumedLog (occurredAt : Time) : EventLog :=
  { controls := [operatorRuns 1, operatorRuns occurredAt] }

def uncertainPause : ControlAppend :=
  ⟨.pausedNewEntries, "deterministic-watchdog", ["COPY_UNCERTAIN_SUBMISSIONS"]⟩

theorem uncertainFacts_report : evaluateHealth uncertainFacts (soundAccount 10) noPositions 10
    (some soundHost) = ⟨.failed, [⟨"COPY_UNCERTAIN_SUBMISSIONS", .critical, "count=1"⟩],
      some .pausedNewEntries⟩ := by
  with_unfolding_all decide

/-- The pause of a run that began at `10`, after an operator's event at `occurredAt`. -/
def pausedLate (occurredAt : Time) : EventLog :=
  (resumedLog occurredAt).appendRuntimeControl .pausedNewEntries "deterministic-watchdog"
    ["COPY_UNCERTAIN_SUBMISSIONS"] 10

theorem interleaves_pausedLate {others : EventLog → EventLog → Prop} (time : Time)
    (ho : others runningLog (resumedLog time)) : Proc.Interleaves others runningLog (watchdogAt 10)
      [(runningLog, runningLog), (resumedLog time, pausedLate time)] (pausedLate time) := by
  have hr : (evaluateHealth uncertainFacts (soundAccount 10) noPositions 10
      (some soundHost)).requestedControl = some .pausedNewEntries := by
    rw [uncertainFacts_report]
  have ha : requestedAppend runningLog.latestRuntimeControl (evaluateHealth uncertainFacts
      (soundAccount 10) noPositions 10 (some soundHost)) .pausedNewEntries =
        some uncertainPause := by
    rw [uncertainFacts_report]
    decide
  exact watchdogAt_appends hr ha ho

theorem appends_resumedLog {control : RuntimeControlState} {time now : Time}
    (ho : time < now) : AppendsGivingWay control now runningLog (resumedLog time) :=
  ⟨[operatorRuns time], rfl, List.forall_mem_singleton.mpr (Or.inl ho)⟩

/-- The account of an entry's call that finds the exchange outside hedge mode. -/
def unhedgedAccount (observedAt : Time) : CopyAccountSnapshot :=
  { soundAccount observedAt with hedgeMode := false }

def entryResumed : World :=
  ⟨{ entryStored with controls := entryStored.controls ++ [operatorRuns (newYear + 5)] }, []⟩

def entryPaused : World :=
  { entryResumed with
    log := entryResumed.log.appendRuntimeControl .pausedNewEntries "account-risk-engine"
      ["COPY_ACCOUNT_HEDGE_MODE_REQUIRED"] (newYear + 10) }

theorem interleaves_entryPaused {others : World → World → Prop}
    (ho : others ⟨entryStored, []⟩ entryResumed) : Proc.Interleaves others ⟨entryStored, []⟩
      (processSignalAt {} entrySignalOfRow activeLeader (newYear + 10))
      (List.replicate 5 (⟨entryStored, []⟩, ⟨entryStored, []⟩) ++ [(entryResumed, entryPaused)])
      entryPaused := by
  have hf : entryStored.attributedFillQuantity entrySignalOfRow.signalId = .ok none := by decide
  have hl : entryStored.lookup entrySignalOfRow.signalId = none := by decide
  have hb : readBlock {} entrySignalOfRow activeLeader entryStored (newYear + 10) = none := by
    decide
  have hc : entryStored.latestRuntimeControl.state = .running := by decide
  have hr : evaluateAccountRisk {} (unhedgedAccount (newYear + 10)) entrySignalOfRow.kind
      (newYear + 10) = ⟨false, true, false, ["COPY_ACCOUNT_HEDGE_MODE_REQUIRED"]⟩ := by
    with_unfolding_all rfl
  have hp : entryLimitPrice entrySignalOfRow btcRules = .ok (some 100) := by
    with_unfolding_all decide
  refine .read_bind ?_
  dsimp only
  rw [hf]
  refine .read_bind ?_
  refine .read_bind (.read_bind ?_)
  unfold readBlock at hb
  dsimp only [hl, Option.bind_none]
  rw [hb]
  refine .ask (.ok btcRules) ?_
  dsimp only [Proc.bind]
  rw [hp]
  refine .ask (.ok (unhedgedAccount (newYear + 10))) ?_
  dsimp only [Proc.bind, pure]
  rw [hr]
  refine .atomic (.others ho ?_)
  dsimp only [Proc.bind, pure]
  rw [hc]
  exact .atomic .here

/-- A pause of the watchdog, and one of the risk engine, behind a resume that was stamped
before the run read its clock. -/
theorem earlier_resume_overridden : TakesEffect id .pausedNewEntries
      [(runningLog, runningLog), (resumedLog 5, pausedLate 5)] ∧
    TakesEffect World.log .pausedNewEntries
      (List.replicate 5 (⟨entryStored, []⟩, ⟨entryStored, []⟩) ++
        [(entryResumed, entryPaused)]) := by
  constructor
  · apply (safety_control_takes_effect .pausedNewEntries 10).1 runningLog (pausedLate 5)
    · exact List.forall_mem_singleton.mpr (Or.inl (by decide))
    · exact interleaves_pausedLate 5 (appends_resumedLog (by decide))
  · apply (safety_control_takes_effect .pausedNewEntries (newYear + 10)).2 {} entrySignalOfRow
      activeLeader ⟨entryStored, []⟩ entryPaused
    · exact List.forall_mem_singleton.mpr (Or.inl (by decide))
    · exact interleaves_entryPaused ⟨[operatorRuns (newYear + 5)], rfl,
        List.forall_mem_singleton.mpr (Or.inl (by decide))⟩

/-- A resume stamped after the clock reading of the run keeps its pause out of force. -/
theorem later_resume_keeps_running :
    ¬ ∀ [HexOrder] [DecimalFormat] (control : RuntimeControlState) (now : Time)
      (start final : EventLog) (own : List (EventLog × EventLog)),
      Proc.Interleaves AppendsControls start (watchdogAt now) own final →
        TakesEffect id control own := by
  intro hc
  have he := hc .pausedNewEntries 10 _ _ _
    (interleaves_pausedLate 20 ⟨[operatorRuns 20], rfl⟩) (resumedLog 20, pausedLate 20)
    (by simp) (uncertainPause.event 10) (by decide) rfl
  have hr : (pausedLate 20).latestRuntimeControl.state = .running := by decide
  dsimp only [id] at he
  rw [hr] at he
  exact absurd he (by decide)

end LateResume
end AiQuant.CopyTrading
