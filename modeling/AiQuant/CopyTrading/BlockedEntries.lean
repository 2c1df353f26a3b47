import AiQuant.CopyTrading.SignalOutcome

/-! Entries that are blocked when `_process_signal` begins: by a stop, by the control or by
the leader's lifecycle.  Whatever the exchange answers, such a call places no order and
makes no claim.  An order that is already claimed is cancelled once, and what it filled is
attributed before the signal is finished. -/
namespace AiQuant.CopyTrading
open AiQuant.Lib

/-- What a transaction of a decision or a fill leaves alone. -/
structure Bookkept (before after : World) : Prop where
  trace : after.trace = before.trace
  claims : after.log.claims = before.log.claims
  controls : after.log.controls = before.log.controls

abbrev Riskless {α : Type} (proc : Engine α) : Prop :=
  proc.Within NotPlacing Bookkept

/-- Since `before` no order was placed and none was claimed. -/
structure NoRiskSince (before after : World) : Prop where
  placements : placements after.trace = placements before.trace
  claims : after.log.claims = before.log.claims

variable {α : Type}

theorem Riskless.safe {proc : Engine α} (hr : Riskless proc) (world : World) :
    proc.Safe Answers (NoRiskSince world) (fun _ => NoRiskSince world) world := by
  apply Proc.Within.safe hr
  · intro pre post hb hk
    exact ⟨by rw [hk.trace, hb.placements], hk.claims.trans hb.claims⟩
  · intro pre qry reply post hb hq ha
    have has : CopyTrading.placements [⟨pre.log, qry, reply⟩] = [] :=
      placements_eq_nil_of_notPlacing (by simpa using hq)
    refine ⟨?_, ha.2.claims.trans hb.claims⟩
    rw [ha.1, placements_append, has, List.append_nil, hb.placements]
  · exact ⟨rfl, rfl⟩

theorem Quiet.riskless {signalId : Digest} {proc : Engine α}
    (hq : Quiet signalId proc) : Riskless proc := by
  apply hq.mono
  · exact fun _ hqu => hqu
  · rintro pre post ⟨ht, hl | ⟨ev, -, -, hl⟩⟩
    · exact ⟨ht, by rw [hl], by rw [hl]⟩
    · refine ⟨ht, by rw [hl, recordSubmission_claims], ?_⟩
      rw [hl, EventLog.recordSubmission]
      split <;> rfl

/-! The transactions of a decision and of a fill ask nothing and claim nothing. -/

variable {asks : Query → Prop}

theorem readLog_keeps (qry : EventLog → α) : (readLog qry).Within asks Bookkept :=
  Proc.within_read.mpr fun _ => ⟨rfl, rfl, rfl⟩

theorem recordDecision_keeps (signal : NormalizedSignal) (st : DecisionState)
    (amount : Decimal) (codes : List String) (time : Time) :
    (recordDecision signal st amount codes time).Within asks Bookkept := by
  apply Proc.within_write.mpr
  intro world
  dsimp only [EventLog.recordSignalDecision]
  split <;> exact ⟨rfl, rfl, rfl⟩

theorem readMarket_riskless (signal : NormalizedSignal) (now : Time) :
    Riskless (readMarket signal now) := by
  apply Proc.within_bind (Proc.within_question.mpr (by simp [NotPlacing]))
  intro rules
  split
  · exact Proc.within_pure
  split
  · exact Proc.within_pure
  apply Proc.within_bind (Proc.within_question.mpr (by simp [NotPlacing]))
  intro acct
  split <;> exact Proc.within_pure

section Engine

variable [HexOrder]

theorem recordVirtualPosition_keeps (fill : FillRecord) :
    (recordVirtualPosition fill).Within asks Bookkept := by
  apply Proc.within_bind
  · apply Proc.within_transact.mpr
    intro world
    cases hr : world.log.recordVirtualPosition fill with
    | error code => exact ⟨rfl, rfl, rfl⟩
    | ok log =>
      obtain ⟨-, hu | ⟨prev, res, slot, realized, ha⟩⟩ :=
        EventLog.recordVirtualPosition_cases hr
      · rw [hu.1]
        exact ⟨rfl, rfl, rfl⟩
      · rw [ha.after_eq]
        exact ⟨rfl, rfl, rfl⟩
  · intro recorded
    split
    · exact Proc.within_pure
    · exact Proc.within_halt

theorem recordIncreaseFill_keeps (signal : NormalizedSignal) (rcpt : CopyExecutionReceipt)
    (time : Time) : (recordIncreaseFill signal rcpt time).Within asks Bookkept := by
  unfold recordIncreaseFill
  split
  · exact Proc.within_pure
  apply Proc.within_bind (readLog_keeps _)
  intro ledger
  split
  · exact Proc.within_halt
  apply Proc.within_bind (recordVirtualPosition_keeps _)
  intro _
  exact Proc.within_bind (recordDecision_keeps _ _ _ _ _) fun _ => Proc.within_pure

theorem attributeEntry_keeps (signal : NormalizedSignal) (rcpt : CopyExecutionReceipt)
    (time : Time) : (attributeEntry signal rcpt time).Within asks Bookkept := by
  apply Proc.within_bind (recordIncreaseFill_keeps signal rcpt time)
  intro attributed
  split
  · exact Proc.within_pure
  · exact recordDecision_keeps _ _ _ _ _

theorem recordBlockedClaimResult_keeps (signal : NormalizedSignal)
    (rcpt : CopyExecutionReceipt) (time : Time) :
    (recordBlockedClaimResult signal rcpt time).Within asks Bookkept := by
  unfold recordBlockedClaimResult
  split
  · split
    · exact recordDecision_keeps _ _ _ _ _
    · exact attributeEntry_keeps signal rcpt time
  · split <;> exact recordDecision_keeps _ _ _ _ _

variable (settings : RuntimeSettings) (signal : NormalizedSignal) (assignment : LeaderAssignment)

theorem processBlocked_riskless (claimed : Option CopyMarketOrder) (control : RuntimeControl)
    (block : EntryBlock) (now : Time) :
    Riskless (processBlocked settings signal claimed control block now) := by
  unfold processBlocked
  split
  · split <;> exact recordDecision_keeps _ _ _ _ _
  · apply Proc.within_bind (cancelPendingIncrease_quiet _ _ _).riskless
    intro rcpt
    exact recordBlockedClaimResult_keeps signal rcpt now

/-! A runtime that does not execute sizes its signals and decides them only. -/

section Disabled

variable {settings}

section

variable (hd : settings.mode.executionEnabled = false)
include hd

theorem submitSignal_riskless (ord : CopyMarketOrder) (amount : Decimal)
    (risk : AccountRiskDecision) (onFill : CopyExecutionReceipt → Time → Engine Unit) (now : Time) :
    Riskless (submitSignal settings signal ord amount risk onFill now) := by
  unfold submitSignal
  rw [if_pos hd]
  exact recordDecision_keeps _ _ _ _ _

theorem processEntry_riskless (claimed : Option CopyMarketOrder) (rules : SymbolTradingRules)
    (limitPrice : Decimal) (acct : CopyAccountSnapshot) (risk : AccountRiskDecision) (now : Time) :
    Riskless (processEntry settings signal assignment claimed rules limitPrice acct risk now) := by
  unfold processEntry
  split
  · exact submitSignal_riskless signal hd _ _ _ _ _
  apply Proc.within_bind (readLog_keeps _)
  intro usage
  dsimp only
  split
  · exact Proc.within_halt
  split
  · exact recordDecision_keeps _ _ _ _ _
  split
  · exact Proc.within_halt
  · exact submitSignal_riskless signal hd _ _ _ _ _

theorem processReduction_riskless
    (claimed : Option CopyMarketOrder) (rules : SymbolTradingRules) (risk : AccountRiskDecision)
    (now : Time) : Riskless (processReduction settings signal claimed rules risk now) := by
  apply Proc.within_bind (readLog_keeps _)
  intro sourceBefore
  have hr : Riskless (resolveSuperseded settings signal sourceBefore now) := by
    unfold resolveSuperseded
    rw [if_neg (by simp [hd])]
    exact Proc.within_pure
  apply Proc.within_bind hr
  intro resolved
  split
  · exact recordDecision_keeps _ _ _ _ _
  apply Proc.within_bind (readLog_keeps _)
  intro ledger
  dsimp only
  split
  · exact recordDecision_keeps _ _ _ _ _
  split
  · exact Proc.within_halt
  · exact submitSignal_riskless signal hd _ _ _ _ _

theorem processOpen_riskless (claimed : Option CopyMarketOrder) (now : Time) :
    Riskless (processOpen settings signal assignment claimed now) := by
  apply Proc.within_bind (readMarket_riskless signal now)
  intro market
  split
  · exact Proc.within_halt
  · exact recordDecision_keeps _ _ _ _ _
  rename_i rules limitPrice acct
  have hc (risk : AccountRiskDecision) : Riskless (applyRiskControl settings risk now) := by
    unfold applyRiskControl
    rw [if_pos hd]
    exact Proc.within_pure
  apply Proc.within_bind (hc _)
  intro _
  split
  · exact processEntry_riskless signal assignment hd _ _ _ _ _ _
  · exact processReduction_riskless signal hd _ _ _ _

end

end Disabled

/-- All calls made since `before` are of one kind. -/
def OnlyAsked (asks : Query → Prop) (before after : World) : Prop :=
  ∃ calls, after.trace = before.trace ++ calls ∧ ∀ asked ∈ calls, asks asked.query

omit [HexOrder] in
theorem OnlyAsked.trans {asks : Query → Prop} {pre mid post : World}
    (hl : OnlyAsked asks pre mid) (hr : OnlyAsked asks mid post) :
    OnlyAsked asks pre post := by
  obtain ⟨first, hfi, hf⟩ := hl
  obtain ⟨second, hse, hs⟩ := hr
  refine ⟨first ++ second, by rw [hse, hfi, List.append_assoc], ?_⟩
  intro asked ha
  rcases List.mem_append.mp ha with hm | hm
  · exact hf asked hm
  · exact hs asked hm

omit [HexOrder] in
theorem onlyAsked_of_within {α : Type} {asks : Query → Prop} {writes : World → World → Prop}
    {proc : Engine α} (hw : proc.Within asks writes)
    (ht : ∀ pre post, writes pre post → post.trace = pre.trace) (world : World) :
    proc.Safe Answers (fun _ => True) (fun _ => OnlyAsked asks world) world := by
  have hs : proc.Safe Answers (OnlyAsked asks world) (fun _ => OnlyAsked asks world) world := by
    apply hw.safe
    · rintro pre post ⟨calls, hc, has⟩ hwr
      exact ⟨calls, (ht pre post hwr).trans hc, has⟩
    · intro pre qry reply post hb hq ha
      exact hb.trans ⟨[⟨pre.log, qry, reply⟩], ha.1, by simpa using hq⟩
    · exact ⟨[], (List.append_nil _).symm, by simp⟩
  exact hs.weaken fun _ _ => trivial

omit [HexOrder] in
theorem journalWrite_trace {signalId : Digest} (pre post : World)
    (hw : JournalWrite signalId pre post) : post.trace = pre.trace :=
  hw.1

def FillUnpriced (order : CopyMarketOrder) (clientOrderId : String) (response : OrderResponse) :
    Prop :=
  ∃ status filled price, readResponse order clientOrderId response = some (status, filled, price) ∧
    0 < filled ∧ price ≤ 0

section Receipts

variable {ord : CopyMarketOrder} {orderId : String} {response : OrderResponse}

omit [HexOrder] in
theorem receiptFromResponse_priceMissing (reconciled : Bool) (codes : List String) (world : World) :
    (receiptFromResponse ord orderId response reconciled codes).Safe Answers
      (fun _ => True) (fun rcpt reached => OnlyAsked (· = .clock) world reached ∧
        (rcpt.priceMissing = true → FillUnpriced ord orderId response)) world := by
  have ha := onlyAsked_of_within (receiptFromResponse_records ord orderId response reconciled codes)
    journalWrite_trace world
  have hp : (receiptFromResponse ord orderId response reconciled codes).Safe
      Answers (fun _ => True) (fun rcpt _ =>
        rcpt.priceMissing = true → FillUnpriced ord orderId response) world := by
    unfold receiptFromResponse
    split
    · rw [Proc.safe_bind]
      apply (onlyAsked_of_within (recordNow_records _ _ _ _ (by decide)) journalWrite_trace
        world).mono
      intro _ recorded _ hm
      simp [CopyExecutionReceipt.priceMissing, CopyExecutionReceipt.isTerminal, emptyReceipt]
        at hm
    · rename_i status filled price hr
      rw [Proc.safe_bind]
      apply (onlyAsked_of_within (terminationReasons_records ord _ _) journalWrite_trace world).mono
      intro additional timed _
      rw [Proc.safe_bind]
      apply (onlyAsked_of_within (recordNow_records _ _ _ _
        (CopyExecutionState.submission_ne_submitting _)) journalWrite_trace timed).mono
      intro _ recorded _ hm
      simp only [CopyExecutionReceipt.priceMissing, Bool.and_eq_true, decide_eq_true_eq]
        at hm
      exact ⟨status, filled, price, hr, hm.1.2, hm.2⟩
  exact (ha.and hp).weaken fun _ _ => trivial

omit [HexOrder] in
theorem receiptWithImmediateFillPrice_asks (settings : ExecutorSettings)
    (hp : ¬FillUnpriced ord orderId response) (reconciled : Bool)
    (codes : List String) (world : World) :
    (receiptWithImmediateFillPrice settings ord orderId response reconciled
      codes).Safe Answers (fun _ => True) (fun _ => OnlyAsked (· = .clock) world) world := by
  unfold receiptWithImmediateFillPrice
  rw [Proc.safe_bind]
  apply (receiptFromResponse_priceMissing reconciled codes world).mono
  rintro rcpt reached ⟨ha, hm⟩
  rw [if_neg (fun hmi => hp (hm hmi))]
  exact ha

end Receipts

def CancelledOnce (order : CopyMarketOrder) (clientOrderId : String) (calls : List Asked) : Prop :=
  ∃ (log : EventLog) (reply : Except ProbeError OrderResponse) (later : List Asked),
    calls = ⟨log, .cancelOrder order.signal.symbol clientOrderId, reply⟩ :: later ∧
    (∀ asked ∈ later, Looking asked.query) ∧
    ∀ response, reply = .ok response → ¬FillUnpriced order clientOrderId response →
      ∀ asked ∈ later, asked.query = .clock

def QueriedFirst (order : CopyMarketOrder) (clientOrderId : String) (calls : List Asked) : Prop :=
  ∃ (log : EventLog) (reply : Except ProbeError OrderResponse) (later : List Asked),
    calls = ⟨log, .queryOrder order.signal.symbol clientOrderId, reply⟩ :: later ∧
    ∀ asked ∈ later, Looking asked.query

omit [HexOrder] in
theorem cancelExisting_asks (executor : ExecutorSettings) (ord : CopyMarketOrder)
    (orderId reasonCode : String) (claimedAt : Time) (world : World) :
    (cancelExisting executor ord orderId reasonCode claimedAt).Safe Answers
      (fun _ => True) (fun _ reached => CancelledOnce ord orderId
        (reached.trace.drop world.trace.length)) world := by
  unfold cancelExisting
  simp only [cancelOrder, Proc.safe_bind, Proc.safe_question, true_and]
  intro reply asked ha
  -- the calls after the cancellation, for both kinds of answer
  have hca {reached : World} (hla : OnlyAsked Looking asked reached)
      (hc : ∀ response, reply = .ok response → ¬FillUnpriced ord orderId response →
        OnlyAsked (· = .clock) asked reached) :
      CancelledOnce ord orderId (reached.trace.drop world.trace.length) := by
    obtain ⟨later, ht, hl⟩ := hla
    refine ⟨world.log, reply, later, ?_, hl, ?_⟩
    · rw [ht, ha.1, List.append_assoc, List.drop_left, List.singleton_append]
    · intro response hre hp
      obtain ⟨same, hs, hc⟩ := hc response hre hp
      rw [ht] at hs
      rw [List.append_cancel_left hs]
      exact hc
  split
  · rename_i response
    have hl := onlyAsked_of_within
      (receiptWithImmediateFillPrice_looks executor ord orderId response true [reasonCode])
      journalWrite_trace asked
    by_cases hp : FillUnpriced ord orderId response
    · apply hl.mono
      intro _ reached hr
      refine hca hr ?_
      rintro other hs hn
      cases hs
      exact absurd hp hn
    · apply Proc.Safe.mono ((hl.and (receiptWithImmediateFillPrice_asks executor hp true
        [reasonCode] asked)).weaken fun _ _ => trivial)
      rintro _ reached ⟨hr, hc⟩
      exact hca hr fun _ _ _ => hc
  · apply (onlyAsked_of_within (queryCancelled_looks executor ord orderId reasonCode
      claimedAt) journalWrite_trace asked).mono
    intro _ reached hr
    exact hca hr (by simp)

variable {ord : CopyMarketOrder}

omit [HexOrder] in
theorem reconcileExisting_asks (executor : ExecutorSettings) (hm : ord.orderType ≠ .limit)
    (orderId : String) (claimedAt : Time) (world : World) :
    (reconcileExisting executor ord orderId claimedAt).Safe Answers (fun _ => True)
      (fun _ reached => QueriedFirst ord orderId
        (reached.trace.drop world.trace.length)) world := by
  unfold reconcileExisting
  simp only [queryOrder, Proc.safe_bind, Proc.safe_question, true_and]
  intro reply asked ha
  have hc {reached : World} (hl : OnlyAsked Looking asked reached) :
      QueriedFirst ord orderId (reached.trace.drop world.trace.length) := by
    obtain ⟨later, ht, hlo⟩ := hl
    refine ⟨world.log, reply, later, ?_, hlo⟩
    rw [ht, ha.1, List.append_assoc, List.drop_left, List.singleton_append]
  apply Proc.Safe.mono (onlyAsked_of_within ?_ (@journalWrite_trace ord.signal.signalId) asked)
  · intro _ reached hr
    exact hc hr
  split
  · apply Proc.within_bind (submissionDefinitivelyAbsent_looks ord orderId _ _)
    intro absent
    split
    · rw [if_neg (by simp [CopyMarketOrder.isPersistentEntry, hm])]
      exact (rejectAndRecord_records ord orderId _).looks
    · exact Proc.within_pure
  · apply Proc.within_bind clock_records.looks
    intro now
    rw [if_neg (by simp [hm])]
    exact receiptWithImmediateFillPrice_looks executor ord orderId _ _ _

/-- `_process_signal` from its first read of the repository on. -/
def processSignalAt (now : Time) : Engine Unit := do
  match ← readLog (·.attributedFillQuantity signal.signalId) with
  | .error _ => Proc.halt
  | .ok (some filled) =>
    recordDecision signal .filled filled ["COPY_ATTRIBUTED_FILL_RECOVERED"] now
  | .ok none =>
    let claimed ← executorClaim settings signal
    let control ← readLog (·.latestRuntimeControl)
    let stopped ← readLog fun log => settings.mode.executionEnabled &&
      log.activeLeaderSymbolStop signal.leadPortfolioId signal.symbol now
    match entryBlock settings.mode signal assignment control stopped with
    | some block => processBlocked settings signal claimed control block now
    | none => processOpen settings signal assignment claimed now

theorem processSignal_eq : processSignal settings signal assignment = (do
      let now ← clock
      processSignalAt settings signal assignment now) :=
  rfl

/-- A stop that covers the signal, a control that is not `RUNNING` while orders are executed,
or a leader that is being drained. -/
def EntryBlocked (log : EventLog) (now : Time) : Prop :=
  log.activeLeaderSymbolStop signal.leadPortfolioId signal.symbol now = true ∨
    (settings.mode.executionEnabled = true ∧ log.latestRuntimeControl.state ≠ .running) ∨
    assignment.lifecycle = .draining

def readBlock (log : EventLog) (now : Time) : Option EntryBlock :=
  entryBlock settings.mode signal assignment log.latestRuntimeControl
    (settings.mode.executionEnabled &&
      log.activeLeaderSymbolStop signal.leadPortfolioId signal.symbol now)

variable {settings signal assignment}

variable {now : Time}

theorem readBlock_of_blocked {log : EventLog} (hk : signal.kind = .increase)
    (hb : EntryBlocked settings signal assignment log now)
    (hs : settings.mode.executionEnabled = true ∨ assignment.lifecycle = .draining) :
    ∃ block, readBlock settings signal assignment log now = some block ∧
      block.state ∈ [DecisionState.riskRejected, .ignoredDraining] ∧
      block.cancellation ∈ blockedCancellations := by
  unfold readBlock entryBlock
  rw [if_neg (by simp [hk])]
  split
  · exact ⟨_, rfl, by simp, by simp [blockedCancellations]⟩
  split
  · exact ⟨_, rfl, by simp, by simp [blockedCancellations]⟩
  split
  · exact ⟨_, rfl, by simp, by simp [blockedCancellations]⟩
  rename_i hstopped hcontrol hdraining
  rcases hs with he | hl
  · rcases hb with hst | hp | hl
    · exact absurd (by simp [he, hst]) hstopped
    · exact absurd hp hcontrol
    · exact absurd hl hdraining
  · exact absurd hl hdraining

def readClaim (settings : RuntimeSettings) (signal : NormalizedSignal) (log : EventLog) :
    Option CopyMarketOrder :=
  if settings.mode.executionEnabled then
    (log.lookup signal.signalId).bind (·.restoredOrder signal) else none

def processRead (settings : RuntimeSettings) (signal : NormalizedSignal)
    (assignment : LeaderAssignment) (log : EventLog) (now : Time) : Engine Unit :=
  match readBlock settings signal assignment log now with
  | some block =>
    processBlocked settings signal (readClaim settings signal log) log.latestRuntimeControl block now
  | none => processOpen settings signal assignment (readClaim settings signal log) now

theorem safe_processSignalAt {inv : World → Prop} {post : Unit → World → Prop} {world : World}
    (hw : inv world) (hu : world.log.attributedFillQuantity signal.signalId = .ok none)
    (hr : (processRead settings signal assignment world.log now).Safe Answers inv post world) :
    (processSignalAt settings signal assignment now).Safe Answers inv post world := by
  unfold processRead readBlock readClaim at hr
  simp only [processSignalAt, executorClaim, claimedOrder, readLog, Proc.safe_bind,
    Proc.safe_read, hu]
  refine ⟨hw, ?_⟩
  split
  · rename_i henabled
    simp only [henabled, if_true, Bool.true_and, Proc.safe_bind, Proc.safe_read] at hr ⊢
    exact ⟨hw, hw, hw, hr⟩
  · rename_i hdisabled
    simp only [hdisabled, Bool.false_and] at hr ⊢
    exact ⟨hw, hw, hr⟩

theorem ends_processSignalAt {post : Unit → World → Prop} {world : World}
    (hu : world.log.attributedFillQuantity signal.signalId = .ok none)
    (hr : (processRead settings signal assignment world.log now).Ends Answers post world) :
    (processSignalAt settings signal assignment now).Ends Answers post world := by
  unfold processRead readBlock readClaim at hr
  simp only [processSignalAt, executorClaim, claimedOrder, readLog, Proc.ends_bind,
    Proc.ends_read, hu]
  split
  · rename_i henabled
    simp only [henabled, if_true, Bool.true_and, Proc.ends_bind, Proc.ends_read] at hr ⊢
    exact hr
  · rename_i hdisabled
    simp only [hdisabled, Bool.false_and] at hr ⊢
    exact hr

variable {world : World} {now : Time}

theorem processSignalAt_noRisk (hk : signal.kind = .increase)
    (hbl : EntryBlocked settings signal assignment world.log now) :
    (processSignalAt settings signal assignment now).Safe Answers (NoRiskSince world)
      (fun _ => NoRiskSince world) world := by
  have hh : NoRiskSince world world := ⟨rfl, rfl⟩
  cases ha : world.log.attributedFillQuantity signal.signalId with
  | error code =>
    simp only [processSignalAt, readLog, Proc.safe_bind, Proc.safe_read, ha]
    exact ⟨hh, Proc.safe_halt⟩
  | ok found =>
    cases found with
    | some filled =>
      simp only [processSignalAt, readLog, Proc.safe_bind, Proc.safe_read, ha]
      exact ⟨hh, Riskless.safe (recordDecision_keeps _ _ _ _ _) world⟩
    | none =>
      apply safe_processSignalAt hh ha
      apply Riskless.safe
      unfold processRead
      split
      · exact processBlocked_riskless _ _ _ _ _ _
      · rename_i hopen
        have hd : settings.mode.executionEnabled = false := by
          by_contra henabled
          obtain ⟨block, hb, -⟩ := readBlock_of_blocked hk hbl
            (Or.inl (Bool.eq_true_of_not_eq_false henabled))
          rw [hopen] at hb
          cases hb
        exact processOpen_riskless signal assignment hd _ _

/-- The signal is decided for good without a call, and nothing is attributed. -/
def DecidedAtOnce (signal : NormalizedSignal) (states : List DecisionState) (quantity : Decimal)
    (now : Time) (before after : World) : Prop :=
  after.trace = before.trace ∧ after.log.positions = before.log.positions ∧
    ∃ decision ∈ after.log.decisions, decision.signalId = signal.signalId ∧
      decision.state ∈ states ∧ decision.state.isTerminal = true ∧
      decision.localQuantity = quantity ∧ decision.occurredAt = now

omit [HexOrder] in
theorem recordDecision_atOnce (hk : ∀ dec ∈ world.log.decisions, dec.Keyed)
    {states : List DecisionState} {st : DecisionState} (hs : st ∈ states)
    (ht : st.isTerminal = true) (qty : Decimal) (codes : List String) :
    (recordDecision signal st qty codes now).Ends Answers
      (fun _ => DecidedAtOnce signal states qty now world) world := by
  obtain ⟨hd, dec, hm, hsi, rfl, hq, hti⟩ :=
    (@decidesOnly_refl signal states now world.log hk).decide hs qty codes le_rfl
  exact ⟨rfl, hd.positions, dec, hm, hsi, hs, ht, hq, hti⟩

def blockedStates : List DecisionState := [.cancelled, .riskRejected, .ignoredDraining]

theorem processBlocked_unclaimed (hk : ∀ dec ∈ world.log.decisions, dec.Keyed)
    (control : RuntimeControl) {block : EntryBlock}
    (hs : block.state ∈ [DecisionState.riskRejected, .ignoredDraining]) :
    (processBlocked settings signal none control block now).Ends Answers
      (fun _ => DecidedAtOnce signal blockedStates 0 now world) world := by
  unfold processBlocked
  dsimp only
  split
  · exact recordDecision_atOnce hk (by simp [blockedStates]) rfl _ _
  · have ht : block.state.isTerminal = true := by
      simp only [List.mem_cons, List.not_mem_nil, or_false] at hs
      rcases hs with hs | hs <;> rw [hs] <;> rfl
    exact recordDecision_atOnce hk (List.mem_cons_of_mem _ hs) ht _ _

def Undecided (before after : World) : Prop :=
  after.log.positions = before.log.positions ∧ after.log.decisions = before.log.decisions

omit [HexOrder] in
theorem Quiet.undecided {α : Type} {signalId : Digest} {proc : Engine α}
    (hq : Quiet signalId proc) (world : World) :
    proc.Safe Answers (Undecided world) (fun _ => Undecided world) world := by
  apply Proc.Within.safe hq
  · rintro pre post hb ⟨-, hl | ⟨ev, -, -, hl⟩⟩
    · rwa [Undecided, hl]
    · rw [Undecided, hl]
      unfold EventLog.recordSubmission
      split <;> exact hb
  · intro pre qry reply post hb _ ha
    exact ⟨ha.2.positions.trans hb.1, ha.2.decisions.trans hb.2⟩
  · exact ⟨rfl, rfl⟩

/-- What `cancel_pending_increase` has done when it returns. -/
structure CancelReturned (executor : ExecutorSettings) (signal : NormalizedSignal)
    (reasonCode : String) (order : CopyMarketOrder) (clientOrderId : String) (before : World)
    (receipt : CopyExecutionReceipt) (after : World) : Prop where
  returned : Proc.Returns Answers before (cancelPendingIncrease executor signal reasonCode) receipt
    after
  ordered : OrderReceipt order clientOrderId receipt
  decided : DecidedBy (lastOrderReply (after.trace.drop before.trace.length)) receipt
  limit : order.orderType = .limit →
    CancelledOnce order clientOrderId (after.trace.drop before.trace.length)
  market : order.orderType ≠ .limit →
    QueriedFirst order clientOrderId (after.trace.drop before.trace.length)
  undecided : Undecided before after

theorem cancelPendingIncrease_returned (executor : ExecutorSettings) (reasonCode : String)
    {claim : SubmissionClaim} (hlo : world.log.lookup signal.signalId = some claim)
    (hre : claim.restoredOrder signal = some ord) :
    (cancelPendingIncrease executor signal reasonCode).Safe Answers (Undecided world)
      (CancelReturned executor signal reasonCode ord claim.clientOrderId world) world := by
  have hs : (cancelPendingIncrease executor signal reasonCode).Safe Answers (fun _ => True)
      (fun rcpt reached => (OrderReceipt ord claim.clientOrderId rcpt ∧
        ∃ last, CallAt world.trace.length world.log last reached ∧ DecidedBy last rcpt) ∧
        (ord.orderType = .limit → CancelledOnce ord claim.clientOrderId
          (reached.trace.drop world.trace.length)) ∧
        (ord.orderType ≠ .limit → QueriedFirst ord claim.clientOrderId
          (reached.trace.drop world.trace.length))) world := by
    simp only [cancelPendingIncrease, readLog, Proc.safe_bind, Proc.safe_read, hlo, hre, true_and]
    split
    · rename_i hl
      apply Proc.Safe.mono ((cancelExisting_settles executor (callAt_start world) reasonCode
        claim.claimedAt).and (cancelExisting_asks executor ord claim.clientOrderId reasonCode
        claim.claimedAt world) |>.weaken fun _ _ => trivial)
      rintro rcpt reached ⟨⟨hr, last, hat, hd, -⟩, hc⟩
      exact ⟨⟨hr, last, hat, hd⟩, fun _ => hc,
        fun hm => absurd hl hm⟩
    · rename_i hm
      apply Proc.Safe.mono ((reconcileExisting_settles executor (callAt_start world)
        claim.claimedAt).and (reconcileExisting_asks executor hm claim.clientOrderId
        claim.claimedAt world) |>.weaken fun _ _ => trivial)
      rintro rcpt reached ⟨⟨hr, last, hat, hd, -⟩, hq⟩
      exact ⟨⟨hr, last, hat, hd⟩, fun hl => absurd hl hm,
        fun _ => hq⟩
  have ha := ((cancelPendingIncrease_quiet executor signal reasonCode).undecided world).and
    (hs.and Proc.safe_returns)
  apply (ha.weaken fun _ hrea => hrea.1).mono
  rintro rcpt reached ⟨hu, ⟨⟨hr, last, hat, hd⟩, hl, hm⟩, hret⟩
  exact ⟨hret, hr, hat.last.symm ▸ hd, hl, hm, hu⟩

/-- A receipt that finishes a blocked signal: its order was rejected for a known
cancellation. -/
abbrev CopyExecutionReceipt.endsBlocked (receipt : CopyExecutionReceipt) : Bool :=
  receipt.state = .rejected && receipt.reasonCodes.any (· ∈ blockedCancellations)

/-- A stopped call of a blocked order has decided nothing yet, or has lost nothing of what
`cancel_pending_increase` returned. -/
def BlockedGuarded (executor : ExecutorSettings) (signal : NormalizedSignal) (reasonCode : String)
    (order : CopyMarketOrder) (clientOrderId : String) (before reached : World) : Prop :=
  Undecided before reached ∨ ∃ receipt middle,
    CancelReturned executor signal reasonCode order clientOrderId before receipt middle ∧
    NothingLost signal receipt before.log reached.log

/-- A completed call of a blocked order has made the calls of the cancellation and settled
its receipt; a final fill with a price is attributed. -/
def BlockedSettled (executor : ExecutorSettings) (signal : NormalizedSignal) (reasonCode : String)
    (order : CopyMarketOrder) (clientOrderId : String) (now : Time) (before reached : World) :
    Prop :=
  ∃ receipt middle,
    CancelReturned executor signal reasonCode order clientOrderId before receipt middle ∧
    reached.trace = middle.trace ∧
    (∃! outcome, LeadsTo signal receipt receipt.endsBlocked now before.log reached.log outcome) ∧
    (receipt.isTerminal = true → 0 < receipt.filledQuantity → 0 < receipt.averagePrice →
      LeadsTo signal receipt receipt.endsBlocked now before.log reached.log .attributed)

theorem processBlocked_claimed (hk : ∀ dec ∈ world.log.decisions, dec.Keyed)
    (hf : ∀ ev ∈ world.log.positions, ev.signalId ≠ signal.signalId) {claim : SubmissionClaim}
    (hl : world.log.lookup signal.signalId = some claim)
    (hre : claim.restoredOrder signal = some ord) (control : RuntimeControl) (block : EntryBlock) :
    (processBlocked settings signal (some ord) control block now).Safe Answers
      (BlockedGuarded settings.executor signal block.cancellation ord claim.clientOrderId world)
      (fun _ => BlockedSettled settings.executor signal block.cancellation ord
        claim.clientOrderId now world) world := by
  unfold processBlocked
  dsimp only
  rw [Proc.safe_bind]
  apply ((cancelPendingIncrease_returned settings.executor block.cancellation hl
    hre).weaken fun _ hun => Or.inl hun).mono
  intro rcpt mid hr
  have hb := hr.ordered.toBounded
  have hd := recordBlockedClaimResult_disposes hb hr.undecided.1 hr.undecided.2 hk hf now
  have hs : (recordBlockedClaimResult signal rcpt now).Safe Answers
      (fun reached => NothingLost signal rcpt world.log reached.log)
      (fun _ reached => (∃! outcome, LeadsTo signal rcpt rcpt.endsBlocked now world.log
          reached.log outcome) ∧
        (rcpt.isTerminal = true → 0 < rcpt.filledQuantity → 0 < rcpt.averagePrice →
          LeadsTo signal rcpt rcpt.endsBlocked now world.log reached.log .attributed))
      mid := by
    by_cases hp : rcpt.isTerminal = true ∧ 0 < rcpt.filledQuantity ∧ 0 < rcpt.averagePrice
    · have hc : Credits signal rcpt rcpt.endsBlocked now world.log
          (recordBlockedClaimResult signal rcpt now) mid :=
        recordBlockedClaimResult_credits hb hr.undecided.1 hr.undecided.2
          hk hf now hp.1 hp.2.1 hp.2.2
      apply ((hd.and hc).weaken fun _ hke => hke.1).mono
      rintro _ reached ⟨hu, ha⟩
      exact ⟨hu, fun _ _ _ => ha⟩
    · apply hd.mono
      intro _ reached hu
      exact ⟨hu, fun ht hfi hpr =>
        absurd ⟨ht, hfi, hpr⟩ hp⟩
  have hn : (recordBlockedClaimResult signal rcpt now).Within (fun _ => False)
      Bookkept := recordBlockedClaimResult_keeps signal rcpt now
  have hall := hs.and (onlyAsked_of_within hn (fun _ _ hke => hke.trace) mid)
  apply (hall.weaken fun _ hke => Or.inr ⟨rcpt, mid, hr, hke.1⟩).mono
  rintro _ reached ⟨⟨hu, ha⟩, calls, htr, hca⟩
  obtain rfl : calls = [] := List.eq_nil_iff_forall_not_mem.mpr hca
  exact ⟨rcpt, mid, hr, by rw [htr, List.append_nil], hu, ha⟩

/-- Blocked entries add no risk.  However the exchange answers, a call that begins blocked
places and claims nothing.  A fill that is already attributed is decided as such.  Otherwise a
runtime that sees the block decides an entry without a restorable claim at once, with quantity
zero, and cancels or queries a claimed one and settles what it filled. -/
theorem blocked_entries_add_no_risk (hkind : signal.kind = .increase)
    (hkeyed : ∀ dec ∈ world.log.decisions, dec.Keyed)
    (hblocked : EntryBlocked settings signal assignment world.log now) :
    (processSignalAt settings signal assignment now).Safe Answers (NoRiskSince world)
      (fun _ => NoRiskSince world) world ∧
    (∀ filled, world.log.attributedFillQuantity signal.signalId = .ok (some filled) →
      (processSignalAt settings signal assignment now).Ends Answers
        (fun _ => DecidedAtOnce signal [.filled] filled now world) world) ∧
    (world.log.attributedFillQuantity signal.signalId = .ok none →
      settings.mode.executionEnabled = true ∨ assignment.lifecycle = .draining →
      (readClaim settings signal world.log = none →
        (processSignalAt settings signal assignment now).Ends Answers
          (fun _ => DecidedAtOnce signal blockedStates 0 now world) world) ∧
      ∀ claim ord, settings.mode.executionEnabled = true →
        world.log.lookup signal.signalId = some claim → claim.restoredOrder signal = some ord →
        ∃ reasonCode ∈ blockedCancellations,
          (processSignalAt settings signal assignment now).Safe Answers
            (BlockedGuarded settings.executor signal reasonCode ord claim.clientOrderId world)
            (fun _ => BlockedSettled settings.executor signal reasonCode ord
              claim.clientOrderId now world) world) := by
  refine ⟨processSignalAt_noRisk hkind hblocked, ?_, ?_⟩
  · intro filled ha
    simp only [processSignalAt, readLog, Proc.ends_bind, Proc.ends_read, ha]
    exact recordDecision_atOnce hkeyed (by simp) rfl _ _
  · intro hu hse
    obtain ⟨block, hb, hs, hc⟩ := readBlock_of_blocked hkind hblocked hse
    refine ⟨?_, ?_⟩
    · intro hun
      apply ends_processSignalAt hu
      simp only [processRead, hb, hun]
      exact processBlocked_unclaimed hkeyed _ hs
    · intro claim ord he hl hr
      have hcl : readClaim settings signal world.log = some ord := by
        simp [readClaim, he, hl, hr]
      have hf := EventLog.attributedFillQuantity_eq_none_iff.mp hu
      refine ⟨block.cancellation, hc, ?_⟩
      apply safe_processSignalAt (Or.inl ⟨rfl, rfl⟩) hu
      simp only [processRead, hb, hcl]
      exact processBlocked_claimed hkeyed hf hl hr _ _

end Engine

section OneBlocked

local instance blockedHexOrder : HexOrder := distinctHexOrder

def drainingLeader : LeaderAssignment := { activeLeader with lifecycle := .draining }

def cancellingReply (trace : List Asked) : (query : Query) → query.Reply
  | .cancelOrder _ clientOrderId => .ok {
      clientOrderId := some (.text clientOrderId)
      status := some (.text "CANCELED")
      executedQty := .finite (1 / 2)
      avgPrice := .finite 100
      cumQuote := .finite 0
      orderId := none }
  | .queryOrder _ clientOrderId => .ok {
      clientOrderId := some (.text clientOrderId)
      status := some (.text "FILLED")
      executedQty := .finite 1
      avgPrice := .finite 100
      cumQuote := .finite 0
      orderId := none }
  | query => exchangeReply trace query

def cancellingAnswer (world : World) (query : Query) : query.Reply × World :=
  (cancellingReply world.trace query,
    { world with trace := world.trace ++ [⟨world.log, query, cancellingReply world.trace query⟩] })

theorem answers_cancellingAnswer (world : World) (qry : Query) :
    Answers world qry (cancellingAnswer world qry).1 (cancellingAnswer world qry).2 :=
  answers_traced world qry _

/-- The entry with a resting order, and the call that its drained leader gets. -/
def claimedWorld : World := ⟨{ entryStored with claims := [restingClaim] }, []⟩

def drainedRun : Option Unit × World :=
  (processSignalAt {} entrySignalOfRow drainingLeader newYear).run cancellingAnswer claimedWorld

theorem drained_entry_settled : drainedRun.2.log.positions.map (·.localQuantityDelta) = [1 / 2] ∧
      placements drainedRun.2.trace = [] ∧
      ∃ reasonCode ∈ blockedCancellations, BlockedSettled {} entrySignalOfRow reasonCode
        restingOrder restingClientOrderId newYear claimedWorld drainedRun.2 := by
  have hc : drainedRun.1 = some () := by with_unfolding_all decide
  have hr := Proc.returns_run answers_cancellingAnswer hc
  have hcla : (claimedWorld.log.lookup entrySignalOfRow.signalId).map (fun claim =>
      (claim.clientOrderId, claim.restoredOrder entrySignalOfRow)) =
        some (restingClientOrderId, some restingOrder) := by
    decide
  obtain ⟨claim, hl, hv⟩ := Option.map_eq_some_iff.mp hcla
  obtain ⟨hcl, hre⟩ := Prod.mk.inj hv
  obtain ⟨hri, -, hse⟩ := @blocked_entries_add_no_risk _ {} entrySignalOfRow drainingLeader
    claimedWorld newYear rfl (by simp [claimedWorld, entryStored]) (Or.inr (Or.inr rfl))
  obtain ⟨reasonCode, hrea, hs⟩ := (hse rfl (Or.inl rfl)).2 claim restingOrder rfl hl hre
  refine ⟨by with_unfolding_all decide, (hri.returns hr).placements, reasonCode, hrea, ?_⟩
  rw [← hcl]
  exact hs.returns hr

/-- The entry whose fill is attributed but not decided, after a pause. -/
def pausedWorld : World :=
  { entryStopped with
    log := entryStopped.log.appendRuntimeControl .pausedNewEntries "operator" ["PAUSE"]
      (newYear + 1) }

def stoppedWorld : World :=
  ⟨{ entryStored with stops := [⟨.external "stop", .external "valuation", "1", "BTCUSDT", 1, -1,
      newYear, newYear + 86400000000⟩] }, []⟩

/-- The entry with a market order, from before entries were protected. -/
def marketWorld : World :=
  ⟨{ entryStored with claims := [claimRow (unitOrder entrySignalOfRow .market none
      (marketPolicy _)) restingClientOrderId newYear] }, []⟩

def pausedRun : Option Unit × World :=
  (processSignal {} entrySignalOfRow activeLeader).run cancellingAnswer pausedWorld

def shadowRun : Option Unit × World :=
  (processSignal { mode := .shadow } entrySignalOfRow activeLeader).run cancellingAnswer
    stoppedWorld

def shadowDrainedRun : Option Unit × World :=
  (processSignal { mode := .shadow } entrySignalOfRow drainingLeader).run cancellingAnswer
    claimedWorld

def marketRun : Option Unit × World :=
  (processSignal {} entrySignalOfRow drainingLeader).run cancellingAnswer marketWorld

def EventLog.limitClaimed (log : EventLog) : Bool :=
  ((log.lookup entrySignalOfRow.signalId).bind (·.restoredOrder entrySignalOfRow)).any
    (·.orderType = .limit)

/-- Blocked calls that neither cancel nor query a claimed limit order, because its fill is
attributed or because nothing is executed; and blocked calls without such an order that
decide a positive quantity. -/
theorem blocked_calls_by_design :
    (∀ now, EntryBlocked {} entrySignalOfRow activeLeader pausedWorld.log now) ∧
    (pausedWorld.log.limitClaimed = true ∧ pausedRun.1 = some () ∧
      (pausedRun.2.trace.drop pausedWorld.trace.length).map (·.query) = [.clock]) ∧
    (∀ now, EntryBlocked { mode := .shadow } entrySignalOfRow drainingLeader claimedWorld.log now) ∧
    (claimedWorld.log.limitClaimed = true ∧ shadowDrainedRun.1 = some () ∧
      shadowDrainedRun.2.trace.map (·.query) = [.clock]) ∧
    EntryBlocked { mode := .shadow } entrySignalOfRow activeLeader stoppedWorld.log
      (newYear + 1000000) ∧
    (stoppedWorld.log.limitClaimed = false ∧ shadowRun.1 = some () ∧
      shadowRun.2.log.decisions.map (fun dec => (dec.state, dec.localQuantity)) =
        [(.shadowOnly, 1)]) ∧
    (∀ now, EntryBlocked {} entrySignalOfRow drainingLeader marketWorld.log now) ∧
    (marketWorld.log.limitClaimed = false ∧ marketRun.1 = some () ∧
      marketRun.2.log.decisions.map (fun dec => (dec.state, dec.localQuantity)) =
        [(.filled, 1)]) := by
  refine ⟨fun now => Or.inr (Or.inl ⟨rfl, by with_unfolding_all decide⟩), ?_,
    fun now => Or.inr (Or.inr rfl),
    ?_, Or.inl (by decide), ?_, fun now => Or.inr (Or.inr rfl), ?_⟩
  · with_unfolding_all decide
  · decide
  · with_unfolding_all decide
  · with_unfolding_all decide

end OneBlocked

end AiQuant.CopyTrading
