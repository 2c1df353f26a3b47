import AiQuant.CopyTrading.Application

/-! What the executor's receipts say about its journal.  The executor ends every call in
one of three ways: it records an event for the receipt it returns, it returns an
`UNKNOWN` receipt, or it refuses a signal that nobody has claimed.  Whatever is true of
these three is true of `execute` and `cancel_pending_increase` as a whole. -/
namespace AiQuant.CopyTrading
open AiQuant.Lib

variable [HexOrder]

/-- The rules to prove `invariant` of every step of the executor, and `receipted` of the
receipt it returns for a signal. -/
structure JournalRules (env : World → (query : Query) → query.Reply → World → Prop)
    (signal : NormalizedSignal) (invariant : World → Prop)
    (receipted : CopyExecutionReceipt → World → Prop) : Prop where
  asks : ∀ {before query reply after}, invariant before → env before query reply after →
    invariant after ∧ after.log.lookup signal.signalId = before.log.lookup signal.signalId
  records : ∀ {world} (receipt : CopyExecutionReceipt) (exchangeOrderId : Option String)
    (response : Option OrderResponse), invariant world →
    (recordNow signal.signalId receipt.state.submission receipt.filledQuantity exchangeOrderId
      response receipt.reasonCodes).Safe env invariant
      (fun _ reached => invariant reached ∧ receipted receipt reached) world
  resubmits : ∀ {world} (reasonCodes : List String), invariant world →
    (recordNow signal.signalId .submitting 0 none none reasonCodes).Safe env invariant
      (fun _ => invariant) world
  claims : ∀ {world} (order : CopyMarketOrder) (environment : BinanceFuturesEnvironment),
    order.signal = signal → invariant world →
    (claimSubmission order (copyClientOrderId signal.signalId environment)).Safe env invariant
      (fun _ => invariant) world
  unknown : ∀ {world receipt}, invariant world → receipt.state = .unknown →
    receipted receipt world
  refused : ∀ {world receipt}, invariant world → world.log.lookup signal.signalId = none →
    receipt.state = .rejected → receipted receipt world

namespace JournalRules

variable {env : World → (qry : Query) → qry.Reply → World → Prop}
  {sig : NormalizedSignal} {inv : World → Prop}
  {receipted : CopyExecutionReceipt → World → Prop} {world : World}
  {ord : CopyMarketOrder} {orderId : String}

abbrev Accounts (env : World → (query : Query) → query.Reply → World → Prop)
    (invariant : World → Prop) (receipted : CopyExecutionReceipt → World → Prop)
    (proc : Engine CopyExecutionReceipt) (world : World) : Prop :=
  proc.Safe env invariant
    (fun receipt reached => invariant reached ∧ receipted receipt reached) world

theorem recorded (hr : JournalRules env sig inv receipted)
    (hw : inv world) (rcpt : CopyExecutionReceipt) (exchangeOrderId : Option String)
    (resp : Option OrderResponse) : Accounts env inv receipted (do
      recordNow sig.signalId rcpt.state.submission rcpt.filledQuantity exchangeOrderId
        resp rcpt.reasonCodes
      return rcpt) world := by
  rw [Accounts, Proc.safe_bind]
  exact hr.records rcpt exchangeOrderId resp hw

theorem rejectAndRecord (hr : JournalRules env sig inv receipted)
    (hs : ord.signal = sig) (hw : inv world) (codes : List String) :
    Accounts env inv receipted (rejectAndRecord ord orderId codes) world := by
  subst hs
  exact hr.recorded hw (emptyReceipt .rejected ord orderId codes) none none

theorem unknownAndRecord (hr : JournalRules env sig inv receipted)
    (hs : ord.signal = sig) (hw : inv world) (codes : List String) :
    Accounts env inv receipted (unknownAndRecord ord orderId codes) world := by
  subst hs
  exact hr.recorded hw (emptyReceipt .unknown ord orderId codes) none none

theorem terminationReasons (hr : JournalRules env sig inv receipted)
    (hw : inv world) (status : String) (codes : List String) :
    (terminationReasons ord status codes).Safe env inv (fun _ => inv)
      world := by
  unfold AiQuant.CopyTrading.terminationReasons
  split
  · simp only [clock, Proc.safe_bind, Proc.safe_question]
    intro now asked han
    have ha := (hr.asks hw han).1
    refine ⟨ha, ?_⟩
    split <;> exact ha
  · exact hw

theorem receiptFromResponse (hr : JournalRules env sig inv receipted)
    (hs : ord.signal = sig) (hw : inv world) (resp : OrderResponse)
    (reconciled : Bool) (codes : List String) : Accounts env inv receipted
      (receiptFromResponse ord orderId resp reconciled codes) world := by
  subst hs
  unfold AiQuant.CopyTrading.receiptFromResponse
  split
  · exact hr.recorded hw (emptyReceipt .unknown ord orderId ["COPY_ORDER_RESPONSE_INVALID"]) none _
  · rw [Accounts, Proc.safe_bind]
    apply (hr.terminationReasons hw _ _).mono
    intro additional reached hre
    dsimp only
    exact hr.recorded hre {
      signalId := ord.signal.signalId
      clientOrderId := orderId
      state := _
      requestedQuantity := ord.localQuantity
      leverage := ord.leverage
      filledQuantity := _
      averagePrice := _
      exchangeOrderId := resp.orderId
      reasonCodes := _ } _ _

theorem queryFillPrice (hru : JournalRules env sig inv receipted)
    (hs : ord.signal = sig) (codes : List String) (retries : ℕ) (hw : inv world) :
    (queryFillPrice ord orderId codes retries).Safe env inv (fun queried reached => inv reached ∧
        ∀ rcpt, queried = some rcpt → receipted rcpt reached) world := by
  induction retries generalizing world with
  | zero => exact ⟨hw, by simp⟩
  | succ retries ih =>
    simp only [AiQuant.CopyTrading.queryFillPrice, queryOrder, Proc.safe_bind, Proc.safe_question]
    intro reply asked han
    have ha := (hru.asks hw han).1
    refine ⟨ha, ?_⟩
    split
    · exact ih ha
    · split
      · rw [Proc.safe_bind]
        apply (hru.receiptFromResponse hs ha _ _ _).mono
        intro rcpt reached hr
        exact ⟨hr.1, by simpa using hr.2⟩
      · exact ih ha

variable (cfg : ExecutorSettings)

theorem receiptWithImmediateFillPrice (hr : JournalRules env sig inv receipted)
    (hs : ord.signal = sig) (hw : inv world) (resp : OrderResponse)
    (reconciled : Bool) (codes : List String) :
    Accounts env inv receipted (receiptWithImmediateFillPrice cfg ord orderId
      resp reconciled codes) world := by
  unfold AiQuant.CopyTrading.receiptWithImmediateFillPrice
  rw [Accounts, Proc.safe_bind]
  apply (hr.receiptFromResponse hs hw _ _ _).mono
  intro rcpt reached hre
  split
  · rw [Proc.safe_bind]
    apply (hr.queryFillPrice hs _ _ hre.1).mono
    intro queried asked ha
    split
    · exact ⟨ha.1, ha.2 _ rfl⟩
    · subst hs
      exact hr.recorded ha.1 { rcpt with
        reasonCodes := (rcpt.reasonCodes ++ ["COPY_FILL_PRICE_PENDING"]).eraseDups } _ _
  · exact hre

theorem reconcileAfterUncertainSubmit (hr : JournalRules env sig inv receipted)
    (hs : ord.signal = sig) (hw : inv world) (codes : List String) : Accounts env inv receipted
      (reconcileAfterUncertainSubmit cfg ord orderId codes) world := by
  simp only [Accounts, AiQuant.CopyTrading.reconcileAfterUncertainSubmit, queryOrder,
    Proc.safe_bind, Proc.safe_question]
  intro reply asked han
  have ha := (hr.asks hw han).1
  refine ⟨ha, ?_⟩
  split
  · exact hr.unknownAndRecord hs ha _
  · exact hr.receiptWithImmediateFillPrice cfg hs ha _ _ _

theorem placeAndReconcile (hr : JournalRules env sig inv receipted)
    (hs : ord.signal = sig) (hw : inv world) (codes : List String) :
    Accounts env inv receipted (placeAndReconcile cfg ord orderId codes) world := by
  simp only [Accounts, AiQuant.CopyTrading.placeAndReconcile, placeOrder, Proc.safe_bind,
    Proc.safe_question]
  intro reply asked han
  have ha := (hr.asks hw han).1
  refine ⟨ha, ?_⟩
  split
  · split
    · exact hr.rejectAndRecord hs ha _
    · exact hr.reconcileAfterUncertainSubmit cfg hs ha _
  · exact hr.receiptWithImmediateFillPrice cfg hs ha _ _ _

theorem resubmitPersistentEntry (hr : JournalRules env sig inv receipted)
    (hs : ord.signal = sig) (hw : inv world) : Accounts env inv receipted
      (resubmitPersistentEntry cfg ord orderId) world := by
  simp only [Accounts, AiQuant.CopyTrading.resubmitPersistentEntry, changeInitialLeverage,
    Proc.safe_bind, hs]
  apply (hr.resubmits _ hw).mono
  intro _ reached hre
  rw [Proc.safe_question]
  intro reply asked han
  have ha := (hr.asks hre han).1
  refine ⟨ha, ?_⟩
  split
  · exact Proc.safe_halt
  · exact hr.placeAndReconcile cfg hs ha _

theorem submissionDefinitivelyAbsent (hr : JournalRules env sig inv receipted)
    (hw : inv world) (error : ProbeError) (claimedAt : Time) :
    (submissionDefinitivelyAbsent ord orderId error claimedAt).Safe env inv
      (fun _ => inv) world := by
  unfold AiQuant.CopyTrading.submissionDefinitivelyAbsent
  split
  · simp only [clock, openOrders, Proc.safe_bind, Proc.safe_question]
    intro now timed ha
    have ht := (hr.asks hw ha).1
    refine ⟨ht, ?_⟩
    split
    · exact ht
    rw [Proc.safe_bind, Proc.safe_question]
    intro listing listed ha
    have hl := (hr.asks ht ha).1
    refine ⟨hl, ?_⟩
    split <;> exact hl
  · exact hw

theorem cancelExisting (hr : JournalRules env sig inv receipted)
    (hs : ord.signal = sig) (hw : inv world) (reasonCode : String) (claimedAt : Time) :
    Accounts env inv receipted (cancelExisting cfg ord orderId reasonCode claimedAt) world := by
  simp only [Accounts, AiQuant.CopyTrading.cancelExisting, cancelOrder, Proc.safe_bind,
    Proc.safe_question]
  intro cancelled asked ha
  have has := (hr.asks hw ha).1
  refine ⟨has, ?_⟩
  split
  · exact hr.receiptWithImmediateFillPrice cfg hs has _ _ _
  simp only [queryOrder, Proc.safe_bind, Proc.safe_question]
  intro queried queriedWorld ha
  have hq := (hr.asks has ha).1
  refine ⟨hq, ?_⟩
  split
  · exact hr.receiptWithImmediateFillPrice cfg hs hq _ _ _
  rw [Proc.safe_bind]
  apply (hr.submissionDefinitivelyAbsent hq _ _).mono
  intro absent reached hre
  split
  · exact hr.rejectAndRecord hs hre _
  · exact hr.unknownAndRecord hs hre _

theorem reconcileExisting (hr : JournalRules env sig inv receipted)
    (hs : ord.signal = sig) (hw : inv world) (claimedAt : Time) :
    Accounts env inv receipted (reconcileExisting cfg ord orderId claimedAt) world := by
  simp only [Accounts, AiQuant.CopyTrading.reconcileExisting, queryOrder, Proc.safe_bind,
    Proc.safe_question]
  intro queried asked ha
  have has := (hr.asks hw ha).1
  refine ⟨has, ?_⟩
  split
  · rw [Proc.safe_bind]
    apply (hr.submissionDefinitivelyAbsent has _ _).mono
    intro absent reached hre
    split
    · split
      · exact hr.resubmitPersistentEntry cfg hs hre
      · exact hr.rejectAndRecord hs hre _
    · exact ⟨hre, hr.unknown hre rfl⟩
  · simp only [clock, Proc.safe_bind, Proc.safe_question]
    intro now timed ha
    have ht := (hr.asks has ha).1
    refine ⟨ht, ?_⟩
    split
    · exact hr.cancelExisting cfg hs ht _ _
    · exact hr.receiptWithImmediateFillPrice cfg hs ht _ _ _

theorem reconcileClaim (hr : JournalRules env sig inv receipted)
    (hs : ord.signal = sig) (hw : inv world) (claim : SubmissionClaim) :
    Accounts env inv receipted (reconcileClaim cfg ord claim) world := by
  subst hs
  unfold AiQuant.CopyTrading.reconcileClaim
  split
  · exact hr.unknownAndRecord rfl hw _
  · rename_i restored hrestored
    exact hr.reconcileExisting cfg (restoredOrder_signal hrestored) hw _

theorem cancelPendingIncrease (hr : JournalRules env sig inv receipted)
    (hw : inv world) (reasonCode : String) : Accounts env inv receipted
      (cancelPendingIncrease cfg sig reasonCode) world := by
  simp only [Accounts, AiQuant.CopyTrading.cancelPendingIncrease, readLog, Proc.safe_bind,
    Proc.safe_read]
  refine ⟨hw, ?_⟩
  split
  · exact ⟨hw, hr.unknown hw rfl⟩
  split
  · exact ⟨hw, hr.unknown hw rfl⟩
  · rename_i ord hrestored
    have hs := restoredOrder_signal hrestored
    split
    · exact hr.cancelExisting cfg hs hw _ _
    · exact hr.reconcileExisting cfg hs hw _

theorem submitOrder (hru : JournalRules env sig inv receipted)
    (hs : ord.signal = sig) (hw : inv world) : Accounts env inv receipted (submitOrder cfg ord
      (copyClientOrderId sig.signalId cfg.environment)) world := by
  simp only [Accounts, AiQuant.CopyTrading.submitOrder, readLog, Proc.safe_bind]
  apply (hru.claims ord cfg.environment hs hw).mono
  intro claimed reached hr
  split
  · exact hru.placeAndReconcile cfg hs hr _
  · rw [Proc.safe_bind, Proc.safe_read]
    refine ⟨hr, ?_⟩
    split
    · exact ⟨hr, hru.unknown hr rfl⟩
    · exact hru.reconcileClaim cfg hs hr _

theorem execute (hr : JournalRules env sig inv receipted)
    (hs : ord.signal = sig) (hw : inv world) (riskDecision : AccountRiskDecision) :
    Accounts env inv receipted (execute cfg ord riskDecision) world := by
  subst hs
  simp only [Accounts, AiQuant.CopyTrading.execute, readLog, Proc.safe_bind, Proc.safe_read]
  refine ⟨hw, ?_⟩
  split
  · exact hr.reconcileClaim cfg rfl hw _
  rename_i hunclaimed
  split
  · exact ⟨hw, hr.refused hw hunclaimed rfl⟩
  simp only [positionMode, Proc.safe_bind, Proc.safe_question]
  intro mode asked han
  have ha := hr.asks hw han
  refine ⟨ha.1, ?_⟩
  split
  · exact Proc.safe_halt
  · exact ⟨ha.1, hr.refused ha.1 (ha.2.trans hunclaimed) rfl⟩
  split
  · simp only [changeInitialLeverage, Proc.safe_bind, Proc.safe_question]
    intro reply leveraged han
    have hle := hr.asks ha.1 han
    refine ⟨hle.1, ?_⟩
    split
    · exact Proc.safe_halt
    · exact hr.submitOrder cfg rfl hle.1
  · simp only [positionRisk, Proc.safe_bind, Proc.safe_question]
    intro positions listed han
    have hl := hr.asks ha.1 han
    refine ⟨hl.1, ?_⟩
    split
    · exact Proc.safe_halt
    split
    · exact Proc.safe_halt
    · exact hr.submitOrder cfg rfl hl.1
    · exact ⟨hl.1, hr.refused hl.1 (hl.2.trans (ha.2.trans hunclaimed)) rfl⟩

end JournalRules

end AiQuant.CopyTrading
