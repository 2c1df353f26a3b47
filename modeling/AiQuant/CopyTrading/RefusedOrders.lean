import AiQuant.CopyTrading.ReceiptSoundness

/-! Why a receipt is `REJECTED`.  An allowed market order is refused only by an answer of the
exchange: the position mode, a position that is too small, the rejection of the placement, the
report that the order ended without a fill, or that it is not known. -/
namespace AiQuant.CopyTrading
open AiQuant.Lib

structure EndedUnfilled (clientOrderId : String) (response : OrderResponse) : Prop
    extends EndedBy clientOrderId 0 response where
  unfilled : response.status ≠ some (.text "FILLED")

section Refusals

variable [HexOrder]

def OwnOrder (signal : NormalizedSignal) (clientOrderId : String) : Prop :=
  clientOrderId ∈ allowedClientOrderIds signal.signalId true

inductive Refused (signal : NormalizedSignal) (calls : List Asked) : Prop
  | oneWayMode {log : EventLog} (hasked : ⟨log, .positionMode, .ok false⟩ ∈ calls)
  | insufficient {log : EventLog} {positions : List PositionRiskItem} {order : CopyMarketOrder}
      (hasked : ⟨log, .positionRisk signal.symbol, .ok positions⟩ ∈ calls)
      (hsignal : order.signal = signal)
      (hquantity : order.localQuantity = (log.loadVirtualLedger.positionFor signal).localQuantity)
      (hfits : reductionFits order positions = some false)
  | rejected {log : EventLog} {parameters : OrderParameters} {error : ProbeError}
      (hasked : ⟨log, .placeOrder parameters, .error error⟩ ∈ calls)
      (hown : OwnOrder signal parameters.newClientOrderId)
      (hreasons : definitivePlaceRejectionReasons error ≠ [])
  | ended {asked : Asked} {clientOrderId : String} {response : OrderResponse}
      (hasked : asked ∈ calls) (hreply : asked.orderReply = some (.ok response))
      (hown : OwnOrder signal clientOrderId) (hended : EndedUnfilled clientOrderId response)
  | absent {log timed listed : EventLog} {clientOrderId : String} {error : ProbeError}
      {now : Time} {clientOrderIds : List JsonText}
      (hasked : [⟨log, .queryOrder signal.symbol clientOrderId, .error error⟩,
        ⟨timed, .clock, now⟩, ⟨listed, .openOrders signal.symbol, .ok clientOrderIds⟩] <:+: calls)
      (hown : OwnOrder signal clientOrderId) (hmissing : queryReportsOrderMissing error = true)
      (hunlisted : .text clientOrderId ∉ clientOrderIds)

theorem Refused.mono {sig : NormalizedSignal} {calls later : List Asked}
    (hr : Refused sig calls) (hc : calls <:+: later) : Refused sig later := by
  cases hr with
  | oneWayMode ha => exact .oneWayMode (hc.subset ha)
  | insufficient ha hsignal hquantity hfits =>
    exact .insufficient (hc.subset ha) hsignal hquantity hfits
  | rejected ha hown hreasons => exact .rejected (hc.subset ha) hown hreasons
  | ended ha hreply hown hended => exact .ended (hc.subset ha) hreply hown hended
  | absent ha hown hmissing hunlisted =>
    exact .absent (ha.trans hc) hown hmissing hunlisted

/-- A receipt of a call that began when the trace had `before` entries: if it is `REJECTED`, an
answer to the call has refused the order. -/
structure RefusedBy (signal : NormalizedSignal) (before : ℕ) (receipt : CopyExecutionReceipt)
    (reached : World) : Prop where
  started : before ≤ reached.trace.length
  refused : receipt.state = .rejected → Refused signal (reached.trace.drop before)

abbrev Refuses (signal : NormalizedSignal) (before : ℕ) (proc : Engine CopyExecutionReceipt)
    (world : World) : Prop :=
  proc.Safe Answers (fun _ => True) (RefusedBy signal before) world

section Calls

variable {sig : NormalizedSignal} {pre : ℕ} {world reached : World}

variable {qry : Query}

omit [HexOrder] in
theorem Answers.started {reply : qry.Reply} (ha : Answers world qry reply reached)
    (hs : pre ≤ world.trace.length) : pre ≤ reached.trace.length := by
  rw [ha.1, List.length_append]
  exact hs.trans (Nat.le_add_right _ _)

omit [HexOrder] in
theorem Answers.drop_eq {reply : qry.Reply}
    (ha : Answers world qry reply reached) (hs : pre ≤ world.trace.length) :
    reached.trace.drop pre = world.trace.drop pre ++ [⟨world.log, qry, reply⟩] := by
  rw [ha.1, List.drop_append_of_le_length hs]

omit [HexOrder] in
theorem Answers.mem_drop {reply : qry.Reply} (ha : Answers world qry reply reached)
    (hs : pre ≤ world.trace.length) : ⟨world.log, qry, reply⟩ ∈ reached.trace.drop pre := by
  rw [ha.drop_eq hs]
  exact List.mem_append_right _ (List.mem_singleton.mpr rfl)

omit [HexOrder] in
theorem Answers.infix_drop {reply : qry.Reply}
    (ha : Answers world qry reply reached) (hs : pre ≤ world.trace.length) :
    world.trace.drop pre <:+: reached.trace.drop pre := by
  rw [ha.drop_eq hs]
  exact (List.prefix_append _ _).isInfix

omit [HexOrder] in
theorem Quiet.grows {α : Type} {proc : Engine α} {signalId : Digest}
    (hq : Quiet signalId proc) (hs : pre ≤ world.trace.length) :
    proc.Safe Answers (fun _ => True) (fun _ later => pre ≤ later.trace.length ∧
        world.trace.drop pre <:+: later.trace.drop pre) world := by
  have hg : proc.Safe Answers (fun later => pre ≤ later.trace.length ∧
        world.trace.drop pre <:+: later.trace.drop pre)
      (fun _ later => pre ≤ later.trace.length ∧
        world.trace.drop pre <:+: later.trace.drop pre) world := by
    apply hq.safe
    · intro earlier later he hw
      rw [hw.1]
      exact he
    · intro earlier qry reply later he _ ha
      exact ⟨ha.started he.1, he.2.trans (ha.infix_drop he.1)⟩
    · exact ⟨hs, List.infix_rfl⟩
  exact hg.weaken fun _ _ => trivial

theorem Quiet.refuses {proc : Engine CopyExecutionReceipt} {signalId : Digest}
    (hq : Quiet signalId proc) (hs : pre ≤ world.trace.length)
    (hre : proc.Safe Answers (fun _ => True)
      (fun rcpt _ => rcpt.state = .rejected → Refused sig (world.trace.drop pre))
      world) : Refuses sig pre proc world := by
  apply (((hq.grows hs).and hre).weaken fun _ _ => trivial).mono
  rintro rcpt later ⟨⟨hl, hc⟩, hst⟩
  exact ⟨hl, fun hr => (hst hr).mono hc⟩

end Calls

omit [HexOrder] in
theorem mapExchangeState_rejected_status {status : String} {filled : Decimal} {reconciled : Bool}
    (hs : (mapExchangeState status filled reconciled).1 = .rejected) :
    status ∈ terminalStatuses ∧ status ≠ "FILLED" := by
  unfold mapExchangeState at hs
  unfold terminalStatuses
  repeat' split at hs
  all_goals simp_all

section Responses

variable {sig : NormalizedSignal} {pre : ℕ} {world : World} {ord : CopyMarketOrder}
  {orderId : String} {resp : OrderResponse}

omit [HexOrder] in
theorem receiptFromResponse_rejected (reconciled : Bool) (codes : List String) :
    (receiptFromResponse ord orderId resp reconciled codes).Safe Answers (fun _ => True)
      (fun rcpt _ => rcpt.state = .rejected → EndedUnfilled orderId resp)
      world := by
  unfold receiptFromResponse
  split
  · rw [Proc.safe_bind]
    apply (recordNow_at (callAt_start world) _ _ _ _ _ _).mono
    intro _ reached _ hr
    cases hr
  · rename_i status filled price hread
    obtain ⟨hc, hs, he, hn, -⟩ := readResponse_fields hread
    rw [Proc.safe_bind]
    apply (terminationReasons_at (callAt_start world) _ _ _).mono
    intro additional timed _
    rw [Proc.safe_bind]
    apply (recordNow_at (callAt_start timed) _ _ _ _ _ _).mono
    intro _ reached _ hr
    obtain ⟨ht, ho⟩ := mapExchangeState_rejected_status hr
    have hz : filled = 0 := le_antisymm (mapExchangeState_rejected hr) hn
    rw [hz] at he
    refine ⟨⟨hc, ⟨status, ht, hs⟩, he⟩, ?_⟩
    rw [hs]
    simpa using ho

theorem receiptFromResponse_refuses (hs : pre ≤ world.trace.length)
    (hr : EndedUnfilled orderId resp → Refused sig (world.trace.drop pre))
    (reconciled : Bool) (codes : List String) : Refuses sig pre
      (receiptFromResponse ord orderId resp reconciled codes) world := by
  refine (receiptFromResponse_records ord orderId _ _ _).looks.quiet.refuses hs ?_
  apply (receiptFromResponse_rejected _ _).mono
  exact fun rcpt _ he hre => hr (he hre)

theorem Answers.refused_of_ended {qry : Query} {reply : qry.Reply} {asked : World}
    (ha : Answers world qry reply asked) (hs : pre ≤ world.trace.length) (ho : OwnOrder sig orderId)
    (hr : (⟨world.log, qry, reply⟩ : Asked).orderReply = some (.ok resp))
    (he : EndedUnfilled orderId resp) : Refused sig (asked.trace.drop pre) :=
  .ended (ha.mem_drop hs) hr ho he

theorem queryFillPrice_refuses (hown : OwnOrder sig orderId)
    (codes : List String) (retries : ℕ) (hs : pre ≤ world.trace.length) :
    (queryFillPrice ord orderId codes retries).Safe Answers (fun _ => True)
      (fun queried reached => ∀ rcpt ∈ queried, RefusedBy sig pre rcpt reached)
      world := by
  induction retries generalizing world with
  | zero => exact fun rcpt hn => by cases hn
  | succ retries ih =>
    simp only [queryFillPrice, queryOrder, Proc.safe_bind, Proc.safe_question, true_and]
    intro reply asked han
    have ha := han.started hs
    split
    · exact ih ha
    split
    · rw [Proc.safe_bind]
      apply (receiptFromResponse_refuses ha (han.refused_of_ended hs hown rfl) _ _).mono
      intro rcpt reached hr other ho
      cases ho
      exact hr
    · exact ih ha

variable (cfg : ExecutorSettings)

theorem receiptWithImmediateFillPrice_refuses (ho : OwnOrder sig orderId)
    (hs : pre ≤ world.trace.length)
    (hre : EndedUnfilled orderId resp → Refused sig (world.trace.drop pre))
    (reconciled : Bool) (codes : List String) :
    Refuses sig pre (receiptWithImmediateFillPrice cfg ord orderId resp
      reconciled codes) world := by
  simp only [Refuses, receiptWithImmediateFillPrice, Proc.safe_bind]
  apply (receiptFromResponse_refuses hs hre _ _).mono
  intro rcpt reached hr
  split
  · rename_i hmissing
    -- a receipt whose price is missing is final, and the queries only add its price
    have ht : rcpt.isTerminal = true := by
      simp only [CopyExecutionReceipt.priceMissing, Bool.and_eq_true] at hmissing
      exact hmissing.1.1
    rw [Proc.safe_bind]
    have hqu := (queryFillPrice_looks ord orderId codes cfg.fillPriceRetries).quiet
    apply (((hqu.grows hr.started).and
      (queryFillPrice_refuses ho _ _ hr.started)).weaken fun _ _ => trivial).mono
    rintro queried asked ⟨⟨ha, -⟩, hq⟩
    split
    · exact hq _ rfl
    · rw [Proc.safe_bind]
      apply ((recordNow_records _ _ _ _
        (CopyExecutionState.submission_ne_submitting _)).looks.quiet.grows ha).mono
      rintro _ recorded ⟨hrec, -⟩
      exact ⟨hrec, fun hrej => absurd hrej (state_of_isTerminal ht).1⟩
  · exact hr

theorem rejectAndRecord_refuses (hs : pre ≤ world.trace.length)
    (hr : Refused sig (world.trace.drop pre)) (codes : List String) :
    Refuses sig pre (rejectAndRecord ord orderId codes) world := by
  refine (rejectAndRecord_records ord orderId _).looks.quiet.refuses hs ?_
  rw [rejectAndRecord, Proc.safe_bind]
  apply (recordNow_at (callAt_start world) _ _ _ _ _ _).mono
  exact fun _ _ _ _ => hr

theorem unknownAndRecord_refuses (hs : pre ≤ world.trace.length) (codes : List String) :
    Refuses sig pre (unknownAndRecord ord orderId codes) world := by
  refine (unknownAndRecord_records ord orderId _).looks.quiet.refuses hs ?_
  apply (unknownAndRecord_at (callAt_start world) _).mono
  rintro _ _ ⟨rfl, -⟩ hr
  cases hr

theorem reconcileAfterUncertainSubmit_refuses (ho : OwnOrder sig orderId)
    (hs : pre ≤ world.trace.length) (codes : List String) : Refuses sig pre
      (reconcileAfterUncertainSubmit cfg ord orderId codes) world := by
  simp only [Refuses, reconcileAfterUncertainSubmit, queryOrder, Proc.safe_bind,
    Proc.safe_question, true_and]
  intro reply asked ha
  have has := ha.started hs
  split
  · exact unknownAndRecord_refuses has _
  · exact receiptWithImmediateFillPrice_refuses cfg ho has (ha.refused_of_ended hs ho rfl) _ _

theorem placeAndReconcile_refuses (ho : OwnOrder sig orderId)
    (hs : pre ≤ world.trace.length) (codes : List String) :
    Refuses sig pre (placeAndReconcile cfg ord orderId codes)
      world := by
  simp only [Refuses, placeAndReconcile, placeOrder, Proc.safe_bind, Proc.safe_question, true_and]
  intro reply asked ha
  have has := ha.started hs
  split
  · split
    · rename_i hreasons
      exact rejectAndRecord_refuses has (.rejected (ha.mem_drop hs) ho hreasons) _
    · exact reconcileAfterUncertainSubmit_refuses cfg ho has _
  · exact receiptWithImmediateFillPrice_refuses cfg ho has (ha.refused_of_ended hs ho rfl) _ _

omit [HexOrder] in
theorem submissionDefinitivelyAbsent_asks (error : ProbeError) (claimedAt : Time) :
    (submissionDefinitivelyAbsent ord orderId error claimedAt).Safe Answers (fun _ => True)
      (fun absent reached => absent = true → queryReportsOrderMissing error = true ∧
        ∃ timed listed now clientOrderIds, .text orderId ∉ clientOrderIds ∧
          reached.trace = world.trace ++ [⟨timed, .clock, now⟩,
            ⟨listed, .openOrders ord.signal.symbol, .ok clientOrderIds⟩]) world := by
  unfold submissionDefinitivelyAbsent
  split
  · rename_i hm
    simp only [clock, openOrders, Proc.safe_bind, Proc.safe_question, true_and]
    intro now timed ht
    split
    · intro ha
      cases ha
    simp only [Proc.safe_bind, Proc.safe_question, true_and]
    intro listing listed hl
    split
    · intro ha
      cases ha
    · rename_i clientOrderIds
      intro ha
      refine ⟨hm, world.log, timed.log, now, clientOrderIds, ?_, ?_⟩
      · intro hmem
        simp only [Bool.not_eq_true', List.any_eq_false, decide_eq_true_eq] at ha
        exact ha _ hmem rfl
      · rw [hl.1, ht.1, List.append_assoc]
        rfl
  · intro ha
    cases ha

omit [HexOrder] in
theorem CopyMarketOrder.market_of_reduce (hk : ord.signal.kind = .reduce) :
    ord.orderType = .market := by
  have hp := ord.policy
  unfold OrderPolicy at hp
  split at hp
  · assumption
  · rw [hk] at hp
    cases hp.1

theorem reconcileExisting_refuses (hsi : ord.signal = sig) (hk : sig.kind = .reduce)
    (ho : OwnOrder sig orderId) (hs : pre ≤ world.trace.length) (claimedAt : Time) :
    Refuses sig pre (reconcileExisting cfg ord orderId claimedAt) world := by
  subst hsi
  have hm := ord.market_of_reduce hk
  simp only [Refuses, reconcileExisting, queryOrder, Proc.safe_bind, Proc.safe_question, true_and]
  intro reply asked han
  have ha := han.started hs
  split
  · rename_i error
    rw [Proc.safe_bind]
    have hq := (submissionDefinitivelyAbsent_looks ord orderId error claimedAt).quiet
    apply (((hq.grows ha).and (submissionDefinitivelyAbsent_asks error claimedAt)).weaken
      fun _ _ => trivial).mono
    rintro absent reached ⟨⟨hr, -⟩, hab⟩
    split
    · rename_i hfound
      obtain ⟨hmi, timed, listed, now, clientOrderIds, hu, htr⟩ := hab hfound
      rw [CopyMarketOrder.isPersistentEntry, hm, if_neg (by simp)]
      have hc : [⟨world.log, .queryOrder ord.signal.symbol orderId, .error error⟩,
          ⟨timed, .clock, now⟩, ⟨listed, .openOrders ord.signal.symbol, .ok clientOrderIds⟩] <:+:
          reached.trace.drop pre := by
        rw [htr, List.drop_append_of_le_length ha, han.drop_eq hs, List.append_assoc]
        exact (List.suffix_append _ _).isInfix
      exact rejectAndRecord_refuses hr (.absent hc ho hmi hu) _
    · exact ⟨hr, fun hre => by cases hre⟩
  · simp only [clock, Proc.safe_bind, Proc.safe_question, true_and]
    intro now timed ht
    rw [hm, if_neg (by simp)]
    refine receiptWithImmediateFillPrice_refuses cfg ho (ht.started ha) ?_ _ _
    intro he
    exact (han.refused_of_ended hs ho rfl he).mono (ht.infix_drop ha)

theorem ownOrder_copyClientOrderId (sig : NormalizedSignal) (env : BinanceFuturesEnvironment) :
    OwnOrder sig (copyClientOrderId sig.signalId env) := by
  cases env <;> simp [OwnOrder, allowedClientOrderIds]

theorem ownOrder_of_restoredOrder {claim : SubmissionClaim}
    (hr : claim.restoredOrder sig = some ord) : OwnOrder sig claim.clientOrderId := by
  unfold SubmissionClaim.restoredOrder at hr
  split at hr
  · cases hr
  · rename_i hconsistent
    have ha := not_not.mp (not_or.mp hconsistent).2
    unfold allowedClientOrderIds at ha
    unfold OwnOrder allowedClientOrderIds
    rw [if_pos rfl]
    rcases List.mem_append.mp ha with hf | hu
    · exact List.mem_append_left _ hf
    · split at hu
      · exact List.mem_append_right _ hu
      · cases hu

theorem reconcileClaim_refuses (hsi : ord.signal = sig) (hk : sig.kind = .reduce)
    (hs : pre ≤ world.trace.length) (claim : SubmissionClaim) :
    Refuses sig pre (reconcileClaim cfg ord claim) world := by
  subst hsi
  unfold reconcileClaim
  split
  · exact unknownAndRecord_refuses hs _
  · rename_i restored hrestored
    exact reconcileExisting_refuses cfg (restoredOrder_signal hrestored) hk
      (ownOrder_of_restoredOrder hrestored) hs _

theorem submitOrder_refuses (hsi : ord.signal = sig) (hk : sig.kind = .reduce)
    (ho : OwnOrder sig orderId) (hs : pre ≤ world.trace.length) :
    Refuses sig pre (submitOrder cfg ord orderId) world := by
  simp only [Refuses, submitOrder, claimSubmission, clock, readLog, Proc.safe_bind,
    Proc.safe_question, Proc.safe_transact, true_and]
  intro now asked han
  have ha := han.started hs
  split
  · exact placeAndReconcile_refuses cfg ho (by exact ha) _
  rw [Proc.safe_bind, Proc.safe_read]
  refine ⟨trivial, ?_⟩
  split
  · exact ⟨ha, fun hr => by cases hr⟩
  · exact reconcileClaim_refuses cfg hsi hk (by exact ha) _

theorem EventLog.positionFor_of_positions {log post : EventLog}
    (hp : post.positions = log.positions) (sig : NormalizedSignal) :
    post.loadVirtualLedger.positionFor sig = log.loadVirtualLedger.positionFor sig := by
  rw [EventLog.positionFor_loadVirtualLedger, EventLog.positionFor_loadVirtualLedger,
    EventLog.latestPosition, EventLog.latestPosition, hp]

theorem execute_refuses (hsi : ord.signal = sig) (hk : sig.kind = .reduce)
    (hq : world.log.lookup sig.signalId = none →
      ord.localQuantity = (world.log.loadVirtualLedger.positionFor sig).localQuantity)
    {risk : AccountRiskDecision} (hr : risk.allowExecution = true) (hs : pre ≤ world.trace.length) :
    Refuses sig pre (execute cfg ord risk) world := by
  subst hsi
  have ho := ownOrder_copyClientOrderId ord.signal cfg.environment
  simp only [Refuses, execute, readLog, Proc.safe_bind, Proc.safe_read, true_and]
  split
  · exact reconcileClaim_refuses cfg rfl hk hs _
  rename_i hunclaimed
  rw [hr, if_neg (by simp)]
  simp only [positionMode, Proc.safe_bind, Proc.safe_question, true_and]
  intro mode asked has
  have ha := has.started hs
  split
  · exact Proc.safe_halt
  · exact ⟨ha, fun _ => .oneWayMode (has.mem_drop hs)⟩
  rw [hk, if_neg (by simp)]
  simp only [positionRisk, Proc.safe_bind, Proc.safe_question, true_and]
  intro positions listed hli
  have hl := hli.started ha
  split
  · exact Proc.safe_halt
  split
  · exact Proc.safe_halt
  · exact submitOrder_refuses cfg rfl hk ho hl
  · rename_i hfits
    refine ⟨hl, fun _ =>
      .insufficient (hli.mem_drop ha) rfl ?_ hfits⟩
    rw [hq hunclaimed, EventLog.positionFor_of_positions has.2.positions]

end Responses

end Refusals

end AiQuant.CopyTrading
