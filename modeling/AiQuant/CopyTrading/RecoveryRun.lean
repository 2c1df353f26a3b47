import AiQuant.CopyTrading.ReceiptSoundness

/-! Recovery of a claimed reduction.  `_process_signal` plans a reduction on the ledger
as it is now, also when its order was claimed on an earlier one, and attributes what the
exchange reports of the order only if both plans ask for the same quantity. -/
namespace AiQuant.CopyTrading
open AiQuant.Lib

structure SameFills (before after : EventLog) : Prop where
  positions : after.positions = before.positions
  pnls : after.pnls = before.pnls

theorem SameFills.refl (log : EventLog) : SameFills log log := ⟨rfl, rfl⟩

variable {log : EventLog}

theorem SameFills.trans {post last : EventLog} (hf : SameFills log post)
    (hs : SameFills post last) : SameFills log last :=
  ⟨hs.positions.trans hf.positions, hs.pnls.trans hf.pnls⟩

theorem Outside.sameFills {post : EventLog} (ho : Outside log post) : SameFills log post :=
  ⟨ho.positions, ho.pnls⟩

theorem sameFills_recordSubmission (ev : SubmissionEvent) :
    SameFills log (log.recordSubmission ev) := by
  unfold EventLog.recordSubmission
  split <;> exact ⟨rfl, rfl⟩

theorem sameFills_recordSignalDecision (sig : NormalizedSignal)
    (st : DecisionState) (amount : Decimal) (codes : List String) (time : Time) :
    SameFills log (log.recordSignalDecision sig st amount codes time) := by
  dsimp only [EventLog.recordSignalDecision]
  split <;> exact ⟨rfl, rfl⟩

section Recovery

variable [HexOrder] {log post : EventLog} {key : VirtualPositionKey} {sig : NormalizedSignal}

structure Accounted (log : EventLog) : Prop where
  once : AttributedOnce log
  fills : ∀ key, log.Increasing key → ∃ fills, FillRun key fills (log.latestPnl key)

theorem Accounted.of_tables (ha : Accounted log) (ho : AttributedOnce post)
    (hp : post.positions = log.positions) (hpn : post.pnls = log.pnls) : Accounted post := by
  refine ⟨ho, ?_⟩
  intro key hi
  rw [EventLog.Increasing, EventLog.keyPositions, hp] at hi
  rw [EventLog.latestPnl, hpn]
  exact ha.fills key hi

theorem Accounted.attributes (hac : Accounted log) (ho : AttributedOnce post)
    {fill : FillRecord} {prev res : PnlState} {slot : LeaderSlot}
    {pnl : Decimal} (hr : log.recordVirtualPosition fill = .ok post)
    (ha : log.Attributes fill post prev res slot pnl) : Accounted post := by
  refine ⟨ho, ?_⟩
  intro key hi
  by_cases hk : fill.signal.key = key
  · subst hk
    have hl : post.latestPnl fill.signal.key =
        some (fill.pnlEvent slot prev res pnl) := by
      rw [(ho.ordered _ hi).latestPnl, ha.keyPnls_eq, List.getLast?_concat]
    rw [EventLog.Increasing, ha.keyPositions_eq, List.pairwise_append] at hi
    obtain ⟨fills, hf⟩ := hac.fills _ hi.1
    rw [hl]
    exact ⟨_, .record hf rfl rfl hr (by rw [ha.after_eq])⟩
  · have hp : post.latestPnl key = log.latestPnl key := by
      rw [ha.after_eq]
      simp [EventLog.latestPnl, FillRecord.pnlEvent, hk]
    rw [EventLog.Increasing, ha.keyPositions_of_ne hk] at hi
    rw [hp]
    exact hac.fills key hi

theorem accounted_rules : LogRules (fun _ => True) Accounted where
  start hstored hu := by
    refine ⟨attributedOnce_rules.start hstored hu, ?_⟩
    intro key _
    simp only [EventLog.latestPnl, hu.pnls, List.filter_nil, newest_nil]
    exact ⟨[], .start⟩
  keyed ha := ha.once.keyed
  related_of_row _ _ _ := trivial
  writes ha hw := by
    have hon := attributedOnce_rules.writes ha.once hw
    rcases hw.cases with ⟨claims, submissions, -, rfl⟩ | ⟨-, ev, -, -, rfl⟩ |
      ⟨fill, prev, res, slot, pnl, -, -, -, hr, hat⟩ |
      ⟨controls, -, rfl⟩
    · exact ha.of_tables hon rfl rfl
    · exact ha.of_tables hon rfl rfl
    · exact ha.attributes hon hr hat
    · exact ha.of_tables hon rfl rfl
  controls eventId time ha := by
    have hon := attributedOnce_rules.controls eventId time ha.once
    obtain ⟨rows, hl, -⟩ := ensureControlReductionSignals_spec _ eventId time
    rw [hl] at hon ⊢
    exact ha.of_tables hon rfl rfl
  outside ha ho :=
    ha.of_tables (attributedOnce_rules.outside ha.once ho) ho.positions ho.pnls

structure KeyAccount (key : VirtualPositionKey) (log : EventLog) : Prop where
  attribution : AttributionInvariant key log
  fills : ∃ fills, FillRun key fills (log.latestPnl key)

theorem Accounted.keyAccount (ha : Accounted log) (hi : log.Increasing key) : KeyAccount key log :=
  ⟨ha.once.ordered key hi, ha.fills key hi⟩

theorem KeyAccount.of_sameFills (ha : KeyAccount key log) (hs : SameFills log post) :
    KeyAccount key post := by
  refine ⟨ha.attribution.of_tables hs.positions hs.pnls, ?_⟩
  rw [EventLog.latestPnl, hs.pnls]
  exact ha.fills

theorem KeyAccount.reduction_accepted {fill : FillRecord}
    (ha : KeyAccount fill.signal.key log) (hv : fill.Valid) (hp : fill.previous.localQuantity =
      (log.loadVirtualLedger.positionFor fill.signal).localQuantity)
    (hre : fill.localDelta < 0) : ∃ post, log.recordVirtualPosition fill = .ok post := by
  obtain ⟨hat, fills, hf⟩ := ha
  have ha := pnlAccount_of_fillRun hf
  have hq : (pnlStateOf (log.latestPnl fill.signal.key)).quantity =
      fill.previous.localQuantity := by
    rw [hat.pnl_quantity, hp, hat.position_quantity rfl]
  have hh : -fill.localDelta ≤ fill.previous.localQuantity := by
    have hres := fill.updated.localQuantity_nonneg
    rw [FillRecord.localDelta]
    linarith
  have ho : 0 < fill.previous.localQuantity := by linarith
  cases hl : log.latestPnl fill.signal.key with
  | none =>
    rw [hl] at hq
    exact absurd hq ho.ne
  | some ev =>
    rw [hl] at hq ha
    have hr : ev.resultingQuantity = fill.previous.localQuantity := hq
    have hpnl : log.previousPnl fill.previous = .ok (pnlStateOf (some ev)) := by
      rw [EventLog.previousPnl, hv.1, hl]
      dsimp only
      rw [if_neg (not_not.mpr hr), ← hr]
      rfl
    have hs : log.fillSlot fill.previous fill.occurredAt = .ok (log.pnlSlot ev) := by
      rw [EventLog.fillSlot, if_pos ho, hv.1, hl]
    obtain ⟨result, hu⟩ := ha.reduction_accepted (neg_pos.mpr hre)
      (hh.trans hq.ge) fill.referencePrice
    have hu : leaderPnlUpdate fill.signal.positionSide (pnlStateOf (some ev))
        fill.localDelta fill.referencePrice = .ok result := hu
    rw [EventLog.recordVirtualPosition, if_neg (not_not.mpr hv)]
    split
    · exact ⟨log, rfl⟩
    · rw [hpnl, hs]
      show ∃ post, (leaderPnlUpdate fill.signal.positionSide (pnlStateOf (some ev))
        fill.localDelta fill.referencePrice >>= fun upd => _) = .ok post
      rw [hu]
      exact ⟨_, rfl⟩

/-- The order of a signal's claim, with the client order id it was placed under. -/
def EventLog.durableOrder (log : EventLog) (signal : NormalizedSignal) :
    Option (CopyMarketOrder × String) :=
  (log.lookup signal.signalId).bind fun claim =>
    (claim.restoredOrder signal).map fun order => (order, claim.clientOrderId)

theorem durableOrder_of_append {added : List SubmissionClaimRow}
    {durable : CopyMarketOrder × String} (hc : post.claims = log.claims ++ added)
    (hu : post.policyUpgrades = log.policyUpgrades) (hd : log.durableOrder sig = some durable) :
    post.durableOrder sig = some durable := by
  unfold EventLog.durableOrder EventLog.lookup at hd ⊢
  rw [hc, hu]
  cases hf : log.claims.find? (·.signalId = sig.signalId) with
  | none =>
    rw [hf] at hd
    cases hd
  | some claim =>
    rw [hf] at hd
    rw [List.find?_append, hf]
    exact hd

theorem Transaction.durableOrder {rel : NormalizedSignal → Prop}
    {durable : CopyMarketOrder × String} (hw : Transaction rel log post)
    (hd : log.durableOrder sig = some durable) : post.durableOrder sig = some durable := by
  obtain ⟨hu, hc | ⟨ord, env, now, -, -, hc⟩⟩ := hw.claims_cases
  · exact durableOrder_of_append (hc.trans (List.append_nil _).symm) hu hd
  · exact durableOrder_of_append (by rw [hc]) hu hd

structure Recoverable (signal : NormalizedSignal) (order : CopyMarketOrder)
    (clientOrderId : String) (log : EventLog) : Prop where
  accounted : Accounted log
  stored : log.SignalsStored
  row : ∃ row ∈ log.signals, row.signalId = signal.signalId ∧ row.signalKind = .reduce
  durable : log.durableOrder signal = some (order, clientOrderId)
  unattributed : ∀ event ∈ log.positions, event.signalId ≠ signal.signalId

variable {env : World → (qry : Query) → qry.Reply → World → Prop} {ord : CopyMarketOrder}
  {orderId : String}

theorem recoverable_rules (ha : ∀ {pre qry reply post}, env pre qry reply post →
      Answers pre qry reply post) : EngineRules env (fun other => other.signalId ≠ sig.signalId)
      fun world => Recoverable sig ord orderId world.log where
  keyed hworld := hworld.accounted.once.keyed
  pending hworld hentry := hworld.stored.pending_ne hworld.row hentry
  asks hbefore henv := by
    obtain ⟨-, ho⟩ := ha henv
    obtain ⟨row, hrow, hv⟩ := hbefore.row
    refine ⟨⟨accounted_rules.outside hbefore.accounted ho, ho.stored hbefore.stored,
      ⟨row, ho.signals row hrow, hv⟩, ?_, ?_⟩, ho.submissions,
      ho.lookup_eq⟩
    · exact durableOrder_of_append (ho.claims.trans (List.append_nil _).symm)
        ho.policyUpgrades hbefore.durable
    · rw [ho.positions]
      exact hbefore.unattributed
  writes hbefore hw _ := by
    have hu := hbefore.unattributed
    obtain ⟨row, hrow, hv⟩ := hbefore.row
    refine ⟨accounted_rules.writes hbefore.accounted (hw.mono fun _ _ => trivial),
      hw.stored hbefore.stored, ⟨row, hw.signals_eq ▸ hrow, hv⟩,
      hw.durableOrder hbefore.durable, ?_⟩
    intro ev hm
    rcases hw.positions_added ev hm with hold | ⟨fill, hot, -, rfl⟩
    · exact hu ev hold
    · exact hot

def TerminalReport (order : CopyMarketOrder) (clientOrderId : String) (filled : Decimal)
    (response : OrderResponse) : Prop :=
  ∃ status price, readResponse order clientOrderId response = some (status, filled, price) ∧
    0 < filled ∧ 0 < price ∧ status ∈ ["FILLED", "CANCELED", "EXPIRED", "REJECTED"]

/-- A world in which the exchange reports the fill whenever it is asked for the order. -/
structure ReportsFill (env : World → (query : Query) → query.Reply → World → Prop)
    (order : CopyMarketOrder) (clientOrderId : String) (filled : Decimal) : Prop where
  answers : ∀ {before query reply after}, env before query reply after →
    Answers before query reply after
  reported : ∀ {before reply after},
    env before (.queryOrder order.signal.symbol clientOrderId) reply after →
      ∃ response, reply = .ok response ∧ TerminalReport order clientOrderId filled response

structure FillReceipt (order : CopyMarketOrder) (filled : Decimal)
    (receipt : CopyExecutionReceipt) : Prop where
  terminal : receipt.isTerminal = true
  requested : receipt.requestedQuantity = order.localQuantity
  quantity : receipt.filledQuantity = filled
  quantity_pos : 0 < filled
  quantity_le : filled ≤ order.localQuantity
  price_pos : 0 < receipt.averagePrice
  leverage : receipt.leverage = order.leverage

omit [HexOrder] in
theorem isTerminal_of_mapExchangeState {status : String} {filled : Decimal} (hf : 0 < filled)
    (hst : status ∈ ["FILLED", "CANCELED", "EXPIRED", "REJECTED"])
    {rcpt : CopyExecutionReceipt} (hs : rcpt.state = (mapExchangeState status filled true).1)
    (hc : ∀ code ∈ (mapExchangeState status filled true).2,
      code ∉ ["COPY_ORDER_CANCELED", "COPY_ORDER_EXPIRED"] → code ∈ rcpt.reasonCodes) :
    rcpt.isTerminal = true := by
  have hu : status ≠ "FILLED" → mapExchangeState status filled true =
      (.partiallyFilled, ["COPY_ORDER_PARTIAL_TERMINAL", "COPY_ORDER_" ++ status]) := by
    intro hn
    simp only [List.mem_cons, List.not_mem_nil, or_false] at hst
    rcases hst with rfl | rfl | rfl | rfl
    · exact absurd rfl hn
    · simp [mapExchangeState, hf]
    · simp [mapExchangeState, hf]
    · simp [mapExchangeState, hf]
  by_cases hd : status = "FILLED"
  · subst hd
    simp [CopyExecutionReceipt.isTerminal, hs, mapExchangeState]
  · rw [hu hd] at hs hc
    have hco := hc "COPY_ORDER_PARTIAL_TERMINAL" (by simp) (by decide)
    simp [CopyExecutionReceipt.isTerminal, hs, hco]

variable {filled : Decimal} {world : World}

section

variable (hr : ReportsFill env ord orderId filled)
include hr

omit [HexOrder] in
theorem recordNow_ends (signalId : Digest) (st : SubmissionState) (qty : Decimal)
    (exchangeOrderId : Option String) (resp : Option OrderResponse) (codes : List String) :
    (recordNow signalId st qty exchangeOrderId resp codes).Ends env
      (fun _ reached => SameFills world.log reached.log) world := by
  simp only [recordNow, clock, writeLog, Proc.ends_bind, Proc.ends_question, Proc.ends_write]
  intro time asked he
  exact (hr.answers he).2.sameFills.trans (sameFills_recordSubmission _)

omit [HexOrder] in
theorem terminationReasons_ends (status : String) (codes : List String) :
    (terminationReasons ord status codes).Ends env
      (fun _ reached => SameFills world.log reached.log) world := by
  unfold terminationReasons
  split
  · simp only [clock, Proc.ends_bind, Proc.ends_question]
    intro now asked he
    split <;> exact (hr.answers he).2.sameFills
  · exact .refl _

omit [HexOrder] in
theorem receiptFromResponse_ends {resp : OrderResponse}
    (hrep : TerminalReport ord orderId filled resp) (additionalReasonCodes : List String) :
    (receiptFromResponse ord orderId resp true additionalReasonCodes).Ends env
      (fun rcpt reached => FillReceipt ord filled rcpt ∧
        SameFills world.log reached.log) world := by
  obtain ⟨status, price, hread, hf, hp, hs⟩ := hrep
  unfold receiptFromResponse
  rw [hread]
  simp only [Proc.ends_bind, Proc.ends_pure]
  apply (terminationReasons_ends hr _ _).mono
  intro additional asked ha
  apply (recordNow_ends hr _ _ _ _ _ _).mono
  intro _ recorded hre
  obtain ⟨-, -, -, -, hle⟩ := readResponse_fields hread
  refine ⟨⟨?_, rfl, rfl, hf, hle, hp, rfl⟩, ha.trans hre⟩
  apply isTerminal_of_mapExchangeState hf hs rfl
  intro code hc hk
  rw [List.mem_eraseDups, List.mem_append]
  right
  split
  · exact List.mem_filter.mpr ⟨hc, decide_eq_true hk⟩
  · exact hc

theorem execute_ends (hd : world.log.durableOrder ord.signal = some (ord, orderId))
    (cfg : ExecutorSettings) (riskDecision : AccountRiskDecision) :
    (execute cfg ord riskDecision).Ends env (fun rcpt reached => FillReceipt ord filled rcpt ∧
        SameFills world.log reached.log) world := by
  obtain ⟨claim, hl, hc⟩ := Option.bind_eq_some_iff.mp hd
  obtain ⟨restored, hres, hpa⟩ := Option.map_eq_some_iff.mp hc
  obtain ⟨rfl, rfl⟩ := Prod.mk.inj hpa
  simp only [execute, readLog, Proc.ends_bind, Proc.ends_read, hl, reconcileClaim, hres,
    reconcileExisting, queryOrder, Proc.ends_question]
  intro reply queried he
  have hq := (hr.answers he).2.sameFills
  obtain ⟨resp, rfl, hrep⟩ := hr.reported he
  simp only [clock, Proc.ends_bind, Proc.ends_question]
  intro now asked he
  have ha := hq.trans (hr.answers he).2.sameFills
  have ho : ¬ (restored.orderType = .limit ∧ restored.expiresAt.any (· ≤ now) ∧
      resp.status ∈ [some (.text "NEW"), some (.text "PARTIALLY_FILLED")]) := by
    obtain ⟨status, price, hread, -, -, hs⟩ := hrep
    rintro ⟨-, -, ho⟩
    obtain ⟨-, hrepo, -⟩ := readResponse_fields hread
    rw [hrepo] at ho
    simp only [List.mem_cons, List.not_mem_nil, or_false, Option.some.injEq,
      JsonText.text.injEq] at ho hs
    rcases ho with rfl | rfl <;> simp at hs
  rw [if_neg ho, receiptWithImmediateFillPrice, Proc.ends_bind]
  apply (receiptFromResponse_ends hr hrep []).mono
  rintro rcpt recorded ⟨hre, hrec⟩
  have hp : rcpt.priceMissing = false := by
    simp [CopyExecutionReceipt.priceMissing, hre.price_pos.not_ge]
  rw [hp]
  exact ⟨hre, ha.trans hrec⟩

end

/-- The fill of a reduction is in the virtual ledger. -/
def EventLog.AttributedReduction (log : EventLog) (signal : NormalizedSignal)
    (filled : Decimal) : Prop :=
  ∃ event ∈ log.positions, event.signalId = signal.signalId ∧
    event.localQuantityDelta = -filled

structure PlannedOn (signal : NormalizedSignal) (order : CopyMarketOrder) (plan : ReductionPlan)
    (aligned : VirtualPositionLedger) (log : EventLog) : Prop where
  account : KeyAccount signal.key log
  unattributed : ∀ event ∈ log.positions, event.signalId ≠ signal.signalId
  planned : ∃ rules sourceBefore,
    log.loadVirtualLedger.planReduction signal rules sourceBefore = (plan, aligned)
  approved : plan.approved = true
  requested : plan.requestedLocalQuantity = order.localQuantity

variable {plan : ReductionPlan} {aligned : VirtualPositionLedger}

theorem PlannedOn.of_sameFills (hp : PlannedOn sig ord plan aligned log)
    (hs : SameFills log post) : PlannedOn sig ord plan aligned post := by
  refine ⟨hp.account.of_sameFills hs, ?_, ?_, hp.approved, hp.requested⟩
  · rw [hs.positions]
    exact hp.unattributed
  · have hl : post.loadVirtualLedger = log.loadVirtualLedger := by
      simp only [EventLog.loadVirtualLedger, EventLog.latestPosition, hs.positions]
    rw [hl]
    exact hp.planned

theorem attributeReduction_ends (hp : PlannedOn sig ord plan aligned world.log)
    {rcpt : CopyExecutionReceipt} (hr : FillReceipt ord filled rcpt) (time : Time) :
    (attributeReduction sig aligned plan rcpt time).Ends env
      (fun _ reached => reached.log.AttributedReduction sig filled) world := by
  obtain ⟨rules, sourceBefore, hpl⟩ := hp.planned
  obtain ⟨hk, hkey, -, hh, hs⟩ :=
    VirtualPositionLedger.planReduction_requested hpl hp.approved
  have hfi : filled ≤ plan.requestedLocalQuantity := hr.quantity_le.trans hp.requested.ge
  obtain ⟨updated, ledger, hrec, hu, hup⟩ :=
    VirtualPositionLedger.recordReductionFill_isOk hp.approved hkey hr.quantity_pos hfi hh
  unfold attributeReduction
  rw [if_neg (not_not.mpr (hp.requested.trans hr.requested.symm)), hr.quantity, hrec]
  dsimp only
  set fill : FillRecord := {
    signal := sig
    previous := aligned.positionFor sig
    updated := updated
    referencePrice := rcpt.averagePrice
    leverage := rcpt.leverage
    occurredAt := time } with hf
  have hd : fill.localDelta = -filled := by
    rw [FillRecord.localDelta, hf, hup]
    ring
  have hre : fill.localDelta < 0 := by
    rw [hd]
    exact neg_lt_zero.mpr hr.quantity_pos
  have hv : fill.Valid := by
    refine ⟨aligned.positionFor_key sig, hu, hre.ne, ?_, hr.price_pos, ?_⟩
    · have hred : fill.signal.kind = .reduce := hk
      rw [hred]
      exact iff_of_false (by decide) hre.not_gt
    · rw [hf, hr.leverage]
      exact ⟨ord.leverage_pos, ord.leverage_le⟩
  obtain ⟨recorded, ha⟩ := hp.account.reduction_accepted hv hs hre
  obtain ⟨-, hun | ⟨prev, res, slot, pnl, hat⟩⟩ :=
    EventLog.recordVirtualPosition_cases ha
  · obtain ⟨ev, hm, hid⟩ := hun.2
    exact absurd hid (hp.unattributed ev hm)
  simp only [recordVirtualPosition, recordDecision, writeLog, Proc.ends_bind, Proc.ends_transact,
    Proc.ends_write, ha]
  refine ⟨fill.positionEvent, ?_, rfl, hd⟩
  rw [(sameFills_recordSignalDecision _ _ _ _ _).positions, hat.after_eq]
  simp

theorem submitSignal_ends (hre : ReportsFill env ord orderId filled)
    (hs : ord.signal = sig) (hd : world.log.durableOrder sig = some (ord, orderId))
    (hp : PlannedOn sig ord plan aligned world.log) (cfg : RuntimeSettings)
    (hen : cfg.mode.executionEnabled = true) {risk : AccountRiskDecision}
    (hri : risk.allowExecution = true) (amount : Decimal) (now : Time) :
    (submitSignal cfg sig ord amount risk (attributeReduction sig aligned plan)
      now).Ends env (fun _ reached => reached.log.AttributedReduction sig filled) world := by
  subst hs
  unfold submitSignal
  rw [if_neg (by simp [hen]), if_neg (by simp [hri]), Proc.ends_bind]
  apply (execute_ends hre hd cfg.executor risk).mono
  rintro rcpt executed ⟨hr, he⟩
  have ha : (announceSubmission ord.signal rcpt now).Ends env
      (fun _ reached => SameFills world.log reached.log) executed := by
    unfold announceSubmission
    split
    · exact he
    · exact he.trans (sameFills_recordSignalDecision _ _ _ _ _)
  rw [Proc.ends_bind]
  apply ha.mono
  intro _ announced ha
  simp only [clock, Proc.ends_bind, Proc.ends_question]
  intro clockAt asked henv
  have has := ha.trans (hre.answers henv).2.sameFills
  rw [recordOutcome, if_pos hr.terminal, if_neg (by rw [hr.quantity]; exact hr.quantity_pos.not_ge),
    if_neg hr.price_pos.not_ge]
  exact attributeReduction_ends (hp.of_sameFills has) hr _

/-- Where a recovering call plans: its time, its risk decision, its plan and the ledger
it leaves. -/
structure RecoveryPlan where
  now : Time
  risk : AccountRiskDecision
  plan : ReductionPlan
  aligned : VirtualPositionLedger

/-- `processReduction` as far as its plan: the superseded entries are resolved, and the
reduction is planned on the ledger that is loaded then. -/
def planResolved (settings : RuntimeSettings) (signal : NormalizedSignal)
    (rules : SymbolTradingRules) (risk : AccountRiskDecision) (now : Time) :
    Engine (Option RecoveryPlan) := do
  let sourceBefore ← readLog (·.sourcePositionQuantityBefore signal)
  let resolved ← resolveSuperseded settings signal sourceBefore now
  if resolved = false then return none
  else
    let ledger ← readLog (·.loadVirtualLedger)
    let (plan, aligned) := ledger.planReduction signal rules sourceBefore
    return some ⟨now, risk, plan, aligned⟩

/-- `_process_signal` of a reduction as far as its plan. -/
def reachPlan (settings : RuntimeSettings) (signal : NormalizedSignal) :
    Engine (Option RecoveryPlan) := do
  let now ← clock
  match ← readMarket signal now with
  | .error _ => return none
  | .ok (rules, _, account) =>
    let risk := evaluateAccountRisk {} account signal.kind now
    applyRiskControl settings risk now
    planResolved settings signal rules risk now

/-- The plan asks for the claimed quantity again, on a key whose fills are recorded in
the order of their times, and the account's risk allows it. -/
def Replans (signal : NormalizedSignal) (order : CopyMarketOrder)
    (reached : Option RecoveryPlan) (world : World) : Prop :=
  ∃ recovery, reached = some recovery ∧ recovery.risk.allowExecution = true ∧
    recovery.plan.approved = true ∧
    recovery.plan.requestedLocalQuantity = order.localQuantity ∧
    world.log.Increasing signal.key

theorem processReduction_ends (hrep : ReportsFill env ord orderId filled) (hs : ord.signal = sig)
    (hw : Recoverable sig ord orderId world.log) (cfg : RuntimeSettings)
    (he : cfg.mode.executionEnabled = true) (rules : SymbolTradingRules)
    (risk : AccountRiskDecision) (now : Time)
    (hp : (planResolved cfg sig rules risk now).Ends env (Replans sig ord) world) :
    (processReduction cfg sig (some ord) rules risk now).Ends env
      (fun _ reached => reached.log.AttributedReduction sig filled) world := by
  simp only [planResolved, readLog, Proc.ends_bind, Proc.ends_read] at hp
  simp only [processReduction, readLog, Proc.ends_bind, Proc.ends_read]
  have hru : EngineRules env (fun other => other.signalId ≠ sig.signalId)
      fun world => Recoverable sig ord orderId world.log :=
    recoverable_rules hrep.answers
  apply (hp.and_safe (hru.resolveSuperseded cfg hw _ now)).mono
  rintro resolved reached ⟨hre, hr⟩
  cases resolved with
  | false =>
    obtain ⟨recovery, hn, -⟩ := hre
    cases hn
  | true =>
    obtain ⟨recovery, hrec, hri, ha, hreq, hi⟩ := hre
    cases hrec
    have hpl : PlannedOn sig ord _ _ reached.log :=
      ⟨hr.accounted.keyAccount hi, hr.unattributed, ⟨_, _, rfl⟩, ha, hreq⟩
    simp only [Bool.true_eq_false, if_false, Proc.ends_bind, Proc.ends_read]
    rw [if_neg (by rw [ha]; simp)]
    exact submitSignal_ends hrep hs hr.durable hpl cfg he hri _ _

omit [HexOrder] in
theorem readMarket_reduction (hk : sig.kind = .reduce) (now : Time) :
    (readMarket sig now).Safe env (fun _ => True)
      (fun market _ => ∀ rules limitPrice acct, market = .ok (rules, limitPrice, acct) →
        limitPrice = none) world := by
  simp only [readMarket, Proc.safe_bind, Proc.safe_question]
  intro rulesReply asked _
  refine ⟨trivial, ?_⟩
  split
  · rintro rules limitPrice acct hm
    cases hm
  split
  · rintro rules limitPrice acct hm
    cases hm
  rename_i hl
  rw [Proc.safe_bind, Proc.safe_question]
  intro accountReply read _
  refine ⟨trivial, ?_⟩
  split
  · rintro rules limitPrice acct hm
    cases hm
  · rintro rules limitPrice acct hm
    cases hm
    rw [entryLimitPrice, if_neg (by rw [hk]; decide)] at hl
    cases hl
    rfl

theorem processOpen_ends (hr : ReportsFill env ord orderId filled)
    (hs : ord.signal = sig) (hk : sig.kind = .reduce)
    (hw : Recoverable sig ord orderId world.log) (cfg : RuntimeSettings)
    (he : cfg.mode.executionEnabled = true) (asg : LeaderAssignment) (now : Time)
    (hp : (readMarket sig now).Ends env (fun market read =>
      (match market with
        | .error _ => pure none
        | .ok (rules, _, acct) => do
          applyRiskControl cfg (evaluateAccountRisk {} acct sig.kind now) now
          planResolved cfg sig rules (evaluateAccountRisk {} acct sig.kind now) now :
        Engine (Option RecoveryPlan)).Ends env (Replans sig ord) read) world) :
    (processOpen cfg sig asg (some ord) now).Ends env
      (fun _ reached => reached.log.AttributedReduction sig filled) world := by
  have hru : EngineRules env (fun other => other.signalId ≠ sig.signalId)
      fun world => Recoverable sig ord orderId world.log :=
    recoverable_rules hr.answers
  rw [processOpen, Proc.ends_bind]
  apply ((hp.and_safe (hru.readMarket hw now)).and_safe (readMarket_reduction hk now)).mono
  rintro market read ⟨⟨hm, hre⟩, hn⟩
  cases market with
  | error failure =>
    obtain ⟨recovery, hno, -⟩ := hm
    cases hno
  | ok values =>
    obtain ⟨rules, limitPrice, acct⟩ := values
    cases hn rules limitPrice acct rfl
    dsimp only at hm ⊢
    rw [Proc.ends_bind] at hm ⊢
    apply (hm.and_safe (hru.applyRiskControl cfg hre _ now)).mono
    rintro _ controlled ⟨hp, hc⟩
    exact processReduction_ends hr hs hc cfg he rules _ now hp

end Recovery

section Overtaken

local instance overtakenHexOrder : HexOrder := distinctHexOrder

def filledResponse (clientOrderId : String) : OrderResponse where
  clientOrderId := some (.text clientOrderId)
  status := some (.text "FILLED")
  executedQty := .finite 1
  avgPrice := .finite 100
  cumQuote := .finite 0
  orderId := none

def recoveryReply (lost : Bool) (trace : List Asked) : (query : Query) → query.Reply
  | .placeOrder parameters =>
    if lost then .error (.other "timeout") else .ok (filledResponse parameters.newClientOrderId)
  | .queryOrder _ orderId =>
    if lost then .error (.other "timeout") else .ok (filledResponse orderId)
  | query => exchangeReply trace query

def recoveryAnswer (lost : Bool) (world : World) (query : Query) : query.Reply × World :=
  (recoveryReply lost world.trace query,
    { world with
      trace := world.trace ++ [⟨world.log, query, recoveryReply lost world.trace query⟩] })

theorem answers_recoveryAnswer (lost : Bool) (world : World) (qry : Query) :
    Answers world qry (recoveryAnswer lost world qry).1 (recoveryAnswer lost world qry).2 :=
  answers_traced world qry _

/-- The order of the control reduction, and the id it is placed under. -/
def flattenOrder : CopyMarketOrder :=
  unitOrder (flattenRow.normalized none) .market none (marketPolicy _)

def flattenClientOrderId : String := copyClientOrderId flattenRow.signalId .testnet

def flattenLost : World :=
  ((processSignal {} (flattenRow.normalized none) activeLeader).run (recoveryAnswer true)
    flattenWritten).2

theorem engineRun_flattenLost : EngineRun flattenLost :=
  .process (.control (.outside engineRun_entryRetried (outside_appendRuntimeControl _ _ _ _ _))
      flattening_flattenAsked _) {}
    (show flattenRow ∈ flattenWritten.log.signals by with_unfolding_all decide)
    (flattenRow.describes_normalized _) activeLeader
    (Proc.reaches_run (answers_recoveryAnswer true))

theorem reportsFill_recoveryAnswer :
    ReportsFill (Proc.Replies (recoveryAnswer false)) flattenOrder flattenClientOrderId 1 where
  answers := by
    rintro pre qry reply post ⟨rfl, rfl⟩
    exact answers_recoveryAnswer false pre qry
  reported := by
    rintro pre reply post ⟨rfl, -⟩
    exact ⟨filledResponse flattenClientOrderId, rfl, "FILLED", 100, by decide,
      by norm_num, by norm_num, by simp⟩

def closeRow : SignalRow where
  signalId := .external "reduction"
  deltaEventId := none
  leadPortfolioId := "1"
  symbol := "BTCUSDT"
  positionSide := .long
  signalKind := .reduce
  sourceDeltaQuantity := 1
  referencePrice := 100
  occurredAt := newYear + 3602000000
  signalOrigin := .publicSignal

def closeStored : World :=
  { flattenLost with log := { flattenLost.log with
    signals := flattenLost.log.signals ++ [closeRow] } }

theorem outside_closeStored : Outside flattenLost.log closeStored.log where
  positions := rfl
  pnls := rfl
  decisions := rfl
  claims := rfl
  submissions := rfl
  policyUpgrades := rfl
  signals _ hrow := List.mem_append_left _ hrow
  controls := ⟨[], (List.append_nil _).symm⟩
  stored hs := by
    refine ⟨by with_unfolding_all decide, ?_, ?_, hs.nodup_controls⟩
    · intro row hrow hk
      rcases List.mem_append.mp hrow with ho | hn
      · exact hs.entries row ho hk
      · rw [List.mem_singleton.mp hn] at hk
        cases hk
    · intro row hrow eventId key hid
      rcases List.mem_append.mp hrow with ho | hn
      · exact hs.controls row ho eventId key hid
      · rw [List.mem_singleton.mp hn] at hid
        cases hid

def closeFilled : World :=
  ((processSignal {} (closeRow.normalized none) activeLeader).run (recoveryAnswer false)
    closeStored).2

def flattenRetried : World :=
  ((processSignal {} (flattenRow.normalized none) activeLeader).run (recoveryAnswer false)
    closeFilled).2

theorem engineRun_closeFilled : EngineRun closeFilled :=
  .process (.outside engineRun_flattenLost outside_closeStored) {}
    (show closeRow ∈ closeStored.log.signals by with_unfolding_all decide)
    (closeRow.describes_normalized _) activeLeader
    (Proc.reaches_run (answers_recoveryAnswer false))

end Overtaken

end AiQuant.CopyTrading
