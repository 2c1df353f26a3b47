import AiQuant.CopyTrading.EngineRun
import AiQuant.CopyTrading.PositionRun

/-! Every fill is attributed at most once, whatever stops in between.  A signal's
position event and PnL event come from one transaction; its quantity is the fill of a
journaled receipt; and a retry of an attributed signal only decides. -/
namespace AiQuant.CopyTrading
open AiQuant.Lib

/-- The two rows of one transaction. -/
structure SameTransaction (position : VirtualPositionEvent) (pnl : LeaderPnlEvent) : Prop where
  positionEventId : pnl.positionEventId = position.positionEventId
  signalId : pnl.signalId = position.signalId
  key : pnl.key = position.key
  delta : pnl.localQuantityDelta = position.localQuantityDelta
  quantity : pnl.resultingQuantity = position.resultingLocalQuantity
  time : pnl.observedAt = position.occurredAt

/-- The times of a key's fills strictly increase in the order of their commits. -/
def EventLog.Increasing (log : EventLog) (key : VirtualPositionKey) : Prop :=
  (log.keyPositions key).Pairwise fun left right => left.occurredAt < right.occurredAt

/-- A retry that does nothing but decide that the fill is known. -/
structure OnlyDecides (signal : NormalizedSignal) (filled : Decimal) (before after : EventLog) :
    Prop where
  positions : after.positions = before.positions
  pnls : after.pnls = before.pnls
  claims : after.claims = before.claims
  submissions : after.submissions = before.submissions
  decisions : after.decisions = before.decisions ∨ ∃ event : SignalDecisionEvent,
    after.decisions = before.decisions ++ [event] ∧ event.signalId = signal.signalId ∧
      event.state = .filled ∧ event.localQuantity = filled

theorem signalIds_eq_of_sameTransaction {positions : List VirtualPositionEvent}
    {pnls : List LeaderPnlEvent} (hp : List.Forall₂ SameTransaction positions pnls) :
    pnls.map (·.signalId) = positions.map (·.signalId) := by
  induction hp with
  | nil => rfl
  | cons hs _ ih => rw [List.map_cons, List.map_cons, hs.signalId, ih]

section Once

variable {log post : EventLog}

structure AttributedOnce (log : EventLog) : Prop where
  keyed : ∀ event ∈ log.submissions, event.Keyed
  once : (log.positions.map (·.signalId)).Nodup
  paired : List.Forall₂ SameTransaction log.positions log.pnls
  nonzero : ∀ event ∈ log.positions, event.localQuantityDelta ≠ 0
  receipted : ∀ event ∈ log.positions, log.HasReceipt event.signalId |event.localQuantityDelta|
  ordered : ∀ key, log.Increasing key → AttributionInvariant key log

theorem AttributedOnce.of_tables (ho : AttributedOnce log) (hp : post.positions = log.positions)
    (hpn : post.pnls = log.pnls) (hk : ∀ ev ∈ post.submissions, ev.Keyed)
    (hr : ∀ signalId filled, log.HasReceipt signalId filled → post.HasReceipt signalId filled) :
    AttributedOnce post := by
  refine ⟨hk, ?_, ?_, ?_, ?_, ?_⟩
  · rw [hp]
    exact ho.once
  · rw [hp, hpn]
    exact ho.paired
  · rw [hp]
    exact ho.nonzero
  · rw [hp]
    exact fun ev hm => hr _ _ (ho.receipted ev hm)
  · intro key hi
    rw [EventLog.Increasing, EventLog.keyPositions, hp] at hi
    exact (ho.ordered key hi).of_tables hp hpn

theorem FillRecord.sameTransaction (fill : FillRecord) (slot : LeaderSlot)
    (prev res : PnlState) (pnl : Decimal) :
    SameTransaction fill.positionEvent (fill.pnlEvent slot prev res pnl) :=
  ⟨rfl, rfl, rfl, rfl, rfl, rfl⟩

theorem AttributedOnce.attributedFillQuantity (ho : AttributedOnce log)
    {ev : VirtualPositionEvent} (hm : ev ∈ log.positions) :
    log.attributedFillQuantity ev.signalId = .ok (some |ev.localQuantityDelta|) := by
  have hfi : log.positions.find? (·.signalId = ev.signalId) = some ev := by
    cases hf : log.positions.find? (·.signalId = ev.signalId) with
    | none =>
      rw [List.find?_eq_none] at hf
      exact absurd (decide_eq_true rfl) (hf ev hm)
    | some found =>
      have hs : found.signalId = ev.signalId := by simpa using List.find?_some hf
      rw [List.inj_on_of_nodup_map ho.once (List.mem_of_find?_eq_some hf) hm hs]
  unfold EventLog.attributedFillQuantity
  rw [hfi]
  exact if_neg (not_le.mpr (abs_pos.mpr (ho.nonzero ev hm)))

variable [HexOrder]

theorem AttributedOnce.attributes (ho : AttributedOnce log) {fill : FillRecord}
    {prev res : PnlState} {slot : LeaderSlot} {pnl : Decimal}
    (hrec : log.recordVirtualPosition fill = .ok post) (hv : fill.Valid)
    (hre : log.HasReceipt fill.signal.signalId |fill.localDelta|)
    (ha : log.Attributes fill post prev res slot pnl) : AttributedOnce post := by
  have hp : post.positions = log.positions ++ [fill.positionEvent] := by
    rw [ha.after_eq]
  have hs : post.submissions = log.submissions := by
    rw [ha.after_eq]
  have hr : ∀ signalId filled, log.HasReceipt signalId filled →
      post.HasReceipt signalId filled := by
    intro signalId filled hre
    rwa [EventLog.HasReceipt, hs]
  refine ⟨?_, ?_, ?_, ?_, ?_, ?_⟩
  · rw [hs]
    exact ho.keyed
  · rw [hp, List.map_append, List.nodup_append]
    refine ⟨ho.once, by simp, ?_⟩
    rintro left hl right hri rfl
    obtain ⟨ev, hm, rfl⟩ := List.mem_map.mp hl
    rw [List.map_singleton, List.mem_singleton] at hri
    exact ha.fresh ev hm hri
  · rw [ha.after_eq]
    exact List.rel_append ho.paired
      (.cons (fill.sameTransaction slot prev res pnl) .nil)
  · rw [hp]
    intro ev hm
    rcases List.mem_append.mp hm with hold | hn
    · exact ho.nonzero ev hold
    · rw [List.mem_singleton.mp hn]
      exact hv.2.2.1
  · rw [hp]
    intro ev hm
    rcases List.mem_append.mp hm with hold | hn
    · exact hr _ _ (ho.receipted ev hold)
    · rw [List.mem_singleton.mp hn]
      exact hr _ _ hre
  · intro key hi
    by_cases hkey : fill.signal.key = key
    · subst hkey
      rw [EventLog.Increasing, ha.keyPositions_eq, List.pairwise_append] at hi
      apply (ho.ordered _ hi.1).record _ hrec
      intro _ ev hm
      exact hi.2.2 ev hm fill.positionEvent (by simp)
    · have hk := ha.keyPositions_of_ne hkey
      have hke : post.keyPnls key = log.keyPnls key := by
        rw [ha.after_eq]
        simp [EventLog.keyPnls, FillRecord.pnlEvent, hkey]
      rw [EventLog.Increasing, hk] at hi
      exact (ho.ordered key hi).of_key hk hke

theorem attributedOnce_rules : LogRules (fun _ => True) AttributedOnce where
  start _ hu := by
    constructor
    · simp [hu.submissions]
    · simp [hu.positions]
    · rw [hu.positions, hu.pnls]
      exact .nil
    · simp [hu.positions]
    · simp [hu.positions]
    · intro key _
      constructor
      · simp [EventLog.keyPnls, EventLog.keyPositions, hu.positions, hu.pnls]
      · simp [EventLog.keyPositions, hu.positions]
      · simp [EventLog.filledTotal, EventLog.committedQuantity, EventLog.keyPositions, hu.positions]
  keyed honce := honce.keyed
  related_of_row _ _ _ := trivial
  writes honce ht := by
    have hk := ht.keyed honce.keyed
    have hre := fun signalId filled => @Transaction.hasReceipt _ _ _ _ ht signalId filled
    rcases ht.cases with ⟨claims, submissions, -, rfl⟩ | ⟨-, ev, -, -, rfl⟩ |
      ⟨fill, prev, res, slot, pnl, -, hv, hr, hrec, ha⟩ | ⟨controls, -, rfl⟩
    · exact honce.of_tables rfl rfl hk hre
    · exact honce.of_tables rfl rfl hk hre
    · exact honce.attributes hrec hv hr ha
    · exact honce.of_tables rfl rfl hk hre
  controls eventId time honce := by
    obtain ⟨rows, hl, -⟩ := ensureControlReductionSignals_spec _ eventId time
    rw [hl]
    exact honce.of_tables rfl rfl honce.keyed fun _ _ hr => hr
  outside honce ho := by
    apply honce.of_tables ho.positions ho.pnls
    · rw [ho.submissions]
      exact honce.keyed
    · intro signalId filled hr
      rwa [EventLog.HasReceipt, ho.submissions]

theorem AttributedOnce.retry {world reached : World} (ho : AttributedOnce world.log)
    {ev : VirtualPositionEvent} (hm : ev ∈ world.log.positions) {sig : NormalizedSignal}
    (hs : sig.signalId = ev.signalId) (cfg : RuntimeSettings) (asg : LeaderAssignment)
    (hc : Proc.Reaches Answers world (processSignal cfg sig asg) reached) :
    OnlyDecides sig |ev.localQuantityDelta| world.log reached.log := by
  have hsa : (processSignal cfg sig asg).Safe Answers
      (fun st => OnlyDecides sig |ev.localQuantityDelta| world.log st.log)
      (fun _ _ => True) world := by
    simp only [processSignal, clock, readLog, Proc.safe_bind, Proc.safe_question, Proc.safe_read]
    intro now asked he
    have ha : OnlyDecides sig |ev.localQuantityDelta| world.log asked.log :=
      ⟨he.2.positions, he.2.pnls, he.2.claims, he.2.submissions, Or.inl he.2.decisions⟩
    refine ⟨ha, ha, ?_⟩
    have hat : asked.log.attributedFillQuantity sig.signalId =
        .ok (some |ev.localQuantityDelta|) := by
      rw [EventLog.attributedFillQuantity, he.2.positions, hs]
      exact ho.attributedFillQuantity hm
    rw [hat]
    refine ⟨?_, trivial⟩
    dsimp only [EventLog.recordSignalDecision]
    split
    · exact ha
    · refine ⟨he.2.positions, he.2.pnls, he.2.claims, he.2.submissions, Or.inr ?_⟩
      rw [he.2.decisions]
      exact ⟨_, rfl, rfl, rfl, rfl⟩
  exact hsa.reaches ⟨rfl, rfl, rfl, rfl, Or.inl rfl⟩ hc

/-- Exactly-once attribution over every run of the runtime.  A signal has at most one
position event and one PnL event, row by row from the same transactions; the quantity
is that of a journaled fill; a retry only decides; and where the times of a key's fills
strictly increase, its quantity is the sum of its fills. -/
theorem attributed_exactly_once {world : World} (hrun : EngineRun world) :
    (world.log.positions.map (·.signalId)).Nodup ∧
      (world.log.pnls.map (·.signalId)).Nodup ∧
      List.Forall₂ SameTransaction world.log.positions world.log.pnls ∧
      (∀ ev ∈ world.log.positions, world.log.HasReceipt ev.signalId |ev.localQuantityDelta| ∧
        ∀ (cfg : RuntimeSettings) (sig : NormalizedSignal)
          (asg : LeaderAssignment) (reached : World), sig.signalId = ev.signalId →
          Proc.Reaches Answers world (processSignal cfg sig asg) reached →
          OnlyDecides sig |ev.localQuantityDelta| world.log reached.log) ∧
      ∀ key, world.log.Increasing key → ∀ ev, world.log.latestPosition key = some ev →
        ev.resultingLocalQuantity = world.log.filledTotal key ∧
          0 ≤ ev.resultingLocalQuantity := by
  have ho := hrun.keeps attributedOnce_rules
  have hs := signalIds_eq_of_sameTransaction ho.paired
  refine ⟨ho.once, hs ▸ ho.once, ho.paired, ?_, ?_⟩
  · intro ev hm
    exact ⟨ho.receipted ev hm, fun cfg sig asg reached hsi hc =>
      ho.retry hm hsi cfg asg hc⟩
  · intro key hi ev hl
    have ha := ho.ordered key hi
    refine ⟨?_, ev.resultingLocalQuantity_nonneg⟩
    rw [ha.latestPosition] at hl
    rw [ha.total, EventLog.committedQuantity, hl]
    rfl

end Once

section OneEntry

/-- Client order ids of different documents differ; the order of the digests decides
nothing here. -/
@[reducible] def distinctHexOrder : HexOrder where
  value
    | .external text => text.length * 16 ^ 36
    | .controlReduction _ => 16 ^ 36
    | _ => 0

local instance oneEntryHexOrder : HexOrder := distinctHexOrder

def btcRules : SymbolTradingRules where
  quantityStep := 1 / 10
  minimumQuantity := 1 / 10
  maximumQuantity := 1000
  minimumNotionalUsdt := 5
  exchangeMaximumLeverage := 20
  currentLeverage := 20
  priceTick := 1 / 10
  quantityStep_pos := by norm_num
  minimumQuantity_pos := by norm_num
  minimumNotionalUsdt_pos := five_usdt_pos
  priceTick_pos := by norm_num
  minimumQuantity_le := by norm_num
  exchangeMaximumLeverage_le := twenty_le_leverage_limit
  currentLeverage_pos := one_le_leverage_twenty
  currentLeverage_le := by norm_num

def unitOrder (signal : NormalizedSignal) (orderType : CopyOrderType)
    (limitPrice : Option Decimal) (hpolicy : OrderPolicy signal.kind orderType limitPrice none) :
    CopyMarketOrder where
  signal := signal
  localQuantity := 1
  leverage := 20
  orderType := orderType
  limitPrice := limitPrice
  expiresAt := none
  localQuantity_pos := one_unit_pos
  leverage_pos := one_le_leverage_twenty
  leverage_le := twenty_le_leverage_limit
  policy := hpolicy

theorem marketPolicy (kind : SignalKind) : OrderPolicy kind .market none none :=
  ⟨rfl, rfl⟩

def exchangeReply (trace : List Asked) : (query : Query) → query.Reply
  | .clock => newYear + 1000000 * ((trace.length : ℤ) + 1)
  | .positionMode => .ok true
  | .changeInitialLeverage _ _ => .ok ()
  | .positionRisk symbol => .ok [⟨some (.text symbol), some (.text "LONG"), .finite 1⟩]
  | .placeOrder parameters => .ok {
      clientOrderId := some (.text parameters.newClientOrderId)
      status := some (.text (if parameters.side = .buy then "FILLED" else "EXPIRED"))
      executedQty := .finite (if parameters.side = .buy then parameters.quantity else 2 / 5)
      avgPrice := .finite 100
      cumQuote := .finite 0
      orderId := none }
  | .queryOrder _ _ => .error (.other "timeout")
  | .cancelOrder _ _ => .error (.other "timeout")
  | .openOrders _ => .ok []
  | .symbolRules _ => .ok btcRules
  | .accountSnapshot now => .ok {
      observedAt := now
      hedgeMode := true
      canTrade := true
      marginBalanceUsdt := 150
      availableBalanceUsdt := 150
      totalMaintenanceMarginUsdt := 0 }

def exchangeAnswer (world : World) (query : Query) : query.Reply × World :=
  (exchangeReply world.trace query,
    { world with trace := world.trace ++ [⟨world.log, query, exchangeReply world.trace query⟩] })

def entryRow : SignalRow where
  signalId := .external "entry"
  deltaEventId := some (.fillDelta (.external "entry"))
  leadPortfolioId := "1"
  symbol := "BTCUSDT"
  positionSide := .long
  signalKind := .increase
  sourceDeltaQuantity := 1
  referencePrice := 100
  occurredAt := newYear
  signalOrigin := .publicSignal

def entryDelta : SourceFillDeltaEvent where
  deltaEventId := .fillDelta (.external "entry")
  sourceEventKey := .external "source"
  identityKey := .external "identity"
  leadPortfolioId := "1"
  previousExecutedQuantity := 0
  deltaQuantity := 1
  cumulativeExecutedQuantity := 1
  occurredAt := newYear

def activeLeader : LeaderAssignment := ⟨"1", "leader", .active, 1000, 1 / 2, 1⟩

def entryStored : EventLog where
  signals := [entryRow]
  fillDeltas := [entryDelta]
  slotAssignments := [⟨.external "slot", .longTerm, "1", newYear⟩]
  controls := [⟨.external "running", .running, "operator", ["START"], newYear⟩]

theorem signalsStored_entryStored : entryStored.SignalsStored where
  nodup := by decide
  entries := by decide
  controls row hrow eventId key hid := by
    rw [List.mem_singleton.mp hrow] at hid
    cases hid
  nodup_controls := by decide

theorem answers_traced (world : World) (qry : Query) (reply : qry.Reply) : Answers world qry reply
      { world with trace := world.trace ++ [⟨world.log, qry, reply⟩] } :=
  ⟨rfl, rfl, rfl, rfl, rfl, rfl, rfl, fun _ hr => hr, ⟨[], (List.append_nil _).symm⟩,
    fun hs => hs⟩

theorem answers_exchangeAnswer (world : World) (qry : Query) :
    Answers world qry (exchangeAnswer world qry).1 (exchangeAnswer world qry).2 :=
  answers_traced world qry _

def entrySignalOfRow : NormalizedSignal := entryRow.normalized (some entryDelta)

/-- The process ends between the position transaction and the last decision … -/
def entryStopped : World :=
  (processSignal {} entrySignalOfRow activeLeader).runFor exchangeAnswer 21 ⟨entryStored, []⟩

def entryRetried : World :=
  ((processSignal {} entrySignalOfRow activeLeader).run exchangeAnswer entryStopped).2

theorem engineRun_entryStopped : EngineRun entryStopped :=
  .process (.start signalsStored_entryStored ⟨rfl, rfl, rfl, rfl, rfl, rfl⟩) {}
    (List.mem_singleton.mpr rfl) (entryRow.describes_normalized _) activeLeader
    (Proc.reaches_runFor answers_exchangeAnswer 21)

theorem engineRun_entryRetried : EngineRun entryRetried :=
  .process engineRun_entryStopped {}
    (show entryRow ∈ entryStopped.log.signals by with_unfolding_all decide)
    (entryRow.describes_normalized _) activeLeader
    (Proc.reaches_run answers_exchangeAnswer)

theorem stopped_entry_attributed_once :
    (entryStopped.log.positions.map (·.localQuantityDelta) = [1] ∧
      entryStopped.log.decidedAs entryRow.signalId [.submitted] = true) ∧
      (entryRetried.log.positions = entryStopped.log.positions ∧
        entryRetried.log.decidedAs entryRow.signalId [.filled] = true) ∧
      (entryRetried.log.positions.map (·.signalId)).Nodup :=
  ⟨by with_unfolding_all decide, by with_unfolding_all decide,
    (attributed_exactly_once engineRun_entryRetried).1⟩

end OneEntry

end AiQuant.CopyTrading
