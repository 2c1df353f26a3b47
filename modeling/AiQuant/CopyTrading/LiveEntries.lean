import AiQuant.CopyTrading.ControlRun

/-! Who knows of a protected entry that may still fill.  `recoverable_signals` reads the
journal; `portfolio_usage`, `pending_increase_signals` and `_leaders_with_owned_exposure`
read the latest decision.  They agree as long as no entry is live in the journal before
it is decided `SUBMITTED` or `UNCERTAIN`, or after it is decided otherwise. -/
namespace AiQuant.CopyTrading
open AiQuant.Lib

def pendingDecisionStates : List DecisionState := [.submitted, .uncertain]

/-- The signal has a `LIMIT` claim and no attributed fill. -/
def EventLog.ProtectedEntry (log : EventLog) (signalId : Digest) : Prop :=
  (∃ claim ∈ log.claims, claim.signalId = signalId ∧ claim.orderType = .limit) ∧
    ∀ event ∈ log.positions, event.signalId ≠ signalId

theorem EventLog.SignalsStored.filter_signalId {log : EventLog} (hs : log.SignalsStored)
    {row : SignalRow} (hr : row ∈ log.signals) :
    log.signals.filter (·.signalId = row.signalId) = [row] := by
  have hsa : log.signals.filter (·.signalId = row.signalId) = log.signals.filter (· = row) := by
    apply List.filter_congr
    intro other ho
    rw [decide_eq_decide]
    exact ⟨List.inj_on_of_nodup_map hs.nodup ho hr, congrArg _⟩
  rw [hsa, List.filter_eq, List.count_eq_one_of_mem (hs.nodup.of_map _) hr]
  rfl

section Visible

variable [HexOrder] {log post : EventLog} {signalId : Digest}

def EventLog.LiveEntry (log : EventLog) (signalId : Digest) : Prop :=
  log.ProtectedEntry signalId ∧
    ∃ event, log.latestSubmission signalId = some event ∧ event.state ∈ liveSubmissionStates

/-- The margin of a claim is part of the committed margin of `portfolio_usage`: without
the claim, there would be that much less. -/
def EventLog.CountsMargin (log : EventLog) (claim : SubmissionClaimRow) (row : SignalRow) : Prop :=
  ∀ leadPortfolioId symbol accountEquityUsdt accountAvailableBalanceUsdt currentSymbolLeverage,
    (log.portfolioUsage leadPortfolioId symbol accountEquityUsdt accountAvailableBalanceUsdt
        currentSymbolLeverage).totalCommittedMarginUsdt =
      (claim.usage row).margin symbol currentSymbolLeverage +
        (EventLog.portfolioUsage { log with claims := log.claims.erase claim } leadPortfolioId
          symbol accountEquityUsdt accountAvailableBalanceUsdt
          currentSymbolLeverage).totalCommittedMarginUsdt

/-- Every entry whose `LIMIT` claim `recoverable_signals` keeps alive is counted in the
committed margin, returned by `pending_increase_signals` for its key when the limit holds
all signals, and makes its leader one with owned exposure. -/
def EventLog.Visible (log : EventLog) : Prop :=
  ∀ row ∈ log.signals, row.signalKind = .increase → ∀ claim ∈ log.claims,
    claim.signalId = row.signalId → claim.orderType = .limit →
    log.hasLiveClaim row.signalId = true →
    log.CountsMargin claim row ∧
      (∀ limit, log.signals.length ≤ limit →
        row.normalized (log.deltaOf row) ∈ log.pendingIncreaseSignals row.key limit) ∧
      row.leadPortfolioId ∈ log.leadersWithOwnedExposure

variable {claim : SubmissionClaimRow}

theorem liveEntry_of_hasLiveClaim (hc : claim ∈ log.claims)
    (hid : claim.signalId = signalId) (hl : claim.orderType = .limit)
    (hli : log.hasLiveClaim signalId = true) : log.LiveEntry signalId := by
  simp only [EventLog.hasLiveClaim, Bool.and_eq_true, Bool.not_eq_true', List.any_eq_false,
    decide_eq_true_eq, Option.any_eq_true_iff_get] at hli
  obtain ⟨⟨-, hn⟩, hso, hs⟩ := hli
  exact ⟨⟨⟨claim, hc, hid, hl⟩, hn⟩, _, (Option.some_get hso).symm, hs⟩

theorem EventLog.LiveEntry.hasLiveClaim (hl : log.LiveEntry signalId) :
    log.hasLiveClaim signalId = true := by
  obtain ⟨⟨⟨claim, hm, hid, -⟩, hn⟩, ev, hla, hs⟩ := hl
  simp only [EventLog.hasLiveClaim, Bool.and_eq_true, Bool.not_eq_true', List.any_eq_false,
    decide_eq_true_eq, hla, Option.any_some]
  exact ⟨⟨List.any_eq_true.mpr ⟨claim, hm, decide_eq_true hid⟩, hn⟩, hs⟩

variable {row : SignalRow}

theorem pendingUsage_perm (hs : log.SignalsStored) (hrow : row ∈ log.signals)
    (hc : claim ∈ log.claims) (hid : claim.signalId = row.signalId) (hl : claim.orderType = .limit)
    (hd : log.decidedAs row.signalId pendingDecisionStates = true) :
    log.pendingUsage.Perm (claim.usage row ::
      EventLog.pendingUsage { log with claims := log.claims.erase claim }) := by
  have hr : log.signals.filter (·.signalId = claim.signalId) = [row] := by
    rw [hid]
    exact hs.filter_signalId hrow
  let kept (claim : SubmissionClaimRow) : Bool :=
    claim.orderType = .limit && log.decidedAs claim.signalId pendingDecisionStates
  have hk : kept claim = true := by
    simp only [kept, hl, decide_true, Bool.true_and, hid]
    exact hd
  have hp := ((List.perm_cons_erase hc).filter kept).flatMap_right fun claim =>
    (log.signals.filter (·.signalId = claim.signalId)).map claim.usage
  rw [List.filter_cons_of_pos hk, List.flatMap_cons, hr] at hp
  exact hp

theorem countsMargin_of_pending (hs : log.SignalsStored) (hr : row ∈ log.signals)
    (hc : claim ∈ log.claims) (hid : claim.signalId = row.signalId) (hl : claim.orderType = .limit)
    (hd : log.decidedAs row.signalId pendingDecisionStates = true) :
    log.CountsMargin claim row := by
  intro leader sym accountEquityUsdt accountAvailableBalanceUsdt currentSymbolLeverage
  have hp := (pendingUsage_perm hs hr hc hid hl hd).map (·.margin sym currentSymbolLeverage)
  dsimp only [EventLog.portfolioUsage]
  rw [List.map_append, List.sum_append, hp.sum_eq, List.map_cons, List.sum_cons,
    List.map_append, List.sum_append]
  exact add_left_comm _ _ _

theorem mem_pendingIncreaseSignals_of_pending (hs : log.SignalsStored) (hr : row ∈ log.signals)
    (hk : row.signalKind = .increase) (hc : claim ∈ log.claims)
    (hid : claim.signalId = row.signalId) (hli : claim.orderType = .limit)
    (hd : log.decidedAs row.signalId pendingDecisionStates = true) {limit : ℕ}
    (hl : log.signals.length ≤ limit) :
    row.normalized (log.deltaOf row) ∈ log.pendingIncreaseSignals row.key limit := by
  have hp : log.isPendingEntry row.signalId = true := by
    rw [EventLog.isPendingEntry, Bool.and_eq_true]
    refine ⟨List.any_eq_true.mpr ⟨claim, hc, ?_⟩, hd⟩
    simp [hid, hli]
  unfold EventLog.pendingIncreaseSignals
  apply List.mem_map_of_mem
  rw [List.take_of_length_le]
  · rw [orderedSignals, List.mem_insertionSort, List.mem_filter]
    refine ⟨hr, ?_⟩
    simp [hk, hs.entries row hr hk, hp]
  · rw [orderedSignals, List.length_insertionSort]
    exact (List.length_filter_le _ _).trans hl

theorem mem_leadersWithOwnedExposure_of_pending (hr : row ∈ log.signals)
    (hk : row.signalKind = .increase) (hc : claim ∈ log.claims)
    (hid : claim.signalId = row.signalId)
    (hd : log.decidedAs row.signalId pendingDecisionStates = true) :
    row.leadPortfolioId ∈ log.leadersWithOwnedExposure := by
  have he : log.decidedAs row.signalId [.approved, .submitted, .uncertain] = true := by
    unfold EventLog.decidedAs at hd ⊢
    cases hl : log.latestDecision row.signalId with
    | none =>
      rw [hl] at hd
      cases hd
    | some ev =>
      rw [hl, Option.any_some, decide_eq_true_eq] at hd
      exact decide_eq_true (List.mem_cons_of_mem _ hd)
  refine List.mem_append_right _ (List.mem_map_of_mem (List.mem_filter.mpr ⟨hr, ?_⟩))
  simp only [hk, decide_true, Bool.true_and, Bool.and_eq_true]
  exact ⟨List.any_eq_true.mpr ⟨claim, hc, decide_eq_true hid⟩, he⟩

end Visible

section OneRestingEntry

local instance restingHexOrder : HexOrder := distinctHexOrder

def restingReply (halted : Bool) (trace : List Asked) : (query : Query) → query.Reply
  | .placeOrder parameters => .ok {
      clientOrderId := some (.text parameters.newClientOrderId)
      status := some (.text "NEW")
      executedQty := .finite 0
      avgPrice := .finite 0
      cumQuote := .finite 0
      orderId := none }
  | .symbolRules symbol =>
    if halted then .error (.rejected "COPY_SYMBOL_NOT_AVAILABLE_ON_EXCHANGE")
    else exchangeReply trace (.symbolRules symbol)
  | query => exchangeReply trace query

def restingAnswer (halted : Bool) (world : World) (query : Query) : query.Reply × World :=
  (restingReply halted world.trace query,
    { world with
      trace := world.trace ++ [⟨world.log, query, restingReply halted world.trace query⟩] })

theorem answers_restingAnswer (ha : Bool) (world : World) (qry : Query) :
    Answers world qry (restingAnswer ha world qry).1 (restingAnswer ha world qry).2 :=
  answers_traced world qry _

def entryResting : World :=
  ((processSignal {} entrySignalOfRow activeLeader).run (restingAnswer false) ⟨entryStored, []⟩).2

def entryHalted : World :=
  ((processSignal {} entrySignalOfRow activeLeader).run (restingAnswer true) entryResting).2

theorem engineRun_entryResting : EngineRun entryResting :=
  .process (.start signalsStored_entryStored ⟨rfl, rfl, rfl, rfl, rfl, rfl⟩) {}
    (List.mem_singleton.mpr rfl) (entryRow.describes_normalized _) activeLeader
    (Proc.reaches_run (answers_restingAnswer false))

theorem engineRun_entryHalted : EngineRun entryHalted :=
  .process engineRun_entryResting {}
    (show entryRow ∈ entryResting.log.signals by with_unfolding_all decide)
    (entryRow.describes_normalized _) activeLeader
    (Proc.reaches_run (answers_restingAnswer true))

/-- The acknowledged order of a rejected entry is not seen by the queries that read the
decisions. -/
theorem rejected_entry_rests_unseen :
    ¬ ∀ [HexOrder] (world : World), EngineRun world → world.log.Visible := by
  intro hcl
  have hv := @hcl distinctHexOrder entryHalted engineRun_entryHalted
  have hc : ∃ claim ∈ entryHalted.log.claims,
      claim.signalId = entryRow.signalId ∧ claim.orderType = .limit := by
    with_unfolding_all decide
  have hlive : entryHalted.log.hasLiveClaim entryRow.signalId = true := by
    with_unfolding_all decide
  obtain ⟨claim, hm, hid, hli⟩ := hc
  obtain ⟨-, -, hl⟩ := hv entryRow (by with_unfolding_all decide) rfl claim hm hid hli hlive
  revert hl
  with_unfolding_all decide

end OneRestingEntry

end AiQuant.CopyTrading
