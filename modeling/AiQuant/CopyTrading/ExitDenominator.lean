import AiQuant.CopyTrading.LeaderFills

/-! Full exits after a baseline.  A baseline is taken only while nothing is owned of a leader, and
what it swallows makes no signal.  The denominator of the last reduction still holds the signals
from before the baseline, so it is a full close exactly if these add up to nothing. -/
namespace AiQuant.CopyTrading
open AiQuant.Lib

/-- `initial_baseline` of `run_cycle`. -/
def initialBaseline (lifecycle : LeaderLifecycle) (protectsLocalRisk : Bool) : Bool :=
  lifecycle = .observeOnly && !protectsLocalRisk

def recoveryBaseline (recoveryPending protectsLocalRisk : Bool) : Bool :=
  recoveryPending && !protectsLocalRisk

section Run

variable [HexOrder]

/-- `protected_leaders`; `recovered` are the signals that the cycle found unresolved. -/
def EventLog.protectedLeaders (log : EventLog) (recovered : List NormalizedSignal) : List String :=
  log.openPositions.map (·.key.leadPortfolioId) ++ recovered.map (·.leadPortfolioId)

/-- What happens to the log: a poll, the reset of a leader, or the work of the engine and the
operators. -/
inductive LogAction where
  | poll (leadPortfolioId : String) (baseline : Bool)
  | reset
  | outside

/-- One step, with the signals that it hands on.  A cycle knows of every unresolved signal of
the leaders that it polls; only polls make public signals. -/
inductive LogStep (before : EventLog) : LogAction → List NormalizedSignal → EventLog → Prop
  | poll {leadPortfolioId : String} {lifecycle : LeaderLifecycle} {recoveryPending protects : Bool}
      {recovered : List NormalizedSignal} {response : PollResponse} {after : EventLog}
      {signals : List NormalizedSignal}
      (hprotects : protects = decide (leadPortfolioId ∈ before.protectedLeaders recovered))
      (hrecovered : ∀ row ∈ before.signals, row.leadPortfolioId = leadPortfolioId →
        before.isRecoverable row.signalId = true →
        leadPortfolioId ∈ recovered.map (·.leadPortfolioId))
      (hclock : ∀ reset ∈ before.resets, reset.occurredAt < response.observedAt)
      (hpoll : before.pollLeader leadPortfolioId (initialBaseline lifecycle protects)
        (recoveryBaseline recoveryPending protects) response = .ok (after, signals)) :
      LogStep before (.poll leadPortfolioId
        (initialBaseline lifecycle protects || recoveryBaseline recoveryPending protects))
        signals after
  | reset (event : SourceResolutionResetEvent) :
      LogStep before .reset [] { before with resets := before.resets ++ [event] }
  | outside {rows : List SignalRow} {after : EventLog} (hresets : after.resets = before.resets)
      (hsources : after.sourceOrders = before.sourceOrders)
      (hdeltas : after.fillDeltas = before.fillDeltas)
      (hsignals : after.signals = before.signals ++ rows)
      (hrows : ∀ row ∈ rows, row.deltaEventId = none) : LogStep before .outside [] after

/-- Steps of an allowed kind, with all their signals. -/
inductive LogRun (allowed : LogAction → Prop) (start : EventLog) :
    List NormalizedSignal → EventLog → Prop
  | refl : LogRun allowed start [] start
  | step {signals new : List NormalizedSignal} {before after : EventLog} {action : LogAction}
      (hrun : LogRun allowed start signals before) (hallowed : allowed action)
      (hstep : LogStep before action new after) : LogRun allowed start (signals ++ new) after

/-- The steps after the last baseline of a leader. -/
def LogAction.AfterBaseline (leadPortfolioId : String) : LogAction → Prop
  | .poll other baseline => other = leadPortfolioId → baseline = false
  | .reset => False
  | .outside => True

variable {start pre post log : EventLog} {action : LogAction}
  {signals : List NormalizedSignal}

omit [HexOrder] in
theorem EventLog.sourceDeltas_of_control {rows : List SignalRow}
    (hd : post.fillDeltas = pre.fillDeltas) (hs : post.signals = pre.signals ++ rows)
    (hr : ∀ row ∈ rows, row.deltaEventId = none) : post.sourceDeltas = pre.sourceDeltas := by
  funext source
  unfold EventLog.sourceDeltas
  rw [hd, hs]
  refine List.flatMap_congr fun delta _ => ?_
  have hn : rows.filter (fun row => row.deltaEventId = some delta.deltaEventId &&
      row.signalOrigin = .publicSignal) = [] := by
    refine List.filter_eq_nil_iff.mpr fun row hrow hsa => ?_
    rw [hr row hrow] at hsa
    simp at hsa
  rw [List.filter_append, hn, List.append_nil]

theorem LogStep.ingests (hstep : LogStep pre action signals post)
    (hst : pre.DeltasStored) (hre : action ≠ .reset) : pre.Ingests post signals := by
  cases hstep with
  | poll hprotects hrecovered hclock hpoll =>
    exact EventLog.pollLeader_ingests hst hclock hpoll
  | reset ev => exact absurd rfl hre
  | outside hr hs hd hsig hrows =>
    have hso := EventLog.sourceDeltas_of_control hd hsig hrows
    exact {
      grows := ⟨hr, hs ▸ List.prefix_rfl, hd ▸ List.prefix_rfl, hsig ▸ List.prefix_append _ _⟩
      stored := fun delta hde => by
        rw [hd] at hde
        rw [hs]
        exact hst delta hde
      exposure := fun key cutoff => by
        unfold EventLog.exposureBefore EventLog.sourcesBefore EventLog.latestReset
        rw [hso, hs, hr]
        exact (add_zero _).symm
      recorded := fun _ hsi => absurd hsi List.not_mem_nil
      positive := fun _ hsi => absurd hsi List.not_mem_nil }

theorem LogStep.stored (hst : LogStep pre action signals post)
    (hs : pre.DeltasStored) : post.DeltasStored := by
  by_cases hr : action = .reset
  · cases hst with
    | reset ev => exact hs
    | poll => cases hr
    | outside => cases hr
  · exact (hst.ingests hs hr).stored

theorem LogRun.stored {allowed : LogAction → Prop} (hr : LogRun allowed start signals log)
    (hs : start.DeltasStored) : log.DeltasStored := by
  induction hr with
  | refl => exact hs
  | step hr hallowed hstep ih => exact hstep.stored ih

theorem LogRun.ingests {leader : String}
    (hr : LogRun (LogAction.AfterBaseline leader) start signals log)
    (hs : start.DeltasStored) : start.Ingests log signals := by
  induction hr with
  | refl => exact .refl hs
  | step hr hallowed hst ih =>
    refine ih.append (hst.ingests ih.stored ?_)
    rintro rfl
    exact hallowed

def leaderFills (leadPortfolioId : String) (signals : List NormalizedSignal) : List LeaderFill :=
  (signals.filter (·.leadPortfolioId = leadPortfolioId)).map (·.fill)

variable {fills earlier later : List LeaderFill} {exit : LeaderFill}

theorem positionBefore_exit (ho : fills.Pairwise fun left right => left.stamp < right.stamp)
    (hf : fills = earlier ++ exit :: later) (hr : exit.kind = .reduce)
    (hfl : positionAfter (earlier ++ [exit]) exit.key = 0) :
    positionBefore fills exit.key exit.stamp = exit.quantity := by
  rw [hf, List.pairwise_append, List.pairwise_cons] at ho
  obtain ⟨-, ⟨hl, -⟩, he⟩ := ho
  have hk : earlier.filter (·.stamp < exit.stamp) = earlier :=
    List.filter_eq_self.mpr fun fill hfi =>
      decide_eq_true (he fill hfi exit List.mem_cons_self)
  have hd : (exit :: later).filter (·.stamp < exit.stamp) = [] := by
    refine List.filter_eq_nil_iff.mpr fun fill hfi hb => ?_
    rw [decide_eq_true_eq] at hb
    rcases List.mem_cons.mp hfi with rfl | hfi
    · exact lt_irrefl _ hb
    · exact lt_asymm hb (hl fill hfi)
  have hs : exit.signedQuantity = -exit.quantity := by
    rw [LeaderFill.signedQuantity, hr]
  rw [positionAfter_append, positionAfter_singleton, if_pos rfl, hs, ← sub_eq_add_neg,
    sub_eq_zero] at hfl
  rw [positionBefore, hf, List.filter_append, hk, hd, List.append_nil, hfl]

theorem positionBefore_leader (signals : List NormalizedSignal) (key : VirtualPositionKey)
    (cutoff : ℤ ×ₗ ℕ) : positionBefore (leaderFills key.leadPortfolioId signals) key cutoff =
      positionBefore (signals.map (·.fill)) key cutoff := by
  unfold leaderFills
  induction signals with
  | nil => rfl
  | cons sig rest ih =>
    have hc : ∀ fills : List LeaderFill, positionBefore (sig.fill :: fills) key cutoff =
        positionBefore [sig.fill] key cutoff + positionBefore fills key cutoff :=
      fun fills => positionBefore_append [sig.fill] fills key cutoff
    rw [List.map_cons, hc]
    by_cases hl : sig.leadPortfolioId = key.leadPortfolioId
    · rw [List.filter_cons, if_pos (by simpa using hl), List.map_cons, hc, ih]
    · have hn : positionBefore [sig.fill] key cutoff = 0 := by
        unfold positionBefore positionAfter
        rw [List.filter_filter, List.filter_cons_of_neg, List.filter_nil]
        · rfl
        · intro hk
          rw [Bool.and_eq_true, decide_eq_true_eq] at hk
          exact hl (congrArg VirtualPositionKey.leadPortfolioId hk.1)
      rw [List.filter_cons, if_neg (by simpa using hl), ih, hn, zero_add]

/-- A leader who was flat at its last baseline, and whose fills since then are all signals,
closes a position: the close is copied in full if and only if the signals from before the
baseline add up to no more than zero. -/
theorem full_exit_copied_iff {leader : String} {baselined : EventLog}
    {allSignals polled : List NormalizedSignal} {sig : NormalizedSignal}
    {ledger : VirtualPositionLedger} (hbefore : LogRun (fun _ => True) {} allSignals pre)
    (hbaseline : LogStep pre (.poll leader true) polled baselined)
    (hafter : LogRun (LogAction.AfterBaseline leader) baselined signals log)
    (hingested : (leaderFills leader signals).Perm fills)
    (hordered : fills.Pairwise fun left right => left.stamp < right.stamp)
    (hfills : fills = earlier ++ exit :: later) (hreduce : exit.kind = .reduce)
    (hflat : positionAfter (earlier ++ [exit]) exit.key = 0) (hsignal : sig ∈ signals)
    (hexit : sig.fill = exit) (hlocal : 0 < (ledger.positionFor sig).localQuantity) :
    (sourcePositionCloses sig (log.sourcePositionQuantityBefore sig) = true ∧
      ∀ rules, (ledger.planReduction sig rules
        (log.sourcePositionQuantityBefore sig)).1.closesVirtualPosition = true) ↔
      baselined.exposureBefore exit.key exit.stamp ≤ 0 := by
  have he : EventLog.DeltasStored {} := fun _ hd => absurd hd List.not_mem_nil
  have hi := hafter.ingests (hbaseline.stored (hbefore.stored he))
  obtain ⟨row, source, hre⟩ := hi.recorded sig hsignal
  have hl : exit.key.leadPortfolioId = leader := by
    have hm : exit ∈ fills := hfills ▸ List.mem_append_right _ List.mem_cons_self
    obtain ⟨reported, hr, hsa⟩ := List.mem_map.mp (hingested.mem_iff.mpr hm)
    rw [← hsa]
    exact of_decide_eq_true (List.mem_filter.mp hr).2
  have hb : positionBefore (signals.map (·.fill)) exit.key exit.stamp = exit.quantity := by
    rw [← positionBefore_leader, hl, positionBefore, positionAfter_perm (hingested.filter _)]
    exact positionBefore_exit hordered hfills hreduce hflat
  have hkey : sig.key = exit.key := congrArg LeaderFill.key hexit
  have hq : sig.sourceDeltaQuantity = exit.quantity :=
    congrArg LeaderFill.quantity hexit
  have hk : sig.kind = .reduce := (congrArg LeaderFill.kind hexit).trans hreduce
  have hp : 0 < sig.sourceDeltaQuantity := hi.positive sig hsignal
  rw [hre.sourcePositionQuantityBefore, hi.exposure, hkey, hexit, hb]
  rw [VirtualPositionLedger.planReduction_closes_iff hk hp (le_max_left _ _) hlocal,
    sourcePositionCloses, Option.all_some, decide_eq_true_eq, and_self, hq, max_le_iff]
  rw [hq] at hp
  constructor
  · rintro ⟨-, hc⟩
    linarith
  · intro hs
    exact ⟨hp.le, by linarith⟩

end Run

section Recovered

/-- The update times differ, so digests are never compared. -/
local instance recoveredHexOrder : HexOrder := ⟨fun _ => 0⟩

def closedBefore : PublicLeaderOrder :=
  okValue (PublicLeaderOrder.fromApi "1" (hedgeDocument .sell 1 1000)) (by decide)
def rejectedUnit : PublicLeaderOrder :=
  okValue (PublicLeaderOrder.fromApi "1" (hedgeDocument .buy 1 2000)) (by decide)
def swallowedSale : PublicLeaderOrder :=
  okValue (PublicLeaderOrder.fromApi "1" (hedgeDocument .sell 1 3000)) (by decide)
def filledUnit : PublicLeaderOrder :=
  okValue (PublicLeaderOrder.fromApi "1" (hedgeDocument .buy 1 4000)) (by decide)
def fullSale : PublicLeaderOrder :=
  okValue (PublicLeaderOrder.fromApi "1" (hedgeDocument .sell 1 5000)) (by decide)

def unitSignal : NormalizedSignal :=
  okValue (NormalizedSignal.fromOrder filledUnit 1 0) (by decide)
def saleSignal : NormalizedSignal :=
  okValue (NormalizedSignal.fromOrder fullSale 1 0) (by decide)

def rowResponse (row : PublicLeaderOrder) (observedAt : Time) : PollResponse :=
  ⟨[row], [], observedAt⟩

def settled (signal : NormalizedSignal) (state : DecisionState) : SignalDecisionEvent where
  decisionEventId := .external "settled"
  signalId := signal.signalId
  state := state
  localQuantity := 1
  reasonCodes := []
  occurredAt := 6000000

def unitPosition (signal : NormalizedSignal) : VirtualPositionEvent where
  positionEventId := .external "position"
  key := signal.key
  localQuantityDelta := 1
  resultingLocalQuantity := 1
  sourceQuantityDelta := 1
  resultingSourceQuantity := 1
  referencePrice := 100
  leverage := 5
  committedMarginUsdt := 20
  signalId := signal.signalId
  occurredAt := 6000000
  resultingLocalQuantity_nonneg := zero_le_one
  resultingSourceQuantity_nonneg := zero_le_one

def EventLog.fillUnit (log : EventLog) (signal : NormalizedSignal) : EventLog :=
  { log with
    decisions := log.decisions ++ [settled signal .filled]
    positions := log.positions ++ [unitPosition signal] }

def flatBaseline : EventLog × List NormalizedSignal :=
  okValue (EventLog.pollLeader {} "1" true false (rowResponse closedBefore 1500000))
    (by decide)

def rejectedPoll : EventLog × List NormalizedSignal :=
  okValue (flatBaseline.1.pollLeader "1" false false (rowResponse rejectedUnit 2500000))
    (by with_unfolding_all decide)

def rejectedLog : EventLog :=
  { rejectedPoll.1 with
    decisions := rejectedPoll.2.map (settled · .riskRejected) }

def recoveredPoll : EventLog × List NormalizedSignal :=
  okValue (rejectedLog.pollLeader "1" false true (rowResponse swallowedSale 3500000))
    (by with_unfolding_all decide)

def boughtAfterBaseline : EventLog × List NormalizedSignal :=
  okValue (flatBaseline.1.pollLeader "1" false false (rowResponse filledUnit 4500000))
    (by with_unfolding_all decide)

def boughtAfterRecovery : EventLog × List NormalizedSignal :=
  okValue (recoveredPoll.1.pollLeader "1" false false (rowResponse filledUnit 4500000))
    (by with_unfolding_all decide)

def filledLog (bought : EventLog × List NormalizedSignal) : EventLog :=
  bought.2.foldl EventLog.fillUnit bought.1

def soldAfterBaseline : EventLog × List NormalizedSignal :=
  okValue ((filledLog boughtAfterBaseline).pollLeader "1" false false
    (rowResponse fullSale 5500000)) (by with_unfolding_all decide)

def soldAfterRecovery : EventLog × List NormalizedSignal :=
  okValue ((filledLog boughtAfterRecovery).pollLeader "1" false false
    (rowResponse fullSale 5500000)) (by with_unfolding_all decide)

def EventLog.Settled (log : EventLog) : Prop :=
  (∀ row ∈ log.signals, log.isRecoverable row.signalId = false) ∧ log.resets = []

instance (log : EventLog) : Decidable log.Settled :=
  inferInstanceAs (Decidable
    ((∀ row ∈ log.signals, log.isRecoverable row.signalId = false) ∧ log.resets = []))

theorem logStep_settled {log post : EventLog} {life : LeaderLifecycle}
    {recoveryPending : Bool} {resp : PollResponse} {signals : List NormalizedSignal}
    (hs : log.Settled) (hp : log.pollLeader "1"
      (initialBaseline life (decide ("1" ∈ log.protectedLeaders [])))
      (recoveryBaseline recoveryPending (decide ("1" ∈ log.protectedLeaders []))) resp =
        .ok (post, signals)) :
    LogStep log (.poll "1" (initialBaseline life (decide ("1" ∈ log.protectedLeaders [])) ||
      recoveryBaseline recoveryPending (decide ("1" ∈ log.protectedLeaders [])))) signals post := by
  obtain ⟨hs, hre⟩ := hs
  refine .poll rfl (fun row hrow _ hr => ?_) ?_ hp
  · rw [hs row hrow] at hr
    cases hr
  · rw [hre]
    exact fun _ hres => absurd hres List.not_mem_nil

theorem logStep_fillUnit (log : EventLog) (sig : NormalizedSignal) :
    LogStep log .outside [] (log.fillUnit sig) :=
  .outside rfl rfl rfl (List.append_nil _).symm fun _ hr => absurd hr List.not_mem_nil

theorem logRun_soldUnit {log : EventLog} {bought sold : EventLog × List NormalizedSignal}
    {entry : NormalizedSignal} (hs : log.Settled)
    (hb : log.pollLeader "1" false false (rowResponse filledUnit 4500000) = .ok bought)
    (he : bought.2 = [entry]) (hf : (filledLog bought).Settled)
    (hso : (filledLog bought).pollLeader "1" false false (rowResponse fullSale 5500000) =
      .ok sold) :
    LogRun (LogAction.AfterBaseline "1") log ([] ++ bought.2 ++ [] ++ sold.2) sold.1 := by
  have hp : LogStep log (.poll "1" false) bought.2 bought.1 :=
    @logStep_settled log bought.1 .active false _ bought.2 hs hb
  have hfi : LogStep bought.1 .outside [] (filledLog bought) := by
    unfold filledLog
    rw [he]
    exact logStep_fillUnit bought.1 entry
  have hsa : LogStep (filledLog bought) (.poll "1" false) sold.2 sold.1 :=
    @logStep_settled _ sold.1 .active false _ sold.2 hf hso
  exact ((LogRun.refl.step (by exact fun _ => rfl) hp).step (by exact trivial) hfi).step
    (by exact fun _ => rfl) hsa

theorem logStep_flatBaseline : LogStep {} (.poll "1" true) flatBaseline.2 flatBaseline.1 := by
  have hf : decide ("1" ∈ EventLog.protectedLeaders {} []) = false := by decide
  have hp : EventLog.pollLeader {} "1" true false (rowResponse closedBefore 1500000) =
      .ok flatBaseline := eq_ok_okValue _
  have hs := @logStep_settled {} flatBaseline.1 .observeOnly false
    (rowResponse closedBefore 1500000) flatBaseline.2 (by decide) (by rw [hf]; exact hp)
  rwa [hf] at hs

theorem soldUnit_ordered :
    [unitSignal.fill, saleSignal.fill].Pairwise fun left right => left.stamp < right.stamp := by
  decide

theorem soldUnit_flat :
    positionAfter ([unitSignal.fill] ++ [saleSignal.fill]) saleSignal.fill.key = 0 := by
  with_unfolding_all decide

theorem sale_after_baseline_closes : (sourcePositionCloses saleSignal
        (soldAfterBaseline.1.sourcePositionQuantityBefore saleSignal) = true ∧
      ∀ rules, (soldAfterBaseline.1.loadVirtualLedger.planReduction saleSignal rules
        (soldAfterBaseline.1.sourcePositionQuantityBefore
          saleSignal)).1.closesVirtualPosition = true) ↔
      flatBaseline.1.exposureBefore saleSignal.fill.key saleSignal.fill.stamp ≤ 0 := by
  have hb : flatBaseline.1.pollLeader "1" false false (rowResponse filledUnit 4500000) =
      .ok boughtAfterBaseline := eq_ok_okValue _
  have hs : (filledLog boughtAfterBaseline).pollLeader "1" false false
      (rowResponse fullSale 5500000) = .ok soldAfterBaseline := eq_ok_okValue _
  have he : boughtAfterBaseline.2 = [unitSignal] := by with_unfolding_all decide
  have hr := logRun_soldUnit (by decide) hb he (by with_unfolding_all decide) hs
  have hp : (leaderFills "1" ([] ++ boughtAfterBaseline.2 ++ [] ++ soldAfterBaseline.2)).Perm
      [unitSignal.fill, saleSignal.fill] := List.Perm.of_eq (by with_unfolding_all decide)
  have hm : saleSignal ∈ [] ++ boughtAfterBaseline.2 ++ [] ++ soldAfterBaseline.2 := by
    with_unfolding_all decide
  have hl : 0 < (soldAfterBaseline.1.loadVirtualLedger.positionFor saleSignal).localQuantity :=
    by with_unfolding_all decide
  exact full_exit_copied_iff LogRun.refl logStep_flatBaseline hr hp soldUnit_ordered
    (List.singleton_append).symm (by decide) soldUnit_flat hm rfl hl

/-- After the recovery the rejected unit is still in the denominator: the sale of everything is
taken for one of half. -/
theorem sale_after_recovery_partial :
    ¬ ∀ [HexOrder] (leader : String) (allSignals none signals : List NormalizedSignal)
        (pre baselined log : EventLog) (fills earlier later : List LeaderFill)
        (exit : LeaderFill) (sig : NormalizedSignal) (ledger : VirtualPositionLedger),
        LogRun (fun _ => True) {} allSignals pre → LogStep pre (.poll leader true) none baselined →
        LogRun (LogAction.AfterBaseline leader) baselined signals log →
        (leaderFills leader signals).Perm fills →
        (fills.Pairwise fun left right => left.stamp < right.stamp) →
        fills = earlier ++ exit :: later → exit.kind = .reduce →
        positionAfter (earlier ++ [exit]) exit.key = 0 → sig ∈ signals → sig.fill = exit →
        0 < (ledger.positionFor sig).localQuantity →
        sourcePositionCloses sig (log.sourcePositionQuantityBefore sig) = true := by
  intro hcl
  have hre : LogStep flatBaseline.1 (.poll "1" false) rejectedPoll.2 rejectedPoll.1 :=
    @logStep_settled _ _ .active false _ _ (by decide) (eq_ok_okValue _)
  have hd : LogStep rejectedPoll.1 .outside [] rejectedLog :=
    .outside rfl rfl rfl (List.append_nil _).symm fun _ hrow => absurd hrow List.not_mem_nil
  have hr : LogStep rejectedLog (.poll "1" true) recoveredPoll.2 recoveredPoll.1 := by
    have hf : decide ("1" ∈ rejectedLog.protectedLeaders []) = false := by
      with_unfolding_all decide
    have hp : rejectedLog.pollLeader "1" false true (rowResponse swallowedSale 3500000) =
        .ok recoveredPoll := eq_ok_okValue _
    have hs := @logStep_settled rejectedLog recoveredPoll.1 .active true
      (rowResponse swallowedSale 3500000) recoveredPoll.2 (by with_unfolding_all decide)
      (by rw [hf]; exact hp)
    rwa [hf] at hs
  have hbe : LogRun (fun _ => True) {} ([] ++ flatBaseline.2 ++ rejectedPoll.2 ++ [])
      rejectedLog :=
    ((LogRun.refl.step trivial logStep_flatBaseline).step trivial hre).step trivial hd
  have hb : recoveredPoll.1.pollLeader "1" false false (rowResponse filledUnit 4500000) =
      .ok boughtAfterRecovery := eq_ok_okValue _
  have hso : (filledLog boughtAfterRecovery).pollLeader "1" false false
      (rowResponse fullSale 5500000) = .ok soldAfterRecovery := eq_ok_okValue _
  have he : boughtAfterRecovery.2 = [unitSignal] := by with_unfolding_all decide
  have hrun := logRun_soldUnit (by with_unfolding_all decide) hb he
    (by with_unfolding_all decide) hso
  have hpe : (leaderFills "1" ([] ++ boughtAfterRecovery.2 ++ [] ++ soldAfterRecovery.2)).Perm
      [unitSignal.fill, saleSignal.fill] := List.Perm.of_eq (by with_unfolding_all decide)
  have hm : saleSignal ∈ [] ++ boughtAfterRecovery.2 ++ [] ++ soldAfterRecovery.2 := by
    with_unfolding_all decide
  have hl : 0 < (soldAfterRecovery.1.loadVirtualLedger.positionFor saleSignal).localQuantity :=
    by with_unfolding_all decide
  have hc := hcl "1" _ _ _ _ _ _ _ [unitSignal.fill] [] saleSignal.fill saleSignal _
    hbe hr hrun hpe soldUnit_ordered (List.singleton_append).symm
    (by decide) soldUnit_flat hm rfl hl
  revert hc
  with_unfolding_all decide

end Recovered

end AiQuant.CopyTrading
