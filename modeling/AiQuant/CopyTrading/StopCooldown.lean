import AiQuant.CopyTrading.StopRun
import Mathlib.Data.Int.ConditionallyCompleteOrder
import Mathlib.Order.CompletePartialOrder
import Mathlib.Order.Interval.Set.Basic

/-! Stops and their cooldowns over whole sequences of `enforce_leader_symbol_stops` calls.
The calls come in order of time, each with a valuation of its own; between them every other
table may change.  A stop is written exactly when its leader and symbol have lost the limit
and no earlier stop of theirs is still running. -/
namespace AiQuant.CopyTrading
open AiQuant.Lib

/-- The arguments of one call. -/
structure StopCall where
  valuationEventId : Digest
  positionMarks : List AccountPositionMark
  occurredAt : Time
  lossLimitUsdt : Decimal
  cooldown : Time

def StopCall.stopFor (call : StopCall) (netPnl : Decimal) (leaderSymbol : String × String) :
    LeaderSymbolStopEvent where
  stopEventId := .leaderSymbolStop leaderSymbol.1 call.lossLimitUsdt leaderSymbol.2
    call.valuationEventId
  valuationEventId := call.valuationEventId
  leadPortfolioId := leaderSymbol.1
  symbol := leaderSymbol.2
  lossLimitUsdt := call.lossLimitUsdt
  netPositionPnlUsdt := netPnl
  triggeredAt := call.occurredAt
  blockedUntil := call.occurredAt + call.cooldown

@[simp] theorem StopCall.stopFor_leaderSymbol (call : StopCall) (netPnl : Decimal)
    (sym : String × String) : (call.stopFor netPnl sym).leaderSymbol = sym :=
  rfl

def LeaderSymbolStopEvent.interval (stop : LeaderSymbolStopEvent) : Set Time :=
  Set.Ico stop.triggeredAt stop.blockedUntil

/-- The call comes after these calls, with a valuation of its own. -/
structure StopCall.After (call : StopCall) (calls : List StopCall) : Prop where
  later : ∀ earlier ∈ calls, earlier.occurredAt ≤ call.occurredAt
  distinct : ∀ earlier ∈ calls, earlier.valuationEventId ≠ call.valuationEventId

section Calls

variable [HexOrder]

def StopLog.enforce (state : StopLog) (call : StopCall) :
    Except String (List LeaderSymbolStopEvent × StopLog) :=
  state.enforceLeaderSymbolStops call.valuationEventId call.positionMarks call.occurredAt
    call.lossLimitUsdt call.cooldown

/-- Every open side of the leader and symbol has a mark, together they have lost the limit,
and no stop of theirs blocks any more. -/
structure EventLog.LosesLimit (log : EventLog) (call : StopCall)
    (leaderSymbol : String × String) : Prop where
  marked : ∀ event ∈ log.openPnls, event.key.leaderSymbol = leaderSymbol →
    (markOf call.positionMarks event.key.symbol event.key.positionSide).isSome = true
  lost : aggregateLeaderSymbolPnl (log.pnlPositions call.positionMarks) leaderSymbol ≤
    -call.lossLimitUsdt
  cooled : ∀ stop ∈ log.stops, stop.leaderSymbol = leaderSymbol →
    stop.blockedUntil ≤ call.occurredAt

/-- A sequence of calls, in order of time and with distinct valuations.  Nothing else
writes stops. -/
inductive StopSequence : StopLog → List StopCall → Prop
  | start {state : StopLog} (hnone : state.log.stops = []) : StopSequence state []
  | enforce {state after : StopLog} {calls : List StopCall} (hrun : StopSequence state calls)
      {call : StopCall} {stops : List LeaderSymbolStopEvent}
      (hafter : call.After calls) (henforce : state.enforce call = .ok (stops, after)) :
      StopSequence after (calls ++ [call])
  | other {state after : StopLog} {calls : List StopCall} (hrun : StopSequence state calls)
      (hstops : after.log.stops = state.log.stops) : StopSequence after calls

variable {st post : StopLog} {log : EventLog} {call : StopCall} {calls : List StopCall}
  {sym : String × String}

theorem EventLog.losesLimit_iff : log.LosesLimit call sym ↔
      ¬ (sym ∈ log.incompleteKeys call.positionMarks ∨
        sym ∈ (log.blockingStops call.occurredAt).map (·.leaderSymbol) ∨
        -call.lossLimitUsdt <
          aggregateLeaderSymbolPnl (log.pnlPositions call.positionMarks) sym) := by
  have hm : sym ∉ log.incompleteKeys call.positionMarks ↔
      ∀ ev ∈ log.openPnls, ev.key.leaderSymbol = sym →
        (markOf call.positionMarks ev.key.symbol ev.key.positionSide).isSome = true := by
    simp only [EventLog.incompleteKeys, List.mem_map, List.mem_filter, not_exists, not_and,
      and_imp, Option.isSome_iff_ne_none, Option.isNone_iff_eq_none]
    exact ⟨fun ha ev hmem hk hn => ha ev hmem hn hk,
      fun ha ev hmem hn hk => ha ev hmem hk hn⟩
  have ho : sym ∉ (log.blockingStops call.occurredAt).map (·.leaderSymbol) ↔
      ∀ stop ∈ log.stops, stop.leaderSymbol = sym → stop.blockedUntil ≤ call.occurredAt := by
    simp only [EventLog.blockingStops, List.mem_map, List.mem_filter, decide_eq_true_eq,
      not_exists, not_and, and_imp]
    exact ⟨fun ha stop hmem hk => not_lt.mp fun hlt => ha stop hmem hlt hk,
      fun ha stop hmem hlt hk => absurd hlt (not_lt.mpr (ha stop hmem hk))⟩
  rw [not_or, not_or, not_lt, hm, ho]
  exact ⟨fun hl => ⟨hl.marked, hl.cooled, hl.lost⟩,
    fun ⟨hm, ho, hlo⟩ => ⟨hm, hlo, ho⟩⟩

omit [HexOrder] in
theorem EventLog.insertStop_eq {netPnl : Decimal}
    (hf : ∀ stop ∈ log.stops, ∃ (earlier : StopCall) (pnl : Decimal) (other : String × String),
      stop = earlier.stopFor pnl other ∧
      (earlier.valuationEventId ≠ call.valuationEventId ∨ other ≠ sym)) :
    log.insertStop (call.stopFor netPnl sym) =
      { log with stops := log.stops ++ [call.stopFor netPnl sym] } := by
  have hn : log.stops.any (fun other =>
      other.stopEventId = (call.stopFor netPnl sym).stopEventId ||
        (other.valuationEventId = (call.stopFor netPnl sym).valuationEventId &&
          other.leaderSymbol = (call.stopFor netPnl sym).leaderSymbol)) = false := by
    rw [List.any_eq_false]
    intro stop hm hc
    obtain ⟨earlier, pnl, other, rfl, ho⟩ := hf stop hm
    simp only [Bool.or_eq_true, Bool.and_eq_true, decide_eq_true_eq] at hc
    rcases hc with hid | ⟨hv, hk⟩
    · injection hid with hl _ hs hv
      exact ho.elim (fun hne => hne hv) fun hne => hne (Prod.ext hl hs)
    · exact ho.elim (fun hne => hne hv) fun hne => hne hk
  rw [EventLog.insertStop, if_neg (by rw [hn]; decide)]

theorem EventLog.triggerStops_stops (hk : ∀ stop ∈ log.stops, ∃ (earlier : StopCall) (pnl : Decimal)
      (other : String × String), stop = earlier.stopFor pnl other ∧
      earlier.valuationEventId ≠ call.valuationEventId) :
    ∃ new, log.triggerStops call.valuationEventId call.positionMarks call.occurredAt
        call.lossLimitUsdt call.cooldown = { log with stops := log.stops ++ new } ∧
      (∀ stop, stop ∈ new ↔ ∃ sym ∈
        ((log.pnlPositions call.positionMarks).map (·.key.leaderSymbol)).dedup,
        log.LosesLimit call sym ∧ stop = call.stopFor (aggregateLeaderSymbolPnl
          (log.pnlPositions call.positionMarks) sym) sym) ∧
      (new.map (·.leaderSymbol)).Nodup := by
  unfold EventLog.triggerStops
  dsimp only
  have hn := List.nodup_dedup ((log.pnlPositions call.positionMarks).map (·.key.leaderSymbol))
  revert hn
  generalize ((log.pnlPositions call.positionMarks).map (·.key.leaderSymbol)).dedup = pairs
  induction pairs using List.reverseRecOn with
  | nil => exact fun _ => ⟨[], by simp, by simp, by simp⟩
  | append_singleton pairs pair ih =>
    intro hn
    rw [List.nodup_append] at hn
    obtain ⟨hp, -, hf⟩ := hn
    obtain ⟨new, hnew, hm, hu⟩ := ih hp
    rw [List.foldl_concat, hnew]
    by_cases hl : log.LosesLimit call pair
    · rw [if_neg (EventLog.losesLimit_iff.mp hl)]
      have hfr : ∀ stop ∈ log.stops ++ new, ∃ (earlier : StopCall) (pnl : Decimal)
          (other : String × String), stop = earlier.stopFor pnl other ∧
          (earlier.valuationEventId ≠ call.valuationEventId ∨ other ≠ pair) := by
        intro stop hs
        rcases List.mem_append.mp hs with hold | hs
        · obtain ⟨earlier, pnl, other, heq, hne⟩ := hk stop hold
          exact ⟨earlier, pnl, other, heq, Or.inl hne⟩
        · obtain ⟨other, ho, -, heq⟩ := (hm stop).mp hs
          exact ⟨call, _, other, heq, Or.inr (hf other ho pair (by simp))⟩
      refine ⟨new ++ [call.stopFor (aggregateLeaderSymbolPnl
        (log.pnlPositions call.positionMarks) pair) pair], ?_, ?_, ?_⟩
      · rw [← List.append_assoc]
        exact EventLog.insertStop_eq hfr
      · intro stop
        rw [List.mem_append, hm, List.mem_singleton]
        simp [or_and_right, exists_or, hl]
      · rw [List.map_append, List.map_singleton, List.nodup_append]
        refine ⟨hu, List.nodup_singleton _, ?_⟩
        intro other ho last hla
        obtain ⟨stop, hs, rfl⟩ := List.mem_map.mp ho
        obtain ⟨written, hw, -, rfl⟩ := (hm stop).mp hs
        rw [List.mem_singleton.mp hla]
        exact hf written hw pair (by simp)
    · have hsk := not_not.mp fun hke => hl (EventLog.losesLimit_iff.mpr hke)
      rw [if_pos hsk]
      refine ⟨new, rfl, ?_, hu⟩
      intro stop
      rw [hm]
      simp [or_and_right, exists_or, hl]

theorem EventLog.LosesLimit.mem_pairs (hlo : log.LosesLimit call sym)
    (hl : 0 < call.lossLimitUsdt) :
    sym ∈ ((log.pnlPositions call.positionMarks).map (·.key.leaderSymbol)).dedup := by
  rw [List.mem_dedup]
  by_contra hnone
  have he : (log.pnlPositions call.positionMarks).filter (·.key.leaderSymbol = sym) = [] := by
    rw [List.filter_eq_nil_iff]
    intro pos hm hk
    exact hnone (List.mem_map.mpr ⟨pos, hm, of_decide_eq_true hk⟩)
  have hlost := hlo.lost
  rw [aggregateLeaderSymbolPnl, he] at hlost
  exact absurd hlost (not_le.mpr (neg_lt_zero.mpr hl))

structure StopHistory (calls : List StopCall) (stops : List LeaderSymbolStopEvent) : Prop where
  written : ∀ stop ∈ stops, ∃ call ∈ calls, ∃ pnl leaderSymbol,
    stop = call.stopFor pnl leaderSymbol
  follow : stops.Pairwise fun earlier later =>
    earlier.leaderSymbol = later.leaderSymbol → earlier.blockedUntil ≤ later.triggeredAt

variable {stops : List LeaderSymbolStopEvent}

theorem StopLog.enforce_spec (he : st.enforce call = .ok (stops, post)) :
    0 < call.lossLimitUsdt ∧ 0 < call.cooldown ∧
      post.log.stops = (st.log.triggerStops call.valuationEventId call.positionMarks
        call.occurredAt call.lossLimitUsdt call.cooldown).stops ∧
      ∀ row ∈ post.log.signals, row ∈ st.log.signals ∨
        ∃ stop ∈ post.log.stops, ∃ pos ∈ st.log.openPositions,
          row.signalId = stopSignalId stop.stopEventId pos.positionEventId ∧
          row.key = pos.key ∧ pos.key.leaderSymbol = stop.leaderSymbol := by
  unfold StopLog.enforce StopLog.enforceLeaderSymbolStops at he
  split at he
  · cases he
  rename_i hp
  rw [not_or, not_le, not_le] at hp
  split at he
  · cases he
  obtain ⟨blocking, ht⟩ := triggerStops_eq st.log call.valuationEventId
    call.positionMarks call.occurredAt call.lossLimitUsdt call.cooldown
  dsimp only at he
  obtain ⟨-, rfl⟩ := Prod.mk.inj (Except.ok.inj he)
  obtain ⟨rows, hl, -⟩ := insertControlSignals_spec
    (((EventLog.stoppedPositions { st.log with stops := blocking }
      (EventLog.activeStops { st.log with stops := blocking } call.occurredAt))).map
      fun reduction => stopSignalRow call.positionMarks call.occurredAt reduction.1 reduction.2)
    { st.log with stops := blocking }
  rw [ht]
  have hl := (insertStopSignals_log call.positionMarks call.occurredAt _
    ⟨{ st.log with stops := blocking }, st.stopSignals⟩).trans hl
  refine ⟨hp.1, hp.2, by rw [hl], fun row hrow => ?_⟩
  refine (insertStopSignals_linked _ _ _ _ row hrow).imp_right ?_
  rintro ⟨reduction, hr, rfl, -⟩
  obtain ⟨stop, hs, hr⟩ := List.mem_flatMap.mp hr
  obtain ⟨pos, hpo, rfl⟩ := List.mem_map.mp hr
  obtain ⟨ho, hk⟩ := List.mem_filter.mp hpo
  refine ⟨stop, ?_, pos, ho, rfl, rfl, of_decide_eq_true hk⟩
  rw [hl]
  -- an active stop is one of the stored stops
  obtain ⟨pair, -, hn⟩ := List.mem_filterMap.mp hs
  exact (List.mem_filter.mp (List.mem_filter.mp (newestBy_mem _ hn)).1).1

theorem StopHistory.enforce (hh : StopHistory calls st.log.stops) (ha : call.After calls)
    (hen : st.enforce call = .ok (stops, post)) : ∃ new, post.log.stops = st.log.stops ++ new ∧
      (∀ stop, stop ∈ new ↔ ∃ sym, st.log.LosesLimit call sym ∧
        stop = call.stopFor (aggregateLeaderSymbolPnl (st.log.pnlPositions call.positionMarks)
          sym) sym) ∧
      (new.map (·.leaderSymbol)).Nodup := by
  obtain ⟨hli, -, hs, -⟩ := StopLog.enforce_spec hen
  have hk : ∀ stop ∈ st.log.stops, ∃ (earlier : StopCall) (pnl : Decimal)
      (other : String × String), stop = earlier.stopFor pnl other ∧
      earlier.valuationEventId ≠ call.valuationEventId := by
    intro stop hst
    obtain ⟨earlier, he, pnl, pair, heq⟩ := hh.written stop hst
    exact ⟨earlier, pnl, pair, heq, ha.distinct earlier he⟩
  obtain ⟨new, ht, hm, hu⟩ := EventLog.triggerStops_stops hk
  refine ⟨new, by rw [hs, ht], fun stop => ?_, hu⟩
  rw [hm]
  constructor
  · rintro ⟨pair, -, hl, heq⟩
    exact ⟨pair, hl, heq⟩
  · rintro ⟨pair, hl, heq⟩
    exact ⟨pair, hl.mem_pairs hli, hl, heq⟩

theorem StopSequence.history (hr : StopSequence st calls) : StopHistory calls st.log.stops := by
  induction hr with
  | start hnone =>
    rw [hnone]
    exact ⟨by simp, List.Pairwise.nil⟩
  | @enforce st post calls _ call stops hafter henforce ih =>
    obtain ⟨new, hs, hm, hu⟩ := ih.enforce hafter henforce
    rw [hs]
    constructor
    · intro stop hst
      rcases List.mem_append.mp hst with ho | hn
      · obtain ⟨earlier, he, hv⟩ := ih.written stop ho
        exact ⟨earlier, List.mem_append_left _ he, hv⟩
      · obtain ⟨pair, -, heq⟩ := (hm stop).mp hn
        exact ⟨call, List.mem_append_right _ (List.mem_singleton_self _), _, pair, heq⟩
    · rw [List.pairwise_append]
      refine ⟨ih.follow, ?_, ?_⟩
      · -- the new stops have different leaders or symbols
        rw [List.Nodup, List.pairwise_map] at hu
        exact hu.imp fun hne hsa => absurd hsa hne
      · intro earlier he later hl hsa
        obtain ⟨pair, hlo, rfl⟩ := (hm later).mp hl
        exact hlo.cooled earlier he hsa
  | other _ hs ih =>
    rw [hs]
    exact ih

structure SamePair (leaderSymbol : String × String) (log : EventLog) (call : StopCall)
    (other : EventLog) (otherCall : StopCall) : Prop where
  pnls : log.pnls.filter (·.key.leaderSymbol = leaderSymbol) =
    other.pnls.filter (·.key.leaderSymbol = leaderSymbol)
  stops : log.stops.filter (·.leaderSymbol = leaderSymbol) =
    other.stops.filter (·.leaderSymbol = leaderSymbol)
  marks : ∀ side, markOf call.positionMarks leaderSymbol.2 side =
    markOf otherCall.positionMarks leaderSymbol.2 side
  valuation : call.valuationEventId = otherCall.valuationEventId
  occurredAt : call.occurredAt = otherCall.occurredAt
  lossLimit : call.lossLimitUsdt = otherCall.lossLimitUsdt
  cooldown : call.cooldown = otherCall.cooldown

theorem EventLog.mem_openPnls {ev : LeaderPnlEvent} : ev ∈ log.openPnls ↔
      log.latestPnl ev.key = some ev ∧ 0 < ev.resultingQuantity := by
  have hk : ∀ {key}, log.latestPnl key = some ev → ev ∈ log.pnls ∧ ev.key = key := by
    intro key hl
    have hm := newest_mem _ _ hl
    rwa [List.mem_filter, decide_eq_true_eq] at hm
  simp only [EventLog.openPnls, List.mem_filter, List.mem_filterMap, List.mem_dedup, List.mem_map,
    decide_eq_true_eq]
  constructor
  · rintro ⟨⟨key, -, hl⟩, ho⟩
    rw [(hk hl).2]
    exact ⟨hl, ho⟩
  · rintro ⟨hl, ho⟩
    exact ⟨⟨ev.key, ⟨ev, (hk hl).1, rfl⟩, hl⟩, ho⟩

theorem EventLog.openPnls_nodup (log : EventLog) : log.openPnls.Nodup := by
  refine List.Nodup.filter _ ((List.nodup_dedup _).filterMap ?_)
  intro left right ev hl hr
  have hl := newest_mem _ _ hl
  have hr := newest_mem _ _ hr
  rw [List.mem_filter, decide_eq_true_eq] at hl hr
  rw [← hl.2, ← hr.2]

variable {other : EventLog} {otherCall : StopCall}

theorem SamePair.latestPnl_eq (hsa : SamePair sym log call other otherCall)
    {key : VirtualPositionKey} (hk : key.leaderSymbol = sym) :
    log.latestPnl key = other.latestPnl key := by
  have hs : ∀ pnls : List LeaderPnlEvent, pnls.filter (·.key = key) =
      (pnls.filter (·.key.leaderSymbol = sym)).filter (·.key = key) := by
    intro pnls
    rw [List.filter_filter]
    refine List.filter_congr fun ev _ => ?_
    by_cases he : ev.key = key
    · simp [he, hk]
    · simp [he]
  rw [EventLog.latestPnl, EventLog.latestPnl, hs log.pnls, hs other.pnls, hsa.pnls]

theorem SamePair.openPnls_perm (hs : SamePair sym log call other otherCall) :
    (log.openPnls.filter (·.key.leaderSymbol = sym)).Perm
      (other.openPnls.filter (·.key.leaderSymbol = sym)) := by
  rw [List.perm_ext_iff_of_nodup (log.openPnls_nodup.filter _) (other.openPnls_nodup.filter _)]
  intro ev
  simp only [List.mem_filter, decide_eq_true_eq]
  refine and_congr_left fun hk => ?_
  rw [EventLog.mem_openPnls, EventLog.mem_openPnls, hs.latestPnl_eq hk]

omit [HexOrder] in
theorem SamePair.symm (hs : SamePair sym log call other otherCall) :
    SamePair sym other otherCall log call :=
  ⟨hs.pnls.symm, hs.stops.symm, fun side => (hs.marks side).symm, hs.valuation.symm,
    hs.occurredAt.symm, hs.lossLimit.symm, hs.cooldown.symm⟩

omit [HexOrder] in
theorem SamePair.markOf_eq (hsa : SamePair sym log call other otherCall)
    {key : VirtualPositionKey} (hk : key.leaderSymbol = sym) (side : PositionSide) :
    markOf call.positionMarks key.symbol side = markOf otherCall.positionMarks key.symbol side := by
  have hs : key.symbol = sym.2 := congrArg Prod.snd hk
  rw [hs]
  exact hsa.marks side

theorem SamePair.aggregate_eq (hs : SamePair sym log call other otherCall) :
    aggregateLeaderSymbolPnl (log.pnlPositions call.positionMarks) sym =
      aggregateLeaderSymbolPnl (other.pnlPositions otherCall.positionMarks) sym := by
  let valued (marks : List AccountPositionMark) (ev : LeaderPnlEvent) :
      Option LeaderSymbolPositionPnl :=
    (markOf marks ev.key.symbol ev.key.positionSide).map fun markPrice =>
      ⟨ev.key, ev.positionEventId, ev.resultingQuantity,
        ev.resultingAverageEntryPrice, markPrice⟩
  have hf : ∀ (marks : List AccountPositionMark) (events : List LeaderPnlEvent),
      (events.filterMap (valued marks)).filter (·.key.leaderSymbol = sym) =
        (events.filter (·.key.leaderSymbol = sym)).filterMap (valued marks) := by
    intro marks events
    rw [List.filter_filterMap, List.filterMap_filter]
    refine List.filterMap_congr fun ev _ => ?_
    dsimp only [valued]
    cases markOf marks ev.key.symbol ev.key.positionSide with
    | none => simp
    | some markPrice =>
      by_cases hk : ev.key.leaderSymbol = sym
      · simp [hk]
      · simp [hk]
  have hv : (log.openPnls.filter (·.key.leaderSymbol = sym)).filterMap (valued call.positionMarks) =
      (log.openPnls.filter (·.key.leaderSymbol = sym)).filterMap
        (valued otherCall.positionMarks) := by
    refine List.filterMap_congr fun ev hm => ?_
    have hk := of_decide_eq_true (List.mem_filter.mp hm).2
    dsimp only [valued]
    rw [hs.markOf_eq hk]
  have hp := hs.openPnls_perm.filterMap (valued otherCall.positionMarks)
  rw [← hv, ← hf, ← hf] at hp
  exact (hp.map _).sum_eq

theorem SamePair.losesLimit (hs : SamePair sym log call other otherCall)
    (hl : log.LosesLimit call sym) : other.LosesLimit otherCall sym := by
  refine ⟨fun ev hm hk => ?_, ?_, fun stop hm hk => ?_⟩
  · have ho : ev ∈ log.openPnls.filter (·.key.leaderSymbol = sym) :=
      hs.openPnls_perm.mem_iff.mpr (List.mem_filter.mpr ⟨hm, decide_eq_true hk⟩)
    rw [← hs.markOf_eq hk]
    exact hl.marked ev (List.mem_filter.mp ho).1 hk
  · rw [← hs.aggregate_eq, ← hs.lossLimit]
    exact hl.lost
  · have hst : stop ∈ log.stops.filter (·.leaderSymbol = sym) := by
      rw [hs.stops]
      exact List.mem_filter.mpr ⟨hm, decide_eq_true hk⟩
    rw [← hs.occurredAt]
    exact hl.cooled stop (List.mem_filter.mp hst).1 hk

/-- What a call does for each leader and symbol. -/
structure StopLog.EnforcesPairs (state : StopLog) (call : StopCall) (after : StopLog) : Prop where
  kept : state.log.stops <+: after.log.stops
  created : ∀ leaderSymbol, (∃ stop ∈ after.log.stops, stop ∉ state.log.stops ∧
    stop.leaderSymbol = leaderSymbol) ↔ state.log.LosesLimit call leaderSymbol
  timed : ∀ stop ∈ after.log.stops, stop ∉ state.log.stops →
    stop.triggeredAt = call.occurredAt ∧ stop.blockedUntil = call.occurredAt + call.cooldown
  own : ∀ row ∈ after.log.signals, row ∈ state.log.signals ∨ ∃ stop ∈ after.log.stops,
    (∃ positionEventId, row.signalId = stopSignalId stop.stopEventId positionEventId) ∧
      row.key.leaderSymbol = stop.leaderSymbol
  independent : ∀ leaderSymbol other otherCalls otherCall otherStops otherAfter,
    StopSequence other otherCalls → otherCall.After otherCalls →
    other.enforce otherCall = .ok (otherStops, otherAfter) →
    SamePair leaderSymbol state.log call other.log otherCall →
    after.log.stops.filter (·.leaderSymbol = leaderSymbol) =
      otherAfter.log.stops.filter (·.leaderSymbol = leaderSymbol)

theorem filter_new_eq {new : List LeaderSymbolStopEvent}
    (hm : ∀ stop, stop ∈ new ↔ ∃ sym, log.LosesLimit call sym ∧
      stop = call.stopFor (aggregateLeaderSymbolPnl (log.pnlPositions call.positionMarks) sym) sym)
    (hu : (new.map (·.leaderSymbol)).Nodup) (sym : String × String) :
    (log.LosesLimit call sym → new.filter (·.leaderSymbol = sym) =
      [call.stopFor (aggregateLeaderSymbolPnl (log.pnlPositions call.positionMarks) sym) sym]) ∧
    (¬ log.LosesLimit call sym → new.filter (·.leaderSymbol = sym) = []) := by
  constructor
  · intro hl
    rw [← List.perm_singleton, List.perm_ext_iff_of_nodup ((hu.of_map _).filter _)
      (List.nodup_singleton _)]
    intro stop
    rw [List.mem_filter, decide_eq_true_eq, List.mem_singleton, hm]
    constructor
    · rintro ⟨⟨pair, -, rfl⟩, hkey⟩
      rw [StopCall.stopFor_leaderSymbol] at hkey
      rw [hkey]
    · rintro rfl
      exact ⟨⟨sym, hl, rfl⟩, rfl⟩
  · intro hk
    rw [List.filter_eq_nil_iff]
    intro stop hs hkey
    obtain ⟨pair, hl, rfl⟩ := (hm stop).mp hs
    rw [StopCall.stopFor_leaderSymbol, decide_eq_true_eq] at hkey
    exact hk (hkey ▸ hl)

theorem SamePair.filter_new_eq {new otherNew : List LeaderSymbolStopEvent}
    (hs : SamePair sym log call other otherCall)
    (hm : ∀ stop, stop ∈ new ↔ ∃ sym, log.LosesLimit call sym ∧
      stop = call.stopFor (aggregateLeaderSymbolPnl (log.pnlPositions call.positionMarks) sym) sym)
    (hu : (new.map (·.leaderSymbol)).Nodup)
    (hothe : ∀ stop, stop ∈ otherNew ↔ ∃ sym, other.LosesLimit otherCall sym ∧
      stop = otherCall.stopFor (aggregateLeaderSymbolPnl
        (other.pnlPositions otherCall.positionMarks) sym) sym)
    (ho : (otherNew.map (·.leaderSymbol)).Nodup) : new.filter (·.leaderSymbol = sym) =
      otherNew.filter (·.leaderSymbol = sym) := by
  obtain ⟨hnew, hn⟩ := CopyTrading.filter_new_eq hm hu sym
  obtain ⟨hoth, hot⟩ := CopyTrading.filter_new_eq hothe ho sym
  by_cases hl : log.LosesLimit call sym
  · rw [hnew hl, hoth (hs.losesLimit hl), hs.aggregate_eq]
    simp only [StopCall.stopFor, hs.valuation, hs.occurredAt, hs.lossLimit, hs.cooldown]
  · rw [hn hl, hot fun hother => hl (hs.symm.losesLimit hother)]

theorem StopSequence.enforcesPairs (hr : StopSequence st calls) (ha : call.After calls)
    (he : st.enforce call = .ok (stops, post)) : st.EnforcesPairs call post := by
  obtain ⟨-, -, -, hsi⟩ := StopLog.enforce_spec he
  obtain ⟨new, hs, hm, hu⟩ := hr.history.enforce ha he
  have hf : ∀ stop ∈ new, stop ∉ st.log.stops := by
    intro stop hn hold
    obtain ⟨pair, -, heq⟩ := (hm stop).mp hn
    obtain ⟨earlier, hea, pnl, other, hst⟩ := hr.history.written stop hold
    refine ha.distinct earlier hea ?_
    have hv := congrArg LeaderSymbolStopEvent.valuationEventId (hst.symm.trans heq)
    exact hv
  have hn : ∀ stop ∈ post.log.stops, stop ∉ st.log.stops → stop ∈ new := by
    intro stop hst hold
    rw [hs] at hst
    exact (List.mem_append.mp hst).resolve_left hold
  refine ⟨?_, fun pair => ⟨?_, fun hl => ?_⟩, fun stop hst hold => ?_, fun row hrow => ?_, ?_⟩
  · rw [hs]
    exact List.prefix_append _ _
  · rintro ⟨stop, hst, hold, hk⟩
    obtain ⟨pair, hl, rfl⟩ := (hm stop).mp (hn stop hst hold)
    rw [StopCall.stopFor_leaderSymbol] at hk
    rwa [← hk]
  · have hw := (hm _).mpr ⟨pair, hl, rfl⟩
    refine ⟨_, ?_, hf _ hw, rfl⟩
    rw [hs]
    exact List.mem_append_right _ hw
  · obtain ⟨pair, -, rfl⟩ := (hm stop).mp (hn stop hst hold)
    exact ⟨rfl, rfl⟩
  · refine (hsi row hrow).imp_right ?_
    rintro ⟨stop, hst, pos, -, hid, hk, hp⟩
    exact ⟨stop, hst, ⟨_, hid⟩, by rw [hk, hp]⟩
  · intro pair other otherCalls otherCall otherStops otherAfter hother hothe ho hsa
    obtain ⟨otherNew, hoth, hotherM, hot⟩ :=
      hother.history.enforce hothe ho
    rw [hs, hoth, List.filter_append, List.filter_append, hsa.stops,
      hsa.filter_new_eq hm hu hotherM hot]

omit [HexOrder] in
theorem EventLog.activeLeaderSymbolStop_iff {leader sym : String} {at0 : Time} :
    log.activeLeaderSymbolStop leader sym at0 = true ↔
      ∃ stop ∈ log.stops, stop.leaderSymbol = (leader, sym) ∧
        at0 < stop.blockedUntil := by
  simp [EventLog.activeLeaderSymbolStop, LeaderSymbolStopEvent.leaderSymbol, Prod.ext_iff,
    and_assoc]

/-- Stops and cooldowns over every sequence of calls.  The intervals of one leader and symbol
are disjoint; a query finds a stop that has not run out, which from the last trigger of the
leader and symbol on means that its time lies in an interval; and the next call writes
exactly the stops of those that have lost the limit, each for its own leader and symbol. -/
theorem stops_of_sequence (hrun : StopSequence st calls) :
    st.log.stops.Pairwise (fun earlier later => earlier.leaderSymbol = later.leaderSymbol →
        Disjoint earlier.interval later.interval) ∧
      (∀ leader sym at0, (st.log.activeLeaderSymbolStop leader sym at0 = true ↔
          ∃ stop ∈ st.log.stops, stop.leaderSymbol = (leader, sym) ∧
            at0 < stop.blockedUntil) ∧
        ((∀ stop ∈ st.log.stops, stop.leaderSymbol = (leader, sym) → stop.triggeredAt ≤ at0) →
          (st.log.activeLeaderSymbolStop leader sym at0 = true ↔
            ∃ stop ∈ st.log.stops, stop.leaderSymbol = (leader, sym) ∧
              at0 ∈ stop.interval))) ∧
      ∀ call stops post, call.After calls → st.enforce call = .ok (stops, post) →
        st.EnforcesPairs call post := by
  refine ⟨?_, fun leader sym at0 => ⟨?_, fun ht => ?_⟩, ?_⟩
  · refine hrun.history.follow.imp fun hf hsa => ?_
    rw [Set.disjoint_left]
    intro time he hl
    exact absurd (he.2.trans_le ((hf hsa).trans hl.1)) (lt_irrefl _)
  · exact EventLog.activeLeaderSymbolStop_iff
  · rw [EventLog.activeLeaderSymbolStop_iff]
    constructor
    · rintro ⟨stop, hs, hk, hb⟩
      exact ⟨stop, hs, hk, ht stop hs hk, hb⟩
    · rintro ⟨stop, hs, hk, -, hb⟩
      exact ⟨stop, hs, hk, hb⟩
  · intro call stops post ha hen
    exact hrun.enforcesPairs ha hen

end Calls

section OneStop

local instance cooldownHexOrder : HexOrder := distinctHexOrder

/-- The call that finds the unit of `entryRetried` at half its price. -/
def halvedCall : StopCall where
  valuationEventId := .external "valuation"
  positionMarks := halvedMarks
  occurredAt := newYear + 3600000000
  lossLimitUsdt := leaderSymbolStopLossUsdt
  cooldown := leaderSymbolStopCooldown

def halvedAgain : StopCall :=
  { halvedCall with
    valuationEventId := .external "next"
    occurredAt := newYear + 3600000000 + 2 * leaderSymbolStopCooldown }

theorem stopSequence_halved : StopSequence stopTriggered.2 [halvedCall] := by
  have hs : StopSequence ⟨entryRetried.log, []⟩ [] := .start (by with_unfolding_all decide)
  have he : StopLog.enforce ⟨entryRetried.log, []⟩ halvedCall = .ok stopTriggered :=
    eq_ok_okValue _
  exact .enforce hs ⟨by simp, by simp⟩ he

/-- The stop has run out after a day, and the loss that is still there triggers another. -/
theorem halved_again_triggers :
    stopTriggered.2.log.activeLeaderSymbolStop "1" "BTCUSDT" (newYear + 3600000000) = true ∧
      stopTriggered.2.log.activeLeaderSymbolStop "1" "BTCUSDT" halvedAgain.occurredAt = false ∧
      ∃ stops post, stopTriggered.2.enforce halvedAgain = .ok (stops, post) ∧
        (∃ stop ∈ post.log.stops, stop ∉ stopTriggered.2.log.stops ∧
          stop.leaderSymbol = ("1", "BTCUSDT")) ∧
        stopTriggered.2.EnforcesPairs halvedAgain post := by
  refine ⟨by with_unfolding_all decide, by with_unfolding_all decide, ?_⟩
  have hok : (stopTriggered.2.enforce halvedAgain).isOk = true := by decide
  have he := eq_ok_okValue hok
  have ha : halvedAgain.After [halvedCall] := by
    constructor
    · simp only [List.forall_mem_singleton]
      decide
    · simp only [List.forall_mem_singleton]
      decide
  have hp := (stops_of_sequence stopSequence_halved).2.2 halvedAgain _ _ ha he
  refine ⟨_, _, he, ?_, hp⟩
  with_unfolding_all decide

theorem stop_found_before_trigger :
    ¬ ∀ [HexOrder] (st : StopLog) (calls : List StopCall) (leader sym : String)
        (at0 : Time), StopSequence st calls → (st.log.activeLeaderSymbolStop leader sym at0 = true ↔
          ∃ stop ∈ st.log.stops, stop.leaderSymbol = (leader, sym) ∧
            at0 ∈ stop.interval) := by
  intro hc
  have ha : stopTriggered.2.log.activeLeaderSymbolStop "1" "BTCUSDT" newYear = true := by
    with_unfolding_all decide
  have hl : ∀ stop ∈ stopTriggered.2.log.stops, newYear < stop.triggeredAt := by
    with_unfolding_all decide
  obtain ⟨stop, hs, -, ht, -⟩ := (@hc cooldownHexOrder stopTriggered.2 [halvedCall]
    "1" "BTCUSDT" newYear stopSequence_halved).mp ha
  exact absurd (hl stop hs) (not_lt.mpr ht)

end OneStop

end AiQuant.CopyTrading
