import AiQuant.CopyTrading.LiveEntries
import AiQuant.CopyTrading.WatchdogRun

/-! The watchdog's reconciliation of the exchange with the virtual positions.  A protected
entry may fill before its fill is attributed; the allowance query explains the surplus, as
far as it sees the entry.  It sees an entry by its latest decision, which is recorded after
the order is placed. -/
namespace AiQuant.CopyTrading
open AiQuant.Lib

def groupedQuantities (pairs : List (String × PositionSide))
    (total : String × PositionSide → Decimal) : ExchangePositions where
  entries := (pairs.dedup.filter (0 < total ·)).map fun pair => (pair, total pair)
  nodup_keys := by
    rw [List.map_map]
    exact ((List.nodup_dedup pairs).filter _).map fun _ _ hsame => hsame

theorem quantity_groupedQuantities (pairs : List (String × PositionSide))
    (total : String × PositionSide → Decimal) (pair : String × PositionSide) :
    (groupedQuantities pairs total).quantity pair =
      if pair ∈ pairs ∧ 0 < total pair then total pair else 0 := by
  have hf : (((pairs.dedup.filter (0 < total ·)).map fun pair => (pair, total pair)).find?
      (·.1 = pair)).map (·.2) =
        if pair ∈ pairs.dedup.filter (0 < total ·) then some (total pair) else none := by
    induction pairs.dedup.filter (0 < total ·) with
    | nil => rfl
    | cons first rest ih =>
      rw [List.map_cons, List.find?_cons]
      by_cases hs : first = pair
      · simp [hs]
      · simp only [hs, decide_false, ih, List.mem_cons, Ne.symm hs, false_or]
  rw [ExchangePositions.quantity, groupedQuantities, hf]
  simp only [List.mem_filter, List.mem_dedup, decide_eq_true_eq]
  split <;> rfl

/-- `_VIRTUAL_SQL`. -/
def EventLog.virtualQuantities [HexOrder] (log : EventLog) : ExchangePositions :=
  groupedQuantities (log.positions.map (·.key.pair)) fun pair =>
    log.loadVirtualLedger.ownedQuantity pair.1 pair.2

def EventLog.entrySignals (log : EventLog) (pair : String × PositionSide) : List SignalRow :=
  log.signals.filter fun row => row.signalKind = .increase && row.key.pair = pair

/-- The `LIMIT` claims joined with the entries of a pair. -/
def EventLog.entryClaims (log : EventLog) (pair : String × PositionSide) :
    List SubmissionClaimRow :=
  (log.claims.filter (·.orderType = .limit)).flatMap fun claim =>
    ((log.entrySignals pair).filter (·.signalId = claim.signalId)).map fun _ => claim

def overdueGrace : Time := 120000000

/-- A claim that has no expiry, or not one more than `grace` ago. -/
def EventLog.unexpired (log : EventLog) (claim : SubmissionClaimRow) (grace now : Time) : Bool :=
  log.policyUpgrades.any (·.signalId = claim.signalId) || claim.expiresAt.all (now - grace < ·)

section Reads

variable [HexOrder]

/-- The condition of `_PENDING_ENTRY_ALLOWANCE_SQL` on a claim. -/
def EventLog.isSeenEntry (log : EventLog) (now : Time) (claim : SubmissionClaimRow) : Bool :=
  log.decidedAs claim.signalId pendingDecisionStates && log.unexpired claim overdueGrace now

def EventLog.seenEntries (log : EventLog) (now : Time) (pair : String × PositionSide) :
    List SubmissionClaimRow :=
  (log.entryClaims pair).filter (log.isSeenEntry now)

/-- `sum(claim.requested_quantity)`, which skips the rows without one. -/
def requestedSum (claims : List SubmissionClaimRow) : Decimal :=
  (claims.filterMap (·.requestedQuantity)).sum

/-- `pending_entry_allowances`.  A group without any quantity sums to `NULL`, which is no
decimal. -/
def EventLog.pendingEntryAllowances (log : EventLog) (now : Time) : Option ExchangePositions :=
  let pairs := log.signals.map (·.key.pair)
  if pairs.any fun pair => log.seenEntries now pair ≠ [] ∧
      (log.seenEntries now pair).filterMap (·.requestedQuantity) = [] then none
  else some (groupedQuantities pairs fun pair => requestedSum (log.seenEntries now pair))

/-- `read_facts`, with the counts and ages it reads from other tables. -/
def EventLog.readFacts (log : EventLog) (now : Time) (counts : DatabaseHealthFacts) :
    Option DatabaseHealthFacts :=
  (log.pendingEntryAllowances now).map fun allowances =>
    { counts with
      controlState := log.latestRuntimeControl.state
      virtualPositions := log.virtualQuantities
      pendingEntryAllowances := allowances }

variable {log : EventLog} {now : Time} {pair : String × PositionSide}

omit [HexOrder] in
theorem ownedQuantity_nonneg (ledger : VirtualPositionLedger) (sym : String)
    (side : PositionSide) : 0 ≤ ledger.ownedQuantity sym side := by
  apply List.sum_nonneg
  intro qty hq
  obtain ⟨pos, -, rfl⟩ := List.mem_map.mp hq
  exact pos.localQuantity_nonneg

theorem quantity_virtualQuantities : log.virtualQuantities.quantity pair =
      log.loadVirtualLedger.ownedQuantity pair.1 pair.2 := by
  rw [EventLog.virtualQuantities, quantity_groupedQuantities]
  split
  · rfl
  · rename_i hgroup
    have hn := ownedQuantity_nonneg log.loadVirtualLedger pair.1 pair.2
    by_contra hne
    have hpo := lt_of_le_of_ne hn hne
    refine hgroup ⟨?_, hpo⟩
    -- a pair with a quantity has a position
    by_contra habsent
    refine hne (Eq.symm (List.sum_eq_zero fun qty hq => ?_))
    obtain ⟨pos, hp, rfl⟩ := List.mem_map.mp hq
    rw [List.mem_filter] at hp
    obtain ⟨hp, hpa⟩ := hp
    rw [Bool.and_eq_true, decide_eq_true_eq, decide_eq_true_eq] at hpa
    obtain ⟨key, hk, hl⟩ := List.mem_filterMap.mp hp
    obtain ⟨ev, he, rfl⟩ := Option.map_eq_some_iff.mp hl
    rw [List.mem_dedup, List.mem_map] at hk
    refine absurd (List.mem_map.mpr ⟨ev, (EventLog.latestPosition_mem he).1, ?_⟩) habsent
    exact Prod.ext hpa.1 hpa.2

def EventLog.ClaimsSized (log : EventLog) : Prop :=
  ∀ claim ∈ log.claims, ∃ quantity, claim.requestedQuantity = some quantity ∧ 0 < quantity

theorem ControlRun.claimsSized {allowed : EventLog → EventLog → Prop}
    (hr : ControlRun allowed log) : log.ClaimsSized := by
  induction hr with
  | start _ hunused =>
    intro claim hc
    rw [hunused.claims] at hc
    cases hc
  | write _ hw _ ih =>
    rcases hw.claims_cases.2 with hs | ⟨ord, env, now, -, -, rfl⟩
    · intro claim hc
      exact ih claim (hs ▸ hc)
    · intro claim hc
      rw [List.mem_append, List.mem_singleton] at hc
      rcases hc with hold | rfl
      · exact ih claim hold
      · exact ⟨ord.localQuantity, rfl, ord.localQuantity_pos⟩
  | control _ _ time ih =>
    obtain ⟨rows, hl, -⟩ := ensureControlReductionSignals_spec _ _ time
    rw [hl]
    exact ih
  | outside _ ho ih =>
    intro claim hc
    exact ih claim (ho.claims ▸ hc)

omit [HexOrder] in
theorem mem_claims_of_entryClaims {claim : SubmissionClaimRow}
    (hc : claim ∈ log.entryClaims pair) : claim ∈ log.claims := by
  obtain ⟨other, ho, hm⟩ := List.mem_flatMap.mp hc
  obtain ⟨row, -, rfl⟩ := List.mem_map.mp hm
  exact (List.mem_filter.mp ho).1

omit [HexOrder] in
theorem mem_pairs_of_entryClaims {claim : SubmissionClaimRow}
    (hc : claim ∈ log.entryClaims pair) : pair ∈ log.signals.map (·.key.pair) := by
  obtain ⟨other, -, hm⟩ := List.mem_flatMap.mp hc
  obtain ⟨row, hr, -⟩ := List.mem_map.mp hm
  obtain ⟨hr, hp⟩ := List.mem_filter.mp (List.mem_filter.mp hr).1
  rw [Bool.and_eq_true, decide_eq_true_eq, decide_eq_true_eq] at hp
  exact List.mem_map.mpr ⟨row, hr, hp.2⟩

/-- The requested quantity of a claim, `0` without one. -/
def SubmissionClaimRow.quantity (claim : SubmissionClaimRow) : Decimal :=
  claim.requestedQuantity.getD 0

omit [HexOrder] in
theorem requestedSum_eq (claims : List SubmissionClaimRow) :
    requestedSum claims = (claims.map (·.quantity)).sum := by
  unfold requestedSum
  induction claims with
  | nil => rfl
  | cons claim claims ih =>
    rw [List.map_cons, List.sum_cons, ← ih, SubmissionClaimRow.quantity]
    cases hq : claim.requestedQuantity with
    | none => simp [hq]
    | some qty => simp [hq]

theorem pendingEntryAllowances_spec (hs : log.ClaimsSized) :
    ∃ allowances, log.pendingEntryAllowances now = some allowances ∧ ∀ pair,
      allowances.quantity pair = ((log.seenEntries now pair).map (·.quantity)).sum := by
  have hp : ∀ pair, ∀ claim ∈ log.seenEntries now pair,
      ∃ qty, claim.requestedQuantity = some qty ∧ 0 < qty := fun pair claim hc =>
    hs claim (mem_claims_of_entryClaims (List.mem_filter.mp hc).1)
  have hr : ¬ (log.signals.map (·.key.pair)).any (fun pair => log.seenEntries now pair ≠ [] ∧
      (log.seenEntries now pair).filterMap (·.requestedQuantity) = []) := by
    intro ha
    obtain ⟨pair, -, hn⟩ := List.any_eq_true.mp ha
    rw [decide_eq_true_eq] at hn
    obtain ⟨claim, hc⟩ := List.exists_mem_of_ne_nil _ hn.1
    obtain ⟨qty, hq, -⟩ := hp pair claim hc
    have hm := List.mem_filterMap.mpr ⟨claim, hc, hq⟩
    rw [hn.2] at hm
    cases hm
  refine ⟨_, by rw [EventLog.pendingEntryAllowances, if_neg hr], fun pair => ?_⟩
  rw [quantity_groupedQuantities, requestedSum_eq]
  split
  · rfl
  · rename_i hgroup
    cases hse : log.seenEntries now pair with
    | nil => rfl
    | cons claim claims =>
      have hm : claim ∈ log.seenEntries now pair := hse ▸ List.mem_cons_self
      have hpa := mem_pairs_of_entryClaims (List.mem_filter.mp hm).1
      have hsum : 0 < ((log.seenEntries now pair).map (·.quantity)).sum := by
        apply List.sum_pos
        · intro qty hq
          obtain ⟨other, ho, rfl⟩ := List.mem_map.mp hq
          obtain ⟨qty, hso, hpos⟩ := hp pair other ho
          rw [SubmissionClaimRow.quantity, hso]
          exact hpos
        · rw [hse]
          simp
      exact absurd ⟨hpa, hsum⟩ hgroup

end Reads

section InFlight

variable [HexOrder]

/-- Fills at the exchange, by signal, that have not been attributed yet.  Only an entry
that was placed and has not expired has one, of no more than it requested. -/
structure InFlightFills (world : World) (now : Time) (fills : Digest → Decimal) : Prop where
  nonneg : ∀ signalId, 0 ≤ fills signalId
  le_requested : ∀ claim ∈ world.log.claims, fills claim.signalId ≤ claim.quantity
  limit : ∀ claim ∈ world.log.claims, fills claim.signalId ≠ 0 → claim.orderType = .limit
  placed : ∀ claim ∈ world.log.claims, fills claim.signalId ≠ 0 →
    ∃ parameters ∈ placements world.trace, parameters.newClientOrderId = claim.clientOrderId
  unattributed : ∀ claim ∈ world.log.claims, fills claim.signalId ≠ 0 →
    ∀ event ∈ world.log.positions, event.signalId ≠ claim.signalId
  unexpired : ∀ claim ∈ world.log.claims, fills claim.signalId ≠ 0 →
    world.log.unexpired claim 0 now = true

/-- The exchange holds the virtual position of every pair and the fills in flight there. -/
def ExchangeHolds (log : EventLog) (fills : Digest → Decimal) (exchange : ExchangePositions) :
    Prop :=
  ∀ pair, exchange.quantity pair = log.loadVirtualLedger.ownedQuantity pair.1 pair.2 +
    ((log.entryClaims pair).map fun claim => fills claim.signalId).sum

/-- What the entries unseen by the allowance query have filled is no more than what the
seen ones have left to fill. -/
def FillsCovered (log : EventLog) (now : Time) (fills : Digest → Decimal)
    (pair : String × PositionSide) : Prop :=
  (((log.entryClaims pair).filter fun claim => !log.isSeenEntry now claim).map
      fun claim => fills claim.signalId).sum ≤
    ((log.seenEntries now pair).map fun claim => claim.quantity - fills claim.signalId).sum +
      reconciliationTolerance

variable {log : EventLog} {now : Time} {pair : String × PositionSide} {fills : Digest → Decimal}

omit [HexOrder] in
theorem sum_split {α : Type} (keep : α → Bool) (term : α → Decimal) (items : List α) :
    (items.map term).sum =
      ((items.filter keep).map term).sum + ((items.filter fun item => !keep item).map term).sum := by
  induction items with
  | nil => simp
  | cons item items ih =>
    cases hk : keep item with
    | true => simp [hk, ih, add_assoc]
    | false =>
      simp only [List.map_cons, List.sum_cons, ih, List.filter_cons, hk, Bool.not_false,
        Bool.false_eq_true, if_false, if_true]
      ring

omit [HexOrder] in
theorem sum_sub {α : Type} (left right : α → Decimal) (items : List α) :
    (items.map fun item => left item - right item).sum =
      (items.map left).sum - (items.map right).sum := by
  induction items with
  | nil => simp
  | cons item items ih =>
    simp only [List.map_cons, List.sum_cons, ih]
    ring

theorem fillsCovered_iff : FillsCovered log now fills pair ↔
    ((log.entryClaims pair).map fun claim => fills claim.signalId).sum ≤
      ((log.seenEntries now pair).map (·.quantity)).sum + reconciliationTolerance := by
  rw [FillsCovered, sum_sub, sum_split (log.isSeenEntry now) _ (log.entryClaims pair)]
  rw [EventLog.seenEntries]
  constructor
  · intro hc
    linarith
  · intro hc
    linarith

theorem fillsCovered_of_seen {world : World} (hf : InFlightFills world now fills)
    (hs : ∀ claim ∈ world.log.entryClaims pair, fills claim.signalId ≠ 0 →
      world.log.isSeenEntry now claim = true) : FillsCovered world.log now fills pair := by
  have hu : (((world.log.entryClaims pair).filter fun claim =>
      !world.log.isSeenEntry now claim).map fun claim => fills claim.signalId).sum = 0 := by
    refine List.sum_eq_zero fun fill hfi => ?_
    obtain ⟨claim, hc, rfl⟩ := List.mem_map.mp hfi
    rw [List.mem_filter, Bool.not_eq_true'] at hc
    by_contra hne
    exact absurd (hs claim hc.1 hne) (by rw [hc.2]; simp)
  have hr : 0 ≤ ((world.log.seenEntries now pair).map
      fun claim => claim.quantity - fills claim.signalId).sum := by
    apply List.sum_nonneg
    intro rest hr
    obtain ⟨claim, hc, rfl⟩ := List.mem_map.mp hr
    have hm := mem_claims_of_entryClaims (List.mem_filter.mp hc).1
    exact sub_nonneg.mpr (hf.le_requested claim hm)
  rw [FillsCovered, hu]
  exact add_nonneg hr (by norm_num [reconciliationTolerance])

variable [DecimalFormat]

variable {facts : DatabaseHealthFacts} {exchange : ExchangePositions}

section

omit [HexOrder]

theorem pairItems_eq_nil_iff
    (hs : 0 ≤ exchange.quantity pair - facts.virtualPositions.quantity pair)
    (ha : 0 ≤ facts.pendingEntryAllowances.quantity pair) : pairItems facts exchange pair = [] ↔
      exchange.quantity pair - facts.virtualPositions.quantity pair ≤
        facts.pendingEntryAllowances.quantity pair + reconciliationTolerance := by
  have ht : 0 < reconciliationTolerance := by norm_num [reconciliationTolerance]
  rw [pairItems]
  simp only [itemWhen, explainedByPendingEntry, abs_of_nonneg hs, decide_eq_true_eq]
  generalize exchange.quantity pair - facts.virtualPositions.quantity pair = surplus at *
  generalize facts.pendingEntryAllowances.quantity pair = allowance at *
  rw [ite_eq_right_iff]
  simp only [List.cons_ne_nil, imp_false, not_and_not_right]
  constructor
  · intro he
    by_cases hsm : surplus ≤ reconciliationTolerance
    · linarith
    · exact (he (not_le.mp hsm)).2.2
  · intro hle hl
    refine ⟨by linarith, ?_, hle⟩
    by_contra hnone
    linarith [not_lt.mp hnone]

def mismatchCode : String := "COPY_POSITION_RECONCILIATION_MISMATCH"

variable {item : HealthItem}

omit [DecimalFormat] in
theorem mem_itemWhen {condition : Bool} {other : HealthItem} :
    item ∈ itemWhen condition other ↔ condition = true ∧ item = other := by
  cases condition with
  | true => simp [itemWhen]
  | false => simp [itemWhen]

omit [DecimalFormat] in
theorem graded_code (severe : Bool) (code detail : String) :
    (HealthItem.graded severe code detail).finding.code = code := by
  cases severe <;> rfl

theorem pairItems_code (hi : item ∈ pairItems facts exchange pair) :
    item.finding.code = mismatchCode := by
  rw [pairItems, mem_itemWhen] at hi
  rw [hi.2]
  rfl

def NoMismatch (items : List HealthItem) : Prop :=
  ∀ item ∈ items, item.finding.code ≠ mismatchCode

omit [DecimalFormat] in
theorem noMismatch_nil : NoMismatch [] := by simp [NoMismatch]

omit [DecimalFormat] in
theorem noMismatch_singleton : NoMismatch [item] ↔ item.finding.code ≠ mismatchCode := by
  simp [NoMismatch]

omit [DecimalFormat] in
theorem noMismatch_append {first second : List HealthItem} :
    NoMismatch (first ++ second) ↔ NoMismatch first ∧ NoMismatch second :=
  List.forall_mem_append

omit [DecimalFormat] in
theorem noMismatch_itemWhen {condition : Bool}
    (hc : item.finding.code ≠ mismatchCode) : NoMismatch (itemWhen condition item) := by
  intro other ho
  rw [(mem_itemWhen.mp ho).2]
  exact hc

theorem noMismatch_database (facts : DatabaseHealthFacts) :
    NoMismatch (pollAgeItems facts) ∧ NoMismatch (slotItems facts) ∧
      NoMismatch (pollFailureItems facts) ∧ NoMismatch (executionFailureItems facts) ∧
      NoMismatch (minimumRejectionItems facts) ∧ NoMismatch (outboxItems facts) ∧
      NoMismatch (codexAuditItems facts) := by
  refine ⟨?_, ?_, ?_, ?_, ?_, ?_, ?_⟩
  · unfold pollAgeItems
    split_ifs
    · exact noMismatch_singleton.mpr (by decide)
    · exact noMismatch_singleton.mpr (by simp [HealthItem.pausing, mismatchCode])
    · exact noMismatch_itemWhen (by simp [HealthItem.warning, mismatchCode])
  · exact noMismatch_itemWhen (by simp [HealthItem.warning, mismatchCode])
  · unfold pollFailureItems
    split_ifs
    · exact noMismatch_singleton.mpr (by simp [HealthItem.pausing, mismatchCode])
    · exact noMismatch_itemWhen (by simp [HealthItem.warning, mismatchCode])
  · exact noMismatch_itemWhen (by rw [graded_code]; decide)
  · exact noMismatch_itemWhen (by simp [HealthItem.warning, mismatchCode])
  · unfold outboxItems
    split
    · exact noMismatch_nil
    · exact noMismatch_itemWhen (by rw [graded_code]; decide)
  · unfold codexAuditItems
    split_ifs
    · exact noMismatch_singleton.mpr (by simp [HealthItem.warning, mismatchCode])
    · exact noMismatch_itemWhen (by simp [HealthItem.warning, mismatchCode])

theorem noMismatch_account (facts : DatabaseHealthFacts) (acct : CopyAccountSnapshot)
    (readAt : Time) :
    NoMismatch (accountItems facts acct) ∧ NoMismatch (riskItems acct readAt) := by
  refine ⟨noMismatch_append.mpr ⟨?_, ?_⟩, ?_⟩
  · exact noMismatch_itemWhen (by simp [HealthItem.pausing, mismatchCode])
  · exact noMismatch_itemWhen (by rw [graded_code]; decide)
  · unfold riskItems
    dsimp only
    split_ifs
    · exact noMismatch_singleton.mpr (by simp [HealthItem.flattening, mismatchCode])
    · exact noMismatch_itemWhen (by simp [HealthItem.advisory, mismatchCode])

theorem noMismatch_host (host : HostHealthFacts) : NoMismatch (hostItems host) := by
  simp only [hostItems, noMismatch_append]
  refine ⟨⟨⟨⟨?_, ?_⟩, ?_⟩, ?_⟩, ?_⟩
  · intro item hi
    obtain ⟨unit, -, hu⟩ := List.mem_flatMap.mp hi
    rw [(mem_itemWhen.mp hu).2]
    simp [HealthItem.pausing, mismatchCode]
  · unfold userStreamItems
    split
    · exact noMismatch_nil
    · exact noMismatch_itemWhen (by simp [HealthItem.warning, mismatchCode])
  · unfold diskItems
    split_ifs
    · exact noMismatch_singleton.mpr (by simp [HealthItem.pausing, mismatchCode])
    · exact noMismatch_itemWhen (by simp [HealthItem.warning, mismatchCode])
  · unfold memoryItems
    split_ifs
    · exact noMismatch_singleton.mpr (by simp [HealthItem.pausing, mismatchCode])
    · exact noMismatch_itemWhen (by simp [HealthItem.warning, mismatchCode])
  · unfold backupItems
    split
    · exact noMismatch_singleton.mpr (by simp [HealthItem.warning, mismatchCode])
    · split_ifs
      · exact noMismatch_singleton.mpr (by simp [HealthItem.pausing, mismatchCode])
      · exact noMismatch_itemWhen (by simp [HealthItem.warning, mismatchCode])

theorem findings_noMismatch_iff {acct : CopyAccountSnapshot}
    {readAt : Time} {host : Option HostHealthFacts} :
    (∀ finding ∈ (evaluateHealth facts acct exchange readAt host).findings,
        finding.code ≠ mismatchCode) ↔
      ∀ pair ∈ reconciledKeys facts exchange, pairItems facts exchange pair = [] := by
  obtain ⟨hage, hs, hp, hf, hm, ho, hc⟩ := noMismatch_database facts
  obtain ⟨ha, hr⟩ := noMismatch_account facts acct readAt
  have hh : NoMismatch (host.elim [] hostItems) := by
    cases host with
    | none => exact noMismatch_nil
    | some host => exact noMismatch_host host
  have hot : NoMismatch (healthItems facts acct exchange readAt host) ↔
      NoMismatch (reconciliationItems facts exchange) := by
    simp only [healthItems, noMismatch_append, hage, hs, hp, hf, hm, ho,
      hc, ha, hr, hh, true_and, and_true]
    refine and_iff_right ?_
    refine ⟨⟨⟨⟨⟨⟨?_, ?_⟩, ?_⟩, ?_⟩, ?_⟩, ?_⟩, ?_⟩
    all_goals
      exact noMismatch_itemWhen (by simp [HealthItem.warning, HealthItem.pausing, mismatchCode])
  rw [evaluateHealth_findings, List.forall_mem_map]
  refine hot.trans ?_
  unfold NoMismatch reconciliationItems
  constructor
  · intro hn pair hpa
    rw [List.eq_nil_iff_forall_not_mem]
    intro item hi
    exact hn item (List.mem_flatMap.mpr ⟨pair, hpa, hi⟩) (pairItems_code hi)
  · intro hn item hi
    obtain ⟨pair, hpa, hmem⟩ := List.mem_flatMap.mp hi
    rw [hn pair hpa] at hmem
    cases hmem

theorem pairItems_of_not_mem
    (hp : pair ∉ reconciledKeys facts exchange) : pairItems facts exchange pair = [] := by
  rw [reconciledKeys, List.mem_insertionSort, List.mem_dedup, List.mem_append, not_or] at hp
  have ha : ∀ positions : ExchangePositions, pair ∉ positions.entries.map Prod.fst →
      positions.quantity pair = 0 := by
    intro positions hn
    rw [ExchangePositions.quantity, List.find?_eq_none.mpr]
    · rfl
    · intro entry he hs
      exact hn (List.mem_map.mpr ⟨entry, he, of_decide_eq_true hs⟩)
  rw [pairItems, ha _ hp.1, ha _ hp.2]
  simp [itemWhen, reconciliationTolerance]

end

omit [DecimalFormat] in
theorem readFacts_spec (hs : log.ClaimsSized) (now : Time) (counts : DatabaseHealthFacts) :
    ∃ facts, log.readFacts now counts = some facts ∧ ∀ pair, facts.virtualPositions.quantity pair =
          log.loadVirtualLedger.ownedQuantity pair.1 pair.2 ∧
        facts.pendingEntryAllowances.quantity pair =
          ((log.seenEntries now pair).map (·.quantity)).sum := by
  obtain ⟨allowances, ha, hq⟩ := pendingEntryAllowances_spec hs
  refine ⟨_, by rw [EventLog.readFacts, ha, Option.map_some], fun pair => ?_⟩
  exact ⟨quantity_virtualQuantities, hq pair⟩

/-- The watchdog that reads the tables in any state of the runtime reports no mismatch for
a pair exactly when the fills in flight there are covered. -/
theorem reconciliation_clean_iff_fills_covered {world : World} (hrun : EngineRun world)
    (hfills : InFlightFills world now fills) {exchange : ExchangePositions}
    (hexchange : ExchangeHolds world.log fills exchange) (counts : DatabaseHealthFacts)
    (acct : CopyAccountSnapshot) (readAt : Time) (host : Option HostHealthFacts) :
    ∃ facts, world.log.readFacts now counts = some facts ∧
      (∀ pair, pairItems facts exchange pair = [] ↔ FillsCovered world.log now fills pair) ∧
      ((∀ finding ∈ (evaluateHealth facts acct exchange readAt host).findings,
          finding.code ≠ mismatchCode) ↔ ∀ pair, FillsCovered world.log now fills pair) := by
  have hsi := hrun.controlRun.claimsSized
  obtain ⟨facts, hf, hq⟩ := readFacts_spec hsi now counts
  have hp : ∀ pair, pairItems facts exchange pair = [] ↔ FillsCovered world.log now fills pair := by
    intro pair
    obtain ⟨hv, ha⟩ := hq pair
    have hs : exchange.quantity pair - facts.virtualPositions.quantity pair =
        ((world.log.entryClaims pair).map fun claim => fills claim.signalId).sum := by
      rw [hexchange pair, hv, add_sub_cancel_left]
    rw [pairItems_eq_nil_iff, hs, ha, fillsCovered_iff]
    · rw [hs]
      apply List.sum_nonneg
      intro fill hfi
      obtain ⟨claim, -, rfl⟩ := List.mem_map.mp hfi
      exact hfills.nonneg claim.signalId
    · rw [ha]
      apply List.sum_nonneg
      intro qty hqu
      obtain ⟨claim, hcla, rfl⟩ := List.mem_map.mp hqu
      have hm := mem_claims_of_entryClaims (List.mem_filter.mp hcla).1
      exact (hfills.nonneg claim.signalId).trans (hfills.le_requested claim hm)
  refine ⟨facts, hf, hp, findings_noMismatch_iff.trans ?_⟩
  constructor
  · intro hcl pair
    rw [← hp pair]
    by_cases hpa : pair ∈ reconciledKeys facts exchange
    · exact hcl pair hpa
    · exact pairItems_of_not_mem hpa
  · exact fun hc pair _ => (hp pair).mpr (hc pair)

end InFlight

section OneFilledEntry

local instance filledHexOrder : HexOrder := distinctHexOrder

local instance filledDecimalFormat : DecimalFormat := ⟨fun value => toString value.num⟩

def entryPlaced : World :=
  (processSignal {} entrySignalOfRow activeLeader).runFor (restingAnswer false) 15 ⟨entryStored, []⟩

theorem engineRun_entryPlaced : EngineRun entryPlaced :=
  .process (.start signalsStored_entryStored ⟨rfl, rfl, rfl, rfl, rfl, rfl⟩) {}
    (List.mem_singleton.mpr rfl) (entryRow.describes_normalized _) activeLeader
    (Proc.reaches_runFor (answers_restingAnswer false) 15)

def entryFills (signalId : Digest) : Decimal :=
  if signalId = entryRow.signalId then 1 else 0

def entryPair : String × PositionSide := ("BTCUSDT", .long)

def entryExchange : ExchangePositions := ⟨[(entryPair, 1)], List.nodup_singleton _⟩

theorem entryFills_nonneg (signalId : Digest) : 0 ≤ entryFills signalId := by
  unfold entryFills
  split <;> norm_num

theorem inFlightFills_entryPlaced : InFlightFills entryPlaced newYear entryFills where
  nonneg := entryFills_nonneg
  le_requested := by with_unfolding_all decide
  limit := by with_unfolding_all decide
  placed := by with_unfolding_all decide
  unattributed := by with_unfolding_all decide
  unexpired := by with_unfolding_all decide

theorem inFlightFills_entryResting : InFlightFills entryResting newYear entryFills where
  nonneg := entryFills_nonneg
  le_requested := by with_unfolding_all decide
  limit := by with_unfolding_all decide
  placed := by with_unfolding_all decide
  unattributed := by with_unfolding_all decide
  unexpired := by with_unfolding_all decide

theorem exchangeHolds_entry {log : EventLog} (hs : log.signals = [entryRow])
    (hp : log.positions = [])
    (hpa : ((log.entryClaims entryPair).map fun claim => entryFills claim.signalId).sum = 1) :
    ExchangeHolds log entryFills entryExchange := by
  intro pair
  have hv : log.loadVirtualLedger.ownedQuantity pair.1 pair.2 = 0 := by
    simp [VirtualPositionLedger.ownedQuantity, EventLog.loadVirtualLedger, hp]
  rw [hv, zero_add]
  by_cases hsa : pair = entryPair
  · rw [hsa, hpa]
    decide
  · have hn : log.entrySignals pair = [] := by
      rw [EventLog.entrySignals, hs, List.filter_eq_nil_iff]
      intro row hrow
      rw [List.mem_singleton.mp hrow]
      have hr : entryRow.key.pair = entryPair := by decide
      simp [hr, Ne.symm hsa]
    have hc : log.entryClaims pair = [] := by
      rw [EventLog.entryClaims, hn]
      simp
    rw [hc]
    simp [ExchangePositions.quantity, entryExchange, Ne.symm hsa]

theorem exchangeHolds_entryPlaced : ExchangeHolds entryPlaced.log entryFills entryExchange :=
  exchangeHolds_entry (by with_unfolding_all decide) (by with_unfolding_all decide)
    (by with_unfolding_all decide)

theorem exchangeHolds_entryResting : ExchangeHolds entryResting.log entryFills entryExchange :=
  exchangeHolds_entry (by with_unfolding_all decide) (by with_unfolding_all decide)
    (by with_unfolding_all decide)

theorem announced_fill_expected : ∃ facts,
    entryResting.log.readFacts newYear uncertainFacts = some facts ∧
      pairItems facts entryExchange entryPair = [] := by
  obtain ⟨facts, hf, hp, -⟩ := reconciliation_clean_iff_fills_covered
    engineRun_entryResting inFlightFills_entryResting exchangeHolds_entryResting uncertainFacts
    (soundAccount newYear) newYear none
  refine ⟨facts, hf, (hp entryPair).mpr ?_⟩
  exact fillsCovered_of_seen inFlightFills_entryResting (by with_unfolding_all decide)

theorem placed_fill_reported :
    ¬ ∀ [HexOrder] [DecimalFormat] (world : World) (now : Time) (fills : Digest → Decimal)
      (exchange : ExchangePositions) (counts facts : DatabaseHealthFacts)
      (acct : CopyAccountSnapshot) (readAt : Time) (host : Option HostHealthFacts),
      EngineRun world → InFlightFills world now fills → ExchangeHolds world.log fills exchange →
      world.log.readFacts now counts = some facts →
      ∀ finding ∈ (evaluateHealth facts acct exchange readAt host).findings,
        finding.code ≠ mismatchCode := by
  intro hc
  have hr : ((entryPlaced.log.readFacts newYear uncertainFacts).any fun facts =>
      (evaluateHealth facts (soundAccount newYear) entryExchange newYear none).findings.any
        (·.code = mismatchCode)) = true := by
    with_unfolding_all decide
  obtain ⟨facts, hfa, ha⟩ := (Option.any_eq_true _ _).mp hr
  obtain ⟨finding, hf, hco⟩ := List.any_eq_true.mp ha
  exact hc entryPlaced newYear entryFills entryExchange uncertainFacts facts
    (soundAccount newYear) newYear none engineRun_entryPlaced inFlightFills_entryPlaced
    exchangeHolds_entryPlaced hfa finding hf (of_decide_eq_true hco)

end OneFilledEntry

end AiQuant.CopyTrading
