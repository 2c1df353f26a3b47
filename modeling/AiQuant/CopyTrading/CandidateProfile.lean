import AiQuant.CopyTrading.OneWayViews
import AiQuant.Lib.UtcDateTime
import Mathlib.Data.Finset.Sort
import Mathlib.Data.Int.Interval
import Mathlib.Data.String.Basic

/-! The profile of a candidate's order history (`copy_trading/codex_selection.py`) and the activity
row that a selection run stores of it (`services/copy_leader_selector.py`). -/
namespace AiQuant.CopyTrading
open AiQuant.Lib

structure CandidateOrderProfile where
  orderCount : ℕ
  symbols : List String
  latestOperationTimeMs : Option ℤ
  increaseCount : ℕ
  reductionCount : ℕ
  profitableCloseCount : ℕ
  losingCloseCount : ℕ
  breakevenCloseCount : ℕ
  totalRealizedPnl : Decimal
  grossProfit : Decimal
  grossLoss : Decimal
  profitFactor : Option Decimal
  profitableCloseRatePct : Option Decimal
  medianProfit : Option Decimal
  medianLoss : Option Decimal
  largestProfit : Option Decimal
  largestLoss : Option Decimal
  topTwoProfitContributionPct : Option Decimal
  robustRealizedPnlExLargestProfit : Decimal
  maximumConsecutiveLosingCloses : ℕ
  realizedPnl1d : Decimal
  realizedPnl3d : Decimal
  realizedPnl7d : Decimal
  ambiguousPositionSideCount : ℕ
  orders1d : ℕ
  orders3d : ℕ
  orders7d : ℕ
  activeDays7d : ℕ

def dayMs : ℤ := 86400000

/-- `datetime.fromtimestamp(update_time_ms / 1000, UTC).date()`, as the day since the epoch. -/
def utcDate (updateTimeMs : ℤ) : ℤ := updateTimeMs / dayMs

def PublicLeaderOrder.isClose (order : PublicLeaderOrder) : Bool :=
  order.positionSide ≠ .both && !increases order.positionSide order.orderSide

/-- `close_results`: the update time and the result, which tuples are compared by. -/
def closeResults (orders : List PublicLeaderOrder) : List (ℤ ×ₗ Decimal) :=
  (orders.filter (·.isClose)).map fun order => toLex (order.updateTimeMs, order.totalPnl)

def closePnls (closes : List (ℤ ×ₗ Decimal)) : List Decimal :=
  closes.map fun close => (ofLex close).2

def sortedDecimals (values : List Decimal) : List Decimal := values.insertionSort (· ≤ ·)

def medianDecimal (values : List Decimal) : Option Decimal :=
  let ordered := sortedDecimals values
  let midpoint := ordered.length / 2
  if values.isEmpty then none
  else if ordered.length % 2 = 1 then ordered[midpoint]?
  else some ((ordered[midpoint - 1]?.getD 0 + ordered[midpoint]?.getD 0) / 2)

def recentRealizedPnl (closes : List (ℤ ×ₗ Decimal)) (cutoffMs : ℤ) : Decimal :=
  (closePnls (closes.filter fun close => cutoffMs ≤ (ofLex close).1)).sum

def lossRun (longest running : ℕ) : List (ℤ ×ₗ Decimal) → ℕ
  | [] => longest
  | close :: rest =>
    if (ofLex close).2 < 0 then lossRun (max longest (running + 1)) (running + 1) rest
    else lossRun longest 0 rest

def maximumConsecutiveLosses (closes : List (ℤ ×ₗ Decimal)) : ℕ :=
  lossRun 0 0 (closes.insertionSort (· ≤ ·))

/-- `observed_at_ms or max(..., default=0)` -/
def effectiveObservedAt (observedAtMs : Option ℤ) (orders : List PublicLeaderOrder) : ℤ :=
  match observedAtMs with
  | some instant =>
    if instant = 0 then (orders.map (·.updateTimeMs)).max?.getD 0 else instant
  | none => (orders.map (·.updateTimeMs)).max?.getD 0

def ordersSince (orders : List PublicLeaderOrder) (cutoffMs : ℤ) : List PublicLeaderOrder :=
  orders.filter (cutoffMs ≤ ·.updateTimeMs)

def activeDays (orders : List PublicLeaderOrder) : Finset ℤ :=
  (orders.map fun order => utcDate order.updateTimeMs).toFinset

def CandidateOrderProfile.fromOrders (orders : List PublicLeaderOrder)
    (observedAtMs : Option ℤ) : CandidateOrderProfile :=
  let closes := closeResults orders
  let observed := effectiveObservedAt observedAtMs orders
  let profits := (closePnls closes).filter (0 < ·)
  let losses := (closePnls closes).filter (· < 0)
  let grossProfit := profits.sum
  let grossLoss := -losses.sum
  let total := (orders.map (·.totalPnl)).sum
  let nonzero := profits.length + losses.length
  { orderCount := orders.length
    symbols := (orders.map (·.symbol)).toFinset.sort (· ≤ ·)
    latestOperationTimeMs := (orders.map (·.updateTimeMs)).max?
    increaseCount := (orders.filter fun order =>
      order.positionSide ≠ .both && increases order.positionSide order.orderSide).length
    reductionCount := (orders.filter (·.isClose)).length
    profitableCloseCount := profits.length
    losingCloseCount := losses.length
    breakevenCloseCount := ((closePnls closes).filter (· = 0)).length
    totalRealizedPnl := total
    grossProfit := grossProfit
    grossLoss := grossLoss
    profitFactor := if 0 < grossLoss then some (grossProfit / grossLoss) else none
    profitableCloseRatePct := if nonzero = 0 then none else some (profits.length / nonzero * 100)
    medianProfit := medianDecimal profits
    medianLoss := medianDecimal (losses.map (-·))
    largestProfit := profits.max?
    largestLoss := losses.min?.map (-·)
    topTwoProfitContributionPct :=
      if 0 < grossProfit then
        some (((profits.insertionSort (· ≥ ·)).take 2).sum / grossProfit * 100)
      else none
    robustRealizedPnlExLargestProfit := total - profits.max?.getD 0
    maximumConsecutiveLosingCloses := maximumConsecutiveLosses closes
    realizedPnl1d := recentRealizedPnl closes (observed - dayMs)
    realizedPnl3d := recentRealizedPnl closes (observed - 3 * dayMs)
    realizedPnl7d := recentRealizedPnl closes (observed - 7 * dayMs)
    ambiguousPositionSideCount := (orders.filter (·.positionSide = .both)).length
    orders1d := (ordersSince orders (observed - dayMs)).length
    orders3d := (ordersSince orders (observed - 3 * dayMs)).length
    orders7d := (ordersSince orders (observed - 7 * dayMs)).length
    activeDays7d := (activeDays (ordersSince orders (observed - 7 * dayMs))).card }

/-- `CandidateActivity`, with an instant that is in UTC by its type. -/
structure CandidateActivity where
  leadPortfolioId : String
  observedAt : Time
  sampleOrderCount : ℤ
  orders1d : ℤ
  orders3d : ℤ
  orders7d : ℤ
  activeDays7d : ℤ
  latestOperationTimeMs : Option ℤ
  profitableCloseCount : ℤ
  losingCloseCount : ℤ
  testnetSymbolCompatibilityPct : ℤ
deriving DecidableEq

/-- `__post_init__` -/
def CandidateActivity.checked (activity : CandidateActivity) : Except String CandidateActivity :=
  if [activity.sampleOrderCount, activity.orders1d, activity.orders3d, activity.orders7d,
      activity.activeDays7d, activity.profitableCloseCount,
      activity.losingCloseCount].any (· < 0) then
    .error "copy candidate activity counts cannot be negative"
  else if activity.testnetSymbolCompatibilityPct < 0 ∨
      100 < activity.testnetSymbolCompatibilityPct then
    .error "copy candidate compatibility is invalid"
  else .ok activity

/-- The `CHECK`s of `leader_activity_snapshots`. -/
structure CandidateActivity.Storable (activity : CandidateActivity) : Prop where
  sample : 0 ≤ activity.sampleOrderCount ∧ activity.sampleOrderCount ≤ 100
  oneDay : 0 ≤ activity.orders1d ∧ activity.orders1d ≤ activity.sampleOrderCount
  threeDays : activity.orders1d ≤ activity.orders3d ∧
    activity.orders3d ≤ activity.sampleOrderCount
  sevenDays : activity.orders3d ≤ activity.orders7d ∧
    activity.orders7d ≤ activity.sampleOrderCount
  days : 0 ≤ activity.activeDays7d ∧ activity.activeDays7d ≤ 8
  latest : ∀ latest ∈ activity.latestOperationTimeMs, 0 < latest
  profitable : 0 ≤ activity.profitableCloseCount
  losing : 0 ≤ activity.losingCloseCount
  compatibility : 0 ≤ activity.testnetSymbolCompatibilityPct ∧
    activity.testnetSymbolCompatibilityPct ≤ 100

instance (activity : CandidateActivity) : Decidable activity.Storable :=
  decidable_of_iff (_ ∧ _ ∧ _ ∧ _ ∧ _ ∧ _ ∧ _ ∧ _ ∧ _)
    ⟨fun ⟨sample, one, three, seven, days, latest, profitable, losing, compatibility⟩ =>
      ⟨sample, one, three, seven, days, latest, profitable, losing, compatibility⟩,
     fun ⟨sample, one, three, seven, days, latest, profitable, losing, compatibility⟩ =>
      ⟨sample, one, three, seven, days, latest, profitable, losing, compatibility⟩⟩

/-- `record_candidate_activity`.  The id of a row is the digest of all its values, so only a row
that is there already conflicts. -/
def recordCandidateActivity (stored : List CandidateActivity) (activity : CandidateActivity) :
    Except String (List CandidateActivity) :=
  if ¬ activity.Storable then .error "COPY_LEADER_ACTIVITY_WRITE_FAILED"
  else if activity ∈ stored then .ok stored
  else .ok (stored ++ [activity])

/-- `int(compatibility * 100)` in floating point. -/
def compatibilityPct (compatibleCount symbolCount : ℕ) : ℤ :=
  if symbolCount = 0 then 0
  else ⌊nearestDouble (nearestDouble (compatibleCount / symbolCount) * 100)⌋

def candidateActivity (leadPortfolioId : String) (now : Time) (tradingSymbols : Finset String)
    (profile : CandidateOrderProfile) : CandidateActivity where
  leadPortfolioId := leadPortfolioId
  observedAt := now
  sampleOrderCount := profile.orderCount
  orders1d := profile.orders1d
  orders3d := profile.orders3d
  orders7d := profile.orders7d
  activeDays7d := profile.activeDays7d
  latestOperationTimeMs := profile.latestOperationTimeMs
  profitableCloseCount := profile.profitableCloseCount
  losingCloseCount := profile.losingCloseCount
  testnetSymbolCompatibilityPct := compatibilityPct
    (profile.symbols.filter (· ∈ tradingSymbols)).length profile.symbols.length

inductive CandidateOutcome where
  | rejected (reasonCodes : List String)
  | profiled (profile : CandidateOrderProfile)

section Run

variable [HexOrder]

def profiledOrders (history : List PublicLeaderOrder)
    (positionHistory : Except String (List ClosedLeaderPosition)) :
    Except String (List PublicLeaderOrder) :=
  if history.any (·.positionSide = .both) then do
    let closedPositions ← positionHistory
    resolveOneWayOrders history [] closedPositions
  else .ok history

/-- `run_selection` on one candidate, from its order history to its activity row.  An error aborts
the run. -/
def profileCandidate (leadPortfolioId : String) (now : Time) (observedAtMs : ℤ)
    (tradingSymbols : Finset String) (history : Except String (List PublicLeaderOrder))
    (positionHistory : Except String (List ClosedLeaderPosition))
    (stored : List CandidateActivity) :
    Except String (CandidateOutcome × List CandidateActivity) :=
  match history with
  | .error reason => .ok (.rejected ["COPY_SELECTION_HISTORY_UNAVAILABLE", reason], stored)
  | .ok page =>
    match profiledOrders page positionHistory with
    | .error reason =>
      .ok (.rejected ["COPY_SELECTION_ONE_WAY_EVIDENCE_UNRESOLVED", reason], stored)
    | .ok orders =>
      let profile := CandidateOrderProfile.fromOrders orders (some observedAtMs)
      if profile.ambiguousPositionSideCount ≠ 0 then
        .ok (.rejected ["COPY_SELECTION_POSITION_SIDE_AMBIGUOUS"], stored)
      else do
        let activity ← (candidateActivity leadPortfolioId now tradingSymbols profile).checked
        let after ← recordCandidateActivity stored activity
        return (.profiled profile, after)

end Run

section Shuffled

variable {α : Type}

theorem insertionSort_eq_of_perm (r : α → α → Prop) [DecidableRel r] [Std.Total r]
    [IsTrans α r] [Std.Antisymm r] {first second : List α} (hp : first.Perm second) :
    first.insertionSort r = second.insertionSort r :=
  ((List.perm_insertionSort r first).trans
    (hp.trans (List.perm_insertionSort r second).symm)).eq_of_pairwise'
      (List.pairwise_insertionSort r first) (List.pairwise_insertionSort r second)

theorem max?_eq_of_perm [LinearOrder α] {first second : List α}
    (hp : first.Perm second) : first.max? = second.max? := by
  induction hp with
  | nil => rfl
  | cons value _ ih => rw [List.max?_cons, List.max?_cons, ih]
  | swap value other rest =>
    rw [List.max?_cons', List.max?_cons', List.foldl_cons, List.foldl_cons, max_comm]
  | trans _ _ ihFirst ihSecond => rw [ihFirst, ihSecond]

theorem min?_eq_of_perm [LinearOrder α] {first second : List α}
    (hp : first.Perm second) : first.min? = second.min? := by
  induction hp with
  | nil => rfl
  | cons value _ ih => rw [List.min?_cons, List.min?_cons, ih]
  | swap value other rest =>
    rw [List.min?_cons', List.min?_cons', List.foldl_cons, List.foldl_cons, min_comm]
  | trans _ _ ihFirst ihSecond => rw [ihFirst, ihSecond]

theorem medianDecimal_eq_of_perm {first second : List Decimal} (hp : first.Perm second) :
    medianDecimal first = medianDecimal second := by
  unfold medianDecimal sortedDecimals
  rw [insertionSort_eq_of_perm (· ≤ ·) hp, hp.isEmpty_eq]

variable {first second : List PublicLeaderOrder}

theorem closeResults_perm (hp : first.Perm second) :
    (closeResults first).Perm (closeResults second) :=
  (hp.filter _).map _

theorem recentRealizedPnl_eq_of_perm {closes shuffled : List (ℤ ×ₗ Decimal)}
    (hp : closes.Perm shuffled) (cutoffMs : ℤ) :
    recentRealizedPnl closes cutoffMs = recentRealizedPnl shuffled cutoffMs :=
  ((hp.filter _).map _).sum_eq

theorem effectiveObservedAt_eq_of_perm (hp : first.Perm second) (observedAtMs : Option ℤ) :
    effectiveObservedAt observedAtMs first = effectiveObservedAt observedAtMs second := by
  unfold effectiveObservedAt
  rw [max?_eq_of_perm (hp.map (·.updateTimeMs))]

theorem activeDays_eq_of_perm (hp : first.Perm second) : activeDays first = activeDays second :=
  List.toFinset_eq_of_perm _ _ (hp.map _)

theorem CandidateOrderProfile.fromOrders_eq_of_perm (hpe : first.Perm second)
    (observedAtMs : Option ℤ) : fromOrders first observedAtMs = fromOrders second observedAtMs := by
  have hc := closeResults_perm hpe
  have hpn : (closePnls (closeResults first)).Perm (closePnls (closeResults second)) :=
    hc.map _
  have hp := hpn.filter (0 < ·)
  have hl := hpn.filter (· < 0)
  have hs := List.toFinset_eq_of_perm _ _ (hpe.map (·.symbol))
  have hr (cutoffMs : ℤ) := activeDays_eq_of_perm (hpe.filter (cutoffMs ≤ ·.updateTimeMs))
  simp only [fromOrders, hs, effectiveObservedAt_eq_of_perm hpe,
    max?_eq_of_perm (hpe.map (·.updateTimeMs)), hpe.length_eq, (hpe.filter _).length_eq,
    hp.length_eq, hl.length_eq, (hpn.filter _).length_eq, hp.sum_eq,
    hl.sum_eq, (hpe.map (·.totalPnl)).sum_eq, medianDecimal_eq_of_perm hp,
    medianDecimal_eq_of_perm (hl.map (-·)), max?_eq_of_perm hp,
    min?_eq_of_perm hl, insertionSort_eq_of_perm (· ≥ ·) hp, maximumConsecutiveLosses,
    insertionSort_eq_of_perm (· ≤ ·) hc, recentRealizedPnl_eq_of_perm hc,
    ordersSince, hr]

end Shuffled

section Bounds

variable {orders : List PublicLeaderOrder} {observedAtMs : ℤ}

theorem effectiveObservedAt_eq (hb : ∀ ord ∈ orders, ord.updateTimeMs ≤ observedAtMs)
    (hs : orders ≠ []) : effectiveObservedAt (some observedAtMs) orders = observedAtMs := by
  obtain ⟨ord, hm⟩ := List.exists_mem_of_ne_nil orders hs
  have hp := ord.orderTimeMs_pos
  have hle := ord.orderTimeMs_le
  have ho := hb ord hm
  rw [effectiveObservedAt, if_neg (by omega)]

theorem length_ordersSince_mono {early late : ℤ} (hle : early ≤ late) :
    (ordersSince orders late).length ≤ (ordersSince orders early).length := by
  apply List.Sublist.length_le
  apply List.monotone_filter_right
  intro ord hl
  exact decide_eq_true (hle.trans (of_decide_eq_true hl))

theorem length_ordersSince_le (cutoffMs : ℤ) :
    (ordersSince orders cutoffMs).length ≤ orders.length :=
  List.length_filter_le _ _

theorem card_activeDays_le (hb : ∀ ord ∈ orders, ord.updateTimeMs ≤ observedAtMs) :
    (activeDays (ordersSince orders (observedAtMs - 7 * dayMs))).card ≤ 8 := by
  have hd : activeDays (ordersSince orders (observedAtMs - 7 * dayMs)) ⊆
      Finset.Icc (utcDate observedAtMs - 7) (utcDate observedAtMs) := by
    intro date hda
    rw [activeDays, List.mem_toFinset, List.mem_map] at hda
    obtain ⟨ord, hr, rfl⟩ := hda
    obtain ⟨hm, hc⟩ := List.mem_filter.mp hr
    have ho := hb ord hm
    have hs := of_decide_eq_true hc
    rw [Finset.mem_Icc]
    unfold utcDate dayMs at *
    omega
  calc (activeDays (ordersSince orders (observedAtMs - 7 * dayMs))).card
      ≤ (Finset.Icc (utcDate observedAtMs - 7) (utcDate observedAtMs)).card :=
        Finset.card_le_card hd
    _ = 8 := by
        rw [Int.card_Icc]
        omega

theorem latest_pos {latest : ℤ} (hl : latest ∈ (orders.map (·.updateTimeMs)).max?) :
    0 < latest := by
  obtain ⟨ord, -, rfl⟩ := List.mem_map.mp (List.max?_mem hl)
  exact ord.orderTimeMs_pos.trans_le ord.orderTimeMs_le

theorem compatibilityPct_mem {compatibleCount symbolCount : ℕ}
    (hle : compatibleCount ≤ symbolCount) : 0 ≤ compatibilityPct compatibleCount symbolCount ∧
      compatibilityPct compatibleCount symbolCount ≤ 100 := by
  unfold compatibilityPct
  split_ifs with hn
  · omega
  · have hc : (0 : ℚ) < symbolCount := by exact_mod_cast Nat.pos_of_ne_zero hn
    have hsh : 0 ≤ (compatibleCount / symbolCount : ℚ) := by positivity
    have hw : (compatibleCount / symbolCount : ℚ) ≤ 1 := by
      rw [div_le_one hc]
      exact_mod_cast hle
    have hf := abs_le.mp (abs_nearestDouble_sub_le (compatibleCount / symbolCount : ℚ))
    rw [abs_of_nonneg hsh] at hf
    have hq : 0 ≤ nearestDouble (compatibleCount / symbolCount) := by linarith
    have hs := abs_le.mp
      (abs_nearestDouble_sub_le (nearestDouble (compatibleCount / symbolCount) * 100))
    rw [abs_of_nonneg (by positivity)] at hs
    constructor
    · apply Int.floor_nonneg.mpr
      linarith
    · -- two roundings do not reach the next whole number
      rw [← Int.lt_add_one_iff, Int.floor_lt]
      push_cast
      linarith

theorem candidateActivity_storable_iff (leader : String) (now : Time)
    (tradingSymbols : Finset String) (hb : ∀ ord ∈ orders, ord.updateTimeMs ≤ observedAtMs) :
    (candidateActivity leader now tradingSymbols
      (CandidateOrderProfile.fromOrders orders (some observedAtMs))).Storable ↔
        orders.length ≤ 100 := by
  constructor
  · intro hs
    exact Int.ofNat_le.mp hs.sample.2
  · intro hl
    have ho : dayMs ≤ 3 * dayMs := by decide
    have ht : 3 * dayMs ≤ 7 * dayMs := by decide
    have hd : (activeDays (ordersSince orders
        (effectiveObservedAt (some observedAtMs) orders - 7 * dayMs))).card ≤ 8 := by
      by_cases he : orders = []
      · subst he
        exact Nat.zero_le 8
      · rw [effectiveObservedAt_eq hb he]
        exact card_activeDays_le hb
    constructor
    · exact ⟨Int.natCast_nonneg _, Int.ofNat_le.mpr hl⟩
    · exact ⟨Int.natCast_nonneg _, Int.ofNat_le.mpr (length_ordersSince_le _)⟩
    · exact ⟨Int.ofNat_le.mpr (length_ordersSince_mono (by linarith)),
        Int.ofNat_le.mpr (length_ordersSince_le _)⟩
    · exact ⟨Int.ofNat_le.mpr (length_ordersSince_mono (by linarith)),
        Int.ofNat_le.mpr (length_ordersSince_le _)⟩
    · exact ⟨Int.natCast_nonneg _, Int.ofNat_le.mpr hd⟩
    · exact fun latest hla => latest_pos hla
    · exact Int.natCast_nonneg _
    · exact Int.natCast_nonneg _
    · exact compatibilityPct_mem (List.length_filter_le _ _)

theorem candidateActivity_checked (leader : String) (now : Time)
    (tradingSymbols : Finset String) (profile : CandidateOrderProfile) :
    (candidateActivity leader now tradingSymbols profile).checked =
      .ok (candidateActivity leader now tradingSymbols profile) := by
  have hc := @compatibilityPct_mem
    (profile.symbols.filter (· ∈ tradingSymbols)).length profile.symbols.length
    (List.length_filter_le _ _)
  rw [CandidateActivity.checked, if_neg, if_neg]
  · simp only [candidateActivity]
    omega
  · simp [candidateActivity]

end Bounds

end AiQuant.CopyTrading
