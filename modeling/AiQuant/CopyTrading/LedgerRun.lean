import AiQuant.CopyTrading.ReductionRounding
import Mathlib.Algebra.BigOperators.Group.List.Basic
import Mathlib.Algebra.Order.BigOperators.Group.List
import Mathlib.Data.List.Dedup
import Mathlib.Data.List.Sort

/-! Whole histories of a virtual position ledger, with every sum and difference rounded to 28
digits.  Several leaders share the exchange's position of a symbol and side.  Every call touches
one leader's entry, and while 28 digits hold what the leaders own together, it changes by the
recorded fills and by nothing else. -/
namespace AiQuant.CopyTrading
open AiQuant.Lib

structure AggregateMismatch where
  symbol : String
  positionSide : PositionSide
  virtualQuantity : Decimal
  exchangeQuantity : Decimal

/-- The calls that may change a ledger.  A plan may have been made on an earlier state,
or by another ledger. -/
inductive LedgerCall where
  | recordIncreaseFill (signal : NormalizedSignal) (filledLocalQuantity : Decimal)
      (attributedSourceQuantity : Option Decimal)
  | planReduction (signal : NormalizedSignal) (rules : SymbolTradingRules)
      (sourcePositionQuantity : Option Decimal)
  | recordReductionFill (plan : ReductionPlan) (filledLocalQuantity : Decimal)

def LedgerCall.key : LedgerCall → VirtualPositionKey
  | .recordIncreaseFill signal _ _ => signal.key
  | .planReduction signal _ _ => signal.key
  | .recordReductionFill plan _ => plan.key

/-- The signed quantity that a call records if it returns; a plan records nothing. -/
def LedgerCall.fill : LedgerCall → Decimal
  | .recordIncreaseFill _ filled _ => filled
  | .planReduction .. => 0
  | .recordReductionFill _ filled => -filled

/-- The two calls that record a fill. -/
def LedgerCall.records : LedgerCall → Bool
  | .planReduction .. => false
  | _ => true

namespace VirtualPositionLedger

def recordIncreaseFillIn (context : DecimalContext) (ledger : VirtualPositionLedger)
    (signal : NormalizedSignal) (filledLocalQuantity : Decimal)
    (attributedSourceQuantity : Option Decimal) :
    Except String (VirtualPosition × VirtualPositionLedger) :=
  if hfill : signal.kind ≠ .increase ∨ filledLocalQuantity ≤ 0 then
    .error "copy increase fill is invalid"
  else
    let sourceQuantity := increaseSource attributedSourceQuantity signal.sourceDeltaQuantity
    if hsource : ¬ (0 < sourceQuantity ∧ sourceQuantity ≤ signal.sourceDeltaQuantity) then
      .error "copy attributed source increase is invalid"
    else
      let current := ledger.positionFor signal
      let updated : VirtualPosition := {
        key := current.key
        localQuantity := context.round (current.localQuantity + filledLocalQuantity)
        observedSourceQuantity := context.round (current.observedSourceQuantity + sourceQuantity)
        localQuantity_nonneg := DecimalContext.round_nonneg
          (add_nonneg current.localQuantity_nonneg (not_le.mp (not_or.mp hfill).2).le)
        observedSourceQuantity_nonneg := DecimalContext.round_nonneg
          (add_nonneg current.observedSourceQuantity_nonneg (not_not.mp hsource).1.le) }
      .ok (updated, ledger.set updated)

theorem recordIncreaseFillIn_exact (ledger : VirtualPositionLedger) (sig : NormalizedSignal)
    (filled : Decimal) (attributed : Option Decimal) :
    ledger.recordIncreaseFillIn .exact sig filled attributed =
      ledger.recordIncreaseFill sig filled attributed := rfl

/-- The text of `decimal.InvalidOperation` when a whole quotient has too many digits. -/
def divisionImpossible : String := "[<class 'decimal.DivisionImpossible'>]"

/-- One call: the exception it raises, if any, and the ledger it leaves behind.  A plan that
raises has stored the given source quantity before. -/
def call (ledger : VirtualPositionLedger) : LedgerCall → Option String × VirtualPositionLedger
  | .recordIncreaseFill signal filled attributed =>
    match ledger.recordIncreaseFillIn decimalContext signal filled attributed with
    | .error reason => (some reason, ledger)
    | .ok (_, after) => (none, after)
  | .planReduction signal rules source =>
    match ledger.planReductionIn decimalContext signal rules source with
    | (none, aligned) => (some divisionImpossible, aligned)
    | (some _, aligned) => (none, aligned)
  | .recordReductionFill plan filled =>
    match ledger.recordReductionFillIn decimalContext plan filled with
    | .error reason => (some reason, ledger)
    | .ok (_, after) => (none, after)

def run (ledger : VirtualPositionLedger) (calls : List LedgerCall) : VirtualPositionLedger :=
  calls.foldl (fun reached next => (reached.call next).2) ledger

def returned : VirtualPositionLedger → List LedgerCall → List LedgerCall
  | _, [] => []
  | ledger, next :: rest =>
    (if (ledger.call next).1.isNone then [next] else []) ++ (ledger.call next).2.returned rest

/-- What the calls recorded for a symbol and side, increases less reductions. -/
def recordedQuantity (symbol : String) (positionSide : PositionSide) (calls : List LedgerCall) :
    Decimal :=
  ((calls.filter fun next =>
    next.key.symbol = symbol && next.key.positionSide = positionSide).map (·.fill)).sum

def leaders (ledger : VirtualPositionLedger) : List String :=
  (ledger.positions.map (·.key.leadPortfolioId)).dedup

/-- `aggregate_quantity`, with `self._positions.values()` in the dictionary's order. -/
def aggregateQuantity (values : List VirtualPosition) (symbol : String)
    (positionSide : PositionSide) : Decimal :=
  ((values.filter fun position =>
    position.key.symbol = symbol && position.key.positionSide = positionSide).map
    (·.localQuantity)).foldl (fun total quantity => decimalContext.round (total + quantity)) 0

/-- The pairs that `reconcile_aggregate` compares. -/
def reconciledPairs (values : List VirtualPosition) (exchange : ExchangePositions) :
    List (String × PositionSide) :=
  (((values.filter (0 < ·.localQuantity)).map (·.key.pair)) ++
    exchange.entries.map Prod.fst).dedup.insertionSort fun left right =>
      pairOrder left ≤ pairOrder right

def reconcileAggregate (values : List VirtualPosition) (exchange : ExchangePositions)
    (tolerance : Decimal) : Except String (List AggregateMismatch) :=
  if tolerance < 0 then .error "copy reconciliation tolerance cannot be negative"
  else .ok ((reconciledPairs values exchange).filterMap fun pair =>
    let virtualQuantity := aggregateQuantity values pair.1 pair.2
    let exchangeQuantity := exchange.quantity pair
    if tolerance < |decimalContext.round (virtualQuantity - exchangeQuantity)| then
      some ⟨pair.1, pair.2, virtualQuantity, exchangeQuantity⟩
    else none)

section Call

variable (ledger : VirtualPositionLedger)

theorem recordIncreaseFillIn_spec {ledger post : VirtualPositionLedger} {sig : NormalizedSignal}
    {filled : Decimal} {attributed : Option Decimal} {updated : VirtualPosition}
    (hr : ledger.recordIncreaseFillIn decimalContext sig filled attributed = .ok (updated, post)) :
    0 < filled ∧ updated.key = sig.key ∧ updated.localQuantity =
        decimalContext.round (ledger.localQuantity sig.key + filled) ∧
      post = ledger.set updated := by
  unfold recordIncreaseFillIn at hr
  split_ifs at hr with hf
  dsimp only at hr
  split_ifs at hr
  cases hr
  refine ⟨not_le.mp (not_or.mp hf).2, ledger.positionFor_key sig, ?_, rfl⟩
  rw [← positionFor_localQuantity]

theorem recordReductionFillIn_spec {ledger post : VirtualPositionLedger} {plan : ReductionPlan}
    {filled : Decimal} {updated : VirtualPosition}
    (hr : ledger.recordReductionFillIn decimalContext plan filled = .ok (updated, post)) :
    0 ≤ ledger.localQuantity plan.key + -filled ∧ updated.key = plan.key ∧
      updated.localQuantity = decimalContext.round (ledger.localQuantity plan.key + -filled) ∧
      post = ledger.set updated := by
  unfold recordReductionFillIn at hr
  split_ifs at hr
  cases hg : ledger.get? plan.key with
  | none =>
    rw [hg] at hr
    cases hr
  | some current =>
    rw [hg] at hr
    dsimp only at hr
    split at hr
    · cases hr
    rename_i hf
    cases hr
    have hl : ledger.localQuantity plan.key + -filled = current.localQuantity - filled := by
      rw [localQuantity, hg, ← sub_eq_add_neg]
      rfl
    rw [hl]
    exact ⟨sub_nonneg.mpr (not_lt.mp hf), by simpa using List.find?_some hg, rfl, rfl⟩

/-- What a call can do: a plan may realign its entry's source quantity, a recorded fill moves its
entry's local quantity. -/
inductive CallEffect (next : LedgerCall) : Prop
  | kept (hs : (ledger.call next).2 = ledger)
      (hn : ((ledger.call next).1.isNone && next.records) = false)
  | aligned (updated : VirtualPosition) (hp : next.records = false) (hk : updated.key = next.key)
      (hl : updated.localQuantity = ledger.localQuantity next.key)
      (ha : (ledger.call next).2 = ledger.set updated)
  | recorded (updated : VirtualPosition)
      (hr : ((ledger.call next).1.isNone && next.records) = true)
      (hk : updated.key = next.key) (hle : 0 ≤ ledger.localQuantity next.key + next.fill)
      (hl : updated.localQuantity =
        decimalContext.round (ledger.localQuantity next.key + next.fill))
      (ha : (ledger.call next).2 = ledger.set updated)

theorem call_effect (next : LedgerCall) : ledger.CallEffect next := by
  cases next with
  | recordIncreaseFill sig filled attributed =>
    cases hr : ledger.recordIncreaseFillIn decimalContext sig filled attributed with
    | error reason =>
      have hca : ledger.call (.recordIncreaseFill sig filled attributed) =
          (some reason, ledger) := by
        simp only [call, hr]
      exact .kept (by rw [hca]) (by rw [hca]; rfl)
    | ok result =>
      obtain ⟨updated, post⟩ := result
      have hca : ledger.call (.recordIncreaseFill sig filled attributed) = (none, post) := by
        simp only [call, hr]
      obtain ⟨hf, hk, hl, rfl⟩ := recordIncreaseFillIn_spec hr
      refine .recorded updated (by rw [hca]; rfl) hk ?_ hl (congrArg Prod.snd hca)
      exact add_nonneg (ledger.localQuantity_nonneg _) hf.le
  | planReduction sig rules source =>
    have hca : (ledger.call (.planReduction sig rules source)).2 =
        (ledger.planReductionIn decimalContext sig rules source).2 := by
      dsimp only [call]
      split
      all_goals
        rename_i hp
        rw [hp]
    unfold planReductionIn at hca
    split_ifs at hca with hk
    · exact .kept hca (Bool.and_false _)
    · cases source with
      | none => exact .kept hca (Bool.and_false _)
      | some qty =>
        dsimp only at hca
        split_ifs at hca with hq
        · exact .kept hca (Bool.and_false _)
        · -- the source quantity is realigned, the local one is the ledger's own
          exact .aligned { ledger.positionFor sig with
            observedSourceQuantity := qty
            observedSourceQuantity_nonneg := nonneg_of_not_neg hq } rfl
            (ledger.positionFor_key sig) (ledger.positionFor_localQuantity sig) hca
  | recordReductionFill plan filled =>
    cases hr : ledger.recordReductionFillIn decimalContext plan filled with
    | error reason =>
      have hca : ledger.call (.recordReductionFill plan filled) = (some reason, ledger) := by
        simp only [call, hr]
      exact .kept (by rw [hca]) (by rw [hca]; rfl)
    | ok result =>
      obtain ⟨updated, post⟩ := result
      have hca : ledger.call (.recordReductionFill plan filled) = (none, post) := by
        simp only [call, hr]
      obtain ⟨hle, hk, hl, rfl⟩ := recordReductionFillIn_spec hr
      exact .recorded updated (by rw [hca]; rfl) hk hle hl (congrArg Prod.snd hca)

theorem get?_call_of_ne (next : LedgerCall) {key : VirtualPositionKey} (hne : key ≠ next.key) :
    (ledger.call next).2.get? key = ledger.get? key := by
  cases ledger.call_effect next with
  | kept hs hn => rw [hs]
  | aligned updated hp hk hl ha => rw [ha, get?_set, hk, if_neg (Ne.symm hne)]
  | recorded updated hr hk hle hl ha => rw [ha, get?_set, hk, if_neg (Ne.symm hne)]

theorem localQuantity_set (updated : VirtualPosition) :
    (ledger.set updated).localQuantity updated.key = updated.localQuantity := by
  rw [localQuantity, get?_set, if_pos rfl]
  rfl

theorem localQuantity_call (next : LedgerCall) : (ledger.call next).2.localQuantity next.key =
      if (ledger.call next).1.isNone && next.records then
        decimalContext.round (ledger.localQuantity next.key + next.fill)
      else ledger.localQuantity next.key := by
  cases ledger.call_effect next with
  | kept hs hn => rw [hs, hn]; rfl
  | aligned updated hp hk hl ha =>
    rw [hp, Bool.and_false, ha, ← hk, localQuantity_set, hl, hk]
    rfl
  | recorded updated hr hk hle hl ha => rw [hr, if_pos rfl, ha, ← hl, ← hk, localQuantity_set]

theorem call_of_raised {next : LedgerCall} {reason : String}
    (hra : (ledger.call next).1 = some reason) (hr : next.records = true) :
    (ledger.call next).2 = ledger := by
  cases ledger.call_effect next with
  | kept hs hn => exact hs
  | aligned updated hp hk hl ha => exact absurd (hr.symm.trans hp) (by decide)
  | recorded updated hre hk hle hl ha =>
    rw [hra] at hre
    cases hre

end Call

section Sums

variable {positions : List VirtualPosition}

theorem sum_entries_eq (hn : (positions.map (·.key)).Nodup) (key : VirtualPositionKey)
    (value : VirtualPosition → Decimal) :
    (positions.map value).sum = ((positions.find? (·.key = key)).map value).getD 0 +
      ((positions.filter (·.key ≠ key)).map value).sum := by
  induction positions with
  | nil => simp
  | cons pos positions ih =>
    rw [List.map_cons, List.nodup_cons] at hn
    rw [List.map_cons, List.sum_cons]
    by_cases hk : pos.key = key
    · -- the key's entry is unique, so nothing else is filtered out
      have ho : positions.filter (·.key ≠ key) = positions := by
        rw [List.filter_eq_self]
        intro other hot
        rw [decide_eq_true_eq]
        intro hs
        exact hn.1 (List.mem_map.mpr ⟨other, hot, hs.trans hk.symm⟩)
      rw [List.filter_cons_of_neg (by simpa using hk), ho]
      simp [hk]
    · rw [ih hn.2]
      simp [hk]
      ring

def share (symbol : String) (positionSide : PositionSide) (position : VirtualPosition) : Decimal :=
  if position.key.symbol = symbol ∧ position.key.positionSide = positionSide then
    position.localQuantity else 0

theorem ownedQuantity_eq (ledger : VirtualPositionLedger) (sym : String) (side : PositionSide) :
    ledger.ownedQuantity sym side = (ledger.positions.map (share sym side)).sum := by
  unfold ownedQuantity
  induction ledger.positions with
  | nil => rfl
  | cons pos positions ih =>
    rw [List.map_cons, List.sum_cons, ← ih, share]
    by_cases hp : pos.key.symbol = sym ∧ pos.key.positionSide = side
    · simp [hp]
    · rw [if_neg hp, List.filter_cons_of_neg (by simpa using hp), zero_add]

theorem share_find? (ledger : VirtualPositionLedger) (sym : String)
    (side : PositionSide) (key : VirtualPositionKey) :
    ((ledger.get? key).map (share sym side)).getD 0 =
      if key.symbol = sym ∧ key.positionSide = side then ledger.localQuantity key
      else 0 := by
  unfold localQuantity
  cases hg : ledger.get? key with
  | none => simp
  | some pos =>
    have hk : pos.key = key := by
      simpa using List.find?_some hg
    simp [share, hk]

theorem ownedQuantity_set (ledger : VirtualPositionLedger) (updated : VirtualPosition)
    (sym : String) (side : PositionSide) : (ledger.set updated).ownedQuantity sym side =
      ledger.ownedQuantity sym side +
        if updated.key.symbol = sym ∧ updated.key.positionSide = side then
          updated.localQuantity - ledger.localQuantity updated.key
        else 0 := by
  have ho := sum_entries_eq ledger.nodup_keys updated.key (share sym side)
  rw [show ledger.positions.find? (·.key = updated.key) = ledger.get? updated.key from rfl,
    share_find?] at ho
  have hn : (ledger.set updated).positions =
      updated :: ledger.positions.filter (·.key ≠ updated.key) := rfl
  rw [ownedQuantity_eq, ownedQuantity_eq, ho, hn, List.map_cons, List.sum_cons, share]
  split <;> ring

theorem sum_share_of_leader (ledger : VirtualPositionLedger) (key : VirtualPositionKey) :
    ((ledger.positions.filter (·.key.leadPortfolioId = key.leadPortfolioId)).map
      (share key.symbol key.positionSide)).sum = ledger.localQuantity key := by
  have hn : ((ledger.positions.filter
      (·.key.leadPortfolioId = key.leadPortfolioId)).map (·.key)).Nodup :=
    ledger.nodup_keys.sublist (List.Sublist.map _ List.filter_sublist)
  have hf : (ledger.positions.filter (·.key.leadPortfolioId = key.leadPortfolioId)).find?
      (·.key = key) = ledger.get? key := by
    rw [List.find?_filter]
    congr 1
    funext pos
    by_cases hk : pos.key = key
    · simp [hk]
    · simp [hk]
  have ho : (((ledger.positions.filter
      (·.key.leadPortfolioId = key.leadPortfolioId)).filter (·.key ≠ key)).map
        (share key.symbol key.positionSide)).sum = 0 := by
    apply List.sum_eq_zero
    intro value hv
    obtain ⟨pos, hp, rfl⟩ := List.mem_map.mp hv
    simp only [List.mem_filter, decide_eq_true_eq] at hp
    -- an entry of the leader in the pair would have the key
    rw [share, if_neg]
    rintro ⟨hs, hsi⟩
    apply hp.2
    cases hk : pos.key with
    | mk leader sym side =>
      simp_all
  rw [sum_entries_eq hn key, hf, ho, share_find?, if_pos ⟨rfl, rfl⟩, add_zero]

theorem sum_by_leader (value : VirtualPosition → Decimal) {names : List String} (hn : names.Nodup)
    (hc : ∀ pos ∈ positions, pos.key.leadPortfolioId ∈ names) :
    (positions.map value).sum = (names.map fun name =>
      ((positions.filter (·.key.leadPortfolioId = name)).map value).sum).sum := by
  induction positions with
  | nil => simp
  | cons pos positions ih =>
    rw [List.map_cons, List.sum_cons, ih fun other ho => hc other (List.mem_cons_of_mem _ ho)]
    have hs : ∀ name, (((pos :: positions).filter (·.key.leadPortfolioId = name)).map value).sum =
        (if pos.key.leadPortfolioId = name then value pos else 0) +
          ((positions.filter (·.key.leadPortfolioId = name)).map value).sum := by
      intro name
      by_cases hna : pos.key.leadPortfolioId = name
      · simp [hna]
      · rw [List.filter_cons_of_neg (by simpa using hna), if_neg hna, zero_add]
    simp only [hs]
    rw [List.sum_map_add]
    congr 1
    -- the entry is counted for its own leader, once
    have hco := hn.count (a := pos.key.leadPortfolioId)
    rw [if_pos (hc pos List.mem_cons_self)] at hco
    simp only [eq_comm (a := pos.key.leadPortfolioId)]
    rw [List.sum_map_ite_eq, hco]
    simp

theorem ownedQuantity_eq_sum_leaders (ledger : VirtualPositionLedger) (sym : String)
    (side : PositionSide) : ledger.ownedQuantity sym side =
      (ledger.leaders.map fun leader => ledger.localQuantity ⟨leader, sym, side⟩).sum := by
  have hc : ∀ pos ∈ ledger.positions, pos.key.leadPortfolioId ∈ ledger.leaders := by
    intro pos hp
    rw [leaders, List.mem_dedup]
    exact List.mem_map.mpr ⟨pos, hp, rfl⟩
  rw [ownedQuantity_eq, sum_by_leader _ (List.nodup_dedup _) hc]
  congr 2
  funext leader
  exact ledger.sum_share_of_leader ⟨leader, sym, side⟩

end Sums

theorem recordedQuantity_append (sym : String) (side : PositionSide)
    (left right : List LedgerCall) : recordedQuantity sym side (left ++ right) =
      recordedQuantity sym side left + recordedQuantity sym side right := by
  simp [recordedQuantity]

theorem recordedQuantity_singleton (sym : String) (side : PositionSide) (next : LedgerCall) :
    recordedQuantity sym side [next] =
      if next.key.symbol = sym ∧ next.key.positionSide = side then next.fill else 0 := by
  unfold recordedQuantity
  split
  · rename_i hpair
    rw [List.filter_cons_of_pos (by simpa using hpair)]
    simp
  · rename_i hpair
    rw [List.filter_cons_of_neg (by simpa using hpair)]
    rfl

section Grid

variable {exp : ℤ} {ledger : VirtualPositionLedger} {sym : String}
  {side : PositionSide} {next : LedgerCall}

/-- The local quantities of the pair are multiples of a power of ten. -/
def LocalOnGrid (exponent : ℤ) (ledger : VirtualPositionLedger) (symbol : String)
    (positionSide : PositionSide) : Prop :=
  ∀ position ∈ ledger.positions, position.key.symbol = symbol →
    position.key.positionSide = positionSide → position.localQuantity ∈ decimalGrid exponent

/-- The local quantities that the ledger starts with and the fills that are recorded are multiples
of a power of ten, and 28 digits hold what is owned together in every state of the run. -/
structure HeldByDigits (exponent : ℤ) (ledger : VirtualPositionLedger) (calls : List LedgerCall)
    (symbol : String) (positionSide : PositionSide) : Prop where
  start : LocalOnGrid exponent ledger symbol positionSide
  fills : ∀ next ∈ ledger.returned calls, next.key.symbol = symbol →
    next.key.positionSide = positionSide → next.fill ∈ decimalGrid exponent
  small : ∀ before after, calls = before ++ after →
    (ledger.run before).ownedQuantity symbol positionSide < 10 ^ 28 * 10 ^ exponent

theorem localQuantity_mem_grid (hg : LocalOnGrid exp ledger sym side)
    {key : VirtualPositionKey} (hs : key.symbol = sym) (hp : key.positionSide = side) :
    ledger.localQuantity key ∈ decimalGrid exp := by
  unfold localQuantity
  cases hf : ledger.get? key with
  | none => exact zero_mem _
  | some pos =>
    have hk : pos.key = key := by simpa using List.find?_some hf
    exact hg pos (List.mem_of_find?_eq_some hf) (hk ▸ hs) (hk ▸ hp)

theorem LocalOnGrid.set (hg : LocalOnGrid exp ledger sym side)
    {updated : VirtualPosition} (hu : updated.key.symbol = sym →
      updated.key.positionSide = side → updated.localQuantity ∈ decimalGrid exp) :
    LocalOnGrid exp (ledger.set updated) sym side := by
  intro pos hm
  rcases List.mem_cons.mp hm with rfl | ho
  · exact hu
  · exact hg pos (List.mem_of_mem_filter ho)

theorem localQuantity_le_owned {pos : VirtualPosition} (hm : pos ∈ ledger.positions) :
    pos.localQuantity ≤ ledger.ownedQuantity pos.key.symbol pos.key.positionSide := by
  refine List.single_le_sum ?_ _ (List.mem_map_of_mem (List.mem_filter.mpr ⟨hm, by simp⟩))
  intro qty hq
  obtain ⟨other, -, rfl⟩ := List.mem_map.mp hq
  exact other.localQuantity_nonneg

/-- A rounded quantity that 28 digits of the unit hold was not rounded. -/
theorem round_eq_of_round_lt {qty : Decimal} (hg : qty ∈ decimalGrid exp)
    (hn : 0 ≤ qty) (hl : decimalContext.round qty < 10 ^ 28 * 10 ^ exp) :
    decimalContext.round qty = qty := by
  refine decimalContext_round_eq hg (not_le.mp fun hle => ?_)
  rw [abs_of_nonneg hn] at hle
  have hb : Lib.Fits 28 (10 ^ 28 * 10 ^ exp) :=
    ⟨1, 28 + exp, by norm_num, by
      rw [zpow_add₀ (by norm_num)]
      norm_num⟩
  have hp : 0 < qty := lt_of_lt_of_le (mul_pos (by norm_num) (zpow_pos (by norm_num) exp)) hle
  exact absurd (hb.le_round (by norm_num) hp hle) (not_le.mpr hl)

theorem call_conserves (hg : LocalOnGrid exp ledger sym side)
    (hf : (ledger.call next).1 = none → next.key.symbol = sym →
      next.key.positionSide = side → next.fill ∈ decimalGrid exp)
    (hs : (ledger.call next).2.ownedQuantity sym side < 10 ^ 28 * 10 ^ exp) :
    LocalOnGrid exp (ledger.call next).2 sym side ∧
      (ledger.call next).2.ownedQuantity sym side =
        ledger.ownedQuantity sym side + recordedQuantity sym side
          (if (ledger.call next).1.isNone then [next] else []) := by
  have hplan : next.records = false → next.fill = 0 := by
    cases next <;> simp [LedgerCall.records, LedgerCall.fill]
  have hsame : ((ledger.call next).1.isNone && next.records) = false →
      recordedQuantity sym side (if (ledger.call next).1.isNone then [next] else []) =
        0 := by
    intro hn
    split
    · rename_i hr
      rw [hr, Bool.true_and] at hn
      rw [recordedQuantity_singleton, hplan hn, ite_self]
    · rfl
  cases ledger.call_effect next with
  | kept hk hn => exact ⟨by rwa [hk], by rw [hsame hn, hk, add_zero]⟩
  | aligned updated hp hk hl ha =>
    rw [hsame (by rw [hp, Bool.and_false]), ha, ownedQuantity_set, hl, hk, sub_self, ite_self]
    refine ⟨hg.set fun hsy hsi => ?_, rfl⟩
    rw [hl]
    exact localQuantity_mem_grid hg (hk ▸ hsy) (hk ▸ hsi)
  | recorded updated hr hk hle hl ha =>
    obtain ⟨hr, -⟩ := Bool.and_eq_true_iff.mp hr
    rw [hr, if_pos rfl, recordedQuantity_singleton, ha, ownedQuantity_set, hk]
    by_cases hp : next.key.symbol = sym ∧ next.key.positionSide = side
    · have hq : ledger.localQuantity next.key + next.fill ∈ decimalGrid exp :=
        add_mem (localQuantity_mem_grid hg hp.1 hp.2)
          (hf (Option.isNone_iff_eq_none.mp hr) hp.1 hp.2)
      have ho := @localQuantity_le_owned (ledger.set updated) updated List.mem_cons_self
      rw [hk, hp.1, hp.2, ← ha, hl] at ho
      have he := hl.trans (round_eq_of_round_lt hq hle (ho.trans_lt hs))
      rw [if_pos hp, if_pos hp, he, add_sub_cancel_left]
      exact ⟨hg.set fun _ _ => he ▸ hq, rfl⟩
    · rw [if_neg hp, if_neg hp]
      exact ⟨hg.set fun hsy hsi => absurd ⟨hk ▸ hsy, hk ▸ hsi⟩ hp, rfl⟩

theorem returned_sublist (ledger : VirtualPositionLedger) (calls : List LedgerCall) :
    (ledger.returned calls).Sublist calls := by
  induction calls generalizing ledger with
  | nil => exact List.Sublist.refl _
  | cons next rest ih =>
    rw [returned]
    split
    · exact (ih _).cons_cons next
    · exact (ih _).cons next

theorem run_conserves {calls : List LedgerCall} (hh : HeldByDigits exp ledger calls sym side) :
    LocalOnGrid exp (ledger.run calls) sym side ∧
      (ledger.run calls).ownedQuantity sym side = ledger.ownedQuantity sym side +
          recordedQuantity sym side (ledger.returned calls) := by
  induction calls generalizing ledger with
  | nil => exact ⟨hh.start, (add_zero _).symm⟩
  | cons next rest ih =>
    have hs := hh.small [next] rest rfl
    have hf : (ledger.call next).1 = none → next.key.symbol = sym →
        next.key.positionSide = side → next.fill ∈ decimalGrid exp := fun hr =>
      hh.fills next (by simp [returned, hr])
    obtain ⟨hg, ho⟩ := call_conserves hh.start hf hs
    have hr : ledger.run (next :: rest) = (ledger.call next).2.run rest := rfl
    obtain ⟨hgr, hor⟩ := ih ⟨hg,
      fun other hm => hh.fills other (List.mem_append_right _ hm),
      fun pre post he => hh.small (next :: pre) post (by rw [he]; rfl)⟩
    rw [hr]
    exact ⟨hgr, by rw [hor, ho, returned, recordedQuantity_append, add_assoc]⟩

theorem foldl_round_eq_sum {quantities : List Decimal} {total : Decimal}
    (hg : ∀ qty ∈ quantities, qty ∈ decimalGrid exp ∧ 0 ≤ qty)
    (ht : total ∈ decimalGrid exp) (hn : 0 ≤ total)
    (hs : total + quantities.sum < 10 ^ 28 * 10 ^ exp) :
    quantities.foldl (fun total qty => decimalContext.round (total + qty)) total =
      total + quantities.sum := by
  induction quantities generalizing total with
  | nil => simp
  | cons qty quantities ih =>
    obtain ⟨⟨hq, hp⟩, hrest⟩ := List.forall_mem_cons.mp hg
    have hrn : 0 ≤ quantities.sum := List.sum_nonneg fun other ho => (hrest other ho).2
    rw [List.sum_cons, ← add_assoc] at hs
    have hr : decimalContext.round (total + qty) = total + qty := by
      refine decimalContext_round_eq (add_mem ht hq) ?_
      rw [abs_of_nonneg (add_nonneg hn hp)]
      exact (le_add_of_nonneg_right hrn).trans_lt hs
    rw [List.foldl_cons, hr, ih hrest (add_mem ht hq) (add_nonneg hn hp) hs, List.sum_cons,
      add_assoc]

theorem aggregateQuantity_eq_owned {values : List VirtualPosition}
    (hv : values.Perm ledger.positions) (hg : LocalOnGrid exp ledger sym side)
    (hs : ledger.ownedQuantity sym side < 10 ^ 28 * 10 ^ exp) :
    aggregateQuantity values sym side = ledger.ownedQuantity sym side := by
  have hp : ((values.filter fun pos => pos.key.symbol = sym &&
      pos.key.positionSide = side).map (·.localQuantity)).sum =
        ledger.ownedQuantity sym side := ((hv.filter _).map _).sum_eq
  rw [← hp] at hs ⊢
  rw [aggregateQuantity, foldl_round_eq_sum (fun qty hm => ?_) (zero_mem _) le_rfl, zero_add]
  · rwa [zero_add]
  · obtain ⟨pos, hin, rfl⟩ := List.mem_map.mp hm
    obtain ⟨hheld, hpair⟩ := List.mem_filter.mp hin
    rw [Bool.and_eq_true, decide_eq_true_eq, decide_eq_true_eq] at hpair
    exact ⟨hg pos (hv.subset hheld) hpair.1 hpair.2, pos.localQuantity_nonneg⟩

end Grid

section Reconcile

variable {values : List VirtualPosition} {exchange : ExchangePositions} {tolerance : Decimal}
  {mismatches : List AggregateMismatch}

theorem foldl_round_zeros {quantities : List Decimal} (hz : ∀ qty ∈ quantities, qty = 0) :
    quantities.foldl (fun total qty => decimalContext.round (total + qty)) 0 = 0 := by
  induction quantities with
  | nil => rfl
  | cons qty quantities ih =>
    obtain ⟨rfl, hr⟩ := List.forall_mem_cons.mp hz
    rw [List.foldl_cons, add_zero, DecimalContext.round_zero]
    exact ih hr

theorem mem_reconciledPairs_of_ne {pair : String × PositionSide}
    (hne : aggregateQuantity values pair.1 pair.2 ≠ exchange.quantity pair) :
    pair ∈ reconciledPairs values exchange := by
  rw [reconciledPairs, List.mem_insertionSort, List.mem_dedup, List.mem_append]
  by_contra habsent
  rw [not_or] at habsent
  have he : exchange.quantity pair = 0 := by
    have hf : exchange.entries.find? (·.1 = pair) = none := by
      rw [List.find?_eq_none]
      intro entry hen hpa
      exact habsent.2 (List.mem_map.mpr ⟨entry, hen, of_decide_eq_true hpa⟩)
    rw [ExchangePositions.quantity, hf]
    rfl
  have hv : aggregateQuantity values pair.1 pair.2 = 0 := by
    refine foldl_round_zeros fun qty hq => ?_
    obtain ⟨pos, hp, rfl⟩ := List.mem_map.mp hq
    obtain ⟨hm, hpa⟩ := List.mem_filter.mp hp
    rw [Bool.and_eq_true, decide_eq_true_eq, decide_eq_true_eq] at hpa
    refine le_antisymm (not_lt.mp fun ho => habsent.1 ?_) pos.localQuantity_nonneg
    exact List.mem_map.mpr ⟨pos, List.mem_filter.mpr ⟨hm, decide_eq_true ho⟩, Prod.ext hpa.1 hpa.2⟩
  exact hne (hv.trans he.symm)

theorem mem_reconcileAggregate_iff
    (hr : reconcileAggregate values exchange tolerance = .ok mismatches)
    (mismatch : AggregateMismatch) : mismatch ∈ mismatches ↔ mismatch.virtualQuantity =
          aggregateQuantity values mismatch.symbol mismatch.positionSide ∧
        mismatch.exchangeQuantity = exchange.quantity (mismatch.symbol, mismatch.positionSide) ∧
        tolerance < |decimalContext.round
          (mismatch.virtualQuantity - mismatch.exchangeQuantity)| := by
  unfold reconcileAggregate at hr
  split at hr
  · cases hr
  rename_i htolerance
  cases hr
  rw [List.mem_filterMap]
  constructor
  · rintro ⟨pair, -, hre⟩
    dsimp only at hre
    split at hre
    · rename_i hd
      cases hre
      exact ⟨rfl, rfl, hd⟩
    · cases hre
  · rintro ⟨hv, he, hd⟩
    refine ⟨(mismatch.symbol, mismatch.positionSide), mem_reconciledPairs_of_ne ?_, ?_⟩
    · intro hs
      rw [hv, he, hs, sub_self, DecimalContext.round_zero, abs_zero] at hd
      exact htolerance hd
    · dsimp only
      rw [← hv, ← he, if_pos hd]

theorem reconcileAggregate_pairs_nodup
    (hr : reconcileAggregate values exchange tolerance = .ok mismatches) :
    (mismatches.map fun mismatch => (mismatch.symbol, mismatch.positionSide)).Nodup := by
  unfold reconcileAggregate at hr
  split at hr
  · cases hr
  cases hr
  have hp : (reconciledPairs values exchange).Nodup :=
    (List.perm_insertionSort _ _).nodup_iff.mpr (List.nodup_dedup _)
  refine hp.sublist ?_
  rw [List.map_filterMap]
  generalize reconciledPairs values exchange = pairs
  induction pairs with
  | nil => exact List.Sublist.refl _
  | cons pair pairs ih =>
    rw [List.filterMap_cons]
    dsimp only
    split
    · exact ih.cons pair
    · rename_i reported hre
      split at hre
      · cases hre
        exact ih.cons_cons pair
      · cases hre

end Reconcile

/-- What a ledger's run keeps, whatever the order of the dictionary's values. -/
structure Conserved (ledger : VirtualPositionLedger) (calls : List LedgerCall)
    (values : List VirtualPosition) : Prop where
  aggregate : ∀ exponent symbol positionSide,
    HeldByDigits exponent ledger calls symbol positionSide →
    aggregateQuantity values symbol positionSide =
        ((ledger.run calls).leaders.map fun leader =>
          (ledger.run calls).localQuantity ⟨leader, symbol, positionSide⟩).sum ∧
      aggregateQuantity values symbol positionSide =
        ledger.ownedQuantity symbol positionSide +
          recordedQuantity symbol positionSide (ledger.returned calls)
  raises : ∀ exchange tolerance,
    (∃ mismatches, reconcileAggregate values exchange tolerance = .ok mismatches) ↔ 0 ≤ tolerance
  reported : ∀ exchange tolerance mismatches,
    reconcileAggregate values exchange tolerance = .ok mismatches →
      (mismatches.map fun mismatch => (mismatch.symbol, mismatch.positionSide)).Nodup ∧
      ∀ mismatch : AggregateMismatch, mismatch ∈ mismatches ↔
        mismatch.virtualQuantity =
            aggregateQuantity values mismatch.symbol mismatch.positionSide ∧
          mismatch.exchangeQuantity =
            exchange.quantity (mismatch.symbol, mismatch.positionSide) ∧
          tolerance < |decimalContext.round
            (mismatch.virtualQuantity - mismatch.exchangeQuantity)|

/-- Whatever calls were made before, the next one touches its own entry only; the local
quantities are non-negative and move by recorded fills; an exception leaves every local quantity
as it was, and all of the ledger when it is not a plan's; what the leaders own of a pair adds up
to its aggregate; and exactly the pairs out of tolerance are reported. -/
theorem ledger_isolated_and_conserved (ledger : VirtualPositionLedger) (calls : List LedgerCall)
    (next : LedgerCall) : (∀ key, key ≠ next.key →
        ((ledger.run calls).call next).2.get? key = (ledger.run calls).get? key) ∧
      (∀ key, 0 ≤ (ledger.run calls).localQuantity key) ∧
      ((ledger.run calls).call next).2.localQuantity next.key =
        (if ((ledger.run calls).call next).1.isNone && next.records then
          decimalContext.round ((ledger.run calls).localQuantity next.key + next.fill)
        else (ledger.run calls).localQuantity next.key) ∧
      (∀ reason, ((ledger.run calls).call next).1 = some reason → next.records = true →
        ((ledger.run calls).call next).2 = ledger.run calls) ∧
      ∀ values : List VirtualPosition, values.Perm (ledger.run calls).positions →
        Conserved ledger calls values := by
  refine ⟨fun key hne => get?_call_of_ne _ next hne, localQuantity_nonneg _,
    localQuantity_call _ next, fun reason => call_of_raised _, fun values hv =>
      ⟨fun exp sym side hh => ?_, fun exchange tolerance => ?_,
        fun exchange tolerance mismatches hr =>
          ⟨reconcileAggregate_pairs_nodup hr, mem_reconcileAggregate_iff hr⟩⟩⟩
  · obtain ⟨hg, ho⟩ := run_conserves hh
    have ha := aggregateQuantity_eq_owned hv hg (hh.small calls [] (List.append_nil _).symm)
    exact ⟨ha.trans (ownedQuantity_eq_sum_leaders _ sym side), ha.trans ho⟩
  · unfold reconcileAggregate
    constructor
    · rintro ⟨mismatches, hr⟩
      split at hr
      · cases hr
      · rename_i ht
        exact not_lt.mp ht
    · intro ht
      rw [if_neg (not_lt.mpr ht)]
      exact ⟨_, rfl⟩

section Rounded

/-- A fill of the second leader beside the held position. -/
def otherIncrease : NormalizedSignal :=
  { heldReduction (10 ^ 18) with leadPortfolioId := "2", kind := .increase }

def sharedCalls : List LedgerCall :=
  [.recordReductionFill (plannedReduction 2 1) 1, .recordIncreaseFill otherIncrease 5 none]

theorem sharedCalls_held :
    HeldByDigits 0 (heldLedger (3 * 10 ^ 18) (10 ^ 18)) sharedCalls "BTCUSDT" .long where
  start pos hm _ _ := by
    obtain rfl := List.mem_singleton.mp hm
    exact mem_decimalGrid.mpr ⟨3, by norm_num⟩
  fills next hm _ _ := by
    have hc := (returned_sublist _ _).subset hm
    rw [sharedCalls, List.mem_pair] at hc
    rcases hc with rfl | rfl
    · exact mem_decimalGrid.mpr ⟨-1, by simp [LedgerCall.fill]⟩
    · exact mem_decimalGrid.mpr ⟨5, by simp [LedgerCall.fill]⟩
  small pre post hs := by
    have hb : ∀ pre ∈ sharedCalls.inits, ((heldLedger (3 * 10 ^ 18) (10 ^ 18)).run
        pre).ownedQuantity "BTCUSDT" .long < 10 ^ 28 := by decide +kernel
    simpa using hb pre ((List.mem_inits _ _).mpr ⟨post, hs.symm⟩)

/-- Two of the three that leader `1` holds and five of leader `2`. -/
theorem sharedCalls_conserved :
    aggregateQuantity ((heldLedger (3 * 10 ^ 18) (10 ^ 18)).run sharedCalls).positions
      "BTCUSDT" .long = (heldLedger (3 * 10 ^ 18) (10 ^ 18)).ownedQuantity "BTCUSDT" .long +
          recordedQuantity "BTCUSDT" .long
            ((heldLedger (3 * 10 ^ 18) (10 ^ 18)).returned sharedCalls) ∧
      recordedQuantity "BTCUSDT" .long
        ((heldLedger (3 * 10 ^ 18) (10 ^ 18)).returned sharedCalls) = 4 := by
  have hl := ledger_isolated_and_conserved (heldLedger (3 * 10 ^ 18) (10 ^ 18)) sharedCalls
    (.recordIncreaseFill otherIncrease 5 none)
  have hc := hl.2.2.2.2 _ (List.Perm.refl _)
  exact ⟨(hc.aggregate 0 "BTCUSDT" .long sharedCalls_held).2, by decide +kernel⟩

theorem tiny_step_pos : (0 : Decimal) < 1 / 10 ^ 18 := by norm_num

/-- A plan whose whole quotient has 29 digits raises after the source quantity was stored, and a
fill of `1E-18` is lost beside a quantity of `100000000000`. -/
theorem rounded_ledger_differs :
    (¬ ∀ (ledger : VirtualPositionLedger) (next : LedgerCall) (reason : String),
      (ledger.call next).1 = some reason → (ledger.call next).2 = ledger) ∧
    ¬ ∀ (ledger : VirtualPositionLedger) (calls : List LedgerCall) (sym : String)
      (side : PositionSide), aggregateQuantity (ledger.run calls).positions sym side =
        ledger.ownedQuantity sym side + recordedQuantity sym side (ledger.returned calls) := by
  refine ⟨fun hc => ?_, fun hc => ?_⟩
  · have hs := hc (heldLedger (10 ^ 29) (10 ^ 18)) (.planReduction (heldReduction (10 ^ 18))
      (rulesWithStep (1 / 10 ^ 18) tiny_step_pos) (some 2)) divisionImpossible (by decide +kernel)
    exact absurd hs (by decide +kernel)
  · have ha := hc (heldLedger (10 ^ 29) (10 ^ 18))
      [.recordIncreaseFill { heldReduction (10 ^ 18) with kind := .increase } (1 / 10 ^ 18) none]
      "BTCUSDT" .long
    exact absurd ha (by decide +kernel)

end Rounded

end VirtualPositionLedger

end AiQuant.CopyTrading
