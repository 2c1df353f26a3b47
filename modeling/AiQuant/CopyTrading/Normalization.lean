import AiQuant.CopyTrading.Ingest
import Mathlib.Data.List.AList

/-! No-replay watermarks and cumulative-fill deltas in memory
(`copy_trading/normalization.py`).  The first batch primes the tracker and emits nothing;
a later row emits what it reports beyond the largest quantity of its identity.  A row
of an unknown identity below the watermark is late: it is remembered as seen, but its
quantity is not. -/
namespace AiQuant.CopyTrading
open AiQuant.Lib

/-- A quantity with the exponent it is written with. -/
structure WrittenQuantity where
  value : Decimal
  exponent : ℤ

/-- `max`, which keeps the first of two equal decimals. -/
def WrittenQuantity.max (first second : WrittenQuantity) : WrittenQuantity :=
  if first.value < second.value then second else first

def PublicLeaderOrder.written (order : PublicLeaderOrder) : WrittenQuantity :=
  ⟨order.executedQuantity, order.spelling.executedQuantity⟩

/-- Quantities are texts in the source; `Decimal(str(quantity))` is the quantity. -/
structure WatermarkState where
  primed : Bool
  maximumUpdateTimeMs : ℤ
  executedQuantities : List (Digest × WrittenQuantity)
  seenEventKeys : List Digest

structure LeaderOrderTracker where
  primed : Bool := false
  maximumUpdateTimeMs : ℤ := 0
  executed : AList fun _ : Digest => WrittenQuantity := ∅
  seen : List Digest := []

namespace LeaderOrderTracker

/-- `__init__`; of a repeated identity the last quantity counts. -/
def ofState : Option WatermarkState → LeaderOrderTracker
  | none => {}
  | some state => {
      primed := state.primed
      maximumUpdateTimeMs := state.maximumUpdateTimeMs
      executed := state.executedQuantities.foldl
        (fun executed entry => executed.insert entry.1 entry.2) ∅
      seen := state.seenEventKeys.dedup }

/-- `self._seen.add(order.event_key)`. -/
def see (tracker : LeaderOrderTracker) (eventKey : Digest) : LeaderOrderTracker :=
  { tracker with seen := tracker.seen.insert eventKey }

/-- `self._executed.get(identity_key, Decimal("0"))` -/
def written (tracker : LeaderOrderTracker) (identityKey : Digest) : WrittenQuantity :=
  (tracker.executed.lookup identityKey).getD ⟨0, 0⟩

/-- `_prime` on one row. -/
def primeOrder (tracker : LeaderOrderTracker) (order : PublicLeaderOrder) : LeaderOrderTracker :=
  { tracker.see order.eventKey with
    executed := tracker.executed.insert order.identityKey
      ((tracker.written order.identityKey).max order.written)
    maximumUpdateTimeMs := max tracker.maximumUpdateTimeMs order.updateTimeMs }

def prime (tracker : LeaderOrderTracker) (orders : List PublicLeaderOrder) : LeaderOrderTracker :=
  { orders.foldl primeOrder tracker with primed := true }

def isLate (tracker : LeaderOrderTracker) (order : PublicLeaderOrder) : Bool :=
  (tracker.executed.lookup order.identityKey).isNone &&
    order.updateTimeMs < tracker.maximumUpdateTimeMs

def count (tracker : LeaderOrderTracker) (order : PublicLeaderOrder) : LeaderOrderTracker :=
  { tracker.see order.eventKey with
    executed :=
      if (tracker.executed.lookup order.identityKey).all (·.value < order.executedQuantity) then
        tracker.executed.insert order.identityKey order.written
      else tracker.executed
    maximumUpdateTimeMs := max tracker.maximumUpdateTimeMs order.updateTimeMs }

/-- The body of the loop of `ingest`. -/
def ingestOrder (state : LeaderOrderTracker × List NormalizedSignal) (order : PublicLeaderOrder) :
    Except String (LeaderOrderTracker × List NormalizedSignal) :=
  let (tracker, signals) := state
  if order.eventKey ∈ tracker.seen then .ok (tracker, signals)
  else if tracker.isLate order then .ok (tracker.see order.eventKey, signals)
  else
    let (delta, exponent) := match tracker.executed.lookup order.identityKey with
      | none => (order.executedQuantity, order.spelling.executedQuantity)
      | some previous => (order.executedQuantity - previous.value,
          order.deltaExponent previous.value previous.exponent)
    if delta ≤ 0 ∨ order.positionSide = .both then .ok (tracker.count order, signals)
    else do
      let signal ← NormalizedSignal.fromOrder order delta exponent
      .ok (tracker.count order, signals ++ [signal])

section Batches

variable [HexOrder]

def ingest (tracker : LeaderOrderTracker) (orders : List PublicLeaderOrder) :
    Except String (LeaderOrderTracker × List NormalizedSignal) :=
  if tracker.primed = false then .ok (tracker.prime (sortedOrders orders), [])
  else (sortedOrders orders).foldlM ingestOrder (tracker, [])

def snapshot (tracker : LeaderOrderTracker) : WatermarkState where
  primed := tracker.primed
  maximumUpdateTimeMs := tracker.maximumUpdateTimeMs
  executedQuantities := (tracker.executed.entries.map fun entry => (entry.1, entry.2)).insertionSort
    fun left right => HexOrder.value left.1 ≤ HexOrder.value right.1
  seenEventKeys := tracker.seen.insertionSort fun left right =>
    HexOrder.value left ≤ HexOrder.value right

def ingestBatches : LeaderOrderTracker → List (List PublicLeaderOrder) →
    Except String (LeaderOrderTracker × List (List NormalizedSignal))
  | tracker, [] => .ok (tracker, [])
  | tracker, batch :: rest => do
    let (next, signals) ← tracker.ingest batch
    let (last, outputs) ← next.ingestBatches rest
    .ok (last, signals :: outputs)

end Batches

end LeaderOrderTracker

/-- The largest quantity the rows report for an identity, `0` for an unknown one. -/
def reachedQuantity (identityKey : Digest) (rows : List PublicLeaderOrder) : Decimal :=
  ((rows.filter (·.identityKey = identityKey)).map (·.executedQuantity)).foldl max 0

/-- The largest of these quantities, as the first row that reports it writes it. -/
def reachedWritten (identityKey : Digest) (rows : List PublicLeaderOrder) : WrittenQuantity :=
  ((rows.filter (·.identityKey = identityKey)).map (·.written)).foldl WrittenQuantity.max ⟨0, 0⟩

def watermarkOf (rows : List PublicLeaderOrder) : ℤ :=
  (rows.map (·.updateTimeMs)).foldl max 0

/-- The first row of its identity, below the watermark of the rows before it. -/
def ArrivesLate (before : List PublicLeaderOrder) (order : PublicLeaderOrder) : Prop :=
  (∀ earlier ∈ before, earlier.identityKey ≠ order.identityKey) ∧
    order.updateTimeMs < watermarkOf before

instance (before : List PublicLeaderOrder) (order : PublicLeaderOrder) :
    Decidable (ArrivesLate before order) :=
  inferInstanceAs (Decidable (_ ∧ _))

def emission (order : PublicLeaderOrder) (previous : Decimal) (exponent : ℤ) :
    List NormalizedSignal :=
  match NormalizedSignal.fromOrder order (order.executedQuantity - previous) exponent with
  | .ok signal => [signal]
  | .error _ => []

section Rows

variable {rows : List PublicLeaderOrder} {order : PublicLeaderOrder} {key : Digest}

theorem reachedQuantity_concat (key : Digest) (rows : List PublicLeaderOrder)
    (order : PublicLeaderOrder) : reachedQuantity key (rows ++ [order]) =
      if order.identityKey = key then
        max (reachedQuantity key rows) order.executedQuantity
      else reachedQuantity key rows := by
  unfold reachedQuantity
  split
  · simp [*]
  · simp [*]

theorem WrittenQuantity.max_of_lt {first second : WrittenQuantity}
    (hl : first.value < second.value) : first.max second = second := if_pos hl

theorem WrittenQuantity.max_of_le {first second : WrittenQuantity}
    (hl : second.value ≤ first.value) : first.max second = first := if_neg (not_lt.mpr hl)

theorem WrittenQuantity.max_value (first second : WrittenQuantity) :
    (first.max second).value = Max.max first.value second.value := by
  rcases lt_or_ge first.value second.value with hl | hl
  · rw [max_of_lt hl, max_eq_right hl.le]
  · rw [max_of_le hl, max_eq_left hl]

theorem reachedWritten_concat (key : Digest) (rows : List PublicLeaderOrder)
    (order : PublicLeaderOrder) : reachedWritten key (rows ++ [order]) =
      if order.identityKey = key then
        (reachedWritten key rows).max order.written
      else reachedWritten key rows := by
  unfold reachedWritten
  split
  · simp [*]
  · simp [*]

theorem reachedWritten_value (key : Digest) (rows : List PublicLeaderOrder) :
    (reachedWritten key rows).value = reachedQuantity key rows := by
  induction rows using List.reverseRecOn with
  | nil => rfl
  | append_singleton rows order ih =>
    rw [reachedWritten_concat, reachedQuantity_concat]
    split
    · rw [WrittenQuantity.max_value, ih]
      rfl
    · exact ih

theorem watermarkOf_concat (rows : List PublicLeaderOrder) (order : PublicLeaderOrder) :
    watermarkOf (rows ++ [order]) = max (watermarkOf rows) order.updateTimeMs := by
  simp [watermarkOf]

theorem reachedQuantity_le_iff {bound : Decimal} : reachedQuantity key rows ≤ bound ↔
      0 ≤ bound ∧ ∀ row ∈ rows, row.identityKey = key → row.executedQuantity ≤ bound := by
  induction rows using List.reverseRecOn with
  | nil => simp [reachedQuantity]
  | append_singleton rows last ih =>
    rw [reachedQuantity_concat]
    split
    · rename_i hk
      simp [ih, or_imp, forall_and, and_assoc, hk]
    · rename_i hk
      simp [ih, or_imp, forall_and, hk]

theorem watermarkOf_le_iff {bound : ℤ} :
    watermarkOf rows ≤ bound ↔ 0 ≤ bound ∧ ∀ row ∈ rows, row.updateTimeMs ≤ bound := by
  induction rows using List.reverseRecOn with
  | nil => simp [watermarkOf]
  | append_singleton rows last ih =>
    rw [watermarkOf_concat]
    simp [ih, or_imp, forall_and, and_assoc]

theorem le_reachedQuantity (hm : order ∈ rows) :
    order.executedQuantity ≤ reachedQuantity order.identityKey rows :=
  (reachedQuantity_le_iff.mp le_rfl).2 order hm rfl

theorem le_watermarkOf (hm : order ∈ rows) : order.updateTimeMs ≤ watermarkOf rows :=
  (watermarkOf_le_iff.mp le_rfl).2 order hm

theorem reachedQuantity_nonneg (key : Digest) (rows : List PublicLeaderOrder) :
    0 ≤ reachedQuantity key rows :=
  (reachedQuantity_le_iff.mp le_rfl).1

theorem reachedQuantity_congr {others : List PublicLeaderOrder}
    (hr : ∀ row, row ∈ rows ↔ row ∈ others) (key : Digest) :
    reachedQuantity key rows = reachedQuantity key others := by
  apply eq_of_forall_ge_iff
  intro bound
  simp only [reachedQuantity_le_iff, hr]

theorem watermarkOf_congr {others : List PublicLeaderOrder}
    (hr : ∀ row, row ∈ rows ↔ row ∈ others) : watermarkOf rows = watermarkOf others := by
  apply eq_of_forall_ge_iff
  intro bound
  simp only [watermarkOf_le_iff, hr]

theorem arrivesLate_congr {others : List PublicLeaderOrder}
    (hr : ∀ row, row ∈ rows ↔ row ∈ others) :
    ArrivesLate rows order ↔ ArrivesLate others order := by
  simp only [ArrivesLate, hr, watermarkOf_congr hr]

theorem reachedQuantity_eq_zero_iff :
    reachedQuantity key rows = 0 ↔ ∀ earlier ∈ rows, earlier.identityKey ≠ key := by
  constructor
  · rintro hz earlier hm rfl
    have hle := le_reachedQuantity hm
    rw [hz] at hle
    exact absurd earlier.executedQuantity_pos (not_lt.mpr hle)
  · intro hn
    have he : rows.filter (·.identityKey = key) = [] := by
      rw [List.filter_eq_nil_iff]
      intro earlier hm
      simpa using hn earlier hm
    rw [reachedQuantity, he]
    rfl

theorem reachedWritten_concat_of_mem {known : PublicLeaderOrder} (hk : known ∈ rows)
    (hi : known.identityKey = order.identityKey)
    (hq : known.executedQuantity = order.executedQuantity) (key : Digest) :
    reachedWritten key (rows ++ [order]) = reachedWritten key rows := by
  rw [reachedWritten_concat]
  split
  · rename_i hkey
    have hle := le_reachedQuantity hk
    rw [hi, hq, hkey, ← reachedWritten_value] at hle
    exact WrittenQuantity.max_of_le hle
  · rfl

theorem reachedQuantity_concat_of_mem {known : PublicLeaderOrder} (hk : known ∈ rows)
    (hi : known.identityKey = order.identityKey)
    (hq : known.executedQuantity = order.executedQuantity) (key : Digest) :
    reachedQuantity key (rows ++ [order]) = reachedQuantity key rows := by
  rw [← reachedWritten_value, reachedWritten_concat_of_mem hk hi hq, reachedWritten_value]

theorem eq_of_eventKey_eq {left right : PublicLeaderOrder} (hl : left.Keyed)
    (hr : right.Keyed) (he : left.eventKey = right.eventKey) :
    left.identityKey = right.identityKey ∧ left.executedQuantity = right.executedQuantity ∧
      left.updateTimeMs = right.updateTimeMs := by
  rw [hl, hr] at he
  injection he with _ hq hi _ ht
  exact ⟨hi, hq, ht⟩

theorem lead_eq_of_eventKey_eq {left right : PublicLeaderOrder}
    (he : left.eventKey = right.eventKey) : left.leadPortfolioId = right.leadPortfolioId := by
  have hl := left.eventKey_leader
  rw [he, right.eventKey_leader] at hl
  exact (Option.some.inj hl).symm

theorem emission_eq_nil_iff (order : PublicLeaderOrder) {prev : Decimal} (hp : 0 ≤ prev)
    {exp : ℤ} : emission order prev exp = [] ↔
      order.executedQuantity ≤ prev ∨ order.positionSide = .both := by
  have hd : ¬ order.executedQuantity < order.executedQuantity - prev :=
    not_lt.mpr (sub_le_self _ hp)
  unfold emission NormalizedSignal.fromOrder
  by_cases hle : order.executedQuantity ≤ prev
  · rw [if_pos (Or.inl (sub_nonpos.mpr hle))]
    simp [hle]
  · have hg : ¬ (order.executedQuantity - prev ≤ 0 ∨
        order.executedQuantity < order.executedQuantity - prev) := by
      rw [sub_nonpos]
      exact not_or.mpr ⟨hle, hd⟩
    rw [if_neg hg]
    cases order.positionSide <;> simp [SourcePositionSide.explicit?, hle]

theorem mem_emission {prev : Decimal} {exp : ℤ} {sig : NormalizedSignal}
    (hm : sig ∈ emission order prev exp) :
    sig.sourceIdentityKey = order.identityKey ∧ sig.sourceEventKey = order.eventKey ∧
      sig.sourceDeltaQuantity = order.executedQuantity - prev := by
  unfold emission at hm
  split at hm
  · rename_i emitted hsignal
    rw [List.mem_singleton.mp hm]
    obtain ⟨hi, he, hd, -⟩ := NormalizedSignal.fromOrder_spec hsignal
    exact ⟨hi, he, hd⟩
  · cases hm

theorem emission_length (order : PublicLeaderOrder) (prev : Decimal) (exp : ℤ) :
    (emission order prev exp).length ≤ 1 := by
  unfold emission
  split <;> simp

/-- What is emitted shows the exponent. -/
theorem emission_eq_iff {prev : Decimal} (hp : 0 ≤ prev) {left right : ℤ} :
    emission order prev left = emission order prev right ↔
      (prev < order.executedQuantity → order.positionSide ≠ .both → left = right) := by
  by_cases hn : order.executedQuantity ≤ prev ∨ order.positionSide = .both
  · rw [(emission_eq_nil_iff order hp).mpr hn, (emission_eq_nil_iff order hp).mpr hn]
    refine iff_of_true rfl fun hg he => ?_
    exact (hn.elim (not_le.mpr hg) he).elim
  · obtain ⟨hg, he⟩ := not_or.mp hn
    have hd : ¬ (order.executedQuantity - prev ≤ 0 ∨
        order.executedQuantity < order.executedQuantity - prev) := by
      rw [sub_nonpos]
      exact not_or.mpr ⟨hg, not_lt.mpr (sub_le_self _ hp)⟩
    have hs : ∀ exp, ∃ sig, emission order prev exp = [sig] ∧
        sig.signalId = .signal (order.executedQuantity - prev) exp order.eventKey := by
      intro exp
      unfold emission NormalizedSignal.fromOrder
      rw [if_neg hd]
      cases hside : order.positionSide with
      | both => exact absurd hside he
      | long => exact ⟨_, rfl, rfl⟩
      | short => exact ⟨_, rfl, rfl⟩
    constructor
    · intro heq _ _
      obtain ⟨first, hf, hfirst⟩ := hs left
      obtain ⟨second, hse, hsecond⟩ := hs right
      rw [hf, hse] at heq
      rw [(List.cons.inj heq).1, hsecond] at hfirst
      injection hfirst with _ hexp
      exact hexp.symm
    · intro hexp
      rw [hexp (not_le.mp hg) he]

theorem emittedQuantity_emission {prev : Decimal} (hp : 0 ≤ prev)
    (hexp : order.positionSide ≠ .both) (exp : ℤ) (key : Digest) :
    emittedQuantity key (emission order prev exp) =
      if order.identityKey = key then
        max prev order.executedQuantity - prev else 0 := by
  by_cases hn : emission order prev exp = []
  · have hle := ((emission_eq_nil_iff order hp).mp hn).resolve_right hexp
    rw [hn, max_eq_left hle]
    simp
  · obtain ⟨sig, hs⟩ : ∃ sig, emission order prev exp = [sig] := by
      have hl := emission_length order prev exp
      cases he : emission order prev exp with
      | nil => exact absurd he hn
      | cons sig others =>
        rw [he, List.length_cons] at hl
        have ho : others = [] := List.eq_nil_of_length_eq_zero (by omega)
        exact ⟨sig, by rw [ho]⟩
    obtain ⟨hi, -, hd⟩ := mem_emission (hs ▸ List.mem_singleton_self sig)
    have hlt : prev < order.executedQuantity := by
      rw [emission_eq_nil_iff order hp, not_or, not_le] at hn
      exact hn.1
    rw [hs, emittedQuantity_singleton, hi, hd, max_eq_right hlt.le]

end Rows

namespace LeaderOrderTracker

def Sound (tracker : LeaderOrderTracker) : Prop :=
  ∀ key quantity, tracker.executed.lookup key = some quantity →
    0 < quantity.value

def previous (tracker : LeaderOrderTracker) (identityKey : Digest) : Decimal :=
  (tracker.written identityKey).value

/-- The exponent of the delta: a quantity without a previous one is not subtracted from. -/
def deltaExponent (order : PublicLeaderOrder) (previous : WrittenQuantity) : ℤ :=
  if previous.value = 0 then order.spelling.executedQuantity
  else order.deltaExponent previous.value previous.exponent

def next (tracker : LeaderOrderTracker) (order : PublicLeaderOrder) : LeaderOrderTracker :=
  if order.eventKey ∈ tracker.seen then tracker
  else if tracker.isLate order then tracker.see order.eventKey
  else tracker.count order

def emits (tracker : LeaderOrderTracker) (order : PublicLeaderOrder) : List NormalizedSignal :=
  if order.eventKey ∈ tracker.seen ∨ tracker.isLate order = true then []
  else emission order (tracker.previous order.identityKey)
    (deltaExponent order (tracker.written order.identityKey))

def emissions : LeaderOrderTracker → List PublicLeaderOrder → List NormalizedSignal
  | _, [] => []
  | tracker, order :: rest => tracker.emits order ++ (tracker.next order).emissions rest

section Total

variable {tracker : LeaderOrderTracker} {order : PublicLeaderOrder}

theorem Sound.previous_nonneg (hs : tracker.Sound) (key : Digest) : 0 ≤ tracker.previous key := by
  unfold previous written
  cases hl : tracker.executed.lookup key with
  | none => exact le_rfl
  | some qty => exact (hs _ _ hl).le

theorem Sound.lookup_eq_none_iff (hs : tracker.Sound) (key : Digest) :
    tracker.executed.lookup key = none ↔ tracker.previous key = 0 := by
  unfold previous written
  cases hl : tracker.executed.lookup key with
  | none => simp
  | some qty =>
    have hp := hs _ _ hl
    simp [hp.ne.symm]

theorem lookup_count (tracker : LeaderOrderTracker) (order : PublicLeaderOrder) (key : Digest) :
    (tracker.count order).executed.lookup key =
      if order.identityKey = key then
        some ((tracker.written key).max order.written)
      else tracker.executed.lookup key := by
  unfold count written
  dsimp only
  by_cases hk : order.identityKey = key
  · subst hk
    rw [if_pos rfl]
    cases hl : tracker.executed.lookup order.identityKey with
    | none =>
      rw [Option.all_none, if_pos rfl, AList.lookup_insert, Option.getD_none,
        WrittenQuantity.max_of_lt order.executedQuantity_pos]
    | some qty =>
      rw [Option.all_some, Option.getD_some]
      by_cases hlt : qty.value < order.executedQuantity
      · rw [if_pos (decide_eq_true hlt), AList.lookup_insert, WrittenQuantity.max_of_lt hlt]
      · rw [if_neg (by simpa using hlt), hl, WrittenQuantity.max_of_le (not_lt.mp hlt)]
  · rw [if_neg hk]
    split
    · exact AList.lookup_insert_ne (Ne.symm hk)
    · rfl

theorem Sound.next (hs : tracker.Sound) (order : PublicLeaderOrder) :
    (tracker.next order).Sound := by
  unfold LeaderOrderTracker.next
  split
  · exact hs
  split
  · exact hs
  · intro key qty hl
    rw [lookup_count] at hl
    split at hl
    · cases hl
      rw [WrittenQuantity.max_value]
      exact lt_max_of_lt_right order.executedQuantity_pos
    · exact hs _ _ hl

theorem ingestOrder_eq (hso : tracker.Sound) (signals : List NormalizedSignal)
    (order : PublicLeaderOrder) : ingestOrder (tracker, signals) order =
      .ok (tracker.next order, signals ++ tracker.emits order) := by
  unfold ingestOrder LeaderOrderTracker.next emits
  dsimp only
  by_cases hse : order.eventKey ∈ tracker.seen
  · simp [hse]
  by_cases hl : tracker.isLate order = true
  · simp [hse, hl]
  have hd : (match tracker.executed.lookup order.identityKey with
      | none => (order.executedQuantity, order.spelling.executedQuantity)
      | some prev => (order.executedQuantity - prev.value,
          order.deltaExponent prev.value prev.exponent)) =
      (order.executedQuantity - tracker.previous order.identityKey,
        deltaExponent order (tracker.written order.identityKey)) := by
    unfold previous written deltaExponent
    cases hlo : tracker.executed.lookup order.identityKey with
    | none => simp
    | some prev => simp [(hso _ _ hlo).ne']
  have hn := @emission_eq_nil_iff order _ (hso.previous_nonneg order.identityKey)
    (deltaExponent order (tracker.written order.identityKey))
  rw [if_neg hse, if_neg hl, if_neg hse, if_neg hl, hd, if_neg (not_or.mpr ⟨hse, hl⟩)]
  split
  · rename_i hsilent
    rw [sub_nonpos] at hsilent
    rw [hn.mpr hsilent, List.append_nil]
  · rename_i hloud
    rw [sub_nonpos] at hloud
    have he : emission order (tracker.previous order.identityKey)
        (deltaExponent order (tracker.written order.identityKey)) ≠ [] :=
      fun hem => hloud (hn.mp hem)
    unfold emission at he ⊢
    cases hs : NormalizedSignal.fromOrder order
        (order.executedQuantity - tracker.previous order.identityKey)
        (deltaExponent order (tracker.written order.identityKey)) with
    | error reason =>
      rw [hs] at he
      exact absurd rfl he
    | ok sig => rfl

theorem ingestOrders_eq (hs : tracker.Sound) (signals : List NormalizedSignal)
    (rows : List PublicLeaderOrder) : rows.foldlM ingestOrder (tracker, signals) =
      .ok (rows.foldl LeaderOrderTracker.next tracker, signals ++ tracker.emissions rows) := by
  induction rows generalizing tracker signals with
  | nil => simp [emissions, pure, Except.pure]
  | cons order rest ih =>
    rw [List.foldlM_cons, ingestOrder_eq hs]
    show rest.foldlM ingestOrder (tracker.next order, signals ++ tracker.emits order) = _
    rw [ih (hs.next order), List.append_assoc]
    rfl

end Total

end LeaderOrderTracker

end AiQuant.CopyTrading
