import Mathlib.Algebra.BigOperators.Group.List.Basic
import Mathlib.Algebra.Order.Ring.Int
import Mathlib.Data.List.Induction
import Mathlib.Data.String.Basic

/-! `MarketWarmupGate` (`market_data/warmup.py`).  The counters are cleared when the gate is reset,
but they also count what arrives before the next healthy observation; a gate that only receives
data while it is healthy counts the data of the healthy period. -/
namespace AiQuant.OrderBook

/-- The arguments of the constructor; times are microseconds. -/
structure WarmupMinimums where
  continuousFor : ℤ := 120000000
  minimumTrades : ℤ := 1000
  minimum1mBars : ℤ := 2
  minimum5mBars : ℤ := 1

structure MarketWarmupGate extends WarmupMinimums where
  healthySince : Option ℤ := none
  validTrades : ℤ := 0
  bars1m : ℕ := 0
  bars5m : ℕ := 0

/-- A call of the gate; a time that is not aware UTC is `none`. -/
inductive WarmupCall where
  | observeHealth (healthy : Bool) (observedAt : Option ℤ)
  | recordValidTrades (count : ℤ)
  | recordClosedBar (interval : String)
  | reset

namespace MarketWarmupGate

variable (gate : MarketWarmupGate)

def new (minimums : WarmupMinimums) : MarketWarmupGate := { minimums with }

def reset : MarketWarmupGate :=
  { gate with healthySince := none, validTrades := 0, bars1m := 0, bars5m := 0 }

def observeHealth (healthy : Bool) : Option ℤ → Except String MarketWarmupGate
  | none => .error "timestamp must be timezone-aware UTC"
  | some observedAt =>
    if !healthy then .ok gate.reset
    else if gate.healthySince.isNone then .ok { gate with healthySince := some observedAt }
    else .ok gate

def recordValidTrades (count : ℤ) : Except String MarketWarmupGate :=
  if count < 0 then .error "trade count cannot be negative"
  else .ok { gate with validTrades := gate.validTrades + count }

def recordClosedBar (interval : String) : Except String MarketWarmupGate :=
  if interval = "1m" then .ok { gate with bars1m := gate.bars1m + 1 }
  else if interval = "5m" then .ok { gate with bars5m := gate.bars5m + 1 }
  else .error "only 1m and 5m closed bars satisfy the warm-up contract"

def ready (clockSafe : Bool) : Option ℤ → Except String Bool
  | none => .error "timestamp must be timezone-aware UTC"
  | some now => .ok (clockSafe &&
      gate.healthySince.any (fun since => gate.continuousFor ≤ now - since) &&
      decide (gate.minimumTrades ≤ gate.validTrades) &&
      decide (gate.minimum1mBars ≤ gate.bars1m) && decide (gate.minimum5mBars ≤ gate.bars5m))

def call : WarmupCall → Except String MarketWarmupGate
  | .observeHealth healthy observedAt => gate.observeHealth healthy observedAt
  | .recordValidTrades count => gate.recordValidTrades count
  | .recordClosedBar interval => gate.recordClosedBar interval
  | .reset => .ok gate.reset

def perform (made : WarmupCall) : MarketWarmupGate :=
  match gate.call made with
  | .ok after => after
  | .error _ => gate

end MarketWarmupGate

def gateAfter (minimums : WarmupMinimums) (calls : List WarmupCall) : MarketWarmupGate :=
  calls.foldl MarketWarmupGate.perform (.new minimums)

namespace WarmupCall

def trades : WarmupCall → ℤ
  | recordValidTrades count => max count 0
  | _ => 0

def bars (interval : String) : WarmupCall → ℕ
  | recordClosedBar closed => if closed = interval then 1 else 0
  | _ => 0

def Records (made : WarmupCall) : Prop :=
  made.trades ≠ 0 ∨ made.bars "1m" ≠ 0 ∨ made.bars "5m" ≠ 0

/-- A reset, or an observation that the market data is not healthy. -/
def Interrupts : WarmupCall → Prop
  | observeHealth healthy observedAt => healthy = false ∧ observedAt ≠ none
  | reset => True
  | _ => False

end WarmupCall

def tradesIn (calls : List WarmupCall) : ℤ := (calls.map WarmupCall.trades).sum

def barsIn (interval : String) (calls : List WarmupCall) : ℕ :=
  (calls.map (WarmupCall.bars interval)).sum

/-- A healthy period that is not interrupted, long enough now, with enough data recorded since
it began. -/
def WarmedUp (minimums : WarmupMinimums) (calls : List WarmupCall) (now : ℤ) : Prop :=
  ∃ before since after, calls = before ++ .observeHealth true (some since) :: after ∧
    (∀ made ∈ after, ¬made.Interrupts) ∧ minimums.continuousFor ≤ now - since ∧
    minimums.minimumTrades ≤ tradesIn after ∧ minimums.minimum1mBars ≤ barsIn "1m" after ∧
    minimums.minimum5mBars ≤ barsIn "5m" after

/-- Data arrives only while the gate has a healthy time. -/
def RecordsWhileHealthy (gate : MarketWarmupGate) : List WarmupCall → Prop
  | [] => True
  | made :: calls => (made.Records → gate.healthySince ≠ none) ∧
      RecordsWhileHealthy (gate.perform made) calls

section Steps

variable {gate : MarketWarmupGate} {calls : List WarmupCall} {made : WarmupCall}

theorem perform_cases (gate : MarketWarmupGate) (made : WarmupCall) :
    (made.Interrupts ∧ gate.perform made = gate.reset) ∨
    (∃ since, made = .observeHealth true (some since) ∧ gate.healthySince = none ∧
      gate.perform made = { gate with healthySince := some since }) ∨
    (¬made.Interrupts ∧ gate.perform made = { gate with
      validTrades := gate.validTrades + made.trades
      bars1m := gate.bars1m + made.bars "1m"
      bars5m := gate.bars5m + made.bars "5m" }) := by
  cases made with
  | reset => exact .inl ⟨trivial, rfl⟩
  | observeHealth healthy seen =>
    cases seen with
    | none => exact .inr (.inr ⟨fun hi => hi.2 rfl, by simp [MarketWarmupGate.perform,
        MarketWarmupGate.call, MarketWarmupGate.observeHealth, WarmupCall.trades,
        WarmupCall.bars]⟩)
    | some since =>
      cases healthy with
      | false => exact .inl ⟨⟨rfl, Option.some_ne_none _⟩, rfl⟩
      | true =>
        cases hs : gate.healthySince with
        | none => exact .inr (.inl ⟨since, rfl, rfl, by simp [MarketWarmupGate.perform,
            MarketWarmupGate.call, MarketWarmupGate.observeHealth, hs]⟩)
        | some first =>
          refine .inr (.inr ⟨fun hi => (by cases hi.1), ?_⟩)
          simp [MarketWarmupGate.perform, MarketWarmupGate.call,
            MarketWarmupGate.observeHealth, hs, WarmupCall.trades, WarmupCall.bars]
          rw [← hs]
  | recordValidTrades count =>
    refine .inr (.inr ⟨fun hi => hi, ?_⟩)
    by_cases hc : count < 0
    · simp [MarketWarmupGate.perform, MarketWarmupGate.call, MarketWarmupGate.recordValidTrades,
        hc, WarmupCall.trades, WarmupCall.bars, max_eq_right hc.le]
    · simp [MarketWarmupGate.perform, MarketWarmupGate.call, MarketWarmupGate.recordValidTrades,
        hc, WarmupCall.trades, WarmupCall.bars, max_eq_left (not_lt.mp hc)]
  | recordClosedBar ivl =>
    refine .inr (.inr ⟨fun hi => hi, ?_⟩)
    by_cases ho : ivl = "1m"
    · simp [MarketWarmupGate.perform, MarketWarmupGate.call, MarketWarmupGate.recordClosedBar,
        ho, WarmupCall.trades, WarmupCall.bars]
    · by_cases hf : ivl = "5m" <;>
        simp [MarketWarmupGate.perform, MarketWarmupGate.call,
          MarketWarmupGate.recordClosedBar, ho, hf, WarmupCall.trades, WarmupCall.bars]

/-- The counters are those of the healthy period, and zero outside of one. -/
structure CountsHealthyData (calls : List WarmupCall) (gate : MarketWarmupGate) : Prop where
  idle : gate.healthySince = none → gate.validTrades = 0 ∧ gate.bars1m = 0 ∧ gate.bars5m = 0
  healthy : ∀ since, gate.healthySince = some since → ∃ before after,
    calls = before ++ .observeHealth true (some since) :: after ∧
      (∀ made ∈ after, ¬made.Interrupts) ∧ gate.validTrades = tradesIn after ∧
      gate.bars1m = barsIn "1m" after ∧ gate.bars5m = barsIn "5m" after

theorem CountsHealthyData.perform (hc : CountsHealthyData calls gate)
    (hre : made.Records → gate.healthySince ≠ none) :
    CountsHealthyData (calls ++ [made]) (gate.perform made) := by
  rcases perform_cases gate made with ⟨-, hres⟩ | ⟨since, rfl, hn, hst⟩ | ⟨hnot, hsa⟩
  · rw [hres]
    exact ⟨fun _ => ⟨rfl, rfl, rfl⟩, fun since hs => by cases hs⟩
  · obtain ⟨ht, hone, hf⟩ := hc.idle hn
    rw [hst]
    refine ⟨fun hs => (by cases hs), ?_⟩
    rintro _ ⟨⟩
    exact ⟨calls, [], rfl, by simp, ht, hone, hf⟩
  · rw [hsa]
    constructor
    · intro hn
      obtain ⟨ht, hone, hf⟩ := hc.idle hn
      have hz : ¬made.Records := fun hr => hre hr hn
      simp only [WarmupCall.Records, not_or, not_not] at hz
      exact ⟨by rw [ht, hz.1]; rfl, by rw [hone, hz.2.1], by rw [hf, hz.2.2]⟩
    · intro since hs
      obtain ⟨pre, post, hca, ha, ht, hone, hf⟩ := hc.healthy since hs
      refine ⟨pre, post ++ [made], by rw [hca]; simp, ?_, ?_, ?_, ?_⟩
      · intro other ho
        rcases List.mem_append.mp ho with ho | ho
        · exact ha other ho
        · rwa [List.mem_singleton.mp ho]
      · simp [tradesIn, ht]
      · simp [barsIn, hone]
      · simp [barsIn, hf]

theorem CountsHealthyData.run {later : List WarmupCall} (hc : CountsHealthyData calls gate)
    (hl : RecordsWhileHealthy gate later) :
    CountsHealthyData (calls ++ later) (later.foldl MarketWarmupGate.perform gate) := by
  induction later generalizing calls gate with
  | nil => rwa [List.append_nil]
  | cons made later ih =>
    have hn := ih (hc.perform hl.1) hl.2
    rwa [List.append_assoc] at hn

theorem perform_minimums (gate : MarketWarmupGate) (made : WarmupCall) :
    (gate.perform made).toWarmupMinimums = gate.toWarmupMinimums := by
  rcases perform_cases gate made with ⟨-, hr⟩ | ⟨_, -, -, hs⟩ | ⟨-, hsa⟩
  · rw [hr]; rfl
  · rw [hs]
  · rw [hsa]

theorem gateAfter_minimums (minimums : WarmupMinimums) (calls : List WarmupCall) :
    (gateAfter minimums calls).toWarmupMinimums = minimums := by
  induction calls using List.reverseRecOn with
  | nil => rfl
  | append_singleton calls made ih =>
    rw [gateAfter, List.foldl_append]
    exact (perform_minimums _ made).trans ih

theorem ready_eq_true {clockSafe : Bool} {now : Option ℤ}
    (hr : gate.ready clockSafe now = .ok true) :
    ∃ time since, now = some time ∧ gate.healthySince = some since ∧
      gate.continuousFor ≤ time - since ∧ gate.minimumTrades ≤ gate.validTrades ∧
      gate.minimum1mBars ≤ gate.bars1m ∧ gate.minimum5mBars ≤ gate.bars5m := by
  cases now with
  | none => cases hr
  | some time =>
    have ha := Except.ok.inj hr
    simp only [Bool.and_eq_true, decide_eq_true_eq, Option.any_eq_true] at ha
    obtain ⟨⟨⟨⟨-, since, hs, hl⟩, ht⟩, ho⟩, hf⟩ := ha
    exact ⟨time, since, rfl, hs, hl, ht, ho, hf⟩

end Steps

/-- In a run that records data only while the gate is healthy, a gate that is ready has warmed
up on the data of the healthy period. -/
theorem warmup_counts_healthy_data (minimums : WarmupMinimums) (calls : List WarmupCall)
    (hrecords : RecordsWhileHealthy (.new minimums) calls) (clockSafe : Bool) (now : ℤ)
    (hready : (gateAfter minimums calls).ready clockSafe (some now) = .ok true) :
    WarmedUp minimums calls now := by
  have hst : CountsHealthyData [] (.new minimums) :=
    ⟨fun _ => ⟨rfl, rfl, rfl⟩, fun since hs => by cases hs⟩
  have hc : CountsHealthyData calls (gateAfter minimums calls) := hst.run hrecords
  obtain ⟨_, since, ⟨⟩, hs, hl, ht, ho, hf⟩ := ready_eq_true hready
  obtain ⟨pre, post, hca, ha, htr, hb, hla⟩ := hc.healthy since hs
  rw [gateAfter_minimums] at hl ht ho hf
  rw [htr] at ht
  rw [hb] at ho
  rw [hla] at hf
  exact ⟨pre, since, post, hca, ha, hl, ht, ho, hf⟩

def warmCalls : List WarmupCall :=
  [.observeHealth true (some 0), .recordValidTrades 1000, .recordClosedBar "1m",
    .recordClosedBar "1m", .recordClosedBar "5m"]

theorem warmup_counts_healthy_data_warmCalls : WarmedUp {} warmCalls 120000000 := by
  refine warmup_counts_healthy_data {} warmCalls ?_ true 120000000 (by decide)
  simp [warmCalls, RecordsWhileHealthy, MarketWarmupGate.perform, MarketWarmupGate.call,
    MarketWarmupGate.observeHealth, MarketWarmupGate.recordValidTrades,
    MarketWarmupGate.recordClosedBar, MarketWarmupGate.new, WarmupCall.Records,
    WarmupCall.trades, WarmupCall.bars]

def coldCalls : List WarmupCall :=
  [.recordValidTrades 1000, .recordClosedBar "1m", .recordClosedBar "1m", .recordClosedBar "5m",
    .observeHealth true (some 0)]

theorem coldCalls_not_warmedUp : (gateAfter {} coldCalls).ready true (some 120000000) = .ok true ∧
      ¬WarmedUp {} coldCalls 120000000 := by
  refine ⟨by decide, ?_⟩
  rintro ⟨pre, since, post, hc, -, -, ht, -⟩
  have hl : post = [] := by
    rcases List.eq_nil_or_concat post with hn | ⟨init, last, rfl⟩
    · exact hn
    · exfalso
      have hm : .observeHealth true (some since) ∈ coldCalls.dropLast := by
        rw [hc, List.concat_eq_append, ← List.cons_append, ← List.append_assoc,
          List.dropLast_concat]
        simp
      simp [coldCalls] at hm
  rw [hl] at ht
  exact absurd ht (by decide)

end AiQuant.OrderBook
