import AiQuant.OrderBook.Exchange
import Mathlib.Data.List.TakeWhile

/-! `LocalOrderBook.health` and the contract of `MarketDataHealth` (`market_data/models.py`).
A report never breaks its contract and says HEALTHY only of a HEALTHY book.  A STALE book has
forgotten when it last applied an update: `mark_stale` clears what `health` measures from. -/
namespace AiQuant.OrderBook
open AiQuant.Lib

inductive DataHealthStatus where
  | healthy | warmingUp | stale | gapDetected | clockUnsafe | invalid
deriving DecidableEq

structure MarketDataHealth (Offset : Type) where
  status : DataHealthStatus
  bookValid : Bool
  warmedUp : Bool
  lastUpdateId : Option ℕ
  eventLagMs : ℤ
  clockOffsetMs : Offset
  gapCount : ℕ
  duplicateCount : ℕ
  outOfOrderCount : ℕ
  staleForMs : ℤ
  reasonCodes : List String

/-- How `health` raises. -/
inductive HealthError where
  | nowNotUtc
  | belowZero
  | healthyContract
  | reasonMissing

def HealthError.text : HealthError → String
  | nowNotUtc => "now must be timezone-aware UTC"
  | belowZero => "Input should be greater than or equal to 0"
  | healthyContract => "HEALTHY violates closed health contract"
  | reasonMissing => "non-healthy state requires a reason code"

/-- The constructor: the fields' bounds and `healthy_contract_is_closed`. -/
def MarketDataHealth.validate {Offset : Type} (report : MarketDataHealth Offset) :
    Except HealthError (MarketDataHealth Offset) :=
  if report.eventLagMs < 0 ∨ report.staleForMs < 0 then .error .belowZero
  else if report.status = .healthy then
    if !report.bookValid || !report.warmedUp || report.gapCount ≠ 0 ||
        report.outOfOrderCount ≠ 0 || report.staleForMs ≠ 0 || report.reasonCodes ≠ [] then
      .error .healthyContract
    else .ok report
  else if report.reasonCodes = [] then .error .reasonMissing
  else .ok report

/-- The arguments of `health`. -/
structure HealthQuery (Offset : Type) where
  now : LocalOrderBook.Timestamp
  warmedUp : Bool
  clockOffsetMs : Offset
  clockSafe : Bool

section Health

/-! `milliseconds` is the floating-point `int(delta.total_seconds() * 1000)`. -/
variable {Offset : Type} (milliseconds : ℤ → ℤ)

namespace LocalOrderBook

def eventLag (book : LocalOrderBook) (now : ℤ) : ℤ :=
  match book.lastReceivedAt with
  | some lastReceivedAt => max 0 (milliseconds (now - lastReceivedAt))
  | none => 0

def healthStatus (book : LocalOrderBook) (query : HealthQuery Offset) :
    DataHealthStatus × List String :=
  if query.clockSafe = false then (.clockUnsafe, ["CLOCK_OFFSET_UNSAFE"])
  else if book.state = .healthy ∧ query.warmedUp then (.healthy, [])
  else if book.state = .healthy then (.warmingUp, ["WARMUP_INCOMPLETE"])
  else if book.state = .stale then (.stale, [book.reason.text])
  else if book.state = .gap then (.gapDetected, [book.reason.text])
  else (.invalid, [book.reason.text])

def health (book : LocalOrderBook) (query : HealthQuery Offset) :
    Except HealthError (MarketDataHealth Offset) :=
  if query.now.utc = false then .error .nowNotUtc
  else
    let lag := book.eventLag milliseconds query.now.instant
    let status := book.healthStatus query
    MarketDataHealth.validate {
      status := status.1
      bookValid := book.valid
      warmedUp := query.warmedUp && book.valid
      lastUpdateId := book.lastUpdateId
      eventLagMs := lag
      clockOffsetMs := query.clockOffsetMs
      gapCount := if book.valid then 0 else book.gapCount
      duplicateCount := book.duplicateCount
      outOfOrderCount := if book.valid then 0 else book.outOfOrderCount
      staleForMs := if book.state = .stale then lag else 0
      reasonCodes := status.2 }

/-- The buffered updates that `load_snapshot` applies. -/
def fromBoundary (buffered : List DepthUpdate) (snapshot : BookSnapshot)
    (rule : BoundaryRule) : List DepthUpdate :=
  (buffered.filter fun event => snapshot.lastUpdateId ≤ event.finalUpdateId).dropWhile
    fun event => !covers (boundaryOf snapshot rule) event

def appliedBy (book : LocalOrderBook) : BookCall → List DepthUpdate
  | .ingest update =>
    match (book.ingest update).1 with
    | .ok true => [update]
    | _ => []
  | .loadSnapshot snapshot rule =>
    if book.state = .buffering ∧ (book.loadSnapshot snapshot rule).2.state = .healthy then
      fromBoundary book.buffer snapshot rule
    else []
  | _ => []

def appliedDuring : LocalOrderBook → List BookCall → List DepthUpdate
  | _, [] => []
  | book, call :: rest => book.appliedBy call ++ appliedDuring (book.step call) rest

end LocalOrderBook

def DepthUpdate.ageMs (update : DepthUpdate) (instant : ℤ) : ℤ :=
  (instant - update.receivedAt) / 1000

/-- What a report promises of the book that has applied `applied`: it exists, HEALTHY means
HEALTHY, and STALE comes with the time since the last of them. -/
def LocalOrderBook.Truthful (book : LocalOrderBook) (applied : List DepthUpdate)
    (query : HealthQuery Offset) : Prop :=
  ∃ report, book.health milliseconds query = .ok report ∧
    (report.status = .healthy →
      book.state = .healthy ∧ query.warmedUp = true ∧ query.clockSafe = true) ∧
    (report.status = .stale → ∃ last ∈ applied.getLast?,
      last.ageMs query.now.instant ≤ report.staleForMs ∧
        last.ageMs query.now.instant ≤ report.eventLagMs)

namespace LocalOrderBook

variable {book : LocalOrderBook}

theorem eventLag_nonneg (book : LocalOrderBook) (now : ℤ) : 0 ≤ book.eventLag milliseconds now := by
  unfold eventLag
  split
  · exact le_max_left _ _
  · exact le_rfl

theorem healthStatus_reason (book : LocalOrderBook) (qry : HealthQuery Offset) :
    (book.healthStatus qry).1 = .healthy ∧ (book.healthStatus qry).2 = [] ∧
        book.state = .healthy ∧ qry.warmedUp = true ∧ qry.clockSafe = true ∨
      (book.healthStatus qry).1 ≠ .healthy ∧ (book.healthStatus qry).2 ≠ [] := by
  unfold healthStatus
  split_ifs with hc hh
  · exact Or.inr ⟨by simp, by simp⟩
  · exact Or.inl ⟨rfl, rfl, hh.1, hh.2, by simpa using hc⟩
  all_goals exact Or.inr ⟨by simp, by simp⟩

theorem healthStatus_eq_stale_iff (book : LocalOrderBook) (qry : HealthQuery Offset) :
    (book.healthStatus qry).1 = .stale ↔ book.state = .stale ∧ qry.clockSafe = true := by
  unfold healthStatus
  split_ifs with hc hh hw hs hg <;> simp_all

theorem health_eq_ok (book : LocalOrderBook) {qry : HealthQuery Offset} (hu : qry.now.utc = true) :
    ∃ report, book.health milliseconds qry = .ok report ∧
      report.status = (book.healthStatus qry).1 ∧
      report.eventLagMs = book.eventLag milliseconds qry.now.instant ∧
      report.staleForMs =
        if book.state = .stale then book.eventLag milliseconds qry.now.instant else 0 := by
  have hl := book.eventLag_nonneg milliseconds qry.now.instant
  have hsta : ¬ (if book.state = .stale then
      book.eventLag milliseconds qry.now.instant else 0) < 0 := by
    split
    · exact not_lt.mpr hl
    · exact lt_irrefl 0
  unfold health MarketDataHealth.validate
  simp only [hu, Bool.true_eq_false, if_false, not_lt.mpr hl, hsta, or_self]
  rcases book.healthStatus_reason qry with
    ⟨hs, hr, hst, hw, -⟩ | ⟨hs, hr⟩
  · have hv : book.valid = true := by simp [valid, hst]
    simp [hs, hr, hst, hw, hv]
  · simp [hs, hr]

omit milliseconds in
theorem applyContiguous_refused {upd : DepthUpdate} (hr : (book.applyContiguous upd).1 = false) :
    (book.applyContiguous upd).2.state = .gap ∨
      (book.applyContiguous upd).2.state = .disconnected := by
  unfold applyContiguous at hr ⊢
  split at hr
  · exact Or.inl rfl
  · split_ifs at hr ⊢
    · exact Or.inr rfl
    · exact Or.inl rfl
    · exact Or.inr rfl

theorem applyAll_refused {updates : List DepthUpdate} (hr : (book.applyAll updates).1 = false) :
    (book.applyAll updates).2.state = .gap ∨ (book.applyAll updates).2.state = .disconnected := by
  induction updates generalizing book with
  | nil => cases hr
  | cons upd rest ih =>
    unfold applyAll at hr ⊢
    rcases ha : book.applyContiguous upd with ⟨accepted, post⟩
    rw [ha] at hr
    cases accepted with
    | true => exact ih hr
    | false =>
      have hs := applyContiguous_refused (by rw [ha])
      rwa [ha] at hs

theorem ingest_state (book : LocalOrderBook) (upd : DepthUpdate) :
    (book.ingest upd).2.state = book.state ∨ (book.ingest upd).2.state = .gap ∨
      (book.ingest upd).2.state = .disconnected := by
  unfold ingest ingestFresh
  split_ifs with hf hse hbu hfu ho
  · exact Or.inr (Or.inr rfl)
  · exact Or.inl rfl
  · exact Or.inr (Or.inl rfl)
  · exact Or.inl rfl
  · exact Or.inl rfl
  · have hh : (book.remember (eventKey upd)).state = .healthy := not_not.mp ho
    rcases applyContiguous_cases (book.remember (eventKey upd)) upd with
      ⟨post, ha, -⟩ | ⟨-, -, ha⟩
    · have hs := applyContiguous_refused (by rw [ha])
      rw [ha] at hs ⊢
      exact Or.inr hs
    · rw [ha]
      refine Or.inl ?_
      have hb : book.state = .healthy := hh
      simp [applied, hh, hb]

theorem loadSnapshot_stale {snap : BookSnapshot} {rule : BoundaryRule}
    (hs : (book.loadSnapshot snap rule).2.state = .stale) : book.state = .stale := by
  unfold loadSnapshot at hs
  dsimp only at hs
  split_ifs at hs with hst hi hv
  · exact hs
  · cases hs
  · cases hs
  · unfold replayBuffer at hs
    dsimp only at hs
    split_ifs at hs with hc
    · cases hs
    split at hs
    · cases hs
    split at hs
    · rename_i invalidated hrefused
      have hst := applyAll_refused (by rw [hrefused])
      rw [hrefused] at hst
      rw [hs] at hst
      exact absurd hst (by simp)
    · cases hs

theorem markStale_stale {now : Timestamp} (hs : (book.markStale now).2.state = .stale) :
    book.state = .healthy ∨ book.state = .stale := by
  by_cases hh : book.state = .healthy
  · exact Or.inl hh
  · have hsa : (book.markStale now).2 = book := by
      unfold markStale
      simp only [hh, if_false, ite_self]
      split
      · rfl
      · split <;> rfl
    exact Or.inr (hsa ▸ hs)

def Recorded (book : LocalOrderBook) (applied : List DepthUpdate) : Prop :=
  book.state = .healthy ∨ book.state = .stale → applied ≠ []

theorem fromBoundary_ne_nil {buffered : List DepthUpdate} {snap : BookSnapshot}
    {rule : BoundaryRule} (hc : BoundaryCovered buffered snap rule) :
    fromBoundary buffered snap rule ≠ [] := by
  obtain ⟨ev, he, hle, hf, hfi⟩ := hc
  intro hn
  unfold fromBoundary at hn
  rw [List.dropWhile_eq_nil_iff] at hn
  have hp := hn ev (List.mem_filter.mpr ⟨he, decide_eq_true hle⟩)
  simp [covers, hf, hfi] at hp

theorem Recorded.step {applied : List DepthUpdate} (hr : book.Recorded applied)
    (call : BookCall) : (book.step call).Recorded (applied ++ book.appliedBy call) := by
  intro haf hn
  obtain ⟨hp, hca⟩ := List.append_eq_nil_iff.mp hn
  have hb : book.state ≠ .healthy ∧ book.state ≠ .stale := by
    constructor
    · exact fun hh => hr (Or.inl hh) hp
    · exact fun hs => hr (Or.inr hs) hp
  rcases haf with hh | hs
  · obtain ⟨snap, rule, rfl, hbu, -, -, hc⟩ := step_healthy hb.1 hh
    have ha : book.appliedBy (.loadSnapshot snap rule) =
        fromBoundary book.buffer snap rule := if_pos ⟨hbu, hh⟩
    exact fromBoundary_ne_nil hc (ha ▸ hca)
  · apply hb.2
    cases call with
    | startBuffering connId => cases hs
    | rotate connId => cases hs
    | disconnect => cases hs
    | ingest upd =>
      have hi := ingest_state book upd
      rw [show (book.ingest upd).2.state = .stale from hs] at hi
      simpa [eq_comm] using hi
    | loadSnapshot snap rule => exact loadSnapshot_stale hs
    | markStale now =>
      exact (markStale_stale hs).resolve_left hb.1

theorem Recorded.run {applied : List DepthUpdate} (hr : book.Recorded applied)
    (calls : List BookCall) : (book.run calls).Recorded (applied ++ book.appliedDuring calls) := by
  induction calls generalizing book applied with
  | nil =>
    rw [appliedDuring, List.append_nil]
    exact hr
  | cons call rest ih =>
    have hre := ih (hr.step call)
    rwa [List.append_assoc] at hre

end LocalOrderBook

/-- In every state that a book can reach, its report is truthful exactly if it is not STALE, or
the clock is unsafe, or less than a millisecond has passed since it applied its last update. -/
theorem health_truthful_iff (sym : String) (bufferLimit : ℕ+) (stale : ℤ)
    (calls : List BookCall) {qry : HealthQuery Offset} (hutc : qry.now.utc = true) :
    ((LocalOrderBook.new sym bufferLimit stale).run calls).Truthful milliseconds
        ((LocalOrderBook.new sym bufferLimit stale).appliedDuring calls) qry ↔
      (((LocalOrderBook.new sym bufferLimit stale).run calls).state = .stale →
        qry.clockSafe = true →
        ∀ last ∈ ((LocalOrderBook.new sym bufferLimit stale).appliedDuring calls).getLast?,
          last.ageMs qry.now.instant ≤ 0) := by
  have hho := LocalOrderBook.run_quotes sym bufferLimit stale calls
  have hrec : ((LocalOrderBook.new sym bufferLimit stale).run calls).Recorded
      ((LocalOrderBook.new sym bufferLimit stale).appliedDuring calls) :=
    @LocalOrderBook.Recorded.run _ [] (fun hs => by simp [LocalOrderBook.new] at hs) calls
  obtain ⟨report, hr, hsta, hlag, hstal⟩ :=
    ((LocalOrderBook.new sym bufferLimit stale).run calls).health_eq_ok milliseconds hutc
  generalize (LocalOrderBook.new sym bufferLimit stale).run calls = book at *
  generalize (LocalOrderBook.new sym bufferLimit stale).appliedDuring calls = applied at *
  have hst := book.healthStatus_eq_stale_iff qry
  rw [← hsta] at hst
  -- nothing is left to measure from once the book is STALE
  have hz : book.state = .stale → report.eventLagMs = 0 ∧ report.staleForMs = 0 := by
    intro hs
    have hc : book.Cleared := by
      rcases hho.contents with ⟨hh, -⟩ | ⟨-, hc⟩
      · rw [hs] at hh
        cases hh
      · exact hc
    have hn : book.eventLag milliseconds qry.now.instant = 0 := by
      simp [LocalOrderBook.eventLag, hc.lastReceivedAt_eq]
    rw [hlag, hstal, hn, ite_self]
    exact ⟨rfl, rfl⟩
  constructor
  · rintro ⟨other, ho, -, hfr⟩ hs hsa last hl
    obtain rfl := Except.ok.inj (hr.symm.trans ho)
    obtain ⟨found, hf, -, hage⟩ := hfr (hst.mpr ⟨hs, hsa⟩)
    obtain rfl := Option.mem_unique hl hf
    rwa [(hz hs).1] at hage
  · intro hco
    refine ⟨report, hr, fun hh => ?_, fun hre => ?_⟩
    · rcases book.healthStatus_reason qry with ⟨-, -, hhe⟩ | ⟨ho, -⟩
      · exact hhe
      · exact absurd (hsta ▸ hh) ho
    · obtain ⟨hs, hsa⟩ := hst.mp hre
      have ha := hrec (Or.inr hs)
      have hl := List.getLast?_eq_some_getLast ha
      rw [(hz hs).1, (hz hs).2]
      have hage := hco hs hsa _ hl
      exact ⟨_, hl, hage, hage⟩

end Health

section Silent

def wholeMilliseconds (micros : ℤ) : ℤ :=
  micros / 1000

def sampleQuery (instant : ℤ) : HealthQuery ℚ where
  now := ⟨instant, true⟩
  warmedUp := true
  clockOffsetMs := 0
  clockSafe := true

theorem sample_health_truthful :
    ((LocalOrderBook.new "BTCUSDT" 8 3000000).run sampleCalls).Truthful wholeMilliseconds
      ((LocalOrderBook.new "BTCUSDT" 8 3000000).appliedDuring sampleCalls)
      (sampleQuery 2000002) := by
  have hh : ((LocalOrderBook.new "BTCUSDT" 8 3000000).run sampleCalls).state = .healthy := by
    decide
  refine (health_truthful_iff wholeMilliseconds "BTCUSDT" 8 3000000 sampleCalls rfl).mpr ?_
  intro hs
  rw [hh] at hs
  cases hs

def silentCalls : List BookCall :=
  sampleCalls ++ [.markStale ⟨10000002, true⟩]

theorem silent_health_untruthful :
    ¬ ∀ (sym : String) (bufferLimit : ℕ+) (stale : ℤ) (calls : List BookCall)
        (qry : HealthQuery ℚ), qry.now.utc = true →
      ((LocalOrderBook.new sym bufferLimit stale).run calls).Truthful wholeMilliseconds
        ((LocalOrderBook.new sym bufferLimit stale).appliedDuring calls) qry := by
  intro hc
  obtain ⟨report, hre, -, hfr⟩ :=
    hc "BTCUSDT" 8 3000000 silentCalls (sampleQuery 10000002) rfl
  have hl : ((LocalOrderBook.new "BTCUSDT" 8 3000000).appliedDuring silentCalls).getLast? =
      some (sampleUpdate 2) := by decide
  obtain ⟨found, hf, hs, hlag, hst⟩ :=
    @LocalOrderBook.health_eq_ok _ wholeMilliseconds
      ((LocalOrderBook.new "BTCUSDT" 8 3000000).run silentCalls) (sampleQuery 10000002) rfl
  obtain rfl := Except.ok.inj (hre.symm.trans hf)
  have hr : (((LocalOrderBook.new "BTCUSDT" 8 3000000).run silentCalls).healthStatus
      (sampleQuery 10000002)).1 = .stale := by decide
  have hz : ((LocalOrderBook.new "BTCUSDT" 8 3000000).run silentCalls).eventLag
      wholeMilliseconds 10000002 = 0 := by decide
  obtain ⟨last, hm, -, ha⟩ := hfr (hs.trans hr)
  rw [hl] at hm
  obtain rfl := Option.mem_some_iff.mp hm
  have ha : (sampleUpdate 2).ageMs 10000002 ≤ 0 := (ha.trans hlag.le).trans hz.le
  exact absurd ha (by decide)

end Silent

end AiQuant.OrderBook
