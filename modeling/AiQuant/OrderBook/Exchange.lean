import AiQuant.OrderBook.Representation

/-! The exchange's own book, and the local one as a copy of it.  The exchange changes levels
by numbered steps and publishes updates and snapshots of the result; whatever of that reaches
a `LocalOrderBook`, in whatever order, a HEALTHY book is the exchange's at its last id. -/
namespace AiQuant.OrderBook
open AiQuant.Lib

def DepthLevel.write (level : DepthLevel) : Write ℚ ℚ :=
  (level.price, if level.quantity = 0 then none else some level.quantity)

/-- One side of the exchange's book after the changes of every id up to `id`. -/
def sideAt (changes : ℕ → List DepthLevel) (id : ℕ) : Levels :=
  mapAt (fun change => (changes change).map DepthLevel.write) id

def resting (levels : Levels) (price : ℚ) : ℚ :=
  (levels.lookup price).getD 0

/-- `levels` holds the quantities at id `final` of all levels changed in `first..final`. -/
structure CarriesChanges (changes : ℕ → List DepthLevel) (first final : ℕ)
    (levels : List DepthLevel) : Prop where
  absolute : ∀ level ∈ levels, level.quantity = resting (sideAt changes final) level.price
  complete : ∀ id, first ≤ id → id ≤ final → ∀ change ∈ changes id,
    ∃ level ∈ levels, level.price = change.price

/-- `levels` holds the whole side at `id`. -/
structure CarriesSide (changes : ℕ → List DepthLevel) (id : ℕ) (levels : List DepthLevel) :
    Prop where
  absolute : ∀ level ∈ levels, level.quantity = resting (sideAt changes id) level.price
  complete : ∀ price ∈ sideAt changes id, ∃ level ∈ levels, level.price = price

structure DepthDiff where
  firstUpdateId : ℕ
  finalUpdateId : ℕ
  previousFinalUpdateId : ℕ
  bids : List DepthLevel
  asks : List DepthLevel

/-- An exchange: the level changes of every id, and the updates in the order of their
publication. -/
structure Exchange where
  bidChanges : ℕ → List DepthLevel
  askChanges : ℕ → List DepthLevel
  diff : ℕ → DepthDiff
  chained : ∀ n, (diff (n + 1)).previousFinalUpdateId = (diff n).finalUpdateId
  rising : ∀ n, (diff n).previousFinalUpdateId ≤ (diff n).finalUpdateId
  /-- Every id that changed a level since the previous update is covered. -/
  covered : ∀ n id, (bidChanges id ≠ [] ∨ askChanges id ≠ []) →
    (diff n).previousFinalUpdateId < id → id ≤ (diff n).finalUpdateId →
    (diff n).firstUpdateId ≤ id
  carries_bids : ∀ n, CarriesChanges bidChanges (diff n).firstUpdateId (diff n).finalUpdateId
    (diff n).bids
  carries_asks : ∀ n, CarriesChanges askChanges (diff n).firstUpdateId (diff n).finalUpdateId
    (diff n).asks

namespace Exchange

def bidsAt (exchange : Exchange) (id : ℕ) : Levels :=
  sideAt exchange.bidChanges id

def asksAt (exchange : Exchange) (id : ℕ) : Levels :=
  sideAt exchange.askChanges id

/-- The update is one of the exchange's, received on any connection and at any time. -/
def Publishes (exchange : Exchange) (update : DepthUpdate) : Prop :=
  ∃ n, update.firstUpdateId = (exchange.diff n).firstUpdateId ∧
    update.finalUpdateId = (exchange.diff n).finalUpdateId ∧
    update.previousFinalUpdateId = (exchange.diff n).previousFinalUpdateId ∧
    update.bids = (exchange.diff n).bids ∧ update.asks = (exchange.diff n).asks

/-- The snapshot shows the exchange's book at its id. -/
def Shows (exchange : Exchange) (snapshot : BookSnapshot) : Prop :=
  CarriesSide exchange.bidChanges snapshot.lastUpdateId snapshot.bids ∧
    CarriesSide exchange.askChanges snapshot.lastUpdateId snapshot.asks

end Exchange

variable {changes : ℕ → List DepthLevel} {levels : List DepthLevel} {first final since id : ℕ}

theorem applyLevel_eq_put (target : Levels) (level : DepthLevel) :
    applyLevel target level = put target level.write := by
  by_cases hz : level.quantity = 0 <;> simp [applyLevel, put, DepthLevel.write, hz]

theorem applyLevels_eq_putAll (target : Levels) (levels : List DepthLevel) :
    applyLevels target levels = putAll target (levels.map DepthLevel.write) := by
  rw [applyLevels, putAll, List.foldl_map]
  congr 1
  funext target level
  exact applyLevel_eq_put target level

theorem sideAt_positive (changes : ℕ → List DepthLevel) (id : ℕ) :
    PositiveQuantities (sideAt changes id) := by
  induction id with
  | zero =>
    rw [sideAt, mapAt, ← applyLevels_eq_putAll]
    exact levelsOf_positive (changes 0)
  | succ id ih =>
    rw [sideAt, mapAt, ← applyLevels_eq_putAll]
    exact applyLevels_positive ih (changes (id + 1))

theorem write_eq_lookup {level : DepthLevel}
    (hle : level.quantity = resting (sideAt changes id) level.price) :
    level.write.2 = (sideAt changes id).lookup level.price := by
  cases hl : (sideAt changes id).lookup level.price with
  | none =>
    have hz : level.quantity = 0 := by simpa [resting, hl] using hle
    simp [DepthLevel.write, hz]
  | some qty =>
    have hq : level.quantity = qty := by simpa [resting, hl] using hle
    have hp := sideAt_positive changes id level.price qty hl
    simp [DepthLevel.write, hq, hp.ne']

theorem forall_write {predicate : Write ℚ ℚ → Prop} (hl : ∀ level ∈ levels, predicate level.write) :
    ∀ write ∈ levels.map DepthLevel.write, predicate write := by
  simpa using hl

theorem CarriesChanges.applyLevels_eq (hc : CarriesChanges changes first final levels)
    (hle : since ≤ final) (hco : ∀ id, changes id ≠ [] → since < id → id ≤ final → first ≤ id) :
    applyLevels (sideAt changes since) levels = sideAt changes final := by
  rw [applyLevels_eq_putAll]
  refine Patches.putAll_eq ⟨?_, ?_⟩ hle
  · exact forall_write fun level hl => write_eq_lookup (hc.absolute level hl)
  · rintro price ⟨id, hs, hid, write, hw, rfl⟩
    obtain ⟨change, hch, rfl⟩ := List.mem_map.1 hw
    have hf := hco id (List.ne_nil_of_mem hch) hs hid
    obtain ⟨level, hl, hp⟩ := hc.complete id hf hid change hch
    exact ⟨level.write, List.mem_map_of_mem hl, hp⟩

theorem CarriesSide.levelsOf_eq (hc : CarriesSide changes id levels) :
    levelsOf levels = sideAt changes id := by
  rw [levelsOf, applyLevels_eq_putAll]
  refine putAll_empty_eq ?_ ?_
  · exact forall_write fun level hl => write_eq_lookup (hc.absolute level hl)
  · intro price hp
    obtain ⟨level, hl, hle⟩ := hc.complete price hp
    exact ⟨level.write, List.mem_map_of_mem hl, hle⟩

def Exchange.Mirrored (exchange : Exchange) (bids asks : Levels) (id : ℕ) : Prop :=
  bids = exchange.bidsAt id ∧ asks = exchange.asksAt id

theorem Exchange.mirrored_tracks (exchange : Exchange) :
    Tracks exchange.Publishes exchange.Shows exchange.Mirrored where
  boundary := by
    rintro snap rule upd ⟨hbi, ha⟩ ⟨n, hfi, hf, -, hup, hu⟩ hcov hle -
    have hb : upd.firstUpdateId ≤ snap.lastUpdateId + 1 := by
      have hco : upd.firstUpdateId ≤ LocalOrderBook.boundaryOf snap rule := by
        simp only [LocalOrderBook.covers, decide_eq_true_eq] at hcov
        exact hcov.1
      cases rule with
      | coverLastUpdateId => exact Nat.le_succ_of_le hco
      | coverNextUpdateId => exact hco
    rw [hbi.levelsOf_eq, ha.levelsOf_eq, hup, hu, hf]
    rw [hf] at hle
    rw [hfi] at hb
    exact ⟨(exchange.carries_bids n).applyLevels_eq hle fun id _ hs _ =>
        hb.trans hs,
      (exchange.carries_asks n).applyLevels_eq hle fun id _ hs _ => hb.trans hs⟩
  update := by
    rintro bids asks upd ⟨n, -, hf, hp, hup, hu⟩ ⟨rfl, rfl⟩ -
    rw [hup, hu, hf, hp]
    exact ⟨(exchange.carries_bids n).applyLevels_eq (exchange.rising n) fun id hc =>
        exchange.covered n id (Or.inl hc),
      (exchange.carries_asks n).applyLevels_eq (exchange.rising n) fun id hc =>
        exchange.covered n id (Or.inr hc)⟩

/-- Whatever updates of the exchange are lost, repeated or reordered, a HEALTHY book is the
exchange's book at its last id. -/
theorem run_mirrors_exchange (exchange : Exchange) (sym : String) (bufferLimit : ℕ+)
    (stale : ℤ) (calls : List BookCall)
    (hcalls : ∀ call ∈ calls, call.Brings exchange.Publishes exchange.Shows)
    (hhealthy : ((LocalOrderBook.new sym bufferLimit stale).run calls).state = .healthy) :
    ∃ id, ((LocalOrderBook.new sym bufferLimit stale).run calls).lastUpdateId = some id ∧
      ((LocalOrderBook.new sym bufferLimit stale).run calls).bids = exchange.bidsAt id ∧
      ((LocalOrderBook.new sym bufferLimit stale).run calls).asks = exchange.asksAt id := by
  have hh := LocalOrderBook.run_holds exchange.mirrored_tracks hcalls
    (LocalOrderBook.new_holds sym bufferLimit stale)
  rcases hh.contents with ⟨-, id, hid, hb, ha⟩ | ⟨hs, -⟩
  · exact ⟨id, hid, hb, ha⟩
  · exact absurd hhealthy hs.ne_healthy

/-! An exchange that publishes every id in an update of its own, and a copy that loses the
first of them and receives the third twice. -/

def sampleBids : ℕ → List DepthLevel
  | 1 => [⟨100, 5, by decide, by decide⟩]
  | 2 => [⟨100, 7, by decide, by decide⟩, ⟨99, 1, by decide, by decide⟩]
  | 3 => [⟨100, 0, by decide, by decide⟩]
  | _ => []

def sampleAsks : ℕ → List DepthLevel
  | 1 => [⟨101, 4, by decide, by decide⟩]
  | _ => []

def sampleDiff (n : ℕ) : DepthDiff where
  firstUpdateId := n + 1
  finalUpdateId := n + 1
  previousFinalUpdateId := n
  bids := sampleBids (n + 1)
  asks := sampleAsks (n + 1)

theorem sample_carries (changes : ℕ → List DepthLevel) (n : ℕ) (ha : ∀ level ∈ changes (n + 1),
      level.quantity = resting (sideAt changes (n + 1)) level.price) :
    CarriesChanges changes (n + 1) (n + 1) (changes (n + 1)) where
  absolute := ha
  complete _ hfirst hfinal change hchange :=
    ⟨change, (Nat.le_antisymm hfinal hfirst) ▸ hchange, rfl⟩

def sampleExchange : Exchange where
  bidChanges := sampleBids
  askChanges := sampleAsks
  diff := sampleDiff
  chained _ := rfl
  rising n := Nat.le_succ n
  covered _ _ _ hprevious _ := hprevious
  carries_bids n := sample_carries sampleBids n <| match n with
    | 0 => by decide
    | 1 => by decide
    | 2 => by decide
    | n + 3 => by simp [sampleBids]
  carries_asks n := sample_carries sampleAsks n <| match n with
    | 0 => by decide
    | n + 1 => by simp [sampleAsks]

def sampleUpdate (n : ℕ) : DepthUpdate where
  symbol := "BTCUSDT"
  connectionId := "c"
  receivedAt := n
  firstUpdateId := n + 1
  finalUpdateId := n + 1
  previousFinalUpdateId := n
  bids := sampleBids (n + 1)
  asks := sampleAsks (n + 1)
  rawHash := "hash"
  first_le_final := le_rfl

def sampleSnapshot : BookSnapshot where
  symbol := "BTCUSDT"
  connectionId := "c"
  receivedAt := 0
  lastUpdateId := 1
  bids := sampleBids 1
  asks := sampleAsks 1
  bids_ne_nil := by simp [sampleBids]
  asks_ne_nil := by simp [sampleAsks]

def sampleCalls : List BookCall :=
  [.startBuffering "c", .ingest (sampleUpdate 1), .loadSnapshot sampleSnapshot .coverNextUpdateId,
    .ingest (sampleUpdate 2), .ingest (sampleUpdate 2)]

theorem sampleCalls_brings :
    ∀ call ∈ sampleCalls, call.Brings sampleExchange.Publishes sampleExchange.Shows := by
  have hu : ∀ n, sampleExchange.Publishes (sampleUpdate n) := fun n =>
    ⟨n, rfl, rfl, rfl, rfl, rfl⟩
  have hs : sampleExchange.Shows sampleSnapshot :=
    ⟨⟨by decide, by decide⟩, ⟨by decide, by decide⟩⟩
  simp [sampleCalls, BookCall.Brings, hu, hs]

theorem sampleCalls_mirror :
    ∃ id, ((LocalOrderBook.new "BTCUSDT" 8 3000000).run sampleCalls).lastUpdateId = some id ∧
      ((LocalOrderBook.new "BTCUSDT" 8 3000000).run sampleCalls).bids = sampleExchange.bidsAt id ∧
      ((LocalOrderBook.new "BTCUSDT" 8 3000000).run sampleCalls).asks = sampleExchange.asksAt id :=
  run_mirrors_exchange sampleExchange "BTCUSDT" 8 3000000 sampleCalls sampleCalls_brings
    (by decide)

end AiQuant.OrderBook
