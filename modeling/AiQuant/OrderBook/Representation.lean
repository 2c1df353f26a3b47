import AiQuant.OrderBook.Book

/-! What every call of a `LocalOrderBook` leaves behind.  Either the book is HEALTHY and its
sides satisfy whatever the snapshot's boundary established and every later update kept, or
the whole representation is cleared. -/
namespace AiQuant.OrderBook
open AiQuant.Lib

structure LocalOrderBook.Cleared (book : LocalOrderBook) : Prop where
  bids_eq : book.bids = ∅
  asks_eq : book.asks = ∅
  lastUpdateId_eq : book.lastUpdateId = none
  lastReceivedAt_eq : book.lastReceivedAt = none

def OrderBookState.IsSettled (state : OrderBookState) : Prop :=
  state = .disconnected ∨ state = .buffering ∨ state = .stale ∨ state = .gap

theorem OrderBookState.IsSettled.ne_healthy {st : OrderBookState} (hs : st.IsSettled) :
    st ≠ .healthy := by
  rcases hs with rfl | rfl | rfl | rfl <;> simp

structure LocalOrderBook.Invalidated (book : LocalOrderBook) : Prop where
  settled : book.state.IsSettled
  cleared : book.Cleared
  buffer_eq : book.buffer = []

namespace LocalOrderBook

variable {book post : LocalOrderBook} {update : DepthUpdate}

theorem invalidate_invalidated (book : LocalOrderBook) (reason : BookReason) (gap : Bool) :
    (book.invalidate reason gap).Invalidated := by
  refine ⟨?_, ⟨rfl, rfl, rfl, rfl⟩, rfl⟩
  cases gap
  · exact Or.inl rfl
  · exact Or.inr (Or.inr (Or.inr rfl))

theorem applyContiguous_cases (book : LocalOrderBook) (update : DepthUpdate) :
    (∃ post : LocalOrderBook, book.applyContiguous update = (false, post) ∧ post.Invalidated) ∨
    (book.lastUpdateId = some update.previousFinalUpdateId ∧
      sidesValid (applyLevels book.bids update.bids) (applyLevels book.asks update.asks) = true ∧
      book.applyContiguous update = (true, book.applied update)) := by
  unfold applyContiguous
  cases hl : book.lastUpdateId with
  | none => exact Or.inl ⟨_, rfl, invalidate_invalidated _ _ _⟩
  | some prev =>
    by_cases hp : update.previousFinalUpdateId = prev
    · subst hp
      cases hv : sidesValid (applyLevels book.bids update.bids) (applyLevels book.asks update.asks)
      · refine Or.inl ⟨book.invalidate .crossedOrEmptyBook false, ?_, invalidate_invalidated _ _ _⟩
        simp
      · refine Or.inr ⟨rfl, rfl, ?_⟩
        simp
    · by_cases ho : update.finalUpdateId ≤ prev
      · refine Or.inl ⟨invalidate { book with outOfOrderCount := book.outOfOrderCount + 1 }
          .outOfOrderUpdate false, ?_, invalidate_invalidated _ _ _⟩
        simp [hp, ho, hl]
      · refine Or.inl ⟨book.invalidate .sequenceGap true, ?_, invalidate_invalidated _ _ _⟩
        simp [hp, ho]

structure SameContents (update : DepthUpdate) (book after : LocalOrderBook) : Prop where
  state_eq : after.state = book.state
  bids_eq : after.bids = book.bids
  asks_eq : after.asks = book.asks
  lastUpdateId_eq : after.lastUpdateId = book.lastUpdateId
  lastReceivedAt_eq : after.lastReceivedAt = book.lastReceivedAt
  buffer_subset : ∀ buffered ∈ after.buffer, buffered ∈ book.buffer ∨ buffered = update

structure Advances (update : DepthUpdate) (book after : LocalOrderBook) : Prop where
  healthy : book.state = .healthy
  follows : book.lastUpdateId = some update.previousFinalUpdateId
  valid : sidesValid (applyLevels book.bids update.bids)
    (applyLevels book.asks update.asks) = true
  state_eq : after.state = .healthy
  bids_eq : after.bids = applyLevels book.bids update.bids
  asks_eq : after.asks = applyLevels book.asks update.asks
  lastUpdateId_eq : after.lastUpdateId = some update.finalUpdateId
  buffer_eq : after.buffer = book.buffer

/-- What `ingest` can do: refuse the update and clear the book, keep the contents, or
apply the update. -/
inductive IngestCases (update : DepthUpdate) (book : LocalOrderBook) :
    Except BookError Bool × LocalOrderBook → Prop
  | cleared {result : Except BookError Bool} {after : LocalOrderBook}
      (hresult : result ≠ .ok true) (hafter : after.Invalidated) :
      IngestCases update book (result, after)
  | kept {after : LocalOrderBook} (hafter : SameContents update book after) :
      IngestCases update book (.ok false, after)
  | advanced {after : LocalOrderBook} (hafter : Advances update book after) :
      IngestCases update book (.ok true, after)

theorem ingestFresh_cases (book : LocalOrderBook) (update : DepthUpdate) :
    IngestCases update book (book.ingestFresh update) := by
  unfold ingestFresh
  split_ifs with hb hfu ho
  · exact .cleared (by simp) (invalidate_invalidated _ _ _)
  · refine .kept ⟨rfl, rfl, rfl, rfl, rfl, fun buffered hm => ?_⟩
    simpa using hm
  · exact .kept ⟨rfl, rfl, rfl, rfl, rfl, fun _ hm => Or.inl hm⟩
  · have hh : book.state = .healthy := not_not.1 ho
    have hn : book.state ≠ .syncing := by simp [hh]
    rcases applyContiguous_cases book update with
      ⟨rejected, ha, hi⟩ | ⟨hf, hv, ha⟩
    · rw [ha]
      exact .cleared (by simp) hi
    · rw [ha]
      refine .advanced ⟨hh, hf, hv, ?_, ?_, ?_, ?_, ?_⟩ <;>
        simp [applied, hn]

theorem IngestCases.of_remember {key : EventKey} {outcome : Except BookError Bool × LocalOrderBook}
    (hc : IngestCases update (book.remember key) outcome) : IngestCases update book outcome := by
  cases hc with
  | cleared hresult ha => exact .cleared hresult ha
  | kept ha => exact .kept ⟨ha.1, ha.2, ha.3, ha.4, ha.5, ha.6⟩
  | advanced ha =>
    exact .advanced ⟨ha.1, ha.2, ha.3, ha.4, ha.5, ha.6, ha.7, ha.8⟩

theorem ingest_cases (book : LocalOrderBook) (update : DepthUpdate) :
    IngestCases update book (book.ingest update) := by
  unfold ingest
  split_ifs with hf hs
  · exact .cleared (by simp) (invalidate_invalidated _ _ _)
  · exact .kept ⟨rfl, rfl, rfl, rfl, rfl, fun _ hm => Or.inl hm⟩
  · exact (ingestFresh_cases (book.remember (eventKey update)) update).of_remember

end LocalOrderBook

/-- `relation` between the two sides and the last applied id is established by the boundary
update of a snapshot and kept by every update that follows. -/
structure Tracks (delivered : DepthUpdate → Prop) (published : BookSnapshot → Prop)
    (relation : Levels → Levels → ℕ → Prop) : Prop where
  boundary : ∀ snapshot rule update, published snapshot → delivered update →
    LocalOrderBook.covers (LocalOrderBook.boundaryOf snapshot rule) update = true →
    snapshot.lastUpdateId ≤ update.finalUpdateId →
    sidesValid (applyLevels (levelsOf snapshot.bids) update.bids)
      (applyLevels (levelsOf snapshot.asks) update.asks) = true →
    relation (applyLevels (levelsOf snapshot.bids) update.bids)
      (applyLevels (levelsOf snapshot.asks) update.asks) update.finalUpdateId
  update : ∀ bids asks update, delivered update →
    relation bids asks update.previousFinalUpdateId →
    sidesValid (applyLevels bids update.bids) (applyLevels asks update.asks) = true →
    relation (applyLevels bids update.bids) (applyLevels asks update.asks) update.finalUpdateId

/-- The book is HEALTHY and related to its last id, or it is cleared. -/
structure LocalOrderBook.Holds (delivered : DepthUpdate → Prop)
    (relation : Levels → Levels → ℕ → Prop) (book : LocalOrderBook) : Prop where
  buffered : ∀ update ∈ book.buffer, delivered update
  contents : (book.state = .healthy ∧ ∃ id, book.lastUpdateId = some id ∧
      relation book.bids book.asks id) ∨
    (book.state.IsSettled ∧ book.Cleared)

/-- The updates and snapshots of a call come from these. -/
def BookCall.Brings (delivered : DepthUpdate → Prop) (published : BookSnapshot → Prop) :
    BookCall → Prop
  | .ingest update => delivered update
  | .loadSnapshot snapshot _ => published snapshot
  | _ => True

namespace LocalOrderBook

variable {delivered : DepthUpdate → Prop} {published : BookSnapshot → Prop}
  {relation : Levels → Levels → ℕ → Prop} {book post : LocalOrderBook} {update : DepthUpdate}

theorem Invalidated.holds (hi : book.Invalidated) : book.Holds delivered relation where
  buffered := by simp [hi.buffer_eq]
  contents := Or.inr ⟨hi.settled, hi.cleared⟩

theorem new_holds (sym : String) (bufferLimit : ℕ+) (stale : ℤ) :
    (new sym bufferLimit stale).Holds delivered relation :=
  Invalidated.holds ⟨Or.inl rfl, ⟨rfl, rfl, rfl, rfl⟩, rfl⟩

theorem startBuffering_invalidated (book : LocalOrderBook) (connId : String) :
    (book.startBuffering connId).Invalidated :=
  ⟨Or.inr (Or.inl rfl), ⟨rfl, rfl, rfl, rfl⟩, rfl⟩

theorem SameContents.holds (hsa : SameContents update book post)
    (hu : delivered update) (hh : book.Holds delivered relation) :
    post.Holds delivered relation := by
  refine ⟨fun buffered hm => ?_, ?_⟩
  · rcases hsa.buffer_subset buffered hm with ho | rfl
    · exact hh.buffered buffered ho
    · exact hu
  · rw [hsa.state_eq, hsa.lastUpdateId_eq, hsa.bids_eq, hsa.asks_eq]
    rcases hh.contents with hhe | ⟨hs, hc⟩
    · exact Or.inl hhe
    · exact Or.inr ⟨hs, hsa.bids_eq.trans hc.bids_eq, hsa.asks_eq.trans hc.asks_eq,
        hsa.lastUpdateId_eq.trans hc.lastUpdateId_eq,
        hsa.lastReceivedAt_eq.trans hc.lastReceivedAt_eq⟩

theorem Advances.holds (ha : Advances update book post)
    (ht : Tracks delivered published relation) (hu : delivered update)
    (hh : book.Holds delivered relation) : post.Holds delivered relation := by
  refine ⟨fun buffered hm => hh.buffered buffered (ha.buffer_eq ▸ hm), ?_⟩
  rcases hh.contents with ⟨-, id, hid, hr⟩ | ⟨hs, -⟩
  · have hp : update.previousFinalUpdateId = id := by
      rw [ha.follows] at hid
      exact Option.some.inj hid
    subst hp
    refine Or.inl ⟨ha.state_eq, update.finalUpdateId, ha.lastUpdateId_eq, ?_⟩
    rw [ha.bids_eq, ha.asks_eq]
    exact ht.update _ _ update hu hr ha.valid
  · exact absurd ha.healthy hs.ne_healthy

theorem ingest_holds (ht : Tracks delivered published relation)
    (hu : delivered update) (hh : book.Holds delivered relation) :
    (book.ingest update).2.Holds delivered relation := by
  have hc := ingest_cases book update
  generalize book.ingest update = outcome at hc ⊢
  cases hc with
  | cleared hresult hinvalidated => exact hinvalidated.holds
  | kept hsame => exact hsame.holds hu hh
  | advanced hadvances => exact hadvances.holds ht hu hh

structure Syncing (relation : Levels → Levels → ℕ → Prop) (book : LocalOrderBook) : Prop where
  state_eq : book.state = .syncing
  buffer_eq : book.buffer = []
  related : ∃ id, book.lastUpdateId = some id ∧ relation book.bids book.asks id

theorem applied_syncing (hs : book.state = .syncing) (hb : book.buffer = [])
    (hr : relation (applyLevels book.bids update.bids) (applyLevels book.asks update.asks)
      update.finalUpdateId) : Syncing relation (book.applied update) := by
  refine ⟨?_, ?_, update.finalUpdateId, ?_, ?_⟩ <;> simp [applied, hs, hb, hr]

theorem applyAll_cases (ht : Tracks delivered published relation) {updates : List DepthUpdate}
    (hd : ∀ update ∈ updates, delivered update) (hs : Syncing relation book) :
    (∃ post : LocalOrderBook, book.applyAll updates = (false, post) ∧ post.Invalidated) ∨
    (∃ post : LocalOrderBook, book.applyAll updates = (true, post) ∧
      Syncing relation post) := by
  induction updates generalizing book with
  | nil => exact Or.inr ⟨book, rfl, hs⟩
  | cons update rest ih =>
    rcases applyContiguous_cases book update with
      ⟨post, ha, hi⟩ | ⟨hf, hv, ha⟩
    · exact Or.inl ⟨post, by rw [applyAll, ha], hi⟩
    · obtain ⟨id, hid, hr⟩ := hs.related
      have hp : update.previousFinalUpdateId = id := by
        rw [hf] at hid
        exact Option.some.inj hid
      subst hp
      have hn := ht.update _ _ update (hd update (by simp)) hr hv
      rw [applyAll, ha]
      exact ih (fun other ho => hd other (by simp [ho]))
        (applied_syncing hs.state_eq hs.buffer_eq hn)

theorem dropWhile_covers {boundary : ℕ} {cands rest : List DepthUpdate} {first : DepthUpdate}
    (hd : (cands.dropWhile fun ev => !covers boundary ev) = first :: rest) :
    covers boundary first = true ∧ ∀ ev ∈ first :: rest, ev ∈ cands := by
  constructor
  · have hn : (cands.dropWhile fun ev => !covers boundary ev) ≠ [] := by
      simp [hd]
    have hh := List.head_dropWhile_not (fun ev => !covers boundary ev) hn
    simpa [hd] using hh
  · intro ev he
    exact (List.dropWhile_sublist _).subset (hd ▸ he)

variable {snapshot : BookSnapshot}

theorem applied_sync_of_boundary (book : LocalOrderBook) (ht : Tracks delivered published relation)
    {rule : BoundaryRule} (hs : published snapshot)
    (hst : book.state = .syncing) (hb : book.buffer = [])
    (hbi : book.bids = levelsOf snapshot.bids) (ha : book.asks = levelsOf snapshot.asks)
    (hu : delivered update) (hc : covers (boundaryOf snapshot rule) update = true)
    (hle : snapshot.lastUpdateId ≤ update.finalUpdateId)
    (hv : sidesValid (applyLevels book.bids update.bids)
      (applyLevels book.asks update.asks) = true) : Syncing relation (book.applied update) := by
  refine applied_syncing hst hb ?_
  rw [hbi, ha] at hv ⊢
  exact ht.boundary snapshot rule update hs hu hc hle hv

/-- A HEALTHY book as `load_snapshot` leaves it. -/
structure Loaded (relation : Levels → Levels → ℕ → Prop) (book : LocalOrderBook) : Prop where
  state_eq : book.state = .healthy
  buffer_eq : book.buffer = []
  related : ∃ id, book.lastUpdateId = some id ∧ relation book.bids book.asks id

def BoundaryCovered (buffered : List DepthUpdate) (snapshot : BookSnapshot)
    (rule : BoundaryRule) : Prop :=
  ∃ event ∈ buffered, snapshot.lastUpdateId ≤ event.finalUpdateId ∧
    event.firstUpdateId ≤ boundaryOf snapshot rule ∧ boundaryOf snapshot rule ≤ event.finalUpdateId

theorem replayBuffer_cases (book : LocalOrderBook) (ht : Tracks delivered published relation)
    (rule : BoundaryRule) {buffered : List DepthUpdate} (hs : published snapshot)
    (hd : ∀ update ∈ buffered, delivered update) (hst : book.state = .syncing)
    (hb : book.buffer = []) (hbi : book.bids = levelsOf snapshot.bids)
    (has : book.asks = levelsOf snapshot.asks) :
    (book.replayBuffer buffered snapshot rule).Invalidated ∨
    (Loaded relation (book.replayBuffer buffered snapshot rule) ∧
      BoundaryCovered buffered snapshot rule) := by
  unfold replayBuffer
  dsimp only
  split_ifs with hca
  · exact Or.inl (invalidate_invalidated _ _ _)
  · split
    · exact Or.inl (invalidate_invalidated _ _ _)
    · rename_i first rest hdrop
      obtain ⟨hco, hm⟩ := dropWhile_covers hdrop
      have hc : ∀ ev ∈ first :: rest,
          ev ∈ buffered ∧ snapshot.lastUpdateId ≤ ev.finalUpdateId := fun ev he => by
        simpa using hm ev he
      obtain ⟨hf, hle⟩ := hc first (by simp)
      have hcov : BoundaryCovered buffered snapshot rule :=
        ⟨first, hf, hle, by simpa [covers] using hco⟩
      rcases applyContiguous_cases { book with lastUpdateId := some first.previousFinalUpdateId }
        first with ⟨post, ha, hi⟩ | ⟨-, hv, ha⟩
      · refine Or.inl ?_
        simpa [applyAll, ha] using hi
      · -- The boundary update relates the sides to its id, and the rest follow it.
        have hsy := applied_sync_of_boundary
          { book with lastUpdateId := some first.previousFinalUpdateId } ht hs
          hst hb hbi has (hd first hf) hco hle hv
        have hr : ∀ update ∈ rest, delivered update := fun update hu =>
          hd update (hc update (by simp [hu])).1
        rcases applyAll_cases ht hr hsy with
          ⟨post, hall, hi⟩ | ⟨post, hall, haf⟩
        · refine Or.inl ?_
          simpa [applyAll, ha, hall] using hi
        · refine Or.inr ⟨?_, hcov⟩
          simp only [applyAll, ha, hall]
          exact ⟨rfl, haf.buffer_eq, haf.related⟩

theorem loadSnapshot_cases (book : LocalOrderBook) (snapshot : BookSnapshot)
    (rule : BoundaryRule) (ht : Tracks delivered published relation) (hsn : published snapshot)
    (hd : ∀ update ∈ book.buffer, delivered update) :
    (book.state ≠ .buffering ∧ (book.loadSnapshot snapshot rule).2 = book) ∨
    (book.loadSnapshot snapshot rule).2.Invalidated ∨
    (book.state = .buffering ∧ Loaded relation (book.loadSnapshot snapshot rule).2 ∧
      snapshot.symbol = book.symbol ∧ some snapshot.connectionId = book.connectionId ∧
      BoundaryCovered book.buffer snapshot rule) := by
  unfold loadSnapshot
  dsimp only
  split_ifs with hs hi hv
  · exact Or.inl ⟨hs, rfl⟩
  · exact Or.inr (Or.inl (invalidate_invalidated _ _ _))
  · exact Or.inr (Or.inl (invalidate_invalidated _ _ _))
  · push Not at hi
    rcases replayBuffer_cases { book with
        state := .syncing
        bids := levelsOf snapshot.bids
        asks := levelsOf snapshot.asks
        lastUpdateId := some snapshot.lastUpdateId
        lastReceivedAt := some snapshot.receivedAt
        buffer := [] } ht rule hsn hd rfl rfl rfl rfl with
      hin | ⟨hl, hc⟩
    · exact Or.inr (Or.inl hin)
    · exact Or.inr (Or.inr ⟨not_not.1 hs, hl, hi.1, hi.2, hc⟩)

theorem loadSnapshot_holds (ht : Tracks delivered published relation) (rule : BoundaryRule)
    (hs : published snapshot) (hh : book.Holds delivered relation) :
    (book.loadSnapshot snapshot rule).2.Holds delivered relation := by
  rcases loadSnapshot_cases book snapshot rule ht hs hh.buffered with
    ⟨-, hsa⟩ | hinvalidated | ⟨-, hl, -⟩
  · rw [hsa]
    exact hh
  · exact hinvalidated.holds
  · exact ⟨by simp [hl.buffer_eq], Or.inl ⟨hl.state_eq, hl.related⟩⟩

theorem markStale_cases (book : LocalOrderBook) (now : Timestamp) : (book.markStale now).2 = book ∨
    ((book.markStale now).2.state = .stale ∧ (book.markStale now).2.Cleared ∧
      (book.markStale now).2.buffer = book.buffer) := by
  unfold markStale
  cases hr : book.lastReceivedAt with
  | none =>
    dsimp only
    split_ifs <;> exact Or.inl rfl
  | some lastReceivedAt =>
    dsimp only
    split_ifs with hu hf hh
    · exact Or.inl rfl
    · exact Or.inl rfl
    · exact Or.inr ⟨rfl, ⟨rfl, rfl, rfl, rfl⟩, rfl⟩
    · exact Or.inl rfl

theorem markStale_holds (now : Timestamp) (hh : book.Holds delivered relation) :
    (book.markStale now).2.Holds delivered relation := by
  rcases markStale_cases book now with hsa | ⟨hs, hc, hb⟩
  · rw [hsa]
    exact hh
  · refine ⟨hb ▸ hh.buffered, Or.inr ⟨?_, hc⟩⟩
    rw [hs]
    exact Or.inr (Or.inr (Or.inl rfl))

theorem step_holds (ht : Tracks delivered published relation) {call : BookCall}
    (hc : call.Brings delivered published) (hh : book.Holds delivered relation) :
    (book.step call).Holds delivered relation := by
  cases call with
  | startBuffering connId => exact (startBuffering_invalidated book connId).holds
  | rotate connId => exact (startBuffering_invalidated _ connId).holds
  | disconnect => exact Invalidated.holds ⟨Or.inl rfl, ⟨rfl, rfl, rfl, rfl⟩, rfl⟩
  | ingest update => exact ingest_holds ht hc hh
  | loadSnapshot snapshot rule => exact loadSnapshot_holds ht rule hc hh
  | markStale now => exact markStale_holds now hh

theorem run_holds (ht : Tracks delivered published relation) {calls : List BookCall}
    (hc : ∀ call ∈ calls, call.Brings delivered published)
    (hh : book.Holds delivered relation) : (book.run calls).Holds delivered relation := by
  induction calls generalizing book with
  | nil => exact hh
  | cons call rest ih =>
    have hf := step_holds ht (hc call (by simp)) hh
    exact ih (fun other ho => hc other (by simp [ho])) hf

theorem step_healthy {call : BookCall} (hb : book.state ≠ .healthy)
    (ha : (book.step call).state = .healthy) :
    ∃ snapshot rule, call = .loadSnapshot snapshot rule ∧ book.state = .buffering ∧
      snapshot.symbol = book.symbol ∧ some snapshot.connectionId = book.connectionId ∧
      BoundaryCovered book.buffer snapshot rule := by
  cases call with
  | startBuffering connId =>
    exact absurd ha (startBuffering_invalidated book connId).settled.ne_healthy
  | rotate connId =>
    exact absurd ha (startBuffering_invalidated _ connId).settled.ne_healthy
  | disconnect => cases ha
  | ingest update =>
    have hca := ingest_cases book update
    simp only [step] at ha
    generalize book.ingest update = outcome at hca ha
    cases hca with
    | cleared hresult hinvalidated => exact absurd ha hinvalidated.settled.ne_healthy
    | kept hsa => exact absurd (hsa.state_eq ▸ ha) hb
    | advanced hadvances => exact absurd hadvances.healthy hb
  | loadSnapshot snapshot rule =>
    have ht : Tracks (fun _ => True) (fun _ => True) (fun _ _ _ => True) :=
      ⟨fun _ _ _ _ _ _ _ _ => trivial, fun _ _ _ _ _ _ => trivial⟩
    rcases loadSnapshot_cases book snapshot rule ht trivial (fun _ _ => trivial) with
      ⟨-, hsa⟩ | hinvalidated | ⟨hbu, -, hs, hc, hco⟩
    · simp only [step, hsa] at ha
      exact absurd ha hb
    · exact absurd ha hinvalidated.settled.ne_healthy
    · exact ⟨snapshot, rule, rfl, hbu, hs, hc, hco⟩
  | markStale now =>
    rcases markStale_cases book now with hsa | ⟨hst, -⟩
    · exact absurd (hsa ▸ ha) hb
    · simp [step, hst] at ha

end LocalOrderBook

def PositiveQuantities (levels : Levels) : Prop :=
  ∀ price quantity, levels.lookup price = some quantity → 0 < quantity

theorem applyLevel_positive {levels : Levels} (hp : PositiveQuantities levels)
    (level : DepthLevel) : PositiveQuantities (applyLevel levels level) := by
  intro price qty hl
  by_cases hpr : price = level.price
  · subst hpr
    by_cases hz : level.quantity = 0
    · simp [applyLevel, hz] at hl
    · have hq : level.quantity = qty := by simpa [applyLevel, hz] using hl
      exact hq ▸ lt_of_le_of_ne level.quantity_nonneg (Ne.symm hz)
  · have ho : levels.lookup price = some qty := by
      by_cases hz : level.quantity = 0 <;> simpa [applyLevel, hz, hpr] using hl
    exact hp price qty ho

theorem applyLevels_positive {levels : Levels} (hp : PositiveQuantities levels)
    (changes : List DepthLevel) : PositiveQuantities (applyLevels levels changes) := by
  induction changes generalizing levels with
  | nil => exact hp
  | cons level rest ih => exact ih (applyLevel_positive hp level)

theorem levelsOf_positive (levels : List DepthLevel) : PositiveQuantities (levelsOf levels) :=
  applyLevels_positive (by simp [PositiveQuantities]) levels

structure Quotes (bids asks : Levels) : Prop where
  bids_nonempty : bids.keys.Nonempty
  asks_nonempty : asks.keys.Nonempty
  uncrossed : bids.keys.max' bids_nonempty < asks.keys.min' asks_nonempty
  bids_positive : PositiveQuantities bids
  asks_positive : PositiveQuantities asks

theorem Quotes.of_sidesValid {bids asks : Levels} (hv : sidesValid bids asks = true)
    (hb : PositiveQuantities bids) (ha : PositiveQuantities asks) : Quotes bids asks := by
  unfold sidesValid at hv
  split_ifs at hv with hs
  exact ⟨hs.1, hs.2, of_decide_eq_true hv, hb, ha⟩

theorem quotes_tracks :
    Tracks (fun _ => True) (fun _ => True) fun bids asks _ => Quotes bids asks where
  boundary _ _ _ _ _ _ _ hvalid :=
    .of_sidesValid hvalid (applyLevels_positive (levelsOf_positive _) _)
      (applyLevels_positive (levelsOf_positive _) _)
  update _ _ _ _ hquotes hvalid :=
    .of_sidesValid hvalid (applyLevels_positive hquotes.bids_positive _)
      (applyLevels_positive hquotes.asks_positive _)

namespace LocalOrderBook

variable {book : LocalOrderBook} {update : DepthUpdate}

theorem run_quotes (sym : String) (bufferLimit : ℕ+) (stale : ℤ) (calls : List BookCall) :
    ((new sym bufferLimit stale).run calls).Holds (fun _ => True)
      fun bids asks _ => Quotes bids asks := by
  refine run_holds quotes_tracks (fun call _ => ?_) (new_holds sym bufferLimit stale)
  cases call <;> trivial

theorem ingest_rejected (hr : (book.ingest update).1 ≠ .ok true) :
    SameContents update book (book.ingest update).2 ∨
      ((book.ingest update).2.state.IsSettled ∧ (book.ingest update).2.Cleared) := by
  have hc := ingest_cases book update
  generalize book.ingest update = outcome at hc hr ⊢
  cases hc with
  | cleared hresult hi => exact Or.inr ⟨hi.settled, hi.cleared⟩
  | kept hsame => exact Or.inl hsame
  | advanced hadvances => exact absurd rfl hr

theorem top_of_not_healthy (hs : book.state ≠ .healthy) (depth : ℤ) :
    book.top depth = .error .bookNotValid := by
  simp [top, valid, hs]

theorem bookHash_of_not_healthy (hs : book.state ≠ .healthy)
    (digest : BookDocument → String) : book.bookHash digest = .error .bookNotValid := by
  simp [bookHash, valid, hs]

/-- The representation of a book between two calls, and what the next call can make of
it. -/
structure Representation (book : LocalOrderBook) : Prop where
  healthy : book.state = .healthy →
    Quotes book.bids book.asks ∧ ∃ id, book.lastUpdateId = some id
  other : book.state ≠ .healthy → book.state.IsSettled ∧ book.Cleared
  entered : ∀ call, book.state ≠ .healthy → (book.step call).state = .healthy →
    ∃ snapshot rule, call = .loadSnapshot snapshot rule ∧ book.state = .buffering ∧
      snapshot.symbol = book.symbol ∧ some snapshot.connectionId = book.connectionId ∧
      BoundaryCovered book.buffer snapshot rule
  hidden : book.state ≠ .healthy → (∀ depth, book.top depth = .error .bookNotValid) ∧
    ∀ digest, book.bookHash digest = .error .bookNotValid
  rejected : ∀ update, book.state = .healthy → (book.ingest update).1 ≠ .ok true →
    SameContents update book (book.ingest update).2 ∨
      ((book.ingest update).2.state.IsSettled ∧ (book.ingest update).2.Cleared)

/-- Every sequence of calls, with whatever snapshots and updates, keeps the
representation. -/
theorem run_representation (sym : String) (bufferLimit : ℕ+) (stale : ℤ)
    (calls : List BookCall) : ((new sym bufferLimit stale).run calls).Representation := by
  have hho := run_quotes sym bufferLimit stale calls
  refine ⟨fun hh => ?_, fun ho => ?_, fun call ho ha => ?_, fun ho => ?_,
    fun update _ hr => ingest_rejected hr⟩
  · rcases hho.contents with ⟨-, id, hid, hq⟩ | ⟨hs, -⟩
    · exact ⟨hq, id, hid⟩
    · exact absurd hh hs.ne_healthy
  · rcases hho.contents with ⟨hh, -⟩ | hc
    · exact absurd hh ho
    · exact hc
  · exact step_healthy ho ha
  · exact ⟨top_of_not_healthy ho, fun digest => bookHash_of_not_healthy ho digest⟩

end LocalOrderBook

end AiQuant.OrderBook
