import AiQuant.OrderBook.Health
import Mathlib.Data.List.Sort
import Mathlib.Data.Prod.Lex
import Mathlib.Data.String.Basic

/-! `replay_depth_archive` (`archive/replay.py`) against the book that received the same updates
live.  The live book applies them one by one after its snapshot; a replay sorts and buffers the
whole history before the snapshot is loaded. -/
namespace AiQuant.OrderBook
open AiQuant.Lib

def DepthUpdate.replayKey (update : DepthUpdate) : ℤ ×ₗ String ×ₗ ℕ ×ₗ ℕ ×ₗ String :=
  toLex (update.receivedAt, toLex (update.connectionId,
    toLex (update.firstUpdateId, toLex (update.finalUpdateId, update.rawHash))))

def replayOrder (events : List DepthUpdate) : List DepthUpdate :=
  events.insertionSort fun left right => left.replayKey ≤ right.replayKey

def defaultBufferLimit : ℕ+ := 50000

def defaultStaleAfter : ℤ := 3 * 1000000

namespace LocalOrderBook

/-- `for event in events: book.ingest(event)`; the first error ends the loop. -/
def ingestAll (book : LocalOrderBook) : List DepthUpdate → Except BookError LocalOrderBook
  | [] => .ok book
  | update :: rest => match book.ingest update with
    | (.error error, _) => .error error
    | (.ok _, after) => ingestAll after rest

end LocalOrderBook

/-- The rows of each archived object are taken as the updates written to it. -/
def replayDepthArchive (snapshot : BookSnapshot) (archives : List (List DepthUpdate))
    (boundaryRule : BoundaryRule) : Except BookError LocalOrderBook := do
  let book := (LocalOrderBook.new snapshot.symbol defaultBufferLimit
    defaultStaleAfter).startBuffering snapshot.connectionId
  let book ← book.ingestAll (replayOrder archives.flatten)
  match book.loadSnapshot snapshot boundaryRule with
  | (.error error, _) => .error error
  | (.ok _, loaded) => .ok loaded

/-- The updates of a connection in the order of their arrival, those before the snapshot was
loaded and those after. -/
structure DepthHistory where
  early : List DepthUpdate
  late : List DepthUpdate
  received : (early ++ late).Pairwise fun earlier later => earlier.receivedAt ≤ later.receivedAt
  first_le : (early ++ late).Pairwise fun earlier later =>
    earlier.firstUpdateId ≤ later.firstUpdateId
  final_lt : (early ++ late).Pairwise fun earlier later =>
    earlier.finalUpdateId < later.finalUpdateId

def DepthHistory.updates (history : DepthHistory) : List DepthUpdate :=
  history.early ++ history.late

def DepthHistory.calls (history : DepthHistory) (connectionId : String)
    (snapshot : BookSnapshot) (boundaryRule : BoundaryRule) : List BookCall :=
  .startBuffering connectionId :: history.early.map .ingest ++
    .loadSnapshot snapshot boundaryRule :: history.late.map .ingest

/-- Two HEALTHY books with the same contents. -/
structure LocalOrderBook.Reproduces (replayed live : LocalOrderBook) : Prop where
  healthy : replayed.state = .healthy
  bids_eq : replayed.bids = live.bids
  asks_eq : replayed.asks = live.asks
  lastUpdateId_eq : replayed.lastUpdateId = live.lastUpdateId
  bookHash_eq : ∀ digest, replayed.bookHash digest = live.bookHash digest

namespace LocalOrderBook

variable {book other after : LocalOrderBook} {update : DepthUpdate}
  {updates done rest : List DepthUpdate}

@[simp] theorem run_cons (book : LocalOrderBook) (call : BookCall) (calls : List BookCall) :
    book.run (call :: calls) = (book.step call).run calls :=
  rfl

theorem run_append (book : LocalOrderBook) (calls others : List BookCall) :
    book.run (calls ++ others) = (book.run calls).run others :=
  List.foldl_append

def Owns (book : LocalOrderBook) (update : DepthUpdate) : Prop :=
  update.symbol = book.symbol ∧ some update.connectionId = book.connectionId

/-- `after` belongs to the stream of `book` and remembers the same keys. -/
structure SameStream (book after : LocalOrderBook) : Prop where
  symbol_eq : after.symbol = book.symbol
  connectionId_eq : after.connectionId = book.connectionId
  bufferLimit_eq : after.bufferLimit = book.bufferLimit
  seenOrder_eq : after.seenOrder = book.seenOrder

theorem SameStream.refl (book : LocalOrderBook) : SameStream book book :=
  ⟨rfl, rfl, rfl, rfl⟩

theorem SameStream.trans (hf : SameStream book other) (hs : SameStream other after) :
    SameStream book after where
  symbol_eq := hs.symbol_eq.trans hf.symbol_eq
  connectionId_eq := hs.connectionId_eq.trans hf.connectionId_eq
  bufferLimit_eq := hs.bufferLimit_eq.trans hf.bufferLimit_eq
  seenOrder_eq := hs.seenOrder_eq.trans hf.seenOrder_eq

theorem SameStream.owns_iff (hs : SameStream book after) :
    after.Owns update ↔ book.Owns update := by
  rw [Owns, Owns, hs.symbol_eq, hs.connectionId_eq]

theorem applyContiguous_same (book : LocalOrderBook) (update : DepthUpdate) :
    SameStream book (book.applyContiguous update).2 := by
  unfold applyContiguous
  split
  · exact ⟨rfl, rfl, rfl, rfl⟩
  · split_ifs
    · exact ⟨rfl, rfl, rfl, rfl⟩
    · exact ⟨rfl, rfl, rfl, rfl⟩
    · exact ⟨rfl, rfl, rfl, rfl⟩
    · unfold applied
      split_ifs <;> exact ⟨rfl, rfl, rfl, rfl⟩

theorem applyAll_same (book : LocalOrderBook) (updates : List DepthUpdate) :
    SameStream book (book.applyAll updates).2 := by
  induction updates generalizing book with
  | nil => exact .refl book
  | cons update rest ih =>
    have hf := applyContiguous_same book update
    unfold applyAll
    rcases ha : book.applyContiguous update with ⟨_ | _, after⟩
    · rwa [ha] at hf
    · rw [ha] at hf
      exact hf.trans (ih after)

theorem loadSnapshot_same (book : LocalOrderBook) (snap : BookSnapshot) (rule : BoundaryRule) :
    SameStream book (book.loadSnapshot snap rule).2 := by
  unfold loadSnapshot
  dsimp only
  split_ifs
  · exact .refl book
  · exact ⟨rfl, rfl, rfl, rfl⟩
  · exact ⟨rfl, rfl, rfl, rfl⟩
  · unfold replayBuffer
    dsimp only
    split_ifs
    · exact ⟨rfl, rfl, rfl, rfl⟩
    · split
      · exact ⟨rfl, rfl, rfl, rfl⟩
      · -- the loop's result, whichever way it ended
        rename_i first tail _
        split <;> rename_i result hall
        all_goals
          have hl := applyAll_same { book with
            state := .syncing
            bids := levelsOf snap.bids
            asks := levelsOf snap.asks
            lastUpdateId := some first.previousFinalUpdateId
            lastReceivedAt := some snap.receivedAt
            buffer := [] } (first :: tail)
          rw [hall] at hl
          exact ⟨hl.1, hl.2, hl.3, hl.4⟩

theorem run_ingest_not_healthy (hs : book.state ≠ .healthy) (updates : List DepthUpdate) :
    (book.run (updates.map .ingest)).state ≠ .healthy := by
  induction updates generalizing book with
  | nil => exact hs
  | cons update rest ih =>
    refine ih fun hh => ?_
    obtain ⟨snap, rule, hc, -⟩ := step_healthy hs hh
    cases hc

def Remembers (book : LocalOrderBook) (updates : List DepthUpdate) : Prop :=
  ∀ key ∈ book.seenOrder, ∃ update ∈ updates, eventKey update = key

def Rising (updates : List DepthUpdate) : Prop :=
  updates.Pairwise fun earlier later => earlier.finalUpdateId < later.finalUpdateId

theorem Remembers.remember (hr : book.Remembers done) (update : DepthUpdate) :
    (book.remember (eventKey update)).Remembers (done ++ [update]) := by
  intro key hkey
  simp only [LocalOrderBook.remember, List.mem_append, List.mem_singleton] at hkey
  rcases hkey with hk | rfl
  · have ho : key ∈ book.seenOrder := by
      split_ifs at hk
      · exact List.mem_of_mem_drop hk
      · exact hk
    obtain ⟨earlier, he, heq⟩ := hr key ho
    exact ⟨earlier, List.mem_append_left _ he, heq⟩
  · exact ⟨update, by simp, rfl⟩

theorem Remembers.same (hr : book.Remembers done) (hs : SameStream book after) :
    after.Remembers done := by
  rwa [Remembers, hs.seenOrder_eq]

theorem Remembers.fresh (hr : book.Remembers done)
    (hri : Rising (done ++ update :: rest)) : eventKey update ∉ book.seenOrder := by
  intro hs
  obtain ⟨earlier, he, heq⟩ := hr _ hs
  have hb := (List.pairwise_append.mp hri).2.2 earlier he update (by simp)
  have hi : earlier.finalUpdateId = update.finalUpdateId := congrArg EventKey.finalUpdateId heq
  omega

theorem Rising.shift (hr : Rising (done ++ update :: rest)) :
    Rising ((done ++ [update]) ++ rest) := by
  simpa using hr

theorem ingest_own (ho : book.Owns update) (hf : eventKey update ∉ book.seenOrder) :
    book.ingest update = (book.remember (eventKey update)).ingestFresh update := by
  unfold ingest
  rw [if_neg (by simp [ho.1, ho.2]), if_neg hf]

structure Buffers (book : LocalOrderBook) (updates : List DepthUpdate) : Prop where
  state_eq : book.state = .buffering
  buffer_eq : book.buffer = updates
  fits : updates.length ≤ book.bufferLimit
  remembers : book.Remembers updates

theorem Buffers.ingest (hb : book.Buffers done) (ho : book.Owns update)
    (hf : eventKey update ∉ book.seenOrder) (hr : done.length < book.bufferLimit) :
    (book.ingest update).2.Buffers (done ++ [update]) ∧
      (book.ingest update).2.symbol = book.symbol ∧
      (book.ingest update).2.connectionId = book.connectionId ∧
      (book.ingest update).2.bufferLimit = book.bufferLimit := by
  have hs : (book.remember (eventKey update)).state = .buffering := hb.state_eq
  have hl : (book.remember (eventKey update)).buffer.length ≠
      (book.remember (eventKey update)).bufferLimit := by
    change book.buffer.length ≠ book.bufferLimit
    rw [hb.buffer_eq]
    exact hr.ne
  rw [ingest_own ho hf, ingestFresh, if_pos (by simp [hs]), if_neg hl]
  refine ⟨⟨hs, ?_, ?_, ?_⟩, rfl, rfl, rfl⟩
  · exact congrArg (· ++ [update]) hb.buffer_eq
  · rw [List.length_append]
    exact hr
  · exact hb.remembers.remember update

theorem Buffers.ingest_lost (hb : book.Buffers done) (hfr : eventKey update ∉ book.seenOrder)
    (hlo : ¬ (book.Owns update ∧ done.length < book.bufferLimit)) :
    (book.ingest update).2.state ≠ .buffering := by
  by_cases ho : book.Owns update
  · have hfu : done.length = book.bufferLimit :=
      le_antisymm hb.fits (not_lt.mp fun hr => hlo ⟨ho, hr⟩)
    have hs : (book.remember (eventKey update)).state = .buffering := hb.state_eq
    have hl : (book.remember (eventKey update)).buffer.length =
        (book.remember (eventKey update)).bufferLimit := by
      change book.buffer.length = book.bufferLimit
      rw [hb.buffer_eq, hfu]
    rw [ingest_own ho hfr, ingestFresh, if_pos (by simp [hs]), if_pos hl]
    simp [invalidate, clearBook]
  · have hf : update.symbol ≠ book.symbol ∨ some update.connectionId ≠ book.connectionId := by
      rwa [← not_and_or]
    rw [LocalOrderBook.ingest, if_pos hf]
    simp [invalidate, clearBook]

theorem run_ingest_not_buffering (hs : book.state ≠ .buffering) (updates : List DepthUpdate) :
    (book.run (updates.map .ingest)).state ≠ .buffering := by
  induction updates generalizing book with
  | nil => exact hs
  | cons update rest ih =>
    refine ih fun ha => hs ?_
    have hi := ingest_state book update
    rw [show (book.ingest update).2.state = .buffering from ha] at hi
    simpa [eq_comm] using hi

def Fit (book : LocalOrderBook) (done updates : List DepthUpdate) : Prop :=
  (∀ update ∈ updates, book.Owns update) ∧ (done ++ updates).length ≤ book.bufferLimit

theorem Buffers.run (hb : book.Buffers done) (hr : Rising (done ++ updates)) :
    book.Fit done updates ∧ (book.run (updates.map .ingest)).Buffers (done ++ updates) ∨
      ¬ book.Fit done updates ∧ (book.run (updates.map .ingest)).state ≠ .buffering := by
  induction updates generalizing book done with
  | nil =>
    rw [List.append_nil]
    exact Or.inl ⟨⟨by simp, by simpa using hb.fits⟩, hb⟩
  | cons update rest ih =>
    have hf := hb.remembers.fresh hr
    by_cases hk : book.Owns update ∧ done.length < book.bufferLimit
    · obtain ⟨ha, hs, hc, hli⟩ :=
        hb.ingest hk.1 hf hk.2
      have hfit : (book.ingest update).2.Fit (done ++ [update]) rest ↔
          book.Fit done (update :: rest) := by
        simp [Fit, Owns, hs, hc, hli, hk.1.1, hk.1.2]
      have hre := ih ha hr.shift
      rw [hfit, List.append_assoc] at hre
      exact hre
    · refine Or.inr ⟨fun hfit => hk ⟨hfit.1 update (by simp), ?_⟩, ?_⟩
      · have hl := hfit.2
        simp only [List.length_append, List.length_cons] at hl
        omega
      · exact run_ingest_not_buffering (hb.ingest_lost hf hk) rest

theorem ingest_owned (book : LocalOrderBook) (ho : book.Owns update) :
    (∃ applied, (book.ingest update).1 = .ok applied) ∧
      (book.ingest update).2.symbol = book.symbol ∧
      (book.ingest update).2.connectionId = book.connectionId := by
  unfold ingest
  rw [if_neg (by simp [ho.1, ho.2])]
  split_ifs
  · exact ⟨⟨false, rfl⟩, rfl, rfl⟩
  · unfold ingestFresh
    split_ifs
    · exact ⟨⟨false, rfl⟩, rfl, rfl⟩
    · exact ⟨⟨false, rfl⟩, rfl, rfl⟩
    · exact ⟨⟨false, rfl⟩, rfl, rfl⟩
    · have hs := applyContiguous_same (book.remember (eventKey update)) update
      exact ⟨⟨_, rfl⟩, hs.symbol_eq, hs.connectionId_eq⟩

theorem run_ingest_identity (how : ∀ update ∈ updates, book.Owns update) :
    (book.run (updates.map .ingest)).symbol = book.symbol ∧
      (book.run (updates.map .ingest)).connectionId = book.connectionId := by
  induction updates generalizing book with
  | nil => exact ⟨rfl, rfl⟩
  | cons update rest ih =>
    obtain ⟨-, hs, hc⟩ := ingest_owned book (how update (by simp))
    have hr : ∀ other ∈ rest, (book.ingest update).2.Owns other := by
      intro other ho
      rw [Owns, hs, hc]
      exact how other (List.mem_cons_of_mem _ ho)
    obtain ⟨hla, hl⟩ := ih hr
    exact ⟨hla.trans hs, hl.trans hc⟩

theorem step_symbol (book : LocalOrderBook) (call : BookCall) :
    (book.step call).symbol = book.symbol := by
  cases call with
  | startBuffering connId => rfl
  | rotate connId => rfl
  | disconnect => rfl
  | ingest update =>
    by_cases ho : book.Owns update
    · exact (ingest_owned book ho).2.1
    · rw [Owns, not_and_or] at ho
      rw [step, ingest, if_pos ho]
      rfl
  | loadSnapshot snap rule => exact (loadSnapshot_same book snap rule).symbol_eq
  | markStale now =>
    change (book.markStale now).2.symbol = book.symbol
    unfold markStale
    cases book.lastReceivedAt with
    | none =>
      dsimp only
      split_ifs <;> rfl
    | some lastReceivedAt =>
      dsimp only
      split_ifs <;> rfl

theorem run_symbol (book : LocalOrderBook) (calls : List BookCall) :
    (book.run calls).symbol = book.symbol := by
  induction calls generalizing book with
  | nil => rfl
  | cons call rest ih => exact (ih (book.step call)).trans (step_symbol book call)

theorem ingestAll_owned (how : ∀ update ∈ updates, book.Owns update) :
    book.ingestAll updates = .ok (book.run (updates.map .ingest)) := by
  induction updates generalizing book with
  | nil => rfl
  | cons update rest ih =>
    obtain ⟨⟨applied, ha⟩, hs, hc⟩ :=
      ingest_owned book (how update (by simp))
    rcases hi : book.ingest update with ⟨result, after⟩
    rw [hi] at ha hs hc
    subst ha
    have hr : ∀ other ∈ rest, after.Owns other := by
      intro other ho
      rw [Owns, hs, hc]
      exact how other (List.mem_cons_of_mem _ ho)
    rw [ingestAll, hi, List.map_cons, run_cons, step, hi]
    exact ih hr

structure Contents where
  bids : Levels
  asks : Levels
  lastUpdateId : Option ℕ

def contents (book : LocalOrderBook) : Contents :=
  ⟨book.bids, book.asks, book.lastUpdateId⟩

def Contents.apply (held : Contents) (update : DepthUpdate) : Option Contents :=
  if held.lastUpdateId = some update.previousFinalUpdateId ∧
      sidesValid (applyLevels held.bids update.bids) (applyLevels held.asks update.asks) then
    some ⟨applyLevels held.bids update.bids, applyLevels held.asks update.asks,
      some update.finalUpdateId⟩
  else none

def Contents.applyAll (held : Contents) (updates : List DepthUpdate) : Option Contents :=
  updates.foldlM apply held

theorem Contents.applyAll_append (held : Contents) (updates others : List DepthUpdate) :
    held.applyAll (updates ++ others) =
      (held.applyAll updates).bind fun next => next.applyAll others :=
  List.foldlM_append

theorem contents_applied (book : LocalOrderBook) (update : DepthUpdate) :
    (book.applied update).contents = ⟨applyLevels book.bids update.bids,
      applyLevels book.asks update.asks, some update.finalUpdateId⟩ := by
  unfold applied
  dsimp only
  split_ifs <;> rfl

theorem applyContiguous_contents (book : LocalOrderBook) (update : DepthUpdate) :
    (∃ next, book.contents.apply update = some next ∧
      book.applyContiguous update = (true, book.applied update) ∧
      (book.applied update).contents = next) ∨
    book.contents.apply update = none ∧ (book.applyContiguous update).1 = false := by
  rcases applyContiguous_cases book update with ⟨after, ha, -⟩ | ⟨hf, hv, ha⟩
  · refine Or.inr ⟨?_, by rw [ha]⟩
    unfold Contents.apply
    refine if_neg fun hn => ?_
    obtain ⟨hf, hv⟩ := hn
    have hf : book.lastUpdateId = some update.previousFinalUpdateId := hf
    have hv : sidesValid (applyLevels book.bids update.bids)
      (applyLevels book.asks update.asks) = true := hv
    simp [applyContiguous, hf, hv] at ha
  · refine Or.inl ⟨_, if_pos ⟨hf, hv⟩, ha, contents_applied book update⟩

theorem applyAll_contents (book : LocalOrderBook) (updates : List DepthUpdate) :
    (∃ next, book.contents.applyAll updates = some next ∧
      (book.applyAll updates).1 = true ∧ (book.applyAll updates).2.contents = next) ∨
    book.contents.applyAll updates = none ∧ (book.applyAll updates).1 = false := by
  induction updates generalizing book with
  | nil => exact Or.inl ⟨book.contents, rfl, rfl, rfl⟩
  | cons update rest ih =>
    have hu : book.contents.applyAll (update :: rest) =
        (book.contents.apply update).bind fun next => next.applyAll rest := List.foldlM_cons
    rw [hu]
    rcases applyContiguous_contents book update with
      ⟨next, hn, ha, hc⟩ | ⟨hno, hr⟩
    · rw [hn, Option.bind_some, ← hc, applyAll, ha]
      exact ih (book.applied update)
    · rw [hno, Option.bind_none]
      rcases ha : book.applyContiguous update with ⟨accepted, after⟩
      rw [ha] at hr
      subst hr
      refine Or.inr ⟨rfl, ?_⟩
      rw [applyAll, ha]

def Contents.ofSnapshot (snapshot : BookSnapshot) (first : DepthUpdate) : Contents :=
  ⟨levelsOf snapshot.bids, levelsOf snapshot.asks, some first.previousFinalUpdateId⟩

/-- What `load_snapshot` makes of the buffered updates. -/
def loadedContents (buffered : List DepthUpdate) (snapshot : BookSnapshot)
    (rule : BoundaryRule) : Option Contents :=
  if sidesValid (levelsOf snapshot.bids) (levelsOf snapshot.asks) then
    match fromBoundary buffered snapshot rule with
    | [] => none
    | first :: rest => (Contents.ofSnapshot snapshot first).applyAll (first :: rest)
  else none

variable {snap : BookSnapshot} {rule : BoundaryRule}

theorem replayBuffer_contents (synced : LocalOrderBook) {buffered : List DepthUpdate}
    (hbi : synced.bids = levelsOf snap.bids) (has : synced.asks = levelsOf snap.asks)
    (hv : sidesValid (levelsOf snap.bids) (levelsOf snap.asks) = true) :
    (∃ next, loadedContents buffered snap rule = some next ∧
      (synced.replayBuffer buffered snap rule).state = .healthy ∧
      (synced.replayBuffer buffered snap rule).contents = next) ∨
    loadedContents buffered snap rule = none ∧
      (synced.replayBuffer buffered snap rule).state ≠ .healthy := by
  unfold replayBuffer loadedContents
  rw [if_pos hv]
  dsimp only
  split_ifs with hca
  · refine Or.inr ⟨?_, by simp [invalidate, clearBook]⟩
    simp [fromBoundary, hca]
  · rw [← fromBoundary]
    cases hd : fromBoundary buffered snap rule with
    | nil => exact Or.inr ⟨rfl, by simp [invalidate, clearBook]⟩
    | cons first rest =>
      dsimp only
      have hb : contents { synced with lastUpdateId := some first.previousFinalUpdateId } =
          Contents.ofSnapshot snap first := by
        simp only [contents, Contents.ofSnapshot, hbi, has]
      rw [← hb]
      rcases applyAll_contents { synced with lastUpdateId := some first.previousFinalUpdateId }
        (first :: rest) with ⟨next, hn, ha, hc⟩ | ⟨hno, hr⟩
      · refine Or.inl ⟨next, hn, ?_⟩
        split
        · simp_all
        · rename_i hall
          rw [hall] at hc
          exact ⟨rfl, hc⟩
      · refine Or.inr ⟨hno, ?_⟩
        have hs := applyAll_refused hr
        split
        · rename_i hall
          rw [hall] at hs
          intro hh
          simp [hh] at hs
        · simp_all

theorem loadSnapshot_contents (hb : book.state = .buffering) (hs : snap.symbol = book.symbol)
    (hc : some snap.connectionId = book.connectionId) : (book.loadSnapshot snap rule).1 = .ok () ∧
    ((∃ next, loadedContents book.buffer snap rule = some next ∧
      (book.loadSnapshot snap rule).2.state = .healthy ∧
      (book.loadSnapshot snap rule).2.contents = next) ∨
    loadedContents book.buffer snap rule = none ∧
      (book.loadSnapshot snap rule).2.state ≠ .healthy) := by
  unfold loadSnapshot
  rw [if_neg (not_not.mpr hb), if_neg (by simp [hs, hc])]
  dsimp only
  split_ifs with hv
  · refine ⟨rfl, Or.inr ⟨?_, by simp [invalidate, clearBook]⟩⟩
    unfold loadedContents
    exact if_neg (by simpa using hv)
  · exact ⟨rfl, replayBuffer_contents _ rfl rfl (by simpa using hv)⟩

theorem fromBoundary_append {early late : List DepthUpdate} (hr : Rising (early ++ late))
    (hc : fromBoundary early snap rule ≠ []) :
    fromBoundary (early ++ late) snap rule = fromBoundary early snap rule ++ late := by
  have hca : ∃ ev ∈ early, snap.lastUpdateId ≤ ev.finalUpdateId := by
    obtain ⟨ev, he⟩ := List.exists_mem_of_ne_nil _ hc
    have hf := (List.dropWhile_sublist _).subset he
    exact ⟨ev, by simpa using hf⟩
  obtain ⟨ev, he, hle⟩ := hca
  have hl : (late.filter fun update => snap.lastUpdateId ≤ update.finalUpdateId) = late := by
    refine List.filter_eq_self.mpr fun update hu => decide_eq_true ?_
    exact hle.trans ((List.pairwise_append.mp hr).2.2 ev he update hu).le
  unfold fromBoundary at hc ⊢
  rw [List.filter_append, hl, List.dropWhile_append, if_neg (by simpa using hc)]

theorem loadedContents_append {early late : List DepthUpdate} {loaded next : Contents}
    (hr : Rising (early ++ late)) (hl : loadedContents early snap rule = some loaded)
    (hn : loaded.applyAll late = some next) :
    loadedContents (early ++ late) snap rule = some next := by
  unfold loadedContents at hl ⊢
  split_ifs at hl with hv
  rw [if_pos hv]
  cases hb : fromBoundary early snap rule with
  | nil => simp [hb] at hl
  | cons first rest =>
    rw [hb] at hl
    change (Contents.ofSnapshot snap first).applyAll (first :: rest) = some loaded at hl
    rw [fromBoundary_append hr (by simp [hb]), hb]
    change (Contents.ofSnapshot snap first).applyAll ((first :: rest) ++ late) = some next
    rw [Contents.applyAll_append, hl, Option.bind_some, hn]

theorem ingest_healthy (hh : book.state = .healthy) (ho : book.Owns update)
    (hf : eventKey update ∉ book.seenOrder) : (book.ingest update).2 =
      ((book.remember (eventKey update)).applyContiguous update).2 := by
  have hs : (book.remember (eventKey update)).state = .healthy := hh
  rw [ingest_own ho hf]
  simp [ingestFresh, hs]

theorem run_ingest_contents (hr : book.Remembers done) (hh : book.state = .healthy)
    (hri : Rising (done ++ updates)) (haf : (book.run (updates.map .ingest)).state = .healthy) :
    (∀ update ∈ updates, book.Owns update) ∧
      book.contents.applyAll updates = some (book.run (updates.map .ingest)).contents := by
  induction updates generalizing book done with
  | nil => exact ⟨by simp, rfl⟩
  | cons update rest ih =>
    have hfr := hr.fresh hri
    have hn : (book.ingest update).2.state = .healthy :=
      not_not.mp fun ho => run_ingest_not_healthy ho rest haf
    have how : book.Owns update := by
      by_contra hforeign
      rw [Owns, not_and_or] at hforeign
      rw [ingest, if_pos hforeign] at hn
      cases hn
    have hi := ingest_healthy hh how hfr
    have hs := applyContiguous_same (book.remember (eventKey update)) update
    rcases applyContiguous_contents (book.remember (eventKey update)) update with
      ⟨next, ha, hf, hc⟩ | ⟨-, hre⟩
    · rw [hf] at hi hs
      have hrest := ih ((hr.remember update).same (hi ▸ hs)) hn hri.shift haf
      constructor
      · intro other ho
        rcases List.mem_cons.mp ho with rfl | ht
        · exact how
        · have hl := hrest.1 other ht
          rwa [hi, hs.owns_iff] at hl
      · have hl := hrest.2
        rw [hi, hc] at hl
        change book.contents.apply update = some next at ha
        rw [List.map_cons, run_cons, Contents.applyAll, List.foldlM_cons, ha]
        change next.applyAll rest = _
        rw [step, hi]
        exact hl
    · have hlo := applyContiguous_refused hre
      rw [← hi, hn] at hlo
      simp at hlo

theorem run_ingest_healthy (hr : book.Remembers done) (hh : book.state = .healthy)
    (hri : Rising (done ++ updates)) (ho : ∀ update ∈ updates, book.Owns update)
    (ht : (book.contents.applyAll updates).isSome) :
    (book.run (updates.map .ingest)).state = .healthy := by
  induction updates generalizing book done with
  | nil => exact hh
  | cons update rest ih =>
    have hi := ingest_healthy hh (ho update (by simp)) (hr.fresh hri)
    have hsa := applyContiguous_same (book.remember (eventKey update)) update
    rw [Contents.applyAll, List.foldlM_cons] at ht
    rcases applyContiguous_contents (book.remember (eventKey update)) update with
      ⟨next, ha, hf, hc⟩ | ⟨hn, -⟩
    · change book.contents.apply update = some next at ha
      rw [ha] at ht
      rw [hf] at hi hsa
      have hs : (book.remember (eventKey update)).state = .healthy := hh
      rw [List.map_cons, run_cons, step, hi]
      refine ih ((hr.remember update).same hsa) ?_ hri.shift ?_ ?_
      · simp [applied, hs]
      · exact fun other hot => hsa.owns_iff.mpr (ho other (List.mem_cons_of_mem _ hot))
      · rw [hc]
        exact ht
    · change book.contents.apply update = none at hn
      simp [hn] at ht

theorem startBuffering_buffers (sym : String) (bufferLimit : ℕ+) (stale : ℤ)
    (connId : String) : ((new sym bufferLimit stale).startBuffering connId).Buffers [] where
  state_eq := rfl
  buffer_eq := rfl
  fits := Nat.zero_le _
  remembers := fun _ hk => absurd hk (List.not_mem_nil)

structure Lived (symbol connectionId : String) (history : DepthHistory) (snapshot : BookSnapshot)
    (rule : BoundaryRule) (held : Contents) : Prop where
  symbol_eq : snapshot.symbol = symbol
  connectionId_eq : snapshot.connectionId = connectionId
  owned : ∀ update ∈ history.updates,
    update.symbol = symbol ∧ update.connectionId = connectionId
  loaded : loadedContents history.updates snapshot rule = some held

theorem Owns.stream_eq {sym connId : String} {update : DepthUpdate}
    (ho : book.Owns update) (hs : book.symbol = sym) (hc : book.connectionId = some connId) :
    update.symbol = sym ∧ update.connectionId = connId :=
  ⟨ho.1.trans hs, Option.some.inj (ho.2.trans hc)⟩

theorem run_calls_lived {sym : String} {bufferLimit : ℕ+} {stale : ℤ}
    {connId : String} {hist : DepthHistory} (hh : ((new sym bufferLimit stale).run
      (hist.calls connId snap rule)).state = .healthy) :
    Lived sym connId hist snap rule ((new sym bufferLimit stale).run
        (hist.calls connId snap rule)).contents := by
  have he : Rising ([] ++ hist.early) := (List.pairwise_append.mp hist.final_lt).1
  have hb :=
    (startBuffering_buffers sym bufferLimit stale connId).run he
  rw [DepthHistory.calls, List.cons_append, run_cons, step, run_append, run_cons, step]
    at hh ⊢
  rw [List.nil_append] at hb
  generalize hstarted : (new sym bufferLimit stale).startBuffering connId = started
    at *
  have hbo : started.symbol = sym ∧ started.connectionId = some connId := by
    rw [← hstarted]
    exact ⟨rfl, rfl⟩
  -- HEALTHY at the end, it was HEALTHY once the snapshot was loaded, and buffering before
  have hl := not_not.mp fun ho =>
    run_ingest_not_healthy ho hist.late hh
  have hst : (started.run (hist.early.map .ingest)).state = .buffering := by
    by_contra ho
    rw [loadSnapshot, if_pos ho] at hl
    have hsta : started.state ≠ .healthy := by
      rw [← hstarted]
      simp [startBuffering, clearBook]
    exact run_ingest_not_healthy hsta _ hl
  obtain ⟨hf, hbu⟩ := hb.resolve_right fun hlost => hlost.2 hst
  have hi : (started.run (hist.early.map .ingest)).symbol = started.symbol ∧
      (started.run (hist.early.map .ingest)).connectionId = started.connectionId :=
    run_ingest_identity hf.1
  generalize hbuffering : started.run (hist.early.map .ingest) = buffering at *
  have hs : snap.symbol = buffering.symbol ∧
      some snap.connectionId = buffering.connectionId := by
    obtain ⟨snapshot', rule', hca, -, hsy, hc, -⟩ :=
      @step_healthy _ (.loadSnapshot snap rule) (by simp [hst]) hl
    cases hca
    exact ⟨hsy, hc⟩
  obtain ⟨-, hco⟩ := @loadSnapshot_contents _ _ rule hst hs.1 hs.2
  obtain ⟨loaded, hlo, -, hhe⟩ := hco.resolve_right fun hlost => hlost.2 hl
  rw [hbu.buffer_eq] at hlo
  have hsa := loadSnapshot_same buffering snap rule
  obtain ⟨how, ha⟩ := run_ingest_contents (hbu.remembers.same hsa) hl hist.final_lt hh
  rw [hhe] at ha
  refine ⟨?_, ?_, ?_, loadedContents_append hist.final_lt hlo ha⟩
  · exact hs.1.trans (hi.1.trans hbo.1)
  · exact Option.some.inj (hs.2.trans (hi.2.trans hbo.2))
  · intro update hu
    rcases List.mem_append.mp hu with hbe | hla
    · exact (hf.1 update hbe).stream_eq hbo.1 hbo.2
    · exact (hsa.owns_iff.mp (how update hla)).stream_eq (hi.1.trans hbo.1) (hi.2.trans hbo.2)

theorem bookHash_eq (hs : book.symbol = other.symbol) (hst : book.state = .healthy)
    (ho : other.state = .healthy) (hc : book.contents = other.contents)
    (digest : BookDocument → String) : book.bookHash digest = other.bookHash digest := by
  simp only [contents, Contents.mk.injEq] at hc
  simp [bookHash, valid, hst, ho, hs, hc]

end LocalOrderBook

section Replay

variable {sym connId : String} {hist : DepthHistory} {snap : BookSnapshot}
  {rule : BoundaryRule} {archives : List (List DepthUpdate)} {held : LocalOrderBook.Contents}

theorem DepthHistory.replayKey_le (hc : ∀ update ∈ hist.updates, update.connectionId = connId) :
    hist.updates.Pairwise fun earlier later => earlier.replayKey ≤ later.replayKey := by
  have hi := (hist.received.and hist.first_le).and hist.final_lt
  refine hi.imp_of_mem fun {earlier later} he hl hb => ?_
  obtain ⟨⟨hr, hfi⟩, hf⟩ := hb
  have hs : earlier.connectionId = later.connectionId :=
    (hc earlier he).trans (hc later hl).symm
  simp only [DepthUpdate.replayKey, Prod.Lex.toLex_le_toLex']
  refine ⟨hr, fun _ => ⟨hs.le, fun _ => ⟨hfi, fun _ => ⟨hf.le, ?_⟩⟩⟩⟩
  exact fun heq => absurd heq hf.ne

theorem replayOrder_eq (hc : ∀ update ∈ hist.updates, update.connectionId = connId)
    (ha : archives.flatten.Perm hist.updates) : replayOrder archives.flatten = hist.updates := by
  have hp : (replayOrder archives.flatten).Perm hist.updates :=
    (List.perm_insertionSort _ _).trans ha
  refine hp.eq_of_pairwise ?_ (List.pairwise_insertionSort _ _) (DepthHistory.replayKey_le hc)
  intro left right hl hr hle hge
  have hk : left.replayKey = right.replayKey := le_antisymm hle hge
  have hi : left.finalUpdateId = right.finalUpdateId :=
    congrArg (fun key => (ofLex (ofLex (ofLex (ofLex key).2).2).2).1) hk
  have hd : (hist.updates.map DepthUpdate.finalUpdateId).Nodup :=
    List.pairwise_map.mpr (hist.final_lt.imp ne_of_lt)
  exact List.inj_on_of_nodup_map hd (hp.mem_iff.mp hl) hr hi

theorem replayDepthArchive_lived (hl : LocalOrderBook.Lived sym connId hist snap rule held)
    (ha : archives.flatten.Perm hist.updates) : (hist.updates.length ≤ 50000 ∧ ∃ replayed,
      replayDepthArchive snap archives rule = .ok replayed ∧
      replayed.state = .healthy ∧ replayed.symbol = sym ∧ replayed.contents = held) ∨
    50000 < hist.updates.length ∧
      replayDepthArchive snap archives rule = .error .snapshotNotBuffering := by
  have hor := replayOrder_eq (fun update hu => (hl.owned update hu).2) ha
  have hri : LocalOrderBook.Rising ([] ++ hist.updates) := hist.final_lt
  have hb := (LocalOrderBook.startBuffering_buffers snap.symbol defaultBufferLimit
    defaultStaleAfter snap.connectionId).run hri
  rw [List.nil_append] at hb
  unfold replayDepthArchive
  rw [hor]
  dsimp only
  generalize hstarted : (LocalOrderBook.new snap.symbol defaultBufferLimit
    defaultStaleAfter).startBuffering snap.connectionId = started at *
  have hbo : started.symbol = snap.symbol ∧ started.connectionId = some snap.connectionId ∧
      started.bufferLimit = defaultBufferLimit := by
    rw [← hstarted]
    exact ⟨rfl, rfl, rfl⟩
  have ho : ∀ update ∈ hist.updates, started.Owns update := by
    intro update hu
    obtain ⟨hs, hco⟩ := hl.owned update hu
    rw [LocalOrderBook.Owns, hbo.1, hbo.2.1, hl.symbol_eq, hl.connectionId_eq]
    exact ⟨hs, congrArg some hco⟩
  have hfit : started.Fit [] hist.updates ↔ hist.updates.length ≤ 50000 := by
    rw [LocalOrderBook.Fit, List.nil_append, hbo.2.2]
    exact and_iff_right ho
  have hi := LocalOrderBook.run_ingest_identity ho
  rw [LocalOrderBook.ingestAll_owned ho]
  rcases hb with ⟨hf, hbu⟩ | ⟨he, hst⟩
  · obtain ⟨hr, hc⟩ := @LocalOrderBook.loadSnapshot_contents _ _ rule
      hbu.state_eq (hbo.1.symm.trans hi.1.symm)
      (hbo.2.1.symm.trans hi.2.symm)
    rw [hbu.buffer_eq, hl.loaded] at hc
    obtain ⟨next, hn, hh, hhe⟩ := hc.resolve_right (by simp)
    have hsa := LocalOrderBook.loadSnapshot_same (started.run (hist.updates.map .ingest)) snap rule
    refine Or.inl ⟨hfit.mp hf, _, ?_, hh, ?_, hhe.trans (Option.some.inj hn).symm⟩
    · rcases hlo : (started.run (hist.updates.map .ingest)).loadSnapshot snap rule with
        ⟨result, loaded⟩
      rw [hlo] at hr
      subst hr
      simp only [bind, Except.bind, hlo]
    · exact hsa.symbol_eq.trans (hi.1.trans (hbo.1.trans hl.symbol_eq))
  · refine Or.inr ⟨not_le.mp fun hle => he (hfit.mpr hle), ?_⟩
    simp only [bind, Except.bind, LocalOrderBook.loadSnapshot, if_pos hst]

/-- A replay of the archived updates, however they were split and shuffled, reproduces the live
book exactly if there are at most 50000 of them. -/
theorem replay_reproduces_iff (bufferLimit : ℕ+) (stale : ℤ)
    (hhealthy : ((LocalOrderBook.new sym bufferLimit stale).run
      (hist.calls connId snap rule)).state = .healthy)
    (harchives : archives.flatten.Perm hist.updates) :
    (∃ replayed, replayDepthArchive snap archives rule = .ok replayed ∧
      replayed.Reproduces ((LocalOrderBook.new sym bufferLimit stale).run
        (hist.calls connId snap rule))) ↔ hist.updates.length ≤ 50000 := by
  have hsy := LocalOrderBook.run_symbol (LocalOrderBook.new sym bufferLimit stale)
    (hist.calls connId snap rule)
  have hre := replayDepthArchive_lived (LocalOrderBook.run_calls_lived hhealthy) harchives
  generalize (LocalOrderBook.new sym bufferLimit stale).run
    (hist.calls connId snap rule) = live at *
  constructor
  · rintro ⟨replayed, hr, -⟩
    rcases hre with ⟨hfi, -⟩ | ⟨-, her⟩
    · exact hfi
    · rw [her] at hr
      cases hr
  · intro hfi
    obtain ⟨replayed, hr, hs, hsa, hc⟩ :=
      (hre.resolve_right fun he => absurd hfi (not_le.mpr he.1)).2
    have hf := hc
    simp only [LocalOrderBook.contents, LocalOrderBook.Contents.mk.injEq] at hf
    exact ⟨replayed, hr, hs, hf.1, hf.2.1, hf.2.2,
      LocalOrderBook.bookHash_eq (hsa.trans hsy.symm) hs hhealthy hc⟩

end Replay

section Overflow

theorem sampleUpdates_pairwise {relation : DepthUpdate → DepthUpdate → Prop} (count : ℕ)
    (hr : ∀ earlier later, earlier < later → relation (sampleUpdate earlier) (sampleUpdate later)) :
    ([sampleUpdate 1] ++ (List.range' 2 count).map sampleUpdate).Pairwise relation := by
  change ((List.range' 1 (count + 1)).map sampleUpdate).Pairwise relation
  exact List.pairwise_map.mpr ((List.pairwise_lt_range' (s := 1) (n := count + 1)).imp (hr _ _))

/-- The sample's updates from id two on, the first of them before the snapshot. -/
def sampleHistory (count : ℕ) : DepthHistory where
  early := [sampleUpdate 1]
  late := (List.range' 2 count).map sampleUpdate
  received := sampleUpdates_pairwise count fun _ _ hlt => Int.ofNat_le.mpr hlt.le
  first_le := sampleUpdates_pairwise count fun _ _ hlt => Nat.succ_le_succ hlt.le
  final_lt := sampleUpdates_pairwise count fun _ _ hlt => Nat.succ_lt_succ hlt

theorem sample_replay_reproduces :
    (∃ replayed, replayDepthArchive sampleSnapshot [[sampleUpdate 2], [sampleUpdate 1]]
        .coverNextUpdateId = .ok replayed ∧
      replayed.Reproduces ((LocalOrderBook.new "BTCUSDT" 8 3000000).run
        ((sampleHistory 1).calls "c" sampleSnapshot .coverNextUpdateId))) ↔
      (sampleHistory 1).updates.length ≤ 50000 :=
  replay_reproduces_iff 8 3000000 (by decide) (List.Perm.swap _ _ _)

theorem quiet_applyAll {bids asks : Levels} (hv : sidesValid bids asks = true) (start count : ℕ) :
    ((⟨bids, asks, some (start + 3)⟩ : LocalOrderBook.Contents).applyAll
      ((List.range' (start + 3) count).map sampleUpdate)).isSome := by
  induction count generalizing start with
  | zero => rfl
  | succ count ih =>
    have ht : (⟨bids, asks, some (start + 3)⟩ : LocalOrderBook.Contents).apply
        (sampleUpdate (start + 3)) = some ⟨bids, asks, some (start + 4)⟩ := if_pos ⟨rfl, hv⟩
    rw [List.range'_succ, List.map_cons, LocalOrderBook.Contents.applyAll, List.foldlM_cons, ht]
    exact ih (start + 1)

def syncedCalls : List BookCall :=
  [.startBuffering "c", .ingest (sampleUpdate 1), .loadSnapshot sampleSnapshot .coverNextUpdateId,
    .ingest (sampleUpdate 2)]

theorem sampleHistory_healthy (count : ℕ) :
    ((LocalOrderBook.new "BTCUSDT" defaultBufferLimit defaultStaleAfter).run
      ((sampleHistory (count + 1)).calls "c" sampleSnapshot .coverNextUpdateId)).state =
        .healthy := by
  have hs : ((LocalOrderBook.new "BTCUSDT" defaultBufferLimit defaultStaleAfter).run
        syncedCalls).state = .healthy ∧
      ((LocalOrderBook.new "BTCUSDT" defaultBufferLimit defaultStaleAfter).run
        syncedCalls).connectionId = some "c" ∧
      ((LocalOrderBook.new "BTCUSDT" defaultBufferLimit defaultStaleAfter).run
        syncedCalls).seenOrder = [sampleUpdate 1, sampleUpdate 2].map LocalOrderBook.eventKey ∧
      ((LocalOrderBook.new "BTCUSDT" defaultBufferLimit defaultStaleAfter).run
        syncedCalls).lastUpdateId = some 3 ∧
      sidesValid ((LocalOrderBook.new "BTCUSDT" defaultBufferLimit defaultStaleAfter).run
          syncedCalls).bids
        ((LocalOrderBook.new "BTCUSDT" defaultBufferLimit defaultStaleAfter).run
          syncedCalls).asks = true := by decide
  have hsy := LocalOrderBook.run_symbol
    (LocalOrderBook.new "BTCUSDT" defaultBufferLimit defaultStaleAfter) syncedCalls
  change (((LocalOrderBook.new "BTCUSDT" defaultBufferLimit defaultStaleAfter).run
    syncedCalls).run (((List.range' 3 count).map sampleUpdate).map .ingest)).state = .healthy
  generalize (LocalOrderBook.new "BTCUSDT" defaultBufferLimit defaultStaleAfter).run
    syncedCalls = synced at *
  obtain ⟨hst, hc, hse, hl, hv⟩ := hs
  have hr : synced.Remembers [sampleUpdate 1, sampleUpdate 2] := by
    intro key hk
    rw [hse] at hk
    exact List.mem_map.mp hk
  refine LocalOrderBook.run_ingest_healthy hr hst (sampleHistory (count + 1)).final_lt ?_ ?_
  · intro update hu
    obtain ⟨n, -, rfl⟩ := List.mem_map.mp hu
    exact ⟨hsy.symm, hc.symm⟩
  · rw [LocalOrderBook.contents, hl]
    exact quiet_applyAll hv 0 count

theorem long_history_not_replayed :
    ¬ ∀ (sym : String) (bufferLimit : ℕ+) (stale : ℤ) (connId : String)
        (hist : DepthHistory) (snap : BookSnapshot) (rule : BoundaryRule)
        (archives : List (List DepthUpdate)), ((LocalOrderBook.new sym bufferLimit stale).run
        (hist.calls connId snap rule)).state = .healthy → archives.flatten.Perm hist.updates →
      ∃ replayed, replayDepthArchive snap archives rule = .ok replayed ∧
        replayed.Reproduces ((LocalOrderBook.new sym bufferLimit stale).run
          (hist.calls connId snap rule)) := by
  intro hc
  have hh := sampleHistory_healthy 49999
  have ha : [(sampleHistory 50000).updates].flatten.Perm (sampleHistory 50000).updates := by
    rw [List.flatten_singleton]
  obtain ⟨replayed, hr, -⟩ := hc "BTCUSDT" defaultBufferLimit defaultStaleAfter "c"
    (sampleHistory 50000) sampleSnapshot .coverNextUpdateId _ hh ha
  have hl : (sampleHistory 50000).updates.length = 50001 := by
    simp [DepthHistory.updates, sampleHistory]
  rcases replayDepthArchive_lived (LocalOrderBook.run_calls_lived hh) ha with
    ⟨hf, -⟩ | ⟨-, he⟩
  · exact absurd (hl ▸ hf) (by decide)
  · rw [he] at hr
    cases hr

end Overflow

end AiQuant.OrderBook
