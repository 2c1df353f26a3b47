import AiQuant.CopyTrading.BinancePublic

/-! Copying from a growing public history.  The history has orders with their own ids,
which the endpoint does not show.  Whatever one identity emits stays below its executed
quantity; an order stays below its own as long as it keeps one identity, that is, as
long as its row is always read in a batch, at one price written one way, or never. -/
namespace AiQuant.CopyTrading
open AiQuant.Lib

/-- A row of a page, with the order id that the endpoint hides. -/
structure HistoryRow where
  orderId : ℕ
  document : ApiOrder

/-- The pages of one `order_history_since`, read behind the stored watermark. -/
structure HistoryResponse where
  watermark : ℤ
  pages : List (List HistoryRow)
  observedAt : Time

def HistoryResponse.documents (response : HistoryResponse) : List (List ApiOrder) :=
  response.pages.map fun page => page.map (·.document)

/-- `new` is a later version of the row `old` of one public order. -/
structure ApiOrder.Advances (old new : ApiOrder) : Prop where
  symbol : old.symbol = new.symbol
  positionSide : old.positionSide = new.positionSide
  side : old.side = new.side
  orderType : old.orderType = new.orderType
  orderTime : old.orderTime = new.orderTime
  executedQty : old.executedQty ≤ new.executedQty
  orderUpdateTime : old.orderUpdateTime ≤ new.orderUpdateTime

/-- The versions of each order's row, newest first. -/
abbrev History := ℕ → List ApiOrder

def currentExecuted (history : History) (orderId : ℕ) : Decimal :=
  ((history orderId).head?.map (·.executedQty)).getD 0

/-- The key that a poll derives, without the epoch of a resolution reset. -/
def Digest.withoutEpoch : Digest → Digest
  | .epochEvent _ sourceEventKey => sourceEventKey
  | digest => digest

def assignedKeys (leadPortfolioId : String) (responses : List HistoryResponse) (orderId : ℕ) :
    List Digest :=
  responses.flatMap fun response => response.pages.flatMap fun page => page.filterMap fun row =>
    if row.orderId = orderId then
      (assignedOrder leadPortfolioId (page.map (·.document)) row.document).toOption.map (·.eventKey)
    else none

def emittedForOrder (leadPortfolioId : String) (responses : List HistoryResponse) (orderId : ℕ)
    (signals : List NormalizedSignal) : Decimal :=
  ((signals.filter fun signal => signal.sourceEventKey.withoutEpoch ∈
    assignedKeys leadPortfolioId responses orderId).map (·.sourceDeltaQuantity)).sum

/-- The rows of an order are read in a batch in the one page exactly when they are in the
other, and then at one average price, written alike. -/
def SameBatch (leadPortfolioId : String) (leftPage rightPage : List HistoryRow)
    (left right : HistoryRow) : Prop :=
  inBatch leadPortfolioId (leftPage.map (·.document)) left.document =
    inBatch leadPortfolioId (rightPage.map (·.document)) right.document ∧
  (inBatch leadPortfolioId (leftPage.map (·.document)) left.document = true →
    left.document.avgPrice = right.document.avgPrice ∧
      left.document.spelling.averagePrice = right.document.spelling.averagePrice)

/-- The new response reads every order in a batch as all responses so far did. -/
def StableBatches (leadPortfolioId : String) (responses : List HistoryResponse)
    (response : HistoryResponse) : Prop :=
  ∀ page ∈ response.pages, ∀ row ∈ page, ∀ earlier ∈ response :: responses,
    ∀ earlierPage ∈ earlier.pages, ∀ earlierRow ∈ earlierPage,
      earlierRow.orderId = row.orderId →
        SameBatch leadPortfolioId page earlierPage row earlierRow

def emittedUpTo (identityKey : Digest) (limit : Decimal) (signals : List NormalizedSignal) :
    Decimal :=
  ((signals.filter fun signal => signal.sourceIdentityKey = identityKey ∧
    signal.sourceCumulativeQuantity ≤ limit).map (·.sourceDeltaQuantity)).sum

theorem emittedUpTo_concat (identity : Digest) (limit : Decimal)
    (signals : List NormalizedSignal) (sig : NormalizedSignal) :
    emittedUpTo identity limit (signals ++ [sig]) = emittedUpTo identity limit signals +
        if sig.sourceIdentityKey = identity ∧ sig.sourceCumulativeQuantity ≤ limit then
          sig.sourceDeltaQuantity
        else 0 := by
  unfold emittedUpTo
  rw [List.filter_append, List.map_append, List.sum_append]
  congr 1
  split
  · simp [*]
  · simp [*]

section Loop

variable [HexOrder] {leader : String} {log : EventLog} {prior : List NormalizedSignal}
  {orders : List PublicLeaderOrder} {seen : Time}

def IdentityBound (leadPortfolioId : String) (log : EventLog) (signals : List NormalizedSignal) :
    Prop :=
  ∀ identityKey limit, 0 ≤ limit →
    emittedUpTo identityKey limit signals ≤ limit ∧
    emittedUpTo identityKey limit signals ≤ log.executedSoFar leadPortfolioId identityKey

/-- The invariant of the loop of `ingest_orders`. -/
structure LoopBound (leadPortfolioId : String) (log : EventLog) (prior : List NormalizedSignal)
    (orders : List PublicLeaderOrder) (state : IngestState) : Prop where
  resets : state.log.resets = log.resets
  subset : log.sourceOrders ⊆ state.log.sourceOrders
  bound : IdentityBound leadPortfolioId state.log (prior ++ state.signals)
  origin : ∀ signal ∈ state.signals, 0 ≤ signal.sourceDeltaQuantity ∧
    ∃ order ∈ orders, signal.sourceEventKey = order.eventKey ∧
      signal.sourceIdentityKey = order.identityKey ∧
      signal.sourceCumulativeQuantity = order.executedQuantity ∧
      ∀ row ∈ log.sourceOrders, row.order.eventKey ≠ order.eventKey

theorem LoopBound.step {ord : PublicLeaderOrder} {pre post : IngestState}
    (hv : (log.latestReset leader).all (·.occurredAt < seen) = true)
    (hlead : ord.leadPortfolioId = leader) (hm : ord ∈ orders)
    (hb : LoopBound leader log prior orders pre)
    (hst : ingestOrder leader false seen pre ord = .ok post) :
    LoopBound leader log prior orders post := by
  have hn : (pre.log.latestReset leader).all (·.occurredAt < seen) = true := by
    simp only [EventLog.latestReset, hb.resets]
    exact hv
  cases (ingestOrder_cases hst).1 with
  | known row hrow hev hlog hs =>
    refine ⟨?_, ?_, ?_, ?_⟩
    · rw [hlog, hb.resets]
    · rw [hlog]
      exact hb.subset
    · rw [hlog, hs]
      exact hb.bound
    · rw [hs]
      exact hb.origin
  | silent hfresh hreason hlog hs =>
    have hr : post.log.resets = pre.log.resets := by rw [hlog]; rfl
    have hro : post.log.sourceOrders = pre.log.sourceOrders ++
        [⟨ord, pre.marksBaseline leader false ord, seen⟩] := by
      rw [hlog]; rfl
    refine ⟨?_, ?_, ?_, ?_⟩
    · rw [hr, hb.resets]
    · rw [hro]
      exact List.Subset.trans hb.subset (List.subset_append_left _ _)
    · intro identity limit hl
      rw [hs, EventLog.executedSoFar_concat hn hr hro hlead]
      obtain ⟨hle, he⟩ := hb.bound identity limit hl
      refine ⟨hle, ?_⟩
      split
      · exact he.trans (le_max_left _ _)
      · exact he
    · rw [hs]
      exact hb.origin
  | emitted sig hfresh hlive hgrown hro hr hi hev hd hc hs =>
    refine ⟨?_, ?_, ?_, ?_⟩
    · rw [hr, hb.resets]
    · rw [hro]
      exact List.Subset.trans hb.subset (List.subset_append_left _ _)
    · intro identity limit hl
      rw [hs, ← List.append_assoc, emittedUpTo_concat, hi, hc, hd,
        EventLog.executedSoFar_concat hn hr hro hlead]
      obtain ⟨hle, he⟩ := hb.bound identity limit hl
      by_cases hk : ord.identityKey = identity
      · subst hk
        rw [if_pos rfl]
        -- The signal lifts the identity from its executed quantity to the order's.
        by_cases hre : ord.executedQuantity ≤ limit
        · rw [if_pos ⟨rfl, hre⟩]
          refine ⟨by linarith, le_trans ?_ (le_max_right _ _)⟩
          linarith
        · rw [if_neg fun hbo => hre hbo.2, add_zero]
          exact ⟨hle, he.trans (le_max_left _ _)⟩
      · rw [if_neg fun hbo => hk hbo.1, if_neg hk, add_zero]
        exact ⟨hle, he⟩
    · intro found hf
      rw [hs, List.mem_append, List.mem_singleton] at hf
      rcases hf with ho | rfl
      · exact hb.origin found ho
      · refine ⟨by rw [hd]; linarith, ord, hm, hev, hi, hc, ?_⟩
        intro row hrow
        exact hfresh row (hb.subset hrow)

theorem loopBound_of_ingestOrders {post : EventLog} {new : List NormalizedSignal}
    (hv : (log.latestReset leader).all (·.occurredAt < seen) = true)
    (hl : ∀ ord ∈ orders, ord.leadPortfolioId = leader) (hbo : IdentityBound leader log prior)
    (hi : log.ingestOrders leader orders false seen = .ok (post, new)) :
    ∃ st : IngestState, st.log = post ∧ st.signals = new ∧
      LoopBound leader log prior (orders.map (sourceEpochOrder ·
          ((log.latestReset leader).map (·.resetEventId)))) st := by
  unfold EventLog.ingestOrders at hi
  dsimp only at hi
  rw [bind_eq_ok_iff] at hi
  obtain ⟨st, hrun, hr⟩ := hi
  cases hr
  refine ⟨st, rfl, rfl, ?_⟩
  refine foldlM_invariant _ ?_ ?_ hrun
  · intro ord ho pre post hb hs
    rw [mem_sortedOrders] at ho
    refine hb.step hv ?_ ho hs
    obtain ⟨raw, hraw, rfl⟩ := List.mem_map.mp ho
    rw [← hl raw hraw]
    unfold sourceEpochOrder
    split <;> rfl
  · refine ⟨rfl, List.Subset.refl _, ?_, by simp⟩
    simpa using hbo

end Loop

section Run

variable [HexOrder]

/-- One poll: the rows are versions of the history's orders, read behind the watermark
and ingested after the newest reset. -/
structure HistoryPoll (leadPortfolioId : String) (history : History) (log : EventLog)
    (response : HistoryResponse) (after : EventLog) (new : List NormalizedSignal) : Prop where
  watermark : log.sourceWatermark leadPortfolioId = some response.watermark
  afterReset : (log.latestReset leadPortfolioId).all (·.occurredAt < response.observedAt) = true
  rows : ∀ page ∈ response.pages, ∀ row ∈ page, row.document ∈ history row.orderId
  ingested : ∃ orders pageSize maximumPages,
    orderHistorySinceSnapshot leadPortfolioId response.watermark pageSize maximumPages
      response.documents = .ok orders ∧
    log.ingestOrders leadPortfolioId orders false response.observedAt = .ok (after, new)

/-- Runs over a growing history: versions are added, responses are ingested in order, and
other writers leave the leader's rows alone. -/
inductive HistoryRun (allowed : List HistoryResponse → HistoryResponse → Prop)
    (leadPortfolioId : String) :
    History → List HistoryResponse → EventLog → List NormalizedSignal → Prop where
  | start (log : EventLog) : HistoryRun allowed leadPortfolioId (fun _ => []) [] log []
  | grow {history : History} {responses : List HistoryResponse} {log : EventLog}
      {signals : List NormalizedSignal} {orderId : ℕ} {document : ApiOrder} :
      HistoryRun allowed leadPortfolioId history responses log signals →
      (PublicLeaderOrder.fromApi leadPortfolioId document).isOk = true →
      (∀ old ∈ history orderId, old.Advances document) →
      HistoryRun allowed leadPortfolioId
        (Function.update history orderId (document :: history orderId)) responses log signals
  | poll {history : History} {responses : List HistoryResponse} {log after : EventLog}
      {signals new : List NormalizedSignal} {response : HistoryResponse} :
      HistoryRun allowed leadPortfolioId history responses log signals →
      allowed responses response →
      HistoryPoll leadPortfolioId history log response after new →
      HistoryRun allowed leadPortfolioId history (response :: responses) after (signals ++ new)
  | elsewhere {history : History} {responses : List HistoryResponse} {log after : EventLog}
      {signals : List NormalizedSignal} :
      HistoryRun allowed leadPortfolioId history responses log signals →
      after.resets.filter (·.leadPortfolioId = leadPortfolioId) =
        log.resets.filter (·.leadPortfolioId = leadPortfolioId) →
      after.sourceOrders.filter (·.order.leadPortfolioId = leadPortfolioId) =
        log.sourceOrders.filter (·.order.leadPortfolioId = leadPortfolioId) →
      HistoryRun allowed leadPortfolioId history responses after signals

def EventLog.resetEventId (log : EventLog) (leadPortfolioId : String) : Option Digest :=
  (log.latestReset leadPortfolioId).map (·.resetEventId)

structure HistoryInvariant (leadPortfolioId : String) (history : History)
    (responses : List HistoryResponse) (log : EventLog) (signals : List NormalizedSignal) :
    Prop where
  parses : ∀ orderId, ∀ document ∈ history orderId,
    (PublicLeaderOrder.fromApi leadPortfolioId document).isOk = true
  advances : ∀ orderId, ∀ old ∈ history orderId,
    ∃ new, (history orderId).head? = some new ∧ old.Advances new
  rows : ∀ response ∈ responses, ∀ page ∈ response.pages, ∀ row ∈ page,
    row.document ∈ history row.orderId
  stable : ∀ left ∈ responses, ∀ leftPage ∈ left.pages, ∀ leftRow ∈ leftPage,
    ∀ right ∈ responses, ∀ rightPage ∈ right.pages, ∀ rightRow ∈ rightPage,
      leftRow.orderId = rightRow.orderId →
        SameBatch leadPortfolioId leftPage rightPage leftRow rightRow
  bound : IdentityBound leadPortfolioId log signals
  origin : ∀ signal ∈ signals, 0 ≤ signal.sourceDeltaQuantity ∧
    ∃ order : PublicLeaderOrder, order.Keyed ∧
      signal.sourceEventKey =
        (sourceEpochOrder order (log.resetEventId leadPortfolioId)).eventKey ∧
      signal.sourceIdentityKey =
        (sourceEpochOrder order (log.resetEventId leadPortfolioId)).identityKey ∧
      signal.sourceCumulativeQuantity = order.executedQuantity

variable {leader : String} {hist : History} {responses : List HistoryResponse}
  {log post : EventLog} {signals new : List NormalizedSignal} {resp : HistoryResponse}

theorem HistoryPoll.assigned (hp : HistoryPoll leader hist log resp post new) :
    ∃ orders, (∀ ord ∈ orders, ∃ page ∈ resp.pages, ∃ row ∈ page,
        assignedOrder leader (page.map (·.document)) row.document = .ok ord) ∧
      log.ingestOrders leader orders false resp.observedAt = .ok (post, new) := by
  obtain ⟨orders, pageSize, maximumPages, hs, hi⟩ := hp.ingested
  refine ⟨orders, ?_, hi⟩
  intro ord ho
  obtain ⟨rows, hr, doc, hd, ha⟩ :=
    exists_assignedOrder_of_mem_snapshot hs ho
  obtain ⟨page, hpa, rfl⟩ := List.mem_map.mp hr
  obtain ⟨row, hrow, rfl⟩ := List.mem_map.mp hd
  exact ⟨page, hpa, row, hrow, ha⟩

theorem HistoryPoll.loopBound (hp : HistoryPoll leader hist log resp post new)
    (hb : IdentityBound leader log signals) : ∃ orders : List PublicLeaderOrder, ∃ st : IngestState,
      st.log = post ∧ st.signals = new ∧ (∀ ord ∈ orders, ord.Keyed) ∧
      LoopBound leader log signals
        (orders.map (sourceEpochOrder · (log.resetEventId leader))) st := by
  obtain ⟨orders, ha, hi⟩ := hp.assigned
  have hsp : ∀ ord ∈ orders, ord.leadPortfolioId = leader ∧ ord.Keyed := by
    intro ord ho
    obtain ⟨page, -, row, -, ha⟩ := ha ord ho
    have hsp := assignedOrder_spec ha
    exact ⟨hsp.1, hsp.2.1⟩
  obtain ⟨st, hlog, hs, hl⟩ := loopBound_of_ingestOrders hp.afterReset
    (fun ord ho => (hsp ord ho).1) hb hi
  exact ⟨orders, st, hlog, hs, fun ord ho => (hsp ord ho).2, hl⟩

theorem HistoryInvariant.poll (hi : HistoryInvariant leader hist responses log signals)
    (hs : StableBatches leader responses resp) (hpo : HistoryPoll leader hist log resp post new) :
    HistoryInvariant leader hist (resp :: responses) post (signals ++ new) := by
  obtain ⟨orders, st, rfl, rfl, hk, hlo⟩ := hpo.loopBound hi.bound
  have hre : st.log.resetEventId leader = log.resetEventId leader := by
    simp only [EventLog.resetEventId, EventLog.latestReset, hlo.resets]
  refine ⟨hi.parses, hi.advances, ?_, ?_, hlo.bound, ?_⟩
  · intro found hf
    rcases List.mem_cons.mp hf with rfl | hf
    · exact hpo.rows
    · exact hi.rows found hf
  · intro left hleft leftPage hl leftRow hle right hright rightPage hr rightRow hri hsame
    rcases List.mem_cons.mp hleft with rfl | hlef
    · exact hs leftPage hl leftRow hle right hright rightPage hr rightRow hri hsame.symm
    · rcases List.mem_cons.mp hright with rfl | hrig
      · obtain ⟨hb, hp⟩ := hs rightPage hr rightRow hri left
          (List.mem_cons_of_mem _ hlef) leftPage hl leftRow hle hsame
        exact ⟨hb.symm, fun hin => (hp (hb.trans hin)).imp Eq.symm Eq.symm⟩
      · exact hi.stable left hlef leftPage hl leftRow hle right hrig rightPage hr rightRow hri hsame
  · intro sig hsi
    rw [hre]
    rcases List.mem_append.mp hsi with hold | hnew
    · exact hi.origin sig hold
    · obtain ⟨hn, ord, ho, he, hid, hc, -⟩ :=
        hlo.origin sig hnew
      obtain ⟨raw, hraw, rfl⟩ := List.mem_map.mp ho
      refine ⟨hn, raw, hk raw hraw, he, hid, ?_⟩
      rw [hc]
      unfold sourceEpochOrder
      split <;> rfl

theorem HistoryInvariant.grow {orderId : ℕ} {doc : ApiOrder}
    (hi : HistoryInvariant leader hist responses log signals)
    (hp : (PublicLeaderOrder.fromApi leader doc).isOk = true)
    (ha : ∀ old ∈ hist orderId, old.Advances doc) : HistoryInvariant leader
      (Function.update hist orderId (doc :: hist orderId)) responses log signals := by
  have hs : doc.Advances doc := ⟨rfl, rfl, rfl, rfl, rfl, le_rfl, le_rfl⟩
  refine ⟨?_, ?_, ?_, hi.stable, hi.bound, hi.origin⟩
  · intro found old ho
    by_cases hf : found = orderId
    · subst hf
      rw [Function.update_self] at ho
      rcases List.mem_cons.mp ho with rfl | ho
      · exact hp
      · exact hi.parses found old ho
    · rw [Function.update_of_ne hf] at ho
      exact hi.parses found old ho
  · intro found old ho
    by_cases hf : found = orderId
    · subst hf
      rw [Function.update_self] at ho ⊢
      refine ⟨doc, rfl, ?_⟩
      rcases List.mem_cons.mp ho with rfl | ho
      · exact hs
      · exact ha old ho
    · rw [Function.update_of_ne hf] at ho ⊢
      exact hi.advances found old ho
  · intro resp hr page hpa row hrow
    have ho := hi.rows resp hr page hpa row hrow
    by_cases hf : row.orderId = orderId
    · rw [hf, Function.update_self, ← hf]
      exact List.mem_cons_of_mem _ ho
    · rw [Function.update_of_ne hf]
      exact ho

theorem HistoryRun.invariant (hrun : HistoryRun (StableBatches leader) leader hist responses log
      signals) : HistoryInvariant leader hist responses log signals := by
  induction hrun with
  | start log =>
    refine ⟨by simp, by simp, by simp, by simp, ?_, by simp⟩
    intro identity limit hl
    exact ⟨hl, EventLog.executedSoFar_nonneg identity⟩
  | grow _ hparses hadvances ih => exact ih.grow hparses hadvances
  | poll _ hstable hpoll ih => exact ih.poll hstable hpoll
  | elsewhere _ hr hrows ih =>
    refine ⟨ih.parses, ih.advances, ih.rows, ih.stable, ?_, ?_⟩
    · intro identity limit hl
      have he := EventLog.epochOrders_congr hr hrows
      simp only [EventLog.executedSoFar, EventLog.previousExecuted, he]
      exact ih.bound identity limit hl
    · simpa only [EventLog.resetEventId, EventLog.latestReset, hr] using ih.origin

end Run

theorem mem_assignedKeys {leader : String} {responses : List HistoryResponse}
    {orderId : ℕ} {key : Digest} : key ∈ assignedKeys leader responses orderId ↔
      ∃ resp ∈ responses, ∃ page ∈ resp.pages, ∃ row ∈ page, row.orderId = orderId ∧
        ∃ ord, assignedOrder leader (page.map (·.document)) row.document = .ok ord ∧
          ord.eventKey = key := by
  unfold assignedKeys
  simp only [List.mem_flatMap, List.mem_filterMap]
  have ha : ∀ (page : List HistoryRow) (row : HistoryRow), ((if row.orderId = orderId then
          (assignedOrder leader (page.map (·.document)) row.document).toOption.map (·.eventKey)
        else none) = some key) ↔
      row.orderId = orderId ∧
        ∃ ord, assignedOrder leader (page.map (·.document)) row.document = .ok ord ∧
          ord.eventKey = key := by
    intro page row
    split
    · cases assignedOrder leader (page.map (·.document)) row.document <;>
        simp [*, Except.toOption]
    · simp [*]
  simp only [ha]

theorem withoutEpoch_sourceEpochOrder {ord : PublicLeaderOrder} (hk : ord.Keyed)
    (resetEventId : Option Digest) :
    (sourceEpochOrder ord resetEventId).eventKey.withoutEpoch = ord.eventKey := by
  cases resetEventId with
  | none =>
    rw [sourceEpochOrder, hk]
    rfl
  | some reset => rfl

theorem identity_eq_of_sameBatch {leader : String} {left right : HistoryRow}
    {leftPage rightPage : List HistoryRow} {leftOrder rightOrder : PublicLeaderOrder}
    {newest : ApiOrder}
    (hle : left.document.Advances newest) (hr : right.document.Advances newest)
    (hb : SameBatch leader leftPage rightPage left right)
    (hl : assignedOrder leader (leftPage.map (·.document)) left.document = .ok leftOrder)
    (hri : assignedOrder leader (rightPage.map (·.document)) right.document =
      .ok rightOrder) : leftOrder.identityKey = rightOrder.identityKey := by
  obtain ⟨hs, hp⟩ := hb
  rw [(assignedOrder_spec hl).2.2.2.2.2.2.2, (assignedOrder_spec hri).2.2.2.2.2.2.2,
    hle.symbol, hle.positionSide, hle.side, hle.orderType, hle.orderTime,
    hr.symbol, hr.positionSide, hr.side, hr.orderType, hr.orderTime, ← hs]
  dsimp only
  split
  · rename_i hin
    rw [(hp hin).1, (hp hin).2]
  · rfl

section Order

variable [HexOrder] {leader : String} {hist : History}
  {responses : List HistoryResponse} {log post : EventLog}
  {signals new : List NormalizedSignal} {resp : HistoryResponse}

section

variable (hi : HistoryInvariant leader hist responses log signals)
include hi

theorem HistoryInvariant.identity_eq {left right : HistoryRow}
    {leftPage rightPage : List HistoryRow} {leftOrder rightOrder : PublicLeaderOrder} {orderId : ℕ}
    (hle : left.document ∈ hist orderId) (hri : right.document ∈ hist orderId)
    (hb : SameBatch leader leftPage rightPage left right)
    (hl : assignedOrder leader (leftPage.map (·.document)) left.document = .ok leftOrder)
    (hr : assignedOrder leader (rightPage.map (·.document)) right.document = .ok rightOrder) :
    leftOrder.identityKey = rightOrder.identityKey := by
  obtain ⟨newest, hn, hleft⟩ := hi.advances orderId _ hle
  obtain ⟨_, ha, hrig⟩ := hi.advances orderId _ hri
  rw [hn] at ha
  cases ha
  exact identity_eq_of_sameBatch hleft hrig hb hl hr

theorem HistoryInvariant.executed_le {doc : ApiOrder} {orderId : ℕ} (hm : doc ∈ hist orderId) :
    doc.executedQty ≤ currentExecuted hist orderId := by
  obtain ⟨newest, hn, ha⟩ := hi.advances orderId doc hm
  rw [currentExecuted, hn]
  exact ha.executedQty

theorem HistoryInvariant.currentExecuted_nonneg
    (orderId : ℕ) : 0 ≤ currentExecuted hist orderId := by
  cases hv : hist orderId with
  | nil =>
    rw [currentExecuted, hv]
    exact le_rfl
  | cons newest older =>
    have hm : newest ∈ hist orderId := by
      rw [hv]
      exact List.mem_cons_self
    have hok := eq_ok_okValue (hi.parses orderId newest hm)
    generalize okValue _ _ = ord at hok
    unfold PublicLeaderOrder.fromApi at hok
    split at hok
    · cases hok
    · rename_i hpositive
      rw [currentExecuted, hv]
      exact (not_le.mp hpositive).le

theorem HistoryInvariant.emittedForOrder_le (orderId : ℕ) :
    emittedForOrder leader responses orderId signals ≤ currentExecuted hist orderId := by
  cases hke : assignedKeys leader responses orderId with
  | nil =>
    simp only [emittedForOrder, hke, List.not_mem_nil, decide_false, List.filter_false,
      List.map_nil, List.sum_nil]
    exact hi.currentExecuted_nonneg orderId
  | cons key keys =>
    have hkey : key ∈ assignedKeys leader responses orderId := by
      rw [hke]
      exact List.mem_cons_self
    obtain ⟨shown, hshown, shownPage, hsh, shownRow, hsho, hshownId, shownOrder,
      hshownO, -⟩ := mem_assignedKeys.mp hkey
    set identity :=
      (sourceEpochOrder shownOrder (log.resetEventId leader)).identityKey
    have him : ∀ sig ∈ signals, sig.sourceEventKey.withoutEpoch ∈
        assignedKeys leader responses orderId →
        sig.sourceIdentityKey = identity ∧
          sig.sourceCumulativeQuantity ≤ currentExecuted hist orderId := by
      intro sig hs hm
      obtain ⟨found, hf, page, hp, row, hrow, hro, ord, hor, he⟩ :=
        mem_assignedKeys.mp hm
      obtain ⟨-, source, hk, hsou, hso, hc⟩ :=
        hi.origin sig hs
      -- The signal's order and the row's order have one event key, hen all its values.
      rw [hsou, withoutEpoch_sourceEpochOrder hk] at he
      obtain ⟨-, ho, hexe, -⟩ := assignedOrder_spec hor
      rw [ho, hk] at he
      injection he with _ hq hid
      have hr := hi.rows found hf page hp row hrow
      have hshow := hi.rows shown hshown shownPage hsh shownRow hsho
      rw [hro] at hr
      rw [hshownId] at hshow
      have hb := hi.stable found hf page hp row hrow shown hshown shownPage
        hsh shownRow hsho (hro.trans hshownId.symm)
      have hsa := hi.identity_eq hr hshow hb hor hshownO
      constructor
      · rw [hso]
        unfold identity sourceEpochOrder
        split <;> simp [← hid, hsa]
      · rw [hc, ← hq, hexe]
        exact hi.executed_le hr
    have hsu : ((signals.filter fun sig => sig.sourceEventKey.withoutEpoch ∈
        assignedKeys leader responses orderId).map (·.sourceDeltaQuantity)).sum ≤
        emittedUpTo identity (currentExecuted hist orderId) signals := by
      unfold emittedUpTo
      have hfi : (signals.filter fun sig => sig.sourceEventKey.withoutEpoch ∈
          assignedKeys leader responses orderId) =
          (signals.filter fun sig => sig.sourceIdentityKey = identity ∧
            sig.sourceCumulativeQuantity ≤ currentExecuted hist orderId).filter
            fun sig => sig.sourceEventKey.withoutEpoch ∈
              assignedKeys leader responses orderId := by
        rw [List.filter_filter]
        apply List.filter_congr
        intro sig hs
        by_cases hm : sig.sourceEventKey.withoutEpoch ∈ assignedKeys leader responses orderId
        · simp [hm, him sig hs hm]
        · simp [hm]
      rw [hfi]
      apply List.Sublist.sum_le_sum (List.Sublist.map _ List.filter_sublist)
      intro delta hd
      obtain ⟨sig, hs, rfl⟩ := List.mem_map.mp hd
      exact (hi.origin sig (List.mem_of_mem_filter hs)).1
    exact hsu.trans (hi.bound identity _ (hi.currentExecuted_nonneg orderId)).1

end

/-- The order's event is in the table of the current epoch. -/
def EventLog.HasIngested (log : EventLog) (leadPortfolioId : String)
    (order : PublicLeaderOrder) : Prop :=
  ∃ row ∈ log.sourceOrders, row.order.eventKey =
    (sourceEpochOrder order (log.resetEventId leadPortfolioId)).eventKey

/-- No duplicate signal: over every run whose batches are stable, no order emits more
than it executed, and a row that was ingested and comes back unchanged emits nothing. -/
theorem emitted_le_executed_of_stableBatches
    (hrun : HistoryRun (StableBatches leader) leader hist responses log signals) :
    (∀ orderId, emittedForOrder leader responses orderId signals ≤ currentExecuted hist orderId) ∧
    ∀ resp post new, StableBatches leader responses resp →
      HistoryPoll leader hist log resp post new → ∀ page ∈ resp.pages, ∀ row ∈ page,
      ∀ earlier ∈ responses, ∀ earlierPage ∈ earlier.pages, row ∈ earlierPage → ∀ old ord,
        assignedOrder leader (earlierPage.map (·.document)) row.document = .ok old →
        log.HasIngested leader old →
        assignedOrder leader (page.map (·.document)) row.document = .ok ord →
        ∀ sig ∈ new, sig.sourceEventKey.withoutEpoch ≠ ord.eventKey := by
  have hi := hrun.invariant
  refine ⟨hi.emittedForOrder_le, ?_⟩
  intro resp post new hsta hpo page hpa row hr earlier hea earlierPage
    he hearlierRow old ord hold hingested horder sig hsignal hkey
  have hm := hpo.rows page hpa row hr
  have hb := hsta page hpa row hr earlier (List.mem_cons_of_mem _ hea) earlierPage
    he row hearlierRow rfl
  have hid := hi.identity_eq hm hm hb horder hold
  have hev : ord.eventKey = old.eventKey := by
    obtain ⟨-, hor, hexe, hp, hpnl, hu, hs, -⟩ := assignedOrder_spec horder
    obtain ⟨-, holdK, ho, holdP, holdPnl, hol, holdS, -⟩ :=
      assignedOrder_spec hold
    rw [hor, holdK, hid, hexe, hp, hpnl, hu, hs, ho, holdP, holdPnl, hol, holdS]
  obtain ⟨orders, st, rfl, rfl, hk, hl⟩ := hpo.loopBound hi.bound
  obtain ⟨-, source, hso, heve, -, -, hf⟩ := hl.origin sig hsignal
  obtain ⟨raw, hraw, rfl⟩ := List.mem_map.mp hso
  rw [heve, withoutEpoch_sourceEpochOrder (hk raw hraw), hev] at hkey
  obtain ⟨stored, hst, hs⟩ := hingested
  apply hf stored hst
  rw [hs]
  unfold sourceEpochOrder
  split <;> simp [hkey]

end Order

section Ladder

/-- The rows of the example have different update times, so no digests are compared. -/
local instance ladderHexOrder : HexOrder := ⟨fun _ => 0⟩

def ladderDocument (avgPrice : Decimal) (orderTime orderUpdateTime : ℤ) : ApiOrder where
  symbol := "BTCUSDT"
  positionSide := .long
  side := .buy
  orderType := "LIMIT"
  executedQty := 1
  avgPrice := avgPrice
  totalPnl := 0
  orderTime := orderTime
  orderUpdateTime := orderUpdateTime
  extra := ""

def ladderOld : HistoryRow := ⟨0, ladderDocument 90 500 500⟩
def ladderFirst : HistoryRow := ⟨1, ladderDocument 100 1000 1000⟩
def ladderSecond : HistoryRow := ⟨2, ladderDocument 101 1000 1500⟩

def ladderStart : EventLog :=
  (okValue (do
    let order ← PublicLeaderOrder.fromApi "1" ladderOld.document
    EventLog.ingestOrders {} "1" [order] true 600000) (by decide)).1

def ladderAlone : HistoryResponse := ⟨500, [[ladderFirst, ladderOld]], 1200000⟩
def ladderTogether : HistoryResponse :=
  ⟨1000, [[ladderSecond, ladderFirst, ladderOld]], 1600000⟩
def ladderUnchanged : HistoryResponse := ⟨1000, [[ladderFirst, ladderOld]], 1600000⟩

def ladderPoll (log : EventLog) (response : HistoryResponse) :
    Except String (EventLog × List NormalizedSignal) := do
  let orders ← orderHistorySinceSnapshot "1" response.watermark 100 20 response.documents
  log.ingestOrders "1" orders false response.observedAt

def ladderAlonePoll : EventLog × List NormalizedSignal :=
  okValue (ladderPoll ladderStart ladderAlone) (by with_unfolding_all decide)

def ladderTogetherPoll : EventLog × List NormalizedSignal :=
  okValue (ladderPoll ladderAlonePoll.1 ladderTogether) (by with_unfolding_all decide)

def ladderUnchangedPoll : EventLog × List NormalizedSignal :=
  okValue (ladderPoll ladderAlonePoll.1 ladderUnchanged) (by with_unfolding_all decide)

def ladderHistory : History :=
  Function.update (Function.update (Function.update (fun _ => []) 0 [ladderOld.document])
    1 [ladderFirst.document]) 2 [ladderSecond.document]

theorem historyRun_ladderStart (allowed : List HistoryResponse → HistoryResponse → Prop) :
    HistoryRun allowed "1" ladderHistory [] ladderStart [] := by
  have ho : HistoryRun allowed "1" (Function.update (fun _ => []) 0 [ladderOld.document]) []
      ladderStart [] :=
    .grow (.start ladderStart) (by decide) (by simp)
  have hf : HistoryRun allowed "1" (Function.update
      (Function.update (fun _ => []) 0 [ladderOld.document]) 1 [ladderFirst.document]) []
      ladderStart [] :=
    .grow ho (by decide) (by simp)
  exact .grow hf (by decide) (by simp)

theorem historyPoll_ladder {log : EventLog} {resp : HistoryResponse}
    {result : EventLog × List NormalizedSignal} (hw : log.sourceWatermark "1" = some resp.watermark)
    (hr : log.latestReset "1" = none)
    (hro : ∀ page ∈ resp.pages, ∀ row ∈ page, row.document ∈ ladderHistory row.orderId)
    (hp : ladderPoll log resp = .ok result) :
    HistoryPoll "1" ladderHistory log resp result.1 result.2 := by
  unfold ladderPoll at hp
  rw [bind_eq_ok_iff] at hp
  obtain ⟨orders, hs, hi⟩ := hp
  exact ⟨hw, by rw [hr]; rfl, hro, orders, 100, 20, hs, hi⟩

theorem historyRun_ladderAlone (allowed : List HistoryResponse → HistoryResponse → Prop)
    (ha : allowed [] ladderAlone) :
    HistoryRun allowed "1" ladderHistory [ladderAlone] ladderAlonePoll.1
      ([] ++ ladderAlonePoll.2) := by
  have hp : ladderPoll ladderStart ladderAlone = .ok ladderAlonePoll := eq_ok_okValue _
  refine .poll (historyRun_ladderStart allowed) ha (historyPoll_ladder ?_ ?_ ?_ hp)
  · decide
  · decide
  · decide

theorem ladder_unchanged_emits_once : emittedForOrder "1" [ladderUnchanged, ladderAlone] 1
      ([] ++ ladderAlonePoll.2 ++ ladderUnchangedPoll.2) ≤ 1 := by
  have hp : ladderPoll ladderAlonePoll.1 ladderUnchanged = .ok ladderUnchangedPoll :=
    eq_ok_okValue _
  have hr := HistoryRun.poll
    (historyRun_ladderAlone (StableBatches "1") (by unfold StableBatches SameBatch; decide))
    (by unfold StableBatches SameBatch; decide)
    (historyPoll_ladder (by with_unfolding_all decide) (by with_unfolding_all decide)
    (by decide) hp)
  exact ((emitted_le_executed_of_stableBatches hr).1 1).trans (by decide)

/-- Read again together with its neighbour, the row gets another identity and emits its
unit a second time. -/
theorem ladder_neighbour_emits_twice : ¬ ∀ [HexOrder] (leader : String) (hist : History)
        (responses : List HistoryResponse) (log : EventLog) (signals : List NormalizedSignal),
        HistoryRun (fun _ _ => True) leader hist responses log signals →
        ∀ orderId, emittedForOrder leader responses orderId signals ≤
          currentExecuted hist orderId := by
  intro hc
  have hp : ladderPoll ladderAlonePoll.1 ladderTogether = .ok ladderTogetherPoll :=
    eq_ok_okValue _
  have hr := HistoryRun.poll (historyRun_ladderAlone (fun _ _ => True) trivial) trivial
    (historyPoll_ladder (by with_unfolding_all decide) (by with_unfolding_all decide)
    (by decide) hp)
  exact absurd (@hc ladderHexOrder _ _ _ _ _ hr 1) (by with_unfolding_all decide)

end Ladder

end AiQuant.CopyTrading
