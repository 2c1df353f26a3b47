import AiQuant.CopyTrading.HistoryPages

/-! Catching up with a public order history that does not change while it is read: what is
returned, and how that depends on where the pages are cut. -/
namespace AiQuant.CopyTrading
open AiQuant.Lib

/-- The first pages of a static history, as consecutive slices of one list. -/
def historyPages (pageSize : ℕ) : ℕ → List ApiOrder → List (List ApiOrder)
  | 0, _ => []
  | pages + 1, history =>
    history.take pageSize :: historyPages pageSize pages (history.drop pageSize)

/-- Some row at or before the watermark lies within the page limit. -/
def Reached (afterUpdateTimeMs : ℤ) (pageSize maximumPages : ℕ) (history : List ApiOrder) :
    Prop :=
  ∃ document ∈ history.take (pageSize * maximumPages), document.orderUpdateTime ≤ afterUpdateTimeMs

instance (afterUpdateTimeMs : ℤ) (pageSize maximumPages : ℕ) (history : List ApiOrder) :
    Decidable (Reached afterUpdateTimeMs pageSize maximumPages history) :=
  inferInstanceAs (Decidable (∃ document ∈ history.take (pageSize * maximumPages),
    document.orderUpdateTime ≤ afterUpdateTimeMs))

theorem length_historyPages (pageSize count : ℕ) (history : List ApiOrder) :
    (historyPages pageSize count history).length = count := by
  induction count generalizing history with
  | zero => rfl
  | succ count ih => simp [historyPages, ih]

theorem flatten_historyPages (pageSize count : ℕ) (history : List ApiOrder) :
    (historyPages pageSize count history).flatten = history.take (pageSize * count) := by
  induction count generalizing history with
  | zero => simp [historyPages]
  | succ count ih =>
    rw [historyPages, List.flatten_cons, ih, Nat.mul_succ, Nat.add_comm, List.take_add]

theorem any_reaches_historyPages {since : ℤ} {pageSize count : ℕ}
    {history : List ApiOrder} : (historyPages pageSize count history).any (reaches since) = true ↔
      Reached since pageSize count history := by
  unfold Reached
  rw [← flatten_historyPages]
  simp only [reaches, List.any_eq_true, decide_eq_true_eq, List.mem_flatten]
  tauto

theorem readPages_initial (since : ℤ) (pages : List (List ApiOrder)) :
    readPages since pages <+: pages := by
  induction pages with
  | nil => exact List.prefix_rfl
  | cons rows rest ih =>
    unfold readPages
    split
    · exact List.prefix_append [rows] rest
    · exact List.prefix_cons_inj rows |>.mpr ih

theorem mem_history_of_readPages {since : ℤ} {pageSize count : ℕ} {history rows : List ApiOrder}
    {doc : ApiOrder} (hr : rows ∈ readPages since (historyPages pageSize count history))
    (hd : doc ∈ rows) : doc ∈ history := by
  have hp := (readPages_initial _ _).subset hr
  have hf := List.mem_flatten.mpr ⟨rows, hp, hd⟩
  rw [flatten_historyPages] at hf
  exact List.mem_of_mem_take hf

section Returned

variable [HexOrder] {leader : String} {since : ℤ} {pageSize : ℕ}
  {pages : List (List ApiOrder)}

def caughtUpOrders (leadPortfolioId : String) (afterUpdateTimeMs : ℤ)
    (pages : List (List ApiOrder)) : List PublicLeaderOrder :=
  sortedOrders ((((readPages afterUpdateTimeMs pages).flatMap (pageOrders leadPortfolioId)).foldl
    setDefaultByEvent []).filter (afterUpdateTimeMs ≤ ·.updateTimeMs))

theorem caughtUpOrders_nodup (leader : String) (since : ℤ) (pages : List (List ApiOrder)) :
    ((caughtUpOrders leader since pages).map (·.eventKey)).Nodup := by
  have hm := deduplicated_nodup ((readPages since pages).flatMap (pageOrders leader))
  rw [caughtUpOrders, ((sortedOrders_perm _).map _).nodup_iff]
  exact hm.sublist (List.filter_sublist.map _)

theorem mem_caughtUpOrders (hc : firstFault leader since pageSize pages = none)
    {ord : PublicLeaderOrder} (hm : ord ∈ caughtUpOrders leader since pages) :
    ∃ rows ∈ readPages since pages, ∃ doc ∈ rows, since ≤ doc.orderUpdateTime ∧
        OrderOf leader rows doc ord := by
  rw [caughtUpOrders, mem_sortedOrders, List.mem_filter, decide_eq_true_eq] at hm
  have hp := (mem_of_mem_setDefaultByEvent hm.1).resolve_left (by simp)
  obtain ⟨rows, hr, hpa⟩ := List.mem_flatMap.mp hp
  obtain ⟨doc, hd, hof⟩ :=
    exists_document_of_mem_pageOrders (malformedRow_of_firstFault hc hr) hpa
  exact ⟨rows, hr, doc, hd, hof.updated ▸ hm.2, hof⟩

theorem exists_mem_caughtUpOrders (hc : firstFault leader since pageSize pages = none)
    {rows : List ApiOrder} (hr : rows ∈ readPages since pages)
    {doc : ApiOrder} (hd : doc ∈ rows) (ha : since ≤ doc.orderUpdateTime) :
    ∃ ord ∈ caughtUpOrders leader since pages,
      ord.keys = doc.keys leader (inBatch leader rows doc) ∧
        ord.rowKey = doc.eventKey leader := by
  obtain ⟨read, hre, hof⟩ :=
    exists_order_of_mem_rows (malformedRow_of_firstFault hc hr) hd
  have hkey := eventKey_mem_foldl_setDefaultByEvent.mpr (Or.inr (List.mem_map_of_mem
    (List.mem_flatMap.mpr ⟨rows, hr, hre⟩)) :
      read.eventKey ∈ ([] : List PublicLeaderOrder).map (·.eventKey) ∨ _)
  obtain ⟨ord, hor, he⟩ := List.mem_map.mp hkey
  -- the order that won for this event comes from a page too
  obtain ⟨winner, hw, hp⟩ := List.mem_flatMap.mp
    ((mem_of_mem_setDefaultByEvent hor).resolve_left (by simp))
  obtain ⟨other, hot, ho⟩ :=
    exists_document_of_mem_pageOrders (malformedRow_of_firstFault hc hw) hp
  have hk : other.keys leader (inBatch leader winner other) =
      doc.keys leader (inBatch leader rows doc) := by
    apply ApiOrder.keys_eq_of_event
    rw [← ho.keys, ← hof.keys]
    exact he
  have hs := (ApiOrder.keys_eq_iff.mp hk).1
  refine ⟨ord, ?_, ho.keys.trans hk, ho.row.trans hs⟩
  rw [caughtUpOrders, mem_sortedOrders, List.mem_filter, decide_eq_true_eq, ho.updated,
    ApiOrder.orderUpdateTime_of_eventKey hs]
  exact ⟨hor, ha⟩

theorem orderHistorySinceSnapshot_eq (hs : 1 ≤ pageSize) (maximumPages : ℕ)
    (history : List ApiOrder) : orderHistorySinceSnapshot leader since pageSize maximumPages
        (historyPages pageSize maximumPages history) =
      match firstFault leader since pageSize
          (historyPages pageSize maximumPages history) with
      | some reason => .error reason
      | none =>
        if Reached since pageSize maximumPages history then
          .ok (caughtUpOrders leader since (historyPages pageSize maximumPages history))
        else .error "COPY_ORDER_HISTORY_WATERMARK_NOT_COVERED" := by
  unfold orderHistorySinceSnapshot
  rw [List.take_of_length_le (length_historyPages _ _ _).le, historyLoop_eq hs]
  cases firstFault leader since pageSize (historyPages pageSize maximumPages history) with
  | some reason => rfl
  | none =>
    simp only [any_reaches_historyPages]
    split <;> rfl

theorem orderHistorySince_replicate {attempts : ℕ} (ha : 1 ≤ attempts) (maximumPages : ℕ)
    (pages : List (List ApiOrder)) : orderHistorySince leader since pageSize maximumPages
        (List.replicate attempts pages) =
      orderHistorySinceSnapshot leader since pageSize maximumPages pages := by
  induction attempts, ha using Nat.le_induction with
  | base =>
    simp only [List.replicate_one, orderHistorySince, or_true, if_true]
    cases orderHistorySinceSnapshot leader since pageSize maximumPages pages <;> rfl
  | succ attempts ha ih =>
    rw [List.replicate_succ, orderHistorySince, ih]
    cases hr : orderHistorySinceSnapshot leader since pageSize maximumPages pages with
    | ok orders => rfl
    | error reason => exact ite_self _

end Returned

section Cut

variable (leader : String) (since : ℤ)

/-- Two catch-ups fail with the same error, or return the same orders with the same
identity and event keys. -/
def SameOutcome : Except String (List PublicLeaderOrder) →
    Except String (List PublicLeaderOrder) → Prop
  | .ok left, .ok right => (left.map (·.keys)).Perm (right.map (·.keys))
  | .error left, .error right => left = right
  | _, _ => False

instance : (left right : Except String (List PublicLeaderOrder)) →
    Decidable (SameOutcome left right)
  | .ok left, .ok right =>
    inferInstanceAs (Decidable ((left.map (·.keys)).Perm (right.map (·.keys))))
  | .error left, .error right => inferInstanceAs (Decidable (left = right))
  | .ok _, .error _ => isFalse id
  | .error _, .ok _ => isFalse id

def StandsAs (pages : List (List ApiOrder)) (document : ApiOrder) (batch : Bool) : Prop :=
  ∃ rows ∈ readPages since pages, ∃ other ∈ rows,
    other.eventKey leader = document.eventKey leader ∧
      inBatch leader rows other = batch

instance (pages : List (List ApiOrder)) (document : ApiOrder) (batch : Bool) :
    Decidable (StandsAs leader since pages document batch) :=
  inferInstanceAs (Decidable (∃ rows ∈ readPages since pages, ∃ other ∈ rows,
    other.eventKey leader = document.eventKey leader ∧
      inBatch leader rows other = batch))

/-- Both ways of cutting meet the same first defect, or none, and then every row from the
watermark on is read inside a batch, and outside one, by both or by neither. -/
structure CutAlike (history : List ApiOrder) (leftSize leftPages rightSize rightPages : ℕ) :
    Prop where
  faults :
    firstFault leader since leftSize
        (historyPages leftSize leftPages history) =
      firstFault leader since rightSize
        (historyPages rightSize rightPages history)
  batches :
    firstFault leader since leftSize
        (historyPages leftSize leftPages history) = none →
      ∀ document ∈ history, since ≤ document.orderUpdateTime → ∀ batch,
        (StandsAs leader since (historyPages leftSize leftPages history)
            document batch ↔
          StandsAs leader since (historyPages rightSize rightPages history)
            document batch)

variable {leader since} [HexOrder]

theorem keys_mem_caughtUpOrders {pageSize maximumPages : ℕ} {history : List ApiOrder}
    (hc : firstFault leader since pageSize
      (historyPages pageSize maximumPages history) = none) {keys : Digest × Digest} :
    keys ∈ (caughtUpOrders leader since (historyPages pageSize maximumPages history)).map (·.keys) ↔
      ∃ doc ∈ history, since ≤ doc.orderUpdateTime ∧ ∃ batch,
        StandsAs leader since (historyPages pageSize maximumPages history)
          doc batch ∧ keys = doc.keys leader batch := by
  constructor
  · intro hk
    obtain ⟨ord, ho, rfl⟩ := List.mem_map.mp hk
    obtain ⟨rows, hr, doc, hd, ha, hof⟩ := mem_caughtUpOrders hc ho
    exact ⟨doc, mem_history_of_readPages hr hd, ha, _, ⟨rows, hr, doc, hd, rfl, rfl⟩, hof.keys⟩
  · rintro ⟨doc, -, ha, batch, ⟨rows, hr, other, hot, he, rfl⟩, rfl⟩
    rw [← ApiOrder.orderUpdateTime_of_eventKey he] at ha
    obtain ⟨ord, ho, hk, -⟩ := exists_mem_caughtUpOrders hc hr hot ha
    refine List.mem_map.mpr ⟨ord, ho, hk.trans ?_⟩
    exact ApiOrder.keys_eq_iff.mpr ⟨he, rfl⟩

theorem caughtUpOrders_keys_nodup (pages : List (List ApiOrder)) :
    ((caughtUpOrders leader since pages).map (·.keys)).Nodup := by
  have he := caughtUpOrders_nodup leader since pages
  apply List.Nodup.of_map Prod.snd
  rw [List.map_map]
  exact he

theorem caughtUpOrders_perm_iff {leftSize leftPages rightSize rightPages : ℕ}
    {history : List ApiOrder} (hl : firstFault leader since leftSize
      (historyPages leftSize leftPages history) = none) (hr : firstFault leader since rightSize
      (historyPages rightSize rightPages history) = none) : ((caughtUpOrders leader since
        (historyPages leftSize leftPages history)).map (·.keys)).Perm ((caughtUpOrders leader since
        (historyPages rightSize rightPages history)).map (·.keys)) ↔
      ∀ doc ∈ history, since ≤ doc.orderUpdateTime → ∀ batch,
        (StandsAs leader since (historyPages leftSize leftPages history) doc batch ↔
          StandsAs leader since (historyPages rightSize rightPages history) doc batch) := by
  -- a key names one row and one way of standing
  have hst {pageSize maximumPages : ℕ} (hc : firstFault leader since pageSize
        (historyPages pageSize maximumPages history) = none) {doc : ApiOrder}
      (hd : doc ∈ history)
      (ha : since ≤ doc.orderUpdateTime) (batch : Bool) :
      doc.keys leader batch ∈ (caughtUpOrders leader since
          (historyPages pageSize maximumPages history)).map (·.keys) ↔
        StandsAs leader since (historyPages pageSize maximumPages history)
          doc batch := by
    rw [keys_mem_caughtUpOrders hc]
    constructor
    · rintro ⟨other, -, -, otherBatch, ⟨rows, hro, read, hre, he, hb⟩, hk⟩
      obtain ⟨hsa, rfl⟩ := ApiOrder.keys_eq_iff.mp hk
      exact ⟨rows, hro, read, hre, he.trans hsa.symm, hb⟩
    · intro hs
      exact ⟨doc, hd, ha, batch, hs, rfl⟩
  rw [List.perm_ext_iff_of_nodup (caughtUpOrders_keys_nodup _) (caughtUpOrders_keys_nodup _)]
  constructor
  · intro hsa doc hd ha batch
    rw [← hst hl hd ha, ← hst hr hd ha]
    exact hsa _
  · intro hsa keys
    rw [keys_mem_caughtUpOrders hl, keys_mem_caughtUpOrders hr]
    constructor
    · rintro ⟨doc, hd, ha, batch, hs, rfl⟩
      exact ⟨doc, hd, ha, batch, (hsa doc hd ha batch).mp hs, rfl⟩
    · rintro ⟨doc, hd, ha, batch, hs, rfl⟩
      exact ⟨doc, hd, ha, batch, (hsa doc hd ha batch).mpr hs, rfl⟩

end Cut

section Complete

variable (leader : String) (since : ℤ)

structure CompleteSince (history : List ApiOrder) (orders : List PublicLeaderOrder) : Prop where
  once : (orders.map (·.rowKey)).Nodup
  every : ∀ document ∈ history, since ≤ document.orderUpdateTime →
    document.eventKey leader ∈ orders.map (·.rowKey)
  only : ∀ order ∈ orders, since ≤ order.updateTimeMs ∧
    order.rowKey ∈ history.map (·.eventKey leader)

/-- A catch-up that reaches the watermark and reports no collision is complete, and one that
does not reach it says so. -/
def CatchesUp [HexOrder] (pageSize maximumPages : ℕ) (history : List ApiOrder) : Prop :=
  let result := orderHistorySinceSnapshot leader since pageSize maximumPages
    (historyPages pageSize maximumPages history)
  (Reached since pageSize maximumPages history →
    result ≠ .error "COPY_ORDER_IDENTITY_AMBIGUOUS" →
      ∃ orders, result = .ok orders ∧
        CompleteSince leader since history orders) ∧
  (¬Reached since pageSize maximumPages history →
    result = .error "COPY_ORDER_HISTORY_WATERMARK_NOT_COVERED")

/-- The pages up to the covering one hold what a catch-up needs: none is defective (in
particular none before the covering page repeats a row), no row at the watermark lies only
behind them, and no row from the watermark on is read inside a batch here and outside one
there. -/
structure ReadsWhole (pageSize maximumPages : ℕ) (history : List ApiOrder) : Prop where
  sound : firstFault leader since pageSize
    (historyPages pageSize maximumPages history) = none
  ties : ∀ document ∈ history, document.orderUpdateTime = since →
    ∃ rows ∈ readPages since (historyPages pageSize maximumPages history),
      ∃ other ∈ rows, other.eventKey leader = document.eventKey leader
  batches : ∀ document ∈ history, since ≤ document.orderUpdateTime →
    ¬(StandsAs leader since (historyPages pageSize maximumPages history)
        document true ∧
      StandsAs leader since (historyPages pageSize maximumPages history)
        document false)

variable {leader since} {pageSize maximumPages : ℕ}
  {history : List ApiOrder}

omit leader in
theorem exists_reaches_readPages {pages : List (List ApiOrder)}
    (ha : pages.any (reaches since) = true) :
    ∃ rows ∈ readPages since pages, reaches since rows = true := by
  induction pages with
  | nil => cases ha
  | cons rows rest ih =>
    unfold readPages
    split
    next hr => exact ⟨rows, List.mem_singleton_self rows, hr⟩
    next hr =>
      rw [List.any_cons, Bool.eq_false_iff.mpr hr, Bool.false_or] at ha
      obtain ⟨found, hf, hc⟩ := ih ha
      exact ⟨found, List.mem_cons_of_mem rows hf, hc⟩

theorem mem_readPages_of_newer
    (hs : history.Pairwise fun newer older => older.orderUpdateTime ≤ newer.orderUpdateTime)
    (hr : Reached since pageSize maximumPages history) {doc : ApiOrder}
    (hd : doc ∈ history) (hn : since < doc.orderUpdateTime) :
    ∃ rows ∈ readPages since (historyPages pageSize maximumPages history), doc ∈ rows := by
  let pages := historyPages pageSize maximumPages history
  have hp : (readPages since pages).flatten <+: history := by
    obtain ⟨unread, hu⟩ := readPages_initial since pages
    have hpa : pages.flatten <+: history := by
      rw [flatten_historyPages]
      exact List.take_prefix _ _
    refine List.IsPrefix.trans ⟨unread.flatten, ?_⟩ hpa
    rw [← List.flatten_append, hu]
  obtain ⟨covering, hco, hre⟩ :=
    exists_reaches_readPages (any_reaches_historyPages.mpr hr)
  obtain ⟨covered, hcov, ho⟩ := List.any_eq_true.mp hre
  obtain ⟨behind, hb⟩ := hp
  rw [← hb, List.mem_append] at hd
  rcases hd with hread | hu
  · obtain ⟨rows, hro, hm⟩ := List.mem_flatten.mp hread
    exact ⟨rows, hro, hm⟩
  · -- a row behind the covering page is no newer than the row that covers
    rw [← hb, List.pairwise_append] at hs
    have hle := hs.2.2 covered (List.mem_flatten.mpr ⟨covering, hco, hcov⟩) doc hu
    have hc : covered.orderUpdateTime ≤ since := of_decide_eq_true ho
    exact absurd hn (not_lt.mpr (hle.trans hc))

variable [HexOrder]

theorem readsWhole_of_completeSince (hc : firstFault leader since pageSize
      (historyPages pageSize maximumPages history) = none) (hco : CompleteSince leader since history
      (caughtUpOrders leader since (historyPages pageSize maximumPages history))) :
    ReadsWhole leader since pageSize maximumPages history := by
  refine ⟨hc, ?_, ?_⟩
  · intro doc hd ht
    obtain ⟨ord, hor, hrow⟩ := List.mem_map.mp (hco.every doc hd ht.ge)
    obtain ⟨rows, hro, other, hot, -, hof⟩ := mem_caughtUpOrders hc hor
    exact ⟨rows, hro, other, hot, hof.row.symm.trans hrow⟩
  · rintro doc - ha ⟨⟨inside, hi, left, hleft, hl, hleftB⟩, ⟨outside, ho, right, hright, hr, hrigh⟩⟩
    have hlef := (ApiOrder.orderUpdateTime_of_eventKey hl).symm ▸ ha
    have hrig := (ApiOrder.orderUpdateTime_of_eventKey hr).symm ▸ ha
    obtain ⟨leftOrder, hleftO, hle, hleftR⟩ :=
      exists_mem_caughtUpOrders hc hi hleft hlef
    obtain ⟨rightOrder, hri, hrightK, hrightR⟩ :=
      exists_mem_caughtUpOrders hc ho hright hrig
    have heq : leftOrder = rightOrder := by
      apply List.inj_on_of_nodup_map hco.once hleftO hri
      rw [hleftR, hrightR, hl, hr]
    rw [heq, hrightK] at hle
    have hb := (ApiOrder.keys_eq_iff.mp hle).2
    rw [hleftB, hrigh] at hb
    cases hb

theorem completeSince_of_readsWhole
    (hs : history.Pairwise fun newer older => older.orderUpdateTime ≤ newer.orderUpdateTime)
    (hre : Reached since pageSize maximumPages history)
    (hw : ReadsWhole leader since pageSize maximumPages history) :
    CompleteSince leader since history (caughtUpOrders leader since
        (historyPages pageSize maximumPages history)) := by
  have hc := hw.sound
  have hev := caughtUpOrders_nodup leader since (historyPages pageSize maximumPages history)
  refine ⟨?_, ?_, ?_⟩
  · rw [List.nodup_map_iff_inj_on (hev.of_map _)]
    intro left hleft right hright hrow
    obtain ⟨leftRows, hle, leftDocument, hlef, ha, hleftOf⟩ :=
      mem_caughtUpOrders hc hleft
    obtain ⟨rightRows, hri, rightDocument, hrig, -, hrigh⟩ :=
      mem_caughtUpOrders hc hright
    have he : rightDocument.eventKey leader = leftDocument.eventKey leader := by
      rw [← hleftOf.row, ← hrigh.row, hrow]
    have hb : inBatch leader leftRows leftDocument = inBatch leader rightRows rightDocument := by
      have hf := hw.batches leftDocument (mem_history_of_readPages hle hlef) ha
      by_contra hne
      apply hf
      cases hl : inBatch leader leftRows leftDocument with
      | true =>
        have hr : inBatch leader rightRows rightDocument = false := by
          rwa [hl, eq_comm, Bool.not_eq_true] at hne
        exact ⟨⟨leftRows, hle, leftDocument, hlef, rfl, hl⟩,
          ⟨rightRows, hri, rightDocument, hrig, he, hr⟩⟩
      | false =>
        have hr : inBatch leader rightRows rightDocument = true := by
          rwa [hl, eq_comm, Bool.not_eq_false] at hne
        exact ⟨⟨rightRows, hri, rightDocument, hrig, he, hr⟩,
          ⟨leftRows, hle, leftDocument, hlef, rfl, hl⟩⟩
    apply List.inj_on_of_nodup_map hev hleft hright
    have hk : left.keys = right.keys := by
      rw [hleftOf.keys, hrigh.keys]
      exact ApiOrder.keys_eq_iff.mpr ⟨he.symm, hb⟩
    exact congrArg Prod.snd hk
  · intro doc hd ha
    obtain ⟨rows, hro, other, hot, he⟩ :
        ∃ rows ∈ readPages since (historyPages pageSize maximumPages history), ∃ other ∈ rows,
            other.eventKey leader = doc.eventKey leader := by
      rcases ha.eq_or_lt with ht | hn
      · exact hw.ties doc hd ht.symm
      · obtain ⟨rows, hro, hm⟩ := mem_readPages_of_newer hs hre hd hn
        exact ⟨rows, hro, doc, hm, rfl⟩
    rw [← ApiOrder.orderUpdateTime_of_eventKey he] at ha
    obtain ⟨ord, ho, -, hrow⟩ := exists_mem_caughtUpOrders hc hro hot ha
    exact List.mem_map.mpr ⟨ord, ho, hrow.trans he⟩
  · intro ord ho
    obtain ⟨rows, hro, doc, hd, ha, hof⟩ := mem_caughtUpOrders hc ho
    refine ⟨hof.updated ▸ ha, List.mem_map.mpr ?_⟩
    exact ⟨doc, mem_history_of_readPages hro hd, hof.row.symm⟩

end Complete

section Example

local instance rowHexOrder : HexOrder := ⟨fun _ => 0⟩

def historyDocument (orderType : String) (avgPrice : Decimal)
    (orderTime orderUpdateTime : ℤ) : ApiOrder where
  symbol := "BTCUSDT"
  positionSide := .long
  side := .buy
  orderType := orderType
  executedQty := 1
  avgPrice := avgPrice
  totalPnl := 0
  orderTime := orderTime
  orderUpdateTime := orderUpdateTime
  extra := ""

def rungRows : List ApiOrder :=
  [historyDocument "LIMIT" 101 1000 1000, historyDocument "LIMIT" 100 1000 1000,
    historyDocument "LIMIT" 90 500 500]

def ambiguousRows : List ApiOrder :=
  [historyDocument "MARKET" 101 1000 1500, historyDocument "MARKET" 100 1000 1000,
    historyDocument "MARKET" 90 500 500]

def repeatedRows : List ApiOrder :=
  [historyDocument "LIMIT" 101 1000 1000, historyDocument "LIMIT" 101 1000 1000,
    historyDocument "LIMIT" 90 500 500]

def tiedRows : List ApiOrder :=
  [historyDocument "LIMIT" 101 1000 1000, historyDocument "LIMIT" 90 500 500,
    historyDocument "LIMIT" 80 400 500]

end Example

end AiQuant.CopyTrading
