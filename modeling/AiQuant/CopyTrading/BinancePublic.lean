import AiQuant.CopyTrading.Ingest

/-! Reading the public order history (`copy_trading/binance_public.py`).  The endpoint
omits the exchange's order id.  Rows of one page that would collide are told apart by
their average price, so the identity of a row can depend on the other rows of its
page. -/
namespace AiQuant.CopyTrading
open AiQuant.Lib

/-- `_deduplicate_exact_order_events` and the merging of pages: the first row of an
event wins. -/
def setDefaultByEvent (orders : List PublicLeaderOrder) (order : PublicLeaderOrder) :
    List PublicLeaderOrder :=
  if orders.any (·.eventKey = order.eventKey) then orders else orders ++ [order]

def deduplicateExactOrderEvents (orders : List PublicLeaderOrder) : List PublicLeaderOrder :=
  orders.foldl setDefaultByEvent []

/-- The rows of a page with the derived identity of `order`. -/
def identityGroup (orders : List PublicLeaderOrder) (order : PublicLeaderOrder) :
    List PublicLeaderOrder :=
  orders.filter (·.identityKey = order.identityKey)

/-- Colliding rows that are provably distinct: a `LIMIT` ladder, or `MARKET` rows of one
update, at different prices. -/
def isBatch (group : List PublicLeaderOrder) : Bool :=
  let pricesAreUnique := (group.map (·.averagePrice)).dedup.length = group.length
  let isLimitLadder := group.all (·.orderType = "LIMIT") && pricesAreUnique
  let isAtomicMarketBatch := group.all (·.orderType = "MARKET") &&
    (group.map (·.updateTimeMs)).dedup.length = 1 && pricesAreUnique
  2 ≤ group.length && (isLimitLadder || isAtomicMarketBatch)

def disambiguateOrder (orders : List PublicLeaderOrder) (order : PublicLeaderOrder) :
    Except String PublicLeaderOrder :=
  if isBatch (identityGroup orders order) then order.withIdentityDiscriminator else .ok order

/-- The groups are visited one after another; every error has the same text. -/
def disambiguateSameTimestampBatchOrders (orders : List PublicLeaderOrder) :
    Except String (List PublicLeaderOrder) :=
  orders.mapM (disambiguateOrder orders)

def guardedOrders (identityGuardAfterMs : Option ℤ) (orders : List PublicLeaderOrder) :
    List PublicLeaderOrder :=
  match identityGuardAfterMs with
  | none => orders
  | some after => orders.filter (after ≤ ·.updateTimeMs)

/-- `_order_history_page`, past the checks of the response's shape. -/
def orderHistoryPage (leadPortfolioId : String) (rows : List ApiOrder)
    (identityGuardAfterMs : Option ℤ) : Except String (List PublicLeaderOrder) := do
  let parsed ← rows.mapM (PublicLeaderOrder.fromApi leadPortfolioId)
  let orders ← disambiguateSameTimestampBatchOrders (deduplicateExactOrderEvents parsed)
  let guarded := guardedOrders identityGuardAfterMs orders
  if (guarded.map (·.identityKey)).dedup.length ≠ guarded.length then
    throw "COPY_ORDER_IDENTITY_AMBIGUOUS"
  return orders

/-- The loop of `_order_history_since_snapshot` over the pages still to read.  A page
that the endpoint does not have is empty and ends the loop uncovered. -/
def historyLoop (leadPortfolioId : String) (afterUpdateTimeMs : ℤ) (pageSize : ℕ) :
    Bool → List PublicLeaderOrder → List (List ApiOrder) → Except String (List PublicLeaderOrder)
  | _, _, [] => .error "COPY_ORDER_HISTORY_WATERMARK_NOT_COVERED"
  | first, merged, rows :: rest => do
    let page ← orderHistoryPage leadPortfolioId rows (some afterUpdateTimeMs)
    if first && page.isEmpty then
      throw "COPY_ORDER_HISTORY_WATERMARK_NOT_COVERED"
    let merged := page.foldl setDefaultByEvent merged
    if page.any (·.updateTimeMs ≤ afterUpdateTimeMs) then return merged
    else if page.length < pageSize then throw "COPY_ORDER_HISTORY_WATERMARK_NOT_COVERED"
    else historyLoop leadPortfolioId afterUpdateTimeMs pageSize false merged rest

def assignedOrder (leadPortfolioId : String) (rows : List ApiOrder) (document : ApiOrder) :
    Except String PublicLeaderOrder := do
  let parsed ← rows.mapM (PublicLeaderOrder.fromApi leadPortfolioId)
  let order ← PublicLeaderOrder.fromApi leadPortfolioId document
  disambiguateOrder (deduplicateExactOrderEvents parsed) order

def inBatch (leadPortfolioId : String) (rows : List ApiOrder) (document : ApiOrder) : Bool :=
  match rows.mapM (PublicLeaderOrder.fromApi leadPortfolioId),
      PublicLeaderOrder.fromApi leadPortfolioId document with
  | .ok parsed, .ok order => isBatch (identityGroup (deduplicateExactOrderEvents parsed) order)
  | _, _ => false

/-- The order as `disambiguateOrder` returns it, unless it refuses the discriminator. -/
def separatedOrder (orders : List PublicLeaderOrder) (order : PublicLeaderOrder) :
    PublicLeaderOrder :=
  if isBatch (identityGroup orders order) then order.discriminated else order

theorem disambiguateOrder_eq (orders : List PublicLeaderOrder) (order : PublicLeaderOrder) :
    disambiguateOrder orders order =
      if isBatch (identityGroup orders order) && !order.discriminable then
        .error "COPY_ORDER_IDENTITY_DISCRIMINATOR_INVALID"
      else .ok (separatedOrder orders order) := by
  unfold disambiguateOrder separatedOrder PublicLeaderOrder.withIdentityDiscriminator
  cases isBatch (identityGroup orders order) with
  | false => rfl
  | true => cases order.discriminable <;> rfl

theorem eq_separatedOrder {orders : List PublicLeaderOrder} {order result : PublicLeaderOrder}
    (hd : disambiguateOrder orders order = .ok result) : result = separatedOrder orders order := by
  rw [disambiguateOrder_eq] at hd
  split at hd
  · cases hd
  · cases hd
    rfl

variable {order : PublicLeaderOrder}

theorem mem_of_mem_setDefaultByEvent {merged orders : List PublicLeaderOrder}
    (hmem : order ∈ orders.foldl setDefaultByEvent merged) : order ∈ merged ∨ order ∈ orders := by
  induction orders generalizing merged with
  | nil => exact Or.inl hmem
  | cons first rest ih =>
    rcases ih hmem with hm | hr
    · unfold setDefaultByEvent at hm
      split at hm
      · exact Or.inl hm
      · rw [List.mem_append, List.mem_singleton] at hm
        rcases hm with hm | rfl
        · exact Or.inl hm
        · exact Or.inr List.mem_cons_self
    · exact Or.inr (List.mem_cons_of_mem _ hr)

variable {leader : String}

theorem exists_assignedOrder_of_mem_page {rows : List ApiOrder}
    {guard : Option ℤ} {page : List PublicLeaderOrder}
    (hpage : orderHistoryPage leader rows guard = .ok page) (hm : order ∈ page) :
    ∃ doc ∈ rows, assignedOrder leader rows doc = .ok order := by
  unfold orderHistoryPage at hpage
  rw [bind_eq_ok_iff] at hpage
  obtain ⟨parsed, hp, hpage⟩ := hpage
  rw [bind_eq_ok_iff] at hpage
  obtain ⟨orders, ho, hpage⟩ := hpage
  dsimp only at hpage
  split at hpage
  · cases hpage
  · cases hpage
    obtain ⟨raw, hraw, ha⟩ := exists_of_mem_mapM ho hm
    have hr := (mem_of_mem_setDefaultByEvent hraw).resolve_left (by simp)
    obtain ⟨doc, hd, hpa⟩ := exists_of_mem_mapM hp hr
    refine ⟨doc, hd, ?_⟩
    simp only [assignedOrder, hp, hpa]
    exact ha

theorem exists_page_of_mem_historyLoop {post : ℤ} {pageSize : ℕ}
    {first : Bool} {merged result : List PublicLeaderOrder} {pages : List (List ApiOrder)}
    (hl : historyLoop leader post pageSize first merged pages = .ok result)
    (hmem : order ∈ result) : order ∈ merged ∨ ∃ rows ∈ pages, ∃ doc ∈ rows,
      assignedOrder leader rows doc = .ok order := by
  induction pages generalizing first merged with
  | nil => cases hl
  | cons rows rest ih =>
    simp only [historyLoop] at hl
    rw [bind_eq_ok_iff] at hl
    obtain ⟨page, hp, hl⟩ := hl
    have hh : order ∈ page.foldl setDefaultByEvent merged → order ∈ merged ∨
        ∃ found ∈ rows :: rest, ∃ doc ∈ found, assignedOrder leader found doc = .ok order := by
      intro hfo
      rcases mem_of_mem_setDefaultByEvent hfo with hm | hn
      · exact Or.inl hm
      · exact Or.inr ⟨rows, List.mem_cons_self, exists_assignedOrder_of_mem_page hp hn⟩
    split at hl
    · cases hl
    · split at hl
      · cases hl
        exact hh hmem
      · split at hl
        · cases hl
        · rcases ih hl with hm | ⟨found, hf, ha⟩
          · exact hh hm
          · exact Or.inr ⟨found, List.mem_cons_of_mem _ hf, ha⟩

theorem assignedOrder_spec {rows : List ApiOrder} {doc : ApiOrder}
    (ha : assignedOrder leader rows doc = .ok order) :
    order.leadPortfolioId = leader ∧ order.Keyed ∧
      order.executedQuantity = doc.executedQty ∧
      order.averagePrice = doc.avgPrice ∧ order.totalPnl = doc.totalPnl ∧
      order.updateTimeMs = doc.orderUpdateTime ∧ order.spelling = doc.spelling ∧
      order.identityKey =
        let plain := Digest.orderIdentity leader doc.orderTime doc.orderType
          doc.positionSide doc.side doc.symbol
        if inBatch leader rows doc then
          .discriminated doc.orderType doc.avgPrice doc.spelling.averagePrice
            plain
        else plain := by
  unfold assignedOrder at ha
  rw [bind_eq_ok_iff] at ha
  obtain ⟨parsed, hpa, ha⟩ := ha
  rw [bind_eq_ok_iff] at ha
  obtain ⟨raw, hr, ha⟩ := ha
  have hf : raw.leadPortfolioId = leader ∧ raw.Keyed ∧
      raw.executedQuantity = doc.executedQty ∧ raw.averagePrice = doc.avgPrice ∧
      raw.totalPnl = doc.totalPnl ∧ raw.updateTimeMs = doc.orderUpdateTime ∧
      raw.spelling = doc.spelling ∧ raw.orderType = doc.orderType ∧
      raw.identityKey = .orderIdentity leader doc.orderTime doc.orderType doc.positionSide doc.side
        doc.symbol := by
    unfold PublicLeaderOrder.fromApi at hr
    repeat' split at hr
    all_goals cases hr
    exact ⟨rfl, rfl, rfl, rfl, rfl, rfl, rfl, rfl, rfl⟩
  obtain ⟨hl, hk, he, hp, hpnl, hu, hs, ht, hi⟩ := hf
  rw [eq_separatedOrder ha]
  simp only [inBatch, hpa, hr, separatedOrder]
  split
  · refine ⟨hl, rfl, he, hp, hpnl, hu, hs, ?_⟩
    simp only [PublicLeaderOrder.discriminated, ht, hp, hs, hi]
  · exact ⟨hl, hk, he, hp, hpnl, hu, hs, hi⟩

section Snapshot

variable [HexOrder]

def orderHistorySinceSnapshot (leadPortfolioId : String) (afterUpdateTimeMs : ℤ)
    (pageSize maximumPages : ℕ) (pages : List (List ApiOrder)) :
    Except String (List PublicLeaderOrder) := do
  let merged ← historyLoop leadPortfolioId afterUpdateTimeMs pageSize true []
    (pages.take maximumPages)
  return sortedOrders (merged.filter (afterUpdateTimeMs ≤ ·.updateTimeMs))

/-- `order_history_since`: an ambiguous snapshot is read again, up to the number of
attempts. -/
def orderHistorySince (leadPortfolioId : String) (afterUpdateTimeMs : ℤ)
    (pageSize maximumPages : ℕ) :
    List (List (List ApiOrder)) → Except String (List PublicLeaderOrder)
  | [] => .error "COPY_ORDER_IDENTITY_AMBIGUOUS"
  | pages :: retries =>
    match orderHistorySinceSnapshot leadPortfolioId afterUpdateTimeMs pageSize maximumPages pages with
    | .ok orders => .ok orders
    | .error reason =>
      if reason ≠ "COPY_ORDER_IDENTITY_AMBIGUOUS" ∨ retries = [] then .error reason
      else orderHistorySince leadPortfolioId afterUpdateTimeMs pageSize maximumPages retries

theorem exists_assignedOrder_of_mem_snapshot {leader : String} {post : ℤ}
    {pageSize maximumPages : ℕ} {pages : List (List ApiOrder)} {orders : List PublicLeaderOrder}
    {order : PublicLeaderOrder}
    (hs : orderHistorySinceSnapshot leader post pageSize maximumPages pages =
      .ok orders) (hm : order ∈ orders) : ∃ rows ∈ pages, ∃ doc ∈ rows,
      assignedOrder leader rows doc = .ok order := by
  unfold orderHistorySinceSnapshot at hs
  rw [bind_eq_ok_iff] at hs
  obtain ⟨merged, hl, hs⟩ := hs
  cases hs
  rw [mem_sortedOrders, List.mem_filter] at hm
  obtain ⟨rows, hr, hd⟩ :=
    (exists_page_of_mem_historyLoop hl hm.1).resolve_left (by simp)
  exact ⟨rows, List.mem_of_mem_take hr, hd⟩

end Snapshot

end AiQuant.CopyTrading
