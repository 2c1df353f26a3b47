import AiQuant.CopyTrading.BinancePublic

/-! What `_order_history_since_snapshot` computes, page by page.  A page either has a
defect (a row that does not parse, a price that cannot be a discriminator, a collision
that it cannot tell apart, or too few different rows before the watermark is covered) or
contributes its rows, each with the keys that the page gives it. -/
namespace AiQuant.CopyTrading
open AiQuant.Lib

/-- The identity that `from_api` derives from a row. -/
def ApiOrder.identityKey (leadPortfolioId : String) (document : ApiOrder) : Digest :=
  .orderIdentity leadPortfolioId document.orderTime document.orderType document.positionSide
    document.side document.symbol

/-- The normalized values of a row as one digest: equal for exactly repeated rows. -/
def ApiOrder.eventKey (leadPortfolioId : String) (document : ApiOrder) : Digest :=
  .orderEvent document.avgPrice document.executedQty (document.identityKey leadPortfolioId)
    document.totalPnl document.orderUpdateTime document.spelling

def ApiOrder.discriminable (document : ApiOrder) : Bool :=
  isDiscriminator (batchDiscriminator document.orderType document.avgPrice
    document.spelling.averagePrice)

def PublicLeaderOrder.rowKey (order : PublicLeaderOrder) : Digest :=
  .orderEvent order.averagePrice order.executedQuantity
    (.orderIdentity order.leadPortfolioId order.orderTimeMs order.orderType order.positionSide
      order.orderSide order.symbol)
    order.totalPnl order.updateTimeMs order.spelling

def PublicLeaderOrder.keys (order : PublicLeaderOrder) : Digest × Digest :=
  (order.identityKey, order.eventKey)

def ApiOrder.keys (leadPortfolioId : String) (document : ApiOrder) (batch : Bool) :
    Digest × Digest :=
  let identityKey := if batch then
      .discriminated document.orderType document.avgPrice document.spelling.averagePrice
        (document.identityKey leadPortfolioId)
    else document.identityKey leadPortfolioId
  (identityKey, .orderEvent document.avgPrice document.executedQty identityKey
    document.totalPnl document.orderUpdateTime document.spelling)

variable {leader : String}

theorem ApiOrder.keys_eq_iff {left right : ApiOrder} {leftBatch rightBatch : Bool} :
    left.keys leader leftBatch = right.keys leader rightBatch ↔
      left.eventKey leader = right.eventKey leader ∧
        leftBatch = rightBatch := by
  cases leftBatch <;> cases rightBatch <;>
    simp [ApiOrder.keys, ApiOrder.eventKey, ApiOrder.identityKey] <;> tauto

theorem ApiOrder.keys_eq_of_event {left right : ApiOrder} {leftBatch rightBatch : Bool}
    (he : (left.keys leader leftBatch).2 = (right.keys leader rightBatch).2) :
    left.keys leader leftBatch = right.keys leader rightBatch := by
  apply Prod.ext _ he
  simp only [ApiOrder.keys] at he ⊢
  injection he

variable {ord : PublicLeaderOrder}

theorem PublicLeaderOrder.fromApi_row {document : ApiOrder}
    (hp : PublicLeaderOrder.fromApi leader document = .ok ord) :
    ord.identityKey = document.identityKey leader ∧
      ord.eventKey = document.eventKey leader ∧
      ord.rowKey = document.eventKey leader ∧
      ord.discriminable = document.discriminable ∧ ord.averagePrice = document.avgPrice ∧
      ord.updateTimeMs = document.orderUpdateTime := by
  unfold PublicLeaderOrder.fromApi at hp
  repeat' split at hp
  all_goals cases hp
  exact ⟨rfl, rfl, rfl, rfl, rfl, rfl⟩

@[simp] theorem separatedOrder_updateTimeMs (orders : List PublicLeaderOrder)
    (ord : PublicLeaderOrder) : (separatedOrder orders ord).updateTimeMs = ord.updateTimeMs := by
  unfold separatedOrder
  split <;> rfl

@[simp] theorem separatedOrder_rowKey (orders : List PublicLeaderOrder)
    (ord : PublicLeaderOrder) : (separatedOrder orders ord).rowKey = ord.rowKey := by
  unfold separatedOrder
  split <;> rfl

theorem separatedOrder_keys {document : ApiOrder} (orders : List PublicLeaderOrder)
    (hp : PublicLeaderOrder.fromApi leader document = .ok ord) : (separatedOrder orders ord).keys =
      document.keys leader (isBatch (identityGroup orders ord)) := by
  unfold PublicLeaderOrder.fromApi at hp
  repeat' split at hp
  all_goals cases hp
  unfold separatedOrder
  split <;> simp_all [PublicLeaderOrder.keys, ApiOrder.keys, ApiOrder.identityKey,
    PublicLeaderOrder.discriminated]

variable {orders : List PublicLeaderOrder}

theorem setDefaultByEvent_nodup (hn : (orders.map (·.eventKey)).Nodup) (ord : PublicLeaderOrder) :
    ((setDefaultByEvent orders ord).map (·.eventKey)).Nodup := by
  unfold setDefaultByEvent
  split
  · exact hn
  next hnew =>
    rw [List.map_append, List.map_singleton, ← List.concat_eq_append]
    apply hn.concat
    simpa using hnew

theorem foldl_setDefaultByEvent_nodup (orders : List PublicLeaderOrder)
    {merged : List PublicLeaderOrder} (hn : (merged.map (·.eventKey)).Nodup) :
    ((orders.foldl setDefaultByEvent merged).map (·.eventKey)).Nodup := by
  induction orders generalizing merged with
  | nil => exact hn
  | cons ord orders ih => exact ih (setDefaultByEvent_nodup hn ord)

theorem eventKey_mem_setDefaultByEvent {key : Digest} :
    key ∈ (setDefaultByEvent orders ord).map (·.eventKey) ↔
      key ∈ orders.map (·.eventKey) ∨ key = ord.eventKey := by
  unfold setDefaultByEvent
  split
  next ho =>
    obtain ⟨found, hf, hk⟩ := List.any_eq_true.mp ho
    have hm : ord.eventKey ∈ orders.map (·.eventKey) :=
      List.mem_map.mpr ⟨found, hf, of_decide_eq_true hk⟩
    constructor
    · exact Or.inl
    · rintro (hk | rfl)
      · exact hk
      · exact hm
  · simp

theorem eventKey_mem_foldl_setDefaultByEvent {merged : List PublicLeaderOrder} {key : Digest} :
    key ∈ (orders.foldl setDefaultByEvent merged).map (·.eventKey) ↔
      key ∈ merged.map (·.eventKey) ∨ key ∈ orders.map (·.eventKey) := by
  induction orders generalizing merged with
  | nil => simp
  | cons ord orders ih =>
    rw [List.foldl_cons, ih, eventKey_mem_setDefaultByEvent, List.map_cons, List.mem_cons, or_assoc]

section Page

variable (leader : String)

def malformedRow (rows : List ApiOrder) : Option String :=
  rows.findSome? (failure? ∘ PublicLeaderOrder.fromApi leader)

def parsedRows (rows : List ApiOrder) : List PublicLeaderOrder :=
  rows.filterMap fun document => (PublicLeaderOrder.fromApi leader document).toOption

def pageOrders (rows : List ApiOrder) : List PublicLeaderOrder :=
  let orders := deduplicateExactOrderEvents (parsedRows leader rows)
  orders.map (separatedOrder orders)

/-- A row of a batch whose price is written so that it cannot be a discriminator. -/
def Undiscriminable (rows : List ApiOrder) : Prop :=
  ∃ document ∈ rows, inBatch leader rows document = true ∧
    document.discriminable = false

instance (rows : List ApiOrder) : Decidable (Undiscriminable leader rows) :=
  inferInstanceAs (Decidable (∃ document ∈ rows, inBatch leader rows document = true ∧
    document.discriminable = false))

def Collides (afterUpdateTimeMs : ℤ) (rows : List ApiOrder) : Prop :=
  ∃ left ∈ rows, ∃ right ∈ rows,
    afterUpdateTimeMs ≤ left.orderUpdateTime ∧ afterUpdateTimeMs ≤ right.orderUpdateTime ∧
      left.identityKey leader = right.identityKey leader ∧
      left.eventKey leader ≠ right.eventKey leader ∧
      inBatch leader rows left = false

instance (afterUpdateTimeMs : ℤ) (rows : List ApiOrder) :
    Decidable (Collides leader afterUpdateTimeMs rows) :=
  inferInstanceAs (Decidable (∃ left ∈ rows, ∃ right ∈ rows,
    afterUpdateTimeMs ≤ left.orderUpdateTime ∧ afterUpdateTimeMs ≤ right.orderUpdateTime ∧
      left.identityKey leader = right.identityKey leader ∧
      left.eventKey leader ≠ right.eventKey leader ∧
      inBatch leader rows left = false))

variable {leader} {rows : List ApiOrder}

variable {ord : PublicLeaderOrder}

theorem mem_parsedRows : ord ∈ parsedRows leader rows ↔
      ∃ document ∈ rows, PublicLeaderOrder.fromApi leader document = .ok ord := by
  unfold parsedRows
  rw [List.mem_filterMap]
  constructor
  · rintro ⟨document, hm, hp⟩
    cases hr : PublicLeaderOrder.fromApi leader document with
    | error code => simp [hr, Except.toOption] at hp
    | ok parsed =>
      simp only [hr, Except.toOption, Option.some.injEq] at hp
      exact ⟨document, hm, hp ▸ hr⟩
  · rintro ⟨document, hm, hp⟩
    exact ⟨document, hm, by rw [hp]; rfl⟩

section Parsed

variable (hparsed : malformedRow leader rows = none)

include hparsed

theorem exists_fromApi_of_mem {document : ApiOrder} (hm : document ∈ rows) :
    ∃ ord, PublicLeaderOrder.fromApi leader document = .ok ord := by
  have hn := List.findSome?_eq_none_iff.mp hparsed document hm
  cases hr : PublicLeaderOrder.fromApi leader document with
  | error code => simp [hr, failure?] at hn
  | ok ord => exact ⟨ord, rfl⟩

theorem mapM_fromApi : rows.mapM (PublicLeaderOrder.fromApi leader) =
      .ok (parsedRows leader rows) := by
  rw [mapM_eq_match]
  unfold malformedRow at hparsed
  rw [hparsed]
  rfl

theorem inBatch_eq {document : ApiOrder} {ord : PublicLeaderOrder}
    (hp : PublicLeaderOrder.fromApi leader document = .ok ord) : inBatch leader rows document =
      isBatch (identityGroup (deduplicateExactOrderEvents (parsedRows leader rows)) ord) := by
  simp only [inBatch, mapM_fromApi hparsed, hp]

theorem inBatch_congr {left right : ApiOrder} (hle : left ∈ rows) (hri : right ∈ rows)
    (hi : left.identityKey leader = right.identityKey leader) :
    inBatch leader rows left = inBatch leader rows right := by
  obtain ⟨leftOrder, hl⟩ := exists_fromApi_of_mem hparsed hle
  obtain ⟨rightOrder, hr⟩ := exists_fromApi_of_mem hparsed hri
  rw [inBatch_eq hparsed hl, inBatch_eq hparsed hr, identityGroup, identityGroup,
    (PublicLeaderOrder.fromApi_row hl).1, (PublicLeaderOrder.fromApi_row hr).1,
    hi]

end Parsed

theorem ApiOrder.identityKey_of_eventKey {left right : ApiOrder}
    (he : left.eventKey leader = right.eventKey leader) :
    left.identityKey leader = right.identityKey leader := by
  unfold ApiOrder.eventKey at he
  injection he

theorem ApiOrder.orderUpdateTime_of_eventKey {left right : ApiOrder}
    (he : left.eventKey leader = right.eventKey leader) :
    left.orderUpdateTime = right.orderUpdateTime := by
  unfold ApiOrder.eventKey at he
  injection he

theorem ApiOrder.discriminable_of_eventKey {left right : ApiOrder}
    (he : left.eventKey leader = right.eventKey leader) :
    left.discriminable = right.discriminable := by
  unfold ApiOrder.eventKey at he
  injection he with hp _ hi _ _ hs
  unfold ApiOrder.identityKey at hi
  injection hi with _ _ ht
  rw [ApiOrder.discriminable, ApiOrder.discriminable, hp, hs, ht]

theorem mem_deduplicated (hm : ord ∈ deduplicateExactOrderEvents (parsedRows leader rows)) :
    ∃ document ∈ rows, PublicLeaderOrder.fromApi leader document = .ok ord :=
  mem_parsedRows.mp ((mem_of_mem_setDefaultByEvent hm).resolve_left (by simp))

variable {document : ApiOrder}

theorem exists_deduplicated (hparsed : malformedRow leader rows = none) (hm : document ∈ rows) :
    ∃ ord ∈ deduplicateExactOrderEvents (parsedRows leader rows),
      ∃ kept ∈ rows, PublicLeaderOrder.fromApi leader kept = .ok ord ∧
        kept.eventKey leader = document.eventKey leader := by
  obtain ⟨parsed, hp⟩ := exists_fromApi_of_mem hparsed hm
  have hkey : parsed.eventKey ∈
      (deduplicateExactOrderEvents (parsedRows leader rows)).map (·.eventKey) :=
    eventKey_mem_foldl_setDefaultByEvent.mpr
      (Or.inr (List.mem_map_of_mem (mem_parsedRows.mpr ⟨document, hm, hp⟩)))
  obtain ⟨ord, ho, he⟩ := List.mem_map.mp hkey
  obtain ⟨kept, hke, hk⟩ := mem_deduplicated ho
  refine ⟨ord, ho, kept, hke, hk, ?_⟩
  rw [← (PublicLeaderOrder.fromApi_row hk).2.1, he, (PublicLeaderOrder.fromApi_row hp).2.1]

theorem deduplicated_nodup (orders : List PublicLeaderOrder) :
    ((deduplicateExactOrderEvents orders).map (·.eventKey)).Nodup :=
  foldl_setDefaultByEvent_nodup orders List.nodup_nil

structure OrderOf (leadPortfolioId : String) (rows : List ApiOrder) (document : ApiOrder)
    (order : PublicLeaderOrder) : Prop where
  keys : order.keys = document.keys leadPortfolioId (inBatch leadPortfolioId rows document)
  row : order.rowKey = document.eventKey leadPortfolioId
  updated : order.updateTimeMs = document.orderUpdateTime

section

variable (hparsed : malformedRow leader rows = none)
include hparsed

theorem orderOf_separatedOrder (hp : PublicLeaderOrder.fromApi leader document = .ok ord) :
    OrderOf leader rows document
      (separatedOrder (deduplicateExactOrderEvents (parsedRows leader rows)) ord) := by
  obtain ⟨-, -, hr, -, -, hu⟩ := PublicLeaderOrder.fromApi_row hp
  refine ⟨?_, ?_, ?_⟩
  · rw [separatedOrder_keys _ hp, inBatch_eq hparsed hp]
  · rw [separatedOrder_rowKey, hr]
  · rw [separatedOrder_updateTimeMs, hu]

theorem exists_document_of_mem_pageOrders (hm : ord ∈ pageOrders leader rows) :
    ∃ document ∈ rows, OrderOf leader rows document ord := by
  obtain ⟨raw, hr, rfl⟩ := List.mem_map.mp hm
  obtain ⟨document, hd, hp⟩ := mem_deduplicated hr
  exact ⟨document, hd, orderOf_separatedOrder hparsed hp⟩

theorem exists_order_of_mem_rows (hm : document ∈ rows) :
    ∃ ord ∈ pageOrders leader rows, OrderOf leader rows document ord := by
  obtain ⟨raw, hr, kept, hk, hp, he⟩ := exists_deduplicated hparsed hm
  have ho := orderOf_separatedOrder hparsed hp
  have hb := inBatch_congr hparsed hk hm (ApiOrder.identityKey_of_eventKey he)
  refine ⟨_, List.mem_map_of_mem hr, ?_, ?_, ?_⟩
  · rw [ho.keys, ApiOrder.keys_eq_iff]
    exact ⟨he, hb⟩
  · rw [ho.row, he]
  · rw [ho.updated, ApiOrder.orderUpdateTime_of_eventKey he]

theorem pageOrders_length : (pageOrders leader rows).length =
      (rows.map (·.eventKey leader)).dedup.length := by
  have hpe : ((deduplicateExactOrderEvents (parsedRows leader rows)).map
      (·.eventKey)).Perm (rows.map (·.eventKey leader)).dedup := by
    rw [List.perm_ext_iff_of_nodup (deduplicated_nodup _) (List.nodup_dedup _)]
    intro key
    rw [List.mem_dedup]
    constructor
    · intro hk
      obtain ⟨ord, ho, rfl⟩ := List.mem_map.mp hk
      obtain ⟨document, hd, hp⟩ := mem_deduplicated ho
      exact List.mem_map.mpr ⟨document, hd, (PublicLeaderOrder.fromApi_row hp).2.1.symm⟩
    · intro hk
      obtain ⟨document, hd, rfl⟩ := List.mem_map.mp hk
      obtain ⟨ord, ho, kept, -, hp, he⟩ := exists_deduplicated hparsed hd
      exact List.mem_map.mpr ⟨ord, ho, ((PublicLeaderOrder.fromApi_row hp).2.1.trans he)⟩
  unfold pageOrders
  rw [List.length_map, ← hpe.length_eq, List.length_map]

end

theorem eq_of_isBatch {group : List PublicLeaderOrder} (hb : isBatch group = true)
    {left right : PublicLeaderOrder} (hle : left ∈ group) (hr : right ∈ group)
    (hp : left.averagePrice = right.averagePrice) : left = right := by
  have hl : (group.map (·.averagePrice)).dedup.length = group.length := by
    simp only [isBatch, Bool.and_eq_true, Bool.or_eq_true, decide_eq_true_eq] at hb
    tauto
  have hn : (group.map (·.averagePrice)).Nodup := by
    rw [← List.dedup_eq_self]
    apply (List.dedup_sublist _).eq_of_length
    rw [hl, List.length_map]
  exact List.inj_on_of_nodup_map hn hle hr hp

theorem identityKey_separatedOrder_eq_iff {orders : List PublicLeaderOrder}
    {leftDocument rightDocument : ApiOrder} {left right : PublicLeaderOrder}
    (hleft : left ∈ orders) (hright : right ∈ orders) (hne : left ≠ right)
    (hl : PublicLeaderOrder.fromApi leader leftDocument = .ok left)
    (hr : PublicLeaderOrder.fromApi leader rightDocument = .ok right) :
    (separatedOrder orders left).identityKey = (separatedOrder orders right).identityKey ↔
      left.identityKey = right.identityKey ∧ isBatch (identityGroup orders left) = false := by
  have hlef := PublicLeaderOrder.fromApi_row hl
  have hrig := PublicLeaderOrder.fromApi_row hr
  have hle := congrArg Prod.fst (separatedOrder_keys orders hl)
  have hri := congrArg Prod.fst (separatedOrder_keys orders hr)
  have hg : left.identityKey = right.identityKey →
      identityGroup orders left = identityGroup orders right := by
    intro hi
    rw [identityGroup, identityGroup, hi]
  have hba : left.identityKey = right.identityKey → left.averagePrice = right.averagePrice →
      isBatch (identityGroup orders left) = false := by
    intro hi hp
    rw [Bool.eq_false_iff]
    intro hb
    apply hne
    apply eq_of_isBatch hb _ _ hp
    · simpa [identityGroup] using hleft
    · simpa [identityGroup, hi] using hright
  simp only [PublicLeaderOrder.keys, ApiOrder.keys] at hle hri
  rw [hle, hri]
  rw [hlef.1, hrig.1] at hg hba ⊢
  rw [hlef.2.2.2.2.1, hrig.2.2.2.2.1] at hba
  constructor
  · intro hs
    split at hs
    next hb =>
      split at hs
      · -- both rows carry a discriminator, so their prices agree
        injection hs with _ hp _ hi
        exact absurd (hba hi hp) (by simp [hb])
      · exact absurd hs (by simp [ApiOrder.identityKey])
    next hb =>
      split at hs
      · exact absurd hs (by simp [ApiOrder.identityKey])
      · exact ⟨hs, Bool.eq_false_iff.mpr hb⟩
  · rintro ⟨hi, hb⟩
    rw [if_neg (by rw [hb]; simp), if_neg (by rw [← hg hi, hb]; simp), hi]

theorem guarded_nodup_iff (hparsed : malformedRow leader rows = none) (since : ℤ) :
    ((guardedOrders (some since) (pageOrders leader rows)).map
        (·.identityKey)).Nodup ↔ ¬Collides leader since rows := by
  let base := deduplicateExactOrderEvents (parsedRows leader rows)
  have hev : (base.map (·.eventKey)).Nodup := deduplicated_nodup _
  have hg : (guardedOrders (some since) (pageOrders leader rows)).map
      (·.identityKey) = (base.filter (since ≤ ·.updateTimeMs)).map
        fun ord => (separatedOrder base ord).identityKey := by
    simp only [guardedOrders, pageOrders, List.filter_map,
      List.map_map, Function.comp_def, separatedOrder_updateTimeMs]
    rfl
  rw [hg, List.nodup_map_iff_inj_on (hev.of_map _ |>.filter _)]
  constructor
  · -- the two documents of a collision have two rows, which the guard then finds equal
    rintro hinj ⟨left, hleft, right, hrig, hleftG, hrightG, hi, he, hb⟩
    obtain ⟨leftOrder, hleftO, leftKept, hleftK, hl, hlef⟩ :=
      exists_deduplicated hparsed hleft
    obtain ⟨rightOrder, hrightO, rightKept, hrightK, hri, hrigh⟩ :=
      exists_deduplicated hparsed hrig
    have hle := PublicLeaderOrder.fromApi_row hl
    have hr := PublicLeaderOrder.fromApi_row hri
    have hne : leftOrder ≠ rightOrder := by
      intro heq
      apply he
      rw [← hlef, ← hrigh, ← hle.2.1, ← hr.2.1, heq]
    have hleftI := ApiOrder.identityKey_of_eventKey hlef
    have hrightI := ApiOrder.identityKey_of_eventKey hrigh
    apply hne
    apply hinj leftOrder _ rightOrder
    · rw [List.mem_filter, decide_eq_true_eq, hr.2.2.2.2.2,
        ApiOrder.orderUpdateTime_of_eventKey hrigh]
      exact ⟨hrightO, hrightG⟩
    · rw [identityKey_separatedOrder_eq_iff hleftO hrightO hne hl hri,
        hle.1, hr.1, ← inBatch_eq hparsed hl]
      refine ⟨hleftI.trans (hi.trans hrightI.symm), ?_⟩
      rw [inBatch_congr hparsed hleftK hleft hleftI, hb]
    · rw [List.mem_filter, decide_eq_true_eq, hle.2.2.2.2.2,
        ApiOrder.orderUpdateTime_of_eventKey hlef]
      exact ⟨hleftO, hleftG⟩
  · intro hf left hleft right hrig hs
    rw [List.mem_filter, decide_eq_true_eq] at hleft hrig
    by_contra hne
    obtain ⟨leftDocument, hleftM, hl⟩ := mem_deduplicated hleft.1
    obtain ⟨rightDocument, hrightM, hri⟩ := mem_deduplicated hrig.1
    have hle := PublicLeaderOrder.fromApi_row hl
    have hr := PublicLeaderOrder.fromApi_row hri
    rw [identityKey_separatedOrder_eq_iff hleft.1 hrig.1 hne hl hri,
      hle.1, hr.1, ← inBatch_eq hparsed hl] at hs
    refine hf ⟨leftDocument, hleftM, rightDocument, hrightM, ?_, ?_, hs.1, ?_, hs.2⟩
    · exact hle.2.2.2.2.2 ▸ hleft.2
    · exact hr.2.2.2.2.2 ▸ hrig.2
    · intro he
      apply hne
      apply List.inj_on_of_nodup_map hev hleft.1 hrig.1
      rw [hle.2.1, hr.2.1, he]

theorem disambiguateSameTimestampBatchOrders_eq (hparsed : malformedRow leader rows = none) :
    disambiguateSameTimestampBatchOrders (deduplicateExactOrderEvents (parsedRows leader rows)) =
      if Undiscriminable leader rows then
        .error "COPY_ORDER_IDENTITY_DISCRIMINATOR_INVALID"
      else .ok (pageOrders leader rows) := by
  unfold disambiguateSameTimestampBatchOrders
  rw [mapM_eq_ite (disambiguateOrder_eq _)]
  apply if_congr _ rfl rfl
  rw [List.any_eq_true]
  constructor
  · rintro ⟨ord, ho, hb⟩
    obtain ⟨document, hd, hp⟩ := mem_deduplicated ho
    simp only [Bool.and_eq_true, Bool.not_eq_true'] at hb
    refine ⟨document, hd, ?_, ?_⟩
    · rw [inBatch_eq hparsed hp]
      exact hb.1
    · rw [← (PublicLeaderOrder.fromApi_row hp).2.2.2.1]
      exact hb.2
  · rintro ⟨document, hd, hb, hn⟩
    obtain ⟨ord, ho, kept, hk, hp, he⟩ := exists_deduplicated hparsed hd
    refine ⟨ord, ho, ?_⟩
    rw [← inBatch_eq hparsed hp, inBatch_congr hparsed hk hd (ApiOrder.identityKey_of_eventKey he),
      hb, (PublicLeaderOrder.fromApi_row hp).2.2.2.1, ApiOrder.discriminable_of_eventKey he, hn]
    rfl

theorem orderHistoryPage_eq (since : ℤ) (rows : List ApiOrder) :
    orderHistoryPage leader rows (some since) =
      match malformedRow leader rows with
      | some reason => .error reason
      | none =>
        if Undiscriminable leader rows then
          .error "COPY_ORDER_IDENTITY_DISCRIMINATOR_INVALID"
        else if Collides leader since rows then
          .error "COPY_ORDER_IDENTITY_AMBIGUOUS"
        else .ok (pageOrders leader rows) := by
  unfold orderHistoryPage
  cases hm : malformedRow leader rows with
  | some reason =>
    rw [mapM_eq_match]
    unfold malformedRow at hm
    rw [hm]
    rfl
  | none =>
    let guarded := guardedOrders (some since) (pageOrders leader rows)
    have hr : (guarded.map (·.identityKey)).dedup.length ≠ guarded.length ↔
        Collides leader since rows := by
      have hl : (guarded.map (·.identityKey)).length = guarded.length := List.length_map _
      rw [← not_iff_not, ← guarded_nodup_iff hm, not_not, ← List.dedup_eq_self, ← hl]
      exact ⟨(List.dedup_sublist _).eq_of_length, congrArg List.length⟩
    rw [mapM_fromApi hm]
    change (disambiguateSameTimestampBatchOrders _ >>= _) = _
    rw [disambiguateSameTimestampBatchOrders_eq hm]
    by_cases hu : Undiscriminable leader rows
    · rw [if_pos hu]
      exact (if_pos hu).symm
    rw [if_neg hu]
    refine Eq.trans ?_ (if_neg hu).symm
    by_cases hc : Collides leader since rows
    · rw [if_pos hc]
      exact if_pos (hr.mpr hc)
    · rw [if_neg hc]
      exact if_neg (mt hr.mp hc)

end Page

def reaches (afterUpdateTimeMs : ℤ) (rows : List ApiOrder) : Bool :=
  rows.any (·.orderUpdateTime ≤ afterUpdateTimeMs)

def readPages (afterUpdateTimeMs : ℤ) : List (List ApiOrder) → List (List ApiOrder)
  | [] => []
  | rows :: rest =>
    if reaches afterUpdateTimeMs rows then [rows] else rows :: readPages afterUpdateTimeMs rest

/-- What is wrong with a page: a malformed row, a refused discriminator, an open collision,
or, before the watermark is covered, fewer different rows than a page holds. -/
def pageFault (leadPortfolioId : String) (afterUpdateTimeMs : ℤ) (pageSize : ℕ)
    (rows : List ApiOrder) : Option String :=
  match malformedRow leadPortfolioId rows with
  | some reason => some reason
  | none =>
    if Undiscriminable leadPortfolioId rows then
      some "COPY_ORDER_IDENTITY_DISCRIMINATOR_INVALID"
    else if Collides leadPortfolioId afterUpdateTimeMs rows then
      some "COPY_ORDER_IDENTITY_AMBIGUOUS"
    else if reaches afterUpdateTimeMs rows = false ∧
        (rows.map (·.eventKey leadPortfolioId)).dedup.length < pageSize then
      some "COPY_ORDER_HISTORY_WATERMARK_NOT_COVERED"
    else none

def firstFault (leadPortfolioId : String) (afterUpdateTimeMs : ℤ) (pageSize : ℕ)
    (pages : List (List ApiOrder)) : Option String :=
  (readPages afterUpdateTimeMs pages).findSome?
    (pageFault leadPortfolioId afterUpdateTimeMs pageSize)

section Loop

variable {leader : String} {since : ℤ} {pageSize : ℕ}
  {rows : List ApiOrder} {pages : List (List ApiOrder)}

theorem malformedRow_of_pageFault (hf : pageFault leader since pageSize rows = none) :
    malformedRow leader rows = none := by
  unfold pageFault at hf
  split at hf
  · cases hf
  · assumption

theorem malformedRow_of_firstFault (hc : firstFault leader since pageSize pages = none)
    {rows : List ApiOrder} (hr : rows ∈ readPages since pages) : malformedRow leader rows = none :=
  malformedRow_of_pageFault (List.findSome?_eq_none_iff.mp hc rows hr)

theorem any_pageOrders (hparsed : malformedRow leader rows = none) :
    (pageOrders leader rows).any (·.updateTimeMs ≤ since) = reaches since rows := by
  rw [Bool.eq_iff_iff, reaches, List.any_eq_true, List.any_eq_true]
  constructor
  · rintro ⟨ord, ho, hb⟩
    obtain ⟨document, hd, hof⟩ := exists_document_of_mem_pageOrders hparsed ho
    exact ⟨document, hd, hof.updated ▸ hb⟩
  · rintro ⟨document, hd, hb⟩
    obtain ⟨ord, ho, hof⟩ := exists_order_of_mem_rows hparsed hd
    exact ⟨ord, ho, hof.updated ▸ hb⟩

theorem pageOrders_isEmpty (hparsed : malformedRow leader rows = none) :
    (pageOrders leader rows).isEmpty = rows.isEmpty := by
  rw [Bool.eq_iff_iff, List.isEmpty_iff, List.isEmpty_iff, ← List.length_eq_zero_iff,
    pageOrders_length hparsed, List.length_eq_zero_iff, List.dedup_eq_nil, List.map_eq_nil_iff]

theorem historyLoop_cons (hsi : 1 ≤ pageSize) (first : Bool) (merged : List PublicLeaderOrder)
    (rows : List ApiOrder) (rest : List (List ApiOrder)) :
    historyLoop leader since pageSize first merged (rows :: rest) =
      match pageFault leader since pageSize rows with
      | some reason => .error reason
      | none =>
        let merged := (pageOrders leader rows).foldl setDefaultByEvent merged
        if reaches since rows then .ok merged
        else historyLoop leader since pageSize false merged rest := by
  rw [historyLoop, orderHistoryPage_eq]
  unfold pageFault
  cases hm : malformedRow leader rows with
  | some reason => rfl
  | none =>
    by_cases hu : Undiscriminable leader rows
    · simp only [if_pos hu]
      rfl
    by_cases hc : Collides leader since rows
    · simp only [if_neg hu, if_pos hc]
      rfl
    · simp only [if_neg hu, if_neg hc]
      change (if _ then _ else _ : Except String (List PublicLeaderOrder)) = _
      rw [pageOrders_isEmpty hm, any_pageOrders hm, pageOrders_length hm]
      cases hro : rows with
      | nil =>
        -- an empty page covers nothing and holds too few rows, first or not
        have hs : 0 < pageSize := hsi
        cases first <;> simp [reaches, hs] <;> rfl
      | cons document documents =>
        rw [if_neg (by simp), ← hro]
        cases hr : reaches since rows with
        | true => simp only [if_pos, reduceCtorEq, false_and, if_false]; rfl
        | false =>
          simp only [true_and, Bool.false_eq_true, if_false]
          split <;> rfl

theorem firstFault_cons (rows : List ApiOrder) (rest : List (List ApiOrder)) :
    firstFault leader since pageSize (rows :: rest) =
      match pageFault leader since pageSize rows with
      | some reason => some reason
      | none =>
        if reaches since rows then none
        else firstFault leader since pageSize rest := by
  simp only [firstFault, readPages]
  cases hf : pageFault leader since pageSize rows with
  | some reason => split <;> simp [hf]
  | none => split <;> simp [hf]

theorem historyLoop_eq (hs : 1 ≤ pageSize) (first : Bool) (merged : List PublicLeaderOrder)
    (pages : List (List ApiOrder)) : historyLoop leader since pageSize first merged pages =
      match firstFault leader since pageSize pages with
      | some reason => .error reason
      | none =>
        if pages.any (reaches since) then
          .ok (((readPages since pages).flatMap (pageOrders leader)).foldl setDefaultByEvent merged)
        else .error "COPY_ORDER_HISTORY_WATERMARK_NOT_COVERED" := by
  induction pages generalizing first merged with
  | nil => rfl
  | cons rows rest ih =>
    rw [historyLoop_cons hs, firstFault_cons, List.any_cons, readPages]
    cases pageFault leader since pageSize rows with
    | some reason => rfl
    | none =>
      cases hr : reaches since rows with
      | true => simp
      | false => simp [ih, List.foldl_append]

end Loop

end AiQuant.CopyTrading
