import AiQuant.CopyTrading.BinancePublic

/-! One-way resolution loses nothing, as long as no two orders of a response share a raw
key: the resolver attributes quantities, and derives identities, by symbol, side, type
and order time, and leaves out the discriminator that tells the orders of a batch
apart. -/
namespace AiQuant.CopyTrading
open AiQuant.Lib

def PublicLeaderOrder.plainIdentity (order : PublicLeaderOrder) : Digest :=
  .orderIdentity order.leadPortfolioId order.orderTimeMs order.orderType order.positionSide
    order.orderSide order.symbol

/-- A row of a response has the identity it was parsed with, or the discriminated one of
a batch. -/
def PublicLeaderOrder.Derived (order : PublicLeaderOrder) : Prop :=
  order.identityKey = order.plainIdentity ∨
    order.identityKey = .discriminated order.orderType order.averagePrice
      order.spelling.averagePrice order.plainIdentity

/-- A response of one leader, as `order_history_since` returns it. -/
structure ResponseBatch (orders : List PublicLeaderOrder) : Prop where
  leader : ∃ leadPortfolioId, ∀ order ∈ orders, order.leadPortfolioId = leadPortfolioId
  derived : ∀ order ∈ orders, order.Derived
  nodup : (orders.map (·.identityKey)).Nodup

theorem responseBatch_of_page {leader : String} {rows : List ApiOrder} {guard : Option ℤ}
    {page : List PublicLeaderOrder} (hpage : orderHistoryPage leader rows guard = .ok page)
    (hn : (page.map (·.identityKey)).Nodup) : ResponseBatch page := by
  have hr : ∀ order ∈ page, order.leadPortfolioId = leader ∧ order.Derived := by
    intro order hm
    obtain ⟨doc, -, ha⟩ := exists_assignedOrder_of_mem_page hpage hm
    unfold assignedOrder at ha
    rw [bind_eq_ok_iff] at ha
    obtain ⟨parsed, -, ha⟩ := ha
    rw [bind_eq_ok_iff] at ha
    obtain ⟨plain, hpa, ha⟩ := ha
    rw [eq_separatedOrder ha]
    obtain ⟨hl, -, hi, -⟩ := PublicLeaderOrder.fromApi_spec hpa
    have hp : plain.identityKey = plain.plainIdentity := by
      rw [hi, PublicLeaderOrder.plainIdentity, hl]
    unfold separatedOrder
    split
    · exact ⟨hl, Or.inr (congrArg (Digest.discriminated _ _ _) hp)⟩
    · exact ⟨hl, Or.inl hp⟩
  exact ⟨⟨leader, fun order hm => (hr order hm).1⟩,
    fun order hm => (hr order hm).2, hn⟩

structure Contributes [HexOrder] (orders priorOrders : List PublicLeaderOrder)
    (closedPositions : List ClosedLeaderPosition) (order : PublicLeaderOrder)
    (views : List PublicLeaderOrder) : Prop where
  run : ∃ earlier later before after, sortedOrders orders = earlier ++ order :: later ∧
    earlier.foldlM (resolveOrder closedPositions) (priorLedger priorOrders) = .ok before ∧
    resolveOrder closedPositions before order = .ok after ∧
    after.resolved = before.resolved ++ views

/-- Nothing is lost: what was never resolved before is resolved in full, and the orders of
a response stay apart. -/
structure LosesNothing [HexOrder] (orders priorOrders : List PublicLeaderOrder)
    (closedPositions : List ClosedLeaderPosition) : Prop where
  conserved : ∀ order ∈ orders, order.positionSide = .both →
    (∀ prior ∈ priorOrders, prior.rawKey ≠ order.rawKey) →
    ∃ views, Contributes orders priorOrders closedPositions order views ∧
      (views.map (·.executedQuantity)).sum = order.executedQuantity
  distinct : ∀ order ∈ orders, ∀ other ∈ orders, order ≠ other → ∀ views others,
    Contributes orders priorOrders closedPositions order views →
    Contributes orders priorOrders closedPositions other others →
    ∀ view ∈ views, ∀ found ∈ others, view.identityKey ≠ found.identityKey

/-- No `BOTH` order has the raw key of another `BOTH` order, nor of an explicit order that
is not told apart by a discriminator. -/
def RawDistinct (orders : List PublicLeaderOrder) : Prop :=
  ∀ order ∈ orders, order.positionSide = .both → ∀ other ∈ orders, other ≠ order →
    (other.positionSide = .both ∨ other.identityKey = other.plainIdentity) →
    other.rawKey ≠ order.rawKey

section Views

variable {closed : List ClosedLeaderPosition} {order other : PublicLeaderOrder}
  {pre post : ResolverState} {views : List PublicLeaderOrder}

theorem isView_of_resolveOrder (hb : order.positionSide = .both)
    (hr : resolveOrder closed pre order = .ok post) (hv : post.resolved = pre.resolved ++ views) :
    ∀ view ∈ views, ∃ side qty, IsView order side qty view := by
  obtain ⟨emitted, he, -⟩ := resolveOrder_spec hb hr
  have hs : views = emitted := List.append_cancel_left (hv.symm.trans he.resolved)
  subst hs
  intro view hm
  obtain ⟨side, hvi, -⟩ := he.attribution.complete view hm (he.rawKey view hm)
  exact ⟨side, _, hvi⟩

theorem eq_singleton_of_resolveOrder (he : order.positionSide ≠ .both)
    (hr : resolveOrder closed pre order = .ok post)
    (hv : post.resolved = pre.resolved ++ views) : views = [order] := by
  rw [resolveOrder_explicit he] at hr
  cases hr
  exact (List.append_cancel_left hv).symm

theorem IsView.identity_ne_explicit {side : PositionSide} {qty : Decimal}
    {view : PublicLeaderOrder} (hv : IsView order side qty view) (hde : other.Derived)
    (hr : other.identityKey = other.plainIdentity → other.rawKey ≠ order.rawKey) :
    view.identityKey ≠ other.identityKey := by
  intro hsa
  rcases hde with hp | hd
  · rw [hv.identityKey, hp] at hsa
    unfold PublicLeaderOrder.plainIdentity at hsa
    injection hsa with _ ht hty _ hsi hs
    apply hr hp
    rw [← hv.rawKey]
    simp [PublicLeaderOrder.rawKey, ht, hty, hsi, hs]
  · rw [hv.identityKey, hd] at hsa
    cases hsa

theorem sum_views_of_fresh (hb : order.positionSide = .both)
    (hf : ∀ side, pre.cumulative order.rawKey side = 0)
    (hr : resolveOrder closed pre order = .ok post) :
    ∃ views, post.resolved = pre.resolved ++ views ∧
      (views.map (·.executedQuantity)).sum = order.executedQuantity := by
  have ht : (pre.cumulative order.rawKey).total = 0 := by
    unfold BySide.total
    rw [hf, hf, add_zero]
  rcases resolveOrder_cases hb hr with ⟨hle, -⟩ | ⟨allocs, views, -, -, hs, he⟩
  · rw [ht] at hle
    exact absurd order.executedQuantity_pos (not_lt.mpr hle)
  · refine ⟨views, he.resolved, ?_⟩
    have hq : allocs.map Prod.snd = views.map (·.executedQuantity) := by
      refine List.forall₂_eq_eq_eq ▸ ?_
      rw [List.forall₂_map_left_iff, List.forall₂_map_right_iff]
      refine he.views.imp ?_
      intro alloc view hv
      rw [hv.executedQuantity, hf, zero_add]
    rw [← hq, hs.total, ht, sub_zero]

end Views

section Batch

variable [HexOrder] {orders priors resolved : List PublicLeaderOrder}
  {closed : List ClosedLeaderPosition}

theorem ResponseBatch.sorted_nodup (hb : ResponseBatch orders) : (sortedOrders orders).Nodup :=
  (sortedOrders_perm orders).nodup_iff.mpr (List.Nodup.of_map _ hb.nodup)

theorem exists_step (hr : resolveOneWayOrders orders priors closed =
      .ok resolved) {order : PublicLeaderOrder} (hm : order ∈ orders) :
    ∃ earlier later pre post, sortedOrders orders = earlier ++ order :: later ∧
      earlier.foldlM (resolveOrder closed) (priorLedger priors) = .ok pre ∧
      resolveOrder closed pre order = .ok post := by
  obtain ⟨-, -, st, hrun, -⟩ := resolveOneWayOrders_run hr
  obtain ⟨earlier, later, hs⟩ := List.append_of_mem (mem_sortedOrders.mpr hm)
  rw [hs, List.foldlM_append, bind_eq_ok_iff] at hrun
  obtain ⟨pre, he, hre⟩ := hrun
  rw [foldlM_cons_eq_ok_iff] at hre
  obtain ⟨post, hst, -⟩ := hre
  exact ⟨earlier, later, pre, post, hs, he, hst⟩

theorem priorLedger_of_unresolved {key : RawOrderKey}
    (hp : ∀ prior ∈ priors, prior.rawKey ≠ key) (side : PositionSide) :
    (priorLedger priors).cumulative key side = 0 := by
  rcases priorLedger_eq key side with hz | ⟨prior, hm, hk, -⟩
  · exact hz
  · exact absurd hk (hp prior ((latestByIdentity_covers priors).subset hm))

theorem losesNothing_of_rawDistinct (hb : ResponseBatch orders) (hraw : RawDistinct orders)
    (hre : resolveOneWayOrders orders priors closed = .ok resolved) :
    LosesNothing orders priors closed := by
  refine ⟨?_, ?_⟩
  · intro order hm hbo hpr
    obtain ⟨earlier, later, pre, post, hs, he, hst⟩ := exists_step hre hm
    have hf : ∀ side, pre.cumulative order.rawKey side = 0 := by
      intro side
      have hother : ∀ row ∈ earlier, row.positionSide = .both → row.rawKey ≠ order.rawKey := by
        intro row hrow hr
        have hn := hb.sorted_nodup
        rw [hs, List.nodup_append] at hn
        have hin : row ∈ orders := mem_sortedOrders.mp (by rw [hs]; simp [hrow])
        exact hraw order hm hbo row hin (hn.2.2 row hrow order (by simp)) (Or.inl hr)
      rw [resolveOrders_frame hother he]
      exact priorLedger_of_unresolved hpr side
    obtain ⟨views, hv, hsum⟩ := sum_views_of_fresh hbo hf hst
    exact ⟨views, ⟨earlier, later, pre, post, hs, he, hst, hv⟩, hsum⟩
  · rintro order hm other hin hne views others ⟨-, -, pre, post, -, -, hst, hv⟩
      ⟨-, -, otherBefore, otherAfter, -, -, hot, hoth⟩ view hview found hfound
    by_cases hbo : order.positionSide = .both
    · obtain ⟨side, qty, his⟩ := isView_of_resolveOrder hbo hst hv view hview
      by_cases ho : other.positionSide = .both
      · obtain ⟨otherSide, otherQuantity, hi⟩ :=
          isView_of_resolveOrder ho hot hoth found hfound
        exact his.identity_ne hi (Or.inr (hraw order hm hbo other hin hne.symm (Or.inl ho)).symm)
      · rw [eq_singleton_of_resolveOrder ho hot hoth, List.mem_singleton] at hfound
        rw [hfound]
        exact his.identity_ne_explicit (hb.derived other hin) fun hp =>
          hraw order hm hbo other hin hne.symm (Or.inr hp)
    · rw [eq_singleton_of_resolveOrder hbo hst hv, List.mem_singleton] at hview
      rw [hview]
      by_cases ho : other.positionSide = .both
      · obtain ⟨otherSide, otherQuantity, hi⟩ :=
          isView_of_resolveOrder ho hot hoth found hfound
        exact (hi.identity_ne_explicit (hb.derived order hm) fun hp =>
          hraw other hin ho order hm hne (Or.inr hp)).symm
      · rw [eq_singleton_of_resolveOrder ho hot hoth, List.mem_singleton] at hfound
        rw [hfound]
        intro hsa
        exact hne (List.inj_on_of_nodup_map hb.nodup hm hin hsa)

end Batch

/-- One open position for each symbol, all on one side, whose evidence covers every
instant up to `evidenceUpdatedAtMs`. -/
def openEvidence (side : PositionSide) (symbols : List String) (evidenceUpdatedAtMs : ℤ) :
    List ClosedLeaderPosition :=
  symbols.map fun symbol => ⟨symbol, side, 0, none, 1, 0, some evidenceUpdatedAtMs⟩

section Evidence

variable {side : PositionSide} {symbols : List String} {updatedAt : ℤ}
  {order : PublicLeaderOrder} {pre : ResolverState}

theorem closedInterval_openEvidence (hn : symbols.Nodup) (hs : order.symbol ∈ symbols)
    (ht : order.orderTimeMs ≤ updatedAt) :
    closedInterval order (openEvidence side symbols updatedAt) =
      .ok (some ⟨order.symbol, side, 0, none, 1, 0, some updatedAt⟩) := by
  have hst : 0 ≤ order.orderTimeMs := order.orderTimeMs_pos.le
  have ho : symbols.filter (fun sym => decide (sym = order.symbol)) = [order.symbol] := by
    rw [List.filter_eq, List.count_eq_one_of_mem hn hs]
    rfl
  have hc : ((·.covers order) ∘ fun sym =>
      (⟨sym, side, 0, none, 1, 0, some updatedAt⟩ : ClosedLeaderPosition)) =
      fun sym => decide (sym = order.symbol) := by
    funext sym
    simp [ClosedLeaderPosition.covers, hst, ht]
  rw [closedInterval_eq_some_iff, openEvidence, List.filter_map, hc, ho]
  rfl

theorem allocationsOf_openEvidence (hn : symbols.Nodup) (hs : order.symbol ∈ symbols)
    (ht : order.orderTimeMs ≤ updatedAt) :
    allocationsOf (openEvidence side symbols updatedAt) pre order =
      .ok [(side, order.executedQuantity - (pre.cumulative order.rawKey).total)] := by
  unfold allocationsOf
  dsimp only
  rw [closedInterval_openEvidence hn hs ht]
  unfold allocateWithClosedInterval
  dsimp only [bind, Except.bind]
  split
  · rfl
  · rfl

theorem isView_openEvidence {post : ResolverState} {views : List PublicLeaderOrder}
    (hn : symbols.Nodup) (hs : order.symbol ∈ symbols)
    (ht : order.orderTimeMs ≤ updatedAt) (hb : order.positionSide = .both)
    (hr : resolveOrder (openEvidence side symbols updatedAt) pre order = .ok post)
    (hv : post.resolved = pre.resolved ++ views) :
    ∀ view ∈ views, ∃ qty, IsView order side qty view := by
  rcases resolveOrder_cases hb hr with ⟨-, rfl⟩ | ⟨allocs, emitted, -, ha, -, he⟩
  · have hno : views = [] := List.self_eq_append_right.mp hv
    rw [hno]
    intro view hm
    cases hm
  · rw [allocationsOf_openEvidence hn hs ht] at ha
    cases ha
    have hsa : views = emitted := List.append_cancel_left (hv.symm.trans he.resolved)
    subst hsa
    obtain ⟨view, rest, hvi, hnil, rfl⟩ := List.forall₂_cons_left_iff.mp he.views
    rw [List.forall₂_nil_left_iff.mp hnil]
    intro found hf
    rw [List.mem_singleton.mp hf]
    exact ⟨_, hvi⟩

end Evidence

section Necessity

variable [HexOrder] {orders : List PublicLeaderOrder} {side : PositionSide} {symbols : List String}
  {updatedAt : ℤ}

theorem resolve_openEvidence_isOk (hb : ResponseBatch orders) (hno : symbols.Nodup)
    (hs : ∀ order ∈ orders, order.symbol ∈ symbols)
    (ht : ∀ order ∈ orders, order.orderTimeMs ≤ updatedAt) :
    ∃ resolved, resolveOneWayOrders orders [] (openEvidence side symbols updatedAt) =
      .ok resolved := by
  obtain ⟨leader, hl⟩ := hb.leader
  have hlo : ∃ st, (sortedOrders orders).foldlM
      (resolveOrder (openEvidence side symbols updatedAt)) (priorLedger []) = .ok st := by
    refine foldlM_isOk ResolverState.Nonneg ?_ (nonneg_priorLedger [])
    intro order hm pre hn
    have hin := mem_sortedOrders.mp hm
    have hstep : ∃ post,
        resolveOrder (openEvidence side symbols updatedAt) pre order = .ok post := by
      by_cases hbo : order.positionSide = .both
      · by_cases hle : order.executedQuantity ≤ (pre.cumulative order.rawKey).total
        · exact ⟨pre, resolveOrder_of_le hbo hle⟩
        · exact resolveOrder_isOk hbo hn (not_le.mp hle)
            (allocationsOf_openEvidence hno (hs order hin) (ht order hin))
      · exact ⟨_, resolveOrder_explicit hbo⟩
    obtain ⟨post, ha⟩ := hstep
    exact ⟨post, ha, resolveOrder_nonneg hn ha⟩
  obtain ⟨st, hst⟩ := hlo
  refine ⟨st.resolved, ?_⟩
  rw [resolveOneWayOrders_eq hl (by simp), hst]
  rfl

end Necessity

section Collision

variable {side : PositionSide}

theorem IsView.identity_eq {order other view found : PublicLeaderOrder}
    {qty otherQuantity : Decimal} (hv : IsView order side qty view)
    (hf : IsView other side otherQuantity found)
    (hl : order.leadPortfolioId = other.leadPortfolioId) (hr : other.rawKey = order.rawKey) :
    view.identityKey = found.identityKey := by
  have hk : view.rawKey = found.rawKey := by rw [hv.rawKey, hf.rawKey, hr]
  unfold PublicLeaderOrder.rawKey at hk
  injection hk with hs hsi hty ht
  rw [hv.identityKey, hf.identityKey, hv.leadPortfolioId, hf.leadPortfolioId,
    hl, hv.positionSide, hf.positionSide, hs, hsi, hty, ht]

theorem IsView.identity_eq_plain {order other view : PublicLeaderOrder} {qty : Decimal}
    (hv : IsView order side qty view)
    (hl : order.leadPortfolioId = other.leadPortfolioId) (hr : other.rawKey = order.rawKey)
    (hsi : other.positionSide = side.source) : view.identityKey = other.plainIdentity := by
  have hk : view.rawKey = other.rawKey := by rw [hv.rawKey, hr]
  unfold PublicLeaderOrder.rawKey at hk
  injection hk with hs ho hty ht
  unfold PublicLeaderOrder.plainIdentity
  rw [hv.identityKey, hv.leadPortfolioId, hl, hv.positionSide, hsi, hs, ho, hty, ht]

end Collision

theorem exists_bound_orderTimeMs (orders : List PublicLeaderOrder) :
    ∃ updatedAt, ∀ row ∈ orders, row.orderTimeMs ≤ updatedAt := by
  induction orders with
  | nil => exact ⟨0, by simp⟩
  | cons first rest ih =>
    obtain ⟨updatedAt, hb⟩ := ih
    refine ⟨max first.orderTimeMs updatedAt, ?_⟩
    intro row hr
    rcases List.mem_cons.mp hr with rfl | hr
    · exact le_max_left _ _
    · exact (hb row hr).trans (le_max_right _ _)

/-- On a response of one leader, the resolver loses nothing, whatever is stored and
whatever the evidence, just if no two of its orders share a raw key. -/
theorem losesNothing_iff_rawDistinct [HexOrder] {orders : List PublicLeaderOrder}
    (hbatch : ResponseBatch orders) : (∀ priors closed resolved,
      resolveOneWayOrders orders priors closed = .ok resolved →
      LosesNothing orders priors closed) ↔ RawDistinct orders := by
  constructor
  swap
  · intro hraw priors closed resolved hr
    exact losesNothing_of_rawDistinct hbatch hraw hr
  intro hall order hm hb other hin hne hoth hraw
  obtain ⟨leader, hlea⟩ := hbatch.leader
  have hle : order.leadPortfolioId = other.leadPortfolioId :=
    (hlea order hm).trans (hlea other hin).symm
  -- evidence on the side of the other order, or on any side if it has none
  obtain ⟨side, hsi⟩ : ∃ side : PositionSide,
      other.positionSide = .both ∨ other.positionSide = side.source := by
    cases other.positionSide with
    | long => exact ⟨.long, Or.inr rfl⟩
    | short => exact ⟨.short, Or.inr rfl⟩
    | both => exact ⟨.long, Or.inl rfl⟩
  have hno : (orders.map (·.symbol)).dedup.Nodup := List.nodup_dedup _
  have hs : ∀ row ∈ orders, row.symbol ∈ (orders.map (·.symbol)).dedup :=
    fun row hrow => List.mem_dedup.mpr (List.mem_map_of_mem hrow)
  obtain ⟨updatedAt, ht⟩ : ∃ updatedAt, ∀ row ∈ orders, row.orderTimeMs ≤ updatedAt :=
    exists_bound_orderTimeMs orders
  obtain ⟨resolved, hr⟩ : ∃ resolved, resolveOneWayOrders orders []
      (openEvidence side (orders.map (·.symbol)).dedup updatedAt) = .ok resolved :=
    resolve_openEvidence_isOk hbatch hno hs ht
  have hl := hall [] _ _ hr
  have hc : ∀ row ∈ orders, row.positionSide = .both → ∃ views view qty,
      Contributes orders [] (openEvidence side (orders.map (·.symbol)).dedup updatedAt) row views ∧
        view ∈ views ∧ IsView row side qty view := by
    intro row hrow hro
    obtain ⟨views, hv, hsum⟩ := hl.conserved row hrow hro (by simp)
    have hn : views ≠ [] := by
      rintro rfl
      exact absurd row.executedQuantity_pos (by rw [← hsum]; simp)
    obtain ⟨view, hvi⟩ := List.exists_mem_of_ne_nil views hn
    obtain ⟨-, -, pre, post, -, -, hst, ha⟩ := hv.run
    obtain ⟨qty, hi⟩ := isView_openEvidence hno (hs row hrow) (ht row hrow) hro hst ha view hvi
    exact ⟨views, view, qty, hv, hvi, hi⟩
  obtain ⟨views, view, qty, hv, hvi, hi⟩ := hc order hm hb
  by_cases ho : other.positionSide = .both
  · obtain ⟨others, found, otherQuantity, hot, hf, his⟩ :=
      hc other hin ho
    exact hl.distinct order hm other hin hne.symm views others hv hot view hvi
      found hf (hi.identity_eq his hle hraw)
  · have hp := hoth.resolve_left ho
    obtain ⟨earlier, later, pre, post, hsp, he, hst⟩ := exists_step hr hin
    have ha : post.resolved = pre.resolved ++ [other] := by
      rw [resolveOrder_explicit ho] at hst
      cases hst
      rfl
    have hot : Contributes orders []
        (openEvidence side (orders.map (·.symbol)).dedup updatedAt) other [other] :=
      ⟨earlier, later, pre, post, hsp, he, hst, ha⟩
    refine hl.distinct order hm other hin hne.symm views [other] hv hot view hvi other (by simp) ?_
    rw [hi.identity_eq_plain hle hraw (hsi.resolve_left ho), hp]

section Ladder

/-- The update times differ, so digests are never compared. -/
local instance oneWayLadderHexOrder : HexOrder := ⟨fun _ => 0⟩

def oneWayLadder : List PublicLeaderOrder :=
  okValue (orderHistoryPage "1"
    [oneWayDocument .buy 1 100 1000 1000, oneWayDocument .buy 1 101 1000 1500] none)
    (by decide)

def oneWayApart : List PublicLeaderOrder :=
  okValue (orderHistoryPage "1"
    [oneWayDocument .buy 1 100 1000 1000, oneWayDocument .buy 1 101 1001 1500] none)
    (by decide)

theorem responseBatch_ladder : ResponseBatch oneWayLadder := by
  have hp : orderHistoryPage "1" [oneWayDocument .buy 1 100 1000 1000,
      oneWayDocument .buy 1 101 1000 1500] none = .ok oneWayLadder := eq_ok_okValue _
  exact responseBatch_of_page hp (by decide)

theorem apart_purchases_conserved : (resolveOneWayOrders oneWayApart [] []).toOption.map
        (·.map fun view => (view.positionSide, view.executedQuantity)) =
      some [(.long, 1), (.long, 1)] ∧ LosesNothing oneWayApart [] [] := by
  refine ⟨by with_unfolding_all decide, ?_⟩
  have hp : orderHistoryPage "1" [oneWayDocument .buy 1 100 1000 1000,
      oneWayDocument .buy 1 101 1001 1500] none = .ok oneWayApart := eq_ok_okValue _
  have hb := responseBatch_of_page hp (by decide)
  have hr : ∀ order ∈ oneWayApart, order.positionSide = .both → ∀ other ∈ oneWayApart,
      other ≠ order → (other.positionSide = .both ∨ other.identityKey = other.plainIdentity) →
      other.rawKey ≠ order.rawKey := by decide
  have hok : (resolveOneWayOrders oneWayApart [] []).isOk = true := by with_unfolding_all decide
  exact (losesNothing_iff_rawDistinct hb).mpr hr [] [] _ (eq_ok_okValue hok)

/-- In the ladder, the second purchase is taken for a report of the first one, and
contributes nothing. -/
theorem ladder_purchase_lost : ¬ ∀ [HexOrder] (orders priors resolved : List PublicLeaderOrder)
        (closed : List ClosedLeaderPosition), ResponseBatch orders →
        resolveOneWayOrders orders priors closed = .ok resolved →
        LosesNothing orders priors closed := by
  intro hcl
  have hok : (resolveOneWayOrders oneWayLadder [] []).isOk = true := by with_unfolding_all decide
  have hlo := @hcl oneWayLadderHexOrder oneWayLadder [] _ [] responseBatch_ladder
    (eq_ok_okValue hok)
  obtain ⟨first, second, hl, hb, hse, hr, he, hne⟩ :
      ∃ first second, sortedOrders oneWayLadder = [first, second] ∧ first.positionSide = .both ∧
        second.positionSide = .both ∧ first.rawKey = second.rawKey ∧
        second.executedQuantity = first.executedQuantity ∧ first ≠ second :=
    ⟨oneWayLadder.get ⟨0, by decide⟩, oneWayLadder.get ⟨1, by decide⟩,
      by decide, by decide, by decide, by decide,
      by decide, by decide⟩
  have hm : second ∈ oneWayLadder := mem_sortedOrders.mp (by rw [hl]; simp)
  obtain ⟨views, ⟨earlier, later, pre, post, hs, hea, hst, hv⟩, hsum⟩ :=
    hlo.conserved second hm hse (by simp)
  -- the first purchase stands before the second one
  have hf : first ∈ earlier := by
    rw [hl] at hs
    cases earlier with
    | nil => exact absurd (List.cons.inj hs).1 hne
    | cons row rest =>
      rw [(List.cons.inj hs).1]
      exact List.mem_cons_self
  have hc : second.executedQuantity ≤ (pre.cumulative second.rawKey).total := by
    rw [he, ← hr]
    exact executed_le_total_of_mem hf hb hea
  rw [resolveOrder_of_le hse hc] at hst
  cases hst
  rw [List.self_eq_append_right.mp hv] at hsum
  exact absurd second.executedQuantity_pos (by rw [← hsum]; simp)

end Ladder

end AiQuant.CopyTrading
