import AiQuant.CopyTrading.Ingest

/-! What a poll hands on to `ingest_orders`, order by order.  A public order is
stored under its own identity, a one-way order under the identities of its two
hedge-side views.  Either way the rows of a poll raise what is attributed to an
order to its executed quantity. -/
namespace AiQuant.CopyTrading
open AiQuant.Lib

/-- What identifies a public order in the history, which omits the exchange's order id. -/
structure PublicOrder where
  symbol : String
  positionSide : SourcePositionSide
  orderSide : OrderSide
  orderType : String
  orderTimeMs : ℤ
deriving DecidableEq

def PublicLeaderOrder.publicOrder (order : PublicLeaderOrder) : PublicOrder :=
  ⟨order.symbol, order.positionSide, order.orderSide, order.orderType, order.orderTimeMs⟩

def PublicOrder.identity (order : PublicOrder) (leadPortfolioId : String)
    (side : SourcePositionSide) : Digest :=
  .orderIdentity leadPortfolioId order.orderTimeMs order.orderType side order.orderSide
    order.symbol

def PublicOrder.copyIdentities (order : PublicOrder) (leadPortfolioId : String) : List Digest :=
  match order.positionSide with
  | .both => [order.identity leadPortfolioId .long, order.identity leadPortfolioId .short]
  | side => [order.identity leadPortfolioId side]

def copiedQuantity (leadPortfolioId : String) (order : PublicOrder)
    (signals : List NormalizedSignal) : Decimal :=
  ((order.copyIdentities leadPortfolioId).map (emittedQuantity · signals)).sum

variable {leader : String}

theorem PublicOrder.identity_injective {left right : PublicOrder}
    {leftSide rightSide : SourcePositionSide}
    (hk : left.identity leader leftSide = right.identity leader rightSide) :
    leftSide = rightSide ∧ left.symbol = right.symbol ∧ left.orderSide = right.orderSide ∧
      left.orderType = right.orderType ∧ left.orderTimeMs = right.orderTimeMs := by
  injection hk with _ ht hty hsi ho hs
  exact ⟨hsi, hs, ho, hty, ht⟩

theorem PublicLeaderOrder.identity_eq_iff {left right : PublicLeaderOrder}
    {leftSide rightSide : SourcePositionSide} : left.publicOrder.identity leader leftSide =
        right.publicOrder.identity leader rightSide ↔
      leftSide = rightSide ∧ left.rawKey = right.rawKey := by
  unfold PublicLeaderOrder.rawKey
  rw [RawOrderKey.mk.injEq]
  constructor
  · exact PublicOrder.identity_injective
  · rintro ⟨rfl, hs, ho, ht, hti⟩
    simp [PublicOrder.identity, PublicLeaderOrder.publicOrder, hs, ho, ht, hti]

theorem PublicOrder.mem_copyIdentities {ord : PublicOrder}
    {key : Digest} : key ∈ ord.copyIdentities leader ↔
      ∃ side : PositionSide, key = ord.identity leader side.source ∧
        (ord.positionSide = .both ∨ ord.positionSide = side.source) := by
  unfold PublicOrder.copyIdentities
  constructor
  · intro hm
    split at hm
    · rename_i hboth
      simp only [List.mem_cons, List.not_mem_nil, or_false] at hm
      rcases hm with rfl | rfl
      · exact ⟨.long, rfl, Or.inl hboth⟩
      · exact ⟨.short, rfl, Or.inl hboth⟩
    · rename_i hexplicit
      rw [List.mem_singleton] at hm
      subst hm
      cases hs : ord.positionSide with
      | long => exact ⟨.long, rfl, Or.inr rfl⟩
      | short => exact ⟨.short, rfl, Or.inr rfl⟩
      | both => exact absurd hs hexplicit
  · rintro ⟨side, rfl, hs⟩
    rcases hs with hs | hs
    · rw [hs]
      cases side <;> simp [PositionSide.source]
    · rw [hs]
      cases side <;> simp [PositionSide.source]

theorem PublicOrder.eq_of_mem_copyIdentities {left right : PublicOrder}
    {key : Digest} (hm : left.positionSide = .both ↔ right.positionSide = .both)
    (hle : key ∈ left.copyIdentities leader)
    (hri : key ∈ right.copyIdentities leader) : left = right := by
  obtain ⟨leftSide, rfl, hl⟩ := mem_copyIdentities.mp hle
  obtain ⟨rightSide, hk, hr⟩ := mem_copyIdentities.mp hri
  obtain ⟨hsi, hs, ho, hty, ht⟩ := identity_injective hk
  have hp : left.positionSide = right.positionSide := by
    rcases hl with hb | hl
    · rw [hb, hm.mp hb]
    · rcases hr with hb | hr
      · rw [hm.mpr hb, hb]
      · rw [hl, hr, hsi]
  cases left
  cases right
  simp_all

theorem PublicLeaderOrder.identity_of_fromApi {doc : ApiOrder} {row : PublicLeaderOrder}
    (hp : PublicLeaderOrder.fromApi leader doc = .ok row) :
    row.identityKey = row.publicOrder.identity leader row.positionSide :=
  (PublicLeaderOrder.fromApi_spec hp).2.2.1

theorem IsView.identity_eq_side {row view : PublicLeaderOrder} {side : PositionSide}
    {qty : Decimal} (hv : IsView row side qty view) (hl : view.leadPortfolioId = leader) :
    view.identityKey = row.publicOrder.identity leader side.source := by
  have hp : view.identityKey = view.publicOrder.identity leader view.positionSide := by
    rw [hv.identityKey, hl]
    rfl
  rw [hp, hv.positionSide, PublicLeaderOrder.identity_eq_iff]
  exact ⟨rfl, hv.rawKey⟩

theorem exists_identity_quantity {ord : PublicOrder} (hb : ord.positionSide = .both)
    (leader : String) (quantities : BySide) : ∃ qty : Digest → Decimal,
      (∀ side : PositionSide, qty (ord.identity leader side.source) = quantities side) ∧
      ((ord.copyIdentities leader).map qty).sum = quantities.total := by
  have hne : ord.identity leader .short ≠ ord.identity leader .long := by
    intro hk
    exact absurd (PublicOrder.identity_injective hk).1 (by simp)
  let qty (key : Digest) : Decimal :=
    if key = ord.identity leader .long then quantities .long
    else quantities .short
  have hl : qty (ord.identity leader .long) = quantities .long := if_pos rfl
  have hs : qty (ord.identity leader .short) = quantities .short := if_neg hne
  refine ⟨qty, ?_, ?_⟩
  · intro side
    cases side with
    | long => exact hl
    | short => exact hs
  · unfold PublicOrder.copyIdentities
    rw [hb]
    simp [BySide.total, hl, hs]

section Attribution

variable [HexOrder] {leader : String} {log : EventLog}

def EventLog.attributedTotal (log : EventLog) (leadPortfolioId : String) (order : PublicOrder) :
    Decimal :=
  ((order.copyIdentities leadPortfolioId).map (log.executedSoFar leadPortfolioId)).sum

theorem EventLog.attributedTotal_nonneg (ord : PublicOrder) :
    0 ≤ log.attributedTotal leader ord := by
  apply List.sum_nonneg
  intro qty hm
  obtain ⟨key, -, rfl⟩ := List.mem_map.mp hm
  exact EventLog.executedSoFar_nonneg key

theorem EventLog.executedSoFar_le_attributedTotal {ord : PublicOrder} {key : Digest}
    (hm : key ∈ ord.copyIdentities leader) : log.executedSoFar leader key ≤
      log.attributedTotal leader ord := by
  apply List.single_le_sum
  · intro qty hq
    obtain ⟨other, -, rfl⟩ := List.mem_map.mp hq
    exact EventLog.executedSoFar_nonneg other
  · exact List.mem_map.mpr ⟨key, hm, rfl⟩

structure LeaderRows (leadPortfolioId : String) (log : EventLog) : Prop where
  reset : log.latestReset leadPortfolioId = none
  keyed : ∀ row ∈ log.sourceOrders, row.order.leadPortfolioId = leadPortfolioId → row.order.Keyed
  plain : ∀ row ∈ log.sourceOrders, row.order.leadPortfolioId = leadPortfolioId →
    row.order.identityKey = row.order.publicOrder.identity leadPortfolioId row.order.positionSide
  monotone : ∀ old ∈ log.sourceOrders, ∀ new ∈ log.sourceOrders,
    old.order.leadPortfolioId = leadPortfolioId → new.order.leadPortfolioId = leadPortfolioId →
    old.order.identityKey = new.order.identityKey →
    old.order.updateTimeMs < new.order.updateTimeMs →
    old.order.executedQuantity ≤ new.order.executedQuantity

theorem LeaderRows.executed_le_of_recency_le (hro : LeaderRows leader log)
    {old new : SourceOrderEvent} (ho : old ∈ log.epochOrders leader)
    (hn : new ∈ log.epochOrders leader) (hk : old.order.identityKey = new.order.identityKey)
    (hr : old.order.recency ≤ new.order.recency) :
    old.order.executedQuantity ≤ new.order.executedQuantity := by
  rw [EventLog.mem_epochOrders hro.reset] at ho hn
  unfold PublicLeaderOrder.recency at hr
  rw [Prod.Lex.toLex_le_toLex] at hr
  rcases hr with hlt | ⟨-, hr⟩
  · exact hro.monotone old ho.1 new hn.1 ho.2 hn.2 hk hlt
  · rw [Prod.Lex.toLex_le_toLex] at hr
    rcases hr with hlt | ⟨heq, -⟩
    · exact hlt.le
    · exact heq.le

theorem LeaderRows.attributed_eq (hrows : LeaderRows leader log) {attributed : RawOrderKey → BySide}
    (hge : ∀ prior ∈ log.sourceOrdersForResolution leader, ∀ side : PositionSide,
      prior.positionSide = side.source → prior.executedQuantity ≤ attributed prior.rawKey side)
    (heq : ∀ key side, attributed key side = 0 ∨
      ∃ prior ∈ log.sourceOrdersForResolution leader, prior.rawKey = key ∧
        prior.positionSide = side.source ∧ attributed key side = prior.executedQuantity)
    (ord : PublicLeaderOrder) (side : PositionSide) :
    attributed ord.rawKey side = log.executedSoFar leader
      (ord.publicOrder.identity leader side.source) := by
  have hpl : ∀ prior ∈ log.sourceOrdersForResolution leader, prior.identityKey =
      prior.publicOrder.identity leader prior.positionSide := by
    intro prior hp
    obtain ⟨-, row, hrow, rfl⟩ := EventLog.mem_sourceOrdersForResolution hp
    rw [EventLog.mem_epochOrders hrows.reset] at hrow
    exact hrows.plain row hrow.1 hrow.2
  apply le_antisymm
  · rcases heq ord.rawKey side with hz | ⟨prior, hp, hraw, hs, hq⟩
    · rw [hz]
      exact EventLog.executedSoFar_nonneg _
    · have hi : prior.identityKey = ord.publicOrder.identity leader side.source := by
        rw [hpl prior hp, hs, PublicLeaderOrder.identity_eq_iff]
        exact ⟨rfl, hraw⟩
      obtain ⟨-, row, hrow, rfl⟩ := EventLog.mem_sourceOrdersForResolution hp
      rw [hq, ← hi]
      exact EventLog.le_executedSoFar hrow
  · cases hpr : log.previousExecuted leader (ord.publicOrder.identity leader side.source) with
    | none =>
      rw [EventLog.executedSoFar_of_previous_none hpr]
      rcases heq ord.rawKey side with hz | ⟨prior, -, -, -, hq⟩
      · exact hz.ge
      · rw [hq]
        exact prior.executedQuantity_pos.le
    | some qty =>
      obtain ⟨⟨row, hrow, hi, hq⟩, -⟩ :=
        EventLog.previousExecuted_eq_some_iff.mp hpr
      have hm := (EventLog.mem_epochOrders hrows.reset).mp hrow
      have hr := hrows.plain row hm.1 hm.2
      obtain ⟨hro, -⟩ := PublicOrder.identity_injective (hr.symm.trans hi)
      have he : row.order.positionSide ≠ .both := by
        rw [hro]
        exact side.source_ne_both
      obtain ⟨prior, hp, hk, hre⟩ :=
        EventLog.exists_sourceOrdersForResolution hrow he
      obtain ⟨-, newer, hn, rfl⟩ := EventLog.mem_sourceOrdersForResolution hp
      have hle := hrows.executed_le_of_recency_le hrow hn hk.symm hre
      have hpri := (hpl newer.order hp).symm.trans (hk.trans hi)
      obtain ⟨hs, hraw⟩ := PublicLeaderOrder.identity_eq_iff.mp hpri
      have ha := hge newer.order hp side hs
      rw [hraw] at ha
      rw [EventLog.executedSoFar, hpr, Option.getD_some, ← hq]
      exact hle.trans ha

/-- The rows that a poll hands to `ingest_orders`, and how they add up: the rows of each
public order raise what is attributed to the order's executed quantity. -/
structure PollParts (leadPortfolioId : String) (log : EventLog)
    (rows parts : List PublicLeaderOrder) : Prop where
  lead : ∀ part ∈ parts, part.leadPortfolioId = leadPortfolioId
  keyed : ∀ part ∈ parts, part.Keyed
  explicit : ∀ part ∈ parts, part.positionSide ≠ .both
  plain : ∀ part ∈ parts,
    part.identityKey = part.publicOrder.identity leadPortfolioId part.positionSide
  nodup : (parts.map (·.identityKey)).Nodup
  source : ∀ part ∈ parts, ∃ row ∈ rows,
    part.identityKey ∈ row.publicOrder.copyIdentities leadPortfolioId ∧
      part.updateTimeMs = row.updateTimeMs ∧ part.rawPayloadHash = row.rawPayloadHash
  quantity : ∀ row ∈ rows, ∃ quantities : Digest → Decimal,
    ((row.publicOrder.copyIdentities leadPortfolioId).map quantities).sum =
      row.executedQuantity ∧
    (∀ part ∈ parts, part.identityKey ∈ row.publicOrder.copyIdentities leadPortfolioId →
      part.executedQuantity = quantities part.identityKey) ∧
    ∀ identityKey ∈ row.publicOrder.copyIdentities leadPortfolioId,
      log.executedSoFar leadPortfolioId identityKey ≤ quantities identityKey ∧
      (log.executedSoFar leadPortfolioId identityKey < quantities identityKey →
        ∃ part ∈ parts, part.identityKey = identityKey)

theorem pollParts_explicit {rows : List PublicLeaderOrder} (hd : ∀ row ∈ rows,
      ∃ doc, PublicLeaderOrder.fromApi leader doc = .ok row)
    (he : ∀ row ∈ rows, row.positionSide ≠ .both) (hn : (rows.map (·.publicOrder)).Nodup)
    (hg : ∀ row ∈ rows, log.attributedTotal leader row.publicOrder ≤ row.executedQuantity) :
    PollParts leader log rows rows := by
  have hpl : ∀ row ∈ rows, row.identityKey = row.publicOrder.identity leader row.positionSide := by
    intro row hm
    obtain ⟨doc, hp⟩ := hd row hm
    exact PublicLeaderOrder.identity_of_fromApi hp
  have hi : ∀ row ∈ rows, row.publicOrder.copyIdentities leader = [row.identityKey] := by
    intro row hm
    rw [hpl row hm]
    unfold PublicOrder.copyIdentities
    split
    · rename_i hboth
      exact absurd hboth (he row hm)
    · rfl
  have hs : ∀ left ∈ rows, ∀ right ∈ rows, left.identityKey = right.identityKey → left = right := by
    intro left hle right hr hk
    apply List.inj_on_of_nodup_map hn hle hr
    have hl : left.identityKey ∈ left.publicOrder.copyIdentities leader := by
      rw [hi left hle]
      exact List.mem_singleton_self _
    refine PublicOrder.eq_of_mem_copyIdentities ?_ hl ?_
    · exact iff_of_false (he left hle) (he right hr)
    · rw [hi right hr, hk]
      exact List.mem_singleton_self _
  refine ⟨?_, ?_, he, hpl, ?_, ?_, ?_⟩
  · intro row hm
    obtain ⟨doc, hp⟩ := hd row hm
    exact (PublicLeaderOrder.fromApi_spec hp).1
  · intro row hm
    obtain ⟨doc, hp⟩ := hd row hm
    exact (PublicLeaderOrder.fromApi_spec hp).2.1
  · exact (List.nodup_map_iff_inj_on (List.Nodup.of_map _ hn)).mpr hs
  · intro row hm
    refine ⟨row, hm, ?_, rfl, rfl⟩
    rw [hi row hm]
    exact List.mem_singleton_self _
  · intro row hm
    refine ⟨fun _ => row.executedQuantity, by simp [hi row hm], ?_, ?_⟩
    · intro part hpa hid
      rw [hi row hm, List.mem_singleton] at hid
      rw [hs part hpa row hm hid]
    · intro key hid
      refine ⟨(EventLog.executedSoFar_le_attributedTotal hid).trans (hg row hm), ?_⟩
      intro _
      rw [hi row hm, List.mem_singleton] at hid
      exact ⟨row, hm, hid.symm⟩

theorem pollParts_oneWay {rows parts : List PublicLeaderOrder}
    {closed : List ClosedLeaderPosition} (hro : LeaderRows leader log)
    (hd : ∀ row ∈ rows, ∃ doc, PublicLeaderOrder.fromApi leader doc = .ok row)
    (hbo : ∀ row ∈ rows, row.positionSide = .both) (hn : (rows.map (·.publicOrder)).Nodup)
    (hg : ∀ row ∈ rows, log.attributedTotal leader row.publicOrder ≤ row.executedQuantity)
    (hre : resolveOneWayOrders rows (log.sourceOrdersForResolution leader) closed = .ok parts) :
    PollParts leader log rows parts := by
  have hraw : (rows.map (·.rawKey)).Nodup := by
    refine (List.nodup_map_iff_inj_on (List.Nodup.of_map _ hn)).mpr ?_
    intro left hle right hr hk
    apply List.inj_on_of_nodup_map hn hle hr
    simp only [PublicLeaderOrder.rawKey, RawOrderKey.mk.injEq] at hk
    simp [PublicLeaderOrder.publicOrder, hk, hbo left hle, hbo right hr]
  obtain ⟨attributed, hge, heq, hid, hv, ha⟩ := resolveOneWayOrders_spec
    hbo hraw EventLog.sourceOrdersForResolution_nodup hre
  have hat := hro.attributed_eq hge heq
  -- Every part is a view of one row of the response.
  have hvi : ∀ part ∈ parts, ∃ row ∈ rows, ∃ side qty, IsView row side qty part := by
    intro part hpart
    obtain ⟨row, hrow, hp⟩ := hv part hpart
    obtain ⟨quantities, ha, -⟩ := ha row hrow
    obtain ⟨side, hvi, -⟩ := ha.complete part hpart hp
    exact ⟨row, hrow, side, _, hvi⟩
  have hl : ∀ part ∈ parts, part.leadPortfolioId = leader := by
    intro part hpart
    obtain ⟨row, hrow, side, qty, hvi⟩ := hvi part hpart
    obtain ⟨doc, hpa⟩ := hd row hrow
    rw [hvi.leadPortfolioId, (PublicLeaderOrder.fromApi_spec hpa).1]
  have hpl : ∀ part ∈ parts,
      part.identityKey = part.publicOrder.identity leader part.positionSide := by
    intro part hpart
    obtain ⟨row, hrow, side, qty, hvi⟩ := hvi part hpart
    rw [hvi.identityKey, hl part hpart]
    rfl
  refine ⟨hl, ?_, ?_, hpl, hid, ?_, ?_⟩
  · intro part hpart
    obtain ⟨row, hrow, side, qty, hvi⟩ := hvi part hpart
    exact hvi.eventKey
  · intro part hpart
    obtain ⟨row, hrow, side, qty, hvi⟩ := hvi part hpart
    rw [hvi.positionSide]
    exact side.source_ne_both
  · intro part hpart
    obtain ⟨row, hrow, side, qty, hvi⟩ := hvi part hpart
    refine ⟨row, hrow, ?_, hvi.updateTimeMs, hvi.rawPayloadHash⟩
    rw [hvi.identity_eq_side (hl part hpart)]
    exact PublicOrder.mem_copyIdentities.mpr ⟨side, rfl, Or.inl (hbo row hrow)⟩
  · intro row hrow
    obtain ⟨quantities, ha, ht⟩ := ha row hrow
    have ho : row.publicOrder.positionSide = .both := hbo row hrow
    obtain ⟨qty, hq, hsum⟩ :=
      exists_identity_quantity ho leader quantities
    -- The stored quantities of the order are those that the resolver starts from.
    obtain ⟨stored, hst, hs⟩ :=
      exists_identity_quantity ho leader (attributed row.rawKey)
    have hb : log.attributedTotal leader row.publicOrder = (attributed row.rawKey).total := by
      rw [EventLog.attributedTotal, ← hs]
      refine congrArg List.sum (List.map_congr_left fun key hi => ?_)
      obtain ⟨side, rfl, -⟩ := PublicOrder.mem_copyIdentities.mp hi
      rw [hst, hat row side]
    rw [max_eq_left (hb ▸ hg row hrow)] at ht
    refine ⟨qty, hsum.trans ht, ?_, ?_⟩
    · intro part hpart hi
      obtain ⟨side, hsi, -⟩ := PublicOrder.mem_copyIdentities.mp hi
      have hp : part.rawKey = row.rawKey :=
        (PublicLeaderOrder.identity_eq_iff.mp ((hpl part hpart).symm.trans hsi)).2
      obtain ⟨viewSide, hvi, -⟩ := ha.complete part hpart hp
      rw [hvi.identity_eq_side (hl part hpart), hq, hvi.executedQuantity]
    · intro key hi
      obtain ⟨side, rfl, -⟩ := PublicOrder.mem_copyIdentities.mp hi
      rw [hq, ← hat row side]
      refine ⟨ha.le side, fun hlt => ?_⟩
      obtain ⟨part, hpart, hvi⟩ := ha.view side hlt
      exact ⟨part, hpart, hvi.identity_eq_side (hl part hpart)⟩

end Attribution

theorem sum_map_sub_map (identities : List Digest) (left right : Digest → Decimal) :
    (identities.map fun key => left key - right key).sum =
      (identities.map left).sum - (identities.map right).sum := by
  induction identities with
  | nil => simp
  | cons key identities ih =>
    simp only [List.map_cons, List.sum_cons, ih]
    ring

section Poll

variable [HexOrder] {leader : String} {oneWay : Bool}
  {base : List PublicLeaderOrder} {hist : List (List PublicLeaderOrder)}
  {log : EventLog} {signals : List NormalizedSignal} {resp : PollResponse}

theorem PollParts.ingestInput {rows parts : List PublicLeaderOrder}
    (hp : PollParts leader log rows parts) (hro : LeaderRows leader log)
    (hr : ∀ row ∈ rows, (log.maximumUpdateTime leader).getD 0 ≤ row.updateTimeMs) :
    IngestInput leader false
      ⟨log, (log.maximumUpdateTime leader).getD 0, []⟩ (sortedOrders parts) := by
  refine ⟨hro.reset, hro.keyed, ?_, ?_, Or.inr ?_, ?_, sortedOrders_sorted parts, ?_⟩
  · intro part hpa
    exact hp.lead part (mem_sortedOrders.mp hpa)
  · intro part hpa
    exact hp.keyed part (mem_sortedOrders.mp hpa)
  · intro part hpa
    exact hp.explicit part (mem_sortedOrders.mp hpa)
  · exact ((sortedOrders_perm parts).map _).nodup_iff.mpr hp.nodup
  · intro part hpa
    obtain ⟨row, hrow, -, hu, -⟩ := hp.source part (mem_sortedOrders.mp hpa)
    rw [hu]
    exact hr row hrow

structure PollEffect (leadPortfolioId : String) (oneWay : Bool) (log : EventLog)
    (rows : List PublicLeaderOrder) (after : EventLog) (new : List NormalizedSignal) : Prop where
  shown : ∀ row ∈ rows,
    after.attributedTotal leadPortfolioId row.publicOrder = row.executedQuantity
  grows : ∀ row ∈ rows, ∀ identityKey ∈ row.publicOrder.copyIdentities leadPortfolioId,
    log.executedSoFar leadPortfolioId identityKey ≤
      after.executedSoFar leadPortfolioId identityKey
  hidden : ∀ order : PublicOrder, (order.positionSide = .both ↔ oneWay = true) →
    (∀ row ∈ rows, row.publicOrder ≠ order) →
    after.attributedTotal leadPortfolioId order = log.attributedTotal leadPortfolioId order ∧
      copiedQuantity leadPortfolioId order new = 0
  copied : ∀ row ∈ rows,
    (∀ identityKey ∈ row.publicOrder.copyIdentities leadPortfolioId,
      log.executedSoFar leadPortfolioId identityKey = 0 →
      log.executedSoFar leadPortfolioId identityKey <
        after.executedSoFar leadPortfolioId identityKey →
      log.matchesAmbiguousBaseline leadPortfolioId row.rawPayloadHash = false) →
    copiedQuantity leadPortfolioId row.publicOrder new =
      row.executedQuantity - log.attributedTotal leadPortfolioId row.publicOrder
  replayed : ∀ row ∈ rows, log.attributedTotal leadPortfolioId row.publicOrder = 0 →
    log.matchesAmbiguousBaseline leadPortfolioId row.rawPayloadHash = true →
    copiedQuantity leadPortfolioId row.publicOrder new = 0

section Effect

variable {rows parts : List PublicLeaderOrder} {st : IngestState} {seen : Time}

theorem LoopEffect.of_no_part (hl : LoopEffect leader false seen (sortedOrders parts)
      ⟨log, (log.maximumUpdateTime leader).getD 0, []⟩ st) {key : Digest}
    (hn : ¬ ∃ part ∈ parts, part.identityKey = key) : st.log.executedSoFar leader key =
        log.executedSoFar leader key ∧
      emittedQuantity key st.signals = 0 :=
  hl.other key fun part hp heq => hn ⟨part, mem_sortedOrders.mp hp, heq⟩

variable {row : PublicLeaderOrder}

theorem PollParts.payload_eq (hpa : PollParts leader log rows parts)
    (hm : ∀ row ∈ rows, row.positionSide = .both ↔ oneWay = true)
    (hn : (rows.map (·.publicOrder)).Nodup) {part : PublicLeaderOrder} (hpart : part ∈ parts)
    (hr : row ∈ rows) (hi : part.identityKey ∈ row.publicOrder.copyIdentities leader) :
    part.rawPayloadHash = row.rawPayloadHash := by
  obtain ⟨owner, ho, hs, -, hp⟩ := hpa.source part hpart
  have hsa := PublicOrder.eq_of_mem_copyIdentities ((hm owner ho).trans (hm row hr).symm) hs hi
  rw [hp, List.inj_on_of_nodup_map hn ho hr hsa]

section

variable (hp : PollParts leader log rows parts)
include hp

theorem PollParts.executed_eq (hl : LoopEffect leader false seen (sortedOrders parts)
      ⟨log, (log.maximumUpdateTime leader).getD 0, []⟩ st) (hr : row ∈ rows) :
    st.log.attributedTotal leader row.publicOrder = row.executedQuantity ∧
      ∀ key ∈ row.publicOrder.copyIdentities leader, log.executedSoFar leader key ≤
          st.log.executedSoFar leader key := by
  obtain ⟨quantities, hs, hpa, hle⟩ := hp.quantity row hr
  have hq : ∀ key ∈ row.publicOrder.copyIdentities leader,
      st.log.executedSoFar leader key = quantities key := by
    intro key hi
    by_cases he : ∃ part ∈ parts, part.identityKey = key
    · obtain ⟨part, hm, rfl⟩ := he
      rw [(hl.own part (mem_sortedOrders.mpr hm)).1, hpa part hm hi]
      exact max_eq_right (hle _ hi).1
    · rw [(hl.of_no_part he).1]
      by_contra hne
      exact he ((hle key hi).2 (lt_of_le_of_ne (hle key hi).1 hne))
  refine ⟨?_, ?_⟩
  · rw [EventLog.attributedTotal, List.map_congr_left hq, hs]
  · intro key hi
    rw [hq key hi]
    exact (hle key hi).1

theorem PollParts.emitted_eq (hm : ∀ row ∈ rows, row.positionSide = .both ↔ oneWay = true)
    (hn : (rows.map (·.publicOrder)).Nodup) (hl : LoopEffect leader false seen (sortedOrders parts)
      ⟨log, (log.maximumUpdateTime leader).getD 0, []⟩ st) (hr : row ∈ rows) {key : Digest}
    (hi : key ∈ row.publicOrder.copyIdentities leader) : emittedQuantity key st.signals =
      if log.executedSoFar leader key = 0 ∧
          log.matchesAmbiguousBaseline leader row.rawPayloadHash = true then 0
      else st.log.executedSoFar leader key -
        log.executedSoFar leader key := by
  by_cases he : ∃ part ∈ parts, part.identityKey = key
  · obtain ⟨part, hmem, rfl⟩ := he
    rw [(hl.own part (mem_sortedOrders.mpr hmem)).2, emittedQuantity_nil, zero_add]
    simp only [Bool.false_or, EventLog.replaysBaseline, Bool.and_eq_true,
      Option.isNone_iff_eq_none, EventLog.previousExecuted_eq_none_iff_executedSoFar,
      hp.payload_eq hm hn hmem hr hi]
  · obtain ⟨hs, hq⟩ := hl.of_no_part he
    rw [hq, hs, sub_self, ite_self]

theorem PollParts.pollEffect (hmo : ∀ row ∈ rows, row.positionSide = .both ↔ oneWay = true)
    (hn : (rows.map (·.publicOrder)).Nodup) (hl : LoopEffect leader false seen (sortedOrders parts)
      ⟨log, (log.maximumUpdateTime leader).getD 0, []⟩ st) :
    PollEffect leader oneWay log rows st.log st.signals := by
  refine ⟨fun row hr => (hp.executed_eq hl hr).1,
    fun row hr => (hp.executed_eq hl hr).2, ?_, ?_, ?_⟩
  · intro ord ho hnot
    have hnone : ∀ key ∈ ord.copyIdentities leader, ¬ ∃ part ∈ parts, part.identityKey = key := by
      rintro _ hi ⟨part, hpa, rfl⟩
      obtain ⟨row, hr, hs, -⟩ := hp.source part hpa
      exact hnot row hr (PublicOrder.eq_of_mem_copyIdentities ((hmo row hr).trans ho.symm) hs hi)
    constructor
    · unfold EventLog.attributedTotal
      rw [List.map_congr_left fun key hi =>
        (hl.of_no_part (hnone key hi)).1]
    · unfold copiedQuantity
      rw [List.map_congr_left fun key hi =>
        (hl.of_no_part (hnone key hi)).2]
      simp
  · intro row hr hli
    obtain ⟨hsh, hg⟩ := hp.executed_eq hl hr
    have he : ∀ key ∈ row.publicOrder.copyIdentities leader, emittedQuantity key st.signals =
          st.log.executedSoFar leader key -
            log.executedSoFar leader key := by
      intro key hi
      rw [hp.emitted_eq hmo hn hl hr hi]
      split
      · -- A replayed identity that grew would match a baseline payload.
        rename_i hreplays
        have hst : ¬ log.executedSoFar leader key < st.log.executedSoFar leader key := by
          intro hlt
          have hno := hli key hi hreplays.1 hlt
          rw [hreplays.2] at hno
          cases hno
        have hle := hg key hi
        linarith
      · rfl
    rw [copiedQuantity, List.map_congr_left he, sum_map_sub_map, ← hsh]
    rfl
  · intro row hr ht hm
    have he : ∀ key ∈ row.publicOrder.copyIdentities leader,
        emittedQuantity key st.signals = 0 := by
      intro key hi
      have hz : log.executedSoFar leader key = 0 :=
        le_antisymm (ht ▸ EventLog.executedSoFar_le_attributedTotal hi)
          (EventLog.executedSoFar_nonneg _)
      rw [hp.emitted_eq hmo hn hl hr hi, if_pos ⟨hz, hm⟩]
    rw [copiedQuantity, List.map_congr_left he]
    simp

end

end Effect

end Poll

end AiQuant.CopyTrading
