import AiQuant.CopyTrading.NetPosition
import AiQuant.CopyTrading.OneWayViews

/-! Cutting a history into polls.  Each poll rebuilds the source positions from the
newest view of every order, each replayed in full at its last update.  That is the
history's own position as long as no order of the other side is updated while an order is
being filled. -/
namespace AiQuant.CopyTrading
open AiQuant.Lib

section Replay

variable {positions : SourcePositions} {sym : String} {side : PositionSide}
  {orderSide : OrderSide}

theorem max_zero_sub_sub {qty first second : Decimal} (hs : 0 ≤ second) :
    max 0 (max 0 (qty - first) - second) = max 0 (qty - (first + second)) := by
  rcases le_total 0 (qty - first) with hle | hle
  · rw [max_eq_right hle, sub_sub]
  · have ho : qty - (first + second) ≤ 0 := by linarith
    rw [max_eq_left hle, zero_sub, max_eq_left (neg_nonpos.mpr hs), max_eq_left ho]

theorem applyPositionDelta_add {first second : Decimal} (hs : 0 ≤ second) :
    applyPositionDelta (applyPositionDelta positions sym side orderSide first) sym side
        orderSide second = applyPositionDelta positions sym side orderSide (first + second) := by
  unfold applyPositionDelta
  dsimp only
  rw [Function.update_self, Function.update_idem]
  split
  · rw [add_assoc]
  · rw [max_zero_sub_sub hs]

theorem applyPositionDelta_comm {otherSymbol : String} {otherSide : PositionSide}
    {otherOrderSide : OrderSide} {qty otherQuantity : Decimal} (hq : 0 ≤ qty)
    (ho : 0 ≤ otherQuantity) (hs : sym = otherSymbol → orderSide = otherOrderSide) :
    applyPositionDelta (applyPositionDelta positions sym side orderSide qty) otherSymbol
        otherSide otherOrderSide otherQuantity =
      applyPositionDelta (applyPositionDelta positions otherSymbol otherSide otherOrderSide
        otherQuantity) sym side orderSide qty := by
  by_cases hk : (sym, side) = (otherSymbol, otherSide)
  · obtain ⟨rfl, rfl⟩ := Prod.ext_iff.mp hk
    obtain rfl := hs rfl
    rw [applyPositionDelta_add ho, applyPositionDelta_add hq, add_comm]
  · unfold applyPositionDelta
    dsimp only
    rw [Function.update_of_ne (Ne.symm hk), Function.update_of_ne hk, Function.update_comm hk]

def raiseCumulative (cumulative : RawOrderKey → BySide) (key : RawOrderKey) (side : PositionSide)
    (quantity : Decimal) : RawOrderKey → BySide :=
  Function.update cumulative key
    (Function.update (cumulative key) side (max (cumulative key side) quantity))

theorem raiseCumulative_apply (cumulative : RawOrderKey → BySide) (key : RawOrderKey)
    (qty : Decimal) (other : RawOrderKey) (otherSide : PositionSide) :
    raiseCumulative cumulative key side qty other otherSide =
      if other = key ∧ otherSide = side then max (cumulative key side) qty
      else cumulative other otherSide := by
  unfold raiseCumulative
  by_cases hk : other = key
  · subst hk
    rw [Function.update_self]
    by_cases hs : otherSide = side
    · subst hs
      rw [Function.update_self, if_pos ⟨rfl, rfl⟩]
    · rw [Function.update_of_ne hs, if_neg fun hb => hs hb.2]
  · rw [Function.update_of_ne hk, if_neg fun hb => hk hb.1]

theorem raiseCumulative_comm (cumulative : RawOrderKey → BySide) (key other : RawOrderKey)
    (otherSide : PositionSide) (qty otherQuantity : Decimal) :
    raiseCumulative (raiseCumulative cumulative key side qty) other otherSide otherQuantity =
      raiseCumulative (raiseCumulative cumulative other otherSide otherQuantity) key side
        qty := by
  funext found foundSide
  simp only [raiseCumulative_apply]
  by_cases hs : key = other ∧ side = otherSide
  · obtain ⟨rfl, rfl⟩ := hs
    by_cases hf : found = key ∧ foundSide = side
    · simp only [hf, and_self, if_true]
      rw [max_right_comm]
    · simp only [hf, if_false]
  · have ho : ¬ (other = key ∧ otherSide = side) :=
      fun hb => hs ⟨hb.1.symm, hb.2.symm⟩
    by_cases hf : found = key ∧ foundSide = side
    · obtain ⟨rfl, rfl⟩ := hf
      simp [hs]
    · by_cases hfo : found = other ∧ foundSide = otherSide
      · obtain ⟨rfl, rfl⟩ := hfo
        simp [ho]
      · simp [hf, hfo]

variable {st : ResolverState}

theorem replayPrior_of_side {prior : PublicLeaderOrder} (hs : prior.positionSide = side.source) :
    replayPrior st prior = { st with
      positions := applyPositionDelta st.positions prior.symbol side prior.orderSide
        prior.executedQuantity
      cumulative := raiseCumulative st.cumulative prior.rawKey side prior.executedQuantity } := by
  unfold replayPrior
  rw [hs, PositionSide.explicit?_source]
  rfl

theorem replayPrior_comm {first second : PublicLeaderOrder}
    (hsa : first.symbol = second.symbol → first.orderSide = second.orderSide) :
    replayPrior (replayPrior st first) second = replayPrior (replayPrior st second) first := by
  cases hf : first.positionSide.explicit? with
  | none =>
    have hsk : ∀ reached, replayPrior reached first = reached := by
      intro reached
      unfold replayPrior
      rw [hf]
    rw [hsk, hsk]
  | some firstSide =>
    cases hs : second.positionSide.explicit? with
    | none =>
      have hsk : ∀ reached, replayPrior reached second = reached := by
        intro reached
        unfold replayPrior
        rw [hs]
      rw [hsk, hsk]
    | some secondSide =>
      rw [SourcePositionSide.explicit?_eq_some_iff] at hf hs
      rw [replayPrior_of_side hf, replayPrior_of_side hs, replayPrior_of_side hs,
        replayPrior_of_side hf]
      simp only [ResolverState.mk.injEq, and_true]
      exact ⟨applyPositionDelta_comm first.executedQuantity_pos.le
        second.executedQuantity_pos.le hsa, raiseCumulative_comm _ _ _ _ _ _⟩

theorem replay_move_last {view : PublicLeaderOrder} {pre behind : List PublicLeaderOrder}
    (hs : ∀ later ∈ behind, view.symbol = later.symbol → view.orderSide = later.orderSide) :
    (pre ++ view :: behind).foldl replayPrior st =
      replayPrior ((pre ++ behind).foldl replayPrior st) view := by
  rw [List.foldl_append, List.foldl_cons, List.foldl_append]
  generalize pre.foldl replayPrior st = reached
  induction behind generalizing reached with
  | nil => rfl
  | cons later rest ih =>
    rw [List.foldl_cons, List.foldl_cons, replayPrior_comm (hs later List.mem_cons_self)]
    exact ih (fun other hm => hs other (List.mem_cons_of_mem _ hm)) _

end Replay

section Latest

variable [HexOrder]

theorem latestByIdentity_append (orders : List PublicLeaderOrder) (ord : PublicLeaderOrder) :
    latestByIdentity (orders ++ [ord]) = keepLatest (latestByIdentity orders) ord := by
  unfold latestByIdentity
  rw [List.foldl_append]
  rfl

theorem latestByIdentity_of_nodup {orders : List PublicLeaderOrder}
    (hn : (orders.map (·.identityKey)).Nodup) : latestByIdentity orders = orders := by
  induction orders using List.reverseRecOn with
  | nil => rfl
  | append_singleton orders ord ih =>
    rw [List.map_append, List.nodup_append] at hn
    rw [latestByIdentity_append, ih hn.1]
    unfold keepLatest
    have hno : orders.find? (·.identityKey = ord.identityKey) = none := by
      rw [List.find?_eq_none]
      intro other hm hs
      rw [decide_eq_true_eq] at hs
      exact hn.2.2 _ (List.mem_map_of_mem hm) ord.identityKey (by simp) hs
    rw [hno]

theorem keepLatest_cases {latest : List PublicLeaderOrder} {view : PublicLeaderOrder}
    (hn : (latest.map (·.identityKey)).Nodup)
    (hne : ∀ kept ∈ latest, kept.identityKey = view.identityKey → kept.recency < view.recency) :
    (keepLatest latest view = latest ++ [view] ∧
      ∀ kept ∈ latest, kept.identityKey ≠ view.identityKey) ∨
    ∃ pre kept behind, latest = pre ++ kept :: behind ∧
      kept.identityKey = view.identityKey ∧ keepLatest latest view = pre ++ view :: behind := by
  unfold keepLatest
  split
  · rename_i hnone
    refine Or.inl ⟨rfl, ?_⟩
    intro kept hm hs
    exact List.find?_eq_none.mp hnone kept hm (decide_eq_true hs)
  · rename_i kept hfound
    have hm := List.mem_of_find?_eq_some hfound
    have hs : kept.identityKey = view.identityKey := by simpa using List.find?_some hfound
    obtain ⟨pre, behind, rfl⟩ := List.append_of_mem hm
    rw [if_pos (hne kept hm hs)]
    refine Or.inr ⟨pre, kept, behind, rfl, hs, ?_⟩
    rw [List.map_append, List.map_cons, List.nodup_append, List.nodup_cons] at hn
    have hb : (pre.map fun other => if other.identityKey = view.identityKey then view
        else other) = pre := by
      refine (List.map_congr_left ?_).trans (List.map_id _)
      intro other ho
      rw [if_neg]
      · rfl
      · intro he
        exact hn.2.2 _ (List.mem_map_of_mem ho) _ (by simp) (he.trans hs.symm)
    have hbe : (behind.map fun other => if other.identityKey = view.identityKey then view
        else other) = behind := by
      refine (List.map_congr_left ?_).trans (List.map_id _)
      intro other ho
      rw [if_neg]
      · rfl
      · intro he
        refine hn.2.1.1 (List.mem_map.mpr ⟨other, ho, he.trans hs.symm⟩)
    rw [List.map_append, List.map_cons, if_pos hs, hb, hbe]

end Latest

theorem PublicLeaderOrder.rawKey_eq_iff {left right : PublicLeaderOrder} :
    left.rawKey = right.rawKey ↔ left.symbol = right.symbol ∧ left.orderSide = right.orderSide ∧
      left.orderType = right.orderType ∧ left.orderTimeMs = right.orderTimeMs := by
  unfold PublicLeaderOrder.rawKey
  rw [RawOrderKey.mk.injEq]

section Order

variable [HexOrder]

/-- The rows are in the order in which the resolver takes them. -/
def InOrder (rows : List PublicLeaderOrder) : Prop :=
  rows.Pairwise fun earlier later => earlier.sortKey ≤ later.sortKey

theorem InOrder.sortedOrders_eq {rows : List PublicLeaderOrder} (ho : InOrder rows) :
    sortedOrders rows = rows :=
  List.Pairwise.insertionSort_eq ho

theorem inOrder_sortedOrders (rows : List PublicLeaderOrder) : InOrder (sortedOrders rows) :=
  sortedOrders_sortKey rows

theorem InOrder.exists_insert {rows : List PublicLeaderOrder} (ho : InOrder rows)
    (row : PublicLeaderOrder) : ∃ pre behind, rows = pre ++ behind ∧
      InOrder (pre ++ row :: behind) := by
  have : Std.Total fun left right : PublicLeaderOrder => left.sortKey ≤ right.sortKey :=
    ⟨fun left right => le_total left.sortKey right.sortKey⟩
  have : IsTrans PublicLeaderOrder fun left right => left.sortKey ≤ right.sortKey :=
    ⟨fun _ _ _ => le_trans⟩
  have hi := List.Pairwise.orderedInsert row rows ho
  rw [List.orderedInsert_eq_take_drop] at hi
  exact ⟨_, _, (List.takeWhile_append_dropWhile).symm, hi⟩

end Order

/-- While an order is being filled (from one of its rows to another, or to itself), no
order of its symbol's other side is updated. -/
def Uninterrupted (rows : List PublicLeaderOrder) : Prop :=
  ∀ first ∈ rows, ∀ last ∈ rows, first.rawKey = last.rawKey → ∀ between ∈ rows,
    between.symbol = first.symbol → between.orderSide ≠ first.orderSide →
    between.updateTimeMs < first.updateTimeMs ∨ last.updateTimeMs < between.updateTimeMs

structure ComesFrom (rows : List PublicLeaderOrder) (leadPortfolioId : String)
    (view : PublicLeaderOrder) : Prop where
  row : ∃ row ∈ rows, view.rawKey = row.rawKey ∧ view.updateTimeMs = row.updateTimeMs
  side : ∃ side : PositionSide, view.positionSide = side.source
  leader : view.leadPortfolioId = leadPortfolioId
  identity : view.identityKey = view.plainIdentity

section Sources

variable {rows : List PublicLeaderOrder} {leader : String}
  {view other own : PublicLeaderOrder}

theorem ComesFrom.mono {more : List PublicLeaderOrder} (hf : ComesFrom rows leader view)
    (hs : rows ⊆ more) : ComesFrom more leader view := by
  obtain ⟨row, hm, hr⟩ := hf.row
  exact ⟨⟨row, hs hm, hr⟩, hf.side, hf.leader, hf.identity⟩

theorem ComesFrom.identity_eq_iff (hv : ComesFrom rows leader view)
    (hot : ComesFrom rows leader other) : view.identityKey = other.identityKey ↔
      view.rawKey = other.rawKey ∧ view.positionSide = other.positionSide := by
  rw [hv.identity, hot.identity, PublicLeaderOrder.rawKey_eq_iff]
  unfold PublicLeaderOrder.plainIdentity
  rw [hv.leader, hot.leader]
  constructor
  · intro hsa
    injection hsa with _ ht hty hsi ho hs
    exact ⟨⟨hs, ho, hty, ht⟩, hsi⟩
  · rintro ⟨⟨hs, ho, hty, ht⟩, hsi⟩
    rw [hs, ho, hty, ht, hsi]

theorem Uninterrupted.same_side (hu : Uninterrupted rows) (hv : ComesFrom rows leader view)
    (hown : ComesFrom rows leader own) (hr : own.rawKey = view.rawKey)
    (ho : ComesFrom rows leader other) (haf : own.updateTimeMs ≤ other.updateTimeMs)
    (hbef : other.updateTimeMs ≤ view.updateTimeMs) (hs : own.symbol = other.symbol) :
    own.orderSide = other.orderSide := by
  obtain ⟨last, hlast, hla, hl⟩ := hv.row
  obtain ⟨first, hfir, hf, hfi⟩ := hown.row
  obtain ⟨between, hbet, hb, hbe⟩ := ho.row
  have hk : first.rawKey = last.rawKey := by rw [← hf, hr, hla]
  rw [PublicLeaderOrder.rawKey_eq_iff] at hf hb
  by_contra hopposite
  have ha := hu first hfir last hlast hk between hbet (by rw [← hb.1, ← hs, hf.1]) (by
      rw [← hb.2.1, ← hf.2.1]
      exact Ne.symm hopposite)
  rw [← hbe, ← hfi, ← hl] at ha
  omega

end Sources

def emptyLedger : ResolverState := ⟨fun _ => 0, fun _ _ => 0, []⟩

structure Tracks [HexOrder] (rows : List PublicLeaderOrder) (leadPortfolioId : String)
    (state : ResolverState) : Prop where
  replay : ∀ stored, InOrder stored → stored.Perm (latestByIdentity state.resolved) →
    stored.foldl replayPrior emptyLedger = { state with resolved := [] }
  views : ∀ view ∈ state.resolved, ComesFrom rows leadPortfolioId view

section Tracking

variable [HexOrder] {rows : List PublicLeaderOrder} {leader : String}
  {st next : ResolverState} {ord view : PublicLeaderOrder} {side : PositionSide}

omit [HexOrder] in
theorem replay_eq_zero {stored : List PublicLeaderOrder} {key : RawOrderKey}
    (hn : ∀ kept ∈ stored, kept.rawKey = key → kept.positionSide ≠ side.source) :
    (stored.foldl replayPrior emptyLedger).cumulative key side = 0 := by
  rcases @replayPriors_eq stored emptyLedger key side with hz | ⟨kept, hm, hk, hs, -⟩
  · exact hz
  · exact absurd hs (hn kept hm hk)

theorem Tracks.kept_executed (ht : Tracks rows leader st) (hv : ComesFrom rows leader view)
    (hs : view.positionSide = side.source) {kept : PublicLeaderOrder}
    (hkept : kept ∈ latestByIdentity st.resolved) (hsa : kept.identityKey = view.identityKey) :
    kept.executedQuantity = st.cumulative view.rawKey side := by
  have hco := latestByIdentity_covers st.resolved
  have hke := ht.views kept (hco.subset hkept)
  obtain ⟨hkey, hk⟩ := (hke.identity_eq_iff hv).mp hsa
  have hr := ht.replay _ (inOrder_sortedOrders (latestByIdentity st.resolved)) (sortedOrders_perm _)
  have hc := congrArg (fun reached => reached.cumulative view.rawKey side) hr
  dsimp only at hc
  rw [← hc]
  rcases @replayPriors_eq (sortedOrders (latestByIdentity st.resolved)) emptyLedger view.rawKey
    side with hz | ⟨found, hfound, hfou, hfo, he⟩
  · have hge : kept.executedQuantity ≤ _ := @replayPriors_ge_of_mem _ emptyLedger _ _
      (mem_sortedOrders.mpr hkept) (hk.trans hs)
    rw [hkey, hz] at hge
    exact absurd kept.executedQuantity_pos (not_lt.mpr hge)
  · have hm := mem_sortedOrders.mp hfound
    have hf := ht.views found (hco.subset hm)
    have hi : kept.identityKey = found.identityKey := by
      rw [hke.identity_eq_iff hf, hkey, hfou, hk, hs, hfo]
      exact ⟨rfl, rfl⟩
    rw [he, List.inj_on_of_nodup_map hco.nodup hkept hm hi]

def ResolverState.filled (state : ResolverState) (view : PublicLeaderOrder) (side : PositionSide)
    (quantity : Decimal) : ResolverState :=
  ⟨applyPositionDelta state.positions view.symbol side view.orderSide quantity,
    Function.update state.cumulative view.rawKey (Function.update (state.cumulative view.rawKey)
      side (state.cumulative view.rawKey side + quantity)), []⟩

variable {qty : Decimal}

omit [HexOrder] in
theorem replayPrior_first {reached : ResolverState} (hr : reached = { st with resolved := [] })
    (hs : view.positionSide = side.source) (hz : reached.cumulative view.rawKey side = 0)
    (he : view.executedQuantity = qty) :
    replayPrior reached view = st.filled view side qty := by
  have hc : st.cumulative view.rawKey side = 0 := by
    rw [hr] at hz
    exact hz
  subst hr
  rw [replayPrior_of_side hs, ResolverState.filled, raiseCumulative, he]
  dsimp only
  rw [hc, zero_add, max_eq_right (he ▸ view.executedQuantity_pos.le)]

omit [HexOrder] in
theorem replayPrior_again {reached : ResolverState} {kept : PublicLeaderOrder}
    (hr : replayPrior reached kept = { st with resolved := [] })
    (hkey : kept.rawKey = view.rawKey) (hke : kept.positionSide = side.source)
    (hsi : view.positionSide = side.source) (hz : reached.cumulative view.rawKey side = 0)
    (hq : 0 < qty) (he : view.executedQuantity = kept.executedQuantity + qty) :
    replayPrior reached view = st.filled view side qty := by
  obtain ⟨hs, ho, -, -⟩ := PublicLeaderOrder.rawKey_eq_iff.mp hkey
  rw [replayPrior_of_side hke, ResolverState.mk.injEq] at hr
  obtain ⟨hp, hc, hre⟩ := hr
  rw [replayPrior_of_side hsi, ResolverState.filled, ResolverState.mk.injEq, ← hp,
    ← hc, hkey, hs, ho]
  refine ⟨?_, ?_, hre⟩
  · rw [applyPositionDelta_add hq.le, he]
  · have hk := kept.executedQuantity_pos
    have hv := view.executedQuantity_pos
    funext key found
    rw [raiseCumulative_apply, hz, max_eq_right hv.le]
    by_cases hf : key = view.rawKey ∧ found = side
    · obtain ⟨rfl, rfl⟩ := hf
      rw [if_pos ⟨rfl, rfl⟩, Function.update_self, Function.update_self, raiseCumulative_apply,
        if_pos ⟨rfl, rfl⟩, hz, max_eq_right hk.le, he]
    · rw [if_neg hf]
      by_cases hsa : key = view.rawKey
      · subst hsa
        have hot : found ≠ side := fun heq => hf ⟨rfl, heq⟩
        rw [Function.update_self, Function.update_of_ne hot, raiseCumulative_apply,
          if_neg fun hb => hot hb.2]
      · rw [Function.update_of_ne hsa, raiseCumulative_apply, if_neg fun hb => hsa hb.1]

structure NextView (rows : List PublicLeaderOrder) (leadPortfolioId : String)
    (state : ResolverState) (view : PublicLeaderOrder) (side : PositionSide) (quantity : Decimal) :
    Prop where
  comesFrom : ComesFrom rows leadPortfolioId view
  positionSide : view.positionSide = side.source
  executed : view.executedQuantity = state.cumulative view.rawKey side + quantity
  positive : 0 < quantity
  newest : ∀ row ∈ rows, row.updateTimeMs ≤ view.updateTimeMs

section NextView

variable {qty : Decimal} {pre behind : List PublicLeaderOrder}

omit [HexOrder] in
theorem NextView.time_le (hv : NextView rows leader st view side qty)
    {found : PublicLeaderOrder} (hf : ComesFrom rows leader found) :
    found.updateTimeMs ≤ view.updateTimeMs := by
  obtain ⟨row, hrow, -, hr⟩ := hf.row
  rw [hr]
  exact hv.newest row hrow

variable {kept : PublicLeaderOrder}

theorem Tracks.kept_newer (ht : Tracks rows leader st) (hv : NextView rows leader st view side qty)
    (hk : kept ∈ latestByIdentity st.resolved) (hs : kept.identityKey = view.identityKey) :
    view.executedQuantity = kept.executedQuantity + qty ∧ kept.recency < view.recency := by
  have he : view.executedQuantity = kept.executedQuantity + qty := by
    rw [ht.kept_executed hv.comesFrom hv.positionSide hk hs, hv.executed]
  have hl : kept.executedQuantity < view.executedQuantity := by
    rw [he]
    exact lt_add_of_pos_right _ hv.positive
  have hb := hv.time_le (ht.views kept ((latestByIdentity_covers st.resolved).subset hk))
  refine ⟨he, ?_⟩
  unfold PublicLeaderOrder.recency
  rw [Prod.Lex.toLex_lt_toLex]
  rcases hb.lt_or_eq with hlt | heq
  · exact Or.inl hlt
  · exact Or.inr ⟨heq, Prod.Lex.toLex_lt_toLex.mpr (Or.inl hl)⟩

theorem NextView.same_side_behind (hv : NextView rows leader st view side qty)
    (hu : Uninterrupted rows) (hk : ComesFrom rows leader kept) (hkey : kept.rawKey = view.rawKey)
    (ho : InOrder (pre ++ kept :: behind)) (hb : ∀ later ∈ behind, ComesFrom rows leader later) :
    ∀ later ∈ behind, kept.symbol = later.symbol → kept.orderSide = later.orderSide := by
  intro later hl hs
  have ha := updateTimeMs_le_of_sortKey
    ((List.pairwise_cons.mp (List.pairwise_append.mp ho).2.1).1 later hl)
  exact hu.same_side hv.comesFrom hk hkey (hb later hl) ha (hv.time_le (hb later hl)) hs

variable {others : List PublicLeaderOrder}

theorem Tracks.others_eq_zero (ht : Tracks rows leader st)
    (hv : NextView rows leader st view side qty) (hs : others ⊆ st.resolved)
    (ho : ∀ kept ∈ others, kept.identityKey ≠ view.identityKey) :
    (others.foldl replayPrior emptyLedger).cumulative view.rawKey side = 0 := by
  refine replay_eq_zero ?_
  intro kept hke hkey hk
  refine ho kept hke (((ht.views kept (hs hke)).identity_eq_iff hv.comesFrom).mpr ⟨hkey, ?_⟩)
  rw [hk, hv.positionSide]

theorem Tracks.replay_added (ht : Tracks rows leader st)
    (hv : NextView rows leader st view side qty) (ho : InOrder others)
    (hp : others.Perm (latestByIdentity st.resolved))
    (hn : ∀ kept ∈ latestByIdentity st.resolved, kept.identityKey ≠ view.identityKey) :
    replayPrior (others.foldl replayPrior emptyLedger) view = st.filled view side qty := by
  have hc := latestByIdentity_covers st.resolved
  have hr := ht.replay _ ho hp
  have hz := ht.others_eq_zero hv (fun found hf => hc.subset (hp.mem_iff.mp hf))
    (fun found hf => hn found (hp.mem_iff.mp hf))
  refine replayPrior_first hr hv.positionSide hz ?_
  rw [hr] at hz
  rw [hv.executed]
  exact (congrArg (· + qty) hz).trans (zero_add qty)

theorem Tracks.replay_replaced (ht : Tracks rows leader st)
    (hv : NextView rows leader st view side qty) (hu : Uninterrupted rows)
    {left right : List PublicLeaderOrder} (hor : InOrder others) (hp : others.Perm (left ++ right))
    (hl : latestByIdentity st.resolved = left ++ kept :: right)
    (hsa : kept.identityKey = view.identityKey) :
    replayPrior (others.foldl replayPrior emptyLedger) view = st.filled view side qty := by
  have hc := latestByIdentity_covers st.resolved
  have hkept : kept ∈ latestByIdentity st.resolved := by
    rw [hl]
    simp
  have ho : others ⊆ latestByIdentity st.resolved := by
    intro found hf
    rw [hl]
    rcases List.mem_append.mp (hp.mem_iff.mp hf) with hle | hri
    · simp [hle]
    · simp [hri]
  -- the older view goes back into its place, and from there to the end
  obtain ⟨first, rest, rfl, hi⟩ := hor.exists_insert kept
  have hs : (first ++ kept :: rest).Perm (latestByIdentity st.resolved) := by
    rw [hl]
    exact List.perm_middle.trans ((hp.cons kept).trans List.perm_middle.symm)
  have hk := ht.views kept (hc.subset hkept)
  obtain ⟨hkey, hke⟩ := (hk.identity_eq_iff hv.comesFrom).mp hsa
  have hr := ht.replay _ hi hs
  rw [replay_move_last (hv.same_side_behind hu hk hkey hi
    fun later hla => ht.views later (hc.subset (ho (by simp [hla]))))]
    at hr
  have hn := hc.nodup
  rw [hl, List.map_append, List.map_cons, List.nodup_middle, List.nodup_cons,
    ← List.map_append] at hn
  have hz := ht.others_eq_zero hv (fun found hf => hc.subset (ho hf)) (fun found hf he => hn.1
      (List.mem_map.mpr ⟨found, hp.mem_iff.mp hf, he.trans hsa.symm⟩))
  exact replayPrior_again hr hkey (hke.trans hv.positionSide) hv.positionSide
    hz hv.positive (ht.kept_newer hv hkept hsa).1

end NextView

theorem Tracks.emit {count : ℕ} (ht : Tracks rows leader st) (horder : ord ∈ rows)
    (hle : ord.leadPortfolioId = leader)
    (hlast : ∀ row ∈ rows, row.updateTimeMs ≤ ord.updateTimeMs) (hu : Uninterrupted rows)
    (hq : 0 < qty) (he : emitAllocation ord count st (side, qty) = .ok next) :
    Tracks rows leader next := by
  obtain ⟨view, hvi, hre, hc⟩ := emitAllocation_spec hq he
  have hp := emitAllocation_positions hq he
  have hcov := latestByIdentity_covers st.resolved
  have hn : NextView rows leader st view side qty := by
    refine ⟨⟨⟨ord, horder, hvi.rawKey, hvi.updateTimeMs⟩, ⟨side, hvi.positionSide⟩,
      hvi.leadPortfolioId.trans hle, hvi.identityKey⟩, hvi.positionSide, ?_, hq,
      ?_⟩
    · rw [hvi.executedQuantity, hvi.rawKey]
    · rw [hvi.updateTimeMs]
      exact hlast
  have hv : ∀ found ∈ st.resolved ++ [view], ComesFrom rows leader found := by
    intro found hmem
    rcases List.mem_append.mp hmem with hold | hnew
    · exact ht.views found hold
    · rw [List.mem_singleton.mp hnew]
      exact hn.comesFrom
  have hne : { next with resolved := [] } = st.filled view side qty := by
    obtain ⟨hs, hord, -, -⟩ := PublicLeaderOrder.rawKey_eq_iff.mp hvi.rawKey
    rw [ResolverState.filled, hp, hc, hs, hord, hvi.rawKey]
  have hk := keepLatest_cases hcov.nodup fun kept hke hsa =>
    (ht.kept_newer hn hke hsa).2
  refine ⟨?_, by rw [hre]; exact hv⟩
  intro stored hor hpe
  have hco := latestByIdentity_covers (st.resolved ++ [view])
  rw [hre] at hpe
  have hfr : ∀ found ∈ stored, ComesFrom rows leader found :=
    fun found hf => hv found (hco.subset (hpe.mem_iff.mp hf))
  rw [latestByIdentity_append] at hpe
  have hm : view ∈ stored := by
    rw [hpe.mem_iff]
    rcases hk with ⟨ha, -⟩ | ⟨_, _, _, -, -, hr⟩
    · rw [ha]
      simp
    · rw [hr]
      simp
  -- the view is replayed last, wherever it is stored
  obtain ⟨pre, behind, rfl⟩ := List.append_of_mem hm
  have ho : InOrder (pre ++ behind) :=
    hor.sublist ((List.sublist_cons_self _ _).append_left _)
  rw [replay_move_last (hn.same_side_behind hu hn.comesFrom rfl hor
    fun later hla => hfr later (by simp [hla])), hne]
  rcases hk with ⟨ha, hnew⟩ | ⟨left, kept, right, hl, hsa, hr⟩
  · rw [ha] at hpe
    have hcons := (List.perm_middle.symm.trans hpe).trans (List.perm_append_singleton _ _)
    exact ht.replay_added hn ho hcons.cons_inv hnew
  · rw [hr] at hpe
    exact ht.replay_replaced hn hu ho
      ((List.perm_middle.symm.trans hpe).trans List.perm_middle).cons_inv hl hsa

theorem Tracks.mono {more : List PublicLeaderOrder} (ht : Tracks rows leader st)
    (hs : rows ⊆ more) : Tracks more leader st :=
  ⟨ht.replay, fun view hm => (ht.views view hm).mono hs⟩

theorem Tracks.resolveOrder {closed : List ClosedLeaderPosition}
    (ht : Tracks rows leader st) (hb : ord.positionSide = .both) (hl : ord.leadPortfolioId = leader)
    (hla : ∀ row ∈ rows, row.updateTimeMs ≤ ord.updateTimeMs) (hu : Uninterrupted (rows ++ [ord]))
    (hr : resolveOrder closed st ord = .ok next) : Tracks (rows ++ [ord]) leader next := by
  have hs := ht.mono (List.subset_append_left rows [ord])
  by_cases hle : ord.executedQuantity ≤ (st.cumulative ord.rawKey).total
  · rw [resolveOrder_of_le hb hle] at hr
    cases hr
    exact hs
  · have hlt := not_le.mp hle
    rw [resolveOrder_of_lt hb hlt, bind_eq_ok_iff] at hr
    obtain ⟨allocs, ha, hrun⟩ := hr
    have hsp := isSplit_of_allocationsOf hlt ha
    have hn : ∀ row ∈ rows ++ [ord], row.updateTimeMs ≤ ord.updateTimeMs := by
      intro row hm
      rcases List.mem_append.mp hm with ho | hnew
      · exact hla row ho
      · rw [List.mem_singleton.mp hnew]
    refine foldlM_invariant (Tracks (rows ++ [ord]) leader) ?_ hs hrun
    rintro ⟨side, qty⟩ hm reached emitted hre he
    exact hre.emit (by simp) hl hn hu (hsp.positive _ hm) he

omit [HexOrder] in
theorem Uninterrupted.of_append {rest : List PublicLeaderOrder}
    (hu : Uninterrupted (rows ++ rest)) : Uninterrupted rows := by
  intro first hf last hl hr between hb
  exact hu first (List.mem_append_left _ hf) last (List.mem_append_left _ hl)
    hr between (List.mem_append_left _ hb)

theorem InOrder.of_append {rest : List PublicLeaderOrder} (ho : InOrder (rows ++ rest)) :
    InOrder rows :=
  (List.pairwise_append.mp ho).1

theorem tracks_of_run {closed : List ClosedLeaderPosition}
    (hb : ∀ row ∈ rows, row.positionSide = .both)
    (hl : ∀ row ∈ rows, row.leadPortfolioId = leader) (ho : InOrder rows) (hu : Uninterrupted rows)
    (hrun : rows.foldlM (CopyTrading.resolveOrder closed) emptyLedger = .ok st) :
    Tracks rows leader st := by
  induction rows using List.reverseRecOn generalizing st with
  | nil =>
    rw [foldlM_nil_eq_ok_iff] at hrun
    subst hrun
    refine ⟨?_, by simp [emptyLedger]⟩
    intro stored _ hp
    rw [List.Perm.eq_nil hp]
    rfl
  | append_singleton rows ord ih =>
    rw [List.foldlM_append, bind_eq_ok_iff] at hrun
    obtain ⟨mid, hf, hla⟩ := hrun
    rw [foldlM_cons_eq_ok_iff] at hla
    obtain ⟨post, hr, hn⟩ := hla
    rw [foldlM_nil_eq_ok_iff] at hn
    subst hn
    have ht := ih (fun row hm => hb row (List.mem_append_left _ hm))
      (fun row hm => hl row (List.mem_append_left _ hm)) ho.of_append
      hu.of_append hf
    refine ht.resolveOrder (hb ord (by simp)) (hl ord (by simp)) ?_ hu hr
    intro row hm
    exact updateTimeMs_le_of_sortKey ((List.pairwise_append.mp ho).2.2 row hm ord (by simp))

end Tracking

def ResolverState.prepend (earlier : List PublicLeaderOrder) (state : ResolverState) :
    ResolverState :=
  { state with resolved := earlier ++ state.resolved }

section Prepend

variable {closed : List ClosedLeaderPosition} (earlier : List PublicLeaderOrder)

theorem emitAllocation_prepend (ord : PublicLeaderOrder) (count : ℕ) (st : ResolverState)
    (alloc : PositionSide × Decimal) : emitAllocation ord count (st.prepend earlier) alloc =
      (emitAllocation ord count st alloc).map (·.prepend earlier) := by
  unfold emitAllocation ResolverState.prepend
  dsimp only
  split
  · rfl
  · cases ord.resolvePositionSide alloc.1 (st.cumulative ord.rawKey alloc.1 +
      alloc.2) (if alloc.1 = reductionSide ord.orderSide ∨ count = 1 then
        ord.totalPnl else 0) with
    | error code => rfl
    | ok view =>
      simp only [bind, Except.bind, Except.map, List.append_assoc]

theorem resolveOrder_prepend (st : ResolverState) (ord : PublicLeaderOrder) :
    resolveOrder closed (st.prepend earlier) ord =
      (resolveOrder closed st ord).map (·.prepend earlier) := by
  by_cases hb : ord.positionSide = .both
  swap
  · rw [resolveOrder_explicit hb, resolveOrder_explicit hb]
    simp only [Except.map, ResolverState.prepend, List.append_assoc]
  by_cases hle : ord.executedQuantity ≤ (st.cumulative ord.rawKey).total
  · rw [resolveOrder_of_le hb hle]
    exact resolveOrder_of_le hb hle
  · have hlt := not_le.mp hle
    have ha : allocationsOf closed (st.prepend earlier) ord = allocationsOf closed st ord := rfl
    have hp : ((st.prepend earlier).cumulative ord.rawKey).total <
        ord.executedQuantity := hlt
    rw [resolveOrder_of_lt hb hlt, resolveOrder_of_lt hb hp, ha]
    cases allocationsOf closed st ord with
    | error code => rfl
    | ok allocs =>
      exact foldlM_map (emitAllocation_prepend earlier ord allocs.length) allocs st

end Prepend

section Polls

variable [HexOrder]

/-- Polls one after another, with the rows that are stored of everything resolved so
far. -/
def resolvePolls (stored : List PublicLeaderOrder → List PublicLeaderOrder)
    (polls : List (List PublicLeaderOrder)) : Except String (List PublicLeaderOrder) :=
  polls.foldlM (fun resolved poll => do
    let views ← resolveOneWayOrders poll (stored resolved) []
    return resolved ++ views) []

/-- The newest row of each identity, in any order. -/
def StoresLatest (stored : List PublicLeaderOrder → List PublicLeaderOrder) : Prop :=
  ∀ resolved, (stored resolved).Perm (latestByIdentity resolved)

/-- Every way to cut the history, up to any of its rows, resolves as the whole does. -/
def PollSplitInvariant (stored : List PublicLeaderOrder → List PublicLeaderOrder)
    (rows : List PublicLeaderOrder) : Prop :=
  ∀ polls : List (List PublicLeaderOrder), polls.flatten <+: rows →
    resolvePolls stored polls = resolveOneWayOrders polls.flatten [] []

variable {stored : List PublicLeaderOrder → List PublicLeaderOrder} {rows : List PublicLeaderOrder}
  {leader : String} {st : ResolverState}

theorem Tracks.priorLedger_eq (ht : Tracks rows leader st) (hs : StoresLatest stored) :
    priorLedger (stored st.resolved) = { st with resolved := [] } := by
  have hn : ((stored st.resolved).map (·.identityKey)).Nodup :=
    ((hs st.resolved).map _).nodup_iff.mpr (latestByIdentity_covers _).nodup
  unfold priorLedger
  rw [latestByIdentity_of_nodup hn]
  exact ht.replay _ (inOrder_sortedOrders _) ((sortedOrders_perm _).trans (hs _))

theorem Tracks.resolve_poll (ht : Tracks rows leader st)
    (hs : StoresLatest stored) {poll : List PublicLeaderOrder} (ho : InOrder poll)
    (hle : ∀ row ∈ poll, row.leadPortfolioId = leader) :
    (resolveOneWayOrders poll (stored st.resolved) []).map (st.resolved ++ ·) =
      (poll.foldlM (CopyTrading.resolveOrder []) st).map (·.resolved) := by
  have hf : ∀ view ∈ stored st.resolved, ComesFrom rows leader view :=
    fun view hm => ht.views view ((latestByIdentity_covers _).subset ((hs _).mem_iff.mp hm))
  have hl : ∀ row ∈ stored st.resolved ++ poll, row.leadPortfolioId = leader := by
    intro row hm
    rcases List.mem_append.mp hm with hold | hn
    · exact (hf row hold).leader
    · exact hle row hn
  have he : ∀ view ∈ stored st.resolved, view.positionSide ≠ .both := by
    intro view hm
    obtain ⟨side, hsi⟩ := (hf view hm).side
    rw [hsi]
    exact side.source_ne_both
  have hst : st = ResolverState.prepend st.resolved { st with resolved := [] } := by
    simp [ResolverState.prepend]
  have hlo : poll.foldlM (CopyTrading.resolveOrder []) st =
      (poll.foldlM (CopyTrading.resolveOrder []) { st with resolved := [] }).map
        (·.prepend st.resolved) := by
    conv_lhs => rw [hst]
    exact foldlM_map (resolveOrder_prepend st.resolved) poll _
  rw [resolveOneWayOrders_eq hl he, ht.priorLedger_eq hs, ho.sortedOrders_eq, hlo]
  cases poll.foldlM (CopyTrading.resolveOrder []) { st with resolved := [] } with
  | error code => rfl
  | ok reached => rfl

theorem resolve_whole (hl : ∀ row ∈ rows, row.leadPortfolioId = leader) (ho : InOrder rows) :
    resolveOneWayOrders rows [] [] =
      (rows.foldlM (CopyTrading.resolveOrder []) emptyLedger).map (·.resolved) := by
  rw [resolveOneWayOrders_eq hl (by simp), ho.sortedOrders_eq]
  rfl

theorem resolvePolls_append (polls : List (List PublicLeaderOrder))
    (poll : List PublicLeaderOrder) :
    resolvePolls stored (polls ++ [poll]) = (resolvePolls stored polls >>= fun resolved =>
      (resolveOneWayOrders poll (stored resolved) []).map (resolved ++ ·)) := by
  unfold resolvePolls
  rw [List.foldlM_append]
  refine bind_congr fun resolved => ?_
  rw [List.foldlM_cons]
  cases resolveOneWayOrders poll (stored resolved) [] with
  | error code => rfl
  | ok views => rfl

/-- As long as no order of the other side is updated while an order is being filled, the
cuts between polls do not show. -/
theorem resolvePolls_eq_whole (hstored : StoresLatest stored)
    (hboth : ∀ row ∈ rows, row.positionSide = .both)
    (hleader : ∀ row ∈ rows, row.leadPortfolioId = leader) (hordered : InOrder rows)
    (huninterrupted : Uninterrupted rows) : PollSplitInvariant stored rows := by
  intro polls
  induction polls using List.reverseRecOn with
  | nil =>
    intro _
    rfl
  | append_singleton polls poll ih =>
    rintro ⟨rest, hrest⟩
    rw [List.flatten_append, List.flatten_singleton] at hrest ⊢
    have he := ih ⟨poll ++ rest, by rw [← hrest, List.append_assoc]⟩
    subst hrest
    have hre : InOrder (polls.flatten ++ poll) := hordered.of_append
    have hr : ∀ row ∈ polls.flatten ++ poll, row.leadPortfolioId = leader :=
      fun row hm => hleader row (List.mem_append_left _ hm)
    have hf : ∀ row ∈ polls.flatten, row.leadPortfolioId = leader :=
      fun row hm => hr row (List.mem_append_left _ hm)
    rw [resolvePolls_append, he, resolve_whole hr hre,
      resolve_whole hf hre.of_append, List.foldlM_append]
    cases hrun : polls.flatten.foldlM (CopyTrading.resolveOrder []) emptyLedger with
    | error code => rfl
    | ok st =>
      have ht := tracks_of_run
        (fun row hm => hboth row (List.mem_append_left _ (List.mem_append_left _ hm)))
        hf hre.of_append huninterrupted.of_append.of_append hrun
      exact ht.resolve_poll hstored (List.pairwise_append.mp hre).2.1
        fun row hm => hr row (List.mem_append_right _ hm)

end Polls

section Interrupted

/-- The update times differ, so digests are never compared. -/
local instance interruptedHexOrder : HexOrder := ⟨fun _ => 0⟩

def pollRow (side : OrderSide) (executedQty : Decimal) (orderTime orderUpdateTime : ℤ)
    (hok : (PublicLeaderOrder.fromApi "1"
      (oneWayDocument side executedQty 100 orderTime orderUpdateTime)).isOk = true) :
    PublicLeaderOrder :=
  okValue (PublicLeaderOrder.fromApi "1"
    (oneWayDocument side executedQty 100 orderTime orderUpdateTime)) hok

def interruptedPolls : List (List PublicLeaderOrder) :=
  [[pollRow .buy 1 1000 1000 purchase_isOk, pollRow .sell 1 2000 2000 (by decide),
      pollRow .buy 3 1000 3000 (by decide)],
    [pollRow .sell 3 4000 4000 (by decide)]]

def uninterruptedPolls : List (List PublicLeaderOrder) :=
  [[pollRow .buy 1 1000 1000 purchase_isOk], [pollRow .buy 3 1000 2000 (by decide),
      pollRow .sell 1 3000 3000 (by decide)],
    [pollRow .sell 3 4000 4000 (by decide)]]

theorem uninterrupted_polls_eq_whole :
    (resolvePolls latestByIdentity uninterruptedPolls).toOption.map
        (·.map fun view => (view.positionSide, view.executedQuantity)) =
      some [(.long, 1), (.long, 3), (.long, 1), (.long, 2), (.short, 1)] ∧
      PollSplitInvariant latestByIdentity uninterruptedPolls.flatten := by
  refine ⟨by with_unfolding_all decide, ?_⟩
  have ho : uninterruptedPolls.flatten.Pairwise fun earlier later =>
      earlier.sortKey ≤ later.sortKey := by decide
  have hu : ∀ first ∈ uninterruptedPolls.flatten,
      ∀ last ∈ uninterruptedPolls.flatten, first.rawKey = last.rawKey →
      ∀ between ∈ uninterruptedPolls.flatten, between.symbol = first.symbol →
        between.orderSide ≠ first.orderSide →
        between.updateTimeMs < first.updateTimeMs ∨ last.updateTimeMs < between.updateTimeMs := by
    decide
  have hl : ∀ row ∈ uninterruptedPolls.flatten, row.leadPortfolioId = "1" := by
    decide
  exact resolvePolls_eq_whole (fun _ => List.Perm.refl _) (by decide) hl ho hu

/-- Cut before the last sale, the replay leaves three units where the history has two, and
the sale opens nothing. -/
theorem interrupted_polls_differ :
    ¬ ∀ [HexOrder] (stored : List PublicLeaderOrder → List PublicLeaderOrder)
        (rows : List PublicLeaderOrder) (leader : String), StoresLatest stored →
        (∀ row ∈ rows, row.positionSide = .both) → (∀ row ∈ rows, row.leadPortfolioId = leader) →
        rows.Pairwise (fun earlier later => earlier.updateTimeMs ≤ later.updateTimeMs) →
        Growing rows → PollSplitInvariant stored rows := by
  intro hc
  have hg : interruptedPolls.flatten.Pairwise fun earlier later =>
      earlier.rawKey = later.rawKey → earlier.executedQuantity ≤ later.executedQuantity := by
    decide
  have hi := @hc interruptedHexOrder latestByIdentity interruptedPolls.flatten "1"
    (fun _ => List.Perm.refl _) (by decide) (by decide) (by decide)
    hg interruptedPolls (List.prefix_refl _)
  have hp : (resolvePolls latestByIdentity interruptedPolls).toOption.map List.length =
      some 4 := by with_unfolding_all decide
  have hw : (resolveOneWayOrders interruptedPolls.flatten [] []).toOption.map List.length =
      some 5 := by with_unfolding_all decide
  rw [hi, hw] at hp
  cases hp

end Interrupted

end AiQuant.CopyTrading
