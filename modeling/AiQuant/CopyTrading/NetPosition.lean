import AiQuant.CopyTrading.OneWayLoop

/-! A one-way account has one signed quantity for each symbol.  Without stored rows and
without position evidence, the two-sided positions that the resolver reconstructs are
that quantity, row by row. -/
namespace AiQuant.CopyTrading
open AiQuant.Lib

/-- What an exchange keeps of a one-way account: the net quantity of each symbol, and
what each order has executed. -/
structure NetAccount where
  net : String → Decimal
  executed : RawOrderKey → Decimal

def NetAccount.flat : NetAccount :=
  ⟨fun _ => 0, fun _ => 0⟩

def OrderSide.signed : OrderSide → Decimal → Decimal
  | .buy, quantity => quantity
  | .sell, quantity => -quantity

/-- A row reports what its order has executed so far; the account moves by the rest. -/
def NetAccount.fill (account : NetAccount) (order : PublicLeaderOrder) : NetAccount where
  net := Function.update account.net order.symbol (account.net order.symbol +
    order.orderSide.signed (order.executedQuantity - account.executed order.rawKey))
  executed := Function.update account.executed order.rawKey order.executedQuantity

theorem NetAccount.fill_net_self (acct : NetAccount) (ord : PublicLeaderOrder) :
    (acct.fill ord).net ord.symbol = acct.net ord.symbol +
      ord.orderSide.signed (ord.executedQuantity - acct.executed ord.rawKey) :=
  Function.update_self _ _ _

theorem NetAccount.fill_net_of_ne (acct : NetAccount) {ord : PublicLeaderOrder}
    {sym : String} (hs : sym ≠ ord.symbol) : (acct.fill ord).net sym = acct.net sym :=
  Function.update_of_ne hs _ _

theorem NetAccount.fill_executed_self (acct : NetAccount) (ord : PublicLeaderOrder) :
    (acct.fill ord).executed ord.rawKey = ord.executedQuantity :=
  Function.update_self _ _ _

theorem NetAccount.fill_executed_of_ne (acct : NetAccount) {ord : PublicLeaderOrder}
    {key : RawOrderKey} (hk : key ≠ ord.rawKey) :
    (acct.fill ord).executed key = acct.executed key :=
  Function.update_of_ne hk _ _

/-- The resolver's positions are the account: the two sides of a symbol differ by its net
quantity, and at most one of them is open. -/
structure Reconstructs (account : NetAccount) (state : ResolverState) : Prop where
  net : ∀ symbol, state.positions (symbol, .long) - state.positions (symbol, .short) =
    account.net symbol
  nonneg : ∀ key, 0 ≤ state.positions key
  oneSided : ∀ symbol,
    ¬ (0 < state.positions (symbol, .long) ∧ 0 < state.positions (symbol, .short))
  executed : ∀ key, (state.cumulative key).total = account.executed key

structure ReducesThenOpens (order : PublicLeaderOrder) (views : List PublicLeaderOrder) :
    Prop where
  split : ∃ reductions increases, views = reductions ++ increases ∧
    reductions.length ≤ 1 ∧ increases.length ≤ 1 ∧
    (∀ view ∈ reductions, view.positionSide = (reductionSide order.orderSide).source) ∧
    ∀ view ∈ increases, view.positionSide = (openingSide order.orderSide).source

section Row

variable {ord : PublicLeaderOrder} {delta : Decimal} {positions : SourcePositions}
  {allocs : List (PositionSide × Decimal)}

theorem increases_openingSide (side : OrderSide) :
    increases (openingSide side).source side = true := by
  cases side <;> rfl

theorem increases_reductionSide (side : OrderSide) :
    increases (reductionSide side).source side = false := by
  cases side <;> rfl

theorem applyPositionDelta_opening (sym : String) (side : OrderSide) (qty : Decimal) :
    applyPositionDelta positions sym (openingSide side) side qty =
      Function.update positions (sym, openingSide side)
        (positions (sym, openingSide side) + qty) := by
  unfold applyPositionDelta
  dsimp only
  rw [if_pos (increases_openingSide side)]

theorem applyPositionDelta_reducing (sym : String) (side : OrderSide) (qty : Decimal) :
    applyPositionDelta positions sym (reductionSide side) side qty =
      Function.update positions (sym, reductionSide side)
        (max 0 (positions (sym, reductionSide side) - qty)) := by
  unfold applyPositionDelta
  dsimp only
  rw [if_neg (by rw [increases_reductionSide]; decide)]

theorem allocatePositions_frame {key : String × PositionSide} (hk : key.1 ≠ ord.symbol) :
    allocatePositions ord positions allocs key = positions key := by
  unfold allocatePositions
  induction allocs generalizing positions with
  | nil => rfl
  | cons alloc rest ih =>
    rw [List.foldl_cons, ih]
    unfold applyPositionDelta
    rw [Function.update_of_ne]
    rintro rfl
    exact hk rfl

structure Nets (order : PublicLeaderOrder) (delta : Decimal)
    (positions after : SourcePositions) : Prop where
  net : after (order.symbol, openingSide order.orderSide) -
      after (order.symbol, reductionSide order.orderSide) =
    positions (order.symbol, openingSide order.orderSide) -
      positions (order.symbol, reductionSide order.orderSide) + delta
  opening : 0 ≤ after (order.symbol, openingSide order.orderSide)
  reducing : 0 ≤ after (order.symbol, reductionSide order.orderSide)
  oneSided : after (order.symbol, openingSide order.orderSide) = 0 ∨
    after (order.symbol, reductionSide order.orderSide) = 0

theorem allocateAgainstPosition_cases
    (ha : allocateAgainstPosition ord delta positions = .ok allocs) :
    (positions (ord.symbol, reductionSide ord.orderSide) ≤ 0 ∧
      allocs = [(openingSide ord.orderSide, delta)]) ∨
    (positions (ord.symbol, openingSide ord.orderSide) ≤ 0 ∧
      delta ≤ positions (ord.symbol, reductionSide ord.orderSide) ∧
      allocs = [(reductionSide ord.orderSide, delta)]) ∨
    (positions (ord.symbol, openingSide ord.orderSide) ≤ 0 ∧
      0 < positions (ord.symbol, reductionSide ord.orderSide) ∧
      positions (ord.symbol, reductionSide ord.orderSide) < delta ∧
      allocs = [(reductionSide ord.orderSide, positions (ord.symbol, reductionSide ord.orderSide)),
        (openingSide ord.orderSide,
          delta - positions (ord.symbol, reductionSide ord.orderSide))]) := by
  unfold allocateAgainstPosition at ha
  dsimp only at ha
  split at ha
  · cases ha
  rename_i hhedged
  split at ha
  · rename_i ho
    split at ha
    · cases ha
    · cases ha
      exact Or.inl ⟨ho, rfl⟩
  · rename_i ho
    rw [not_le] at ho
    have hs : positions (ord.symbol, openingSide ord.orderSide) ≤ 0 :=
      not_lt.mp fun hs => hhedged ⟨ho, hs⟩
    by_cases hc : delta ≤ positions (ord.symbol, reductionSide ord.orderSide)
    · rw [min_eq_right hc, sub_self, if_neg (lt_irrefl _)] at ha
      cases ha
      exact Or.inr (Or.inl ⟨hs, hc, rfl⟩)
    · rw [not_le] at hc
      rw [min_eq_left hc.le, if_pos (sub_pos.mpr hc)] at ha
      cases ha
      exact Or.inr (Or.inr ⟨hs, ho, hc, rfl⟩)

theorem nets_of_allocateAgainstPosition (hn : ∀ key, 0 ≤ positions key) (hd : 0 < delta)
    (ha : allocateAgainstPosition ord delta positions = .ok allocs) :
    Nets ord delta positions (allocatePositions ord positions allocs) := by
  have hop := hn (ord.symbol, openingSide ord.orderSide)
  have hne : (ord.symbol, reductionSide ord.orderSide) ≠
      (ord.symbol, openingSide ord.orderSide) := by
    intro hs
    exact reductionSide_ne_openingSide ord.orderSide (Prod.ext_iff.mp hs).2
  rcases allocateAgainstPosition_cases ha with ⟨ho, rfl⟩ |
    ⟨hs, hc, rfl⟩ | ⟨hs, ho, hc, rfl⟩
  · have hz : positions (ord.symbol, reductionSide ord.orderSide) = 0 :=
      le_antisymm ho (hn _)
    unfold allocatePositions
    rw [List.foldl_cons, List.foldl_nil, applyPositionDelta_opening]
    refine ⟨?_, ?_, ?_, Or.inr ?_⟩
    · rw [Function.update_self, Function.update_of_ne hne]
      ring
    · rw [Function.update_self]
      linarith
    · rw [Function.update_of_ne hne, hz]
    · rw [Function.update_of_ne hne, hz]
  · have hz : positions (ord.symbol, openingSide ord.orderSide) = 0 :=
      le_antisymm hs hop
    have hl : 0 ≤ positions (ord.symbol, reductionSide ord.orderSide) - delta :=
      sub_nonneg.mpr hc
    unfold allocatePositions
    rw [List.foldl_cons, List.foldl_nil, applyPositionDelta_reducing, max_eq_right hl]
    refine ⟨?_, ?_, ?_, Or.inl ?_⟩
    · rw [Function.update_self, Function.update_of_ne hne.symm]
      ring
    · rw [Function.update_of_ne hne.symm, hz]
    · rw [Function.update_self]
      exact hl
    · rw [Function.update_of_ne hne.symm, hz]
  · have hz : positions (ord.symbol, openingSide ord.orderSide) = 0 :=
      le_antisymm hs hop
    unfold allocatePositions
    rw [List.foldl_cons, List.foldl_cons, List.foldl_nil, applyPositionDelta_reducing, sub_self,
      max_self, applyPositionDelta_opening]
    refine ⟨?_, ?_, ?_, Or.inr ?_⟩
    · rw [Function.update_self, Function.update_of_ne hne, Function.update_self,
        Function.update_of_ne hne.symm]
      ring
    · rw [Function.update_self, Function.update_of_ne hne.symm]
      linarith
    · rw [Function.update_of_ne hne, Function.update_self]
    · rw [Function.update_of_ne hne, Function.update_self]

theorem reducesThenOpens_of_allocateAgainstPosition {pre post : ResolverState}
    {views : List PublicLeaderOrder} (ha : allocateAgainstPosition ord delta positions = .ok allocs)
    (he : Emits ord allocs pre post views) : ReducesThenOpens ord views := by
  have hv := he.views
  rcases allocateAgainstPosition_cases ha with ⟨-, rfl⟩ | ⟨-, -, rfl⟩ |
    ⟨-, -, -, rfl⟩
  · obtain ⟨view, _, hvi, hn, rfl⟩ := List.forall₂_cons_left_iff.mp hv
    rw [List.forall₂_nil_left_iff.mp hn]
    exact ⟨[], [view], rfl, by simp, le_rfl, by simp, by simpa using hvi.positionSide⟩
  · obtain ⟨view, _, hvi, hn, rfl⟩ := List.forall₂_cons_left_iff.mp hv
    rw [List.forall₂_nil_left_iff.mp hn]
    exact ⟨[view], [], rfl, le_rfl, by simp, by simpa using hvi.positionSide, by simp⟩
  · obtain ⟨reduced, _, hr, hre, rfl⟩ := List.forall₂_cons_left_iff.mp hv
    obtain ⟨opened, _, ho, hn, rfl⟩ := List.forall₂_cons_left_iff.mp hre
    rw [List.forall₂_nil_left_iff.mp hn]
    exact ⟨[reduced], [opened], rfl, le_rfl, le_rfl, by simpa using hr.positionSide,
      by simpa using ho.positionSide⟩

end Row

section Simulation

variable {acct : NetAccount} {ord : PublicLeaderOrder} {pre post : ResolverState}

theorem allocationsOf_nil : allocationsOf [] pre ord = allocateAgainstPosition ord
    (ord.executedQuantity - (pre.cumulative ord.rawKey).total) pre.positions := rfl

theorem Nets.reconstructs {positions next : SourcePositions} {delta : Decimal}
    (hn : Nets ord delta positions next) : next (ord.symbol, .long) - next (ord.symbol, .short) =
        positions (ord.symbol, .long) - positions (ord.symbol, .short) +
          ord.orderSide.signed delta ∧
      (∀ side, 0 ≤ next (ord.symbol, side)) ∧
      ¬ (0 < next (ord.symbol, .long) ∧ 0 < next (ord.symbol, .short)) := by
  obtain ⟨hnet, hop, hr, ho⟩ := hn
  cases hsi : ord.orderSide with
  | buy =>
    simp only [hsi, openingSide, reductionSide] at hnet hop hr ho
    refine ⟨hnet, ?_, ?_⟩
    · intro side
      cases side
      · exact hop
      · exact hr
    · rintro ⟨hl, hs⟩
      rcases ho with hz | hz
      · exact absurd hl (by rw [hz]; exact lt_irrefl 0)
      · exact absurd hs (by rw [hz]; exact lt_irrefl 0)
  | sell =>
    simp only [hsi, openingSide, reductionSide] at hnet hop hr ho
    refine ⟨?_, ?_, ?_⟩
    · simp only [OrderSide.signed]
      linarith
    · intro side
      cases side
      · exact hr
      · exact hop
    · rintro ⟨hl, hs⟩
      rcases ho with hz | hz
      · exact absurd hs (by rw [hz]; exact lt_irrefl 0)
      · exact absurd hl (by rw [hz]; exact lt_irrefl 0)

theorem Reconstructs.resolveOrder (hsim : Reconstructs acct pre) (hb : ord.positionSide = .both)
    (hg : acct.executed ord.rawKey ≤ ord.executedQuantity)
    (hr : resolveOrder [] pre ord = .ok post) : Reconstructs (acct.fill ord) post ∧
      ∃ views, post.resolved = pre.resolved ++ views ∧ ReducesThenOpens ord views := by
  have he := hsim.executed ord.rawKey
  obtain ⟨_, hf, ht⟩ := resolveOrder_spec hb hr
  rw [he, max_eq_left hg] at ht
  have hc : ∀ key, (post.cumulative key).total = (acct.fill ord).executed key := by
    intro key
    by_cases hk : key = ord.rawKey
    · rw [hk, ht, acct.fill_executed_self]
    · rw [acct.fill_executed_of_ne hk, ← hsim.executed key, hf.frame key hk]
  rcases resolveOrder_cases hb hr with ⟨hle, rfl⟩ | ⟨allocs, views, hlt, ha, hsp, hem⟩
  · -- a row that reports nothing new moves neither
    have hsa : ord.executedQuantity = acct.executed ord.rawKey :=
      le_antisymm (hle.trans_eq he) hg
    have hnet : (acct.fill ord).net = acct.net := by
      unfold NetAccount.fill
      dsimp only
      rw [hsa, sub_self]
      cases ord.orderSide <;> simp [OrderSide.signed]
    refine ⟨⟨?_, hsim.nonneg, hsim.oneSided, hc⟩, [], by simp, ⟨[], [], by simp⟩⟩
    rw [hnet]
    exact hsim.net
  · rw [allocationsOf_nil] at ha
    have hne := nets_of_allocateAgainstPosition hsim.nonneg (sub_pos.mpr hlt) ha
    rw [← hem.positions, he] at hne
    obtain ⟨hnet, hn, hon⟩ := hne.reconstructs
    have ho : ∀ sym, sym ≠ ord.symbol → ∀ side,
        post.positions (sym, side) = pre.positions (sym, side) := by
      intro sym hs side
      rw [hem.positions, allocatePositions_frame hs]
    refine ⟨⟨?_, ?_, ?_, hc⟩, views, hem.resolved,
      reducesThenOpens_of_allocateAgainstPosition ha hem⟩
    · intro sym
      by_cases hs : sym = ord.symbol
      · rw [hs, hnet, hsim.net, acct.fill_net_self]
      · rw [acct.fill_net_of_ne hs, ho sym hs, ho sym hs]
        exact hsim.net sym
    · rintro ⟨sym, side⟩
      by_cases hs : sym = ord.symbol
      · rw [hs]
        exact hn side
      · rw [ho sym hs]
        exact hsim.nonneg _
    · intro sym
      by_cases hs : sym = ord.symbol
      · rw [hs]
        exact hon
      · rw [ho sym hs, ho sym hs]
        exact hsim.oneSided sym

theorem Reconstructs.not_hedged (hsim : Reconstructs acct pre) (hn : pre.Nonneg)
    (hb : ord.positionSide = .both) :
    CopyTrading.resolveOrder [] pre ord ≠ .error "COPY_ONE_WAY_SOURCE_STATE_HEDGED" := by
  intro he
  by_cases hle : ord.executedQuantity ≤ (pre.cumulative ord.rawKey).total
  · rw [resolveOrder_of_le hb hle] at he
    cases he
  have hlt := not_le.mp hle
  cases ha : allocationsOf [] pre ord with
  | ok allocs =>
    obtain ⟨reached, hr⟩ := resolveOrder_isOk hb hn hlt ha
    rw [hr] at he
    cases he
  | error code =>
    rw [resolveOrder_of_lt hb hlt, ha] at he
    cases he
    rw [allocationsOf_nil] at ha
    unfold allocateAgainstPosition at ha
    dsimp only at ha
    split at ha
    · rename_i hh
      have ho := hsim.oneSided ord.symbol
      cases hs : ord.orderSide with
      | buy =>
        rw [hs] at hh
        exact ho ⟨hh.2, hh.1⟩
      | sell =>
        rw [hs] at hh
        exact ho hh
    · split at ha
      · split at ha
        · exact absurd (Except.error.inj ha) (by decide)
        · cases ha
      · cases ha

end Simulation

/-- Rows of one raw order never report less than the rows before them. -/
def Growing (rows : List PublicLeaderOrder) : Prop :=
  rows.Pairwise fun earlier later => earlier.rawKey = later.rawKey →
    earlier.executedQuantity ≤ later.executedQuantity

section Batch

variable {rows : List PublicLeaderOrder} {ord : PublicLeaderOrder} {st : ResolverState}

def netAfter (rows : List PublicLeaderOrder) : NetAccount :=
  rows.foldl NetAccount.fill .flat

theorem netAfter_append (rows : List PublicLeaderOrder) (ord : PublicLeaderOrder) :
    netAfter (rows ++ [ord]) = (netAfter rows).fill ord := by
  unfold netAfter
  rw [List.foldl_append]
  rfl

theorem netAfter_executed (rows : List PublicLeaderOrder) (key : RawOrderKey) :
    (netAfter rows).executed key = 0 ∨
      ∃ row ∈ rows, row.rawKey = key ∧ (netAfter rows).executed key = row.executedQuantity := by
  induction rows using List.reverseRecOn with
  | nil => exact Or.inl rfl
  | append_singleton rows ord ih =>
    rw [netAfter_append]
    by_cases hk : key = ord.rawKey
    · refine Or.inr ⟨ord, by simp, hk.symm, ?_⟩
      rw [hk, NetAccount.fill_executed_self]
    · rw [NetAccount.fill_executed_of_ne _ hk]
      rcases ih with hz | ⟨row, hm, hf⟩
      · exact Or.inl hz
      · exact Or.inr ⟨row, List.mem_append_left _ hm, hf⟩

theorem Growing.executed_le (hg : Growing (rows ++ [ord])) :
    (netAfter rows).executed ord.rawKey ≤ ord.executedQuantity := by
  rcases netAfter_executed rows ord.rawKey with hz | ⟨row, hm, hk, he⟩
  · rw [hz]
    exact ord.executedQuantity_pos.le
  · rw [he]
    exact (List.pairwise_append.mp hg).2.2 row hm ord (by simp) hk

theorem Growing.of_append {rest : List PublicLeaderOrder} (hg : Growing (rows ++ rest)) :
    Growing rows :=
  (List.pairwise_append.mp hg).1

theorem reconstructs_start [HexOrder] : Reconstructs .flat (priorLedger []) :=
  ⟨fun _ => sub_self 0, fun _ => le_rfl, fun _ hb => lt_irrefl 0 hb.1, fun _ => add_zero 0⟩

theorem reconstructs_of_run [HexOrder] (hb : ∀ row ∈ rows, row.positionSide = .both)
    (hg : Growing rows) (hrun : rows.foldlM (resolveOrder []) (priorLedger []) = .ok st) :
    Reconstructs (netAfter rows) st := by
  induction rows using List.reverseRecOn generalizing st with
  | nil =>
    rw [foldlM_nil_eq_ok_iff] at hrun
    subst hrun
    exact reconstructs_start
  | append_singleton rows ord ih =>
    rw [List.foldlM_append, bind_eq_ok_iff] at hrun
    obtain ⟨mid, hf, hl⟩ := hrun
    rw [foldlM_cons_eq_ok_iff] at hl
    obtain ⟨post, hr, hn⟩ := hl
    rw [foldlM_nil_eq_ok_iff] at hn
    subst hn
    have hs := ih (fun row hm => hb row (List.mem_append_left _ hm)) hg.of_append hf
    rw [netAfter_append]
    exact (hs.resolveOrder (hb ord (by simp)) hg.executed_le hr).1

theorem run_not_hedged [HexOrder] (hb : ∀ row ∈ rows, row.positionSide = .both)
    (hg : Growing rows) : rows.foldlM (resolveOrder []) (priorLedger []) ≠
      .error "COPY_ONE_WAY_SOURCE_STATE_HEDGED" := by
  induction rows using List.reverseRecOn with
  | nil =>
    intro he
    cases he
  | append_singleton rows ord ih =>
    intro he
    have hr : ∀ row ∈ rows, row.positionSide = .both :=
      fun row hm => hb row (List.mem_append_left _ hm)
    rw [List.foldlM_append, bind_eq_error_iff] at he
    rcases he with hf | ⟨mid, hf, hl⟩
    · exact ih hr hg.of_append hf
    · rw [List.foldlM_cons, bind_eq_error_iff] at hl
      rcases hl with he | ⟨post, -, hn⟩
      · have hs := reconstructs_of_run hr hg.of_append hf
        exact hs.not_hedged (resolveOrders_nonneg (nonneg_priorLedger []) hf) (hb ord (by simp)) he
      · cases hn

end Batch

/-- The resolver refines the signed account on a batch: at every prefix of the sorted
rows on which it does not fail its positions are the account's, every row reduces at
most once and then opens at most once, and no row finds both sides open. -/
structure RefinesNet [HexOrder] (orders : List PublicLeaderOrder) : Prop where
  net : ∀ rows state, rows <+: sortedOrders orders →
    rows.foldlM (resolveOrder []) (priorLedger []) = .ok state →
    Reconstructs (netAfter rows) state
  views : ∀ rows order before after, rows ++ [order] <+: sortedOrders orders →
    rows.foldlM (resolveOrder []) (priorLedger []) = .ok before →
    resolveOrder [] before order = .ok after →
    ∃ views, after.resolved = before.resolved ++ views ∧ ReducesThenOpens order views
  unhedged : resolveOneWayOrders orders [] [] ≠ .error "COPY_ONE_WAY_SOURCE_STATE_HEDGED"

theorem one_way_refines_net [HexOrder] {orders : List PublicLeaderOrder}
    (hboth : ∀ ord ∈ orders, ord.positionSide = .both)
    (hgrowing : Growing (sortedOrders orders)) : RefinesNet orders := by
  have hs : ∀ ord ∈ sortedOrders orders, ord.positionSide = .both :=
    fun ord hm => hboth ord (mem_sortedOrders.mp hm)
  refine ⟨?_, ?_, ?_⟩
  · rintro rows st ⟨rest, hre⟩ hrun
    rw [← hre] at hs hgrowing
    exact reconstructs_of_run (fun row hm => hs row (List.mem_append_left _ hm))
      hgrowing.of_append hrun
  · rintro rows ord pre post ⟨rest, hre⟩ hrun hr
    rw [← hre] at hs hgrowing
    have hro : Growing (rows ++ [ord]) := hgrowing.of_append
    have hsim := reconstructs_of_run (fun row hm => hs row (by simp [hm])) hro.of_append hrun
    exact (hsim.resolveOrder (hs ord (by simp)) hro.executed_le hr).2
  · intro he
    unfold resolveOneWayOrders at he
    split at he
    · exact absurd (Except.error.inj he) (by decide)
    split at he
    · exact absurd (Except.error.inj he) (by decide)
    rw [bind_eq_error_iff] at he
    rcases he with hl | ⟨st, -, hok⟩
    · exact run_not_hedged hs hgrowing hl
    · cases hok

section Flips

/-- The update times differ, so digests are never compared. -/
local instance flipHexOrder : HexOrder := ⟨fun _ => 0⟩

theorem purchase_isOk :
    (PublicLeaderOrder.fromApi "1" (oneWayDocument .buy 1 100 1000 1000)).isOk = true := by
  decide

/-- A purchase of one unit, a sale of three, and the purchase grown to four. -/
def flipRows : List PublicLeaderOrder :=
  [okValue (PublicLeaderOrder.fromApi "1" (oneWayDocument .buy 1 100 1000 1000)) purchase_isOk,
    okValue (PublicLeaderOrder.fromApi "1" (oneWayDocument .sell 3 100 2000 2000))
      (by decide),
    okValue (PublicLeaderOrder.fromApi "1" (oneWayDocument .buy 4 100 1000 3000))
      (by decide)]

theorem flip_refines_net : (resolveOneWayOrders flipRows [] []).toOption.map
        (·.map fun view => (view.positionSide, view.executedQuantity)) =
      some [(.long, 1), (.long, 1), (.short, 2), (.short, 2), (.long, 2)] ∧
      (netAfter (sortedOrders flipRows)).net "BTCUSDT" = 1 ∧ RefinesNet flipRows := by
  have hg : (sortedOrders flipRows).Pairwise fun earlier later =>
      earlier.rawKey = later.rawKey → earlier.executedQuantity ≤ later.executedQuantity := by
    decide
  exact ⟨by with_unfolding_all decide, by with_unfolding_all decide,
    one_way_refines_net (by decide) hg⟩

end Flips

end AiQuant.CopyTrading
