import AiQuant.CopyTrading.OneWay

/-! The resolver on one row: what a `BOTH` row does to the source positions, to the
attributed quantities and to the resolved orders. -/
namespace AiQuant.CopyTrading
open AiQuant.Lib

def ClosedLeaderPosition.covers (position : ClosedLeaderPosition) (order : PublicLeaderOrder) :
    Bool :=
  match position.closedAtMs <|> position.evidenceUpdatedAtMs with
  | none => false
  | some intervalEnd =>
    position.symbol = order.symbol &&
      ((position.openedAtMs ≤ order.orderTimeMs && order.orderTimeMs ≤ intervalEnd) ||
        (position.openedAtMs ≤ order.updateTimeMs && order.updateTimeMs ≤ intervalEnd))

theorem closedInterval_eq (ord : PublicLeaderOrder) (positions : List ClosedLeaderPosition) :
    closedInterval ord positions = match positions.filter (·.covers ord) with
      | [] => .ok none
      | [pos] => .ok (some pos)
      | _ => .error "COPY_ONE_WAY_POSITION_INTERVAL_OVERLAP" := rfl

variable {ord : PublicLeaderOrder}

theorem closedInterval_eq_some_iff
    {positions : List ClosedLeaderPosition} {pos : ClosedLeaderPosition} :
    closedInterval ord positions = .ok (some pos) ↔ positions.filter (·.covers ord) = [pos] := by
  rw [closedInterval_eq]
  split
  · rename_i hnone
    simp [hnone]
  · rename_i found hfound
    simp [hfound]
  · rename_i hnone hsingle
    simp only [reduceCtorEq, false_iff]
    exact hsingle pos

/-- `view` is the cumulative `side` view of the one-way row `order`. -/
structure IsView (order : PublicLeaderOrder) (side : PositionSide) (quantity : Decimal)
    (view : PublicLeaderOrder) : Prop where
  leadPortfolioId : view.leadPortfolioId = order.leadPortfolioId
  rawKey : view.rawKey = order.rawKey
  positionSide : view.positionSide = side.source
  executedQuantity : view.executedQuantity = quantity
  updateTimeMs : view.updateTimeMs = order.updateTimeMs
  rawPayloadHash : view.rawPayloadHash = order.rawPayloadHash
  identityKey : view.identityKey = .orderIdentity view.leadPortfolioId view.orderTimeMs
    view.orderType view.positionSide view.orderSide view.symbol
  eventKey : view.eventKey = .orderEvent view.averagePrice view.executedQuantity
    view.identityKey view.totalPnl view.updateTimeMs view.spelling

theorem isView_of_resolvePositionSide {view : PublicLeaderOrder} {side : PositionSide}
    {qty totalPnl : Decimal} (hr : ord.resolvePositionSide side qty totalPnl = .ok view)
    : IsView ord side qty view := by
  unfold PublicLeaderOrder.resolvePositionSide at hr
  split at hr
  · cases hr
  split at hr
  · cases hr
  · cases hr
    constructor <;> rfl

/-- The quantities `after` that the views of `order` add to the attributed `before`. -/
structure Attribution (order : PublicLeaderOrder) (before after : BySide)
    (views : List PublicLeaderOrder) : Prop where
  le : ∀ side, before side ≤ after side
  view : ∀ side, before side < after side → ∃ view ∈ views, IsView order side (after side) view
  complete : ∀ view ∈ views, view.rawKey = order.rawKey →
    ∃ side, IsView order side (after side) view ∧ before side < after side

def BySide.total (bySide : BySide) : Decimal := bySide .long + bySide .short

theorem BySide.total_update_add (bySide : BySide) (side : PositionSide) (qty : Decimal) :
    BySide.total (Function.update bySide side (bySide side + qty)) = bySide.total + qty := by
  cases side <;> simp [BySide.total] <;> ring

theorem IsView.identity_ne {other left right : PublicLeaderOrder}
    {leftSide rightSide : PositionSide} {leftQuantity rightQuantity : Decimal}
    (hl : IsView ord leftSide leftQuantity left) (hr : IsView other rightSide rightQuantity right)
    (hne : leftSide ≠ rightSide ∨ ord.rawKey ≠ other.rawKey) :
    left.identityKey ≠ right.identityKey := by
  intro hk
  rw [hl.identityKey, hr.identityKey] at hk
  injection hk with _ ht hty hsi ho hs
  rcases hne with hne | hne
  · rw [hl.positionSide, hr.positionSide] at hsi
    exact hne (PositionSide.source_injective hsi)
  · apply hne
    rw [← hl.rawKey, ← hr.rawKey]
    simp [PublicLeaderOrder.rawKey, hs, ho, hty, ht]

structure EmitsViews (order : PublicLeaderOrder) (before after : ResolverState)
    (views : List PublicLeaderOrder) : Prop where
  resolved : after.resolved = before.resolved ++ views
  frame : ∀ key, key ≠ order.rawKey → after.cumulative key = before.cumulative key
  rawKey : ∀ view ∈ views, view.rawKey = order.rawKey
  attribution : Attribution order (before.cumulative order.rawKey)
    (after.cumulative order.rawKey) views
  nodup : (views.map (·.identityKey)).Nodup

theorem EmitsViews.refl (ord : PublicLeaderOrder) (st : ResolverState) :
    EmitsViews ord st st [] := by
  refine ⟨by simp, fun _ _ => rfl, by simp, ⟨fun _ => le_rfl, ?_, by simp⟩, List.nodup_nil⟩
  intro side hlt
  exact absurd hlt (lt_irrefl _)

theorem emitAllocation_spec {count : ℕ} {pre post : ResolverState} {side : PositionSide}
    {qty : Decimal} (hq : 0 < qty) (he : emitAllocation ord count pre (side, qty) = .ok post) :
    ∃ view, IsView ord side (pre.cumulative ord.rawKey side + qty) view ∧
      post.resolved = pre.resolved ++ [view] ∧
      post.cumulative = Function.update pre.cumulative ord.rawKey
        (Function.update (pre.cumulative ord.rawKey) side
          (pre.cumulative ord.rawKey side + qty)) := by
  simp only [emitAllocation, if_neg (not_le.mpr hq), bind_eq_ok_iff] at he
  obtain ⟨view, hr, hs⟩ := he
  cases hs
  exact ⟨view, isView_of_resolvePositionSide hr, rfl, rfl⟩

def allocationsOf (closedPositions : List ClosedLeaderPosition) (state : ResolverState)
    (order : PublicLeaderOrder) : Except String (List (PositionSide × Decimal)) := do
  let previousBySide := state.cumulative order.rawKey
  let delta := order.executedQuantity - previousBySide.total
  match ← closedInterval order closedPositions with
  | some interval => allocateWithClosedInterval order delta interval previousBySide
  | none => allocateAgainstPosition order delta state.positions

def allocatePositions (order : PublicLeaderOrder) (positions : SourcePositions)
    (allocations : List (PositionSide × Decimal)) : SourcePositions :=
  allocations.foldl (fun reached allocation =>
    applyPositionDelta reached order.symbol allocation.1 order.orderSide allocation.2) positions

structure Emits (order : PublicLeaderOrder) (allocations : List (PositionSide × Decimal))
    (before after : ResolverState) (views : List PublicLeaderOrder) : Prop where
  positions : after.positions = allocatePositions order before.positions allocations
  resolved : after.resolved = before.resolved ++ views
  frame : ∀ key, key ≠ order.rawKey → after.cumulative key = before.cumulative key
  others : ∀ side, side ∉ allocations.map Prod.fst →
    after.cumulative order.rawKey side = before.cumulative order.rawKey side
  attributed : ∀ allocation ∈ allocations, after.cumulative order.rawKey allocation.1 =
    before.cumulative order.rawKey allocation.1 + allocation.2
  views : List.Forall₂ (fun allocation view => IsView order allocation.1
    (before.cumulative order.rawKey allocation.1 + allocation.2) view) allocations views

section Step

variable {closed : List ClosedLeaderPosition} {ord : PublicLeaderOrder}
  {pre post : ResolverState}

theorem resolveOrder_explicit (he : ord.positionSide ≠ .both) : resolveOrder closed pre ord =
      .ok { pre with resolved := pre.resolved ++ [ord] } :=
  if_pos he

theorem resolveOrder_of_le (hb : ord.positionSide = .both)
    (hle : ord.executedQuantity ≤ (pre.cumulative ord.rawKey).total) :
    resolveOrder closed pre ord = .ok pre := by
  unfold resolveOrder
  rw [if_neg (not_not.mpr hb)]
  exact if_pos hle

theorem resolveOrder_of_lt (hb : ord.positionSide = .both)
    (hlt : (pre.cumulative ord.rawKey).total < ord.executedQuantity) : resolveOrder closed pre ord =
      (allocationsOf closed pre ord >>= fun allocs =>
        allocs.foldlM (emitAllocation ord allocs.length) pre) := by
  have hn : ¬ ord.executedQuantity ≤ pre.cumulative ord.rawKey .long +
      pre.cumulative ord.rawKey .short := not_le.mpr hlt
  unfold resolveOrder allocationsOf
  rw [if_neg (not_not.mpr hb)]
  dsimp only
  rw [if_neg hn]
  cases closedInterval ord closed with
  | error code => rfl
  | ok ivl => cases ivl <;> rfl

variable {allocs : List (PositionSide × Decimal)}

theorem isSplit_of_allocationsOf (hlt : (pre.cumulative ord.rawKey).total < ord.executedQuantity)
    (ha : allocationsOf closed pre ord = .ok allocs) :
    IsSplit (ord.executedQuantity - (pre.cumulative ord.rawKey).total) allocs := by
  have hd := sub_pos.mpr hlt
  unfold allocationsOf at ha
  dsimp only at ha
  rw [bind_eq_ok_iff] at ha
  obtain ⟨ivl, -, ha⟩ := ha
  cases ivl with
  | none => exact isSplit_of_allocateAgainstPosition hd ha
  | some ivl => exact isSplit_of_allocateWithClosedInterval hd ha

theorem emitAllocation_positions {count : ℕ} {side : PositionSide} {qty : Decimal} (hq : 0 < qty)
    (he : emitAllocation ord count pre (side, qty) = .ok post) : post.positions =
      applyPositionDelta pre.positions ord.symbol side ord.orderSide qty := by
  simp only [emitAllocation, if_neg (not_le.mpr hq), bind_eq_ok_iff] at he
  obtain ⟨_, _, hs⟩ := he
  cases hs
  rfl

theorem emitAllocations_emits {count : ℕ} (hp : ∀ alloc ∈ allocs, 0 < alloc.2)
    (hn : (allocs.map Prod.fst).Nodup)
    (hrun : allocs.foldlM (emitAllocation ord count) pre = .ok post) :
    ∃ views, Emits ord allocs pre post views := by
  induction allocs generalizing pre with
  | nil =>
    rw [foldlM_nil_eq_ok_iff] at hrun
    subst hrun
    exact ⟨[], rfl, by simp, fun _ _ => rfl, fun _ _ => rfl, by simp, List.Forall₂.nil⟩
  | cons alloc rest ih =>
    obtain ⟨side, qty⟩ := alloc
    rw [foldlM_cons_eq_ok_iff] at hrun
    obtain ⟨mid, hf, hre⟩ := hrun
    have hq : 0 < qty := hp _ List.mem_cons_self
    obtain ⟨view, hvi, hr, hc⟩ := emitAllocation_spec hq hf
    have hpo := emitAllocation_positions hq hf
    rw [List.map_cons, List.nodup_cons] at hn
    obtain ⟨views, he⟩ := ih (fun alloc hmem => hp alloc (List.mem_cons_of_mem _ hmem)) hn.2 hre
    have hm : mid.cumulative ord.rawKey = Function.update
        (pre.cumulative ord.rawKey) side (pre.cumulative ord.rawKey side + qty) := by
      rw [hc, Function.update_self]
    -- the other allocations are to other sides
    have ho : ∀ alloc ∈ rest,
        mid.cumulative ord.rawKey alloc.1 = pre.cumulative ord.rawKey alloc.1 := by
      intro alloc hmem
      have hne : alloc.1 ≠ side := by
        rintro rfl
        exact hn.1 (List.mem_map.mpr ⟨alloc, hmem, rfl⟩)
      rw [hm, Function.update_of_ne hne]
    refine ⟨view :: views, ?_, ?_, ?_, ?_, ?_, ?_⟩
    · rw [he.positions, hpo]
      rfl
    · rw [he.resolved, hr, List.append_assoc]
      rfl
    · intro key hk
      rw [he.frame key hk, hc, Function.update_of_ne hk]
    · intro other hnot
      rw [List.map_cons, List.mem_cons, not_or] at hnot
      rw [he.others other hnot.2, hm, Function.update_of_ne hnot.1]
    · intro alloc hmem
      rcases List.mem_cons.mp hmem with rfl | hmem
      · rw [he.others side hn.1, hm, Function.update_self]
      · rw [he.attributed alloc hmem, ho alloc hmem]
    · refine List.Forall₂.cons hvi ?_
      have hv := he.views
      rw [List.forall₂_iff_zip] at hv ⊢
      refine ⟨hv.1, ?_⟩
      intro alloc found hz
      rw [← ho alloc (List.of_mem_zip hz).1]
      exact hv.2 hz

theorem resolveOrder_cases (hb : ord.positionSide = .both)
    (hr : resolveOrder closed pre ord = .ok post) :
    (ord.executedQuantity ≤ (pre.cumulative ord.rawKey).total ∧ post = pre) ∨
    ∃ allocs views, (pre.cumulative ord.rawKey).total < ord.executedQuantity ∧
      allocationsOf closed pre ord = .ok allocs ∧
      IsSplit (ord.executedQuantity - (pre.cumulative ord.rawKey).total) allocs ∧
      Emits ord allocs pre post views := by
  by_cases hle : ord.executedQuantity ≤ (pre.cumulative ord.rawKey).total
  · rw [resolveOrder_of_le hb hle] at hr
    cases hr
    exact Or.inl ⟨hle, rfl⟩
  · have hlt := not_le.mp hle
    rw [resolveOrder_of_lt hb hlt, bind_eq_ok_iff] at hr
    obtain ⟨allocs, ha, hrun⟩ := hr
    have hs := isSplit_of_allocationsOf hlt ha
    obtain ⟨views, he⟩ := emitAllocations_emits hs.positive hs.nodup hrun
    exact Or.inr ⟨allocs, views, hlt, ha, hs, he⟩

theorem forall₂_exists {α β : Type} {rel : α → β → Prop} {left : List α} {right : List β}
    (hr : List.Forall₂ rel left right) : ∀ found ∈ right, ∃ own ∈ left, rel own found := by
  induction hr with
  | nil => simp
  | cons hfi _ ih =>
    intro found hf
    rcases List.mem_cons.mp hf with rfl | hf
    · exact ⟨_, List.mem_cons_self, hfi⟩
    · obtain ⟨own, ho, hs⟩ := ih found hf
      exact ⟨own, List.mem_cons_of_mem _ ho, hs⟩

theorem BySide.total_of_gains {pre post : BySide} (hn : (allocs.map Prod.fst).Nodup)
    (ho : ∀ side, side ∉ allocs.map Prod.fst → post side = pre side)
    (hg : ∀ alloc ∈ allocs, post alloc.1 = pre alloc.1 + alloc.2) :
    post.total = pre.total + (allocs.map Prod.snd).sum := by
  induction allocs generalizing pre with
  | nil =>
    have hs : post = pre := funext fun side => ho side List.not_mem_nil
    simp [hs]
  | cons alloc rest ih =>
    obtain ⟨side, qty⟩ := alloc
    rw [List.map_cons, List.nodup_cons] at hn
    have hf : post side = pre side + qty := hg _ List.mem_cons_self
    have hr := @ih (Function.update pre side (pre side + qty)) hn.2 ?_ ?_
    · rw [hr, BySide.total_update_add, List.map_cons, List.sum_cons]
      ring
    · intro other hot
      rw [Function.update_apply]
      split
      · rename_i hs
        rw [hs, hf]
      · rename_i hne
        exact ho other (by simp [hne, hot])
    · intro alloc hm
      have hne : alloc.1 ≠ side := by
        rintro rfl
        exact hn.1 (List.mem_map.mpr ⟨alloc, hm, rfl⟩)
      rw [Function.update_of_ne hne]
      exact hg alloc (List.mem_cons_of_mem _ hm)

section Emitted

variable {allocs : List (PositionSide × Decimal)} {views : List PublicLeaderOrder}

section

variable (he : Emits ord allocs pre post views)
include he

theorem Emits.le (hp : ∀ alloc ∈ allocs, 0 < alloc.2) (key : RawOrderKey)
    (side : PositionSide) : pre.cumulative key side ≤ post.cumulative key side := by
  by_cases hk : key = ord.rawKey
  · subst hk
    by_cases hs : side ∈ allocs.map Prod.fst
    · obtain ⟨alloc, hm, rfl⟩ := List.mem_map.mp hs
      rw [he.attributed alloc hm]
      exact le_add_of_nonneg_right (hp alloc hm).le
    · rw [he.others side hs]
  · rw [he.frame key hk]

theorem Emits.nodup (hn : (allocs.map Prod.fst).Nodup) : (views.map (·.identityKey)).Nodup := by
  have hv := he.views
  generalize hbefore : pre.cumulative ord.rawKey = old at hv
  clear he
  induction hv with
  | nil => exact List.nodup_nil
  | @cons alloc view rest others hview hrest ih =>
    rw [List.map_cons, List.nodup_cons] at hn ⊢
    refine ⟨?_, ih hn.2⟩
    intro hm
    obtain ⟨found, hf, hk⟩ := List.mem_map.mp hm
    obtain ⟨own, hown, ho⟩ := forall₂_exists hrest found hf
    refine ho.identity_ne hview (Or.inl ?_) hk
    rintro hs
    exact hn.1 (List.mem_map.mpr ⟨own, hown, hs⟩)

theorem Emits.emitsViews (hp : ∀ alloc ∈ allocs, 0 < alloc.2)
    (hn : (allocs.map Prod.fst).Nodup) : EmitsViews ord pre post views := by
  refine ⟨he.resolved, he.frame, ?_, ⟨he.le hp ord.rawKey, ?_, ?_⟩, he.nodup hn⟩
  · intro view hv
    obtain ⟨alloc, -, hi⟩ := forall₂_exists he.views view hv
    exact hi.rawKey
  · intro side hlt
    have hs : side ∈ allocs.map Prod.fst := by
      by_contra hnot
      exact hlt.ne' (he.others side hnot)
    obtain ⟨alloc, hm, rfl⟩ := List.mem_map.mp hs
    obtain ⟨view, hv, hi⟩ := forall₂_exists he.views.flip alloc hm
    rw [he.attributed alloc hm]
    exact ⟨view, hv, hi⟩
  · intro view hv _
    obtain ⟨alloc, hm, hi⟩ := forall₂_exists he.views view hv
    refine ⟨alloc.1, ?_, ?_⟩
    · rw [he.attributed alloc hm]
      exact hi
    · rw [he.attributed alloc hm]
      exact lt_add_of_pos_right _ (hp alloc hm)

end

end Emitted

theorem resolveOrder_spec (hb : ord.positionSide = .both)
    (hr : resolveOrder closed pre ord = .ok post) :
    ∃ views, EmitsViews ord pre post views ∧ (post.cumulative ord.rawKey).total =
        max ord.executedQuantity (pre.cumulative ord.rawKey).total := by
  rcases resolveOrder_cases hb hr with ⟨hle, rfl⟩ |
    ⟨allocs, views, hlt, -, hs, he⟩
  · exact ⟨[], .refl ord post, (max_eq_right hle).symm⟩
  · refine ⟨views, he.emitsViews hs.positive hs.nodup, ?_⟩
    rw [BySide.total_of_gains hs.nodup he.others he.attributed, hs.total, max_eq_left hlt.le]
    ring

end Step

end AiQuant.CopyTrading
