import Mathlib.Data.List.Dedup
import AiQuant.CopyTrading.OneWayStep

/-! The resolver row by row: the replay of the stored rows, the loop over the response,
and what a row can see of the rows before it. -/
namespace AiQuant.CopyTrading
open AiQuant.Lib

theorem Attribution.mono {ord : PublicLeaderOrder} {pre post : BySide}
    {views more : List PublicLeaderOrder} (ha : Attribution ord pre post views) (hs : views ⊆ more)
    (ho : ∀ view ∈ more, view ∈ views ∨ view.rawKey ≠ ord.rawKey) :
    Attribution ord pre post more := by
  refine ⟨ha.le, ?_, ?_⟩
  · intro side hlt
    obtain ⟨view, hm, hv⟩ := ha.view side hlt
    exact ⟨view, hs hm, hv⟩
  · intro view hm hr
    rcases ho view hm with hm | hne
    · exact ha.complete view hm hr
    · exact absurd hr hne

variable {orders : List PublicLeaderOrder}

theorem resolveOrders_spec {closed : List ClosedLeaderPosition} {pre post : ResolverState}
    (hb : ∀ ord ∈ orders, ord.positionSide = .both) (hn : (orders.map (·.rawKey)).Nodup)
    (hrun : orders.foldlM (resolveOrder closed) pre = .ok post) :
    ∃ views, post.resolved = pre.resolved ++ views ∧ (views.map (·.identityKey)).Nodup ∧
      (∀ view ∈ views, ∃ ord ∈ orders, view.rawKey = ord.rawKey) ∧
      ∀ ord ∈ orders, ∃ quantities, Attribution ord (pre.cumulative ord.rawKey) quantities views ∧
        quantities.total = max ord.executedQuantity (pre.cumulative ord.rawKey).total := by
  induction orders generalizing pre with
  | nil =>
    rw [foldlM_nil_eq_ok_iff] at hrun
    subst hrun
    exact ⟨[], by simp⟩
  | cons first rest ih =>
    rw [foldlM_cons_eq_ok_iff] at hrun
    obtain ⟨mid, hfi, hrest⟩ := hrun
    rw [List.map_cons, List.nodup_cons] at hn
    obtain ⟨here, hh, ht⟩ := resolveOrder_spec (hb first List.mem_cons_self) hfi
    obtain ⟨later, hre, hlat, hl, hlater⟩ := ih
      (fun ord hm => hb ord (List.mem_cons_of_mem _ hm)) hn.2 hrest
    have hf : ∀ ord ∈ rest, ord.rawKey ≠ first.rawKey := by
      intro ord hm heq
      exact hn.1 (List.mem_map.mpr ⟨ord, hm, heq⟩)
    have hla : ∀ view ∈ later, view.rawKey ≠ first.rawKey := by
      intro view hm
      obtain ⟨ord, ho, hraw⟩ := hl view hm
      rw [hraw]
      exact hf ord ho
    refine ⟨here ++ later, ?_, ?_, ?_, ?_⟩
    · rw [hre, hh.resolved, List.append_assoc]
    · rw [List.map_append, List.nodup_append]
      refine ⟨hh.nodup, hlat, ?_⟩
      intro identity hleft other hrig
      obtain ⟨left, hle, rfl⟩ := List.mem_map.mp hleft
      obtain ⟨right, hr, rfl⟩ := List.mem_map.mp hrig
      obtain ⟨_, hlef, -⟩ :=
        hh.attribution.complete left hle (hh.rawKey left hle)
      obtain ⟨ord, ho, hraw⟩ := hl right hr
      obtain ⟨_, ha, -⟩ := hlater ord ho
      obtain ⟨_, hri, -⟩ := ha.complete right hr hraw
      exact hlef.identity_ne hri (Or.inr (hf ord ho).symm)
    · intro view hm
      rcases List.mem_append.mp hm with hm | hm
      · exact ⟨first, List.mem_cons_self, hh.rawKey view hm⟩
      · obtain ⟨ord, ho, hraw⟩ := hl view hm
        exact ⟨ord, List.mem_cons_of_mem _ ho, hraw⟩
    · intro ord hm
      rcases List.mem_cons.mp hm with rfl | hm
      · refine ⟨mid.cumulative ord.rawKey, hh.attribution.mono ?_ ?_, ht⟩
        · exact List.subset_append_left _ _
        · intro view hv
          rcases List.mem_append.mp hv with hv | hv
          · exact Or.inl hv
          · exact Or.inr (hla view hv)
      · obtain ⟨quantities, ha, hq⟩ := hlater ord hm
        rw [hh.frame ord.rawKey (hf ord hm)] at ha hq
        refine ⟨quantities, ha.mono ?_ ?_, hq⟩
        · exact List.subset_append_right _ _
        · intro view hv
          rcases List.mem_append.mp hv with hv | hv
          · right
            rw [hh.rawKey view hv]
            exact (hf ord hm).symm
          · exact Or.inl hv

theorem replayPrior_le (st : ResolverState) (prior : PublicLeaderOrder) (key : RawOrderKey)
    (side : PositionSide) :
    st.cumulative key side ≤ (replayPrior st prior).cumulative key side := by
  unfold replayPrior
  split
  · exact le_rfl
  · rename_i priorSide hside
    by_cases hk : key = prior.rawKey
    · subst hk
      by_cases hs : side = priorSide
      · subst hs
        simp
      · simp [Function.update_of_ne hs]
    · simp [Function.update_of_ne hk]

variable {st : ResolverState}

theorem replayPriors_le (key : RawOrderKey) (side : PositionSide) :
    st.cumulative key side ≤ (orders.foldl replayPrior st).cumulative key side := by
  induction orders generalizing st with
  | nil => exact le_rfl
  | cons prior orders ih => exact (replayPrior_le st prior key side).trans ih

theorem replayPriors_ge_of_mem {prior : PublicLeaderOrder} {side : PositionSide}
    (hm : prior ∈ orders) (hs : prior.positionSide = side.source) : prior.executedQuantity ≤
      (orders.foldl replayPrior st).cumulative prior.rawKey side := by
  induction orders generalizing st with
  | nil => cases hm
  | cons first orders ih =>
    rcases List.mem_cons.mp hm with rfl | hm
    · have hf : prior.executedQuantity ≤ (replayPrior st prior).cumulative prior.rawKey side := by
        unfold replayPrior
        rw [hs, PositionSide.explicit?_source]
        simp
      exact hf.trans (replayPriors_le prior.rawKey side)
    · exact ih hm

theorem replayPriors_resolved : (orders.foldl replayPrior st).resolved = st.resolved := by
  induction orders generalizing st with
  | nil => rfl
  | cons prior orders ih =>
    rw [List.foldl_cons, ih]
    unfold replayPrior
    split <;> rfl

theorem replayPriors_eq (key : RawOrderKey) (side : PositionSide) :
    (orders.foldl replayPrior st).cumulative key side = st.cumulative key side ∨
      ∃ prior ∈ orders, prior.rawKey = key ∧ prior.positionSide = side.source ∧
        (orders.foldl replayPrior st).cumulative key side = prior.executedQuantity := by
  induction orders generalizing st with
  | nil => exact Or.inl rfl
  | cons first orders ih =>
    rcases @ih (replayPrior st first) with hsa | ⟨prior, hmem, hf⟩
    · rw [List.foldl_cons, hsa]
      unfold replayPrior
      split
      · exact Or.inl rfl
      · rename_i firstSide hs
        rw [SourcePositionSide.explicit?_eq_some_iff] at hs
        by_cases hk : key = first.rawKey
        · subst hk
          by_cases he : side = firstSide
          · subst he
            simp only [Function.update_self]
            rcases max_choice (st.cumulative first.rawKey side) first.executedQuantity with
              hm | hm
            · exact Or.inl hm
            · exact Or.inr ⟨first, List.mem_cons_self, rfl, hs, hm⟩
          · simp [Function.update_of_ne he]
        · simp [Function.update_of_ne hk]
    · exact Or.inr ⟨prior, List.mem_cons_of_mem _ hmem, hf⟩

section Latest

variable [HexOrder]

/-- `latest` holds, for each row of `orders`, a row of its identity that is no older. -/
structure Covers (latest orders : List PublicLeaderOrder) : Prop where
  nodup : (latest.map (·.identityKey)).Nodup
  subset : latest ⊆ orders
  recent : ∀ order ∈ orders, ∃ kept ∈ latest,
    kept.identityKey = order.identityKey ∧ order.recency ≤ kept.recency

variable {latest orders : List PublicLeaderOrder} {ord : PublicLeaderOrder}

theorem Covers.add (hc : Covers latest orders)
    (hf : ∀ kept ∈ latest, kept.identityKey ≠ ord.identityKey) :
    Covers (latest ++ [ord]) (orders ++ [ord]) := by
  refine ⟨?_, ?_, ?_⟩
  · rw [List.map_append, List.nodup_append]
    refine ⟨hc.nodup, by simp, ?_⟩
    intro identity hi other ho
    obtain ⟨kept, hk, rfl⟩ := List.mem_map.mp hi
    simp only [List.map_cons, List.map_nil, List.mem_singleton] at ho
    subst ho
    exact hf kept hk
  · exact List.append_subset.mpr ⟨List.Subset.trans hc.subset (List.subset_append_left _ _),
        List.subset_append_right _ _⟩
  · intro row hrow
    rcases List.mem_append.mp hrow with hrow | hrow
    · obtain ⟨kept, hk, hr⟩ := hc.recent row hrow
      exact ⟨kept, List.mem_append_left _ hk, hr⟩
    · rw [List.mem_singleton] at hrow
      subst hrow
      exact ⟨row, by simp, rfl, le_rfl⟩

theorem Covers.replace (hc : Covers latest orders) {prev : PublicLeaderOrder} (hp : prev ∈ latest)
    (hi : prev.identityKey = ord.identityKey) (hn : prev.recency < ord.recency) :
    Covers (latest.map fun kept => if kept.identityKey = ord.identityKey then ord else kept)
      (orders ++ [ord]) := by
  have hrep : ord ∈ latest.map fun kept =>
      if kept.identityKey = ord.identityKey then ord else kept :=
    List.mem_map.mpr ⟨prev, hp, by simp [hi]⟩
  refine ⟨?_, ?_, ?_⟩
  · have hs : (latest.map fun kept =>
        if kept.identityKey = ord.identityKey then ord else kept).map (·.identityKey) =
        latest.map (·.identityKey) := by
      rw [List.map_map]
      apply List.map_congr_left
      intro kept _
      by_cases hkey : kept.identityKey = ord.identityKey
      · simp [hkey]
      · simp [hkey]
    rw [hs]
    exact hc.nodup
  · intro row hrow
    obtain ⟨kept, hk, rfl⟩ := List.mem_map.mp hrow
    split
    · simp
    · exact List.mem_append_left _ (hc.subset hk)
  · intro row hrow
    rcases List.mem_append.mp hrow with hrow | hrow
    · obtain ⟨kept, hk, hkey, hre⟩ := hc.recent row hrow
      by_cases hr : kept.identityKey = ord.identityKey
      · -- identities are unique, so `prev` is the only row that is replaced
        have ho : kept = prev :=
          List.inj_on_of_nodup_map hc.nodup hk hp (hr.trans hi.symm)
        refine ⟨ord, hrep, hr.symm.trans hkey, ?_⟩
        rw [ho] at hre
        exact hre.trans hn.le
      · exact ⟨kept, List.mem_map.mpr ⟨kept, hk, by simp [hr]⟩, hkey, hre⟩
    · rw [List.mem_singleton] at hrow
      subst hrow
      exact ⟨row, hrep, rfl, le_rfl⟩

theorem Covers.pass (hc : Covers latest orders) {prev : PublicLeaderOrder}
    (hp : prev ∈ latest) (hi : prev.identityKey = ord.identityKey)
    (holder : ord.recency ≤ prev.recency) : Covers latest (orders ++ [ord]) := by
  refine ⟨hc.nodup, List.Subset.trans hc.subset (List.subset_append_left _ _), ?_⟩
  intro row hr
  rcases List.mem_append.mp hr with hr | hr
  · exact hc.recent row hr
  · rw [List.mem_singleton] at hr
    subst hr
    exact ⟨prev, hp, hi, holder⟩

theorem Covers.keepLatest (hc : Covers latest orders)
    (ord : PublicLeaderOrder) : Covers (keepLatest latest ord) (orders ++ [ord]) := by
  unfold CopyTrading.keepLatest
  split
  · rename_i hnone
    rw [List.find?_eq_none] at hnone
    apply hc.add
    intro kept hk
    simpa using hnone kept hk
  · rename_i prev hfound
    have hp := List.mem_of_find?_eq_some hfound
    have hi : prev.identityKey = ord.identityKey := by
      simpa using List.find?_some hfound
    split
    · rename_i hnewer
      exact hc.replace hp hi hnewer
    · rename_i hnewer
      exact hc.pass hp hi (not_lt.mp hnewer)

theorem latestByIdentity_covers (orders : List PublicLeaderOrder) :
    Covers (latestByIdentity orders) orders := by
  unfold latestByIdentity
  induction orders using List.reverseRecOn with
  | nil => exact ⟨by simp, by simp, by simp⟩
  | append_singleton orders ord ih =>
    rw [List.foldl_append]
    exact ih.keepLatest ord

@[simp] theorem mem_sortedOrders : ord ∈ sortedOrders orders ↔ ord ∈ orders :=
  (List.perm_insertionSort _ orders).mem_iff

theorem mem_latestByIdentity (hn : (orders.map (·.identityKey)).Nodup) :
    ord ∈ latestByIdentity orders ↔ ord ∈ orders := by
  have hc := latestByIdentity_covers orders
  refine ⟨fun hm => hc.subset hm, fun hm => ?_⟩
  obtain ⟨kept, hk, hi, -⟩ := hc.recent ord hm
  rwa [← List.inj_on_of_nodup_map hn (hc.subset hk) hm hi]

theorem sortedOrders_perm (orders : List PublicLeaderOrder) : (sortedOrders orders).Perm orders :=
  List.perm_insertionSort _ orders

theorem updateTimeMs_le_of_sortKey {left right : PublicLeaderOrder}
    (hle : left.sortKey ≤ right.sortKey) : left.updateTimeMs ≤ right.updateTimeMs := by
  unfold PublicLeaderOrder.sortKey at hle
  rw [Prod.Lex.toLex_le_toLex] at hle
  rcases hle with hlt | ⟨heq, -⟩
  · exact hlt.le
  · exact heq.le

theorem sortedOrders_sortKey (orders : List PublicLeaderOrder) :
    (sortedOrders orders).Pairwise fun left right => left.sortKey ≤ right.sortKey := by
  have : Std.Total fun left right : PublicLeaderOrder => left.sortKey ≤ right.sortKey :=
    ⟨fun left right => le_total left.sortKey right.sortKey⟩
  have : IsTrans PublicLeaderOrder fun left right => left.sortKey ≤ right.sortKey :=
    ⟨fun _ _ _ => le_trans⟩
  exact List.pairwise_insertionSort _ orders

theorem sortedOrders_sorted (orders : List PublicLeaderOrder) :
    (sortedOrders orders).Pairwise fun left right => left.updateTimeMs ≤ right.updateTimeMs :=
  (sortedOrders_sortKey orders).imp updateTimeMs_le_of_sortKey

theorem resolveOneWayOrders_spec {priors views : List PublicLeaderOrder}
    {closed : List ClosedLeaderPosition} (hb : ∀ ord ∈ orders, ord.positionSide = .both)
    (hraw : (orders.map (·.rawKey)).Nodup) (hp : (priors.map (·.identityKey)).Nodup)
    (hr : resolveOneWayOrders orders priors closed = .ok views) :
    ∃ attributed : RawOrderKey → BySide,
      (∀ prior ∈ priors, ∀ side : PositionSide, prior.positionSide = side.source →
        prior.executedQuantity ≤ attributed prior.rawKey side) ∧
      (∀ key side, attributed key side = 0 ∨ ∃ prior ∈ priors, prior.rawKey = key ∧
        prior.positionSide = side.source ∧ attributed key side = prior.executedQuantity) ∧
      (views.map (·.identityKey)).Nodup ∧
      (∀ view ∈ views, ∃ ord ∈ orders, view.rawKey = ord.rawKey) ∧
      ∀ ord ∈ orders, ∃ quantities, Attribution ord (attributed ord.rawKey) quantities views ∧
        quantities.total = max ord.executedQuantity (attributed ord.rawKey).total := by
  unfold resolveOneWayOrders at hr
  split at hr
  · cases hr
  split at hr
  · cases hr
  rw [bind_eq_ok_iff] at hr
  obtain ⟨st, hrun, hvi⟩ := hr
  cases hvi
  set ledger := (sortedOrders (latestByIdentity priors)).foldl replayPrior
    ⟨fun _ => 0, fun _ _ => 0, []⟩ with hl
  obtain ⟨views, hre, hn, hv, ha⟩ := resolveOrders_spec
    (fun ord hm => hb ord (mem_sortedOrders.mp hm))
    (((sortedOrders_perm orders).map _).nodup_iff.mpr hraw) hrun
  have he : ledger.resolved = [] := replayPriors_resolved
  rw [he, List.nil_append] at hre
  subst hre
  refine ⟨ledger.cumulative, ?_, ?_, hn, ?_, ?_⟩
  · intro prior hm side hs
    exact replayPriors_ge_of_mem (mem_sortedOrders.mpr ((mem_latestByIdentity hp).mpr hm)) hs
  · intro key side
    rcases replayPriors_eq key side with hz | ⟨prior, hm, hf⟩
    · exact Or.inl hz
    · exact Or.inr ⟨prior, (mem_latestByIdentity hp).mp (mem_sortedOrders.mp hm), hf⟩
  · intro view hm
    obtain ⟨ord, ho, hk⟩ := hv view hm
    exact ⟨ord, mem_sortedOrders.mp ho, hk⟩
  · intro ord hm
    exact ha ord (mem_sortedOrders.mpr hm)

end Latest

def priorLedger [HexOrder] (priorOrders : List PublicLeaderOrder) : ResolverState :=
  (sortedOrders (latestByIdentity priorOrders)).foldl replayPrior ⟨fun _ => 0, fun _ _ => 0, []⟩

def ResolverState.Nonneg (state : ResolverState) : Prop :=
  ∀ key side, 0 ≤ state.cumulative key side

section Growth

variable {closed : List ClosedLeaderPosition} {ord : PublicLeaderOrder}
  {pre post : ResolverState}

theorem resolveOrder_le (hr : resolveOrder closed pre ord = .ok post)
    (key : RawOrderKey) (side : PositionSide) :
    pre.cumulative key side ≤ post.cumulative key side := by
  by_cases hb : ord.positionSide = .both
  · rcases resolveOrder_cases hb hr with ⟨-, rfl⟩ | ⟨allocs, views, -, -, hs, he⟩
    · exact le_rfl
    · exact he.le hs.positive key side
  · rw [resolveOrder_explicit hb] at hr
    cases hr
    exact le_rfl

theorem resolveOrder_nonneg (hn : pre.Nonneg)
    (hr : resolveOrder closed pre ord = .ok post) : post.Nonneg :=
  fun key side => (hn key side).trans (resolveOrder_le hr key side)

variable {orders : List PublicLeaderOrder}

theorem resolveOrders_nonneg (hn : pre.Nonneg)
    (hrun : orders.foldlM (resolveOrder closed) pre = .ok post) : post.Nonneg := by
  refine foldlM_invariant ResolverState.Nonneg ?_ hn hrun
  intro ord _ reached next hr hre
  exact resolveOrder_nonneg hr hre

theorem resolveOrders_le
    (hrun : orders.foldlM (resolveOrder closed) pre = .ok post) (key : RawOrderKey)
    (side : PositionSide) : pre.cumulative key side ≤ post.cumulative key side := by
  refine foldlM_invariant (fun reached : ResolverState =>
    pre.cumulative key side ≤ reached.cumulative key side) ?_ le_rfl hrun
  intro ord _ reached next hre hr
  exact hre.trans (resolveOrder_le hr key side)

theorem executed_le_total_of_mem (hm : ord ∈ orders) (hb : ord.positionSide = .both)
    (hrun : orders.foldlM (resolveOrder closed) pre = .ok post) :
    ord.executedQuantity ≤ (post.cumulative ord.rawKey).total := by
  obtain ⟨earlier, later, rfl⟩ := List.append_of_mem hm
  rw [List.foldlM_append, bind_eq_ok_iff] at hrun
  obtain ⟨reached, -, hre⟩ := hrun
  rw [foldlM_cons_eq_ok_iff] at hre
  obtain ⟨next, hr, hl⟩ := hre
  obtain ⟨-, -, ht⟩ := resolveOrder_spec hb hr
  calc ord.executedQuantity
      ≤ (next.cumulative ord.rawKey).total := by
        rw [ht]
        exact le_max_left _ _
    _ ≤ (post.cumulative ord.rawKey).total :=
        add_le_add (resolveOrders_le hl _ _) (resolveOrders_le hl _ _)

theorem nonneg_replayPriors {st : ResolverState}
    (hn : st.Nonneg) : (orders.foldl replayPrior st).Nonneg :=
  fun key side => (hn key side).trans (replayPriors_le key side)

theorem priorLedger_eq [HexOrder] {priors : List PublicLeaderOrder} (key : RawOrderKey)
    (side : PositionSide) : (priorLedger priors).cumulative key side = 0 ∨
      ∃ prior ∈ latestByIdentity priors, prior.rawKey = key ∧
        prior.positionSide = side.source ∧
        (priorLedger priors).cumulative key side = prior.executedQuantity := by
  rcases @replayPriors_eq (sortedOrders (latestByIdentity priors))
    ⟨fun _ => 0, fun _ _ => 0, []⟩ key side with hz | ⟨prior, hm, hf⟩
  · exact Or.inl hz
  · exact Or.inr ⟨prior, mem_sortedOrders.mp hm, hf⟩

theorem nonneg_priorLedger [HexOrder] (priors : List PublicLeaderOrder) :
    (priorLedger priors).Nonneg :=
  nonneg_replayPriors fun _ _ => le_rfl

theorem resolveOrders_frame {key : RawOrderKey}
    (ho : ∀ ord ∈ orders, ord.positionSide = .both → ord.rawKey ≠ key)
    (hrun : orders.foldlM (resolveOrder closed) pre = .ok post) :
    post.cumulative key = pre.cumulative key := by
  refine foldlM_invariant (fun reached : ResolverState =>
    reached.cumulative key = pre.cumulative key) ?_ rfl hrun
  intro ord hm reached next hre hr
  by_cases hb : ord.positionSide = .both
  · rcases resolveOrder_cases hb hr with ⟨-, rfl⟩ | ⟨allocs, views, -, -, -, he⟩
    · exact hre
    · rw [he.frame key (ho ord hm hb).symm, hre]
  · rw [resolveOrder_explicit hb] at hr
    cases hr
    exact hre

theorem emitAllocations_isOk {count : ℕ} {allocs : List (PositionSide × Decimal)}
    (hb : ord.positionSide = .both) (hn : pre.Nonneg) (hp : ∀ alloc ∈ allocs, 0 < alloc.2) :
    ∃ reached, allocs.foldlM (emitAllocation ord count) pre = .ok reached := by
  induction allocs generalizing pre with
  | nil => exact ⟨pre, rfl⟩
  | cons alloc rest ih =>
    obtain ⟨side, qty⟩ := alloc
    have hq : 0 < qty := hp _ List.mem_cons_self
    have ht : 0 < pre.cumulative ord.rawKey side + qty :=
      add_pos_of_nonneg_of_pos (hn ord.rawKey side) hq
    have hf : ∃ mid, emitAllocation ord count pre (side, qty) = .ok mid := by
      simp only [emitAllocation, if_neg (not_le.mpr hq), PublicLeaderOrder.resolvePositionSide,
        ne_eq, hb, not_true_eq_false, if_false, dif_neg (not_le.mpr ht)]
      exact ⟨_, rfl⟩
    obtain ⟨mid, hmi⟩ := hf
    have hm : mid.Nonneg := by
      obtain ⟨-, -, -, hc⟩ := emitAllocation_spec hq hmi
      intro key other
      rw [hc]
      by_cases hk : key = ord.rawKey
      · subst hk
        rw [Function.update_self]
        by_cases hs : other = side
        · rw [hs, Function.update_self]
          exact ht.le
        · rw [Function.update_of_ne hs]
          exact hn _ _
      · rw [Function.update_of_ne hk]
        exact hn _ _
    obtain ⟨reached, hr⟩ := ih hm (fun alloc hmem => hp alloc (List.mem_cons_of_mem _ hmem))
    exact ⟨reached, foldlM_cons_eq_ok_iff.mpr ⟨mid, hmi, hr⟩⟩

theorem resolveOrder_isOk {allocs : List (PositionSide × Decimal)} (hb : ord.positionSide = .both)
    (hn : pre.Nonneg) (hlt : (pre.cumulative ord.rawKey).total < ord.executedQuantity)
    (ha : allocationsOf closed pre ord = .ok allocs) :
    ∃ reached, resolveOrder closed pre ord = .ok reached := by
  have hs := isSplit_of_allocationsOf hlt ha
  have he : ∃ reached, allocs.foldlM (emitAllocation ord allocs.length) pre =
      .ok reached := emitAllocations_isOk hb hn hs.positive
  obtain ⟨reached, hr⟩ := he
  refine ⟨reached, ?_⟩
  rw [resolveOrder_of_lt hb hlt, bind_eq_ok_iff]
  exact ⟨allocs, ha, hr⟩

end Growth

section Run

variable [HexOrder] {orders priors resolved : List PublicLeaderOrder}
  {closed : List ClosedLeaderPosition}

theorem resolveOneWayOrders_run (hr : resolveOneWayOrders orders priors closed = .ok resolved) :
    ((priors ++ orders).map (·.leadPortfolioId)).dedup.length ≤ 1 ∧
      (∀ prior ∈ priors, prior.positionSide ≠ .both) ∧
      ∃ st, (sortedOrders orders).foldlM (resolveOrder closed)
        (priorLedger priors) = .ok st ∧ resolved = st.resolved := by
  unfold resolveOneWayOrders at hr
  split at hr
  · cases hr
  rename_i hleader
  split at hr
  · cases hr
  rename_i hprior
  rw [bind_eq_ok_iff] at hr
  obtain ⟨st, hrun, hs⟩ := hr
  cases hs
  refine ⟨not_lt.mp hleader, ?_, st, hrun, rfl⟩
  intro prior hm hb
  exact hprior (List.any_eq_true.mpr ⟨prior, hm, decide_eq_true hb⟩)

omit [HexOrder] in
theorem leaders_length_le_one {lead : String} (hl : ∀ ord ∈ orders, ord.leadPortfolioId = lead) :
    (orders.map (·.leadPortfolioId)).dedup.length ≤ 1 := by
  have hs : (orders.map (·.leadPortfolioId)).dedup ⊆ [lead] := by
    intro leader hm
    rw [List.mem_dedup] at hm
    obtain ⟨ord, ho, rfl⟩ := List.mem_map.mp hm
    exact List.mem_singleton.mpr (hl ord ho)
  exact (List.subperm_of_subset (List.nodup_dedup _) hs).length_le

theorem resolveOneWayOrders_eq {lead : String}
    (hl : ∀ ord ∈ priors ++ orders, ord.leadPortfolioId = lead)
    (hp : ∀ prior ∈ priors, prior.positionSide ≠ .both) : resolveOneWayOrders orders priors closed =
      ((sortedOrders orders).foldlM (resolveOrder closed) (priorLedger priors)).map
        (·.resolved) := by
  have hn : ¬ priors.any (·.positionSide = .both) = true := by
    intro ha
    obtain ⟨prior, hm, hb⟩ := List.any_eq_true.mp ha
    exact hp prior hm (of_decide_eq_true hb)
  unfold resolveOneWayOrders
  rw [if_neg (not_lt.mpr (leaders_length_le_one hl)), if_neg hn]
  unfold priorLedger
  dsimp only
  cases (sortedOrders orders).foldlM (resolveOrder closed)
    ((sortedOrders (latestByIdentity priors)).foldl replayPrior ⟨fun _ => 0, fun _ _ => 0, []⟩) with
  | error code => rfl
  | ok st => rfl

end Run

def oneWayDocument (side : OrderSide) (executedQty avgPrice : Decimal)
    (orderTime orderUpdateTime : ℤ) : ApiOrder where
  symbol := "BTCUSDT"
  positionSide := .both
  side := side
  orderType := "LIMIT"
  executedQty := executedQty
  avgPrice := avgPrice
  totalPnl := 0
  orderTime := orderTime
  orderUpdateTime := orderUpdateTime
  extra := ""

end AiQuant.CopyTrading
