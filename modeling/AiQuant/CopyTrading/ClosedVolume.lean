import AiQuant.CopyTrading.BinancePublic

/-! The closed volume of a public interval as a budget: what the rows of a response, and
the stored rows, take of it. -/
namespace AiQuant.CopyTrading
open AiQuant.Lib

/-- `interval` decides the side of the order, and the order does not enlarge it. -/
def reducesInterval (closed : List ClosedLeaderPosition) (interval : ClosedLeaderPosition)
    (order : PublicLeaderOrder) : Bool :=
  decide (closed.filter (·.covers order) = [interval]) &&
    !increases interval.positionSide.source order.orderSide

/-- A `BOTH` row of a response that reduces the interval. -/
def reducingRow (closed : List ClosedLeaderPosition) (interval : ClosedLeaderPosition)
    (order : PublicLeaderOrder) : Bool :=
  decide (order.positionSide = .both) && reducesInterval closed interval order

def reducingRowOf (closed : List ClosedLeaderPosition) (interval : ClosedLeaderPosition)
    (key : RawOrderKey) (order : PublicLeaderOrder) : Bool :=
  reducingRow closed interval order && decide (order.rawKey = key)

def storedReduction (closed : List ClosedLeaderPosition) (interval : ClosedLeaderPosition)
    (prior : PublicLeaderOrder) : Bool :=
  decide (prior.positionSide = interval.positionSide.source) &&
    reducesInterval closed interval prior

def allocatedTo (closed : List ClosedLeaderPosition) (side : PositionSide)
    (counts : PublicLeaderOrder → Bool) : List PublicLeaderOrder → ResolverState → Decimal
  | [], _ => 0
  | order :: rest, state =>
    match resolveOrder closed state order with
    | .error _ => 0
    | .ok next =>
      (if counts order then
        next.cumulative order.rawKey side - state.cumulative order.rawKey side else 0) +
        allocatedTo closed side counts rest next

/-- What the counted rows report beyond the quantity `reported` of their raw orders. -/
def newlyReported (counts : PublicLeaderOrder → Bool) :
    List PublicLeaderOrder → (RawOrderKey → Decimal) → Decimal
  | [], _ => 0
  | order :: rest, reported =>
    (if counts order then max 0 (order.executedQuantity - reported order.rawKey) else 0) +
      newlyReported counts rest
        (if order.positionSide = .both then
          Function.update reported order.rawKey
            (max order.executedQuantity (reported order.rawKey))
        else reported)

section Budget

variable [HexOrder] (orders priors : List PublicLeaderOrder)
  (closed : List ClosedLeaderPosition) (interval : ClosedLeaderPosition)

def storedReductions : Decimal :=
  (((latestByIdentity priors).filter (storedReduction closed interval)).map
    (·.executedQuantity)).sum

def storedQuantity (key : RawOrderKey) : Decimal :=
  ((priorLedger priors).cumulative key).total

def allocatedReductions : Decimal :=
  allocatedTo closed interval.positionSide (reducingRow closed interval)
    (sortedOrders orders) (priorLedger priors)

def reportedReductions : Decimal :=
  newlyReported (reducingRow closed interval) (sortedOrders orders)
    (storedQuantity priors)

/-- The reductions stay within the closed volume, and what a row reports beyond its
reduction opens the opposite side. -/
structure WithinClosedVolume (resolved : List PublicLeaderOrder) : Prop where
  total : allocatedReductions orders priors closed interval +
    storedReductions priors closed interval ≤ interval.closedQuantity
  remainder : ∀ earlier order later before after,
    sortedOrders orders = earlier ++ order :: later →
    earlier.foldlM (resolveOrder closed) (priorLedger priors) = .ok before →
    resolveOrder closed before order = .ok after →
    reducingRow closed interval order = true →
    ∀ remainder, remainder = order.executedQuantity - (before.cumulative order.rawKey).total -
      (after.cumulative order.rawKey interval.positionSide -
        before.cumulative order.rawKey interval.positionSide) → 0 < remainder →
      ∃ view ∈ resolved, IsView order (openingSide order.orderSide)
        (before.cumulative order.rawKey (openingSide order.orderSide) + remainder) view

/-- All the reductions fit together, or they are reductions of one raw order only: then
the quantity attributed to that raw order is the quantity taken of the interval. -/
def FitsClosedVolume : Prop :=
  storedReductions priors closed interval ≤ interval.closedQuantity ∧
  (interval.closedQuantity = 0 ∨
    reportedReductions orders priors closed interval +
      storedReductions priors closed interval ≤ interval.closedQuantity ∨
    ∃ key : RawOrderKey,
      (∀ order ∈ orders, reducingRow closed interval order = true →
        storedQuantity priors order.rawKey < order.executedQuantity → order.rawKey = key) ∧
      (storedReductions priors closed interval = 0 ∨
        ∃ prior ∈ latestByIdentity priors, prior.rawKey = key ∧
          prior.positionSide = interval.positionSide.source ∧
          storedReductions priors closed interval ≤ prior.executedQuantity))

/-- A raw order that reduces the interval does so with all its rows. -/
structure WhollyWithin : Prop where
  rows : ∀ order ∈ orders, reducingRow closed interval order = true →
    ∀ other ∈ orders, other.positionSide = .both → other.rawKey = order.rawKey →
      reducingRow closed interval other = true
  stored : ∀ order ∈ orders, reducingRow closed interval order = true →
    ∀ prior ∈ latestByIdentity priors, prior.rawKey = order.rawKey →
      prior.positionSide = interval.positionSide.source →
      storedReduction closed interval prior = true

end Budget

section Row

variable {closed : List ClosedLeaderPosition} {interval : ClosedLeaderPosition}
  {order : PublicLeaderOrder} {pre post : ResolverState}

theorem reducingRow_iff : reducingRow closed interval order = true ↔
    order.positionSide = .both ∧ closedInterval order closed = .ok (some interval) ∧
      ¬ increases interval.positionSide.source order.orderSide = true := by
  rw [closedInterval_eq_some_iff]
  simp [reducingRow, reducesInterval]

theorem reducingRowOf_iff {key : RawOrderKey} : reducingRowOf closed interval key order = true ↔
      reducingRow closed interval order = true ∧ order.rawKey = key := by
  simp [reducingRowOf]

theorem allocateWithClosedInterval_eq {delta : Decimal} {previousBySide : BySide}
    {allocs : List (PositionSide × Decimal)} {reduction : Decimal}
    (hre : ¬ increases interval.positionSide.source order.orderSide = true)
    (hc : interval.closedAtMs ≠ none) (hr : reduction =
      min delta (max 0 (interval.closedQuantity - previousBySide interval.positionSide)))
    (ha : allocateWithClosedInterval order delta interval previousBySide = .ok allocs) :
    allocs = (if 0 < reduction then [(interval.positionSide, reduction)] else []) ++
      (if 0 < delta - reduction then [(openingSide order.orderSide, delta - reduction)]
        else []) := by
  subst hr
  simp only [allocateWithClosedInterval, if_neg hre, if_neg hc] at ha
  rcases ite_eq_iff.mp ha with ⟨-, he⟩ | ⟨-, hp⟩
  · cases he
  · cases hp
    rfl

theorem resolveOrder_reducing (hreducing : reducingRow closed interval order = true)
    (hc : interval.closedAtMs ≠ none)
    (hlt : (pre.cumulative order.rawKey).total < order.executedQuantity)
    (hres : resolveOrder closed pre order = .ok post) {reduction : Decimal}
    (hr : reduction = min (order.executedQuantity - (pre.cumulative order.rawKey).total)
      (max 0 (interval.closedQuantity - pre.cumulative order.rawKey interval.positionSide))) :
    post.cumulative order.rawKey interval.positionSide =
      pre.cumulative order.rawKey interval.positionSide + reduction ∧
    (0 < order.executedQuantity - (pre.cumulative order.rawKey).total - reduction →
      ∃ view ∈ post.resolved, IsView order (openingSide order.orderSide)
        (pre.cumulative order.rawKey (openingSide order.orderSide) +
          (order.executedQuantity - (pre.cumulative order.rawKey).total - reduction)) view) := by
  obtain ⟨hb, hin, hred⟩ := reducingRow_iff.mp hreducing
  rcases resolveOrder_cases hb hres with ⟨hle, -⟩ | ⟨allocs, views, -, ha, -, he⟩
  · exact absurd hlt (not_lt.mpr hle)
  have hpa : allocateWithClosedInterval order
      (order.executedQuantity - (pre.cumulative order.rawKey).total) interval
      (pre.cumulative order.rawKey) = .ok allocs := by
    unfold allocationsOf at ha
    rw [hin] at ha
    exact ha
  have heq := allocateWithClosedInterval_eq hred hc hr hpa
  have hne := ne_openingSide_of_not_increases hred
  constructor
  · by_cases hp : 0 < reduction
    · refine he.attributed (interval.positionSide, reduction) ?_
      rw [heq, if_pos hp]
      simp
    · have hz : reduction = 0 := by
        refine le_antisymm (not_lt.mp hp) ?_
        rw [hr]
        exact le_min (sub_pos.mpr hlt).le (le_max_left _ _)
      rw [hz, add_zero]
      apply he.others
      rw [heq, if_neg hp, List.nil_append]
      split <;> simp [hne]
  · intro hre
    have hmem : (openingSide order.orderSide,
        order.executedQuantity - (pre.cumulative order.rawKey).total - reduction) ∈
        allocs := by
      rw [heq, if_pos hre]
      simp
    have hat := he.attributed _ hmem
    obtain ⟨emitted, hs, -⟩ := resolveOrder_spec hb hres
    obtain ⟨view, hv, hi⟩ := hs.attribution.view (openingSide order.orderSide) (by
      rw [hat]
      exact lt_add_of_pos_right _ hre)
    rw [hat] at hi
    exact ⟨view, by simp [hs.resolved, hv], hi⟩

theorem cumulative_of_reducing (hreducing : reducingRow closed interval order = true)
    (hc : interval.closedAtMs ≠ none) (hr : resolveOrder closed pre order = .ok post) :
    post.cumulative order.rawKey interval.positionSide =
      pre.cumulative order.rawKey interval.positionSide +
        min (max 0 (order.executedQuantity - (pre.cumulative order.rawKey).total)) (max 0
            (interval.closedQuantity - pre.cumulative order.rawKey interval.positionSide)) := by
  rcases lt_or_ge (pre.cumulative order.rawKey).total order.executedQuantity with hlt | hle
  · rw [max_eq_right (sub_pos.mpr hlt).le]
    exact (resolveOrder_reducing hreducing hc hlt hr rfl).1
  · have hb := (reducingRow_iff.mp hreducing).1
    rw [resolveOrder_of_le hb hle] at hr
    cases hr
    rw [max_eq_left (sub_nonpos.mpr hle), min_eq_left (le_max_left _ _), add_zero]

theorem total_of_resolveOrder (hb : order.positionSide = .both)
    (hr : resolveOrder closed pre order = .ok post) : (post.cumulative order.rawKey).total =
      max order.executedQuantity (pre.cumulative order.rawKey).total := by
  obtain ⟨-, -, ht⟩ := resolveOrder_spec hb hr
  exact ht

theorem resolveOrder_frame {key : RawOrderKey}
    (ho : order.positionSide = .both → order.rawKey ≠ key)
    (hr : resolveOrder closed pre order = .ok post) : post.cumulative key = pre.cumulative key := by
  have hrun : [order].foldlM (resolveOrder closed) pre = .ok post :=
    foldlM_cons_eq_ok_iff.mpr ⟨post, hr, rfl⟩
  refine resolveOrders_frame ?_ hrun
  intro row hrow hb
  rw [List.mem_singleton] at hrow
  subst hrow
  exact ho hb

theorem reported_of_resolveOrder {reported : RawOrderKey → Decimal}
    (hr : ∀ key, reported key = (pre.cumulative key).total)
    (hre : resolveOrder closed pre order = .ok post) (key : RawOrderKey) :
    (if order.positionSide = .both then
        Function.update reported order.rawKey (max order.executedQuantity (reported order.rawKey))
      else reported) key = (post.cumulative key).total := by
  by_cases hb : order.positionSide = .both
  · rw [if_pos hb]
    by_cases hk : key = order.rawKey
    · subst hk
      rw [Function.update_self, hr, total_of_resolveOrder hb hre]
    · rw [Function.update_of_ne hk, hr, resolveOrder_frame (fun _ => Ne.symm hk) hre]
  · rw [if_neg hb, hr, resolveOrder_frame (fun h => absurd h hb) hre]

end Row

section Rows

variable {closed : List ClosedLeaderPosition} {interval : ClosedLeaderPosition}
  {rows : List PublicLeaderOrder} {pre post : ResolverState}

theorem allocatedTo_cons {side : PositionSide} {counts : PublicLeaderOrder → Bool}
    {order : PublicLeaderOrder} {next : ResolverState}
    (hr : resolveOrder closed pre order = .ok next) :
    allocatedTo closed side counts (order :: rows) pre = (if counts order then
        next.cumulative order.rawKey side - pre.cumulative order.rawKey side else 0) +
        allocatedTo closed side counts rows next := by
  rw [allocatedTo, hr]

theorem allocatedTo_nonneg {side : PositionSide} {counts : PublicLeaderOrder → Bool} :
    0 ≤ allocatedTo closed side counts rows pre := by
  induction rows generalizing pre with
  | nil => exact le_rfl
  | cons order rest ih =>
    rw [allocatedTo]
    split
    · exact le_rfl
    · rename_i next hr
      refine add_nonneg ?_ ih
      split
      · exact sub_nonneg.mpr (resolveOrder_le hr _ _)
      · exact le_rfl

theorem allocatedTo_add_le {side : PositionSide} {first second counts : PublicLeaderOrder → Bool}
    (hf : ∀ order, first order = true → counts order = true)
    (hs : ∀ order, second order = true → counts order = true)
    (hd : ∀ order, first order = true → second order ≠ true) :
    allocatedTo closed side first rows pre + allocatedTo closed side second rows pre ≤
      allocatedTo closed side counts rows pre := by
  induction rows generalizing pre with
  | nil => simp [allocatedTo]
  | cons order rest ih =>
    simp only [allocatedTo]
    cases hre : resolveOrder closed pre order with
    | error code => simp
    | ok next =>
      dsimp only
      have hg := sub_nonneg.mpr (resolveOrder_le hre order.rawKey side)
      have hrest := @ih next
      by_cases hl : first order = true
      · rw [if_pos hl, if_neg (hd order hl), if_pos (hf order hl)]
        linarith
      · rw [if_neg hl]
        by_cases hr : second order = true
        · rw [if_pos hr, if_pos (hs order hr)]
          linarith
        · rw [if_neg hr]
          split <;> linarith

theorem allocatedTo_of_closedQuantity_nonpos (hc : interval.closedAtMs ≠ none)
    (hz : interval.closedQuantity ≤ 0) (hn : pre.Nonneg)
    (hrun : rows.foldlM (resolveOrder closed) pre = .ok post) :
    allocatedTo closed interval.positionSide (reducingRow closed interval) rows pre = 0 := by
  induction rows generalizing pre with
  | nil => rfl
  | cons order rest ih =>
    rw [foldlM_cons_eq_ok_iff] at hrun
    obtain ⟨next, hr, hre⟩ := hrun
    rw [allocatedTo_cons hr, ih (resolveOrder_nonneg hn hr) hre, add_zero]
    split
    · rename_i hreducing
      have hl : interval.closedQuantity - pre.cumulative order.rawKey interval.positionSide ≤ 0 :=
        sub_nonpos.mpr (hz.trans (hn _ _))
      rw [cumulative_of_reducing hreducing hc hr, max_eq_left hl,
        min_eq_right (le_max_left _ _), add_zero, sub_self]
    · rfl

theorem allocatedTo_le_newlyReported (hc : interval.closedAtMs ≠ none)
    {reported : RawOrderKey → Decimal} (hre : ∀ key, reported key = (pre.cumulative key).total)
    (hrun : rows.foldlM (resolveOrder closed) pre = .ok post) :
    allocatedTo closed interval.positionSide (reducingRow closed interval)
      rows pre ≤ newlyReported (reducingRow closed interval) rows reported := by
  induction rows generalizing pre reported with
  | nil => exact le_rfl
  | cons order rest ih =>
    rw [foldlM_cons_eq_ok_iff] at hrun
    obtain ⟨next, hr, hrest⟩ := hrun
    rw [allocatedTo_cons hr, newlyReported]
    refine add_le_add ?_ (ih (reported_of_resolveOrder hre hr) hrest)
    split
    · rename_i hreducing
      rw [cumulative_of_reducing hreducing hc hr, add_sub_cancel_left, hre]
      exact min_le_left _ _
    · exact le_rfl

theorem exists_exhausted (hcl : interval.closedAtMs ≠ none)
    {reported : RawOrderKey → Decimal} (hre : ∀ key, reported key = (pre.cumulative key).total)
    (hrun : rows.foldlM (resolveOrder closed) pre = .ok post)
    (hl : allocatedTo closed interval.positionSide (reducingRow closed interval) rows pre <
      newlyReported (reducingRow closed interval) rows reported) :
    ∃ order ∈ rows, reducingRow closed interval order = true ∧
      interval.closedQuantity ≤ post.cumulative order.rawKey interval.positionSide := by
  induction rows generalizing pre reported with
  | nil => exact absurd hl (lt_irrefl _)
  | cons order rest ih =>
    rw [foldlM_cons_eq_ok_iff] at hrun
    obtain ⟨next, hr, hrest⟩ := hrun
    have hn := reported_of_resolveOrder hre hr
    by_cases he : reducingRow closed interval order = true ∧
        interval.closedQuantity ≤ next.cumulative order.rawKey interval.positionSide
    · exact ⟨order, List.mem_cons_self, he.1, he.2.trans (resolveOrders_le hrest _ _)⟩
    · rw [allocatedTo_cons hr, newlyReported] at hl
      have hfi : (if reducingRow closed interval order then
            max 0 (order.executedQuantity - reported order.rawKey) else 0) =
          (if reducingRow closed interval order then
            next.cumulative order.rawKey interval.positionSide -
              pre.cumulative order.rawKey interval.positionSide else 0) := by
        split
        · rename_i hreducing
          have hc := cumulative_of_reducing hreducing hcl hr
          rw [hc, add_sub_cancel_left, hre]
          -- the volume left to the raw order was the larger of the two
          refine (min_eq_left ?_).symm
          by_contra hmore
          apply he
          refine ⟨hreducing, ?_⟩
          rw [hc, min_eq_right (not_le.mp hmore).le]
          exact sub_le_iff_le_add'.mp (le_max_right _ _)
        · rfl
      rw [hfi] at hl
      obtain ⟨found, hmem, hf⟩ := ih hn hrest (lt_of_add_lt_add_left hl)
      exact ⟨found, List.mem_cons_of_mem _ hmem, hf⟩

theorem allocatedTo_of_one_key (hcl : interval.closedAtMs ≠ none) (key : RawOrderKey)
    (hk : ∀ order ∈ rows, reducingRow closed interval order = true →
      order.rawKey = key ∨ order.executedQuantity ≤ (pre.cumulative order.rawKey).total)
    (hrun : rows.foldlM (resolveOrder closed) pre = .ok post) :
    allocatedTo closed interval.positionSide (reducingRow closed interval) rows pre = 0 ∨
      allocatedTo closed interval.positionSide (reducingRow closed interval)
        rows pre + pre.cumulative key interval.positionSide ≤ interval.closedQuantity := by
  induction rows generalizing pre with
  | nil => exact Or.inl rfl
  | cons order rest ih =>
    rw [foldlM_cons_eq_ok_iff] at hrun
    obtain ⟨next, hr, hre⟩ := hrun
    have hle := resolveOrder_le hr
    have ht := ih (fun row hrow hreducing =>
      (hk row (List.mem_cons_of_mem _ hrow) hreducing).imp_right
        (fun hs => hs.trans (add_le_add (hle _ _) (hle _ _)))) hre
    rw [allocatedTo_cons hr]
    by_cases hco : reducingRow closed interval order = true ∧ order.rawKey = key
    · obtain ⟨hreducing, rfl⟩ := hco
      have hc := cumulative_of_reducing hreducing hcl hr
      rw [if_pos hreducing]
      rcases ht with hz | hw
      · rw [hz, add_zero, sub_eq_zero, sub_add_cancel]
        rcases le_or_gt (interval.closedQuantity -
          pre.cumulative order.rawKey interval.positionSide) 0 with hno | hso
        · left
          rw [hc, max_eq_left hno, min_eq_right (le_max_left _ _), add_zero]
        · right
          rw [hc, max_eq_right hso.le]
          linarith [min_le_right (max 0 (order.executedQuantity -
            (pre.cumulative order.rawKey).total)) (interval.closedQuantity -
              pre.cumulative order.rawKey interval.positionSide)]
      · right
        linarith
    · have hn : (if reducingRow closed interval order then
          next.cumulative order.rawKey interval.positionSide -
            pre.cumulative order.rawKey interval.positionSide else 0) = 0 := by
        split
        · rename_i hreducing
          have hs := (hk order List.mem_cons_self hreducing).resolve_left
            (fun hsa => hco ⟨hreducing, hsa⟩)
          rw [resolveOrder_of_le (reducingRow_iff.mp hreducing).1 hs] at hr
          cases hr
          exact sub_self _
        · rfl
      rw [hn, zero_add]
      refine ht.imp_right (le_trans ?_)
      exact add_le_add_right (hle key interval.positionSide) _

theorem allocatedTo_reducingRowOf {key : RawOrderKey}
    (hwholly : ∀ order ∈ rows, order.positionSide = .both → order.rawKey = key →
      reducingRow closed interval order = true)
    (hrun : rows.foldlM (resolveOrder closed) pre = .ok post) :
    allocatedTo closed interval.positionSide (reducingRowOf closed interval key) rows pre =
      post.cumulative key interval.positionSide - pre.cumulative key interval.positionSide := by
  induction rows generalizing pre with
  | nil =>
    rw [foldlM_nil_eq_ok_iff] at hrun
    subst hrun
    exact (sub_self _).symm
  | cons order rest ih =>
    rw [foldlM_cons_eq_ok_iff] at hrun
    obtain ⟨next, hr, hre⟩ := hrun
    rw [allocatedTo_cons hr, ih (fun row hrow => hwholly row (List.mem_cons_of_mem _ hrow)) hre]
    by_cases hc : reducingRowOf closed interval key order = true
    · rw [if_pos hc, (reducingRowOf_iff.mp hc).2]
      ring
    · have hs : next.cumulative key = pre.cumulative key := by
        refine resolveOrder_frame ?_ hr
        intro hb he
        exact hc (reducingRowOf_iff.mpr ⟨hwholly order List.mem_cons_self hb he, he⟩)
      rw [if_neg hc, hs, zero_add]

theorem allocatedTo_reducingRowOf_le (key : RawOrderKey) : allocatedTo closed interval.positionSide
        (reducingRowOf closed interval key) rows pre ≤ allocatedTo closed interval.positionSide
        (reducingRow closed interval) rows pre := by
  have ht := @allocatedTo_add_le closed rows pre interval.positionSide
    (reducingRowOf closed interval key) (fun _ => false)
    (reducingRow closed interval) (fun _ hr => (reducingRowOf_iff.mp hr).1)
    (fun _ hr => absurd hr Bool.false_ne_true) (fun _ _ => Bool.false_ne_true)
  exact (le_add_of_nonneg_right allocatedTo_nonneg).trans ht

theorem allocatedTo_reducingRowOf_add_le {key other : RawOrderKey} (hne : other ≠ key) :
    allocatedTo closed interval.positionSide (reducingRowOf closed interval key) rows pre +
      allocatedTo closed interval.positionSide (reducingRowOf closed interval other) rows pre ≤
      allocatedTo closed interval.positionSide (reducingRow closed interval) rows pre := by
  apply allocatedTo_add_le
  · exact fun _ hr => (reducingRowOf_iff.mp hr).1
  · exact fun _ hr => (reducingRowOf_iff.mp hr).1
  · intro order hf hs
    exact hne ((reducingRowOf_iff.mp hs).2.symm.trans (reducingRowOf_iff.mp hf).2)

theorem cumulative_of_wholly (hc : interval.closedAtMs ≠ none) {key : RawOrderKey}
    (hwholly : ∀ order ∈ rows, order.positionSide = .both → order.rawKey = key →
      reducingRow closed interval order = true)
    (hrun : rows.foldlM (resolveOrder closed) pre = .ok post)
    (hs : post.cumulative key interval.positionSide = pre.cumulative key interval.positionSide)
    (hm : (pre.cumulative key).total < (post.cumulative key).total) :
    interval.closedQuantity ≤ pre.cumulative key interval.positionSide := by
  induction rows generalizing pre with
  | nil =>
    rw [foldlM_nil_eq_ok_iff] at hrun
    subst hrun
    exact absurd hm (lt_irrefl _)
  | cons order rest ih =>
    rw [foldlM_cons_eq_ok_iff] at hrun
    obtain ⟨next, hr, hre⟩ := hrun
    have hn : next.cumulative key interval.positionSide =
        pre.cumulative key interval.positionSide := by
      refine le_antisymm ?_ (resolveOrder_le hr _ _)
      rw [← hs]
      exact resolveOrders_le hre _ _
    have ht := ih (fun row hrow => hwholly row (List.mem_cons_of_mem _ hrow)) hre (hs.trans hn.symm)
    rw [hn] at ht
    by_cases hrow : order.positionSide = .both ∧ order.rawKey = key
    · obtain ⟨hb, rfl⟩ := hrow
      have hcu := cumulative_of_reducing (hwholly order List.mem_cons_self hb rfl) hc hr
      rcases lt_or_ge (pre.cumulative order.rawKey).total order.executedQuantity with hlt | hle
      · -- a positive report and no reduction leave no volume
        by_contra hvolume
        have hp : 0 < min (max 0
            (order.executedQuantity - (pre.cumulative order.rawKey).total)) (max 0
            (interval.closedQuantity - pre.cumulative order.rawKey interval.positionSide)) :=
          lt_min (lt_max_of_lt_right (sub_pos.mpr hlt))
            (lt_max_of_lt_right (sub_pos.mpr (not_le.mp hvolume)))
        linarith
      · apply ht
        rw [total_of_resolveOrder hb hr, max_eq_right hle]
        exact hm
    · apply ht
      rw [resolveOrder_frame (fun hb he => hrow ⟨hb, he⟩) hr]
      exact hm

theorem resolveOrders_resolved_subset (hrun : rows.foldlM (resolveOrder closed) pre = .ok post) :
    pre.resolved ⊆ post.resolved := by
  refine foldlM_invariant (fun reached : ResolverState => pre.resolved ⊆ reached.resolved) ?_
    (List.Subset.refl _) hrun
  intro order _ reached next hre hr
  by_cases hb : order.positionSide = .both
  · obtain ⟨views, hs, -⟩ := resolveOrder_spec hb hr
    rw [hs.resolved]
    exact List.subset_append_of_subset_left _ hre
  · rw [resolveOrder_explicit hb] at hr
    cases hr
    exact List.subset_append_of_subset_left _ hre

end Rows

section Stored

variable [HexOrder] {orders priors : List PublicLeaderOrder}
  {closed : List ClosedLeaderPosition} {interval : ClosedLeaderPosition}

omit [HexOrder] in
theorem executed_add_le_sum {rows : List PublicLeaderOrder} {first second : PublicLeaderOrder}
    (hf : first ∈ rows) (hs : second ∈ rows) (hne : second ≠ first) :
    first.executedQuantity + second.executedQuantity ≤ (rows.map (·.executedQuantity)).sum := by
  obtain ⟨earlier, later, rfl⟩ := List.append_of_mem hf
  have hr : second ∈ earlier ++ later := by
    simpa [hne] using hs
  have hle : second.executedQuantity ≤ ((earlier ++ later).map (·.executedQuantity)).sum := by
    refine List.single_le_sum ?_ _ (List.mem_map.mpr ⟨second, hr, rfl⟩)
    intro qty hq
    obtain ⟨row, -, rfl⟩ := List.mem_map.mp hq
    exact row.executedQuantity_pos.le
  simp only [List.map_append, List.sum_append, List.map_cons, List.sum_cons] at hle ⊢
  linarith

theorem storedReductions_nonneg : 0 ≤ storedReductions priors closed interval := by
  apply List.sum_nonneg
  intro qty hq
  obtain ⟨row, -, rfl⟩ := List.mem_map.mp hq
  exact row.executedQuantity_pos.le

theorem executed_le_priorLedger {prior : PublicLeaderOrder} {side : PositionSide}
    (hmem : prior ∈ latestByIdentity priors) (hs : prior.positionSide = side.source) :
    prior.executedQuantity ≤ (priorLedger priors).cumulative prior.rawKey side :=
  replayPriors_ge_of_mem (mem_sortedOrders.mpr hmem) hs

variable (hwholly : WhollyWithin orders priors closed interval)
  {order other : PublicLeaderOrder} (hmem : order ∈ orders)
  (hreducing : reducingRow closed interval order = true)

include hwholly hmem hreducing

theorem WhollyWithin.priorLedger_eq : (priorLedger priors).cumulative order.rawKey
      interval.positionSide = 0 ∨
    ∃ prior ∈ (latestByIdentity priors).filter (storedReduction closed interval),
      prior.rawKey = order.rawKey ∧
      (priorLedger priors).cumulative order.rawKey interval.positionSide =
        prior.executedQuantity := by
  refine (CopyTrading.priorLedger_eq order.rawKey interval.positionSide).imp_right ?_
  rintro ⟨prior, hp, hk, hsi, hq⟩
  have hs := hwholly.stored order hmem hreducing prior hp hk hsi
  exact ⟨prior, List.mem_filter.mpr ⟨hp, hs⟩, hk, hq⟩

theorem WhollyWithin.priorLedger_le : (priorLedger priors).cumulative order.rawKey
    interval.positionSide ≤ storedReductions priors closed interval := by
  rcases hwholly.priorLedger_eq hmem hreducing with hz | ⟨prior, hp, -, hq⟩
  · rw [hz]
    exact storedReductions_nonneg
  · rw [hq]
    refine List.single_le_sum ?_ _ (List.mem_map.mpr ⟨prior, hp, rfl⟩)
    intro qty hmem
    obtain ⟨row, -, rfl⟩ := List.mem_map.mp hmem
    exact row.executedQuantity_pos.le

theorem WhollyWithin.priorLedger_add_le (hot : other ∈ orders)
    (ho : reducingRow closed interval other = true) (hne : other.rawKey ≠ order.rawKey) :
    (priorLedger priors).cumulative order.rawKey interval.positionSide +
        (priorLedger priors).cumulative other.rawKey interval.positionSide ≤
      storedReductions priors closed interval := by
  rcases hwholly.priorLedger_eq hmem hreducing with hz | ⟨prior, hp, hk, hq⟩
  · rw [hz, zero_add]
    exact hwholly.priorLedger_le hot ho
  rcases hwholly.priorLedger_eq hot ho with
    hz | ⟨found, hfou, hfo, hf⟩
  · rw [hz, add_zero]
    exact hwholly.priorLedger_le hmem hreducing
  rw [hq, hf]
  apply executed_add_le_sum hp hfou
  rintro rfl
  exact hne (hfo.symm.trans hk)

end Stored

section Kept

variable [HexOrder] {orders priors resolved : List PublicLeaderOrder}
  {closed : List ClosedLeaderPosition} {interval : ClosedLeaderPosition}
  {state : ResolverState}

theorem allocatedReductions_le_of_fits (hc : interval.closedAtMs ≠ none)
    (hr : (sortedOrders orders).foldlM (resolveOrder closed) (priorLedger priors) = .ok state)
    (hf : FitsClosedVolume orders priors closed interval) :
    allocatedReductions orders priors closed interval +
      storedReductions priors closed interval ≤ interval.closedQuantity := by
  obtain ⟨hs, hz | htogether | ⟨key, hk, hp⟩⟩ := hf
  · have hn : allocatedReductions orders priors closed interval = 0 :=
      allocatedTo_of_closedQuantity_nonpos hc hz.le (nonneg_priorLedger _) hr
    rw [hn, zero_add]
    exact hs
  · refine le_trans (add_le_add_left ?_ _) htogether
    exact allocatedTo_le_newlyReported hc (fun _ => rfl) hr
  · have ho := allocatedTo_of_one_key hc key (fun order hmem hreducing =>
      or_iff_not_imp_right.mpr fun hm =>
        hk order (mem_sortedOrders.mp hmem) hreducing (not_le.mp hm)) hr
    have ha : storedReductions priors closed interval ≤
        (priorLedger priors).cumulative key interval.positionSide := by
      rcases hp with hno | ⟨prior, hmem, rfl, hsi, hle⟩
      · rw [hno]
        exact nonneg_priorLedger _ _ _
      · exact hle.trans (executed_le_priorLedger hmem hsi)
    rcases ho with hn | hw
    · have hn : allocatedReductions orders priors closed interval = 0 :=
        hn
      rw [hn, zero_add]
      exact hs
    · exact (add_le_add_right ha _).trans hw

theorem fits_of_allocatedReductions_le (hcl : interval.closedAtMs ≠ none)
    (hrun : (sortedOrders orders).foldlM (resolveOrder closed) (priorLedger priors) = .ok state)
    (hwholly : WhollyWithin orders priors closed interval)
    (hw : allocatedReductions orders priors closed interval +
      storedReductions priors closed interval ≤ interval.closedQuantity) :
    FitsClosedVolume orders priors closed interval := by
  have hn : 0 ≤ allocatedReductions orders priors closed interval :=
    allocatedTo_nonneg
  have hs : storedReductions priors closed interval ≤
      interval.closedQuantity := by linarith
  refine ⟨hs, ?_⟩
  by_cases hz : interval.closedQuantity = 0
  · exact Or.inl hz
  have hv : 0 < interval.closedQuantity :=
    lt_of_le_of_ne (storedReductions_nonneg.trans hs) (Ne.symm hz)
  right
  by_cases ht : reportedReductions orders priors closed interval +
      storedReductions priors closed interval ≤ interval.closedQuantity
  · exact Or.inl ht
  right
  -- some raw order took all the volume that it could
  obtain ⟨taker, hmem, hta, he⟩ := exists_exhausted hcl (fun _ => rfl) hrun (by
      have hm := hw.trans_lt (not_le.mp ht)
      exact lt_of_add_lt_add_right hm)
  rw [mem_sortedOrders] at hmem
  have hc : ∀ order ∈ orders, reducingRow closed interval order = true →
      allocatedTo closed interval.positionSide
        (reducingRowOf closed interval order.rawKey)
        (sortedOrders orders) (priorLedger priors) =
      state.cumulative order.rawKey interval.positionSide -
        (priorLedger priors).cumulative order.rawKey interval.positionSide := by
    intro order ho hreducing
    refine allocatedTo_reducingRowOf ?_ hrun
    intro row hrow
    exact hwholly.rows order ho hreducing row (mem_sortedOrders.mp hrow)
  have htak := hc taker hmem hta
  have hone : allocatedTo closed interval.positionSide
      (reducingRowOf closed interval taker.rawKey) (sortedOrders orders)
      (priorLedger priors) ≤ allocatedReductions orders priors closed interval :=
    allocatedTo_reducingRowOf_le taker.rawKey
  have hle : storedReductions priors closed interval ≤
      (priorLedger priors).cumulative taker.rawKey interval.positionSide := by linarith
  have hp := hwholly.priorLedger_le hmem hta
  refine ⟨taker.rawKey, ?_, ?_⟩
  · intro order ho hreducing hr
    by_contra hne
    -- nothing is left to the rows of another raw order, so its stored reductions fill the
    -- volume by themselves
    have htwo : _ ≤ allocatedReductions orders priors closed interval :=
      allocatedTo_reducingRowOf_add_le hne
    have hot := hc order ho hreducing
    have hg := resolveOrders_le hrun order.rawKey interval.positionSide
    have hto := executed_le_total_of_mem (mem_sortedOrders.mpr ho)
      (reducingRow_iff.mp hreducing).1 hrun
    have hf := cumulative_of_wholly hcl
      (fun row hrow => hwholly.rows order ho hreducing row (mem_sortedOrders.mp hrow)) hrun
      (by linarith) (hr.trans_le hto)
    have hb := hwholly.priorLedger_add_le hmem hta ho hreducing hne
    linarith
  · rcases priorLedger_eq taker.rawKey interval.positionSide with
      hz | ⟨prior, hp, hk, hsi, hq⟩
    · left
      exact le_antisymm (hle.trans hz.le) storedReductions_nonneg
    · right
      exact ⟨prior, hp, hk, hsi, hle.trans hq.le⟩

theorem remainder_emitted (hcl : interval.closedAtMs ≠ none)
    (hrun : (sortedOrders orders).foldlM (resolveOrder closed)
      (priorLedger priors) = .ok state) {earlier later : List PublicLeaderOrder}
    {order : PublicLeaderOrder} {pre post : ResolverState}
    (hs : sortedOrders orders = earlier ++ order :: later)
    (hea : earlier.foldlM (resolveOrder closed) (priorLedger priors) = .ok pre)
    (hr : resolveOrder closed pre order = .ok post)
    (hreducing : reducingRow closed interval order = true) {remainder : Decimal}
    (hre : remainder = order.executedQuantity - (pre.cumulative order.rawKey).total -
      (post.cumulative order.rawKey interval.positionSide -
        pre.cumulative order.rawKey interval.positionSide)) (hp : 0 < remainder) :
    ∃ view ∈ state.resolved, IsView order (openingSide order.orderSide)
      (pre.cumulative order.rawKey (openingSide order.orderSide) + remainder) view := by
  have hg := resolveOrder_le hr order.rawKey interval.positionSide
  have hlt : (pre.cumulative order.rawKey).total < order.executedQuantity := by linarith
  obtain ⟨hc, he⟩ := resolveOrder_reducing hreducing hcl hlt hr rfl
  rw [hc, add_sub_cancel_left] at hre
  subst hre
  obtain ⟨view, hv, hi⟩ := he hp
  rw [hs, List.foldlM_append, bind_eq_ok_iff] at hrun
  obtain ⟨reached, hrea, hrest⟩ := hrun
  cases hea.symm.trans hrea
  rw [foldlM_cons_eq_ok_iff] at hrest
  obtain ⟨next, hn, hl⟩ := hrest
  cases hr.symm.trans hn
  exact ⟨view, resolveOrders_resolved_subset hl hv, hi⟩

/-- The closed volume is kept where the reductions fit into it together or are of one raw
order.  Only a raw order with rows outside the interval can keep it otherwise. -/
theorem withinClosedVolume_iff (hclosed : interval.closedAtMs ≠ none)
    (hresolve : resolveOneWayOrders orders priors closed = .ok resolved) :
    (FitsClosedVolume orders priors closed interval →
      WithinClosedVolume orders priors closed interval resolved) ∧
    (WhollyWithin orders priors closed interval →
      WithinClosedVolume orders priors closed interval resolved →
      FitsClosedVolume orders priors closed interval) := by
  obtain ⟨-, -, state, hrun, rfl⟩ := resolveOneWayOrders_run hresolve
  constructor
  · intro hf
    refine ⟨allocatedReductions_le_of_fits hclosed hrun hf, ?_⟩
    intro earlier order later pre post hs he hst hreducing remainder hr hp
    exact remainder_emitted hclosed hrun hs he hst hreducing hr hp
  · intro hwholly hw
    exact fits_of_allocatedReductions_le hclosed hrun hwholly hw.total

end Kept

section TwoSales

/-- The update times differ, so digests are never compared. -/
local instance closedVolumeHexOrder : HexOrder := ⟨fun _ => 0⟩

def closedLong (closedQuantity : Decimal) : ClosedLeaderPosition where
  symbol := "BTCUSDT"
  positionSide := .long
  openedAtMs := 1000
  closedAtMs := some 5000
  maximumOpenQuantity := closedQuantity
  closedQuantity := closedQuantity
  evidenceUpdatedAtMs := some 5000

def twoSales : List PublicLeaderOrder :=
  okValue (orderHistoryPage "1"
    [oneWayDocument .sell 1 100 2000 2000, oneWayDocument .sell 1 101 3000 3000] none)
    (by decide)

theorem two_sales_within_two : (resolveOneWayOrders twoSales [] [closedLong 2]).toOption.map
        (·.map fun view => (view.positionSide, view.executedQuantity)) =
      some [(.long, 1), (.long, 1)] ∧
    ∀ resolved, resolveOneWayOrders twoSales [] [closedLong 2] = .ok resolved →
      WithinClosedVolume twoSales [] [closedLong 2] (closedLong 2) resolved := by
  refine ⟨by with_unfolding_all decide, fun resolved hr => ?_⟩
  have hs : storedReductions [] [closedLong 2] (closedLong 2) ≤
      (closedLong 2).closedQuantity := by decide
  have ht : reportedReductions twoSales [] [closedLong 2] (closedLong 2) +
      storedReductions [] [closedLong 2] (closedLong 2) ≤ (closedLong 2).closedQuantity := by
    with_unfolding_all decide
  exact (withinClosedVolume_iff (Option.some_ne_none _) hr).1 ⟨hs, Or.inr (Or.inl ht)⟩

/-- Of a closed volume of one, each of the two sales takes all: neither sees what the
other took. -/
theorem two_sales_exceed_one : ¬ ∀ [HexOrder] (orders priors resolved : List PublicLeaderOrder)
      (closed : List ClosedLeaderPosition) (interval : ClosedLeaderPosition),
      (∀ order ∈ orders, order.positionSide = .both) →
      resolveOneWayOrders orders priors closed = .ok resolved →
      interval ∈ closed → interval.closedAtMs ≠ none →
      WithinClosedVolume orders priors closed interval resolved := by
  intro hc
  have hb : ∀ order ∈ twoSales, order.positionSide = .both := by decide
  have hok : (resolveOneWayOrders twoSales [] [closedLong 1]).isOk = true := by
    with_unfolding_all decide
  have hw := hc twoSales [] _ [closedLong 1] (closedLong 1) hb (eq_ok_okValue hok)
    List.mem_cons_self (Option.some_ne_none _)
  have he : (closedLong 1).closedQuantity <
      allocatedReductions twoSales [] [closedLong 1] (closedLong 1) +
        storedReductions [] [closedLong 1] (closedLong 1) := by with_unfolding_all decide
  exact absurd hw.total (not_le.mpr he)

end TwoSales

end AiQuant.CopyTrading
