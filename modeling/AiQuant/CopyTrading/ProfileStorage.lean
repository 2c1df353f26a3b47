import AiQuant.CopyTrading.CandidateProfile

/-! Whether the activity of a resolved page can be stored.  An order that crosses zero becomes two
rows, so a page within the limit can have more orders than an activity row may count. -/
namespace AiQuant.CopyTrading
open AiQuant.Lib

def unattributed (state : ResolverState) (order : PublicLeaderOrder) : Decimal :=
  order.executedQuantity - (state.cumulative order.rawKey).total

def repeatsOrder (state : ResolverState) (order : PublicLeaderOrder) : Bool :=
  order.positionSide = .both && unattributed state order ≤ 0

def crossesZero (closedPositions : List ClosedLeaderPosition) (state : ResolverState)
    (order : PublicLeaderOrder) : Bool :=
  order.positionSide = .both &&
    match closedInterval order closedPositions with
    | .error _ => false
    | .ok none =>
      let opposing := state.positions (order.symbol, reductionSide order.orderSide)
      0 < opposing && opposing < unattributed state order
    | .ok (some interval) =>
      let remaining := interval.closedQuantity -
        state.cumulative order.rawKey interval.positionSide
      !increases interval.positionSide.source order.orderSide && interval.closedAtMs.isSome &&
        0 < remaining && remaining < unattributed state order

def countRows (counts : ResolverState → PublicLeaderOrder → Bool)
    (closedPositions : List ClosedLeaderPosition) :
    ResolverState → List PublicLeaderOrder → ℕ
  | _, [] => 0
  | state, order :: rest =>
    (if counts state order then 1 else 0) +
      match resolveOrder closedPositions state order with
      | .ok after => countRows counts closedPositions after rest
      | .error _ => 0

section Counting

variable {closed : List ClosedLeaderPosition} {pre after : ResolverState}
  {order : PublicLeaderOrder} {allocs : List (PositionSide × Decimal)}

theorem length_allocateAgainstPosition {delta : Decimal} {positions : SourcePositions}
    (ha : allocateAgainstPosition order delta positions = .ok allocs) : allocs.length =
      if 0 < positions (order.symbol, reductionSide order.orderSide) &&
        positions (order.symbol, reductionSide order.orderSide) < delta then 2 else 1 := by
  simp only [allocateAgainstPosition] at ha
  split at ha
  · cases ha
  split at ha
  · rename_i hnothing
    split at ha
    · cases ha
    · cases ha
      simp [not_lt.mpr hnothing]
  · rename_i hopposing
    rw [not_le] at hopposing
    cases ha
    by_cases hl : positions (order.symbol, reductionSide order.orderSide) < delta
    · rw [min_eq_left hl.le, if_pos (sub_pos.mpr hl)]
      simp [hopposing, hl]
    · rw [min_eq_right (not_lt.mp hl), sub_self, if_neg (lt_irrefl _)]
      simp [hl]

theorem length_allocateWithClosedInterval {delta : Decimal} {ivl : ClosedLeaderPosition}
    {previousBySide : BySide} (hd : 0 < delta)
    (ha : allocateWithClosedInterval order delta ivl previousBySide = .ok allocs) : allocs.length =
      if !increases ivl.positionSide.source order.orderSide && ivl.closedAtMs.isSome &&
          0 < ivl.closedQuantity - previousBySide ivl.positionSide &&
          ivl.closedQuantity - previousBySide ivl.positionSide < delta then 2
      else 1 := by
  simp only [allocateWithClosedInterval] at ha
  split at ha
  · rename_i hincreases
    cases ha
    rw [hincreases]
    rfl
  split at ha
  · rename_i hopen
    cases ha
    rw [hopen, Option.isSome_none, Bool.and_false]
    rfl
  · rename_i hreduces hclosed
    rw [Bool.not_eq_true] at hreduces
    have hs : ivl.closedAtMs.isSome = true := Option.isSome_iff_ne_none.mpr hclosed
    rw [hreduces, hs]
    generalize ivl.closedQuantity - previousBySide ivl.positionSide = remaining at *
    by_cases hr : 0 < remaining
    · rw [max_eq_right hr.le] at ha
      by_cases hl : remaining < delta
      · rw [min_eq_right hl.le, if_pos hr, if_pos (sub_pos.mpr hl)] at ha
        cases ha
        simp [hr, hl]
      · rw [min_eq_left (not_lt.mp hl), if_pos hd, sub_self, if_neg (lt_irrefl _)] at ha
        cases ha
        simp [hl]
    · rw [max_eq_left (not_lt.mp hr), min_eq_right hd.le, if_neg (lt_irrefl _), sub_zero,
        if_pos hd] at ha
      cases ha
      simp [hr]

theorem crossesZero_of_le (hle : unattributed pre order ≤ 0) :
    crossesZero closed pre order = false := by
  rw [crossesZero]
  cases closedInterval order closed with
  | error code => exact Bool.and_false _
  | ok found =>
    cases found with
    | none =>
      by_cases ho : 0 < pre.positions (order.symbol, reductionSide order.orderSide)
      · simp [(hle.trans ho.le).not_gt]
      · simp [ho]
    | some ivl =>
      by_cases hr : 0 < ivl.closedQuantity - pre.cumulative order.rawKey ivl.positionSide
      · simp [(hle.trans hr.le).not_gt]
      · simp [hr]

theorem length_allocationsOf (hb : order.positionSide = .both)
    (hlt : (pre.cumulative order.rawKey).total < order.executedQuantity)
    (ha : allocationsOf closed pre order = .ok allocs) :
    allocs.length = if crossesZero closed pre order then 2 else 1 := by
  unfold allocationsOf at ha
  dsimp only at ha
  rw [bind_eq_ok_iff] at ha
  obtain ⟨ivl, hi, ha⟩ := ha
  rw [crossesZero, hb, decide_eq_true rfl, Bool.true_and, hi]
  cases ivl with
  | none =>
    exact length_allocateAgainstPosition ha
  | some ivl =>
    exact length_allocateWithClosedInterval (sub_pos.mpr hlt) ha

theorem length_resolveOrder (hr : resolveOrder closed pre order = .ok after) :
    after.resolved.length + (if repeatsOrder pre order then 1 else 0) = pre.resolved.length + 1 +
        if crossesZero closed pre order then 1 else 0 := by
  by_cases hb : order.positionSide = .both
  · rcases resolveOrder_cases hb hr with ⟨hle, rfl⟩ | ⟨allocs, views, hlt, ha, -, he⟩
    · have hre : repeatsOrder after order = true := by
        rw [repeatsOrder, hb, decide_eq_true rfl, Bool.true_and]
        exact decide_eq_true (sub_nonpos.mpr hle)
      rw [hre, crossesZero_of_le (sub_nonpos.mpr hle)]
      rfl
    · have hn : repeatsOrder pre order = false := by
        rw [repeatsOrder, hb, decide_eq_true rfl, Bool.true_and]
        exact decide_eq_false (not_le.mpr (sub_pos.mpr hlt))
      rw [he.resolved, List.length_append, hn, ← he.views.length_eq,
        length_allocationsOf hb hlt ha, if_neg Bool.false_ne_true]
      split_ifs <;> rfl
  · rw [resolveOrder_explicit hb] at hr
    cases hr
    rw [repeatsOrder, crossesZero, decide_eq_false hb, Bool.false_and, Bool.false_and,
      List.length_append]
    rfl

theorem length_resolveOrders {rows : List PublicLeaderOrder}
    (hrun : rows.foldlM (resolveOrder closed) pre = .ok after) :
    after.resolved.length + countRows repeatsOrder closed pre rows =
      pre.resolved.length + rows.length + countRows (crossesZero closed) closed pre rows := by
  induction rows generalizing pre with
  | nil =>
    rw [foldlM_nil_eq_ok_iff] at hrun
    rw [hrun]
    rfl
  | cons order rest ih =>
    rw [foldlM_cons_eq_ok_iff] at hrun
    obtain ⟨mid, hf, hr⟩ := hrun
    have hs := length_resolveOrder hf
    have hl := ih hr
    rw [countRows, countRows, hf, List.length_cons]
    dsimp only
    omega

end Counting

section Pages

variable [HexOrder]

/-- The hexadecimal texts of different event keys differ. -/
def TextsDiffer (page : List PublicLeaderOrder) : Prop :=
  ∀ first ∈ page, ∀ second ∈ page,
    HexOrder.value first.eventKey = HexOrder.value second.eventKey →
      first.eventKey = second.eventKey

def zeroCrossings (page : List PublicLeaderOrder)
    (closedPositions : List ClosedLeaderPosition) : ℕ :=
  countRows (crossesZero closedPositions) closedPositions (priorLedger []) (sortedOrders page)

def attributedRows (page : List PublicLeaderOrder)
    (closedPositions : List ClosedLeaderPosition) : ℕ :=
  countRows repeatsOrder closedPositions (priorLedger []) (sortedOrders page)

def profileOf (page : List PublicLeaderOrder) (closedPositions : List ClosedLeaderPosition)
    (observedAtMs : ℤ) : Except String CandidateOrderProfile :=
  (profiledOrders page (.ok closedPositions)).map
    (CandidateOrderProfile.fromOrders · (some observedAtMs))

/-- The run stores the activity of the page, and the order of its rows does not matter. -/
structure ProfileStored (leadPortfolioId : String) (now : Time) (observedAtMs : ℤ)
    (tradingSymbols : Finset String) (page : List PublicLeaderOrder)
    (closedPositions : List ClosedLeaderPosition) : Prop where
  stored : ∀ table, ∃ profile after,
    profileOf page closedPositions observedAtMs = .ok profile ∧
    profileCandidate leadPortfolioId now observedAtMs tradingSymbols (.ok page)
      (.ok closedPositions) table = .ok (.profiled profile, after) ∧
    candidateActivity leadPortfolioId now tradingSymbols profile ∈ after ∧
    (candidateActivity leadPortfolioId now tradingSymbols profile).Storable
  orderFree : ∀ shuffled : List PublicLeaderOrder, shuffled.Perm page →
    profileOf shuffled closedPositions observedAtMs =
      profileOf page closedPositions observedAtMs ∧
    ∀ table,
      profileCandidate leadPortfolioId now observedAtMs tradingSymbols (.ok shuffled)
        (.ok closedPositions) table =
      profileCandidate leadPortfolioId now observedAtMs tradingSymbols (.ok page)
        (.ok closedPositions) table

variable {leader : String} {rows : List ApiOrder}
  {page resolved : List PublicLeaderOrder} {closed : List ClosedLeaderPosition}

variable {shuffled : List PublicLeaderOrder}

theorem sortedOrders_eq_of_perm (hp : orderHistoryPage leader rows none = .ok page)
    (ht : TextsDiffer page)
    (hpe : shuffled.Perm page) : sortedOrders shuffled = sortedOrders page := by
  have hn : (page.map (·.identityKey)).Nodup := by
    unfold orderHistoryPage at hp
    rw [bind_eq_ok_iff] at hp
    obtain ⟨parsed, -, hp⟩ := hp
    rw [bind_eq_ok_iff] at hp
    obtain ⟨orders, -, hp⟩ := hp
    dsimp only [guardedOrders] at hp
    split at hp
    · cases hp
    · rename_i hunique
      cases hp
      rw [← List.dedup_eq_self]
      apply (List.dedup_sublist _).eq_of_length
      rw [not_not.mp hunique, List.length_map]
  have hk : ∀ order ∈ page, order.Keyed := by
    intro order hm
    obtain ⟨doc, -, ha⟩ := exists_assignedOrder_of_mem_page hp hm
    exact (assignedOrder_spec ha).2.1
  have hd : ∀ first ∈ page, ∀ second ∈ page, first.sortKey ≤ second.sortKey →
      second.sortKey ≤ first.sortKey → first = second := by
    intro first hf second hs hle hge
    have hsa := le_antisymm hle hge
    have hke := ht first hf second hs (congrArg (fun key => (ofLex key).2) hsa)
    rw [hk first hf, hk second hs] at hke
    injection hke with _ _ hi
    exact List.inj_on_of_nodup_map hn hf hs hi
  have hb := (sortedOrders_perm shuffled).trans (hpe.trans (sortedOrders_perm page).symm)
  apply List.Perm.eq_of_pairwise _ (sortedOrders_sortKey shuffled) (sortedOrders_sortKey page) hb
  intro first second hf hs hle hge
  exact hd first (mem_sortedOrders.mp (hb.mem_iff.mp hf)) second (mem_sortedOrders.mp hs) hle hge

theorem resolveOneWayOrders_eq_of_perm (hpa : orderHistoryPage leader rows none = .ok page)
    (ht : TextsDiffer page) (hp : shuffled.Perm page) : resolveOneWayOrders shuffled [] closed =
      resolveOneWayOrders page [] closed := by
  have hl : ∀ order ∈ page, order.leadPortfolioId = leader := by
    intro order hm
    obtain ⟨doc, -, ha⟩ := exists_assignedOrder_of_mem_page hpa hm
    exact (assignedOrder_spec ha).1
  rw [resolveOneWayOrders_eq (fun order hm => hl order (hp.mem_iff.mp hm)) (by simp),
    resolveOneWayOrders_eq hl (by simp), sortedOrders_eq_of_perm hpa ht hp]

theorem profiledOrders_eq_of_perm (hpa : orderHistoryPage leader rows none = .ok page)
    (ht : TextsDiffer page) (hp : shuffled.Perm page)
    (hr : profiledOrders page (.ok closed) = .ok resolved) :
    ∃ orders, profiledOrders shuffled (.ok closed) = .ok orders ∧
      orders.Perm resolved := by
  unfold profiledOrders at hr ⊢
  rw [hp.any_eq]
  split_ifs at hr ⊢ with hb
  · refine ⟨resolved, ?_, .refl _⟩
    exact (resolveOneWayOrders_eq_of_perm hpa ht hp).trans hr
  · obtain rfl := Except.ok.inj hr
    exact ⟨shuffled, rfl, hp⟩

theorem resolved_spec (hr : profiledOrders page (.ok closed) = .ok resolved) :
    ∀ order ∈ resolved, order.positionSide ≠ .both ∧
      ∃ row ∈ page, order.updateTimeMs = row.updateTimeMs := by
  unfold profiledOrders at hr
  split_ifs at hr with hbo
  · obtain ⟨-, -, st, hrun, rfl⟩ := resolveOneWayOrders_run hr
    apply foldlM_invariant (fun st : ResolverState => ∀ order ∈ st.resolved,
      order.positionSide ≠ .both ∧ ∃ row ∈ page, order.updateTimeMs = row.updateTimeMs) _ _ hrun
    · intro row hrow pre after hb hst order ho
      have hm := mem_sortedOrders.mp hrow
      by_cases hs : row.positionSide = .both
      · obtain ⟨views, he, -⟩ := resolveOrder_spec hs hst
        rw [he.resolved, List.mem_append] at ho
        rcases ho with hold | hv
        · exact hb order hold
        · obtain ⟨side, qty, hi⟩ :=
            isView_of_resolveOrder hs hst he.resolved order hv
          refine ⟨?_, row, hm, hi.updateTimeMs⟩
          rw [hi.positionSide]
          exact PositionSide.source_ne_both side
      · rw [resolveOrder_explicit hs] at hst
        cases hst
        rcases List.mem_append.mp ho with hold | hn
        · exact hb order hold
        · obtain rfl := List.mem_singleton.mp hn
          exact ⟨hs, order, hm, rfl⟩
    · intro order ho
      rw [priorLedger, replayPriors_resolved] at ho
      cases ho
  · obtain rfl := Except.ok.inj hr
    intro order hm
    refine ⟨?_, order, hm, rfl⟩
    intro hs
    exact hbo (List.any_eq_true.mpr ⟨order, hm, decide_eq_true hs⟩)

omit [HexOrder] in
theorem countRows_explicit {counts : ResolverState → PublicLeaderOrder → Bool}
    (hc : ∀ st order, order.positionSide ≠ .both → counts st order = false)
    {orders : List PublicLeaderOrder} (he : ∀ order ∈ orders, order.positionSide ≠ .both)
    (st : ResolverState) : countRows counts closed st orders = 0 := by
  induction orders generalizing st with
  | nil => rfl
  | cons order rest ih =>
    obtain ⟨hf, hr⟩ := List.forall_mem_cons.mp he
    rw [countRows, hc st order hf, resolveOrder_explicit hf]
    exact (Nat.zero_add _).trans (ih hr _)

theorem length_resolved (hr : profiledOrders page (.ok closed) = .ok resolved) :
    resolved.length + attributedRows page closed = page.length + zeroCrossings page closed := by
  unfold profiledOrders at hr
  split_ifs at hr with hb
  · obtain ⟨-, -, st, hrun, rfl⟩ := resolveOneWayOrders_run hr
    have hc := length_resolveOrders hrun
    rw [priorLedger, replayPriors_resolved, List.length_nil, Nat.zero_add,
      (sortedOrders_perm page).length_eq] at hc
    exact hc
  · obtain rfl := Except.ok.inj hr
    have he : ∀ order ∈ sortedOrders page, order.positionSide ≠ .both := by
      intro order hm hs
      exact hb (List.any_eq_true.mpr ⟨order, mem_sortedOrders.mp hm, decide_eq_true hs⟩)
    rw [attributedRows, zeroCrossings, countRows_explicit _ he, countRows_explicit _ he]
    · intro st order hs
      rw [crossesZero, decide_eq_false hs, Bool.false_and]
    · intro st order hs
      rw [repeatsOrder, decide_eq_false hs, Bool.false_and]

theorem profileCandidate_eq {observedAtMs : ℤ} (now : Time) (tradingSymbols : Finset String)
    (hr : profiledOrders page (.ok closed) = .ok resolved) (table : List CandidateActivity) :
    profileCandidate leader now observedAtMs tradingSymbols (.ok page) (.ok closed) table =
      (recordCandidateActivity table (candidateActivity leader now tradingSymbols
        (CandidateOrderProfile.fromOrders resolved (some observedAtMs)))).map
          (.profiled (CandidateOrderProfile.fromOrders resolved (some observedAtMs)), ·) := by
  have hc : (CandidateOrderProfile.fromOrders resolved
      (some observedAtMs)).ambiguousPositionSideCount = 0 := by
    apply List.length_eq_zero_iff.mpr
    apply List.filter_eq_nil_iff.mpr
    intro order hm hs
    exact (resolved_spec hr order hm).1 (of_decide_eq_true hs)
  rw [profileCandidate, hr]
  dsimp only
  rw [if_neg (not_not.mpr hc), candidateActivity_checked]
  change (recordCandidateActivity table (candidateActivity leader now tradingSymbols
    (CandidateOrderProfile.fromOrders resolved (some observedAtMs))) >>=
      fun after => .ok (_, after)) = _
  cases recordCandidateActivity table (candidateActivity leader now tradingSymbols
    (CandidateOrderProfile.fromOrders resolved (some observedAtMs))) with
  | error code => rfl
  | ok after => rfl

omit [HexOrder] in
theorem recordCandidateActivity_eq {activity : CandidateActivity} (hc : activity.Storable)
    (table : List CandidateActivity) :
    ∃ after, recordCandidateActivity table activity = .ok after ∧ activity ∈ after := by
  rw [recordCandidateActivity, if_neg (not_not.mpr hc)]
  by_cases hm : activity ∈ table
  · exact ⟨table, if_pos hm, hm⟩
  · exact ⟨table ++ [activity], if_neg hm, List.mem_append_right _ List.mem_cons_self⟩

/-- A page is stored exactly if its rows, with a second order for each that crosses zero and none
for each that repeats, are at most a hundred. -/
theorem profile_stored_iff {observedAtMs : ℤ} (hpage : orderHistoryPage leader rows none = .ok page)
    (htexts : TextsDiffer page) (hresolve : profiledOrders page (.ok closed) = .ok resolved)
    (hbefore : ∀ order ∈ page, order.updateTimeMs ≤ observedAtMs) (now : Time)
    (tradingSymbols : Finset String) :
    ProfileStored leader now observedAtMs tradingSymbols page closed ↔
      page.length + zeroCrossings page closed ≤ 100 + attributedRows page closed := by
  have hco := length_resolved hresolve
  have hob : ∀ order ∈ resolved, order.updateTimeMs ≤ observedAtMs := by
    intro order hm
    obtain ⟨-, row, hrow, ht⟩ := resolved_spec hresolve order hm
    exact ht.trans_le (hbefore row hrow)
  have hs := candidateActivity_storable_iff leader now tradingSymbols hob
  have hp : profileOf page closed observedAtMs =
      .ok (CandidateOrderProfile.fromOrders resolved (some observedAtMs)) := by
    rw [profileOf, hresolve]
    rfl
  constructor
  · intro hst
    obtain ⟨profile, after, hsa, -, -, hc⟩ := hst.stored []
    obtain rfl := Except.ok.inj (hp.symm.trans hsa)
    have := hs.mp hc
    omega
  · intro hfi
    have hc := hs.mpr (by omega)
    constructor
    · intro table
      obtain ⟨after, hr, hm⟩ := recordCandidateActivity_eq hc table
      refine ⟨_, after, hp, ?_, hm, hc⟩
      rw [profileCandidate_eq now tradingSymbols hresolve, hr]
      rfl
    · intro shuffled hpe
      obtain ⟨orders, ho, hsa⟩ := profiledOrders_eq_of_perm hpage htexts hpe hresolve
      have hf := CandidateOrderProfile.fromOrders_eq_of_perm hsa (some observedAtMs)
      constructor
      · rw [hp, profileOf, ho, Except.map, hf]
      · intro table
        rw [profileCandidate_eq now tradingSymbols ho,
          profileCandidate_eq now tradingSymbols hresolve, hf]

end Pages

section Flips

theorem foldl_setDefaultByEvent_eq (first second : List PublicLeaderOrder)
    (hd : ((first ++ second).map (·.eventKey)).Nodup) :
    second.foldl setDefaultByEvent first = first ++ second := by
  induction second generalizing first with
  | nil => rw [List.append_nil, List.foldl_nil]
  | cons order rest ih =>
    have hn : ¬ first.any (·.eventKey = order.eventKey) = true := by
      intro ha
      obtain ⟨kept, hk, hs⟩ := List.any_eq_true.mp ha
      rw [List.map_append, List.nodup_append] at hd
      exact hd.2.2 _ (List.mem_map_of_mem hk) _ (by simp) (of_decide_eq_true hs)
    rw [List.foldl_cons, setDefaultByEvent, if_neg hn, ih]
    · rw [List.append_assoc, List.singleton_append]
    · rwa [List.append_assoc, List.singleton_append]

theorem orderHistoryPage_of_nodup {leader : String} {rows : List ApiOrder}
    {parsed : List PublicLeaderOrder}
    (hp : rows.mapM (PublicLeaderOrder.fromApi leader) = .ok parsed)
    (ht : (parsed.map (·.orderTimeMs)).Nodup) : orderHistoryPage leader rows none = .ok parsed := by
  have hsp : ∀ order ∈ parsed, order.Keyed ∧ order.identityKey = .orderIdentity leader
      order.orderTimeMs order.orderType order.positionSide order.orderSide order.symbol := by
    intro order hm
    obtain ⟨doc, -, hd⟩ := exists_of_mem_mapM hp hm
    obtain ⟨-, hk, hid, -⟩ := PublicLeaderOrder.fromApi_spec hd
    exact ⟨hk, hid⟩
  have hi : ∀ first ∈ parsed, ∀ second ∈ parsed,
      first.identityKey = second.identityKey → first = second := by
    intro first hf second hs hsa
    rw [(hsp first hf).2, (hsp second hs).2] at hsa
    injection hsa with _ hti
    exact List.inj_on_of_nodup_map ht hf hs hti
  have he : ∀ first ∈ parsed, ∀ second ∈ parsed,
      first.eventKey = second.eventKey → first = second := by
    intro first hf second hs hsa
    rw [(hsp first hf).1, (hsp second hs).1] at hsa
    injection hsa with _ _ hid
    exact hi first hf second hs hid
  have hr : parsed.Nodup := List.Nodup.of_map _ ht
  have hke : deduplicateExactOrderEvents parsed = parsed :=
    foldl_setDefaultByEvent_eq [] parsed (hr.map_on he)
  have hb : ∀ order ∈ parsed, isBatch (identityGroup parsed order) = false := by
    intro order hm
    have ha : (identityGroup parsed order).length ≤ [order].length := by
      apply (List.subperm_of_subset (hr.filter _) _).length_le
      intro other ho
      obtain ⟨hin, hsa⟩ := List.mem_filter.mp ho
      exact List.mem_singleton.mpr (hi other hin order hm (of_decide_eq_true hsa))
    rw [List.length_singleton] at ha
    rw [isBatch, decide_eq_false (by omega), Bool.false_and]
  have hpl : disambiguateSameTimestampBatchOrders parsed = .ok parsed := by
    have hs : parsed.map (separatedOrder parsed) = parsed := by
      apply (List.map_congr_left _).trans (List.map_id parsed)
      intro order hm
      rw [separatedOrder, hb order hm]
      rfl
    have ha : parsed.any (fun order => isBatch (identityGroup parsed order) &&
        !order.discriminable) = false := by
      rw [List.any_eq_false]
      intro order hm
      rw [hb order hm, Bool.false_and]
      exact Bool.false_ne_true
    unfold disambiguateSameTimestampBatchOrders
    rw [mapM_eq_ite (disambiguateOrder_eq _), ha, hs]
    rfl
  have hu : (parsed.map (·.identityKey)).dedup.length = parsed.length := by
    rw [(hr.map_on hi).dedup, List.length_map]
  rw [orderHistoryPage, hp]
  change (disambiguateSameTimestampBatchOrders (deduplicateExactOrderEvents parsed) >>= _) = _
  rw [hke, hpl]
  exact if_neg (not_not.mpr hu)

/-- The update times differ, so they order the digests. -/
local instance profileHexOrder : HexOrder where
  value
    | .orderEvent _ _ _ _ updateTimeMs _ => updateTimeMs.toNat
    | _ => 0

def flips (count : ℕ) : List ApiOrder :=
  (List.range count).map fun index =>
    oneWayDocument (if index % 2 = 0 then .buy else .sell) (if index = 0 then 1 else 2) 100
      (1700000000000 + index) (1700000000000 + index)

def flipOrders (count : ℕ) : List PublicLeaderOrder :=
  (flips count).filterMap fun document =>
    (PublicLeaderOrder.fromApi "4000000001" document).toOption

theorem two_flips_stored :
    ProfileStored "4000000001" 1700000060000000 1700000060000 {"BTCUSDT"} (flipOrders 2) [] := by
  have hp : orderHistoryPage "4000000001" (flips 2) none = .ok (flipOrders 2) :=
    orderHistoryPage_of_nodup (by decide) (by decide)
  have ht : TextsDiffer (flipOrders 2) := by
    unfold TextsDiffer
    decide
  have hr : (profiledOrders (flipOrders 2) (.ok [])).isOk = true := by
    with_unfolding_all decide
  have hb : ∀ order ∈ flipOrders 2, order.updateTimeMs ≤ 1700000060000 := by decide
  exact (profile_stored_iff hp ht (eq_ok_okValue hr) hb _ _).mpr (by with_unfolding_all decide)

/-- Fifty-one orders are a hundred and one after they are resolved: the row violates its check and
the run aborts. -/
theorem many_flips_abort : ¬ ∀ [HexOrder] (leader : String) (now : Time) (observedAtMs : ℤ)
      (tradingSymbols : Finset String) (rows : List ApiOrder)
      (page resolved : List PublicLeaderOrder) (closed : List ClosedLeaderPosition),
      orderHistoryPage leader rows none = .ok page → page.length ≤ 100 → TextsDiffer page →
      profiledOrders page (.ok closed) = .ok resolved →
      (∀ order ∈ page, order.updateTimeMs ≤ observedAtMs) →
      ProfileStored leader now observedAtMs tradingSymbols page closed := by
  intro hcl
  have hpa : orderHistoryPage "4000000001" (flips 51) none = .ok (flipOrders 51) :=
    orderHistoryPage_of_nodup (by decide) (by decide)
  have ht : TextsDiffer (flipOrders 51) := by
    unfold TextsDiffer
    decide
  have hr : (profiledOrders (flipOrders 51) (.ok [])).isOk = true := by decide +kernel
  have hb : ∀ order ∈ flipOrders 51, order.updateTimeMs ≤ 1700000060000 := by decide
  have hs := hcl "4000000001" 1700000060000000 1700000060000 {"BTCUSDT"} (flips 51)
    (flipOrders 51) _ [] hpa (by decide) ht (eq_ok_okValue hr) hb
  obtain ⟨profile, after, hp, -, -, hch⟩ := hs.stored []
  have hc : (profileOf (flipOrders 51) [] 1700000060000).toOption.map (·.orderCount) =
      some 101 := by decide +kernel
  rw [hp] at hc
  have hm : profile.orderCount = 101 := Option.some.inj hc
  have hsa : (profile.orderCount : ℤ) ≤ 100 := hch.sample.2
  omega

end Flips

end AiQuant.CopyTrading
