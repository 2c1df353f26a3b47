import AiQuant.CopyTrading.Normalization

/-! The event log over whole runs of `ingest_orders` for one leader.  Without a reset, and
without a match of an ambiguous baseline row, what a batch emits is a function of the rows
stored before it. -/
namespace AiQuant.CopyTrading
open AiQuant.Lib

/-- The keys of a row as its constructors derive them from the row's own values. -/
structure PublicLeaderOrder.KeysDerived (order : PublicLeaderOrder) : Prop where
  keyed : order.Keyed
  identity : order.identityKey = .orderIdentity order.leadPortfolioId order.orderTimeMs
      order.orderType order.positionSide order.orderSide order.symbol ∨
    order.identityKey = .discriminated order.orderType order.averagePrice
      order.spelling.averagePrice (.orderIdentity order.leadPortfolioId order.orderTimeMs
        order.orderType order.positionSide order.orderSide order.symbol)

theorem PublicLeaderOrder.derived_of_fromApi {leader : String} {doc : ApiOrder}
    {order : PublicLeaderOrder} (hp : PublicLeaderOrder.fromApi leader doc = .ok order) :
    order.KeysDerived := by
  obtain ⟨hl, hk, hi, -⟩ := PublicLeaderOrder.fromApi_spec hp
  rw [← hl] at hi
  exact ⟨hk, Or.inl hi⟩

theorem PublicLeaderOrder.KeysDerived.side_eq {left right : PublicLeaderOrder}
    (hle : left.KeysDerived) (hri : right.KeysDerived) (hk : left.identityKey = right.identityKey) :
    left.positionSide = right.positionSide := by
  rcases hle.identity with hl | hl <;> rcases hri.identity with hr | hr <;>
    rw [hl, hr] at hk
  · injection hk
  · cases hk
  · cases hk
  · injection hk with _ _ _ hs
    injection hs

/-- The exponent of the delta where the previous quantity comes from its column. -/
def storedDeltaExponent (order : PublicLeaderOrder) (previous : Decimal) : ℤ :=
  order.deltaExponent previous (if previous = 0 then 0 else -18)

def Digest.emittedEvent? : Digest → Option Digest
  | .signal _ _ sourceEventKey => some sourceEventKey
  | .fillDelta signalId => signalId.emittedEvent?
  | _ => none

def EventLog.emittedEvents (log : EventLog) : List Digest :=
  log.fillDeltas.map (·.sourceEventKey) ++
    log.fillDeltas.filterMap (·.deltaEventId.emittedEvent?) ++
    log.signals.filterMap (·.signalId.emittedEvent?) ++
    log.signals.filterMap (·.deltaEventId.bind Digest.emittedEvent?)

/-- Nothing of the leader has been ingested yet. -/
structure EventLog.UntouchedBy (log : EventLog) (leadPortfolioId : String) : Prop where
  resets : ∀ reset ∈ log.resets, reset.leadPortfolioId ≠ leadPortfolioId
  sourceOrders : ∀ row ∈ log.sourceOrders, row.order.leadPortfolioId ≠ leadPortfolioId
  emitted : ∀ eventKey ∈ log.emittedEvents, eventKey.leader? ≠ some leadPortfolioId

/-- `ingest_orders` for one batch after another; the first is the baseline. -/
def EventLog.ingestBatches [HexOrder] (leadPortfolioId : String) :
    EventLog → Bool → List (List PublicLeaderOrder × Time) →
      Except String (EventLog × List (List NormalizedSignal))
  | log, _, [] => .ok (log, [])
  | log, baseline, (orders, observedAt) :: rest => do
    let (next, signals) ← log.ingestOrders leadPortfolioId orders baseline observedAt
    let (last, outputs) ← EventLog.ingestBatches leadPortfolioId next false rest
    .ok (last, signals :: outputs)

theorem EventLog.insertSignal_ok {log : EventLog} {order : PublicLeaderOrder} {delta : Decimal}
    {exp : ℤ} {sig : NormalizedSignal} (prev : Decimal)
    (hs : NormalizedSignal.fromOrder order delta exp = .ok sig)
    (hf : order.eventKey ∉ log.emittedEvents) :
    ∃ post, log.insertSignal sig prev = .ok post ∧ post.sourceOrders = log.sourceOrders ∧
      post.resets = log.resets ∧ ∀ eventKey ∈ post.emittedEvents,
        eventKey ∈ log.emittedEvents ∨ eventKey = order.eventKey := by
  obtain ⟨-, he, -, -⟩ := NormalizedSignal.fromOrder_spec hs
  have hid : sig.signalId.emittedEvent? = some order.eventKey := by
    unfold NormalizedSignal.fromOrder at hs
    split at hs
    · cases hs
    split at hs
    · cases hs
    · cases hs
      rfl
  have hde : (Digest.fillDelta sig.signalId).emittedEvent? = some order.eventKey := hid
  simp only [EventLog.emittedEvents, List.mem_append, List.mem_map, List.mem_filterMap, not_or,
    not_exists, not_and] at hf
  obtain ⟨⟨⟨hd, hdel⟩, hsig⟩, hsi⟩ := hf
  unfold EventLog.insertSignal
  dsimp only
  rw [if_neg]
  · refine ⟨_, rfl, rfl, rfl, ?_⟩
    intro eventKey hm
    simp only [EventLog.emittedEvents, List.map_append, List.filterMap_append, List.mem_append,
      List.map_cons, List.map_nil, List.filterMap_cons, List.filterMap_nil, hid, hde, he,
      Option.bind_some, List.mem_singleton] at hm ⊢
    tauto
  · simp only [Bool.or_eq_true, List.any_eq_true, decide_eq_true_eq, not_or, not_exists, not_and]
    refine ⟨fun row hr => ⟨fun hk => ?_, fun hk => ?_⟩,
      fun row hr => ⟨fun hk => ?_, fun hk => ?_⟩⟩
    · exact hdel row hr (by rw [hk]; exact hde)
    · exact hd row hr (hk.trans he)
    · exact hsig row hr (by rw [hk]; exact hid)
    · exact hsi row hr (by rw [hk]; exact hde)

section Stored

variable [HexOrder]

structure Stored (leadPortfolioId : String) (rows : List PublicLeaderOrder) (log : EventLog) :
    Prop where
  reset : log.latestReset leadPortfolioId = none
  keyed : ∀ row ∈ rows, row.Keyed
  lead : ∀ row ∈ rows, row.leadPortfolioId = leadPortfolioId
  subset : ∀ row ∈ log.sourceOrders, row.order.leadPortfolioId = leadPortfolioId →
    row.order ∈ rows
  events : ∀ order ∈ rows, ∃ row ∈ log.sourceOrders, row.order.eventKey = order.eventKey
  emitted : ∀ eventKey ∈ log.emittedEvents, eventKey.leader? = some leadPortfolioId →
    ∃ order ∈ rows, order.eventKey = eventKey

variable {leader : String} {rows : List PublicLeaderOrder} {log : EventLog}
  {order : PublicLeaderOrder}

theorem EventLog.UntouchedBy.stored (hu : log.UntouchedBy leader) : Stored leader [] log := by
  refine ⟨?_, by simp, by simp, ?_, by simp, ?_⟩
  · have hn : log.resets.filter (·.leadPortfolioId = leader) = [] := by
      rw [List.filter_eq_nil_iff]
      intro reset hm
      simpa using hu.resets reset hm
    rw [EventLog.latestReset, hn]
    rfl
  · intro row hm hle
    exact absurd hle (hu.sourceOrders row hm)
  · intro eventKey hm hl
    exact absurd hl (hu.emitted eventKey hm)

section

variable (hs : Stored leader rows log)
include hs

theorem Stored.exists_row (hm : order ∈ rows) :
    ∃ row ∈ log.epochOrders leader, row.order.identityKey = order.identityKey ∧
      row.order.executedQuantity = order.executedQuantity ∧
      row.order.updateTimeMs = order.updateTimeMs := by
  obtain ⟨row, hr, he⟩ := hs.events order hm
  have hl := (lead_eq_of_eventKey_eq he).trans (hs.lead order hm)
  exact ⟨row, (EventLog.mem_epochOrders hs.reset).mpr ⟨hr, hl⟩,
    eq_of_eventKey_eq (hs.keyed _ (hs.subset row hr hl)) (hs.keyed order hm) he⟩

theorem Stored.mem_of_epoch {row : SourceOrderEvent}
    (hr : row ∈ log.epochOrders leader) : row.order ∈ rows := by
  obtain ⟨hm, hl⟩ := (EventLog.mem_epochOrders hs.reset).mp hr
  exact hs.subset row hm hl

theorem Stored.executedSoFar_eq (key : Digest) :
    log.executedSoFar leader key = reachedQuantity key rows := by
  apply le_antisymm
  · unfold EventLog.executedSoFar
    cases hp : log.previousExecuted leader key with
    | none => exact reachedQuantity_nonneg _ _
    | some qty =>
      obtain ⟨⟨row, hr, hk, hq⟩, -⟩ :=
        EventLog.previousExecuted_eq_some_iff.mp hp
      have hle := le_reachedQuantity (hs.mem_of_epoch hr)
      rw [hk, hq] at hle
      exact hle
  · rw [reachedQuantity_le_iff]
    refine ⟨EventLog.executedSoFar_nonneg _, fun order hm hk => ?_⟩
    obtain ⟨row, hr, hi, hq, -⟩ := hs.exists_row hm
    have hle := EventLog.le_executedSoFar hr
    rw [hi, hq, hk] at hle
    exact hle

theorem Stored.deltaExponent_eq (order : PublicLeaderOrder) :
    order.deltaExponent (reachedQuantity order.identityKey rows)
        (log.previousExponent leader order.identityKey) =
      storedDeltaExponent order (reachedQuantity order.identityKey rows) := by
  have hn : log.previousExecuted leader order.identityKey = none ↔
      reachedQuantity order.identityKey rows = 0 := by
    rw [EventLog.previousExecuted_eq_none_iff_executedSoFar, hs.executedSoFar_eq]
  rw [EventLog.previousExponent, storedDeltaExponent]
  by_cases hz : reachedQuantity order.identityKey rows = 0
  · rw [hn.mpr hz, if_pos hz]
    rfl
  · rw [if_pos (Option.isSome_iff_ne_none.mpr (mt hn.mp hz)), if_neg hz]

theorem Stored.maximumUpdateTime_eq : (log.maximumUpdateTime leader).getD 0 = watermarkOf rows := by
  apply le_antisymm
  · cases hm : log.maximumUpdateTime leader with
    | none => exact (watermarkOf_le_iff.mp le_rfl).1
    | some maximum =>
      obtain ⟨row, hr, ht⟩ := List.mem_map.mp (List.max?_mem hm)
      rw [Option.getD_some, ← ht]
      exact le_watermarkOf (hs.mem_of_epoch hr)
  · rw [watermarkOf_le_iff]
    refine ⟨?_, fun order hmem => ?_⟩
    · cases hm : log.maximumUpdateTime leader with
      | none => exact le_rfl
      | some maximum =>
        obtain ⟨row, hr, ht⟩ := List.mem_map.mp (List.max?_mem hm)
        rw [Option.getD_some, ← ht]
        exact row.order.orderTimeMs_pos.le.trans row.order.orderTimeMs_le
    · obtain ⟨row, hr, -, -, ht⟩ := hs.exists_row hmem
      rw [← ht]
      exact EventLog.updateTime_le_maximum hr

end

theorem Stored.known_iff (hst : Stored leader rows log) (hl : order.leadPortfolioId = leader) :
    (∃ row ∈ log.sourceOrders, row.order.eventKey = order.eventKey) ↔
      ∃ row ∈ rows, row.eventKey = order.eventKey := by
  constructor
  · rintro ⟨row, hr, he⟩
    exact ⟨row.order, hst.subset row hr ((lead_eq_of_eventKey_eq he).trans hl), he⟩
  · rintro ⟨earlier, hm, he⟩
    obtain ⟨row, hr, hs⟩ := hst.events earlier hm
    exact ⟨row, hr, hs.trans he⟩

theorem Stored.concat {post : EventLog} (hs : Stored leader rows log)
    (hk : order.Keyed) (hle : order.leadPortfolioId = leader)
    (hr : post.resets = log.resets) (hke : log.sourceOrders ⊆ post.sourceOrders)
    (hro : ∀ row ∈ post.sourceOrders, row ∈ log.sourceOrders ∨ row.order = order)
    (hev : ∃ row ∈ post.sourceOrders, row.order.eventKey = order.eventKey)
    (he : ∀ eventKey ∈ post.emittedEvents,
      eventKey ∈ log.emittedEvents ∨ eventKey = order.eventKey) :
    Stored leader (rows ++ [order]) post := by
  refine ⟨?_, ?_, ?_, ?_, ?_, ?_⟩
  · rw [EventLog.latestReset, hr]
    exact hs.reset
  · exact List.forall_mem_append.mpr ⟨hs.keyed, List.forall_mem_singleton.mpr hk⟩
  · exact List.forall_mem_append.mpr ⟨hs.lead, List.forall_mem_singleton.mpr hle⟩
  · intro row hrow hl
    rcases hro row hrow with ho | hn
    · exact List.mem_append_left _ (hs.subset row ho hl)
    · rw [hn]
      exact List.mem_append_right _ (List.mem_singleton_self _)
  · intro earlier hm
    rcases List.mem_append.mp hm with hm | hm
    · obtain ⟨row, hrow, hkey⟩ := hs.events earlier hm
      exact ⟨row, hke hrow, hkey⟩
    · rw [List.mem_singleton.mp hm]
      exact hev
  · intro eventKey hm hl
    rcases he eventKey hm with ho | hn
    · obtain ⟨earlier, hea, hkey⟩ := hs.emitted eventKey ho hl
      exact ⟨earlier, List.mem_append_left _ hea, hkey⟩
    · exact ⟨order, List.mem_append_right _ (List.mem_singleton_self _), hn.symm⟩

theorem Stored.insert {post : EventLog} {marked : Bool} {seen : Time}
    (hs : Stored leader rows log) (hk : order.Keyed)
    (hl : order.leadPortfolioId = leader) (hr : post.resets = log.resets)
    (ha : post.sourceOrders = log.sourceOrders ++ [⟨order, marked, seen⟩])
    (he : ∀ eventKey ∈ post.emittedEvents,
      eventKey ∈ log.emittedEvents ∨ eventKey = order.eventKey) :
    Stored leader (rows ++ [order]) post ∧
      ∀ row ∈ post.sourceOrders, row ∈ log.sourceOrders ∨
        row.order = order ∧ row.isBaseline = marked := by
  have hro : ∀ row ∈ post.sourceOrders, row ∈ log.sourceOrders ∨
      row.order = order ∧ row.isBaseline = marked := by
    intro row hrow
    rw [ha] at hrow
    rcases List.mem_append.mp hrow with ho | hn
    · exact Or.inl ho
    · rw [List.mem_singleton.mp hn]
      exact Or.inr ⟨rfl, rfl⟩
  refine ⟨hs.concat hk hl hr ?_ ?_ ?_ he, hro⟩
  · rw [ha]
    exact List.subset_append_left _ _
  · exact fun row hrow => (hro row hrow).imp_right (·.1)
  · rw [ha]
    exact ⟨_, List.mem_append_right _ (List.mem_singleton_self _), rfl⟩

theorem Stored.step {st : IngestState} (hs : Stored leader rows st.log)
    (hke : order.Keyed) (hl : order.leadPortfolioId = leader) (baseline : Bool) (seen : Time) :
    ∃ post, ingestOrder leader baseline seen st order = .ok post ∧
      Stored leader (rows ++ [order]) post.log ∧
      post.maximumUpdateTimeMs = max st.maximumUpdateTimeMs order.updateTimeMs ∧
      (∀ row ∈ post.log.sourceOrders, row ∈ st.log.sourceOrders ∨
        row.order = order ∧ row.isBaseline = st.marksBaseline leader baseline order) ∧
      post.signals = st.signals ++
        if (∃ row ∈ rows, row.eventKey = order.eventKey) ∨
            st.marksBaseline leader baseline order = true then []
        else emission order (reachedQuantity order.identityKey rows)
          (storedDeltaExponent order (reachedQuantity order.identityKey rows)) := by
  have hexe := hs.executedSoFar_eq order.identityKey
  unfold ingestOrder
  dsimp only
  by_cases hk : ∃ row ∈ rows, row.eventKey = order.eventKey
  · -- the event is known, and nothing is written
    obtain ⟨row, hrow, he⟩ := (hs.known_iff hl).mpr hk
    have hi : st.log.sourceOrders.all (·.order.eventKey ≠ order.eventKey) = false := by
      simpa using ⟨row, hrow, he⟩
    rw [hi]
    refine ⟨⟨st.log, _, st.signals⟩, rfl, ?_, rfl, fun row hrow => Or.inl hrow, ?_⟩
    · exact hs.concat hke hl rfl (List.Subset.refl _) (fun row hrow => Or.inl hrow)
        ⟨row, hrow, he⟩ (fun eventKey hmem => Or.inl hmem)
    · rw [if_pos (Or.inl hk), List.append_nil]
  have hf : ∀ row ∈ st.log.sourceOrders, row.order.eventKey ≠ order.eventKey :=
    fun row hrow he => hk ((hs.known_iff hl).mp ⟨row, hrow, he⟩)
  have hi : st.log.sourceOrders.all (·.order.eventKey ≠ order.eventKey) = true := by
    simpa using hf
  have hu : order.eventKey ∉ st.log.emittedEvents := fun hmem =>
    hk (hs.emitted _ hmem (order.eventKey_leader.trans (congrArg some hl)))
  set reached := reachedQuantity order.identityKey rows with hre
  have hnil := @emission_eq_nil_iff order reached (reachedQuantity_nonneg order.identityKey rows)
    (storedDeltaExponent order reached)
  set marked := st.marksBaseline leader baseline order with hm
  set inserted := st.log.insertSourceOrder ⟨order, marked, seen⟩ with hlog
  rw [hi, hexe, hs.deltaExponent_eq]
  simp only [Bool.not_true, Bool.false_or, if_true]
  split
  · rename_i hsi
    simp only [Bool.or_eq_true, decide_eq_true_eq, sub_nonpos] at hsi
    have hr : inserted.resets = st.log.resets := rfl
    obtain ⟨hc, hro⟩ := hs.insert hke hl hr rfl fun _ hmem => Or.inl hmem
    refine ⟨_, rfl, hc, rfl, hro, ?_⟩
    rw [or_assoc] at hsi
    split
    · rw [List.append_nil]
    · rename_i hli
      have hemp := hnil.mpr (hsi.resolve_left fun hb => hli (Or.inr hb))
      rw [hemp, List.append_nil]
  · rename_i hloud
    simp only [Bool.or_eq_true, decide_eq_true_eq, sub_nonpos, not_or] at hloud
    obtain ⟨⟨hli, hg⟩, hexp⟩ := hloud
    have hem : emission order reached (storedDeltaExponent order reached) ≠ [] :=
      fun hemp => (hnil.mp hemp).elim hg hexp
    rw [if_neg (not_or.mpr ⟨hk, hli⟩)]
    unfold emission at hem ⊢
    cases hsig : NormalizedSignal.fromOrder order (order.executedQuantity - reached)
        (storedDeltaExponent order reached) with
    | error reason =>
      rw [hsig] at hem
      exact absurd rfl hem
    | ok sig =>
      have hu : order.eventKey ∉ inserted.emittedEvents := hu
      obtain ⟨post, hin, ha, hr, hn⟩ := EventLog.insertSignal_ok reached hsig hu
      obtain ⟨hc, hro⟩ := hs.insert hke hl hr ha hn
      refine ⟨⟨post, _, st.signals ++ [sig]⟩, ?_, hc, rfl, hro, rfl⟩
      show (inserted.insertSignal sig _ >>= _) = _
      rw [hin]
      rfl

end Stored

def databaseEmits (rows : List PublicLeaderOrder) (order : PublicLeaderOrder) :
    List NormalizedSignal :=
  if (∃ row ∈ rows, row.eventKey = order.eventKey) ∨ ArrivesLate rows order then []
  else emission order (reachedQuantity order.identityKey rows)
    (storedDeltaExponent order (reachedQuantity order.identityKey rows))

def databaseEmissions : List PublicLeaderOrder → List PublicLeaderOrder → List NormalizedSignal
  | _, [] => []
  | rows, order :: rest => databaseEmits rows order ++ databaseEmissions (rows ++ [order]) rest

def databaseOutputs [HexOrder] :
    List PublicLeaderOrder → List (List PublicLeaderOrder) → List (List NormalizedSignal)
  | _, [] => []
  | rows, batch :: rest =>
    databaseEmissions rows (sortedOrders batch) ::
      databaseOutputs (rows ++ sortedOrders batch) rest

def ForgottenFirst (baseline before : List PublicLeaderOrder) (first : PublicLeaderOrder) : Prop :=
  ∃ earlier between, before = earlier ++ first :: between ∧ ArrivesLate (baseline ++ earlier) first

/-- An explicit row of a new order with the payload of a one-way row that counts as
baseline. -/
def MatchesBaseline (baseline before : List PublicLeaderOrder) (order : PublicLeaderOrder) : Prop :=
  order.positionSide ≠ .both ∧
    (∀ earlier ∈ baseline ++ before, earlier.identityKey ≠ order.identityKey) ∧
    ∃ row, (row ∈ baseline ∨ ForgottenFirst baseline before row) ∧ row.positionSide = .both ∧
      row.rawPayloadHash = order.rawPayloadHash

/-- Rows after the baseline, none of which matches an ambiguous baseline row. -/
structure LiveRows (leadPortfolioId : String) (baseline before later : List PublicLeaderOrder) :
    Prop where
  derived : ∀ row ∈ later, row.KeysDerived
  lead : ∀ row ∈ later, row.leadPortfolioId = leadPortfolioId
  unmatched : ∀ earlier order after, later = earlier ++ order :: after →
    ¬ MatchesBaseline baseline (before ++ earlier) order

section Live

variable {leader : String} {baseline pre later rest : List PublicLeaderOrder}
  {order first : PublicLeaderOrder}

theorem forgottenFirst_concat : ForgottenFirst baseline (pre ++ [order]) first ↔
      ForgottenFirst baseline pre first ∨
        first = order ∧ ArrivesLate (baseline ++ pre) order := by
  constructor
  · rintro ⟨earlier, between, hs, hl⟩
    rcases List.eq_nil_or_concat between with rfl | ⟨mid, last, rfl⟩
    · obtain ⟨rfl, heq⟩ := List.append_inj hs (by simpa using congrArg List.length hs)
      obtain rfl := List.singleton_injective heq
      exact Or.inr ⟨rfl, hl⟩
    · rw [List.concat_eq_append, ← List.cons_append, ← List.append_assoc] at hs
      obtain ⟨hb, -⟩ := List.append_inj' hs rfl
      exact Or.inl ⟨earlier, mid, hb, hl⟩
  · rintro (⟨earlier, between, rfl, hl⟩ | ⟨rfl, hl⟩)
    · exact ⟨earlier, between ++ [order], by simp, hl⟩
    · exact ⟨pre, [], rfl, hl⟩

theorem ForgottenFirst.mem (hf : ForgottenFirst baseline pre first) : first ∈ pre := by
  obtain ⟨earlier, between, rfl, -⟩ := hf
  simp

theorem LiveRows.head (hl : LiveRows leader baseline pre (order :: rest)) :
    order.KeysDerived ∧ order.leadPortfolioId = leader ∧
      ¬ MatchesBaseline baseline pre order := by
  refine ⟨hl.derived order List.mem_cons_self, hl.lead order List.mem_cons_self, ?_⟩
  have hu := hl.unmatched [] order rest rfl
  rwa [List.append_nil] at hu

theorem LiveRows.tail (hl : LiveRows leader baseline pre (order :: rest)) :
    LiveRows leader baseline (pre ++ [order]) rest := by
  refine ⟨fun row hm => hl.derived row (List.mem_cons_of_mem _ hm),
    fun row hm => hl.lead row (List.mem_cons_of_mem _ hm), ?_⟩
  rintro earlier later post rfl
  have hu := hl.unmatched (order :: earlier) later post rfl
  rwa [List.append_cons] at hu

theorem LiveRows.append (hl : LiveRows leader baseline pre (later ++ rest)) :
    LiveRows leader baseline pre later ∧
      LiveRows leader baseline (pre ++ later) rest := by
  refine ⟨⟨?_, ?_, ?_⟩, ?_, ?_, ?_⟩
  · exact fun row hm => hl.derived row (List.mem_append_left _ hm)
  · exact fun row hm => hl.lead row (List.mem_append_left _ hm)
  · rintro earlier order post rfl
    exact hl.unmatched earlier order (post ++ rest) (by simp)
  · exact fun row hm => hl.derived row (List.mem_append_right _ hm)
  · exact fun row hm => hl.lead row (List.mem_append_right _ hm)
  · rintro earlier order post rfl
    have hu := hl.unmatched (later ++ earlier) order post (by simp)
    rwa [← List.append_assoc] at hu

end Live

section Database

variable [HexOrder] {leader : String} {baseline pre later : List PublicLeaderOrder}
  {order : PublicLeaderOrder} {st : IngestState}

/-- The loop of `ingest_orders` after these rows. -/
structure StoredRun (leadPortfolioId : String) (baseline before : List PublicLeaderOrder)
    (state : IngestState) : Prop where
  stored : Stored leadPortfolioId (baseline ++ before) state.log
  maximum : state.maximumUpdateTimeMs = watermarkOf (baseline ++ before)
  marked : ∀ row ∈ state.log.sourceOrders, row.order.leadPortfolioId = leadPortfolioId →
    row.order.positionSide = .both → row.isBaseline = true →
    row.order ∈ baseline ∨ ForgottenFirst baseline before row.order

variable {log : EventLog}

theorem Stored.previousExecuted_eq_none_iff {rows : List PublicLeaderOrder}
    (hs : Stored leader rows log) (key : Digest) : log.previousExecuted leader key = none ↔
      ∀ earlier ∈ rows, earlier.identityKey ≠ key := by
  rw [EventLog.previousExecuted_eq_none_iff_executedSoFar, hs.executedSoFar_eq,
    reachedQuantity_eq_zero_iff]

section

variable (hrun : StoredRun leader baseline pre st)
include hrun

theorem StoredRun.marksBaseline_iff (hu : ¬ MatchesBaseline baseline pre order) :
    st.marksBaseline leader false order = true ↔ ArrivesLate (baseline ++ pre) order := by
  have hno := hrun.stored.previousExecuted_eq_none_iff order.identityKey
  have hn : order.positionSide ≠ .both → st.log.previousExecuted leader order.identityKey = none →
      st.log.matchesAmbiguousBaseline leader order.rawPayloadHash = false := by
    intro he hp
    rw [EventLog.matchesAmbiguousBaseline, List.any_eq_false]
    intro row hr hm
    simp only [Bool.and_eq_true, decide_eq_true_eq] at hm
    obtain ⟨⟨hbo, hb⟩, hpa⟩ := hm
    obtain ⟨hmem, hl⟩ := (EventLog.mem_epochOrders hrun.stored.reset).mp hr
    exact hu ⟨he, hno.mp hp, row.order, hrun.marked row hmem hl hbo hb, hbo, hpa⟩
  unfold IngestState.marksBaseline isSourceOrderBaseline ArrivesLate
  rw [hrun.maximum, ← hno]
  cases hp : st.log.previousExecuted leader order.identityKey with
  | none =>
    by_cases he : order.positionSide = .both
    · simp [he]
    · simp [hn he hp]
  | some qty => simp

theorem StoredRun.step (hk : order.Keyed) (hle : order.leadPortfolioId = leader)
    (hu : ¬ MatchesBaseline baseline pre order) (seen : Time) :
    ∃ post, ingestOrder leader false seen st order = .ok post ∧
      StoredRun leader baseline (pre ++ [order]) post ∧
      post.signals = st.signals ++ databaseEmits (baseline ++ pre) order := by
  have hm := hrun.marksBaseline_iff hu
  obtain ⟨post, hstep, hst, hma, hr, hs⟩ :=
    hrun.stored.step hk hle false seen
  refine ⟨post, hstep, ⟨?_, ?_, ?_⟩, ?_⟩
  · rwa [← List.append_assoc]
  · rw [← List.append_assoc, watermarkOf_concat, hma, hrun.maximum]
  · intro row hrow hl hbo hb
    rw [forgottenFirst_concat]
    rcases hr row hrow with ho | ⟨hn, hf⟩
    · exact (hrun.marked row ho hl hbo hb).imp_right Or.inl
    · rw [hf, hm] at hb
      exact Or.inr (Or.inr ⟨hn, hb⟩)
  · rw [hs, databaseEmits]
    simp only [hm]

theorem StoredRun.steps (hl : LiveRows leader baseline pre later) (seen : Time) :
    ∃ post, later.foldlM (ingestOrder leader false seen) st = .ok post ∧
      StoredRun leader baseline (pre ++ later) post ∧
      post.signals = st.signals ++ databaseEmissions (baseline ++ pre) later := by
  induction later generalizing pre st with
  | nil => exact ⟨st, rfl, by rwa [List.append_nil], by simp [databaseEmissions]⟩
  | cons order rest ih =>
    obtain ⟨hd, hle, hu⟩ := hl.head
    obtain ⟨mid, hs, hm, hem⟩ :=
      hrun.step hd.keyed hle hu seen
    obtain ⟨post, hr, ha, he⟩ := ih hm hl.tail
    refine ⟨post, ?_, ?_, ?_⟩
    · rw [foldlM_cons_eq_ok_iff]
      exact ⟨mid, hs, hr⟩
    · rwa [List.append_cons]
    · rw [he, hem, databaseEmissions, List.append_assoc, List.append_assoc]

end

variable {batch : List PublicLeaderOrder}

theorem EventLog.ingestOrders_of_fold
    {flag : Bool} {seen : Time} {post : IngestState} (hr : log.latestReset leader = none)
    (hf : (sortedOrders batch).foldlM (ingestOrder leader flag seen)
      ⟨log, (log.maximumUpdateTime leader).getD 0, []⟩ = .ok post) :
    log.ingestOrders leader batch flag seen = .ok (post.log, post.signals) := by
  have he : (fun order => sourceEpochOrder order none) = id := rfl
  rw [EventLog.ingestOrders, hr, Option.map_none, he, List.map_id, hf]
  rfl

theorem StoredRun.ingestOrders {signals : List NormalizedSignal} {maximum : ℤ}
    (hrun : StoredRun leader baseline pre ⟨log, maximum, signals⟩)
    (hl : LiveRows leader baseline pre (sortedOrders batch)) (seen : Time) :
    ∃ post, log.ingestOrders leader batch false seen =
        .ok (post.log, databaseEmissions (baseline ++ pre) (sortedOrders batch)) ∧
      StoredRun leader baseline (pre ++ sortedOrders batch) post := by
  have hst : StoredRun leader baseline pre ⟨log, (log.maximumUpdateTime leader).getD 0, []⟩ :=
    ⟨hrun.stored, hrun.stored.maximumUpdateTime_eq, hrun.marked⟩
  obtain ⟨post, hf, ha, hs⟩ := hst.steps hl seen
  rw [List.nil_append] at hs
  refine ⟨post, ?_, ha⟩
  rw [← hs]
  exact EventLog.ingestOrders_of_fold hrun.stored.reset hf

theorem StoredRun.ingestBatches {signals : List NormalizedSignal} {maximum : ℤ}
    (hrun : StoredRun leader baseline pre ⟨log, maximum, signals⟩)
    {batches : List (List PublicLeaderOrder × Time)}
    (hl : LiveRows leader baseline pre ((batches.map (·.1)).flatMap sortedOrders)) :
    ∃ last, EventLog.ingestBatches leader log false batches =
      .ok (last, databaseOutputs (baseline ++ pre) (batches.map (·.1))) := by
  induction batches generalizing pre log signals maximum with
  | nil => exact ⟨log, rfl⟩
  | cons batch rest ih =>
    rw [List.map_cons, List.flatMap_cons] at hl
    obtain ⟨hb, hr⟩ := hl.append
    obtain ⟨post, hi, ha⟩ := hrun.ingestOrders hb batch.2
    obtain ⟨last, hla⟩ := ih ha hr
    refine ⟨last, ?_⟩
    rw [EventLog.ingestBatches, hi]
    show (EventLog.ingestBatches leader post.log false rest >>= _) = _
    rw [hla, List.map_cons, databaseOutputs, List.append_assoc]
    rfl

theorem Stored.baselineSteps {rows : List PublicLeaderOrder} {st : IngestState}
    (hst : Stored leader rows st.log) (hk : ∀ row ∈ batch, row.Keyed)
    (hl : ∀ row ∈ batch, row.leadPortfolioId = leader) (seen : Time) :
    ∃ post, batch.foldlM (ingestOrder leader true seen) st = .ok post ∧
      Stored leader (rows ++ batch) post.log ∧ post.signals = st.signals := by
  induction batch generalizing rows st with
  | nil => exact ⟨st, rfl, by rwa [List.append_nil], rfl⟩
  | cons order rest ih =>
    obtain ⟨mid, hstep, hm, -, -, hs⟩ := hst.step
      (hk order List.mem_cons_self) (hl order List.mem_cons_self) true seen
    have hma : st.marksBaseline leader true order = true := rfl
    rw [if_pos (Or.inr hma), List.append_nil] at hs
    obtain ⟨post, hr, ha, hsi⟩ := ih hm (fun row hmem => hk row (List.mem_cons_of_mem _ hmem))
      (fun row hmem => hl row (List.mem_cons_of_mem _ hmem))
    refine ⟨post, ?_, ?_, hsi.trans hs⟩
    · rw [foldlM_cons_eq_ok_iff]
      exact ⟨mid, hstep, hr⟩
    · rwa [List.append_cons]

theorem EventLog.UntouchedBy.ingestBatches (hu : log.UntouchedBy leader)
    {batches : List (List PublicLeaderOrder × Time)} (hk : ∀ row ∈ batch, row.Keyed)
    (hle : ∀ row ∈ batch, row.leadPortfolioId = leader)
    (hli : LiveRows leader (sortedOrders batch) []
      ((batches.map (·.1)).flatMap sortedOrders)) (seen : Time) :
    ∃ last, EventLog.ingestBatches leader log true ((batch, seen) :: batches) =
      .ok (last, [] :: databaseOutputs (sortedOrders batch) (batches.map (·.1))) := by
  have hs : ∀ row ∈ sortedOrders batch, row.Keyed :=
    fun row hm => hk row (mem_sortedOrders.mp hm)
  have hso : ∀ row ∈ sortedOrders batch, row.leadPortfolioId = leader :=
    fun row hm => hle row (mem_sortedOrders.mp hm)
  let start : IngestState := ⟨log, (log.maximumUpdateTime leader).getD 0, []⟩
  have hst : Stored leader [] start.log := hu.stored
  obtain ⟨post, hf, ha, hsi⟩ :=
    hst.baselineSteps hs hso seen
  rw [List.nil_append] at ha
  have hrun : StoredRun leader (sortedOrders batch) []
      ⟨post.log, watermarkOf (sortedOrders batch ++ []), post.signals⟩ :=
    ⟨by rwa [List.append_nil], rfl,
      fun row hm hl _ _ => Or.inl (ha.subset row hm hl)⟩
  obtain ⟨last, hla⟩ := hrun.ingestBatches hli
  rw [List.append_nil] at hla
  have hi := EventLog.ingestOrders_of_fold hu.stored.reset hf
  refine ⟨last, ?_⟩
  rw [EventLog.ingestBatches, hi, hsi]
  show (EventLog.ingestBatches leader post.log false batches >>= _) = _
  rw [hla]
  rfl

end Database

end AiQuant.CopyTrading
