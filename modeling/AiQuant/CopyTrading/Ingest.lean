import AiQuant.CopyTrading.EventLog
import AiQuant.CopyTrading.OneWayLoop

/-! Ingestion of public orders into the event log (`ingest_orders` of
`copy_trading/repository.py`) and the poll of one leader that feeds it
(`run_cycle` of `copy_trading/application.py`).  The previous quantity of an order
is looked up by identity; the signal carries only what was executed beyond it. -/
namespace AiQuant.CopyTrading
open AiQuant.Lib

def isSourceOrderBaseline (baseline hasPrevious : Bool) (updateTimeMs maximumUpdateTimeMs : ℤ)
    (matchesAmbiguousBaseline : Bool) : Bool :=
  baseline || matchesAmbiguousBaseline ||
    (!hasPrevious && updateTimeMs < maximumUpdateTimeMs)

/-- `_source_epoch_order`: after a reset every key is scoped to the new epoch. -/
def sourceEpochOrder (order : PublicLeaderOrder) (resetEventId : Option Digest) :
    PublicLeaderOrder :=
  match resetEventId with
  | none => order
  | some reset =>
    { order with
      identityKey := .epochIdentity reset order.identityKey
      eventKey := .epochEvent reset order.eventKey
      identityKey_leader := order.identityKey_leader
      eventKey_leader := order.eventKey_leader }

structure IngestState where
  log : EventLog
  maximumUpdateTimeMs : ℤ
  signals : List NormalizedSignal

/-- The two inserts behind a signal.  Neither has an `ON CONFLICT` clause, so a
repeated key aborts the transaction. -/
def EventLog.insertSignal (log : EventLog) (signal : NormalizedSignal) (previous : Decimal) :
    Except String EventLog :=
  let deltaEventId := Digest.fillDelta signal.signalId
  let occurredAt := signal.occurredAtMs * 1000
  if log.fillDeltas.any (fun row =>
        row.deltaEventId = deltaEventId || row.sourceEventKey = signal.sourceEventKey) ||
      log.signals.any (fun row =>
        row.signalId = signal.signalId || row.deltaEventId = some deltaEventId) then
    .error "COPY_SOURCE_ORDER_WRITE_FAILED"
  else
    .ok { log with
      fillDeltas := log.fillDeltas ++ [{
        deltaEventId := deltaEventId
        sourceEventKey := signal.sourceEventKey
        identityKey := signal.sourceIdentityKey
        leadPortfolioId := signal.leadPortfolioId
        previousExecutedQuantity := previous
        deltaQuantity := signal.sourceDeltaQuantity
        cumulativeExecutedQuantity := signal.sourceCumulativeQuantity
        occurredAt := occurredAt }]
      signals := log.signals ++ [{
        signalId := signal.signalId
        deltaEventId := some deltaEventId
        leadPortfolioId := signal.leadPortfolioId
        symbol := signal.symbol
        positionSide := signal.positionSide
        signalKind := signal.kind
        sourceDeltaQuantity := signal.sourceDeltaQuantity
        referencePrice := signal.referencePrice
        occurredAt := occurredAt
        signalOrigin := .publicSignal }] }

theorem EventLog.insertSignal_frame {log post : EventLog} {sig : NormalizedSignal}
    {prev : Decimal} (hi : log.insertSignal sig prev = .ok post) :
    post.sourceOrders = log.sourceOrders ∧ post.resets = log.resets := by
  simp only [EventLog.insertSignal] at hi
  split at hi
  · cases hi
  · cases hi
    exact ⟨rfl, rfl⟩

def emittedQuantity (identityKey : Digest) (signals : List NormalizedSignal) : Decimal :=
  ((signals.filter (·.sourceIdentityKey = identityKey)).map (·.sourceDeltaQuantity)).sum

@[simp] theorem emittedQuantity_nil (key : Digest) : emittedQuantity key [] = 0 := rfl

theorem emittedQuantity_append (key : Digest) (left right : List NormalizedSignal) :
    emittedQuantity key (left ++ right) = emittedQuantity key left + emittedQuantity key right := by
  simp [emittedQuantity]

theorem emittedQuantity_singleton (key : Digest) (sig : NormalizedSignal) :
    emittedQuantity key [sig] =
      if sig.sourceIdentityKey = key then sig.sourceDeltaQuantity else 0 := by
  unfold emittedQuantity
  split
  · simp [*]
  · simp [*]

section Ingest

variable [HexOrder]

def IngestState.marksBaseline (state : IngestState) (leadPortfolioId : String) (baseline : Bool)
    (order : PublicLeaderOrder) : Bool :=
  let hasPrevious := (state.log.previousExecuted leadPortfolioId order.identityKey).isSome
  let matchesAmbiguousBaseline :=
    !baseline && !hasPrevious && order.positionSide ≠ .both &&
      state.log.matchesAmbiguousBaseline leadPortfolioId order.rawPayloadHash
  isSourceOrderBaseline baseline hasPrevious order.updateTimeMs state.maximumUpdateTimeMs
    matchesAmbiguousBaseline

/-- `INSERT INTO source_order_events … ON CONFLICT DO NOTHING`. -/
def EventLog.insertSourceOrder (log : EventLog) (row : SourceOrderEvent) : EventLog :=
  { log with sourceOrders := log.sourceOrders ++ [row] }

/-- The exponent of `previous`: the stored quantities have eighteen decimals. -/
def EventLog.previousExponent (log : EventLog) (leadPortfolioId : String)
    (identityKey : Digest) : ℤ :=
  if (log.previousExecuted leadPortfolioId identityKey).isSome then -18 else 0

/-- The exponent of `order.executed_quantity - previous`. -/
def PublicLeaderOrder.deltaExponent (order : PublicLeaderOrder) (previous : Decimal)
    (previousExponent : ℤ) : ℤ :=
  FiniteDecimal.resultExponent 28 (order.executedQuantity - previous)
    (min order.spelling.executedQuantity previousExponent)

/-- The body of the loop of `ingest_orders`. -/
def ingestOrder (leadPortfolioId : String) (baseline : Bool) (observedAt : Time)
    (state : IngestState) (order : PublicLeaderOrder) : Except String IngestState :=
  let previous := state.log.executedSoFar leadPortfolioId order.identityKey
  let isBaseline := state.marksBaseline leadPortfolioId baseline order
  let inserted := state.log.sourceOrders.all (·.order.eventKey ≠ order.eventKey)
  let log := if inserted then state.log.insertSourceOrder ⟨order, isBaseline, observedAt⟩
    else state.log
  let delta := order.executedQuantity - previous
  let maximumUpdateTimeMs := max state.maximumUpdateTimeMs order.updateTimeMs
  if !inserted || isBaseline || delta ≤ 0 || order.positionSide = .both then
    .ok { state with log := log, maximumUpdateTimeMs := maximumUpdateTimeMs }
  else do
    let signal ← NormalizedSignal.fromOrder order delta (order.deltaExponent previous
      (state.log.previousExponent leadPortfolioId order.identityKey))
    let log ← log.insertSignal signal previous
    .ok ⟨log, maximumUpdateTimeMs, state.signals ++ [signal]⟩

/-- `ingest_orders`: one transaction, so an error leaves no row behind. -/
def EventLog.ingestOrders (log : EventLog) (leadPortfolioId : String)
    (orders : List PublicLeaderOrder) (baseline : Bool) (observedAt : Time) :
    Except String (EventLog × List NormalizedSignal) := do
  let resetEventId := (log.latestReset leadPortfolioId).map (·.resetEventId)
  let ordered := sortedOrders (orders.map (sourceEpochOrder · resetEventId))
  let state ← ordered.foldlM (ingestOrder leadPortfolioId baseline observedAt)
    ⟨log, (log.maximumUpdateTime leadPortfolioId).getD 0, []⟩
  .ok (state.log, state.signals)

/-- One answer of the public endpoints to the poll of a leader. -/
structure PollResponse where
  orders : List PublicLeaderOrder
  closedPositions : List ClosedLeaderPosition
  observedAt : Time

/-- The rows that a poll hands to `ingest_orders`. -/
def EventLog.pollOrders (log : EventLog) (leadPortfolioId : String) (baseline : Bool)
    (response : PollResponse) : Except String (List PublicLeaderOrder) :=
  if !baseline && response.orders.any (·.positionSide = .both) then
    resolveOneWayOrders response.orders (log.sourceOrdersForResolution leadPortfolioId)
      response.closedPositions
  else .ok response.orders

/-- The `SUCCEEDED` row of `record_poll`: an ambiguous baseline is fenced at its time. -/
def pollEvent (leadPortfolioId : String) (baseline recoveryBaseline : Bool)
    (response : PollResponse) (rowCount : ℕ) : PollEvent :=
  let identityAmbiguity := baseline &&
    (response.orders.map (·.identityKey)).dedup.length ≠ response.orders.length
  let deferredDirection := baseline && response.orders.any (·.positionSide = .both)
  let maximumUpdate := (response.orders.map (·.updateTimeMs)).max?
  {
    leadPortfolioId := leadPortfolioId
    state := .succeeded
    rowCount := rowCount
    maximumUpdateTimeMs := if identityAmbiguity then
        some (max (maximumUpdate.getD 0) (response.observedAt / 1000))
      else maximumUpdate
    reasonCodes :=
      (if recoveryBaseline then ["COPY_RECOVERY_BASELINE_NO_OWNED_POSITION"] else []) ++
        (if deferredDirection then ["COPY_BASELINE_POSITION_SIDE_EVIDENCE_DEFERRED"] else []) ++
        (if identityAmbiguity then [baselineAmbiguityFenced] else [])
    occurredAt := response.observedAt }

def EventLog.pollLeader (log : EventLog) (leadPortfolioId : String)
    (initialBaseline recoveryBaseline : Bool) (response : PollResponse) :
    Except String (EventLog × List NormalizedSignal) := do
  let baseline := initialBaseline || recoveryBaseline
  if !baseline && (log.sourceWatermark leadPortfolioId).isNone then
    throw "COPY_ORDER_HISTORY_WATERMARK_MISSING"
  let orders ← log.pollOrders leadPortfolioId baseline response
  let (ingested, signals) ← log.ingestOrders leadPortfolioId orders baseline response.observedAt
  .ok ({ ingested with
      polls := ingested.polls ++ [pollEvent leadPortfolioId baseline recoveryBaseline response
        orders.length] }, signals)

inductive IngestOutcome (leadPortfolioId : String) (baseline : Bool) (observedAt : Time)
    (order : PublicLeaderOrder) (before after : IngestState) : Prop where
  | known (row : SourceOrderEvent) (hrow : row ∈ before.log.sourceOrders)
      (hevent : row.order.eventKey = order.eventKey) (hlog : after.log = before.log)
      (hsignals : after.signals = before.signals)
  | silent
      (hfresh : ∀ row ∈ before.log.sourceOrders, row.order.eventKey ≠ order.eventKey)
      (hreason : before.marksBaseline leadPortfolioId baseline order = true ∨
        order.executedQuantity ≤
          before.log.executedSoFar leadPortfolioId order.identityKey ∨
        order.positionSide = .both)
      (hlog : after.log = before.log.insertSourceOrder
        ⟨order, before.marksBaseline leadPortfolioId baseline order, observedAt⟩)
      (hsignals : after.signals = before.signals)
  | emitted (signal : NormalizedSignal)
      (hfresh : ∀ row ∈ before.log.sourceOrders, row.order.eventKey ≠ order.eventKey)
      (hlive : before.marksBaseline leadPortfolioId baseline order = false)
      (hgrown : before.log.executedSoFar leadPortfolioId order.identityKey <
        order.executedQuantity)
      (hrows : after.log.sourceOrders =
        before.log.sourceOrders ++ [⟨order, false, observedAt⟩])
      (hresets : after.log.resets = before.log.resets)
      (hidentity : signal.sourceIdentityKey = order.identityKey)
      (hevent : signal.sourceEventKey = order.eventKey)
      (hdelta : signal.sourceDeltaQuantity = order.executedQuantity -
        before.log.executedSoFar leadPortfolioId order.identityKey)
      (hcumulative : signal.sourceCumulativeQuantity = order.executedQuantity)
      (hsignals : after.signals = before.signals ++ [signal])

theorem ingestOrder_cases {leader : String} {baseline : Bool} {seen : Time}
    {ord : PublicLeaderOrder} {pre post : IngestState}
    (hst : ingestOrder leader baseline seen pre ord = .ok post) :
    IngestOutcome leader baseline seen ord pre post ∧
      post.maximumUpdateTimeMs = max pre.maximumUpdateTimeMs ord.updateTimeMs := by
  simp only [ingestOrder] at hst
  by_cases hf : ∀ row ∈ pre.log.sourceOrders, row.order.eventKey ≠ ord.eventKey
  · have hi : pre.log.sourceOrders.all (·.order.eventKey ≠ ord.eventKey) = true := by
      simpa using hf
    simp only [hi, Bool.not_true, Bool.false_or, if_true] at hst
    split at hst
    · rename_i hsilent
      cases hst
      refine ⟨.silent hf ?_ rfl rfl, rfl⟩
      simpa [or_assoc] using hsilent
    · rename_i hloud
      simp only [Bool.or_eq_true, decide_eq_true_eq, not_or, Bool.not_eq_true, not_le] at hloud
      obtain ⟨⟨hl, hg⟩, -⟩ := hloud
      rw [bind_eq_ok_iff] at hst
      obtain ⟨sig, hs, hst⟩ := hst
      rw [bind_eq_ok_iff] at hst
      obtain ⟨log, hin, hst⟩ := hst
      cases hst
      obtain ⟨hro, hr⟩ := EventLog.insertSignal_frame hin
      obtain ⟨hid, he, hd, hc⟩ := NormalizedSignal.fromOrder_spec hs
      refine ⟨.emitted sig hf hl (sub_pos.mp hg) ?_ hr hid he hd hc rfl, rfl⟩
      rw [hro, hl]
      rfl
  · have hi : pre.log.sourceOrders.all (·.order.eventKey ≠ ord.eventKey) = false := by
      simpa using hf
    simp only [hi, Bool.not_false, Bool.true_or, if_true, Bool.false_eq_true, if_false] at hst
    cases hst
    simp only [ne_eq, not_forall, not_not, exists_prop] at hf
    obtain ⟨row, hrow, he⟩ := hf
    exact ⟨.known row hrow he rfl rfl, rfl⟩

section Effect

variable {leader : String} {baseline : Bool} {seen : Time}
  {ord : PublicLeaderOrder} {pre post : IngestState}

structure IngestEffect (leadPortfolioId : String) (baseline : Bool) (observedAt : Time)
    (order : PublicLeaderOrder) (before after : IngestState) : Prop where
  resets : after.log.resets = before.log.resets
  rows : after.log.sourceOrders = before.log.sourceOrders ∨
    after.log.sourceOrders = before.log.sourceOrders ++
      [⟨order, before.marksBaseline leadPortfolioId baseline order, observedAt⟩]
  stored : ∃ row ∈ after.log.sourceOrders, row.order.eventKey = order.eventKey
  executed : ∀ identityKey, after.log.executedSoFar leadPortfolioId identityKey =
    if order.identityKey = identityKey then
      max (before.log.executedSoFar leadPortfolioId identityKey) order.executedQuantity
    else before.log.executedSoFar leadPortfolioId identityKey
  emitted : ∀ identityKey, emittedQuantity identityKey after.signals =
    emittedQuantity identityKey before.signals +
      if before.marksBaseline leadPortfolioId baseline order then 0
      else after.log.executedSoFar leadPortfolioId identityKey -
        before.log.executedSoFar leadPortfolioId identityKey
  maximum : after.maximumUpdateTimeMs = max before.maximumUpdateTimeMs order.updateTimeMs

theorem executed_le_of_known {log : EventLog} {row : SourceOrderEvent}
    (hr : log.latestReset leader = none) (hle : ord.leadPortfolioId = leader) (hk : ord.Keyed)
    (hro : ∀ row ∈ log.sourceOrders, row.order.leadPortfolioId = leader → row.order.Keyed)
    (hrow : row ∈ log.sourceOrders) (hev : row.order.eventKey = ord.eventKey) :
    ord.executedQuantity ≤ log.executedSoFar leader ord.identityKey := by
  have hl : row.order.leadPortfolioId = leader := by
    have hke := row.order.eventKey_leader.symm.trans (hev ▸ ord.eventKey_leader)
    rw [Option.some.inj hke, hle]
  have hv := hev
  rw [hro row hrow hl, hk] at hv
  injection hv with _ he hi
  rw [← he, ← hi]
  exact EventLog.le_executedSoFar ((EventLog.mem_epochOrders hr).mpr ⟨hrow, hl⟩)

theorem ingestOrder_effect (hres : pre.log.latestReset leader = none)
    (hl : ord.leadPortfolioId = leader) (hk : ord.Keyed)
    (hro : ∀ row ∈ pre.log.sourceOrders, row.order.leadPortfolioId = leader → row.order.Keyed)
    (hsi : baseline = true ∨ ord.positionSide ≠ .both)
    (hst : ingestOrder leader baseline seen pre ord = .ok post) :
    IngestEffect leader baseline seen ord pre post := by
  obtain ⟨ho, hm⟩ := ingestOrder_cases hst
  cases ho with
  | known row hrow hev hlog hs =>
    have hle := executed_le_of_known hres hl hk hro hrow hev
    refine ⟨by rw [hlog], Or.inl (by rw [hlog]), ⟨row, hlog ▸ hrow, hev⟩, ?_, ?_, hm⟩
    · intro key
      rw [hlog]
      split
      · rename_i hkey
        subst hkey
        exact (max_eq_left hle).symm
      · rfl
    · intro key
      rw [hlog, hs]
      simp
  | silent hfresh hrea hlog hs =>
    have hre : post.log.resets = pre.log.resets := by rw [hlog]; rfl
    have hr : post.log.sourceOrders = pre.log.sourceOrders ++
        [⟨ord, pre.marksBaseline leader baseline ord, seen⟩] := by
      rw [hlog]; rfl
    have he := EventLog.executedSoFar_concat (by rw [hres]; rfl) hre hr hl
    refine ⟨hre, Or.inr hr, ?_, he, ?_, hm⟩
    · rw [hr]
      exact ⟨_, List.mem_append_right _ (List.mem_singleton_self _), rfl⟩
    · intro key
      rw [hs, he key]
      rcases hrea with hma | hle | hbo
      · simp [hma]
      · split
        · simp
        · split
          · rename_i hkey
            subst hkey
            simp [max_eq_left hle]
          · simp
      · have hb : baseline = true := hsi.resolve_right fun hne => hne hbo
        simp [IngestState.marksBaseline, isSourceOrderBaseline, hb]
  | emitted sig hfresh hli hgrown hr hre hi hev hd _ hs =>
    have he := EventLog.executedSoFar_concat (by rw [hres]; rfl) hre hr hl
    refine ⟨hre, Or.inr (by rw [hr, hli]), ?_, he, ?_, hm⟩
    · rw [hr]
      exact ⟨_, List.mem_append_right _ (List.mem_singleton_self _), rfl⟩
    · intro key
      rw [hs, emittedQuantity_append, emittedQuantity_singleton, he key, hi, hd, hli]
      by_cases hkey : ord.identityKey = key
      · subst hkey
        simp [max_eq_right hgrown.le]
      · simp [hkey]

end Effect

def EventLog.replaysBaseline (log : EventLog) (leadPortfolioId : String)
    (order : PublicLeaderOrder) : Bool :=
  (log.previousExecuted leadPortfolioId order.identityKey).isNone &&
    log.matchesAmbiguousBaseline leadPortfolioId order.rawPayloadHash

theorem IngestState.marksBaseline_eq {st : IngestState} {leader : String}
    {baseline : Bool} {ord : PublicLeaderOrder} (hs : baseline = true ∨ ord.positionSide ≠ .both)
    (ht : st.maximumUpdateTimeMs ≤ ord.updateTimeMs) : st.marksBaseline leader baseline ord =
      (baseline || st.log.replaysBaseline leader ord) := by
  unfold IngestState.marksBaseline isSourceOrderBaseline EventLog.replaysBaseline
  rcases hs with hb | hs
  · simp [hb]
  · cases baseline <;>
      cases st.log.previousExecuted leader ord.identityKey <;>
      simp [hs, not_lt.mpr ht]

section Loop

variable {leader : String} {baseline : Bool} {seen : Time}
  {orders : List PublicLeaderOrder} {pre post : IngestState}

theorem IngestEffect.replaysBaseline_eq {ord later : PublicLeaderOrder}
    (he : IngestEffect leader baseline seen ord pre post) (hr : pre.log.latestReset leader = none)
    (hl : ord.leadPortfolioId = leader) (hs : ord.positionSide ≠ .both)
    (hne : ord.identityKey ≠ later.identityKey) : post.log.replaysBaseline leader later =
      pre.log.replaysBaseline leader later := by
  unfold EventLog.replaysBaseline
  rcases he.rows with hro | hro
  · simp only [EventLog.previousExecuted, EventLog.matchesAmbiguousBaseline, EventLog.epochOrders,
      EventLog.latestReset, hro, he.resets]
  · rw [EventLog.previousExecuted_concat (by rw [hr]; rfl) he.resets hro hl,
      EventLog.matchesAmbiguousBaseline_concat hr he.resets hro hs, if_neg hne]

structure IngestInput (leadPortfolioId : String) (baseline : Bool) (state : IngestState)
    (orders : List PublicLeaderOrder) : Prop where
  reset : state.log.latestReset leadPortfolioId = none
  storedKeyed : ∀ row ∈ state.log.sourceOrders, row.order.leadPortfolioId = leadPortfolioId →
    row.order.Keyed
  lead : ∀ order ∈ orders, order.leadPortfolioId = leadPortfolioId
  keyed : ∀ order ∈ orders, order.Keyed
  side : baseline = true ∨ ∀ order ∈ orders, order.positionSide ≠ .both
  nodup : (orders.map (·.identityKey)).Nodup
  sorted : orders.Pairwise fun left right => left.updateTimeMs ≤ right.updateTimeMs
  recent : ∀ order ∈ orders, state.maximumUpdateTimeMs ≤ order.updateTimeMs

structure LoopEffect (leadPortfolioId : String) (baseline : Bool) (observedAt : Time)
    (orders : List PublicLeaderOrder) (before after : IngestState) : Prop where
  resets : after.log.resets = before.log.resets
  subset : before.log.sourceOrders ⊆ after.log.sourceOrders
  rows : ∀ row ∈ after.log.sourceOrders, row ∈ before.log.sourceOrders ∨
    row.order ∈ orders ∧ row.isBaseline = (baseline || before.log.replaysBaseline leadPortfolioId
      row.order)
  stored : ∀ order ∈ orders, ∃ row ∈ after.log.sourceOrders,
    row.order.eventKey = order.eventKey
  other : ∀ identityKey, (∀ order ∈ orders, order.identityKey ≠ identityKey) →
    after.log.executedSoFar leadPortfolioId identityKey =
      before.log.executedSoFar leadPortfolioId identityKey ∧
    emittedQuantity identityKey after.signals = emittedQuantity identityKey before.signals
  own : ∀ order ∈ orders,
    after.log.executedSoFar leadPortfolioId order.identityKey =
      max (before.log.executedSoFar leadPortfolioId order.identityKey) order.executedQuantity ∧
    emittedQuantity order.identityKey after.signals =
      emittedQuantity order.identityKey before.signals +
        if baseline || before.log.replaysBaseline leadPortfolioId order then 0
        else after.log.executedSoFar leadPortfolioId order.identityKey -
          before.log.executedSoFar leadPortfolioId order.identityKey

section Cons

variable {first : PublicLeaderOrder} {rest : List PublicLeaderOrder} {mid : IngestState}

section

variable (hi : IngestInput leader baseline pre (first :: rest))
include hi

theorem IngestInput.effect (hf : ingestOrder leader baseline seen pre first = .ok mid) :
    IngestEffect leader baseline seen first pre mid :=
  ingestOrder_effect hi.reset (hi.lead first List.mem_cons_self)
    (hi.keyed first List.mem_cons_self) hi.storedKeyed
    (hi.side.imp_right fun ha => ha first List.mem_cons_self) hf

theorem IngestInput.marksBaseline_first : pre.marksBaseline leader baseline first =
      (baseline || pre.log.replaysBaseline leader first) :=
  IngestState.marksBaseline_eq (hi.side.imp_right fun ha => ha first List.mem_cons_self)
    (hi.recent first List.mem_cons_self)

theorem IngestInput.identity_ne
    {later : PublicLeaderOrder} (hl : later ∈ rest) : first.identityKey ≠ later.identityKey := by
  have hn := hi.nodup
  rw [List.map_cons, List.nodup_cons] at hn
  intro heq
  exact hn.1 (List.mem_map.mpr ⟨later, hl, heq.symm⟩)

end

theorem IngestEffect.subset (he : IngestEffect leader baseline seen first pre mid) :
    pre.log.sourceOrders ⊆ mid.log.sourceOrders := by
  rcases he.rows with hr | hr
  · rw [hr]
    exact List.Subset.refl _
  · rw [hr]
    exact List.subset_append_left _ _

theorem IngestEffect.mem_rows (he : IngestEffect leader baseline seen first pre mid)
    {row : SourceOrderEvent} (hrow : row ∈ mid.log.sourceOrders) :
    row ∈ pre.log.sourceOrders ∨ row.order = first ∧
      row.isBaseline = pre.marksBaseline leader baseline first := by
  rcases he.rows with hr | hr
  · exact Or.inl (hr ▸ hrow)
  · rw [hr, List.mem_append, List.mem_singleton] at hrow
    rcases hrow with hrow | rfl
    · exact Or.inl hrow
    · exact Or.inr ⟨rfl, rfl⟩

section

variable (hi : IngestInput leader baseline pre (first :: rest))
include hi

section

variable (he : IngestEffect leader baseline seen first pre mid)
include he

theorem IngestInput.replaysBaseline_later {later : PublicLeaderOrder} (hl : later ∈ rest) :
    (baseline || mid.log.replaysBaseline leader later) =
      (baseline || pre.log.replaysBaseline leader later) := by
  rcases hi.side with hb | hs
  · simp [hb]
  · rw [he.replaysBaseline_eq hi.reset (hi.lead first List.mem_cons_self)
      (hs first List.mem_cons_self) (hi.identity_ne hl)]

theorem IngestInput.tail : IngestInput leader baseline mid rest := by
  have hn := hi.nodup
  rw [List.map_cons, List.nodup_cons] at hn
  have hs := List.pairwise_cons.mp hi.sorted
  refine ⟨?_, ?_, ?_, ?_, ?_, hn.2, hs.2, ?_⟩
  · rw [EventLog.latestReset, he.resets]
    exact hi.reset
  · intro row hr hl
    rcases he.mem_rows hr with ho | ⟨hnew, -⟩
    · exact hi.storedKeyed row ho hl
    · rw [hnew]
      exact hi.keyed first List.mem_cons_self
  · exact fun ord hm => hi.lead ord (List.mem_cons_of_mem _ hm)
  · exact fun ord hm => hi.keyed ord (List.mem_cons_of_mem _ hm)
  · exact hi.side.imp_right fun ha ord hm => ha ord (List.mem_cons_of_mem _ hm)
  · intro ord hm
    rw [he.maximum]
    exact max_le (hi.recent ord (List.mem_cons_of_mem _ hm)) (hs.1 ord hm)

theorem LoopEffect.cons (hlo : LoopEffect leader baseline seen rest mid post) :
    LoopEffect leader baseline seen (first :: rest) pre post := by
  have hm := hi.marksBaseline_first
  refine ⟨hlo.resets.trans he.resets, List.Subset.trans he.subset hlo.subset, ?_, ?_, ?_, ?_⟩
  · intro row hr
    rcases hlo.rows row hr with hold | ⟨hmem, hfl⟩
    · rcases he.mem_rows hold with hold | ⟨hn, hfl⟩
      · exact Or.inl hold
      · rw [hn]
        exact Or.inr ⟨List.mem_cons_self, hfl.trans hm⟩
    · exact Or.inr ⟨List.mem_cons_of_mem _ hmem, hfl.trans (hi.replaysBaseline_later he hmem)⟩
  · intro ord hmem
    rcases List.mem_cons.mp hmem with rfl | hmem
    · obtain ⟨row, hr, hev⟩ := he.stored
      exact ⟨row, hlo.subset hr, hev⟩
    · exact hlo.stored ord hmem
  · intro key ho
    have hf := ho first List.mem_cons_self
    obtain ⟨hexe, hem⟩ := hlo.other key
      fun ord hmem => ho ord (List.mem_cons_of_mem _ hmem)
    rw [hexe, hem, he.emitted, he.executed, if_neg hf]
    simp
  · intro ord hmem
    rcases List.mem_cons.mp hmem with rfl | hmem
    · obtain ⟨hexe, hem⟩ := hlo.other ord.identityKey
        fun later hl heq => hi.identity_ne hl heq.symm
      rw [hexe, hem, he.emitted, hm]
      exact ⟨by rw [he.executed, if_pos rfl], rfl⟩
    · obtain ⟨hexe, hem⟩ := hlo.own ord hmem
      have hs : mid.log.executedSoFar leader ord.identityKey =
          pre.log.executedSoFar leader ord.identityKey := by
        rw [he.executed, if_neg (hi.identity_ne hmem)]
      have hq : emittedQuantity ord.identityKey mid.signals =
          emittedQuantity ord.identityKey pre.signals := by
        rw [he.emitted, hs]
        simp
      rw [hs] at hexe hem
      rw [hq, hi.replaysBaseline_later he hmem] at hem
      exact ⟨hexe, hem⟩

end

end

end Cons

theorem ingestOrders_loop (hi : IngestInput leader baseline pre orders)
    (hrun : orders.foldlM (ingestOrder leader baseline seen) pre = .ok post) :
    LoopEffect leader baseline seen orders pre post := by
  induction orders generalizing pre with
  | nil =>
    rw [foldlM_nil_eq_ok_iff] at hrun
    subst hrun
    exact ⟨rfl, List.Subset.refl _, fun row hrow => Or.inl hrow, by simp, by simp, by simp⟩
  | cons first rest ih =>
    rw [foldlM_cons_eq_ok_iff] at hrun
    obtain ⟨mid, hf, hr⟩ := hrun
    have he := hi.effect hf
    exact .cons hi he (ih (hi.tail he) hr)

theorem EventLog.pollLeader_spec {log stored : EventLog} {initialBaseline recoveryBaseline : Bool}
    {resp : PollResponse} {signals : List NormalizedSignal} (hr : log.latestReset leader = none)
    (hpo : log.pollLeader leader initialBaseline recoveryBaseline resp = .ok (stored, signals)) :
    ∃ parts st, log.pollOrders leader (initialBaseline || recoveryBaseline) resp = .ok parts ∧
      (sortedOrders parts).foldlM (ingestOrder leader (initialBaseline || recoveryBaseline)
        resp.observedAt) ⟨log, (log.maximumUpdateTime leader).getD 0, []⟩ = .ok st ∧
      stored.sourceOrders = st.log.sourceOrders ∧ stored.resets = st.log.resets ∧
      signals = st.signals := by
  have he : (fun ord => sourceEpochOrder ord none) = id := rfl
  simp only [EventLog.pollLeader, EventLog.ingestOrders, hr, Option.map_none] at hpo
  split at hpo
  · cases hpo
  · simp only [bind_eq_ok_iff, he, List.map_id] at hpo
    obtain ⟨parts, hp, ⟨ingested, emitted⟩, ⟨st, hrun, hst⟩, hs⟩ := hpo
    cases hst
    cases hs
    exact ⟨parts, st, hp, hrun, rfl, rfl, rfl⟩

end Loop

end Ingest

end AiQuant.CopyTrading
