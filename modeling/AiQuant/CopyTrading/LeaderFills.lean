import AiQuant.CopyTrading.SourceExposure

/-! What polls add to the denominator of a reduction.  A poll stores a source row for every
order that it sees, but a delta and a signal only for what it hands on.  The exposure that the
log shows for a key grows by the fills behind the signals, and by nothing for the rows of a
baseline. -/
namespace AiQuant.CopyTrading
open AiQuant.Lib

/-- What a leader executed at one moment. -/
structure LeaderFill where
  key : VirtualPositionKey
  kind : SignalKind
  quantity : Decimal
  executedAtMs : ℤ
  eventKey : Digest
deriving DecidableEq

def LeaderFill.signedQuantity (fill : LeaderFill) : Decimal :=
  match fill.kind with
  | .increase => fill.quantity
  | .reduce => -fill.quantity

def positionAfter (fills : List LeaderFill) (key : VirtualPositionKey) : Decimal :=
  ((fills.filter (·.key = key)).map (·.signedQuantity)).sum

def NormalizedSignal.fill (signal : NormalizedSignal) : LeaderFill where
  key := signal.key
  kind := signal.kind
  quantity := signal.sourceDeltaQuantity
  executedAtMs := signal.occurredAtMs
  eventKey := signal.sourceEventKey

theorem positionAfter_append (left right : List LeaderFill) (key : VirtualPositionKey) :
    positionAfter (left ++ right) key = positionAfter left key + positionAfter right key := by
  simp [positionAfter]

theorem positionAfter_singleton (fill : LeaderFill) (key : VirtualPositionKey) :
    positionAfter [fill] key = if fill.key = key then fill.signedQuantity else 0 := by
  unfold positionAfter
  split
  · simp [*]
  · simp [*]

theorem positionAfter_perm {left right : List LeaderFill} (hp : left.Perm right)
    (key : VirtualPositionKey) : positionAfter left key = positionAfter right key :=
  ((hp.filter _).map _).sum_eq

theorem find?_of_prefix {α : Type*} {p : α → Bool} {left right : List α} {found : α}
    (he : left <+: right) (hf : left.find? p = some found) : right.find? p = some found := by
  obtain ⟨rest, rfl⟩ := he
  rw [List.find?_append, hf, Option.some_or]

theorem find?_concat {α : Type*} {p : α → Bool} {rows : List α} {last : α}
    (hn : ∀ row ∈ rows, p row = false) (hl : p last = true) :
    (rows ++ [last]).find? p = some last := by
  rw [List.find?_append, List.find?_eq_none.mpr fun row hr => Bool.eq_false_iff.mp (hn row hr),
    Option.none_or, List.find?_cons_of_pos hl]

section Exposure

variable [HexOrder]

def LeaderFill.stamp (fill : LeaderFill) : ℤ ×ₗ ℕ :=
  toLex (fill.executedAtMs, HexOrder.value fill.eventKey)

/-- The position before `cutoff`. -/
def positionBefore (fills : List LeaderFill) (key : VirtualPositionKey) (cutoff : ℤ ×ₗ ℕ) :
    Decimal :=
  positionAfter (fills.filter (·.stamp < cutoff)) key

/-- The source rows of a key since the last reset that sort before `cutoff`. -/
def EventLog.sourcesBefore (log : EventLog) (key : VirtualPositionKey) (cutoff : ℤ ×ₗ ℕ) :
    List SourceOrderEvent :=
  let resetAt := (log.latestReset key.leadPortfolioId).map (·.occurredAt)
  log.sourceOrders.filter fun source =>
    source.order.leadPortfolioId = key.leadPortfolioId && source.order.symbol = key.symbol &&
      source.order.positionSide = key.positionSide.source &&
      resetAt.all (· < source.observedAt) && source.order.sortKey < cutoff

def EventLog.exposureBefore (log : EventLog) (key : VirtualPositionKey) (cutoff : ℤ ×ₗ ℕ) :
    Decimal :=
  ((log.sourcesBefore key cutoff).flatMap log.sourceDeltas).sum

def EventLog.DeltasStored (log : EventLog) : Prop :=
  ∀ delta ∈ log.fillDeltas, ∃ source ∈ log.sourceOrders,
    source.order.eventKey = delta.sourceEventKey

structure EventLog.Grows (before after : EventLog) : Prop where
  resets : after.resets = before.resets
  sources : before.sourceOrders <+: after.sourceOrders
  deltas : before.fillDeltas <+: after.fillDeltas
  signals : before.signals <+: after.signals

structure EventLog.Records (log : EventLog) (signal : NormalizedSignal) (row : SignalRow)
    (source : SourceOrderEvent) : Prop where
  found : log.signals.find? (·.signalId = signal.signalId) = some row
  origin : row.signalOrigin = .publicSignal
  made : log.sourceOf row = some source
  stamp : source.order.sortKey = signal.fill.stamp
  observed : ((log.latestReset signal.leadPortfolioId).map (·.occurredAt)).all
    (· < source.observedAt)

structure EventLog.Ingests (before after : EventLog) (signals : List NormalizedSignal) :
    Prop where
  grows : before.Grows after
  stored : after.DeltasStored
  exposure : ∀ key cutoff, after.exposureBefore key cutoff =
    before.exposureBefore key cutoff + positionBefore (signals.map (·.fill)) key cutoff
  recorded : ∀ signal ∈ signals, ∃ row source, after.Records signal row source
  positive : ∀ signal ∈ signals, 0 < signal.sourceDeltaQuantity

variable {pre mid post : EventLog}

omit [HexOrder] in
theorem EventLog.Grows.refl (log : EventLog) : log.Grows log :=
  ⟨rfl, List.prefix_rfl, List.prefix_rfl, List.prefix_rfl⟩

omit [HexOrder] in
theorem EventLog.Grows.trans (hf : pre.Grows mid) (hs : mid.Grows post) : pre.Grows post :=
  ⟨hs.resets.trans hf.resets, hf.sources.trans hs.sources,
    hf.deltas.trans hs.deltas, hf.signals.trans hs.signals⟩

theorem EventLog.Grows.latestReset (hg : pre.Grows post) (leader : String) :
    post.latestReset leader = pre.latestReset leader := by
  simp only [EventLog.latestReset, hg.resets]

variable {row : SignalRow} {source : SourceOrderEvent}

omit [HexOrder] in
theorem EventLog.Grows.sourceOf (hg : pre.Grows post) (hs : pre.sourceOf row = some source) :
    post.sourceOf row = some source := by
  unfold EventLog.sourceOf EventLog.deltaOf at hs ⊢
  obtain ⟨delta, hd, hs⟩ := Option.bind_eq_some_iff.mp hs
  obtain ⟨deltaEventId, hid, hd⟩ := Option.bind_eq_some_iff.mp hd
  rw [hid, Option.bind_some, find?_of_prefix hg.deltas hd, Option.bind_some]
  exact find?_of_prefix hg.sources hs

variable {sig : NormalizedSignal}

theorem EventLog.Records.mono (hr : pre.Records sig row source) (hg : pre.Grows post) :
    post.Records sig row source where
  found := find?_of_prefix hg.signals hr.found
  origin := hr.origin
  made := hg.sourceOf hr.made
  stamp := hr.stamp
  observed := by
    rw [hg.latestReset]
    exact hr.observed

theorem positionBefore_append (left right : List LeaderFill) (key : VirtualPositionKey)
    (cutoff : ℤ ×ₗ ℕ) : positionBefore (left ++ right) key cutoff =
      positionBefore left key cutoff + positionBefore right key cutoff := by
  rw [positionBefore, List.filter_append, positionAfter_append]
  rfl

variable {log : EventLog}

theorem EventLog.Ingests.refl (hst : log.DeltasStored) : log.Ingests log [] where
  grows := .refl log
  stored := hst
  exposure := fun _ _ => (add_zero _).symm
  recorded := fun _ hs => absurd hs List.not_mem_nil
  positive := fun _ hs => absurd hs List.not_mem_nil

theorem EventLog.Ingests.append {first second : List NormalizedSignal}
    (hf : pre.Ingests mid first) (hse : mid.Ingests post second) :
    pre.Ingests post (first ++ second) where
  grows := hf.grows.trans hse.grows
  stored := hse.stored
  exposure := fun key cutoff => by
    rw [hse.exposure, hf.exposure, List.map_append, positionBefore_append, add_assoc]
  recorded := fun sig hs => by
    rcases List.mem_append.mp hs with hs | hs
    · obtain ⟨row, source, hr⟩ := hf.recorded sig hs
      exact ⟨row, source, hr.mono hse.grows⟩
    · exact hse.recorded sig hs
  positive := fun sig hs =>
    (List.mem_append.mp hs).elim (hf.positive sig) (hse.positive sig)

theorem EventLog.Records.sourcePositionQuantityBefore (hr : log.Records sig row source) :
    log.sourcePositionQuantityBefore sig =
      some (max 0 (log.exposureBefore sig.key sig.fill.stamp)) := by
  rw [EventLog.sourcePositionQuantityBefore, hr.found]
  dsimp only
  rw [if_neg (not_not.mpr hr.origin), hr.made, ← hr.stamp]
  simp only [hr.observed, Bool.and_true, Option.elim_some]
  rfl

def NormalizedSignal.fillDelta (signal : NormalizedSignal) (previous : Decimal) :
    SourceFillDeltaEvent where
  deltaEventId := .fillDelta signal.signalId
  sourceEventKey := signal.sourceEventKey
  identityKey := signal.sourceIdentityKey
  leadPortfolioId := signal.leadPortfolioId
  previousExecutedQuantity := previous
  deltaQuantity := signal.sourceDeltaQuantity
  cumulativeExecutedQuantity := signal.sourceCumulativeQuantity
  occurredAt := signal.occurredAtMs * 1000

def NormalizedSignal.publicRow (signal : NormalizedSignal) : SignalRow where
  signalId := signal.signalId
  deltaEventId := some (.fillDelta signal.signalId)
  leadPortfolioId := signal.leadPortfolioId
  symbol := signal.symbol
  positionSide := signal.positionSide
  signalKind := signal.kind
  sourceDeltaQuantity := signal.sourceDeltaQuantity
  referencePrice := signal.referencePrice
  occurredAt := signal.occurredAtMs * 1000
  signalOrigin := .publicSignal

omit [HexOrder] in
theorem EventLog.insertSignal_spec {prev : Decimal} (hi : log.insertSignal sig prev = .ok post) :
    (∀ delta ∈ log.fillDeltas, delta.deltaEventId ≠ .fillDelta sig.signalId ∧
        delta.sourceEventKey ≠ sig.sourceEventKey) ∧
      (∀ row ∈ log.signals, row.signalId ≠ sig.signalId ∧
        row.deltaEventId ≠ some (.fillDelta sig.signalId)) ∧
      post = { log with
        fillDeltas := log.fillDeltas ++ [sig.fillDelta prev]
        signals := log.signals ++ [sig.publicRow] } := by
  simp only [EventLog.insertSignal] at hi
  split at hi
  · cases hi
  · rename_i hf
    cases hi
    simp only [Bool.or_eq_true, List.any_eq_true, decide_eq_true_eq, not_or, not_exists,
      not_and] at hf
    exact ⟨hf.1, hf.2, rfl⟩

variable {leader : String} {base : Bool} {seen : Time}
    {ord : PublicLeaderOrder} {st next : IngestState}

theorem ingestOrder_writes (hst : ingestOrder leader base seen st ord = .ok next) :
    (next.log = st.log ∧ next.signals = st.signals) ∨
    (∀ row ∈ st.log.sourceOrders, row.order.eventKey ≠ ord.eventKey) ∧ ∃ isBaseline,
        (next.log = st.log.insertSourceOrder ⟨ord, isBaseline, seen⟩ ∧
          next.signals = st.signals) ∨
        ∃ delta exp sig prev, NormalizedSignal.fromOrder ord delta exp = .ok sig ∧
          (st.log.insertSourceOrder ⟨ord, isBaseline, seen⟩).insertSignal sig
            prev = .ok next.log ∧ next.signals = st.signals ++ [sig] := by
  simp only [ingestOrder] at hst
  by_cases hf : ∀ row ∈ st.log.sourceOrders, row.order.eventKey ≠ ord.eventKey
  · have hi : st.log.sourceOrders.all (·.order.eventKey ≠ ord.eventKey) = true := by
      simpa using hf
    refine Or.inr ⟨hf, st.marksBaseline leader base ord, ?_⟩
    simp only [hi, Bool.not_true, Bool.false_or, if_true] at hst
    split at hst
    · cases hst
      exact Or.inl ⟨rfl, rfl⟩
    · rw [bind_eq_ok_iff] at hst
      obtain ⟨sig, hs, hst⟩ := hst
      rw [bind_eq_ok_iff] at hst
      obtain ⟨log, hin, hst⟩ := hst
      cases hst
      exact Or.inr ⟨_, _, sig, _, hs, hin, rfl⟩
  · have hi : st.log.sourceOrders.all (·.order.eventKey ≠ ord.eventKey) = false := by
      simpa using hf
    simp only [hi, Bool.not_false, Bool.true_or, if_true, Bool.false_eq_true, if_false] at hst
    cases hst
    exact Or.inl ⟨rfl, rfl⟩

omit [HexOrder] in
theorem NormalizedSignal.fromOrder_fields {delta : Decimal} {exp : ℤ}
    (hs : NormalizedSignal.fromOrder ord delta exp = .ok sig) :
    sig.sourceEventKey = ord.eventKey ∧ sig.leadPortfolioId = ord.leadPortfolioId ∧
      sig.symbol = ord.symbol ∧ ord.positionSide = sig.positionSide.source ∧
      sig.occurredAtMs = ord.updateTimeMs ∧ 0 < sig.sourceDeltaQuantity := by
  unfold NormalizedSignal.fromOrder at hs
  split at hs
  · cases hs
  · rename_i hdelta
    split at hs
    · cases hs
    · rename_i side hside
      cases hs
      exact ⟨rfl, rfl, rfl, SourcePositionSide.explicit?_eq_some_iff.mp hside, rfl,
        not_le.mp (not_or.mp hdelta).1⟩

omit [HexOrder] in
theorem EventLog.sourceDeltas_eq_nil
    (hn : ∀ delta ∈ log.fillDeltas, delta.sourceEventKey ≠ source.order.eventKey) :
    log.sourceDeltas source = [] := by
  have hd : log.fillDeltas.filter (·.sourceEventKey = source.order.eventKey) = [] := by
    rw [List.filter_eq_nil_iff]
    intro delta hde hs
    exact hn delta hde (of_decide_eq_true hs)
  rw [EventLog.sourceDeltas, hd, List.flatMap_nil]

theorem NormalizedSignal.fill_stamp {delta : Decimal} {exp : ℤ}
    (hs : NormalizedSignal.fromOrder ord delta exp = .ok sig) :
    sig.fill.stamp = ord.sortKey := by
  obtain ⟨he, -, -, -, hu, -⟩ := NormalizedSignal.fromOrder_fields hs
  unfold LeaderFill.stamp NormalizedSignal.fill PublicLeaderOrder.sortKey
  rw [hu, he]

theorem EventLog.observed_of_clock
    (hc : ∀ reset ∈ log.resets, reset.occurredAt < seen) (leader : String) :
    ((log.latestReset leader).map (·.occurredAt)).all (· < seen) = true := by
  cases hr : log.latestReset leader with
  | none => rfl
  | some reset =>
    exact decide_eq_true (hc reset (List.mem_filter.mp (newest_mem _ _ hr)).1)

section Insert

variable {log : EventLog} {row : SourceOrderEvent} {sig : NormalizedSignal}
  {prev : Decimal}

omit [HexOrder] in
theorem EventLog.DeltasStored.fresh (hs : log.DeltasStored)
    (hf : ∀ source ∈ log.sourceOrders, source.order.eventKey ≠ row.order.eventKey) :
    ∀ delta ∈ log.fillDeltas, delta.sourceEventKey ≠ row.order.eventKey := by
  intro delta hd hsa
  obtain ⟨source, hso, hk⟩ := hs delta hd
  exact hf source hso (hk.trans hsa)

theorem EventLog.sourcesBefore_insertSourceOrder (log : EventLog) (row : SourceOrderEvent)
    (key : VirtualPositionKey) (cutoff : ℤ ×ₗ ℕ) :
    (log.insertSourceOrder row).sourcesBefore key cutoff = log.sourcesBefore key cutoff ++
      ({ log with sourceOrders := [row] } : EventLog).sourcesBefore key cutoff :=
  List.filter_append _ _

theorem EventLog.exposureBefore_insertSourceOrder (hst : log.DeltasStored)
    (hf : ∀ source ∈ log.sourceOrders, source.order.eventKey ≠ row.order.eventKey)
    (key : VirtualPositionKey) (cutoff : ℤ ×ₗ ℕ) :
    (log.insertSourceOrder row).exposureBefore key cutoff = log.exposureBefore key cutoff := by
  have hq : log.sourceDeltas row = [] :=
    EventLog.sourceDeltas_eq_nil (hst.fresh hf)
  have hr : (({ log with sourceOrders := [row] } : EventLog).sourcesBefore key cutoff).flatMap
      log.sourceDeltas = [] := by
    rw [List.flatMap_eq_nil_iff]
    intro source hs
    rw [List.mem_singleton.mp (List.mem_filter.mp hs).1]
    exact hq
  unfold EventLog.exposureBefore
  rw [EventLog.sourcesBefore_insertSourceOrder, List.flatMap_append]
  change ((log.sourcesBefore key cutoff).flatMap log.sourceDeltas ++ List.flatMap log.sourceDeltas
    (({ log with sourceOrders := [row] } : EventLog).sourcesBefore key cutoff)).sum = _
  rw [hr, List.append_nil]

omit [HexOrder] in
theorem EventLog.sourceDeltas_insertSignal (hi : log.insertSignal sig prev = .ok post)
    {source : SourceOrderEvent} (ho : source.order.eventKey ≠ sig.sourceEventKey) :
    post.sourceDeltas source = log.sourceDeltas source := by
  obtain ⟨hd, -, rfl⟩ := EventLog.insertSignal_spec hi
  have hs : (log.fillDeltas ++ [sig.fillDelta prev]).filter
      (·.sourceEventKey = source.order.eventKey) =
      log.fillDeltas.filter (·.sourceEventKey = source.order.eventKey) := by
    rw [List.filter_append, List.filter_cons_of_neg, List.filter_nil, List.append_nil]
    exact fun heq => ho (of_decide_eq_true heq).symm
  unfold EventLog.sourceDeltas
  dsimp only
  rw [hs]
  refine List.flatMap_congr fun delta hde => ?_
  have hid := (hd delta (List.mem_filter.mp hde).1).1
  rw [List.filter_append, List.filter_cons_of_neg, List.filter_nil, List.append_nil]
  intro heq
  rw [Bool.and_eq_true, decide_eq_true_eq] at heq
  exact hid (Option.some.inj heq.1).symm

omit [HexOrder] in
theorem EventLog.sourceDeltas_of_inserted (hi : log.insertSignal sig prev = .ok post)
    {source : SourceOrderEvent} (hs : source.order.eventKey = sig.sourceEventKey) :
    post.sourceDeltas source = [sig.fill.signedQuantity] := by
  obtain ⟨hd, hsi, rfl⟩ := EventLog.insertSignal_spec hi
  have hn : log.fillDeltas.filter (·.sourceEventKey = source.order.eventKey) = [] := by
    rw [List.filter_eq_nil_iff]
    intro delta hde hsa
    exact (hd delta hde).2 ((of_decide_eq_true hsa).trans hs)
  have hu : log.signals.filter (fun row => row.deltaEventId =
      some (sig.fillDelta prev).deltaEventId && row.signalOrigin = .publicSignal) = [] := by
    rw [List.filter_eq_nil_iff]
    intro row hr hsa
    rw [Bool.and_eq_true, decide_eq_true_eq] at hsa
    exact (hsi row hr).2 hsa.1
  unfold EventLog.sourceDeltas
  dsimp only
  have ho : [sig.fillDelta prev].filter
      (·.sourceEventKey = source.order.eventKey) = [sig.fillDelta prev] :=
    List.filter_cons_of_pos (decide_eq_true hs.symm)
  have hr : [sig.publicRow].filter (fun row => row.deltaEventId =
      some (sig.fillDelta prev).deltaEventId && row.signalOrigin = .publicSignal) =
      [sig.publicRow] := by
    refine List.filter_cons_of_pos ?_
    rw [Bool.and_eq_true]
    exact ⟨decide_eq_true rfl, rfl⟩
  rw [List.filter_append, hn, List.nil_append, ho, List.flatMap_singleton,
    List.filter_append, hu, List.nil_append, hr]
  rfl

variable {ord : PublicLeaderOrder} {delta : Decimal} {exp : ℤ} {isBaseline : Bool}
  {seen : Time}

theorem EventLog.sourcesBefore_singleton
    (hs : NormalizedSignal.fromOrder ord delta exp = .ok sig)
    (hc : ∀ reset ∈ log.resets, reset.occurredAt < seen) (key : VirtualPositionKey)
    (cutoff : ℤ ×ₗ ℕ) :
    ({ log with sourceOrders := [⟨ord, isBaseline, seen⟩] } : EventLog).sourcesBefore key cutoff =
      if sig.fill.key = key ∧ sig.fill.stamp < cutoff then
        [⟨ord, isBaseline, seen⟩] else [] := by
  obtain ⟨-, hle, hsy, hsi, -, -⟩ := NormalizedSignal.fromOrder_fields hs
  have hst := NormalizedSignal.fill_stamp hs
  have hk : sig.fill.key = key ↔ ord.leadPortfolioId = key.leadPortfolioId ∧
      ord.symbol = key.symbol ∧ ord.positionSide = key.positionSide.source := by
    cases key
    rw [hsi, PositionSide.source_injective.eq_iff, ← hle, ← hsy]
    exact VirtualPositionKey.mk.injEq .. ▸ Iff.rfl
  have ho := EventLog.observed_of_clock hc key.leadPortfolioId
  simp only [hk, hst]
  unfold EventLog.sourcesBefore
  have hl : EventLog.latestReset { log with sourceOrders := [⟨ord, isBaseline, seen⟩] }
      key.leadPortfolioId = log.latestReset key.leadPortfolioId := rfl
  rw [hl]
  simp only [List.filter_cons, List.filter_nil, ho, Bool.and_true, Bool.and_eq_true,
    decide_eq_true_eq, and_assoc]

theorem EventLog.exposureBefore_emit
    (hf : ∀ source ∈ log.sourceOrders, source.order.eventKey ≠ ord.eventKey)
    (hsi : NormalizedSignal.fromOrder ord delta exp = .ok sig)
    (hc : ∀ reset ∈ log.resets, reset.occurredAt < seen)
    (hi : (log.insertSourceOrder ⟨ord, isBaseline, seen⟩).insertSignal sig
      prev = .ok post) (key : VirtualPositionKey) (cutoff : ℤ ×ₗ ℕ) :
    post.exposureBefore key cutoff =
      log.exposureBefore key cutoff + positionBefore [sig.fill] key cutoff := by
  have he := (NormalizedSignal.fromOrder_fields hsi).1
  have hso : post.sourcesBefore key cutoff = log.sourcesBefore key cutoff ++
      if sig.fill.key = key ∧ sig.fill.stamp < cutoff then
        [⟨ord, isBaseline, seen⟩] else [] := by
    rw [← EventLog.sourcesBefore_singleton hsi hc key cutoff,
      ← EventLog.sourcesBefore_insertSourceOrder]
    obtain ⟨-, -, rfl⟩ := EventLog.insertSignal_spec hi
    rfl
  have hold : (log.sourcesBefore key cutoff).flatMap post.sourceDeltas =
      (log.sourcesBefore key cutoff).flatMap log.sourceDeltas := by
    refine List.flatMap_congr fun source hsou => ?_
    have ho := hf source (List.mem_filter.mp hsou).1
    rw [EventLog.sourceDeltas_insertSignal hi (he ▸ ho)]
    rfl
  have hnew : post.sourceDeltas ⟨ord, isBaseline, seen⟩ = [sig.fill.signedQuantity] :=
    EventLog.sourceDeltas_of_inserted hi he.symm
  unfold EventLog.exposureBefore positionBefore
  rw [hso, List.flatMap_append, hold, List.sum_append]
  congr 1
  by_cases hs : sig.fill.stamp < cutoff
  · have hfi : [sig.fill].filter (·.stamp < cutoff) = [sig.fill] :=
      List.filter_cons_of_pos (decide_eq_true hs)
    rw [hfi, positionAfter_singleton]
    by_cases hk : sig.fill.key = key
    · rw [if_pos ⟨hk, hs⟩, if_pos hk, List.flatMap_singleton, hnew, List.sum_singleton]
    · rw [if_neg fun h => hk h.1, if_neg hk]
      rfl
  · have hn : [sig.fill].filter (·.stamp < cutoff) = [] :=
      List.filter_cons_of_neg fun h => hs (of_decide_eq_true h)
    rw [if_neg fun h => hs h.2, hn]
    rfl

theorem EventLog.records_of_inserted
    (hf : ∀ source ∈ log.sourceOrders, source.order.eventKey ≠ ord.eventKey)
    (hsi : NormalizedSignal.fromOrder ord delta exp = .ok sig)
    (hc : ∀ reset ∈ log.resets, reset.occurredAt < seen)
    (hi : (log.insertSourceOrder ⟨ord, isBaseline, seen⟩).insertSignal sig prev = .ok post) :
    post.Records sig sig.publicRow ⟨ord, isBaseline, seen⟩ := by
  have he := (NormalizedSignal.fromOrder_fields hsi).1
  obtain ⟨hd, hr, rfl⟩ := EventLog.insertSignal_spec hi
  have hde : (log.fillDeltas ++ [sig.fillDelta prev]).find?
      (·.deltaEventId = .fillDelta sig.signalId) = some (sig.fillDelta prev) :=
    find?_concat (fun stored hs => decide_eq_false (hd stored hs).1) (decide_eq_true rfl)
  have hso : (log.insertSourceOrder ⟨ord, isBaseline, seen⟩).sourceOrders.find?
      (·.order.eventKey = sig.sourceEventKey) = some ⟨ord, isBaseline, seen⟩ := by
    rw [he]
    exact find?_concat (fun stored hs => decide_eq_false (hf stored hs)) (decide_eq_true rfl)
  exact {
    found := find?_concat (fun stored hs => decide_eq_false (hr stored hs).1) (decide_eq_true rfl)
    origin := rfl
    made := by
      unfold EventLog.sourceOf EventLog.deltaOf
      rw [show sig.publicRow.deltaEventId = some (.fillDelta sig.signalId) from rfl,
        Option.bind_some]
      exact (congrArg (Option.bind · _) hde).trans hso
    stamp := (NormalizedSignal.fill_stamp hsi).symm
    observed := EventLog.observed_of_clock hc sig.leadPortfolioId }

end Insert

theorem ingestOrder_ingests (hst : st.log.DeltasStored)
    (hc : ∀ reset ∈ st.log.resets, reset.occurredAt < seen)
    (hstep : ingestOrder leader base seen st ord = .ok next) :
    ∃ signals, next.signals = st.signals ++ signals ∧ st.log.Ingests next.log signals := by
  rcases ingestOrder_writes hstep with ⟨hl, hs⟩ |
    ⟨hf, isBaseline, ⟨hl, hs⟩ | ⟨delta, exp, sig, prev, hsi, hi, hs⟩⟩
  · refine ⟨[], hs.trans (List.append_nil _).symm, ?_⟩
    rw [hl]
    exact .refl hst
  · refine ⟨[], hs.trans (List.append_nil _).symm, ?_⟩
    rw [hl]
    exact {
      grows := ⟨rfl, List.prefix_append _ _, List.prefix_rfl, List.prefix_rfl⟩
      stored := fun stored hd => by
        obtain ⟨source, hso, hk⟩ := hst stored hd
        exact ⟨source, List.mem_append_left _ hso, hk⟩
      exposure := fun key cutoff => by
        rw [EventLog.exposureBefore_insertSourceOrder hst hf]
        exact (add_zero _).symm
      recorded := fun _ hm => absurd hm List.not_mem_nil
      positive := fun _ hm => absurd hm List.not_mem_nil }
  · obtain ⟨hev, -, -, -, -, hd⟩ := NormalizedSignal.fromOrder_fields hsi
    have hexp := EventLog.exposureBefore_emit hf hsi hc hi
    obtain ⟨hde, hr, hl⟩ := EventLog.insertSignal_spec hi
    have hg : st.log.Grows next.log := by
      rw [hl]
      exact ⟨rfl, List.prefix_append _ _, List.prefix_append _ _, List.prefix_append _ _⟩
    refine ⟨[sig], hs, hg, ?_, hexp, ?_, ?_⟩
    · rw [hl]
      intro stored hd
      rcases List.mem_append.mp hd with hd | hd
      · obtain ⟨source, hso, hk⟩ := hst stored hd
        exact ⟨source, List.mem_append_left _ hso, hk⟩
      · cases List.mem_singleton.mp hd
        exact ⟨⟨ord, isBaseline, seen⟩, List.mem_append_right _ List.mem_cons_self, hev.symm⟩
    · intro emitted he
      cases List.mem_singleton.mp he
      exact ⟨_, _, EventLog.records_of_inserted hf hsi hc hi⟩
    · intro emitted he
      cases List.mem_singleton.mp he
      exact hd

theorem ingestOrders_ingests {orders : List PublicLeaderOrder} (hs : st.log.DeltasStored)
    (hc : ∀ reset ∈ st.log.resets, reset.occurredAt < seen)
    (hrun : orders.foldlM (ingestOrder leader base seen) st = .ok next) :
    ∃ signals, next.signals = st.signals ++ signals ∧ st.log.Ingests next.log signals := by
  induction orders generalizing st with
  | nil =>
    rw [foldlM_nil_eq_ok_iff] at hrun
    subst hrun
    exact ⟨[], (List.append_nil _).symm, .refl hs⟩
  | cons ord rest ih =>
    rw [foldlM_cons_eq_ok_iff] at hrun
    obtain ⟨mid, hf, hr⟩ := hrun
    obtain ⟨first, hsi, hi⟩ := ingestOrder_ingests hs hc hf
    obtain ⟨later, hl, ht⟩ := ih hi.stored (by rw [hi.grows.resets]; exact hc) hr
    refine ⟨first ++ later, ?_, hi.append ht⟩
    rw [hl, hsi, List.append_assoc]

theorem EventLog.pollLeader_ingests {initialBaseline recoveryBaseline : Bool} {resp : PollResponse}
    {signals : List NormalizedSignal} (hs : log.DeltasStored)
    (hc : ∀ reset ∈ log.resets, reset.occurredAt < resp.observedAt)
    (hp : log.pollLeader leader initialBaseline recoveryBaseline resp =
      .ok (post, signals)) : log.Ingests post signals := by
  simp only [EventLog.pollLeader, EventLog.ingestOrders] at hp
  split at hp
  · cases hp
  · simp only [bind_eq_ok_iff] at hp
    obtain ⟨orders, -, ⟨ingested, emitted⟩, ⟨st, hrun, hst⟩, ha⟩ := hp
    cases hst
    cases ha
    obtain ⟨new, hn, hi⟩ := ingestOrders_ingests hs hc hrun
    rw [List.nil_append] at hn
    rw [hn]
    exact ⟨⟨hi.grows.resets, hi.grows.sources, hi.grows.deltas,
      hi.grows.signals⟩, hi.stored, hi.exposure, fun sig hsi => by
        obtain ⟨row, source, hr⟩ := hi.recorded sig hsi
        exact ⟨row, source, hr.found, hr.origin, hr.made, hr.stamp, hr.observed⟩, hi.positive⟩

end Exposure

end AiQuant.CopyTrading
