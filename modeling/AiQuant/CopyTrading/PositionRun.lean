import AiQuant.CopyTrading.PnlRun

/-! The virtual ledger over whole runs of attributed fills.  Two tables are read back by
time and digest, so what a run committed last is what the next fill finds only while
the times of a key's fills strictly increase. -/
namespace AiQuant.CopyTrading
open AiQuant.Lib

def EventLog.keyPositions (log : EventLog) (key : VirtualPositionKey) :
    List VirtualPositionEvent :=
  log.positions.filter (·.key = key)

def EventLog.keyPnls (log : EventLog) (key : VirtualPositionKey) : List LeaderPnlEvent :=
  log.pnls.filter (·.key = key)

def VirtualPositionEvent.summary (event : VirtualPositionEvent) : Digest × Decimal × Time :=
  (event.signalId, event.resultingLocalQuantity, event.occurredAt)

def LeaderPnlEvent.summary (event : LeaderPnlEvent) : Digest × Decimal × Time :=
  (event.signalId, event.resultingQuantity, event.observedAt)

section Run

variable [HexOrder] {allowed : EventLog → FillRecord → Prop} {key : VirtualPositionKey}
  {log post : EventLog}

/-- Any run of committed calls of `record_virtual_position` from a log that knows
nothing of the key.  Fills of other keys, and every other writer of the log, leave the
key's rows alone. -/
inductive AttributionRun (allowed : EventLog → FillRecord → Prop) (key : VirtualPositionKey) :
    EventLog → Prop
  | start {log : EventLog} (hpositions : log.keyPositions key = [])
      (hpnls : log.keyPnls key = []) : AttributionRun allowed key log
  | record {log after : EventLog} {fill : FillRecord} (hrun : AttributionRun allowed key log)
      (hkey : fill.signal.key = key) (hallowed : allowed log fill)
      (hrecord : log.recordVirtualPosition fill = .ok after) : AttributionRun allowed key after
  | elsewhere {log after : EventLog} (hrun : AttributionRun allowed key log)
      (hpositions : after.keyPositions key = log.keyPositions key)
      (hpnls : after.keyPnls key = log.keyPnls key) : AttributionRun allowed key after

/-- A fill that is not attributed yet happens after every fill of its key. -/
def LaterThanCommitted (log : EventLog) (fill : FillRecord) : Prop :=
  (∀ event ∈ log.positions, event.signalId ≠ fill.signal.signalId) →
    ∀ event ∈ log.keyPositions fill.signal.key, event.occurredAt < fill.occurredAt

def EventLog.committedQuantity (log : EventLog) (key : VirtualPositionKey) : Decimal :=
  ((log.keyPositions key).getLast?.map (·.resultingLocalQuantity)).getD 0

/-- The sum of the key's fills, increases positive and reductions negative. -/
def EventLog.filledTotal (log : EventLog) (key : VirtualPositionKey) : Decimal :=
  ((log.keyPositions key).map (·.localQuantityDelta)).sum

variable {fill : FillRecord} {previous res : PnlState} {slot : LeaderSlot}
    {pnl : Decimal}

section

variable (ha : log.Attributes fill post previous res slot pnl)
include ha

theorem EventLog.Attributes.keyPositions_eq : post.keyPositions fill.signal.key =
      log.keyPositions fill.signal.key ++ [fill.positionEvent] := by
  rw [ha.after_eq]
  simp [EventLog.keyPositions, FillRecord.positionEvent]

theorem EventLog.Attributes.keyPositions_of_ne
    (hk : fill.signal.key ≠ key) : post.keyPositions key = log.keyPositions key := by
  rw [ha.after_eq]
  simp [EventLog.keyPositions, FillRecord.positionEvent, hk]

theorem EventLog.Attributes.latestPosition_eq
    (hla : ∀ ev ∈ log.keyPositions fill.signal.key, ev.occurredAt < fill.occurredAt) :
    post.latestPosition fill.signal.key = some fill.positionEvent := by
  have hn : ∀ ev ∈ log.keyPositions fill.signal.key,
      ev.occurredAt < fill.positionEvent.occurredAt := hla
  have hl := newest_concat_of_lt (·.occurredAt)
    (fun ev : VirtualPositionEvent => HexOrder.value ev.positionEventId) hn
  rwa [← ha.keyPositions_eq] at hl

theorem EventLog.Attributes.keyPnls_eq : post.keyPnls fill.signal.key =
      log.keyPnls fill.signal.key ++ [fill.pnlEvent slot previous res pnl] := by
  rw [ha.after_eq]
  simp [EventLog.keyPnls, FillRecord.pnlEvent]

theorem EventLog.Attributes.committedQuantity_eq :
    post.committedQuantity fill.signal.key = fill.updated.localQuantity := by
  rw [EventLog.committedQuantity, ha.keyPositions_eq, List.getLast?_concat]
  rfl

end

structure AttributionInvariant (key : VirtualPositionKey) (log : EventLog) : Prop where
  paired : (log.keyPnls key).map (·.summary) = (log.keyPositions key).map (·.summary)
  increasing : (log.keyPositions key).Pairwise fun left right =>
    left.occurredAt < right.occurredAt
  total : log.filledTotal key = log.committedQuantity key

section

variable (hi : AttributionInvariant key log)
include hi

omit [HexOrder] in
theorem AttributionInvariant.of_key (hp : post.keyPositions key = log.keyPositions key)
    (hpn : post.keyPnls key = log.keyPnls key) : AttributionInvariant key post := by
  refine ⟨?_, ?_, ?_⟩
  · rw [hp, hpn]
    exact hi.paired
  · rw [hp]
    exact hi.increasing
  · rw [EventLog.filledTotal, EventLog.committedQuantity, hp]
    exact hi.total

omit [HexOrder] in
theorem AttributionInvariant.of_tables
    (hp : post.positions = log.positions) (hpn : post.pnls = log.pnls) :
    AttributionInvariant key post := by
  apply hi.of_key
  · rw [EventLog.keyPositions, hp]
    rfl
  · rw [EventLog.keyPnls, hpn]
    rfl

theorem AttributionInvariant.latestPosition :
    log.latestPosition key = (log.keyPositions key).getLast? :=
  newest_eq_getLast _ _ hi.increasing

theorem AttributionInvariant.latestPnl : log.latestPnl key = (log.keyPnls key).getLast? := by
  apply newest_eq_getLast
  have ht : ((log.keyPnls key).map (·.summary)).Pairwise
      fun left right => left.2.2 < right.2.2 := by
    rw [hi.paired, List.pairwise_map]
    exact hi.increasing
  rwa [List.pairwise_map] at ht

theorem AttributionInvariant.pnl_quantity :
    (pnlStateOf (log.latestPnl key)).quantity = log.committedQuantity key := by
  have hl : (log.keyPnls key).getLast?.map (·.summary) =
      (log.keyPositions key).getLast?.map (·.summary) := by
    rw [← List.getLast?_map, ← List.getLast?_map, hi.paired]
  have hq := congrArg (fun summary => (summary.map (·.2.1)).getD 0) hl
  simp only [Option.map_map] at hq
  rw [hi.latestPnl]
  exact hq

theorem AttributionInvariant.position_quantity {sig : NormalizedSignal} (hk : sig.key = key) :
    (log.loadVirtualLedger.positionFor sig).localQuantity = log.committedQuantity key := by
  rw [EventLog.positionFor_loadVirtualLedger, hk, hi.latestPosition, EventLog.committedQuantity]
  cases (log.keyPositions key).getLast? <;> rfl

theorem AttributionInvariant.previous_quantity
    (hk : fill.previous.key = key) (hp : log.previousPnl fill.previous = .ok previous) :
    fill.previous.localQuantity = log.committedQuantity key := by
  obtain ⟨hs, hq⟩ := EventLog.previousPnl_eq hp
  rw [← hq, hs, hk]
  exact hi.pnl_quantity

theorem AttributionInvariant.previousPnl_ne_mismatch {previous : VirtualPosition}
    (hk : previous.key = key) (hq : previous.localQuantity = log.committedQuantity key) :
    log.previousPnl previous ≠ .error "COPY_LEADER_PNL_QUANTITY_MISMATCH" := by
  have hr := hi.pnl_quantity
  unfold EventLog.previousPnl
  rw [hk]
  cases hl : log.latestPnl key with
  | none =>
    dsimp only
    split
    · intro he
      injection he with hc
      exact absurd hc (by decide)
    · intro he
      cases he
  | some ev =>
    rw [hl] at hr
    have heq : ev.resultingQuantity = previous.localQuantity :=
      (show ev.resultingQuantity = _ from hr).trans hq.symm
    dsimp only
    rw [if_neg (not_not.mpr heq)]
    intro he
    cases he

end

theorem AttributionInvariant.record (hi : AttributionInvariant fill.signal.key log)
    (hl : LaterThanCommitted log fill) (hr : log.recordVirtualPosition fill = .ok post) :
    AttributionInvariant fill.signal.key post := by
  obtain ⟨hv, hu | ⟨previous, res, slot, pnl, ha⟩⟩ :=
    EventLog.recordVirtualPosition_cases hr
  · rw [hu.1]
    exact hi
  have hp := hi.previous_quantity hv.1 ha.previous_eq
  constructor
  · rw [ha.keyPositions_eq, ha.keyPnls_eq, List.map_append, List.map_append, hi.paired]
    rfl
  · rw [ha.keyPositions_eq, List.pairwise_append]
    refine ⟨hi.increasing, List.pairwise_singleton _ _, ?_⟩
    intro ev hm last hla
    rw [List.mem_singleton.mp hla]
    exact hl ha.fresh ev hm
  · have ht : post.filledTotal fill.signal.key =
        log.filledTotal fill.signal.key + fill.localDelta := by
      simp only [EventLog.filledTotal, ha.keyPositions_eq, List.map_append,
        List.map_cons, List.map_nil, List.sum_append, List.sum_singleton]
      rfl
    rw [ht, ha.committedQuantity_eq, hi.total, ← hp, FillRecord.localDelta, add_sub_cancel]

theorem AttributionRun.invariant (hr : AttributionRun LaterThanCommitted key log) :
    AttributionInvariant key log := by
  induction hr with
  | start hp hpn =>
    constructor
    · rw [hp, hpn]
      rfl
    · rw [hp]
      exact List.Pairwise.nil
    · simp [EventLog.filledTotal, EventLog.committedQuantity, hp]
  | record _ hkey hlater hrecord ih =>
    subst hkey
    exact ih.record hlater hrecord
  | elsewhere _ hp hpn ih =>
    constructor
    · rw [hp, hpn]
      exact ih.paired
    · rw [hp]
      exact ih.increasing
    · rw [EventLog.filledTotal, EventLog.committedQuantity, hp]
      exact ih.total

/-- What a fill on top of the loaded ledger can rely on. -/
structure AppliesOnTop (log : EventLog) (key : VirtualPositionKey) : Prop where
  position_last : log.latestPosition key = (log.keyPositions key).getLast?
  pnl_last : log.latestPnl key = (log.keyPnls key).getLast?
  ledger_last : log.loadVirtualLedger.get? key =
    (log.keyPositions key).getLast?.map (·.position)
  accepted : ∀ fill : FillRecord, fill.signal.key = key →
    fill.previous.localQuantity =
      (log.loadVirtualLedger.positionFor fill.signal).localQuantity →
    log.recordVirtualPosition fill ≠ .error "COPY_LEADER_PNL_QUANTITY_MISMATCH" ∧
      ∀ after, log.recordVirtualPosition fill = .ok after →
        (∀ event ∈ log.positions, event.signalId ≠ fill.signal.signalId) →
        after.committedQuantity key = log.filledTotal key + fill.localDelta

/-- While every fill of a key is committed at a later time than the ones before it, both
lookups return the last committed event and the next fill is applied on top of all
earlier ones. -/
theorem applies_on_top_of_later_fills (hrun : AttributionRun LaterThanCommitted key log) :
    AppliesOnTop log key := by
  have hi := hrun.invariant
  refine ⟨hi.latestPosition, hi.latestPnl, ?_, ?_⟩
  · rw [EventLog.get?_loadVirtualLedger, hi.latestPosition]
  · intro fill hk hq
    rw [hi.position_quantity hk] at hq
    constructor
    · intro hm
      rcases EventLog.recordVirtualPosition_error hm with hc | ⟨hv, he⟩
      · exact absurd hc (by decide)
      rcases he with hp | hsl | ⟨previous, -, hup⟩
      · exact absurd hp (hi.previousPnl_ne_mismatch (hv.1.trans hk) hq)
      · exact absurd (EventLog.fillSlot_error hsl) (by decide)
      · exact absurd (leaderPnlUpdate_error hup) (by decide)
    · intro post hr hf
      obtain ⟨hv, hu | ⟨previous, res, slot, pnl, ha⟩⟩ :=
        EventLog.recordVirtualPosition_cases hr
      · obtain ⟨-, ev, hmem, hs⟩ := hu
        exact absurd hs (hf ev hmem)
      subst hk
      rw [ha.committedQuantity_eq, hi.total, ← hq, FillRecord.localDelta, add_sub_cancel]

end Run

section SameInstant

def entrySignal (text : String) : NormalizedSignal where
  signalId := .external text
  sourceEventKey := .external text
  sourceIdentityKey := .external text
  leadPortfolioId := "1"
  symbol := "BTCUSDT"
  positionSide := .long
  kind := .increase
  sourceDeltaQuantity := 1
  sourceCumulativeQuantity := 1
  referencePrice := 100
  occurredAtMs := 1767225599000

def longKey : VirtualPositionKey := ⟨"1", "BTCUSDT", .long⟩

def unitEntry (text : String) (held : ℕ) (occurredAt : Time) : FillRecord where
  signal := entrySignal text
  previous := ⟨longKey, held, held, Nat.cast_nonneg held, Nat.cast_nonneg held⟩
  updated := ⟨longKey, held + 1, held + 1, by positivity, by positivity⟩
  referencePrice := 100
  leverage := 10
  occurredAt := occurredAt

def firstEntry : String := "7ea9855b61f4d84b901c80c35d40b157404c1d1bfba5a3116d22b4eb232f7d9b"
def secondEntry : String := "9b2e4922b1451888733d9953a23fb8f65df99ae7d80739b1dffe35b384e202c1"

def newYear : Time := 1767225600000000

def firstFill : FillRecord := unitEntry firstEntry 0 newYear
def secondFill : FillRecord := unitEntry secondEntry 1 newYear

def firstPnl : LeaderPnlEvent := firstFill.pnlEvent .longTerm ⟨0, 0, 0⟩ ⟨1, 100, 0⟩ 0
def secondPnl : LeaderPnlEvent := secondFill.pnlEvent .longTerm ⟨1, 100, 0⟩ ⟨2, 100, 0⟩ 0

/-- The SHA-256 values of the four documents that the two fills at this instant hash.
The second position event sorts before the first, the second PnL event after it. -/
local instance newYearHexOrder : HexOrder where
  value digest :=
    if digest = firstFill.positionEventId then
      0xe50d9252bf5d2d59e1b286aed00b87a45de9e88dfaecd7aae31d2faa86c96eca
    else if digest = secondFill.positionEventId then
      0x8f8b709615d7e7d6fdf1fe7bfc3b2321dd89130cfabd6b9df29f4a0c1bb001ef
    else if digest = firstPnl.pnlEventId then
      0x2a7c51b1dd36b92b798de2846e5105d0b8c932caa9edb469ea580756b9cfb08a
    else if digest = secondPnl.pnlEventId then
      0xdb0facdf58356ae7761075c2fb9e25a278eaedfde1355d26f41f47e3fb3e1543
    else 0

def oneEntry : EventLog :=
  okValue (assignedLog.recordVirtualPosition firstFill) (by with_unfolding_all decide)

def twoEntriesAtOnce : EventLog :=
  okValue (oneEntry.recordVirtualPosition secondFill) (by with_unfolding_all decide)

def twoEntries : EventLog :=
  okValue (oneEntry.recordVirtualPosition (unitEntry secondEntry 1 (newYear + 1)))
    (by with_unfolding_all decide)

theorem attributionRun_oneEntry {allowed : EventLog → FillRecord → Prop}
    (ha : allowed assignedLog firstFill) : AttributionRun allowed longKey oneEntry :=
  .record (.start (by decide) (by decide)) rfl ha (eq_ok_okValue _)

theorem two_entries_apart_applied_on_top :
    AppliesOnTop twoEntries longKey ∧ twoEntries.filledTotal longKey = 2 := by
  have hf : LaterThanCommitted assignedLog firstFill := by
    intro _ ev hm
    simp [EventLog.keyPositions, assignedLog] at hm
  have hs : LaterThanCommitted oneEntry (unitEntry secondEntry 1 (newYear + 1)) := by
    intro _
    with_unfolding_all decide
  have hr : AttributionRun LaterThanCommitted longKey twoEntries :=
    .record (attributionRun_oneEntry hf)
      (rfl : (unitEntry secondEntry 1 (newYear + 1)).signal.key = longKey) hs
      (eq_ok_okValue _)
  exact ⟨applies_on_top_of_later_fills hr, by with_unfolding_all decide⟩

/-- At one instant the loaded ledger knows one unit and the PnL ledger two, so the next
fill on top of the loaded ledger is refused. -/
theorem two_entries_at_once_mismatch : ¬ ∀ [HexOrder] (key : VirtualPositionKey) (log : EventLog),
        AttributionRun (fun _ _ => True) key log → AppliesOnTop log key := by
  intro hc
  have hrun : AttributionRun (fun _ _ => True) longKey twoEntriesAtOnce :=
    .record (attributionRun_oneEntry trivial)
      (rfl : secondFill.signal.key = longKey) trivial (eq_ok_okValue _)
  have ho := @hc newYearHexOrder longKey twoEntriesAtOnce hrun
  have hl : (unitEntry "third" 1 (newYear + 1)).previous.localQuantity =
      (twoEntriesAtOnce.loadVirtualLedger.positionFor (entrySignal "third")).localQuantity := by
    with_unfolding_all decide
  have hr : twoEntriesAtOnce.recordVirtualPosition (unitEntry "third" 1 (newYear + 1)) =
      .error "COPY_LEADER_PNL_QUANTITY_MISMATCH" := by
    with_unfolding_all decide
  exact (ho.accepted _ rfl hl).1 hr

end SameInstant

end AiQuant.CopyTrading
