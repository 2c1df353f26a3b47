import AiQuant.CopyTrading.Signals

/-! Leader slots: `apply_slot_selection` and `reconcile_pending_slot_replacements` of
`copy_trading/repository.py`.  Each is one transaction under the advisory lock of the slots; a
call that raises leaves the tables as they were.  Rows that only the audit reads (decisions of
the selection, backups, notifications) are left out. -/
namespace AiQuant.CopyTrading
open AiQuant.Lib

def SelectionStrategy.slots : SelectionStrategy → List LeaderSlot
  | .longTerm => [.longTerm]
  | .shortTerm => [.shortTerm1, .shortTerm2]

def leaderSlots : List LeaderSlot :=
  [.longTerm, .shortTerm1, .shortTerm2, .custom1, .custom2, .custom3, .custom4, .custom5, .custom6,
    .custom7]

/-- `slot_replacement_wait`: a day, or two hours. -/
def slotReplacementWait (slot : LeaderSlot) : Time :=
  if slot = .longTerm then 86400000000 else 7200000000

/-- A row of `leader_slot_events` with action `CLEARED`. -/
structure SlotClearingEvent where
  slotEventId : Digest
  slot : LeaderSlot
  occurredAt : Time

structure LeaderLifecycleEvent where
  eventId : Digest
  leadPortfolioId : String
  state : LeaderLifecycle
  selectionRunId : Option Digest
  reasonCodes : List String
  occurredAt : Time
deriving DecidableEq

inductive LeaderLockState where
  | locked | unlocked
deriving DecidableEq

structure LeaderLockEvent where
  lockEventId : Digest
  leadPortfolioId : String
  state : LeaderLockState
  occurredAt : Time

structure SlotReplacementEvent where
  replacementEventId : Digest
  replacementId : Digest
  selectionRunId : Digest
  slot : LeaderSlot
  incumbent : String
  candidate : String
  state : SlotReplacementState
  requestedAt : Time
  expiresAt : Time
  actorId : String
  reasonCodes : List String
  occurredAt : Time
deriving DecidableEq

/-- The tables of the slots beside the event log, whose `slotAssignments` are the rows of
`leader_slot_events` with action `ASSIGNED`. -/
structure SlotLog where
  log : EventLog
  slotClearings : List SlotClearingEvent := []
  lifecycles : List LeaderLifecycleEvent := []
  locks : List LeaderLockEvent := []
  replacements : List SlotReplacementEvent := []
  selectionRuns : List Digest := []

/-- A row of `leader_slot_events`; a cleared slot has no occupant. -/
structure SlotRow where
  slotEventId : Digest
  slot : LeaderSlot
  occupant : Option String
  occurredAt : Time

def LeaderSlotEvent.row (event : LeaderSlotEvent) : SlotRow :=
  ⟨event.slotEventId, event.slot, some event.leadPortfolioId, event.occurredAt⟩

def SlotClearingEvent.row (event : SlotClearingEvent) : SlotRow :=
  ⟨event.slotEventId, event.slot, none, event.occurredAt⟩

def SlotLog.slotRows (state : SlotLog) : List SlotRow :=
  state.log.slotAssignments.map (·.row) ++ state.slotClearings.map (·.row)

def SlotLog.appendAssignment (state : SlotLog) (event : LeaderSlotEvent) : SlotLog :=
  { state with log := { state.log with slotAssignments := state.log.slotAssignments ++ [event] } }

def SlotLog.appendLifecycle (state : SlotLog) (event : LeaderLifecycleEvent) : SlotLog :=
  { state with lifecycles := state.lifecycles ++ [event] }

def SlotLog.appendReplacement (state : SlotLog) (event : SlotReplacementEvent) : SlotLog :=
  { state with replacements := state.replacements ++ [event] }

section Queries

variable [HexOrder]

def SlotLog.latestSlotRow (state : SlotLog) (slot : LeaderSlot) : Option SlotRow :=
  newest (·.occurredAt) (fun row => HexOrder.value row.slotEventId)
    (state.slotRows.filter (·.slot = slot))

/-- `current_slots.get(slot)`: the occupant of the latest row, if it is `ASSIGNED`. -/
def SlotLog.currentSlot (state : SlotLog) (slot : LeaderSlot) : Option String :=
  (state.latestSlotRow slot).bind (·.occupant)

def SlotLog.latestLeaderLifecycle (state : SlotLog) (leadPortfolioId : String) :
    Option LeaderLifecycle :=
  (newest (·.occurredAt) (fun event => HexOrder.value event.eventId)
    (state.lifecycles.filter (·.leadPortfolioId = leadPortfolioId))).map (·.state)

def SlotLog.lockedLeaderIds (state : SlotLog) : List String :=
  (state.locks.map (·.leadPortfolioId)).dedup.filter fun leadPortfolioId =>
    (newest (·.occurredAt) (fun event => HexOrder.value event.lockEventId)
      (state.locks.filter (·.leadPortfolioId = leadPortfolioId))).any (·.state = .locked)

def latestReplacement (events : List SlotReplacementEvent) (replacementId : Digest) :
    Option SlotReplacementEvent :=
  newest (·.occurredAt) (fun event => HexOrder.value event.replacementEventId)
    (events.filter (·.replacementId = replacementId))

/-- The latest events of the replacements that are still `REQUESTED`. -/
def openReplacements (events : List SlotReplacementEvent) : List SlotReplacementEvent :=
  ((events.map (·.replacementId)).dedup.filterMap (latestReplacement events)).filter
    (·.state = .requested)

def EventLog.sourceOccurredAt (log : EventLog) (event : VirtualPositionEvent) : Time :=
  ((log.signals.find? (·.signalId = event.signalId)).map (·.occurredAt)).getD event.occurredAt

def EventLog.leaderPositions (log : EventLog) (leadPortfolioId : String) :
    List VirtualPositionEvent :=
  ((log.positions.map (·.key)).dedup.filter (·.leadPortfolioId = leadPortfolioId)).filterMap
    log.latestPosition

def EventLog.leaderEntryDecisions (log : EventLog) (leadPortfolioId : String) :
    List SignalDecisionEvent :=
  (log.signals.filter fun row =>
    row.leadPortfolioId = leadPortfolioId && row.signalKind = .increase &&
      log.claims.any (·.signalId = row.signalId)).filterMap (log.latestDecision ·.signalId)

/-- `_leader_owned_exposure_state`: whether the leader owns anything, and when it was
cleared by the times of the leader's own orders. -/
def EventLog.leaderOwnedExposureState (log : EventLog) (leadPortfolioId : String)
    (requestedAt : Time) : Bool × Time :=
  let positions := log.leaderPositions leadPortfolioId
  let decisions := log.leaderEntryDecisions leadPortfolioId
  (positions.any (0 < ·.resultingLocalQuantity) ||
      decisions.any (·.state ∈ [.approved, .submitted, .uncertain]),
    max requestedAt (max ((positions.map log.sourceOccurredAt).max?.getD requestedAt)
      ((decisions.map (·.occurredAt)).max?.getD requestedAt)))

def selectedLifecycle : Option LeaderLifecycle → LeaderLifecycle
  | some .observeOnly => .active
  | some .active => .active
  | _ => .observeOnly

/-- `_append_slot_replacement_terminal`. -/
def SlotReplacementEvent.terminal (row : SlotReplacementEvent) (state : SlotReplacementState)
    (reasonCode : String) (occurredAt : Time) : SlotReplacementEvent :=
  { row with
    replacementEventId := .slotReplacementEvent row.replacementId state
    state := state
    actorId := "slot-replacement-reconciler"
    reasonCodes := [reasonCode]
    occurredAt := occurredAt }

def SlotLog.supersedeOpenSlotReplacements (state : SlotLog) (slot : LeaderSlot)
    (supersedingSelectionRunId : Digest) (occurredAt : Time) : SlotLog :=
  ((openReplacements (state.replacements.filter (·.slot = slot))).filter
    (·.selectionRunId ≠ supersedingSelectionRunId)).foldl
    (fun state row => state.appendReplacement (row.terminal .superseded
      "COPY_SLOT_REPLACEMENT_SUPERSEDED_BY_NEW_SELECTION" occurredAt)) state

end Queries

/-- The arguments of `apply_slot_selection` that decide about the slots. -/
structure SlotSelection where
  candidateIds : List String
  selectedLeaderIds : List String
  strategy : SelectionStrategy
  scheduledFor : Time
  candidateDigest : Digest
  policyDigest : Digest
  occurredAt : Time
  backupLeaderIds : List (LeaderSlot × String) := []

def SlotSelection.selectionRunId (selection : SlotSelection) : Digest :=
  .selectionRun selection.candidateDigest selection.policyDigest selection.scheduledFor
    selection.strategy

def SlotSelection.slotAssignments (selection : SlotSelection) : List (LeaderSlot × String) :=
  selection.strategy.slots.zip selection.selectedLeaderIds

/-- `strategy.value`. -/
def SelectionStrategy.text : SelectionStrategy → String
  | .longTerm => "LONG_TERM"
  | .shortTerm => "SHORT_TERM"

def SelectionStrategy.actorId : SelectionStrategy → String
  | .longTerm => "selector:long_term"
  | .shortTerm => "selector:short_term"

inductive SlotSelectionStatus where
  | unchanged | lockedUnchanged | blockedByLeaderLock | waitingForPositionClose | assigned
  | replaced
deriving DecidableEq

/-- The checks of the arguments alone. -/
def SlotSelection.WellFormed (selection : SlotSelection) : Prop :=
  selection.selectedLeaderIds.length = selection.strategy.slots.length ∧
    selection.selectedLeaderIds.Nodup ∧
    (∀ backup ∈ selection.backupLeaderIds, backup.1 ∈ selection.strategy.slots ∧ backup.2 ≠ "")

instance (selection : SlotSelection) : Decidable selection.WellFormed :=
  inferInstanceAs (Decidable
    (selection.selectedLeaderIds.length = selection.strategy.slots.length ∧
      selection.selectedLeaderIds.Nodup ∧
      (∀ backup ∈ selection.backupLeaderIds,
        backup.1 ∈ selection.strategy.slots ∧ backup.2 ≠ "")))

section Selection

variable [HexOrder]

/-- The first check of `apply_slot_selection` on the tables that fails. -/
def SlotLog.selectionRefusal (state : SlotLog) (selection : SlotSelection) : Option String :=
  let slots := selection.strategy.slots
  if selection.selectedLeaderIds.any fun leader =>
      state.latestLeaderLifecycle leader = some .draining &&
        leader ∈ state.log.leadersWithOwnedExposure then
    some "copy draining leader with a position cannot be reassigned"
  else if selection.selectedLeaderIds.any fun leader =>
      leader ∉ selection.candidateIds && !slots.any fun slot =>
        state.currentSlot slot = some leader && leader ∈ state.lockedLeaderIds then
    some "copy slot selection leader IDs are invalid"
  else if selection.backupLeaderIds.any fun backup =>
      !(state.currentSlot backup.1).any fun incumbent => incumbent ∈ state.lockedLeaderIds &&
        backup.2 ≠ incumbent && backup.2 ∈ selection.candidateIds then
    some "copy locked slot backup is invalid"
  else if selection.selectedLeaderIds.any fun leader =>
      leaderSlots.any fun slot => slot ∉ slots && state.currentSlot slot = some leader then
    some "copy leader cannot occupy multiple slots"
  else if selection.slotAssignments.any fun assignment =>
      slots.any fun other =>
        other ≠ assignment.1 && state.currentSlot other = some assignment.2 then
    some "copy leader cannot rotate between target slots"
  else none

def SlotLog.slotStatus (state : SlotLog) (slot : LeaderSlot) (leader : String) :
    SlotSelectionStatus :=
  match state.currentSlot slot with
  | none => .assigned
  | some incumbent =>
    if incumbent = leader then
      if leader ∈ state.lockedLeaderIds then .lockedUnchanged else .unchanged
    else if incumbent ∈ state.lockedLeaderIds then .blockedByLeaderLock
    else if incumbent ∈ state.log.leadersWithOwnedExposure then .waitingForPositionClose
    else .replaced

/-- The `REQUESTED` event of a replacement that waits for the incumbent. -/
def SlotSelection.requestedReplacement (selection : SlotSelection) (slot : LeaderSlot)
    (incumbent leader : String) : SlotReplacementEvent :=
  let replacementId := Digest.slotReplacement leader incumbent selection.selectionRunId slot
  { replacementEventId := .slotReplacementEvent replacementId .requested
    replacementId := replacementId
    selectionRunId := selection.selectionRunId
    slot := slot
    incumbent := incumbent
    candidate := leader
    state := .requested
    requestedAt := selection.occurredAt
    expiresAt := selection.occurredAt + slotReplacementWait slot
    actorId := selection.strategy.actorId
    reasonCodes := ["COPY_SLOT_REPLACEMENT_WAITING_FOR_EXPOSURE_CLOSE"]
    occurredAt := selection.occurredAt }

/-- One slot of the loop over the selected leaders; `start` are the tables as they were read. -/
def SlotLog.selectSlot (start : SlotLog) (selection : SlotSelection) (state : SlotLog)
    (assignment : LeaderSlot × String) : SlotLog :=
  let superseded := state.supersedeOpenSlotReplacements assignment.1 selection.selectionRunId
    selection.occurredAt
  match start.currentSlot assignment.1 with
  | none => superseded
  | some incumbent =>
    if start.slotStatus assignment.1 assignment.2 = .waitingForPositionClose then
      superseded.appendReplacement
        (selection.requestedReplacement assignment.1 incumbent assignment.2)
    else superseded

def SlotLog.directAssignments (state : SlotLog) (selection : SlotSelection) :
    List (LeaderSlot × String) :=
  selection.slotAssignments.filter fun assignment =>
    state.slotStatus assignment.1 assignment.2 ∈ [.assigned, .replaced]

/-- `final_slots.get(slot)`. -/
def SlotLog.finalSlot (state : SlotLog) (selection : SlotSelection) (slot : LeaderSlot) :
    Option String :=
  (((state.directAssignments selection).find? (·.1 = slot)).map (·.2)).or (state.currentSlot slot)

def SlotSelection.slotEvent (selection : SlotSelection) (assignment : LeaderSlot × String) :
    LeaderSlotEvent where
  slotEventId := .slotAssignment assignment.2 selection.selectionRunId assignment.1
  slot := assignment.1
  leadPortfolioId := assignment.2
  occurredAt := selection.occurredAt

def SlotSelection.lifecycleEvent (selection : SlotSelection) (leader : String)
    (lifecycle : LeaderLifecycle) (reasonCode : String) : LeaderLifecycleEvent where
  eventId := .selectionLifecycle leader selection.selectionRunId lifecycle
  leadPortfolioId := leader
  state := lifecycle
  selectionRunId := some selection.selectionRunId
  reasonCodes := [reasonCode]
  occurredAt := selection.occurredAt

def SlotLog.selectedDirect (state : SlotLog) (selection : SlotSelection) : List String :=
  (selection.slotAssignments.filter fun assignment => state.slotStatus assignment.1 assignment.2 ∈
    [.unchanged, .lockedUnchanged, .assigned, .replaced]).map (·.2)

/-- `displaced - final_assigned`. -/
def SlotLog.retiredLeaders (state : SlotLog) (selection : SlotSelection) : List String :=
  ((selection.slotAssignments.filter fun assignment =>
      state.slotStatus assignment.1 assignment.2 = .replaced).filterMap
    (state.currentSlot ·.1)).dedup.filter fun leader =>
      leaderSlots.all fun slot => state.finalSlot selection slot ≠ some leader

def SlotLog.lifecycleChanges (state : SlotLog) (selection : SlotSelection) :
    List LeaderLifecycleEvent :=
  (state.selectedDirect selection).map (fun leader => selection.lifecycleEvent leader
    (selectedLifecycle (state.latestLeaderLifecycle leader))
    ("COPY_" ++ selection.strategy.text ++ "_SLOT_SELECTED")) ++
  (state.retiredLeaders selection).map fun leader =>
    selection.lifecycleEvent leader .retired "COPY_SLOT_ROTATION_RETIRED"

def SlotLog.commitSelection (state : SlotLog) (selection : SlotSelection) : SlotLog :=
  let registered := { state with
    selectionRuns := state.selectionRuns ++ [selection.selectionRunId] }
  let looped := selection.slotAssignments.foldl (state.selectSlot selection) registered
  let assigned := ((state.directAssignments selection).map selection.slotEvent).foldl
    SlotLog.appendAssignment looped
  (state.lifecycleChanges selection).foldl SlotLog.appendLifecycle assigned

/-- `apply_slot_selection`: a selection that has run before changes nothing. -/
def SlotLog.applySlotSelection (state : SlotLog) (selection : SlotSelection) :
    Except String (Digest × SlotLog) :=
  if ¬ selection.WellFormed then .error "copy slot selection leader IDs are invalid"
  else if selection.selectionRunId ∈ state.selectionRuns then .ok (selection.selectionRunId, state)
  else match state.selectionRefusal selection with
    | some reason => .error reason
    | none => .ok (selection.selectionRunId, state.commitSelection selection)

def SlotLog.applyReplacement (state : SlotLog) (row : SlotReplacementEvent) (occurredAt : Time) :
    SlotLog :=
  let assigned := state.appendAssignment {
    slotEventId := .replacementAssignment row.replacementId row.slot
    slot := row.slot
    leadPortfolioId := row.candidate
    occurredAt := occurredAt }
  let lifecycle (leader : String) (state : LeaderLifecycle) : LeaderLifecycleEvent := {
    eventId := .replacementLifecycle leader row.replacementId state
    leadPortfolioId := leader
    state := state
    selectionRunId := some row.selectionRunId
    reasonCodes := ["COPY_DEFERRED_SLOT_REPLACEMENT"]
    occurredAt := occurredAt }
  let entered := assigned.appendLifecycle (lifecycle row.candidate
    (selectedLifecycle (assigned.latestLeaderLifecycle row.candidate)))
  (entered.appendLifecycle (lifecycle row.incumbent .retired)).appendReplacement
    (row.terminal .applied "COPY_SLOT_REPLACEMENT_APPLIED_AFTER_EXPOSURE_CLOSE" occurredAt)

/-- What the loop of `reconcile_pending_slot_replacements` does with a row. -/
inductive ReplacementOutcome where
  | superseded (reasonCode : String) | applied | expired | waiting

/-- The branches of the loop; `current` are the slots as the loop has changed them so far. -/
def SlotLog.replacementOutcome (state : SlotLog) (locked : List String)
    (current : LeaderSlot → Option String) (row : SlotReplacementEvent) (occurredAt : Time) :
    ReplacementOutcome :=
  if current row.slot ≠ some row.incumbent then
    .superseded "COPY_SLOT_REPLACEMENT_INCUMBENT_CHANGED"
  else if row.incumbent ∈ locked then
    .superseded "COPY_SLOT_REPLACEMENT_CANCELLED_BY_LEADER_LOCK"
  else if leaderSlots.any fun other => other ≠ row.slot && current other = some row.candidate then
    .superseded "COPY_SLOT_REPLACEMENT_CANDIDATE_ASSIGNED_ELSEWHERE"
  else
    let exposure := state.log.leaderOwnedExposureState row.incumbent row.requestedAt
    if exposure.1 = false ∧ exposure.2 ≤ row.expiresAt then .applied
    else if row.expiresAt ≤ occurredAt then .expired
    else .waiting

def SlotLog.reconcileRows (locked : List String) (occurredAt : Time) :
    List SlotReplacementEvent → (LeaderSlot → Option String) → SlotLog → ℕ × SlotLog
  | [], _, state => (0, state)
  | row :: rows, current, state =>
    match state.replacementOutcome locked current row occurredAt with
    | .superseded reasonCode =>
      let rest := reconcileRows locked occurredAt rows current
        (state.appendReplacement (row.terminal .superseded reasonCode occurredAt))
      (rest.1 + 1, rest.2)
    | .applied =>
      let rest := reconcileRows locked occurredAt rows
        (Function.update current row.slot (some row.candidate))
        (state.applyReplacement row occurredAt)
      (rest.1 + 1, rest.2)
    | .expired =>
      let rest := reconcileRows locked occurredAt rows current
        (state.appendReplacement
          (row.terminal .expired "COPY_SLOT_REPLACEMENT_EXPIRED_WITH_EXPOSURE" occurredAt))
      (rest.1 + 1, rest.2)
    | .waiting => reconcileRows locked occurredAt rows current state

/-- `ORDER BY requested_at,replacement_id`. -/
def SlotLog.pendingReplacements (state : SlotLog) : List SlotReplacementEvent :=
  (openReplacements state.replacements).insertionSort fun left right =>
    (toLex (left.requestedAt, HexOrder.value left.replacementId) : ℤ ×ₗ ℕ) ≤
      toLex (right.requestedAt, HexOrder.value right.replacementId)

def SlotLog.reconcilePendingSlotReplacements (state : SlotLog) (occurredAt : Time) :
    ℕ × SlotLog :=
  SlotLog.reconcileRows state.lockedLeaderIds occurredAt state.pendingReplacements
    state.currentSlot state

end Selection

end AiQuant.CopyTrading
