import AiQuant.CopyTrading.LeaderSlots

/-! Leader changes by hand: `create_leader_change` and `execute_leader_change_confirmed` of
`copy_trading/telegram_state.py`, with the retirement of drained leaders and the lifecycle
events of `copy_trading/repository.py`.  A change is proposed in one transaction and confirmed
in another, under the advisory lock of the slots. -/
namespace AiQuant.CopyTrading
open AiQuant.Lib

def isCustomSlot : LeaderSlot → Bool
  | .longTerm | .shortTerm1 | .shortTerm2 => false
  | _ => true

structure LeaderEvidence where
  nickname : String
  winRatePct : Decimal
  maximumDrawdownPct : Decimal
  orders1d : ℕ
  orders3d : ℕ
  orders7d : ℕ
  activeDays7d : ℕ
  testnetSymbolCompatibilityPct : ℕ

/-- What the snapshot tables answer about the leaders. -/
structure LeaderDirectory where
  nickname : String → Option String
  evidence : String → Option LeaderEvidence

/-- A row of `telegram_leader_challenges`. -/
structure LeaderChallenge where
  challengeId : Digest
  userId : ℤ
  slot : LeaderSlot
  leadPortfolioId : Option String
  nonceHash : Digest
  expiresAt : Time
  createdAt : Time

/-- A row of `telegram_leader_consumptions`. -/
structure LeaderConsumption where
  consumptionId : Digest
  challengeId : Digest
  userId : ℤ
  consumedAt : Time

/-- The tables of the slots with those of the changes by hand. -/
structure LeaderTables where
  slots : SlotLog
  challenges : List LeaderChallenge := []
  consumptions : List LeaderConsumption := []

/-- The arguments of `create_leader_change`. -/
structure LeaderChangeRequest where
  userId : ℤ
  slot : LeaderSlot
  leadPortfolioId : Option String
  manualOverride : Bool := false

/-- A change without a leader removes the occupant; the `CHECK` of the table says the same. -/
def changeAction : Option String → LeaderChangeAction
  | some _ => .set
  | none => .remove

inductive LeaderChangeDisplay where
  | remove (slot : LeaderSlot) (leader : String) (nickname : Option String)
  | set (slot : LeaderSlot) (leader : String) (evidence : LeaderEvidence)
      (manualOverride : Bool)

structure LeaderChangeProposal where
  nonce : String
  confirmation : LeaderChangeDisplay

/-- `[0-9]{10,24}`. -/
def isPortfolioId (text : String) : Bool :=
  decide (10 ≤ text.length) && decide (text.length ≤ 24) && text.toList.all Char.isDigit

def LeaderEvidence.activeEnough (evidence : LeaderEvidence) : Bool :=
  decide (3 ≤ evidence.orders1d) && decide (10 ≤ evidence.orders3d) &&
    decide (14 ≤ evidence.orders7d) && decide (3 ≤ evidence.activeDays7d)

/-- What a committed change reports: the slot, the leader it now has, and the state that its
old occupant was moved to. -/
structure LeaderChangeReport where
  slot : LeaderSlot
  assigned : Option String
  displaced : Option (String × LeaderLifecycle)
deriving DecidableEq

def manuallySelectedLifecycle : Option LeaderLifecycle → LeaderLifecycle
  | some .observeOnly => .active
  | some .active => .active
  | some .draining => .active
  | _ => .observeOnly

def LeaderChallenge.lifecycleEvent (challenge : LeaderChallenge) (leader : String)
    (lifecycle : LeaderLifecycle) (occurredAt : Time) : LeaderLifecycleEvent where
  eventId := .manualLifecycle challenge.challengeId leader lifecycle
  leadPortfolioId := leader
  state := lifecycle
  selectionRunId := none
  reasonCodes := ["TELEGRAM_MANUAL_SLOT_CHANGE"]
  occurredAt := occurredAt

/-- The row `ASSIGNED` or `CLEARED` of a change. -/
def SlotLog.appendSlotChange (state : SlotLog) (challenge : LeaderChallenge) (occurredAt : Time) :
    SlotLog :=
  let slotEventId := Digest.manualSlot challenge.challengeId challenge.leadPortfolioId
    challenge.slot
  match challenge.leadPortfolioId with
  | some leader => state.appendAssignment ⟨slotEventId, challenge.slot, leader, occurredAt⟩
  | none => { state with
      slotClearings := state.slotClearings ++ [⟨slotEventId, challenge.slot, occurredAt⟩] }

/-- An insert of a lifecycle event `ON CONFLICT DO NOTHING`. -/
def SlotLog.insertLifecycle (state : SlotLog) (event : LeaderLifecycleEvent) : SlotLog :=
  if state.lifecycles.any (·.eventId = event.eventId) then state else state.appendLifecycle event

/-- `append_lifecycle`, as the poller calls it: without a selection run. -/
def SlotLog.recordLifecycle (state : SlotLog) (leader : String) (lifecycle : LeaderLifecycle)
    (occurredAt : Time) (reasonCodes : List String) : SlotLog :=
  state.insertLifecycle {
    eventId := .lifecycle leader occurredAt lifecycle
    leadPortfolioId := leader
    state := lifecycle
    selectionRunId := none
    reasonCodes := reasonCodes
    occurredAt := occurredAt }

def drainedRetirement (leader : String) (occurredAt : Time) : LeaderLifecycleEvent where
  eventId := .drainedRetirement leader occurredAt
  leadPortfolioId := leader
  state := .retired
  selectionRunId := none
  reasonCodes := ["COPY_DRAINING_COMPLETED_RETIRED"]
  occurredAt := occurredAt

/-- The inserts of `retire_drained_leaders`. -/
def SlotLog.retireLeaders (state : SlotLog) (leaders : List String) (occurredAt : Time) : SlotLog :=
  leaders.foldl (fun state leader => state.insertLifecycle (drainedRetirement leader occurredAt))
    state

section Changes

variable [HexOrder]

def EventLog.leaderQuantity (log : EventLog) (leader : String) : Decimal :=
  ((log.leaderPositions leader).map (·.resultingLocalQuantity)).sum

/-- `_leader_has_position`: only what has been filled counts. -/
def EventLog.leaderHasPosition (log : EventLog) (leader : String) : Bool :=
  0 < log.leaderQuantity leader

/-- The checks of `create_leader_change` on the tables, up to the text of the confirmation. -/
def LeaderTables.leaderChangeDisplay (tables : LeaderTables) (directory : LeaderDirectory)
    (request : LeaderChangeRequest) : Except String LeaderChangeDisplay :=
  match request.leadPortfolioId with
  | none =>
    match tables.slots.currentSlot request.slot with
    | none => .error "Telegram leader slot is already empty"
    | some current => .ok (.remove request.slot current (directory.nickname current))
  | some leader =>
    if tables.slots.currentSlot request.slot = some leader then
      .error "COPY_TELEGRAM_LEADER_ALREADY_IN_SLOT"
    else if leaderSlots.any fun other =>
        other ≠ request.slot && tables.slots.currentSlot other = some leader then
      .error "COPY_TELEGRAM_LEADER_ASSIGNED_ELSEWHERE"
    else match directory.evidence leader with
      | none => .error "COPY_TELEGRAM_LEADER_EVIDENCE_UNAVAILABLE"
      | some evidence =>
        if !request.manualOverride && !isCustomSlot request.slot &&
            evidence.testnetSymbolCompatibilityPct < 80 then
          .error "COPY_TELEGRAM_LEADER_SYMBOL_COMPATIBILITY_LOW"
        else if tables.slots.latestLeaderLifecycle leader = some .draining &&
            tables.slots.log.leaderHasPosition leader then
          .error "COPY_TELEGRAM_LEADER_DRAINING_WITH_POSITION"
        else if !request.manualOverride && request.slot ≠ .longTerm &&
            !isCustomSlot request.slot && !evidence.activeEnough then
          .error "COPY_TELEGRAM_SHORT_LEADER_ACTIVITY_LOW"
        else .ok (.set request.slot leader evidence request.manualOverride)

def LeaderChangeRequest.challenge (request : LeaderChangeRequest) (nonce : String) (now : Time) :
    LeaderChallenge where
  challengeId := .leaderChallenge (changeAction request.leadPortfolioId) now
    request.leadPortfolioId (.nonce nonce) request.slot request.userId
  userId := request.userId
  slot := request.slot
  leadPortfolioId := request.leadPortfolioId
  nonceHash := .nonce nonce
  expiresAt := now + 120000000
  createdAt := now

/-- `create_leader_change`; `nonce` is the fresh token and `now` the clock. -/
def LeaderTables.createLeaderChange (tables : LeaderTables) (directory : LeaderDirectory)
    (request : LeaderChangeRequest) (nonce : String) (now : Time) :
    Except String (LeaderChangeProposal × LeaderTables) :=
  if request.userId ≤ 0 then .error "Telegram leader manager user ID is invalid"
  else if request.leadPortfolioId.any (!isPortfolioId ·) then
    .error "Telegram leader portfolio ID is invalid"
  else match tables.leaderChangeDisplay directory request with
    | .error reason => .error reason
    | .ok confirmation =>
      -- the unique keys of the table
      if tables.challenges.any fun other => other.nonceHash = .nonce nonce ||
          other.challengeId = (request.challenge nonce now).challengeId then
        .error "TELEGRAM_LEADER_CHALLENGE_WRITE_FAILED"
      else .ok (⟨nonce, confirmation⟩,
        { tables with challenges := tables.challenges ++ [request.challenge nonce now] })

def LeaderTables.pendingChallenge (tables : LeaderTables) (userId : ℤ) (nonceHash : Digest)
    (now : Time) : Option LeaderChallenge :=
  tables.challenges.find? fun challenge =>
    challenge.nonceHash = nonceHash && challenge.userId = userId && now < challenge.expiresAt &&
      !tables.consumptions.any (·.challengeId = challenge.challengeId)

def SlotLog.refusesChange (state : SlotLog) (challenge : LeaderChallenge) : Bool :=
  match challenge.leadPortfolioId with
  | some leader =>
    state.currentSlot challenge.slot = some leader ||
      leaderSlots.any fun other => other ≠ challenge.slot && state.currentSlot other = some leader
  | none => state.currentSlot challenge.slot = none

/-- `final_slots.get(slot)`. -/
def SlotLog.changedSlot (state : SlotLog) (challenge : LeaderChallenge) :
    LeaderSlot → Option String :=
  Function.update state.currentSlot challenge.slot challenge.leadPortfolioId

def SlotLog.displacedLeader (state : SlotLog) (challenge : LeaderChallenge) :
    Option (String × LeaderLifecycle) :=
  ((state.currentSlot challenge.slot).filter fun old =>
    leaderSlots.all fun slot => state.changedSlot challenge slot ≠ some old).map fun old =>
      (old, if state.log.leaderHasPosition old then .draining else .retired)

def SlotLog.applyLeaderChange (state : SlotLog) (challenge : LeaderChallenge)
    (occurredAt : Time) : SlotLog :=
  let changed := state.appendSlotChange challenge occurredAt
  let entered := challenge.leadPortfolioId.elim changed fun leader =>
    changed.appendLifecycle (challenge.lifecycleEvent leader
      (manuallySelectedLifecycle (changed.latestLeaderLifecycle leader)) occurredAt)
  (state.displacedLeader challenge).elim entered fun displaced =>
    entered.appendLifecycle (challenge.lifecycleEvent displaced.1 displaced.2 occurredAt)

/-- `execute_leader_change_confirmed`; `now` is the clock at the start of the call.  Under the
lock, the consumption of a challenge that was looked up without one meets no conflict. -/
def LeaderTables.executeLeaderChangeConfirmed (tables : LeaderTables) (userId : ℤ)
    (nonce : String) (now : Time) : Option LeaderChangeReport × LeaderTables :=
  if userId ≤ 0 || nonce.length < 8 || 32 < nonce.length ||
      !nonce.toList.all (·.toNat < 128) then (none, tables)
  else match tables.pendingChallenge userId (.nonce nonce) now with
    | none => (none, tables)
    | some challenge =>
      if tables.slots.refusesChange challenge then (none, tables)
      else
        (some ⟨challenge.slot, challenge.leadPortfolioId,
            tables.slots.displacedLeader challenge⟩,
          { tables with
            slots := tables.slots.applyLeaderChange challenge now
            consumptions := tables.consumptions ++
              [⟨.challengeConsumption challenge.challengeId now, challenge.challengeId, userId,
                now⟩] })

def EventLog.hasUnfinishedSignal (log : EventLog) (leader : String) : Bool :=
  log.signals.any fun row => row.leadPortfolioId = leader &&
    ((log.latestDecision row.signalId).all
      (·.state ∈ [.received, .approved, .submitted, .uncertain]))

/-- The query of `retire_drained_leaders`. -/
def SlotLog.drainedLeaders (state : SlotLog) : List String :=
  (state.lifecycles.map (·.leadPortfolioId)).dedup.filter fun leader =>
    state.latestLeaderLifecycle leader = some .draining && state.log.leaderQuantity leader = 0 &&
      leaderSlots.all (state.currentSlot · ≠ some leader) && !state.log.hasUnfinishedSignal leader

end Changes

end AiQuant.CopyTrading
