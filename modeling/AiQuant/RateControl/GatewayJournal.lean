import AiQuant.RateControl.Budget

/-! `record_gateway_message`: the receipts, send outcomes and observations that the gateway
reports.  A receipt and its row are inserted together; a violated unique, foreign-key or check
constraint undoes both and denies the call, and any other failure is raised to the caller and
undoes the call. -/
namespace AiQuant.RateControl
open AiQuant.Lib

/-- The fields that the function and its trigger read of a payload, as `->>` returns them. -/
structure GatewayPayload where
  isObject : Bool
  messageId : Option String
  messageType : Option String
  callerInstanceId : Option String
  fencingEpoch : Option String
  occurredAt : Option String
  permitId : Option String
  relatedPermitId : Option String
  endpointAuthority : Option String
  canonicalRequestHash : Option String
  outcome : Option String
  usedWeightObservations : List (String × Option String)
  orderCountObservations : List (String × Option String)
  httpStatus : Option String
  retryAfterSeconds : Option String

structure GatewayReceipt where
  messageId : String
  messageType : String
  payloadHash : String

structure SendOutcomeRow where
  messageId : String
  permitId : String
  gatewayInstanceId : String
  outcome : String
  payload : GatewayPayload
  payloadHash : String
  occurredAt : Time

structure ObservationRow where
  messageId : String
  observationType : String
  endpointAuthority : String
  payload : GatewayPayload
  payloadHash : String
  occurredAt : Time
  permitId : Option String
  gatewayInstanceId : Option String
  fencingEpoch : Option ℤ

structure GatewayJournal where
  database : Database
  receipts : List GatewayReceipt
  outcomes : List SendOutcomeRow
  observations : List ObservationRow

structure JournalReply where
  recorded : Bool
  reasonCode : String

inductive InsertFailure where
  | handled
  | raised (message : String)

def gatewayMessageTypes : List String :=
  ["SendOutcome", "HeaderObservation", "ConnectionStateObservation", "ServerTimeObservation",
    "ExchangeRateLimitObservation"]

def sendOutcomes : List String :=
  ["NOT_SENT", "SENT_DEFINITE_RESULT", "SENT_UNKNOWN"]

/-- `payload_hash ~ '^[0-9a-f]{64}$'` -/
def isHexDigest (hash : String) : Bool :=
  hash.length = 64 && hash.toList.all fun digit => digit.isDigit || ('a' ≤ digit && digit ≤ 'f')

/-- A value for a column `varchar(limit) NOT NULL`. -/
def columnText (limit : ℕ) : Option String → Except InsertFailure String
  | none => .error (.raised "null value violates not-null constraint")
  | some text =>
    if limit < text.length then .error (.raised "value too long for type character varying")
    else .ok text

def checkThat (holds : Bool) : Except InsertFailure Unit :=
  if holds then .ok () else .error .handled

section Recording

-- the casts of a text to `bigint`, `integer` and `timestamptz`
variable (castBigint castInteger : String → Option ℤ) (castTimestamp : String → Option Time)

def GatewayJournal.insertReceipt (journal : GatewayJournal) (messageId : String)
    (messageType payloadHash : Option String) : Except InsertFailure GatewayJournal := do
  let messageId ← columnText 128 (some messageId)
  let messageType ← columnText 48 messageType
  let payloadHash ← columnText 64 payloadHash
  checkThat (messageType ∈ gatewayMessageTypes)
  checkThat (isHexDigest payloadHash)
  checkThat (!journal.receipts.any (·.messageId = messageId))
  return { journal with receipts := journal.receipts ++ [⟨messageId, messageType, payloadHash⟩] }

def GatewayJournal.insertOutcome (journal : GatewayJournal) (payload : GatewayPayload)
    (messageId gatewayInstanceId : String) (permitId payloadHash : Option String)
    (occurredAt : Time) : Except InsertFailure GatewayJournal := do
  let messageId ← columnText 128 (some messageId)
  let permitId ← columnText 64 permitId
  let gatewayInstanceId ← columnText 128 (some gatewayInstanceId)
  let outcome ← columnText 32 payload.outcome
  let payloadHash ← columnText 64 payloadHash
  checkThat (outcome ∈ sendOutcomes)
  checkThat (isHexDigest payloadHash)
  checkThat (!journal.outcomes.any (·.messageId = messageId))
  checkThat (!journal.outcomes.any (·.permitId = permitId))
  return { journal with
    outcomes := journal.outcomes ++
      [⟨messageId, permitId, gatewayInstanceId, outcome, payload, payloadHash, occurredAt⟩] }

def GatewayPayload.headerObservation (payload : GatewayPayload) (observationType : String)
    (endpointAuthority : String) (permitId : Option String) : HeaderObservation where
  observationType := observationType
  endpointAuthority := endpointAuthority
  permitId := permitId
  usedWeightObservations := payload.usedWeightObservations
  orderCountObservations := payload.orderCountObservations
  httpStatus := payload.httpStatus
  retryAfterSeconds := payload.retryAfterSeconds

def GatewayJournal.insertObservation (journal : GatewayJournal) (payload : GatewayPayload)
    (messageId gatewayInstanceId : String)
    (messageType endpointAuthority permitId payloadHash : Option String) (fencingEpoch : Option ℤ)
    (occurredAt now : Time) : Except InsertFailure GatewayJournal := do
  let messageId ← columnText 64 (some messageId)
  let messageType ← columnText 48 messageType
  let endpointAuthority ← columnText 96 endpointAuthority
  let gatewayInstanceId ← columnText 128 (some gatewayInstanceId)
  let payloadHash ← columnText 64 payloadHash
  checkThat (isHexDigest payloadHash)
  checkThat (fencingEpoch.all (1 ≤ ·))
  checkThat (!journal.observations.any (·.messageId = messageId))
  -- the trigger raises an exception of its own, which is not handled
  match journal.database.reconcileHeaderObservation castBigint castInteger
      (payload.headerObservation messageType endpointAuthority permitId) now with
  | .error message => .error (.raised message)
  | .ok reconciled =>
    return { journal with
      database := reconciled
      observations := journal.observations ++
        [⟨messageId, messageType, endpointAuthority, payload, payloadHash, occurredAt, permitId,
          some gatewayInstanceId, fencingEpoch⟩] }

def GatewayJournal.permitRefusal (journal : GatewayJournal) (payload : GatewayPayload)
    (gatewayInstanceId : String) (fencingEpoch : Option ℤ) (permitId : Option String)
    (now : Time) : Except String (Option String) :=
  match permitId with
  | some requested =>
    match journal.database.permits.find? (·.permitId = requested) with
    | none => .error "RATE_GATEWAY_EVENT_BINDING_MISMATCH"
    | some permit =>
      if permit.state ≠ .consumed ∨ permit.gatewayInstanceId.any (· ≠ gatewayInstanceId) ∨
          sqlNe permit.fencingEpoch fencingEpoch then
        .error "RATE_GATEWAY_EVENT_BINDING_MISMATCH"
      else if payload.messageType = some "SendOutcome" ∧
          sqlNe permit.binding.canonicalRequestHash payload.canonicalRequestHash then
        .error "RATE_GATEWAY_EVENT_BINDING_MISMATCH"
      else if sqlNe permit.binding.endpointAuthority payload.endpointAuthority then
        .error "RATE_GATEWAY_EVENT_BINDING_MISMATCH"
      else .ok (some permit.binding.endpointAuthority)
  | none =>
    if payload.messageType.any (· ≠ "ConnectionStateObservation") ∨
        journal.database.fencing.admits fencingEpoch now = false then
      .error "RATE_FENCING_STALE"
    else .ok none

def GatewayJournal.insertMessage (journal : GatewayJournal) (payload : GatewayPayload)
    (messageId gatewayInstanceId : String) (permitId permitAuthority payloadHash : Option String)
    (fencingEpoch : Option ℤ) (occurredAt now : Time) : Except InsertFailure GatewayJournal := do
  let receipted ← journal.insertReceipt messageId payload.messageType payloadHash
  if payload.messageType = some "SendOutcome" then
    receipted.insertOutcome payload messageId gatewayInstanceId permitId payloadHash occurredAt
  else
    receipted.insertObservation castBigint castInteger payload messageId gatewayInstanceId
      payload.messageType (payload.endpointAuthority <|> permitAuthority) permitId payloadHash
      fencingEpoch occurredAt now

/-- `record_gateway_message` after the receipt was looked up. -/
def GatewayJournal.recordNew (journal : GatewayJournal) (payload : GatewayPayload)
    (payloadHash : Option String) (messageId gatewayInstanceId : String)
    (fencingEpoch : Option ℤ) (occurredAt now : Time) :
    Except String (JournalReply × GatewayJournal) :=
  let permitId := if payload.messageType = some "ConnectionStateObservation" then
    payload.relatedPermitId else payload.permitId
  match journal.permitRefusal payload gatewayInstanceId fencingEpoch permitId now with
  | .error reasonCode => .ok (⟨false, reasonCode⟩, journal)
  | .ok permitAuthority =>
    match journal.insertMessage castBigint castInteger payload messageId gatewayInstanceId permitId
        permitAuthority payloadHash fencingEpoch occurredAt now with
    | .ok recorded => .ok (⟨true, "RATE_GATEWAY_EVENT_RECORDED"⟩, recorded)
    | .error .handled => .ok (⟨false, "RATE_GATEWAY_EVENT_CONFLICT"⟩, journal)
    | .error (.raised message) => .error message

def GatewayPayload.envelope (payload : GatewayPayload) :
    Option (String × String × Option ℤ × Time) :=
  match payload.messageId, payload.callerInstanceId with
  | some messageId, some gateway =>
    if payload.isObject = false ∨ payload.messageType.any (· ∉ gatewayMessageTypes) then none
    else match castNullable castBigint payload.fencingEpoch,
        castNullable castTimestamp payload.occurredAt with
      | .ok fencingEpoch, .ok (some time) =>
        if fencingEpoch.any (· < 1) then none
        else some (messageId, gateway, fencingEpoch, time)
      | _, _ => none
  | _, _ => none

def GatewayJournal.recordGatewayMessage (journal : GatewayJournal) (payload : GatewayPayload)
    (payloadHash : Option String) (now : Time) : Except String (JournalReply × GatewayJournal) :=
  match payload.envelope castBigint castTimestamp with
  | none => .ok (⟨false, "RATE_GATEWAY_EVENT_INVALID"⟩, journal)
  | some (messageId, gateway, fencingEpoch, time) =>
    match journal.receipts.find? (·.messageId = messageId) with
    | some existing =>
      if payload.messageType = some existing.messageType ∧
          payloadHash = some existing.payloadHash then
        .ok (⟨true, "RATE_GATEWAY_EVENT_IDEMPOTENT"⟩, journal)
      else .ok (⟨false, "RATE_GATEWAY_EVENT_REPLAYED"⟩, journal)
    | none => journal.recordNew castBigint castInteger payload payloadHash messageId
        gateway fencingEpoch time now

end Recording

section Cases

variable {castBigint castInteger : String → Option ℤ} {castTimestamp : String → Option Time}
  {journal post : GatewayJournal} {data : GatewayPayload} {payloadHash : Option String}
  {messageId gateway : String} {fencingEpoch : Option ℤ} {time now : Time}

theorem columnText_eq_ok {limit : ℕ} {value : Option String} {text : String}
    (hc : columnText limit value = .ok text) : value = some text := by
  cases value with
  | none => cases hc
  | some given =>
    simp only [columnText] at hc
    split at hc
    · cases hc
    · cases hc
      rfl

theorem checkThat_eq_ok {holds : Bool} {checked : Unit} (hc : checkThat holds = .ok checked) :
    holds = true := by
  unfold checkThat at hc
  split at hc
  · assumption
  · cases hc

theorem insertReceipt_eq_ok {messageType : Option String}
    (hi : journal.insertReceipt messageId messageType payloadHash = .ok post) :
    ∃ type hash, messageType = some type ∧ payloadHash = some hash ∧
      (∀ rcpt ∈ journal.receipts, rcpt.messageId ≠ messageId) ∧
      post = { journal with receipts := journal.receipts ++ [⟨messageId, type, hash⟩] } := by
  simp only [GatewayJournal.insertReceipt, bind_eq_ok_iff] at hi
  obtain ⟨id, hid, type, ht, hash, hh, _, -, _, -, _, hf, ha⟩ := hi
  cases columnText_eq_ok hid
  cases ha
  refine ⟨type, hash, columnText_eq_ok ht, columnText_eq_ok hh, ?_, rfl⟩
  simpa using checkThat_eq_ok hf

theorem insertOutcome_eq_ok {permitId : Option String}
    (hi : journal.insertOutcome data messageId gateway permitId payloadHash time = .ok post) :
    ∃ permit outcome hash, permitId = some permit ∧
      (∀ row ∈ journal.outcomes, row.permitId ≠ permit) ∧
      post = { journal with
        outcomes := journal.outcomes ++
          [⟨messageId, permit, gateway, outcome, data, hash, time⟩] } := by
  simp only [GatewayJournal.insertOutcome, bind_eq_ok_iff] at hi
  obtain ⟨id, hid, permit, hp, instanceId, hin, outcome, -, hash, -, _, -, _, -, _, -, _,
    hf, ha⟩ := hi
  cases columnText_eq_ok hid
  cases columnText_eq_ok hin
  cases ha
  refine ⟨permit, outcome, hash, columnText_eq_ok hp, ?_, rfl⟩
  simpa using checkThat_eq_ok hf

theorem insertObservation_eq_ok {messageType endpointAuthority permitId : Option String}
    (hi : journal.insertObservation castBigint castInteger data messageId
      gateway messageType endpointAuthority permitId payloadHash fencingEpoch time now = .ok post) :
    ∃ row : ObservationRow, row.messageId = messageId ∧
      post.observations = journal.observations ++ [row] ∧ post.outcomes = journal.outcomes ∧
      post.receipts = journal.receipts ∧ Observes journal.database post.database := by
  simp only [GatewayJournal.insertObservation, bind_eq_ok_iff] at hi
  obtain ⟨id, hid, type, -, auth, -, instanceId, -, hash, -, _, -, _, -, _, -, hi⟩ :=
    hi
  cases columnText_eq_ok hid
  split at hi
  · cases hi
  · rename_i reconciled hreconciled
    cases hi
    exact ⟨_, rfl, rfl, rfl, rfl, reconcileHeaderObservation_observes hreconciled⟩

structure SpeaksOf (permit : Permit) (payload : GatewayPayload) (gatewayInstanceId : String)
    (fencingEpoch : Option ℤ) : Prop where
  consumed : permit.state = .consumed
  gateway : ¬ permit.gatewayInstanceId.any (· ≠ gatewayInstanceId) = true
  epoch : ¬ sqlNe permit.fencingEpoch fencingEpoch = true
  canonical : payload.messageType = some "SendOutcome" →
    ¬ sqlNe permit.binding.canonicalRequestHash payload.canonicalRequestHash = true

theorem permitRefusal_eq_ok {permitId : String} {permitAuthority : Option String}
    (hp : journal.permitRefusal data gateway fencingEpoch (some permitId) now =
      .ok permitAuthority) : ∃ permit ∈ journal.database.permits, permit.permitId = permitId ∧
      SpeaksOf permit data gateway fencingEpoch := by
  unfold GatewayJournal.permitRefusal at hp
  dsimp only at hp
  split at hp
  · cases hp
  rename_i permit hfound
  split at hp
  · cases hp
  rename_i hb
  split at hp
  · cases hp
  rename_i hcanonical
  simp only [not_or, not_not] at hb
  refine ⟨permit, List.mem_of_find?_eq_some hfound, by simpa using List.find?_some hfound,
    hb.1, hb.2.1, hb.2.2, fun ht hne => hcanonical ⟨ht, hne⟩⟩

structure Records (castBigint : String → Option ℤ) (castTimestamp : String → Option Time)
    (journal : GatewayJournal) (payload : GatewayPayload) (payloadHash : Option String)
    (receipt : GatewayReceipt) (after : GatewayJournal) : Prop where
  envelope : (payload.envelope castBigint castTimestamp).isSome = true
  messageId : payload.messageId = some receipt.messageId
  messageType : payload.messageType = some receipt.messageType
  payloadHash : payloadHash = some receipt.payloadHash
  fresh : ∀ other ∈ journal.receipts, other.messageId ≠ receipt.messageId
  receipts : after.receipts = journal.receipts ++ [receipt]
  observes : Observes journal.database after.database
  row : (∃ row : ObservationRow, row.messageId = receipt.messageId ∧
      after.observations = journal.observations ++ [row] ∧ after.outcomes = journal.outcomes) ∨
    (∃ row : SendOutcomeRow, row.messageId = receipt.messageId ∧ row.payload = payload ∧
      after.outcomes = journal.outcomes ++ [row] ∧ after.observations = journal.observations ∧
      (∀ other ∈ journal.outcomes, other.permitId ≠ row.permitId) ∧
      payload.messageType = some "SendOutcome" ∧
      ∃ permit ∈ journal.database.permits, permit.permitId = row.permitId ∧
        ∃ fencingEpoch, castNullable castBigint payload.fencingEpoch = .ok fencingEpoch ∧
          SpeaksOf permit payload row.gatewayInstanceId fencingEpoch)

theorem envelope_eq_some (he : data.envelope castBigint castTimestamp =
      some (messageId, gateway, fencingEpoch, time)) : data.messageId = some messageId ∧
      castNullable castBigint data.fencingEpoch = .ok fencingEpoch := by
  unfold GatewayPayload.envelope at he
  split at he
  · rename_i id instanceId hid hinstance
    split at he
    · cases he
    split at he
    · rename_i epoch occurred hep _
      split at he
      · cases he
      · cases he
        exact ⟨hid, hep⟩
    · cases he
  · cases he

theorem recordNew_cases {reply : JournalReply} (he : data.envelope castBigint castTimestamp =
      some (messageId, gateway, fencingEpoch, time))
    (hca : journal.recordNew castBigint castInteger data payloadHash messageId
      gateway fencingEpoch time now = .ok (reply, post)) :
    (reply.recorded = false ∧ post = journal) ∨
    (reply.recorded = true ∧ ∃ rcpt, Records castBigint castTimestamp journal data payloadHash
      rcpt post) := by
  obtain ⟨hm, hep⟩ := envelope_eq_some he
  unfold GatewayJournal.recordNew at hca
  dsimp only at hca
  split at hca
  · cases hca
    exact Or.inl ⟨rfl, rfl⟩
  rename_i permitAuthority hpermit
  split at hca
  · rename_i recorded hi
    cases hca
    refine Or.inr ⟨rfl, ?_⟩
    unfold GatewayJournal.insertMessage at hi
    rw [bind_eq_ok_iff] at hi
    obtain ⟨receipted, hre, hi⟩ := hi
    obtain ⟨type, hash, ht, hh, hfr, rfl⟩ := insertReceipt_eq_ok hre
    refine ⟨⟨messageId, type, hash⟩, ?_⟩
    split at hi
    · rename_i hse
      obtain ⟨permitId, outcome, stored, hp, hf, rfl⟩ :=
        insertOutcome_eq_ok hi
      have hc : data.messageType ≠ some "ConnectionStateObservation" := by
        rw [hse]
        decide
      rw [if_neg hc] at hpermit hp
      rw [hp] at hpermit
      obtain ⟨permit, hmem, hid, hs⟩ := permitRefusal_eq_ok hpermit
      exact ⟨by simp [he], hm, ht, hh, hfr, rfl, .refl _,
        Or.inr ⟨_, rfl, rfl, rfl, rfl, hf, hse, permit, hmem, hid, fencingEpoch, hep, hs⟩⟩
    · obtain ⟨row, hrow, ho, hou, hr, hob⟩ :=
        insertObservation_eq_ok hi
      exact ⟨by simp [he], hm, ht, hh, hfr, hr, hob, Or.inl ⟨row, hrow, ho, hou⟩⟩
  · cases hca
    exact Or.inl ⟨rfl, rfl⟩
  · cases hca

theorem recordGatewayMessage_cases {reply : JournalReply}
    (hc : journal.recordGatewayMessage castBigint castInteger castTimestamp data payloadHash
      now = .ok (reply, post)) : (reply.recorded = false ∧ post = journal) ∨
    (reply.recorded = true ∧ post = journal ∧
      (data.envelope castBigint castTimestamp).isSome = true ∧
      ∃ rcpt ∈ journal.receipts, data.messageId = some rcpt.messageId ∧
        data.messageType = some rcpt.messageType ∧
        payloadHash = some rcpt.payloadHash) ∨
    (reply.recorded = true ∧ ∃ rcpt, Records castBigint castTimestamp journal data payloadHash
      rcpt post) := by
  unfold GatewayJournal.recordGatewayMessage at hc
  split at hc
  · cases hc
    exact Or.inl ⟨rfl, rfl⟩
  rename_i messageId gateway fencingEpoch time he
  obtain ⟨hm, -⟩ := envelope_eq_some he
  split at hc
  · rename_i existing hexisting
    have hid : existing.messageId = messageId := by simpa using List.find?_some hexisting
    split at hc
    · rename_i hs
      cases hc
      exact Or.inr (Or.inl ⟨rfl, rfl, by simp [he], existing,
        List.mem_of_find?_eq_some hexisting, hid ▸ hm, hs.1, hs.2⟩)
    · cases hc
      exact Or.inl ⟨rfl, rfl⟩
  · rcases recordNew_cases he hc with hd | hr
    · exact Or.inl hd
    · exact Or.inr (Or.inr hr)

end Cases

/-- A payload with everything that the function compares; only a send outcome has a request
hash. -/
structure GatewayPayload.Carries (payload : GatewayPayload) : Prop where
  messageId : payload.messageId.isSome = true
  callerInstanceId : payload.callerInstanceId.isSome = true
  fencingEpoch : payload.fencingEpoch.isSome = true
  occurredAt : payload.occurredAt.isSome = true
  canonicalRequestHash : payload.messageType = some "SendOutcome" →
    payload.canonicalRequestHash.isSome = true

def ObservationRow.receipt (row : ObservationRow) : GatewayReceipt :=
  ⟨row.messageId, row.observationType, row.payloadHash⟩

def Database.GatewaysNamed (database : Database) : Prop :=
  ∀ permit ∈ database.permits, permit.state = .consumed → permit.gatewayInstanceId.isSome = true

/-- A run of the journal, with the calls it answered as recorded.  Permits are reserved and
consumed in between; a consumption carries the instance of its gateway, as the protocol has
it. -/
inductive JournalRun (castBigint castInteger : String → Option ℤ)
    (castTimestamp : String → Option Time) :
    List (GatewayPayload × Option String) → GatewayJournal → Prop
  | start {journal : GatewayJournal} (hlockstep : Lockstep journal.database)
      (hgateways : journal.database.GatewaysNamed) (houtcomes : journal.outcomes = [])
      (hreceipts : journal.receipts = journal.observations.map (·.receipt))
      (hunique : (journal.observations.map (·.messageId)).Nodup) :
      JournalRun castBigint castInteger castTimestamp [] journal
  | record {recorded : List (GatewayPayload × Option String)} {journal after : GatewayJournal}
      {payload : GatewayPayload} {payloadHash : Option String} {reply : JournalReply} {now : Time}
      (hrun : JournalRun castBigint castInteger castTimestamp recorded journal)
      (hcarries : payload.Carries)
      (hcall : journal.recordGatewayMessage castBigint castInteger castTimestamp payload
        payloadHash now = .ok (reply, after)) :
      JournalRun castBigint castInteger castTimestamp
        (if reply.recorded then recorded ++ [(payload, payloadHash)] else recorded) after
  | reserve {recorded : List (GatewayPayload × Option String)} {journal : GatewayJournal}
      {after : Database} {request : ReserveRequest} {reply : ReserveReply}
      {leaseCheckedAt now : Time}
      (hrun : JournalRun castBigint castInteger castTimestamp recorded journal)
      (hcall : journal.database.reservePermitV2 request leaseCheckedAt now = .ok (reply, after)) :
      JournalRun castBigint castInteger castTimestamp recorded { journal with database := after }
  | consume {recorded : List (GatewayPayload × Option String)} {journal : GatewayJournal}
      {after : Database} {request : ConsumeRequest} {reply : ConsumeReply} {now : Time}
      (hrun : JournalRun castBigint castInteger castTimestamp recorded journal)
      (hinstance : request.gatewayInstanceId.isSome = true)
      (hcall : journal.database.consumePermitV2 request now = (reply, after)) :
      JournalRun castBigint castInteger castTimestamp recorded { journal with database := after }
  | elsewhere {recorded : List (GatewayPayload × Option String)} {journal : GatewayJournal}
      {after : Database} (hrun : JournalRun castBigint castInteger castTimestamp recorded journal)
      (hpermits : after.permits = journal.database.permits)
      (hnonces : after.nonces = journal.database.nonces) :
      JournalRun castBigint castInteger castTimestamp recorded { journal with database := after }

/-- The permit of a stored outcome: consumed by the same gateway instance, in the same epoch,
for the same request. -/
structure SendOutcomeRow.Belongs (castBigint : String → Option ℤ) (row : SendOutcomeRow)
    (permit : Permit) : Prop where
  permitId : permit.permitId = row.permitId
  consumed : permit.state = .consumed
  gateway : permit.gatewayInstanceId = some row.gatewayInstanceId
  epoch : castNullable castBigint row.payload.fencingEpoch = .ok (some permit.fencingEpoch)
  canonical : row.payload.canonicalRequestHash = some permit.binding.canonicalRequestHash

def GatewayJournal.rowIds (journal : GatewayJournal) : List String :=
  journal.outcomes.map (·.messageId) ++ journal.observations.map (·.messageId)

structure JournalInvariant (castBigint : String → Option ℤ) (castTimestamp : String → Option Time)
    (recorded : List (GatewayPayload × Option String)) (journal : GatewayJournal) : Prop where
  lockstep : Lockstep journal.database
  gateways : journal.database.GatewaysNamed
  receipts : (journal.receipts.map (·.messageId)).Nodup
  rows : journal.rowIds.Perm (journal.receipts.map (·.messageId))
  permits : (journal.outcomes.map (·.permitId)).Nodup
  belongs : ∀ row ∈ journal.outcomes, ∃ permit ∈ journal.database.permits,
    row.Belongs castBigint permit
  recorded : ∀ call ∈ recorded, (call.1.envelope castBigint castTimestamp).isSome = true ∧
    ∃ receipt ∈ journal.receipts, call.1.messageId = some receipt.messageId ∧
      call.1.messageType = some receipt.messageType ∧ call.2 = some receipt.payloadHash

section Run

variable {castBigint castInteger : String → Option ℤ} {castTimestamp : String → Option Time}
  {journal post : GatewayJournal} {recorded : List (GatewayPayload × Option String)}
  {data : GatewayPayload} {payloadHash : Option String}

theorem SpeaksOf.belongs {permit : Permit} {row : SendOutcomeRow} {fencingEpoch : Option ℤ}
    (hs : SpeaksOf permit row.payload row.gatewayInstanceId fencingEpoch)
    (hc : row.payload.Carries) (hty : row.payload.messageType = some "SendOutcome")
    (hid : permit.permitId = row.permitId) (hn : permit.gatewayInstanceId.isSome = true)
    (he : castNullable castBigint row.payload.fencingEpoch = .ok fencingEpoch) :
    row.Belongs castBigint permit := by
  refine ⟨hid, hs.consumed, ?_, ?_, ?_⟩
  · have hg := hs.gateway
    cases hi : permit.gatewayInstanceId with
    | none => simp [hi] at hn
    | some instanceId => simpa [hi] using hg
  · have hgi : fencingEpoch.isSome = true := by
      cases ht : row.payload.fencingEpoch with
      | none => simpa [ht] using hc.fencingEpoch
      | some text =>
        rw [ht] at he
        simp only [castNullable] at he
        split at he
        · cases he
        · cases he
          rfl
    rw [he, eq_some_of_not_sqlNe hgi hs.epoch]
  · exact eq_some_of_not_sqlNe (hc.canonicalRequestHash hty) (hs.canonical hty)

def KeepsConsumed (before after : Database) : Prop :=
  ∀ permit ∈ before.permits, permit.state = .consumed → permit ∈ after.permits

variable {db : Database}

theorem JournalInvariant.with_database
    (hi : JournalInvariant castBigint castTimestamp recorded journal) (hl : Lockstep db)
    (hg : db.GatewaysNamed) (hk : KeepsConsumed journal.database db) :
    JournalInvariant castBigint castTimestamp recorded { journal with database := db } := by
  refine ⟨hl, hg, hi.receipts, hi.rows, hi.permits, ?_, hi.recorded⟩
  intro row hr
  obtain ⟨permit, hp, hb⟩ := hi.belongs row hr
  exact ⟨permit, hk permit hp hb.consumed, hb⟩

theorem JournalInvariant.record (hi : JournalInvariant castBigint castTimestamp recorded journal)
    (hc : data.Carries) {rcpt : GatewayReceipt}
    (hr : Records castBigint castTimestamp journal data payloadHash rcpt post) :
    JournalInvariant castBigint castTimestamp (recorded ++ [(data, payloadHash)]) post := by
  have hp := hr.observes.permits
  have hf : rcpt.messageId ∉ journal.receipts.map (·.messageId) := by
    intro hm
    obtain ⟨other, hot, hid⟩ := List.mem_map.1 hm
    exact hr.fresh other hot hid
  have hrec : ∀ call ∈ recorded ++ [(data, payloadHash)],
      (call.1.envelope castBigint castTimestamp).isSome = true ∧
      ∃ rcpt ∈ post.receipts, call.1.messageId = some rcpt.messageId ∧
        call.1.messageType = some rcpt.messageType ∧ call.2 = some rcpt.payloadHash := by
    intro call hca
    rw [hr.receipts]
    rcases List.mem_append.1 hca with hold | hn
    · obtain ⟨he, stored, hs, hsa⟩ := hi.recorded call hold
      exact ⟨he, stored, List.mem_append_left _ hs, hsa⟩
    · cases List.mem_singleton.1 hn
      exact ⟨hr.envelope, rcpt, by simp, hr.messageId, hr.messageType, hr.payloadHash⟩
  have hre : post.receipts.map (·.messageId) =
      journal.receipts.map (·.messageId) ++ [rcpt.messageId] := by
    rw [hr.receipts, List.map_append]
    rfl
  have hu : (post.receipts.map (·.messageId)).Nodup := by
    rw [hre]
    exact List.nodup_append.2 ⟨hi.receipts, by simp, by
      rintro id hid other hot rfl
      exact hf (List.mem_singleton.1 hot ▸ hid)⟩
  have hg : post.database.GatewaysNamed := by
    unfold Database.GatewaysNamed
    rw [hp]
    exact hi.gateways
  have hl := hi.lockstep.of_tables hp hr.observes.nonces
  rcases hr.row with ⟨row, hrow, hob, ho⟩ |
    ⟨row, hrow, hpa, ho, hob, hpe, ht, permit, hper, hid, epoch, hep, hsp⟩
  · refine ⟨hl, hg, hu, ?_, ho ▸ hi.permits, ?_, hrec⟩
    · have hids : post.rowIds = journal.rowIds ++ [rcpt.messageId] := by
        simp [GatewayJournal.rowIds, hob, ho, hrow]
      rw [hids, hre]
      exact hi.rows.append_right _
    · rw [ho, hp]
      exact hi.belongs
  · refine ⟨hl, hg, hu, ?_, ?_, ?_, hrec⟩
    · have hids : post.rowIds.Perm (journal.rowIds ++ [rcpt.messageId]) := by
        simp only [GatewayJournal.rowIds, hob, ho, hrow, List.map_append,
          List.map_cons, List.map_nil, List.append_assoc]
        exact List.perm_append_comm.append_left _
      rw [hre]
      exact hids.trans (hi.rows.append_right _)
    · rw [ho, List.map_append, List.nodup_append]
      refine ⟨hi.permits, by simp, ?_⟩
      rintro permitId hold other hn rfl
      obtain ⟨stored, hs, hst⟩ := List.mem_map.1 hold
      exact hpe stored hs (hst.trans (List.mem_singleton.1 hn))
    · rw [ho, hp]
      intro stored hs
      rcases List.mem_append.1 hs with hold | hn
      · exact hi.belongs stored hold
      · cases List.mem_singleton.1 hn
        subst hpa
        exact ⟨permit, hper, hsp.belongs hc ht hid (hi.gateways permit hper hsp.consumed) hep⟩

variable {now : Time}

theorem reserve_keepsConsumed {reserved : Database} {req : ReserveRequest}
    {leaseCheckedAt : Time} {reply : ReserveReply} (hl : Lockstep db) (hg : db.GatewaysNamed)
    (hca : db.reservePermitV2 req leaseCheckedAt now = .ok (reply, reserved)) :
    Lockstep reserved ∧ reserved.GatewaysNamed ∧ KeepsConsumed db reserved := by
  rcases reservePermitV2_cases hca with ⟨-, rfl⟩ | ⟨existing, -, -, rfl, -⟩ |
    ⟨costs, hr, -⟩
  · exact ⟨hl, hg, fun permit hp _ => hp⟩
  · exact ⟨hl, hg, fun permit hp _ => hp⟩
  · have hpe := hr.tables.2
    refine ⟨hl.reserve hr, ?_, ?_⟩
    · intro permit hp hc
      rw [hpe] at hp
      rcases List.mem_append.1 hp with ho | hn
      · exact hg permit ho hc
      · cases List.mem_singleton.1 hn
        cases hc
    · intro permit hp _
      rw [hpe]
      exact List.mem_append_left _ hp

theorem expirePermit_keepsConsumed (permit : Permit) (hg : db.GatewaysNamed) :
    (db.expirePermit permit).GatewaysNamed ∧
      KeepsConsumed db (db.expirePermit permit) := by
  refine ⟨?_, ?_⟩
  · intro moved hm hc
    obtain ⟨other, ho, rfl⟩ := List.mem_map.1 hm
    dsimp only at hc ⊢
    split_ifs at hc ⊢ with hid hr
    · exact hg other ho hc
    · exact hg other ho hc
  · intro other ho hc
    refine List.mem_map.2 ⟨other, ho, ?_⟩
    have hn : other.state ≠ .reserved := by simp [hc]
    simp [hn]

theorem markConsumed_keepsConsumed {req : ConsumeRequest} {permit : Permit}
    (hl : Lockstep db) (hg : db.GatewaysNamed)
    (hi : req.gatewayInstanceId.isSome = true) (hco : Consumes db req permit now) :
    (db.markConsumed req permit now).GatewaysNamed ∧
      KeepsConsumed db (db.markConsumed req permit now) := by
  refine ⟨?_, ?_⟩
  · intro moved hm hc
    obtain ⟨other, ho, rfl⟩ := List.mem_map.1 hm
    split_ifs at hc ⊢ with hid
    · exact hi
    · exact hg other ho hc
  · intro other ho hc
    refine List.mem_map.2 ⟨other, ho, ?_⟩
    -- the permit that is consumed now was reserved, so it is another one
    have hne : other.permitId ≠ permit.permitId := by
      intro hs
      obtain rfl := List.inj_on_of_nodup_map hl.permitIds ho (permitNamed_mem hco.named) hs
      rw [hco.state] at hc
      cases hc
    rw [if_neg hne]

theorem consume_keepsConsumed {consumed : Database} {req : ConsumeRequest} {reply : ConsumeReply}
    (hl : Lockstep db) (hg : db.GatewaysNamed) (hi : req.gatewayInstanceId.isSome = true)
    (hca : db.consumePermitV2 req now = (reply, consumed)) :
    Lockstep consumed ∧ consumed.GatewaysNamed ∧ KeepsConsumed db consumed := by
  rcases consumePermitV2_cases hca with ⟨-, rfl⟩ | ⟨permit, hn, -, -, rfl⟩ |
    ⟨permit, hc, -, rfl⟩
  · exact ⟨hl, hg, fun permit hp _ => hp⟩
  · exact ⟨hl.expire (permitNamed_mem hn), expirePermit_keepsConsumed permit hg⟩
  · exact ⟨hl.consume hc, markConsumed_keepsConsumed hl hg hi hc⟩

theorem JournalRun.invariant
    (hrun : JournalRun castBigint castInteger castTimestamp recorded journal) :
    JournalInvariant castBigint castTimestamp recorded journal := by
  induction hrun with
  | @start journal hl hg ho hreceipts hunique =>
    have hi : journal.receipts.map (·.messageId) = journal.observations.map (·.messageId) := by
      rw [hreceipts, List.map_map]
      rfl
    refine ⟨hl, hg, hi ▸ hunique, ?_, by simp [ho], by simp [ho],
      by simp⟩
    rw [hi, GatewayJournal.rowIds, ho]
    exact List.Perm.refl _
  | record _ hcarries hc ih =>
    rcases recordGatewayMessage_cases hc with ⟨hd, rfl⟩ |
      ⟨hr, rfl, he, rcpt, hrec, hs⟩ | ⟨hr, rcpt, hre⟩
    · rw [hd]
      exact ih
    · rw [if_pos hr]
      refine ⟨ih.lockstep, ih.gateways, ih.receipts, ih.rows, ih.permits, ih.belongs, ?_⟩
      intro call hc
      rcases List.mem_append.1 hc with hold | hn
      · exact ih.recorded call hold
      · cases List.mem_singleton.1 hn
        exact ⟨he, rcpt, hrec, hs⟩
    · rw [if_pos hr]
      exact ih.record hcarries hre
  | reserve _ hc ih =>
    obtain ⟨hl, hg, hk⟩ := reserve_keepsConsumed ih.lockstep ih.gateways hc
    exact ih.with_database hl hg hk
  | consume _ hinstance hc ih =>
    obtain ⟨hl, hg, hk⟩ :=
      consume_keepsConsumed ih.lockstep ih.gateways hinstance hc
    exact ih.with_database hl hg hk
  | elsewhere _ hpermits hnonces ih =>
    refine ih.with_database (ih.lockstep.of_tables hpermits hnonces) ?_ ?_
    · unfold Database.GatewaysNamed
      rw [hpermits]
      exact ih.gateways
    · intro permit hp _
      rw [hpermits]
      exact hp

/-- The journal records every message once. -/
structure ExactlyOnceJournal (castBigint castInteger : String → Option ℤ)
    (castTimestamp : String → Option Time) (recorded : List (GatewayPayload × Option String))
    (journal : GatewayJournal) : Prop where
  bijection : ∀ messageId, (∃ receipt ∈ journal.receipts, receipt.messageId = messageId) ↔
    journal.rowIds.count messageId = 1
  unique : journal.rowIds.Nodup ∧ (journal.receipts.map (·.messageId)).Nodup
  repeated : ∀ payload payloadHash now, (payload, payloadHash) ∈ recorded →
    journal.recordGatewayMessage castBigint castInteger castTimestamp payload payloadHash now =
      .ok (⟨true, "RATE_GATEWAY_EVENT_IDEMPOTENT"⟩, journal)
  conflicting : ∀ payload payloadHash now, ∀ receipt ∈ journal.receipts,
    payload.messageId = some receipt.messageId →
    (payload.messageType ≠ some receipt.messageType ∨ payloadHash ≠ some receipt.payloadHash) →
    ∃ reasonCode, journal.recordGatewayMessage castBigint castInteger castTimestamp payload
      payloadHash now = .ok (⟨false, reasonCode⟩, journal)
  outcomes : ∀ row ∈ journal.outcomes, ∃ permit ∈ journal.database.permits,
    row.Belongs castBigint permit
  oncePerPermit : (journal.outcomes.map (·.permitId)).Nodup
  denied : ∀ payload payloadHash now reply after,
    journal.recordGatewayMessage castBigint castInteger castTimestamp payload payloadHash now =
      .ok (reply, after) → reply.recorded = false → after = journal

theorem find_receipt {rcpt : GatewayReceipt} {messageId : String}
    (hu : (journal.receipts.map (·.messageId)).Nodup) (hr : rcpt ∈ journal.receipts)
    (hid : rcpt.messageId = messageId) :
    journal.receipts.find? (·.messageId = messageId) = some rcpt := by
  cases hf : journal.receipts.find? (·.messageId = messageId) with
  | none =>
    rw [List.find?_eq_none] at hf
    exact absurd (decide_eq_true hid) (hf rcpt hr)
  | some found =>
    have hfo : found.messageId = messageId := by simpa using List.find?_some hf
    rw [List.inj_on_of_nodup_map hu (List.mem_of_find?_eq_some hf) hr (hfo.trans hid.symm)]

end Run

section Reported

/-- The gateway reports that it did not send the request of its permit. -/
def notSentPayload : GatewayPayload where
  isObject := true
  messageId := some "rate-msg-1"
  messageType := some "SendOutcome"
  callerInstanceId := some "gateway-1"
  fencingEpoch := some "2"
  occurredAt := some "650000"
  permitId := some "permit-1"
  relatedPermitId := none
  endpointAuthority := none
  canonicalRequestHash := some "canonical"
  outcome := some "NOT_SENT"
  usedWeightObservations := []
  orderCountObservations := []
  httpStatus := none
  retryAfterSeconds := none

def notSentHash : String :=
  "aaaaaaaaaaaaaaaaaaaaaaaaaaaaaaaaaaaaaaaaaaaaaaaaaaaaaaaaaaaaaaaa"

def consumedJournal : GatewayJournal :=
  ⟨ownConsume.2, [], [], []⟩

def reportedJournal : JournalReply × GatewayJournal :=
  okValue (consumedJournal.recordGatewayMessage castDigits castDigits castDigits notSentPayload
    (some notSentHash) 700000) (by decide)

end Reported

end AiQuant.RateControl
