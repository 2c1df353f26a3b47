import AiQuant.Lib.Fallible
import Mathlib.Data.Finmap
import Mathlib.Data.Finset.Basic

/-! `UserDataEventJournal` (`binance_egress/testnet_user_stream.py`): user-data events are appended
to a hash-chained evidence file, and the counters beside it are replaced in a state file.  A call
returns the journal it leaves in memory and the file operations it performs, in order.  A line
that was written is read back as the record that it is the text of. -/
namespace AiQuant.UserStream
open AiQuant.Lib

/-- What `json.loads` returns. -/
inductive Json where
  | null
  | boolean (value : Bool)
  | integer (value : ℤ)
  | float (text : String)
  /-- `NaN` and the infinities, which `allow_nan=False` refuses to write. -/
  | nonFinite (text : String)
  | string (text : String)
  | array (items : List Json)
  | object (fields : List (String × Json))

abbrev Fields := List (String × Json)

/-- `document.get(name)` -/
def get (fields : Fields) (name : String) : Json :=
  ((fields.find? fun field => field.1 = name).map Prod.snd).getD .null

/-- `isinstance(value, int)`; a Boolean is one. -/
def Json.isInt : Json → Bool
  | .integer _ => true
  | .boolean _ => true
  | _ => false

mutual

def Json.canonical : Json → Bool
  | .nonFinite _ => false
  | .array items => allCanonical items
  | .object fields => fieldsCanonical fields
  | _ => true

def allCanonical : List Json → Bool
  | [] => true
  | item :: rest => item.canonical && allCanonical rest

def fieldsCanonical : Fields → Bool
  | [] => true
  | (_, item) :: rest => item.canonical && fieldsCanonical rest

end

theorem Json.canonical_of_isInt {value : Json} (hi : value.isInt = true) :
    value.canonical = true := by
  cases value <;> first | rfl | cases hi

section Sanitize

/-! `lower` is `str.lower`. -/
variable (lower : String → String)

def droppedNames : List String :=
  ["listenkey", "apikey", "secret", "secretkey", "signature", "token", "password", "privatekey"]

/-- `re.sub(r"[^a-z0-9]", "", name.lower())` -/
def normalizedName (name : String) : String :=
  String.ofList ((lower name).toList.filter fun c =>
    ('a' ≤ c && c ≤ 'z') || ('0' ≤ c && c ≤ '9'))

mutual

def sanitizeValue : Json → Json
  | .object fields => .object (sanitizeFields fields)
  | .array items => .array (sanitizeItems items)
  | value => value

def sanitizeItems : List Json → List Json
  | [] => []
  | item :: rest => sanitizeValue item :: sanitizeItems rest

def sanitizeFields : Fields → Fields
  | [] => []
  | (name, item) :: rest =>
    if normalizedName lower name ∈ droppedNames then sanitizeFields rest
    else (name, sanitizeValue item) :: sanitizeFields rest

end

/-- The account of an `ACCOUNT_UPDATE`: its reason and its positions. -/
def sanitizeAccount : Json → Fields
  | .object account =>
    let positions := match get account "P" with
      | .array items => [("P", sanitizeValue lower (.array items))]
      | _ => []
    ("m", get account "m") :: positions
  | _ => []

def sanitizeEvent (document : Fields) : Fields :=
  match get document "e" with
  | .string "ACCOUNT_UPDATE" =>
    sanitizeFields lower ((document.filter fun field => field.1 ≠ "a") ++
      [("a", .object (sanitizeAccount lower (get document "a")))])
  | _ => sanitizeFields lower document

end Sanitize

structure EventContent where
  schemaVersion : String
  recordType : String
  rawEventType : String
  stableEventId : String
  eventTimeMs : Json
  receivedAt : String
  payload : Fields
  environment : String
  productionEndpointRequests : ℕ

structure EvidenceRecord where
  content : EventContent
  previousSha256 : String
  recordSha256 : String

abbrev Counts := Finmap fun _ : String => ℕ

structure StateDocument where
  schemaVersion : String
  status : String
  environment : String
  streamAuthority : String
  destinationHost : String
  productionEndpointRequests : ℕ
  connectionAttemptCount : ℕ
  connectionCount : ℕ
  reconnectCount : ℕ
  keepaliveCount : ℕ
  acceptedEventCount : ℕ
  duplicateEventCount : ℕ
  invalidEventCount : ℕ
  eventTypeCounts : Counts
  lastEventAt : Option String
  lastConnectedAt : Option String
  lastKeepaliveAt : Option String
  lastErrorType : Option String
  lastRecordSha256 : String
  updatedAt : String

/-- `none` is a file that does not exist. -/
structure Disk where
  evidence : Option (List EvidenceRecord)
  state : Option StateDocument

def Disk.records (disk : Disk) : List EvidenceRecord :=
  disk.evidence.getD []

inductive FileOp where
  | appendEvidence (record : EvidenceRecord)
  | replaceState (document : StateDocument)

def Disk.perform (disk : Disk) : FileOp → Disk
  | .appendEvidence record => { disk with evidence := some (disk.records ++ [record]) }
  | .replaceState document => { disk with state := some document }

def Disk.performAll (disk : Disk) (operations : List FileOp) : Disk :=
  operations.foldl perform disk

/-- `re.fullmatch(r"[0-9a-f]{64}", text)` -/
def isSha256 (text : String) : Bool :=
  text.length = 64 && text.toList.all fun digit => digit.isDigit || ('a' ≤ digit && digit ≤ 'f')

/-- `"0" * 64` -/
def zeroSha256 : String :=
  String.ofList (List.replicate 64 '0')

/-- SHA-256 of the canonical texts, and `str.lower`. -/
structure Hashing where
  lower : String → String
  event : Fields → String
  record : EventContent → String → String
  record_sha256 : ∀ content previous, isSha256 (record content previous) = true

inductive JournalError where
  | stateBoundary
  | stateCounters
  | hashMismatch
  | semantics
  | duplicateEvent
  | stateMismatch
  | unhashableType
  | nonFiniteNumber

def JournalError.text : JournalError → String
  | stateBoundary => "user-data state boundary is invalid"
  | stateCounters => "user-data state counters are invalid"
  | hashMismatch => "user-data evidence hash mismatch at line"
  | semantics => "user-data evidence semantics invalid at line"
  | duplicateEvent => "duplicate stable user-data event at line"
  | stateMismatch => "user-data state and journal mismatch"
  | unhashableType => "unhashable type"
  | nonFiniteNumber => "Out of range float values are not JSON compliant"

def testnetStreamHost : String := "demo-fstream.binance.com"

def allowedUserEventTypes : List String :=
  ["ORDER_TRADE_UPDATE", "ACCOUNT_UPDATE", "ALGO_UPDATE", "listenKeyExpired"]

/-- What `_verify_user_data_evidence` returns, with the ids it has seen. -/
structure EvidenceSummary where
  recordCount : ℕ
  eventTypeCounts : Counts
  finalRecordSha256 : String
  seen : Finset String

def EvidenceSummary.empty : EvidenceSummary where
  recordCount := 0
  eventTypeCounts := ∅
  finalRecordSha256 := zeroSha256
  seen := ∅

/-- `counts[event_type] = counts.get(event_type, 0) + 1` -/
def countType (counts : Counts) (eventType : String) : Counts :=
  counts.insert eventType ((counts.lookup eventType).getD 0 + 1)

section Journal

variable (hashing : Hashing)

def EventContent.meaningful (content : EventContent) : Bool :=
  content.schemaVersion = "1.0.0" && content.recordType = "TESTNET_USER_DATA_EVENT" &&
    decide (content.rawEventType ∈ allowedUserEventTypes) && content.eventTimeMs.isInt &&
    content.environment = "testnet" && content.productionEndpointRequests = 0 &&
    content.stableEventId = hashing.event content.payload

def EventContent.canonical (content : EventContent) : Bool :=
  content.eventTimeMs.canonical && fieldsCanonical content.payload

/-- The loop body of `_verify_user_data_evidence`. -/
def verifyRecord (summary : EvidenceSummary) (record : EvidenceRecord) :
    Except JournalError EvidenceSummary :=
  let expected := hashing.record record.content record.previousSha256
  if !record.content.canonical then .error .nonFiniteNumber
  else if record.previousSha256 ≠ summary.finalRecordSha256 ∨ record.recordSha256 ≠ expected then
    .error .hashMismatch
  else if !record.content.meaningful hashing then .error .semantics
  else if record.content.stableEventId ∈ summary.seen then .error .duplicateEvent
  else .ok {
    recordCount := summary.recordCount + 1
    eventTypeCounts := countType summary.eventTypeCounts record.content.rawEventType
    finalRecordSha256 := expected
    seen := insert record.content.stableEventId summary.seen }

def verifyUserDataEvidence (records : List EvidenceRecord) : Except JournalError EvidenceSummary :=
  records.foldlM (verifyRecord hashing) .empty

structure Journal where
  seen : Finset String
  lastRecordSha256 : String
  state : StateDocument

/-- Two readings of the clock: one for the call, one for `updated_at`. -/
structure Clock where
  now : String
  updated : String

def initialState (updatedAt : String) : StateDocument where
  schemaVersion := "1.0.0"
  status := "STARTING"
  environment := "testnet"
  streamAuthority := "BINANCE_TESTNET_FSTREAM"
  destinationHost := testnetStreamHost
  productionEndpointRequests := 0
  connectionAttemptCount := 0
  connectionCount := 0
  reconnectCount := 0
  keepaliveCount := 0
  acceptedEventCount := 0
  duplicateEventCount := 0
  invalidEventCount := 0
  eventTypeCounts := ∅
  lastEventAt := none
  lastConnectedAt := none
  lastKeepaliveAt := none
  lastErrorType := none
  lastRecordSha256 := zeroSha256
  updatedAt := updatedAt

/-- The boundary that `_load_state` checks. -/
def StateDocument.bounded (document : StateDocument) : Bool :=
  document.schemaVersion = "1.0.0" && document.environment = "testnet" &&
    document.destinationHost = testnetStreamHost &&
    document.productionEndpointRequests = 0

def StateDocument.counted (document : StateDocument) : Bool :=
  decide (document.status ∈ ["STARTING", "RUNNING", "STOPPED"]) &&
    document.connectionCount ≤ document.connectionAttemptCount &&
    document.reconnectCount ≤ document.connectionAttemptCount &&
    isSha256 document.lastRecordSha256

/-- `_load_state`: the loaded document, if there is one. -/
def loadState (disk : Disk) : Except JournalError (Option StateDocument) :=
  match disk.state with
  | none => .ok none
  | some document =>
    if !document.bounded then .error .stateBoundary
    else if !document.counted then .error .stateCounters
    else .ok (some document)

def loadExisting (disk : Disk) (loaded : Option StateDocument) (updatedAt : String) :
    Except JournalError Journal :=
  let state := loaded.getD (initialState updatedAt)
  match disk.evidence with
  | none => .ok ⟨∅, zeroSha256, state⟩
  | some records => do
    let summary ← verifyUserDataEvidence hashing records
    if loaded.isSome ∧ (state.acceptedEventCount ≠ summary.recordCount ∨
        state.eventTypeCounts ≠ summary.eventTypeCounts ∨
        state.lastRecordSha256 ≠ summary.finalRecordSha256) then
      .error .stateMismatch
    else
      let linked := { state with lastRecordSha256 := summary.finalRecordSha256 }
      return ⟨summary.seen, summary.finalRecordSha256,
        if loaded.isSome then linked
        else { linked with
          acceptedEventCount := summary.recordCount
          eventTypeCounts := summary.eventTypeCounts }⟩

structure Outcome where
  result : Except JournalError Bool
  journal : Journal
  operations : List FileOp

/-- `_write_state_locked`, after the fields were set. -/
def Journal.writeState (journal : Journal) (result : Bool) (clock : Clock) : Outcome :=
  let state := { journal.state with updatedAt := clock.updated }
  ⟨.ok result, { journal with state := state }, [.replaceState state]⟩

def openJournal (disk : Disk) (clock : Clock) : Except JournalError (Journal × Disk) := do
  let loaded ← loadState disk
  let journal ← loadExisting hashing disk loaded clock.now
  let outcome := journal.writeState true clock
  return (outcome.journal, disk.performAll outcome.operations)

inductive JournalCall where
  | markRunning
  | markStopped
  | noteConnectionAttempt
  | noteConnected
  | noteKeepalive
  | noteError (typeName : String)
  | recordEvent (document : Fields) (receivedAt : Option String)

namespace Journal

def markRunning (journal : Journal) (clock : Clock) : Outcome :=
  writeState { journal with state.status := "RUNNING" } true clock

def markStopped (journal : Journal) (clock : Clock) : Outcome :=
  writeState { journal with state.status := "STOPPED" } true clock

def noteConnectionAttempt (journal : Journal) (clock : Clock) : Outcome :=
  let reconnect := 0 < journal.state.connectionAttemptCount
  writeState { journal with
    state.connectionAttemptCount := journal.state.connectionAttemptCount + 1
    state.reconnectCount := if reconnect then journal.state.reconnectCount + 1
      else journal.state.reconnectCount } true clock

def noteConnected (journal : Journal) (clock : Clock) : Outcome :=
  writeState { journal with
    state.connectionCount := journal.state.connectionCount + 1
    state.lastConnectedAt := some clock.now
    state.lastErrorType := none } true clock

def noteKeepalive (journal : Journal) (clock : Clock) : Outcome :=
  writeState { journal with
    state.keepaliveCount := journal.state.keepaliveCount + 1
    state.lastKeepaliveAt := some clock.now } true clock

def noteError (journal : Journal) (typeName : String) (clock : Clock) : Outcome :=
  writeState { journal with state.lastErrorType := some typeName } true clock

def contentOf (eventType : String) (document : Fields) (receivedAt : String) : EventContent :=
  let sanitized := sanitizeEvent hashing.lower document
  { schemaVersion := "1.0.0"
    recordType := "TESTNET_USER_DATA_EVENT"
    rawEventType := eventType
    stableEventId := hashing.event sanitized
    eventTimeMs := get document "E"
    receivedAt := receivedAt
    payload := sanitized
    environment := "testnet"
    productionEndpointRequests := 0 }

/-- `_append_locked`: the record, and the journal with its hash. -/
def appended (journal : Journal) (content : EventContent) : EvidenceRecord × Journal :=
  let sha256 := hashing.record content journal.lastRecordSha256
  (⟨content, journal.lastRecordSha256, sha256⟩,
    { journal with lastRecordSha256 := sha256, state.lastRecordSha256 := sha256 })

/-- `record_event` of an event of an allowed type whose time is an integer. -/
def recordAllowed (journal : Journal) (eventType : String) (document : Fields)
    (receivedAt : Option String) (clock : Clock) : Outcome :=
  let sanitized := sanitizeEvent hashing.lower document
  if !fieldsCanonical sanitized then ⟨.error .nonFiniteNumber, journal, []⟩
  else if hashing.event sanitized ∈ journal.seen then
    writeState { journal with
      state.duplicateEventCount := journal.state.duplicateEventCount + 1 } false clock
  else
    let received := match receivedAt with
      | some text => if text = "" then clock.now else text
      | none => clock.now
    let content := contentOf hashing eventType document received
    let (record, linked) := journal.appended hashing content
    let outcome := writeState { linked with
      seen := insert content.stableEventId linked.seen
      state.acceptedEventCount := linked.state.acceptedEventCount + 1
      state.eventTypeCounts := countType linked.state.eventTypeCounts eventType
      state.lastEventAt := some received } true clock
    { outcome with operations := .appendEvidence record :: outcome.operations }

def recordInvalid (journal : Journal) (clock : Clock) : Outcome :=
  writeState { journal with
    state.invalidEventCount := journal.state.invalidEventCount + 1 } false clock

def recordEvent (journal : Journal) (document : Fields) (receivedAt : Option String)
    (clock : Clock) : Outcome :=
  match get document "e" with
  | .string eventType =>
    if eventType ∈ allowedUserEventTypes ∧ (get document "E").isInt then
      journal.recordAllowed hashing eventType document receivedAt clock
    else journal.recordInvalid clock
  -- a `frozenset` cannot be asked for a list or a dictionary
  | .array _ => ⟨.error .unhashableType, journal, []⟩
  | .object _ => ⟨.error .unhashableType, journal, []⟩
  | _ => journal.recordInvalid clock

def call (journal : Journal) (clock : Clock) : JournalCall → Outcome
  | .markRunning => journal.markRunning clock
  | .markStopped => journal.markStopped clock
  | .noteConnectionAttempt => journal.noteConnectionAttempt clock
  | .noteConnected => journal.noteConnected clock
  | .noteKeepalive => journal.noteKeepalive clock
  | .noteError typeName => journal.noteError typeName clock
  | .recordEvent document receivedAt => journal.recordEvent hashing document receivedAt clock

/-- `record_event` takes the document for a new event. -/
def accepts (journal : Journal) (document : Fields) : Bool :=
  match get document "e" with
  | .string eventType =>
    eventType ∈ allowedUserEventTypes ∧ (get document "E").isInt ∧
      fieldsCanonical (sanitizeEvent hashing.lower document) ∧
      hashing.event (sanitizeEvent hashing.lower document) ∉ journal.seen
  | _ => false

end Journal

end Journal

end AiQuant.UserStream
