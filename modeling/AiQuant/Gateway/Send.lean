import AiQuant.Lib.Trace
import AiQuant.Gateway.Request

/-! The send pipeline of the egress gateway (`GatewaySendApplication.__call__`, `send_once`):
one admitted request consumes its permit, is sent at most once, and is journaled.  The clock,
`uuid4`, the rate client and the transport are the outside world of a `Proc`; the state is the
journal-failed latch. -/
namespace AiQuant.Gateway

open AiQuant.Lib
open AiQuant.Lib.Proc (question read write)

/-- `_consume_request`, less its constant fields. -/
structure ConsumeRequest where
  messageId : String
  occurredAt : ℤ
  callerInstanceId : String
  correlationId : String
  permitId : String
  subjectCallerService : String
  subjectCallerInstanceId : String
  environment : Environment
  endpointAuthority : String
  endpointId : String
  gatewayConnectionId : Option String
  endpointCatalogHash : String
  canonicalRequestHash : String
  gatewayDerivedParameterHash : String
  gatewayDerivedWireBytesHash : String
  gatewayRequestDocumentHash : String
  gatewayDerivedOperationFacts : OperationFacts
  gatewayDerivedOperationFactsHash : String
  causalCapabilityPayloadHash : String
  expectedFencingEpoch : ℤ

inductive ConsumeDecision where
  | granted | denied
deriving DecidableEq

/-- The deadline of a reply, as its two readers take it: `_consume_response_matches`, and the
field of `ConsumeGranted` (where `malformed` is a `ValidationError`). -/
structure SendDeadline where
  iso : IsoTime
  model : IsoTime

/-- A document that the allocator answers with; an absent key is `none`. -/
structure ConsumeReply where
  messageType : String
  messageId : String
  callerService : String
  callerInstanceId : String
  correlationId : String
  requestMessageId : Option String
  permitId : Option String
  decision : Option ConsumeDecision
  /-- The inner `none` is `null`. -/
  gatewayConnectionId : Option (Option String)
  canonicalRequestHash : Option String
  gatewayDerivedParameterHash : Option String
  gatewayDerivedWireBytesHash : Option String
  gatewayRequestDocumentHash : Option String
  gatewayDerivedOperationFactsHash : Option String
  causalCapabilityPayloadHash : Option String
  capabilityNonceState : Option String
  fencingEpoch : Option ℤ
  sendDeadline : Option SendDeadline
  reasonCode : Option String

structure ConsumeGranted where
  permitId : String
  gatewayConnectionId : Option String
  fencingEpoch : ℤ
  /-- `none` is a date whose UTC value is out of range. -/
  sendDeadline : Option ℤ
  canonicalRequestHash : String
  gatewayDerivedParameterHash : String
  gatewayDerivedWireBytesHash : String
  gatewayDerivedOperationFactsHash : String
  causalCapabilityPayloadHash : String
  gatewayRequestDocumentHash : String
deriving DecidableEq

structure GatewayTransportResult where
  protocolStatus : String
  responsePayload : Bytes
  httpStatus : Option ℤ
  exchangeCode : Option ℤ
  connectionStateAfter : Option String
  sensitivityClass : String

inductive Outcome where
  | notSent | sentDefiniteResult | sentUnknown
deriving DecidableEq

structure OutcomeReceipt where
  permitId : String
  outcome : Outcome
  protocolStatus : String
  sentAt : Option ℤ

/-- A `SendOutcome` document, less its constant fields. -/
structure SendOutcome where
  messageId : String
  occurredAt : ℤ
  callerInstanceId : String
  correlationId : String
  permitId : String
  gatewayConnectionId : Option String
  transport : Transport
  canonicalRequestHash : String
  fencingEpoch : ℤ
  outcome : Outcome
  protocolStatus : String
  connectionStateAfter : Option String
  sentAt : Option ℤ
  httpStatus : Option ℤ
  exchangeCode : Option ℤ
  responseMessageHash : Option String
  resultReceiptHash : Option String

inductive SendStatus where
  | deniedBeforeConsume | consumeDenied | notSentAfterConsume | sentUnknown | sentDefiniteResult
deriving DecidableEq

/-- A `GatewaySendResult` document, less its constant fields. -/
structure GatewaySendResult where
  messageId : String
  occurredAt : ℤ
  correlationId : String
  requestMessageId : String
  permitId : String
  gatewayConnectionId : Option String
  status : SendStatus
  reasonCode : String
  protocolStatus : Option String
  httpStatus : Option ℤ
  exchangeCode : Option ℤ
  permitConsumeDecisionMessageId : Option String
  permitConsumeDecisionHash : Option String
  sendOutcomeMessageId : Option String
  sendOutcomeHash : Option String
  resultReceiptId : Option String
  responsePayload : Option Bytes
  responsePayloadHash : Option String
  sensitivityClass : String

/-- An exception: a `GatewayDenied`, another `Exception`, or one outside `Exception`. -/
inductive Raised where
  | denied (reason : String)
  | failed
  | interrupted

inductive ConsumeAnswer where
  | replied (reply : ConsumeReply)
  /-- An `OSError`, which timeouts and connection errors are. -/
  | unavailable
  | raised (exception : Raised)

inductive Query where
  | clock
  | uuid
  | consume (document : ConsumeRequest)
  | notify (document : SendOutcome)
  | transport (request : ClosedGatewayRequest) (wire : Bytes)

abbrev Answer : Query → Type
  | .clock => ℤ
  | .uuid => String
  | .consume _ => ConsumeAnswer
  | .notify _ => Except Raised Unit
  | .transport _ _ => Except Raised GatewayTransportResult

structure GatewayState where
  outcomeJournalFailed : Bool

abbrev GatewayProc := Proc GatewayState Query Answer

abbrev clock : GatewayProc ℤ := question Query.clock

abbrev uuid4 : GatewayProc String := question Query.uuid

/-- `RateClient.request` -/
abbrev rateRequest (document : ConsumeRequest) : GatewayProc ConsumeAnswer :=
  question (Query.consume document)

/-- `RateClient.notify` -/
abbrev rateNotify (document : SendOutcome) : GatewayProc (Except Raised Unit) :=
  question (Query.notify document)

abbrev sendWire (request : ClosedGatewayRequest) (wire : Bytes) :
    GatewayProc (Except Raised GatewayTransportResult) :=
  question (Query.transport request wire)

def orRaise {α β : Type} (attempt : Except Raised α) (next : α → GatewayProc (Except Raised β)) :
    GatewayProc (Except Raised β) :=
  match attempt with
  | .error raised => pure (.error raised)
  | .ok value => next value

structure SendConfig extends GatewayConfig where
  /-- The rate protocol's schema accepts the document. -/
  replyValid : ConsumeReply → Bool
  /-- `canonical_digest`; `none` where the document has no canonical form. -/
  replyDigest : ConsumeReply → Option String
  outcomeDigest : SendOutcome → Option String
  receiptDigest : OutcomeReceipt → String

namespace SendConfig

variable (config : SendConfig)

def consumeRequest (message : GatewayMessage) (request : ClosedGatewayRequest)
    (facts : OperationFacts) (binding : PermitBinding) (now : ℤ) (uuid : String) :
    ConsumeRequest where
  messageId := "rate-msg-" ++ uuid
  occurredAt := now
  callerInstanceId := config.instanceId
  correlationId := message.correlationId
  permitId := binding.permitId
  subjectCallerService := request.subjectCallerService
  subjectCallerInstanceId := request.subjectCallerInstanceId
  environment := request.environment
  endpointAuthority := request.endpointAuthority
  endpointId := request.endpointId
  gatewayConnectionId := request.gatewayConnectionId
  endpointCatalogHash := request.endpointCatalogHash
  canonicalRequestHash := request.canonicalRequestHash
  gatewayDerivedParameterHash := request.parameterHash
  gatewayDerivedWireBytesHash := request.wireBytesHash
  gatewayRequestDocumentHash := config.digests.requestDocument request
  gatewayDerivedOperationFacts := facts
  gatewayDerivedOperationFactsHash := config.digests.operationFacts facts
  causalCapabilityPayloadHash := binding.causalCapabilityPayloadHash
  expectedFencingEpoch := binding.fencingEpoch

/-- The fields of a reply that `_consume_response_matches` compares with `expected`. -/
def expectedFields (reply : ConsumeReply) (consume : ConsumeRequest)
    (request : ClosedGatewayRequest) (binding : PermitBinding) : Bool :=
  reply.messageType = "PermitConsumeDecision" && reply.callerService = "rate-budget-service" &&
    reply.callerInstanceId = config.rateInstanceId &&
    reply.correlationId = consume.correlationId &&
    reply.requestMessageId = some consume.messageId && reply.permitId = some binding.permitId &&
    reply.gatewayConnectionId.join = request.gatewayConnectionId &&
    reply.canonicalRequestHash = some request.canonicalRequestHash &&
    reply.gatewayDerivedParameterHash = some request.parameterHash &&
    reply.gatewayDerivedWireBytesHash = some request.wireBytesHash &&
    reply.gatewayRequestDocumentHash = some (config.digests.requestDocument request) &&
    reply.gatewayDerivedOperationFactsHash = some consume.gatewayDerivedOperationFactsHash &&
    reply.causalCapabilityPayloadHash = some binding.causalCapabilityPayloadHash &&
    reply.fencingEpoch = some binding.fencingEpoch

/-- `_consume_response_matches`; `none` is an `OverflowError`. -/
def consumeResponseMatches (reply : ConsumeReply) (consume : ConsumeRequest)
    (request : ClosedGatewayRequest) (binding : PermitBinding) : Option Bool :=
  if !config.expectedFields reply consume request binding then some false
  else if reply.decision ≠ some .granted then some true
  else match reply.sendDeadline with
    | none => some false
    | some sendDeadline =>
      match sendDeadline.iso, binding.expiresAt with
      | .malformed, _ => some false
      | .outOfRange, _ => none
      | .instant _, .malformed => some false
      | .instant _, .outOfRange => none
      | .instant deadline, .instant bindingExpiry =>
        some (reply.capabilityNonceState = some "CONSUMED" &&
          reply.reasonCode = some "RATE_PERMIT_CONSUMED" && deadline ≤ bindingExpiry &&
          deadline ≤ request.expiresAt)

/-- The pattern of a `Sha256` field. -/
def isSha256 (text : String) : Bool :=
  text.length = 64 && text.toList.all fun char => char.isDigit || ('a' ≤ char && char ≤ 'f')

def sha256Field (field : Option String) : Option String :=
  field.filter isSha256

def deadlineField : Option SendDeadline → Option (Option ℤ)
  | none => none
  | some deadline =>
    match deadline.model with
    | .malformed => none
    | .outOfRange => some none
    | .instant value => some (some value)

/-- `ConsumeGranted.model_validate` of a reply; `none` is a `KeyError` or a `ValidationError`. -/
def grant (reply : ConsumeReply) : Option ConsumeGranted := do
  let permitId ← reply.permitId
  let gatewayConnectionId ← reply.gatewayConnectionId
  let fencingEpoch ← reply.fencingEpoch
  let sendDeadline ← deadlineField reply.sendDeadline
  let canonicalRequestHash ← sha256Field reply.canonicalRequestHash
  let gatewayDerivedParameterHash ← sha256Field reply.gatewayDerivedParameterHash
  let gatewayDerivedWireBytesHash ← sha256Field reply.gatewayDerivedWireBytesHash
  let gatewayDerivedOperationFactsHash ← sha256Field reply.gatewayDerivedOperationFactsHash
  let causalCapabilityPayloadHash ← sha256Field reply.causalCapabilityPayloadHash
  let gatewayRequestDocumentHash ← sha256Field reply.gatewayRequestDocumentHash
  return { permitId, gatewayConnectionId, fencingEpoch, sendDeadline, canonicalRequestHash,
           gatewayDerivedParameterHash, gatewayDerivedWireBytesHash,
           gatewayDerivedOperationFactsHash, causalCapabilityPayloadHash,
           gatewayRequestDocumentHash }

/-- The fields of a permit binding that `send_once` is told to expect. -/
def expectedBinding (binding : PermitBinding) (facts : OperationFacts) :
    String × ℤ × String × String :=
  (binding.permitId, binding.fencingEpoch, config.digests.operationFacts facts,
    binding.causalCapabilityPayloadHash)

/-- The checks of `send_once`; an `OverflowError` of the deadline is a failure. -/
def sendOnceChecks (request : ClosedGatewayRequest) (grant : ConsumeGranted) (now : ℤ)
    (expected : String × ℤ × String × String) : Except Raised Unit :=
  match validateDestination request with
  | .error reason => .error (.denied reason)
  | .ok () =>
    if request.expiresAt ≤ now then .error (.denied "GATEWAY_REQUEST_EXPIRED")
    else match grant.sendDeadline with
      | none => .error .failed
      | some deadline =>
        if deadline ≤ now then .error (.denied "SEND_DEADLINE_EXPIRED")
        else if grant.permitId = "" then .error (.denied "PERMIT_ID_MISSING")
        else if (grant.permitId, grant.fencingEpoch, grant.gatewayDerivedOperationFactsHash,
              grant.causalCapabilityPayloadHash) = expected ∧
            grant.gatewayConnectionId = request.gatewayConnectionId ∧
            request.canonicalRequestHash = grant.canonicalRequestHash ∧
            request.parameterHash = grant.gatewayDerivedParameterHash ∧
            request.wireBytesHash = grant.gatewayDerivedWireBytesHash ∧
            config.digests.requestDocument request = grant.gatewayRequestDocumentHash then .ok ()
        else .error (.denied "CONSUME_GRANT_BINDING_MISMATCH")

/-- `send_once`, whose transport is handed the prepared bytes. -/
def sendOnce (request : ClosedGatewayRequest) (grant : ConsumeGranted) (wire : Bytes) (now : ℤ)
    (expected : String × ℤ × String × String) :
    GatewayProc (Except Raised GatewayTransportResult) :=
  match config.sendOnceChecks request grant now expected with
  | .error raised => pure (.error raised)
  | .ok () => sendWire request wire

/-- The loop of `_send_outcome`: whether one of the remaining attempts was acknowledged. -/
def notifyOutcome (document : SendOutcome) : ℕ → GatewayProc (Except Raised Bool)
  | 0 => pure (.ok false)
  | attempts + 1 => do
    match ← rateNotify document with
    | .ok () => pure (.ok true)
    | .error .interrupted => pure (.error .interrupted)
    | .error _ => notifyOutcome document attempts

structure Consumed where
  message : GatewayMessage
  request : ClosedGatewayRequest
  facts : OperationFacts
  binding : PermitBinding
  decisionMessageId : String
  decisionHash : String

/-- The document of `_send_outcome`. -/
def outcomeDocument (consumed : Consumed) (outcome : Outcome) (protocolStatus : String)
    (sentAt : Option ℤ) (transportResult : Option GatewayTransportResult) (uuid : String)
    (occurredAt : ℤ) : SendOutcome where
  messageId := "rate-msg-" ++ uuid
  occurredAt := occurredAt
  callerInstanceId := config.instanceId
  correlationId := consumed.message.correlationId
  permitId := consumed.binding.permitId
  gatewayConnectionId := consumed.request.gatewayConnectionId
  transport := consumed.request.transport
  canonicalRequestHash := consumed.request.canonicalRequestHash
  fencingEpoch := consumed.binding.fencingEpoch
  outcome := outcome
  protocolStatus := protocolStatus
  connectionStateAfter := transportResult.bind (·.connectionStateAfter)
  sentAt := sentAt
  httpStatus := transportResult.bind (·.httpStatus)
  exchangeCode := transportResult.bind (·.exchangeCode)
  responseMessageHash := transportResult.map (config.digests.sha256 ·.responsePayload)
  resultReceiptHash :=
    if outcome = .sentDefiniteResult then
      some (config.receiptDigest ⟨consumed.binding.permitId, outcome, protocolStatus, sentAt⟩)
    else none

def sendOutcome (consumed : Consumed) (outcome : Outcome) (protocolStatus : String)
    (sentAt : Option ℤ) (transportResult : Option GatewayTransportResult) :
    GatewayProc (Except Raised SendOutcome) := do
  let uuid ← uuid4
  let occurredAt ← clock
  let document :=
    config.outcomeDocument consumed outcome protocolStatus sentAt transportResult uuid occurredAt
  match ← notifyOutcome document 3 with
  | .error raised => pure (.error raised)
  | .ok true => pure (.ok document)
  | .ok false =>
    write fun state => { state with outcomeJournalFailed := true }
    pure (.error (.denied "ALLOCATOR_UNAVAILABLE"))

/-- The arguments of `_result`, with its defaults. -/
structure ResultFields where
  now : ℤ
  correlationId : String
  requestMessageId : String
  permitId : String
  gatewayConnectionId : Option String
  status : SendStatus
  reasonCode : String
  consumeMessageId : Option String := none
  consumeHash : Option String := none
  outcome : Option SendOutcome := none
  protocolStatus : Option String := none
  httpStatus : Option ℤ := none
  exchangeCode : Option ℤ := none
  responsePayload : Option Bytes := none
  responseHash : Option String := none
  sensitivityClass : String := "PUBLIC"

def ResultFields.document (fields : ResultFields) (uuid : String)
    (outcomeHash receiptId : Option String) : GatewaySendResult where
  messageId := "gateway-msg-" ++ uuid
  occurredAt := fields.now
  correlationId := fields.correlationId
  requestMessageId := fields.requestMessageId
  permitId := fields.permitId
  gatewayConnectionId := fields.gatewayConnectionId
  status := fields.status
  reasonCode := fields.reasonCode
  protocolStatus := fields.protocolStatus
  httpStatus := fields.httpStatus
  exchangeCode := fields.exchangeCode
  permitConsumeDecisionMessageId := fields.consumeMessageId
  permitConsumeDecisionHash := fields.consumeHash
  sendOutcomeMessageId := fields.outcome.map (·.messageId)
  sendOutcomeHash := outcomeHash
  resultReceiptId := receiptId
  responsePayload := fields.responsePayload
  responsePayloadHash := fields.responseHash
  sensitivityClass := fields.sensitivityClass

/-- `_result`, which fails on an outcome without a canonical form. -/
def result (fields : ResultFields) : GatewayProc (Except Raised GatewaySendResult) := do
  let uuid ← uuid4
  match fields.outcome with
  | none => pure (.ok (fields.document uuid none none))
  | some outcome =>
    match config.outcomeDigest outcome with
    | none => pure (.error .failed)
    | some outcomeHash =>
      let receipt ← uuid4
      pure (.ok (fields.document uuid (some outcomeHash) (some ("gateway-receipt-" ++ receipt))))

/-- The arguments of `_result` that every exit after the consume decision has in common. -/
def afterDecision (consumed : Consumed) (now : ℤ) (status : SendStatus) (reasonCode : String) :
    ResultFields where
  now := now
  correlationId := consumed.message.correlationId
  requestMessageId := consumed.message.messageId
  permitId := consumed.binding.permitId
  gatewayConnectionId := consumed.request.gatewayConnectionId
  status := status
  reasonCode := reasonCode
  consumeMessageId := some consumed.decisionMessageId
  consumeHash := some consumed.decisionHash

def reportNotSent (consumed : Consumed) (reasonCode : String) :
    GatewayProc (Except Raised GatewaySendResult) := do
  let journaled ← config.sendOutcome consumed .notSent "NOT_SENT" none none
  orRaise journaled fun outcome => do
    let now ← clock
    config.result { afterDecision consumed now .notSentAfterConsume reasonCode with
      outcome := some outcome }

def reportUnknown (consumed : Consumed) : GatewayProc (Except Raised GatewaySendResult) := do
  let sentAt ← clock
  let journaled ← config.sendOutcome consumed .sentUnknown "UNKNOWN" (some sentAt) none
  orRaise journaled fun outcome =>
    config.result { afterDecision consumed sentAt .sentUnknown "SEND_RESULT_UNKNOWN" with
      outcome := some outcome
      protocolStatus := some "UNKNOWN" }

def reportDefinite (consumed : Consumed) (transportResult : GatewayTransportResult) :
    GatewayProc (Except Raised GatewaySendResult) := do
  let sentAt ← clock
  let journaled ← config.sendOutcome consumed .sentDefiniteResult transportResult.protocolStatus
    (some sentAt) (some transportResult)
  orRaise journaled fun outcome =>
    let fits := transportResult.responsePayload.length ≤ consumed.message.maximumResponseBytes
    config.result { afterDecision consumed sentAt .sentDefiniteResult
        (if fits then "DEFINITE_EXCHANGE_RESULT" else "RESPONSE_TOO_LARGE") with
      outcome := some outcome
      protocolStatus := some transportResult.protocolStatus
      httpStatus := transportResult.httpStatus
      exchangeCode := transportResult.exchangeCode
      responsePayload := if fits then some transportResult.responsePayload else none
      responseHash := some (config.digests.sha256 transportResult.responsePayload)
      sensitivityClass := transportResult.sensitivityClass }

def sendGranted (consumed : Consumed) (grant : ConsumeGranted) :
    GatewayProc (Except Raised GatewaySendResult) :=
  match preparedWireBytes consumed.request with
  | .error reason => pure (.error (.denied reason))
  | .ok wire =>
    if config.digests.sha256 wire ≠ consumed.request.wireBytesHash then
      pure (.error (.denied localRequestInvalid))
    else do
      let now ← clock
      match ← config.sendOnce consumed.request grant wire now
          (config.expectedBinding consumed.binding consumed.facts) with
      | .ok transportResult => config.reportDefinite consumed transportResult
      -- the transport's own `GatewayDenied` ends here too
      | .error (.denied _) => config.reportNotSent consumed "SEND_DEADLINE_EXPIRED"
      | .error .failed => config.reportUnknown consumed
      | .error .interrupted => pure (.error .interrupted)

def handleReply (message : GatewayMessage) (request : ClosedGatewayRequest)
    (facts : OperationFacts) (binding : PermitBinding) (now : ℤ) (consume : ConsumeRequest)
    (reply : ConsumeReply) : GatewayProc (Except Raised GatewaySendResult) :=
  if !config.replyValid reply then pure (.error (.denied "ALLOCATOR_RESPONSE_INVALID"))
  else match config.replyDigest reply with
    | none => pure (.error .failed)
    | some consumeHash =>
      let consumed : Consumed := ⟨message, request, facts, binding, reply.messageId, consumeHash⟩
      match config.consumeResponseMatches reply consume request binding with
      | none => pure (.error .failed)
      | some false =>
        if reply.decision = some .granted then
          config.reportNotSent consumed "LOCAL_WRITE_NOT_ATTEMPTED"
        else pure (.error (.denied "ALLOCATOR_RESPONSE_INVALID"))
      | some true =>
        if reply.decision ≠ some .granted then
          config.result (afterDecision consumed now .consumeDenied "PERMIT_CONSUME_DENIED")
        else match grant reply with
          | none => config.reportNotSent consumed "LOCAL_WRITE_NOT_ATTEMPTED"
          | some granted => config.sendGranted consumed granted

def consumePermit (message : GatewayMessage) (request : ClosedGatewayRequest)
    (facts : OperationFacts) (binding : PermitBinding) (now : ℤ) :
    GatewayProc (Except Raised GatewaySendResult) := do
  let uuid ← uuid4
  let consume := config.consumeRequest message request facts binding now uuid
  match ← rateRequest consume with
  | .raised exception => pure (.error exception)
  | .unavailable => pure (.error (.denied "ALLOCATOR_UNAVAILABLE"))
  | .replied reply => config.handleReply message request facts binding now consume reply

/-- The reason that a result gives for a refusal of `_admit`. -/
def denialReason (reason : String) : String :=
  if reason ∈ ["CALLER_ACL_DENIED", "PERMIT_BINDING_INVALID"] then reason else localRequestInvalid

def call (message : GatewayMessage) (peer : PeerCredentials) :
    GatewayProc (Except Raised GatewaySendResult) := do
  let now ← clock
  let latched ← read (·.outcomeJournalFailed)
  match config.admit latched message peer now with
  | .error .overflow => pure (.error .failed)
  | .error (.refused reason) =>
    config.result
      { now
        correlationId := message.correlationId
        requestMessageId := message.messageId
        permitId := (message.permitBinding.map (·.permitId)).getD "invalid-permit"
        gatewayConnectionId := none
        status := .deniedBeforeConsume
        reasonCode := denialReason reason }
  | .ok (request, _, facts) =>
    match message.permitBinding with
    | none => pure (.error (.denied "PERMIT_BINDING_INVALID"))
    | some binding => config.consumePermit message request facts binding now

end SendConfig

end AiQuant.Gateway
