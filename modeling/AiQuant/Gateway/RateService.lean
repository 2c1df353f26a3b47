import AiQuant.RateControl.Budget
import AiQuant.Gateway.Send

/-! The rate-budget service between its callers and the host database
(`rate_budget/application.py`, `rate_budget/postgres.py`): what `_reserve` and `_gateway` check
of a message, and the arguments they hand to `reserve_permit_v2` and `consume_permit_v2`.
Messages are those that the protocol's schema can accept; the verification of a causal
capability and the digests are parameters. -/
namespace AiQuant.Gateway

open AiQuant.Lib
open AiQuant.RateControl (Database)

def Environment.text : Environment → String
  | shadow => "shadow"
  | paper => "paper"
  | testnet => "testnet"
  | production => "production"

/-- A `ReserveRequest`, less its constant fields and those that only the audit row keeps. -/
structure ReserveMessage where
  requestKey : String
  callerService : String
  callerInstanceId : String
  environment : Environment
  endpointAuthority : String
  endpointId : String
  gatewayConnectionId : Option String
  endpointCatalogHash : String
  canonicalRequestHash : String
  parameterHash : String
  wireBytesHash : String
  gatewayRequestDocumentHash : String
  operationFacts : OperationFacts
  operationFactsHash : String
  causalRefType : String
  causalRefId : String
  /-- The canonical text of the capability document. -/
  causalCapability : String
  expectedFencingEpoch : ℤ

structure CapabilityBindings where
  callerService : String
  environment : Environment
  operationClass : String
  endpointAuthority : String
  endpointId : String
  gatewayConnectionId : Option String
  canonicalRequestHash : String
  operationFactsHash : String
  causalRefType : String
  causalRefId : String

/-- The part of a `VerifiedCapability` that a reservation stores. -/
structure VerifiedCapability where
  payloadHash : String
  nonce : String
  expiresAt : ℤ

structure ProtocolAcl where
  allowedPeerUids : List ℤ
  allowedPeerGids : List ℤ
  allowedMessageTypes : List String

/-- A `RateBudgetApplication` with its `PostgresRateAuthority`. -/
structure RateService where
  digests : Digests
  endpointCatalog : RuntimeEndpointCatalog
  bundleValidUntil : ℤ
  protocols : List (String × ProtocolAcl)
  permitTtl : ℤ
  reserveValid : ReserveMessage → Bool
  consumeValid : ConsumeRequest → Bool
  verifyCausalCapability : String → CapabilityBindings → PeerCredentials → ℤ →
    Except String VerifiedCapability

namespace RateService

variable (service : RateService)

def allowedClass (endpoint : EndpointPolicy) (facts : OperationFacts) : Option String :=
  (endpoint.causalRoleClassMap.lookup facts.semanticAction).filter
    (· ∈ endpoint.allowedOperationClasses)

/-- The validity checks of `__call__`. -/
def checkValidity (now : ℤ) (schemaValid : Bool) : Except String Unit :=
  if service.bundleValidUntil ≤ now then deny "RATE_TRUST_BUNDLE_EXPIRED"
  else if service.endpointCatalog.validUntil ≤ now then deny "RATE_ENDPOINT_CATALOG_MISMATCH"
  else if !schemaValid then deny "RATE_PROTOCOL_SCHEMA_INVALID"
  else .ok ()

def authorizeProtocolPeer (claimedService messageType : String) (peer : PeerCredentials) :
    Except String Unit :=
  match service.protocols.lookup claimedService with
  | none => deny "PROTOCOL_PEER_ACL_DENIED"
  | some acl =>
    if peer.uid ∉ acl.allowedPeerUids ∨ peer.gid ∉ acl.allowedPeerGids ∨
        messageType ∉ acl.allowedMessageTypes then
      deny "PROTOCOL_PEER_ACL_DENIED"
    else .ok ()

/-- The first half of `_reserve`: the class of the caller's facts. -/
def reserveClass (message : ReserveMessage) : Except String String :=
  if message.endpointCatalogHash ≠ service.endpointCatalog.catalogHash then
    deny "RATE_ENDPOINT_CATALOG_MISMATCH"
  else match service.endpointCatalog.endpoints.lookup
      (message.endpointAuthority, message.endpointId) with
  | none => deny "RATE_ENDPOINT_UNKNOWN"
  | some endpoint =>
    if message.operationFactsHash ≠ service.digests.operationFacts message.operationFacts then
      deny "RATE_OPERATION_FACTS_HASH_MISMATCH"
    else match allowedClass endpoint message.operationFacts with
      | none => deny "RATE_CAUSAL_ROLE_INVALID"
      | some operationClass => .ok operationClass

def capabilityBindings (message : ReserveMessage) (operationClass : String) :
    CapabilityBindings where
  callerService := message.callerService
  environment := message.environment
  operationClass := operationClass
  endpointAuthority := message.endpointAuthority
  endpointId := message.endpointId
  gatewayConnectionId := message.gatewayConnectionId
  canonicalRequestHash := message.canonicalRequestHash
  operationFactsHash := message.operationFactsHash
  causalRefType := message.causalRefType
  causalRefId := message.causalRefId

/-- The arguments of `reserve_permit_v2`. -/
def reserveArguments (message : ReserveMessage) (capability : VerifiedCapability)
    (operationClass permitUuid : String) (now : ℤ) : RateControl.ReserveRequest where
  permitId := "rate-permit-" ++ permitUuid
  requestKey := message.requestKey
  binding :=
    { subjectCallerService := message.callerService
      subjectCallerInstanceId := message.callerInstanceId
      environment := message.environment.text
      gatewayConnectionId := message.gatewayConnectionId
      endpointAuthority := message.endpointAuthority
      endpointId := message.endpointId
      endpointCatalogHash := message.endpointCatalogHash
      canonicalRequestHash := message.canonicalRequestHash
      parameterHash := message.parameterHash
      wireBytesHash := message.wireBytesHash
      operationFactsHash := message.operationFactsHash
      capabilityPayloadHash := capability.payloadHash
      gatewayRequestDocumentHash := message.gatewayRequestDocumentHash }
  derivedOperationClass := operationClass
  capabilityNonce := capability.nonce
  fencingEpoch := message.expectedFencingEpoch
  expiresAt := min capability.expiresAt (now + service.permitTtl)

/-- What the world gives a reservation: its clock readings, a fresh identifier, and whether
the rest of its transaction (the audit row) succeeds. -/
structure ReserveReadings where
  calledAt : ℤ
  verifiedAt : ℤ
  startedAt : ℤ
  leaseCheckedAt : ℤ
  executedAt : ℤ
  permitUuid : String
  audited : Bool

/-- `PostgresRateAuthority.reserve`: one transaction, undone as a whole.  Without a result the
caller is told `RATE_AUTHORITY_UNAVAILABLE`. -/
def reserve (database : Database) (request : RateControl.ReserveRequest)
    (readings : ReserveReadings) : Option RateControl.ReserveReply × Database :=
  if request.expiresAt ≤ readings.startedAt then (none, database)
  else match database.reservePermitV2 request readings.leaseCheckedAt readings.executedAt with
    | .error _ => (none, database)
    | .ok (reply, after) => if readings.audited then (some reply, after) else (none, database)

/-- `__call__` on a `ReserveRequest`. -/
def handleReserve (database : Database) (message : ReserveMessage) (peer : PeerCredentials)
    (readings : ReserveReadings) :
    Except String (Option RateControl.ReserveReply × Database) := do
  service.checkValidity readings.calledAt (service.reserveValid message)
  let operationClass ← service.reserveClass message
  let capability ← service.verifyCausalCapability message.causalCapability
    (capabilityBindings message operationClass) peer readings.verifiedAt
  return reserve database (service.reserveArguments message capability operationClass
    readings.permitUuid readings.startedAt) readings

/-- The checks of `_gateway` on a `PermitConsumeRequest`. -/
def checkConsume (message : ConsumeRequest) : Except String Unit :=
  if message.endpointCatalogHash ≠ service.endpointCatalog.catalogHash then
    deny "RATE_ENDPOINT_CATALOG_MISMATCH"
  else match service.endpointCatalog.endpoints.lookup
      (message.endpointAuthority, message.endpointId) with
  | none => deny "RATE_ENDPOINT_UNKNOWN"
  | some endpoint =>
    if message.gatewayDerivedOperationFactsHash ≠
        service.digests.operationFacts message.gatewayDerivedOperationFacts then
      deny "RATE_OPERATION_FACTS_HASH_MISMATCH"
    else if allowedClass endpoint message.gatewayDerivedOperationFacts = none ∨
        message.gatewayDerivedOperationFacts.transport ≠ endpoint.transport then
      deny "RATE_CAUSAL_ROLE_INVALID"
    else .ok ()

/-- The arguments of `consume_permit_v2`. -/
def consumeArguments (message : ConsumeRequest) : RateControl.ConsumeRequest where
  permitId := some message.permitId
  subjectService := some message.subjectCallerService
  subjectInstance := some message.subjectCallerInstanceId
  environment := some message.environment.text
  endpointAuthority := some message.endpointAuthority
  endpointId := some message.endpointId
  gatewayConnectionId := message.gatewayConnectionId
  catalogHash := some message.endpointCatalogHash
  canonicalHash := some message.canonicalRequestHash
  parameterHash := some message.gatewayDerivedParameterHash
  wireHash := some message.gatewayDerivedWireBytesHash
  operationFactsHash := some message.gatewayDerivedOperationFactsHash
  capabilityHash := some message.causalCapabilityPayloadHash
  documentHash := some message.gatewayRequestDocumentHash
  fencingEpoch := some message.expectedFencingEpoch
  gatewayInstanceId := some message.callerInstanceId

structure ConsumeReadings where
  calledAt : ℤ
  executedAt : ℤ
  audited : Bool

def consume (database : Database) (request : RateControl.ConsumeRequest)
    (readings : ConsumeReadings) : Option RateControl.ConsumeReply × Database :=
  if readings.audited then
    let (reply, after) := database.consumePermitV2 request readings.executedAt
    (some reply, after)
  else (none, database)

/-- `__call__` on a `PermitConsumeRequest`, whose `caller_service` is a constant. -/
def handleConsume (database : Database) (message : ConsumeRequest) (peer : PeerCredentials)
    (readings : ConsumeReadings) :
    Except String (Option RateControl.ConsumeReply × Database) := do
  service.checkValidity readings.calledAt (service.consumeValid message)
  service.authorizeProtocolPeer "binance-egress-gateway" "PermitConsumeRequest" peer
  service.checkConsume message
  return consume database (consumeArguments message) readings

end RateService

end AiQuant.Gateway
