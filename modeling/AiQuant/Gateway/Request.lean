import AiQuant.Lib.Fallible
import Mathlib.Algebra.Order.Ring.Int

/-! Admission of a request at the egress gateway (`binance_egress/gateway.py`,
`contracts/models.py`): the closed request document, the endpoint contract it is checked
against, and `_admit`.  Base64 fields stand for what they decode to, instants are
microseconds, and the digests of the documents are parameters. -/
namespace AiQuant.Gateway

open AiQuant.Lib (bind_eq_ok_iff)

abbrev Bytes := List UInt8

/-- A base64 text, as `b64decode(..., validate=True)` reads it. -/
inductive Base64Text where
  | decoded (bytes : Bytes)
  | malformed

def Base64Text.decode : Base64Text → Option Bytes
  | decoded bytes => some bytes
  | malformed => none

/-- A text that `fromisoformat(...).astimezone(UTC)` reads: an instant, no date at all, or a
date whose UTC value is out of range (an `OverflowError`). -/
inductive IsoTime where
  | instant (value : ℤ)
  | malformed
  | outOfRange

inductive Environment where
  | shadow | paper | testnet | production
deriving DecidableEq

inductive Transport where
  | rest | wsApi | marketStreamControl
deriving DecidableEq

inductive Method where
  | get | post | put | delete | connect | send
deriving DecidableEq

def Method.text : Method → String
  | get => "GET"
  | post => "POST"
  | put => "PUT"
  | delete => "DELETE"
  | connect => "CONNECT"
  | send => "SEND"

inductive Scheme where
  | https | wss
deriving DecidableEq

inductive RequestKind where
  | structuredUnsigned | presignedImmutable
deriving DecidableEq

inductive ParameterLocation where
  | query | header | form | wsJson

inductive SensitivityClass where
  | none | apiKey | listenKey | signedQuery | privateStreamUrl

structure GatewayParameter where
  location : ParameterLocation
  name : String
  valueBase64 : Base64Text
  valueHash : String
  sensitivityClass : SensitivityClass

structure GatewayWebSocketFrame where
  frameType : String
  payloadBase64 : Base64Text
  payloadHash : String

structure ClosedGatewayRequest where
  requestId : String
  createdAt : ℤ
  expiresAt : ℤ
  subjectCallerService : String
  subjectCallerInstanceId : String
  environment : Environment
  endpointAuthority : String
  endpointId : String
  endpointCatalogHash : String
  endpointRequestSchemaHash : String
  gatewayConnectionId : Option String
  requestKind : RequestKind
  containsSensitiveMaterial : Bool
  transport : Transport
  method : Method
  scheme : Scheme
  host : String
  path : String
  parameters : List GatewayParameter
  bodyBase64 : Option Base64Text
  websocketFrame : Option GatewayWebSocketFrame
  immutableWireBytesBase64 : Option Base64Text
  parameterHash : String
  canonicalRequestHash : String
  wireBytesHash : String
  /-- `validity_window_is_positive` -/
  created_lt_expires : createdAt < expiresAt

structure OperationFacts where
  semanticAction : String
  transport : Transport
  orderRole : Option String
  reduceOnly : Option Bool
  closePosition : Option Bool
deriving DecidableEq

/-- The part of an `EndpointPolicy` that admission reads. -/
structure EndpointPolicy where
  endpointId : String
  authority : String
  transport : Transport
  method : Method
  path : String
  allowedOperationClasses : List String
  causalRoleClassMap : List (String × String)
  allowedParameterNames : List String
  requiredParameterNames : List String
  forbiddenParameterNames : List String
  requestSchemaSha256 : String

structure RuntimeEndpointCatalog where
  catalogHash : String
  validUntil : ℤ
  endpoints : List ((String × String) × EndpointPolicy)

structure CallerAcl where
  allowedPeerUids : List ℤ
  allowedPeerGids : List ℤ
  allowedEndpointAuthorities : List String
  allowedEnvironments : List Environment

structure RuntimeTrustBundle where
  validUntil : ℤ
  callers : List (String × CallerAcl)

structure PeerCredentials where
  pid : ℤ
  uid : ℤ
  gid : ℤ

/-- `permit_binding` of a message, as the gateway's protocol schema has it. -/
structure PermitBinding where
  permitId : String
  allocatedGatewayConnectionId : Option String
  endpointCatalogHash : String
  canonicalRequestHash : String
  parameterHash : String
  wireBytesHash : String
  requestDocumentHash : String
  operationFactsHash : String
  causalCapabilityPayloadHash : String
  fencingEpoch : ℤ
  expiresAt : IsoTime

/-- A message to the gateway.  A request document that `ClosedGatewayRequest` refuses is
`none`, as is one that is missing. -/
structure GatewayMessage where
  messageType : String
  messageId : String
  correlationId : String
  callerService : String
  callerInstanceId : String
  peerCredentialClaimHash : String
  requestDocument : Option ClosedGatewayRequest
  permitBinding : Option PermitBinding
  maximumResponseBytes : ℕ

/-- What `derive_parameter_hash` keeps of a parameter. -/
structure NormalizedParameter where
  location : ParameterLocation
  name : String
  valueHash : String
  sensitivityClass : SensitivityClass

/-- The document of `derive_canonical_request_hash`. -/
structure CanonicalRequest where
  endpointAuthority : String
  endpointId : String
  transport : Transport
  method : Method
  scheme : Scheme
  host : String
  path : String
  parameterHash : String
  wireBytesHash : String

structure Digests where
  sha256 : Bytes → String
  parameters : List NormalizedParameter → String
  operationFacts : OperationFacts → String
  canonicalRequest : CanonicalRequest → String
  requestDocument : ClosedGatewayRequest → String
  peerClaim : PeerCredentials → String → String → String

def localRequestInvalid : String := "LOCAL_REQUEST_INVALID"

def deny {α : Type} (reason : String) : Except String α :=
  .error reason

section Contract

variable (digests : Digests)

def normalizeParameter (parameter : GatewayParameter) : Except String NormalizedParameter :=
  match parameter.valueBase64.decode with
  | none => deny localRequestInvalid
  | some value =>
    if digests.sha256 value ≠ parameter.valueHash then deny localRequestInvalid
    else .ok ⟨parameter.location, parameter.name, parameter.valueHash, parameter.sensitivityClass⟩

def deriveParameterHash (request : ClosedGatewayRequest) : Except String String := do
  let normalized ← request.parameters.mapM (normalizeParameter digests)
  return digests.parameters normalized

def derivableActions : List String :=
  ["HOST_RATE_CONTROL", "MARKET_DATA_READ", "USER_STREAM_MAINTAIN", "CANCEL", "RECONCILE"]

def deriveOperationFacts (endpoint : EndpointPolicy) : Except String OperationFacts :=
  match endpoint.causalRoleClassMap with
  | [(semanticAction, _)] =>
    if semanticAction ∉ derivableActions then deny localRequestInvalid
    else .ok ⟨semanticAction, endpoint.transport, none, none, none⟩
  | _ => deny localRequestInvalid

def validateRequestKind (request : ClosedGatewayRequest) : Except String Unit :=
  match request.requestKind with
  | .presignedImmutable =>
    match request.immutableWireBytesBase64.bind (·.decode) with
    | none => deny localRequestInvalid
    | some wire =>
      if digests.sha256 wire ≠ request.wireBytesHash then deny localRequestInvalid else .ok ()
  | .structuredUnsigned =>
    if request.parameters ≠ [] ∨ request.bodyBase64.isSome = true then deny localRequestInvalid
    else .ok ()

def validateRequestAgainstEndpoint (request : ClosedGatewayRequest) (endpoint : EndpointPolicy) :
    Except String OperationFacts :=
  let names := request.parameters.map (·.name)
  if request.transport ≠ endpoint.transport ∨ request.method ≠ endpoint.method ∨
      request.path ≠ endpoint.path ∨
      request.endpointRequestSchemaHash ≠ endpoint.requestSchemaSha256 then
    deny localRequestInvalid
  else if ¬ names.Nodup ∨ ¬ (∀ name ∈ endpoint.requiredParameterNames, name ∈ names) ∨
      ¬ (∀ name ∈ names, name ∈ endpoint.allowedParameterNames) ∨
      (∃ name ∈ names, name ∈ endpoint.forbiddenParameterNames) then
    deny localRequestInvalid
  else do
    let parameterHash ← deriveParameterHash digests request
    if parameterHash ≠ request.parameterHash then deny localRequestInvalid
    else do
      validateRequestKind digests request
      deriveOperationFacts endpoint

/-- `str.encode("ascii")`; `none` is a `UnicodeEncodeError`. -/
def asciiBytes (text : String) : Option Bytes :=
  if text.toList.all (·.toNat < 128) then some (text.toList.map fun char => char.toNat.toUInt8)
  else none

def structuredHead (method : Method) (host path : String) : String :=
  method.text ++ " " ++ path ++ " HTTP/1.1\r\nHost: " ++ host ++ "\r\nConnection: close\r\n\r\n"

def preparedWireBytes (request : ClosedGatewayRequest) : Except String Bytes :=
  match request.requestKind with
  | .presignedImmutable =>
    match request.immutableWireBytesBase64.bind (·.decode) with
    | none => deny localRequestInvalid
    | some wire => .ok wire
  | .structuredUnsigned =>
    if request.parameters ≠ [] ∨ request.bodyBase64.isSome = true then deny localRequestInvalid
    else match asciiBytes (structuredHead request.method request.host request.path) with
      | none => deny "'ascii' codec can't encode"
      | some wire => .ok wire

def deriveCanonicalRequestHash (request : ClosedGatewayRequest) : String :=
  digests.canonicalRequest ⟨request.endpointAuthority, request.endpointId, request.transport,
    request.method, request.scheme, request.host, request.path, request.parameterHash,
    request.wireBytesHash⟩

def destinations : List ((String × Transport) × Scheme × String) :=
  [(("BINANCE_PRODUCTION_FAPI", .rest), .https, "fapi.binance.com"),
    (("BINANCE_PRODUCTION_FAPI", .wsApi), .wss, "ws-fapi.binance.com"),
    (("BINANCE_PRODUCTION_FSTREAM", .marketStreamControl), .wss, "fstream.binance.com"),
    (("BINANCE_TESTNET_FAPI", .rest), .https, "demo-fapi.binance.com"),
    (("BINANCE_TESTNET_FAPI", .wsApi), .wss, "testnet.binancefuture.com"),
    (("BINANCE_TESTNET_FSTREAM", .marketStreamControl), .wss, "demo-fstream.binance.com")]

def validateDestination (request : ClosedGatewayRequest) : Except String Unit :=
  let expected := destinations.lookup (request.endpointAuthority, request.transport)
  let environmentMatches :=
    if "BINANCE_TESTNET_".toList.isPrefixOf request.endpointAuthority.toList then
      request.environment = .testnet
    else request.environment ∈ [.shadow, .paper, .production]
  if ¬ environmentMatches ∨ expected ≠ some (request.scheme, request.host) then
    deny "DESTINATION_NOT_ALLOWLISTED"
  else .ok ()

end Contract

variable {α : Type}

theorem deny_if_eq_ok_iff {condition : Prop} [Decidable condition] {reason : String}
    {rest : Except String α} {value : α} :
    (if condition then deny reason else rest) = .ok value ↔ ¬ condition ∧ rest = .ok value := by
  split_ifs with hc
  · exact ⟨nofun, fun hr => absurd hc hr.1⟩
  · exact ⟨fun hr => ⟨hc, hr⟩, fun hr => hr.2⟩

/-- What `validate_request_against_endpoint` asks of the declared fields. -/
structure DeclaredAllowed (request : ClosedGatewayRequest) (endpoint : EndpointPolicy) : Prop where
  transport : request.transport = endpoint.transport
  method : request.method = endpoint.method
  path : request.path = endpoint.path
  schema : request.endpointRequestSchemaHash = endpoint.requestSchemaSha256
  nodup : (request.parameters.map (·.name)).Nodup
  required : ∀ name ∈ endpoint.requiredParameterNames, name ∈ request.parameters.map (·.name)
  allowed : ∀ name ∈ request.parameters.map (·.name), name ∈ endpoint.allowedParameterNames
  notForbidden : ∀ name ∈ request.parameters.map (·.name), name ∉ endpoint.forbiddenParameterNames

variable {request : ClosedGatewayRequest} {facts : OperationFacts}

theorem validateRequestAgainstEndpoint_eq_ok_iff {digests : Digests} {endpoint : EndpointPolicy} :
    validateRequestAgainstEndpoint digests request endpoint = .ok facts ↔
      DeclaredAllowed request endpoint ∧
        deriveParameterHash digests request = .ok request.parameterHash ∧
        validateRequestKind digests request = .ok () ∧
        deriveOperationFacts endpoint = .ok facts := by
  unfold validateRequestAgainstEndpoint
  simp only [deny_if_eq_ok_iff, bind_eq_ok_iff, not_or, not_not, not_exists, not_and]
  constructor
  · rintro ⟨⟨ht, hm, hpa, hs⟩, ⟨hn, hr, ha, hfo⟩, hash, hp, rfl, _, hk, hf⟩
    exact ⟨⟨ht, hm, hpa, hs, hn, hr, ha, hfo⟩, hp, hk, hf⟩
  · rintro ⟨h, hp, hk, hf⟩
    exact ⟨⟨h.transport, h.method, h.path, h.schema⟩,
      ⟨h.nodup, h.required, h.allowed, h.notForbidden⟩, _, hp, rfl, (), hk, hf⟩

/-- The configuration of a `GatewaySendApplication`. -/
structure GatewayConfig where
  digests : Digests
  trustBundle : RuntimeTrustBundle
  endpointCatalog : RuntimeEndpointCatalog
  instanceId : String
  rateInstanceId : String

/-- What `_admit` raises: something that its caller turns into a denial (a `GatewayDenied` or
a `ValueError`), or an `OverflowError`. -/
inductive AdmitFailure where
  | refused (reason : String)
  | overflow

def refuse {α : Type} (reason : String) : Except AdmitFailure α :=
  .error (.refused reason)

def orRefuse {α : Type} : Except String α → Except AdmitFailure α
  | .ok value => .ok value
  | .error reason => refuse reason

def GatewayConfig.callerAllowed (config : GatewayConfig) (message : GatewayMessage)
    (request : ClosedGatewayRequest) (peer : PeerCredentials) : Bool :=
  match config.trustBundle.callers.lookup message.callerService with
  | none => false
  | some acl =>
    peer.uid ∈ acl.allowedPeerUids && peer.gid ∈ acl.allowedPeerGids &&
      request.endpointAuthority ∈ acl.allowedEndpointAuthorities &&
      request.environment ∈ acl.allowedEnvironments &&
      request.subjectCallerService = message.callerService &&
      request.subjectCallerInstanceId = message.callerInstanceId &&
      message.peerCredentialClaimHash =
        config.digests.peerClaim peer message.callerService message.callerInstanceId

def GatewayConfig.bindingMatches (config : GatewayConfig) (binding : PermitBinding)
    (request : ClosedGatewayRequest) (facts : OperationFacts) : Bool :=
  binding.allocatedGatewayConnectionId = request.gatewayConnectionId &&
    binding.endpointCatalogHash = request.endpointCatalogHash &&
    binding.canonicalRequestHash = request.canonicalRequestHash &&
    binding.parameterHash = request.parameterHash &&
    binding.wireBytesHash = request.wireBytesHash &&
    binding.requestDocumentHash = config.digests.requestDocument request &&
    binding.operationFactsHash = config.digests.operationFacts facts

/-- The end of `_admit`: the permit binding. -/
def GatewayConfig.admitBinding (config : GatewayConfig) (binding : Option PermitBinding)
    (request : ClosedGatewayRequest) (facts : OperationFacts) (now : ℤ) :
    Except AdmitFailure Unit :=
  match binding with
  | none => refuse "PERMIT_BINDING_INVALID"
  | some binding =>
    match binding.expiresAt with
    | .malformed => refuse "PERMIT_BINDING_INVALID"
    | .outOfRange => .error .overflow
    | .instant expiry =>
      if expiry ≤ now ∨ expiry < request.expiresAt then refuse "PERMIT_BINDING_INVALID"
      else if !config.bindingMatches binding request facts then refuse "PERMIT_BINDING_INVALID"
      else .ok ()

/-- `_admit`; `latched` is `_outcome_journal_failed`. -/
def GatewayConfig.admit (config : GatewayConfig) (latched : Bool) (message : GatewayMessage)
    (peer : PeerCredentials) (now : ℤ) :
    Except AdmitFailure (ClosedGatewayRequest × EndpointPolicy × OperationFacts) :=
  if message.messageType ≠ "GatewaySendRequest" then refuse localRequestInvalid
  else if latched then refuse "ALLOCATOR_UNAVAILABLE"
  else match message.requestDocument with
  | none => refuse localRequestInvalid
  | some request =>
    if !config.callerAllowed message request peer then refuse "CALLER_ACL_DENIED"
    else if config.trustBundle.validUntil ≤ now ∨ config.endpointCatalog.validUntil ≤ now ∨
        request.endpointCatalogHash ≠ config.endpointCatalog.catalogHash then
      refuse localRequestInvalid
    else match config.endpointCatalog.endpoints.lookup
        (request.endpointAuthority, request.endpointId) with
    | none => refuse localRequestInvalid
    | some endpoint => do
      orRefuse (validateDestination request)
      if ¬ (request.createdAt ≤ now ∧ now < request.expiresAt) then refuse localRequestInvalid
      else do
        let facts ← orRefuse (validateRequestAgainstEndpoint config.digests request endpoint)
        let wire ← orRefuse (preparedWireBytes request)
        if config.digests.sha256 wire ≠ request.wireBytesHash ∨
            deriveCanonicalRequestHash config.digests request ≠ request.canonicalRequestHash then
          refuse localRequestInvalid
        else do
          config.admitBinding message.permitBinding request facts now
          return (request, endpoint, facts)

/-- A message that passes every check of `_admit`. -/
structure Admitted (config : GatewayConfig) (message : GatewayMessage) (peer : PeerCredentials)
    (now : ℤ) (request : ClosedGatewayRequest) (endpoint : EndpointPolicy)
    (facts : OperationFacts) (wire : Bytes) : Prop where
  messageType : message.messageType = "GatewaySendRequest"
  document : message.requestDocument = some request
  caller : config.callerAllowed message request peer = true
  bundleValid : now < config.trustBundle.validUntil
  catalogValid : now < config.endpointCatalog.validUntil
  catalogHash : request.endpointCatalogHash = config.endpointCatalog.catalogHash
  endpointFound : config.endpointCatalog.endpoints.lookup
    (request.endpointAuthority, request.endpointId) = some endpoint
  destination : validateDestination request = .ok ()
  window : request.createdAt ≤ now ∧ now < request.expiresAt
  contract : validateRequestAgainstEndpoint config.digests request endpoint = .ok facts
  wireBytes : preparedWireBytes request = .ok wire
  wireHash : config.digests.sha256 wire = request.wireBytesHash
  canonicalHash : deriveCanonicalRequestHash config.digests request = request.canonicalRequestHash
  binding : config.admitBinding message.permitBinding request facts now = .ok ()

theorem orRefuse_eq_ok_iff {result : Except String α} {value : α} :
    orRefuse result = .ok value ↔ result = .ok value := by
  cases result with
  | error reason => exact ⟨nofun, nofun⟩
  | ok found => simp [orRefuse]

theorem refuse_if_eq_ok_iff {condition : Prop} [Decidable condition]
    {reason : String} {rest : Except AdmitFailure α} {value : α} :
    (if condition then refuse reason else rest) = .ok value ↔ ¬ condition ∧ rest = .ok value := by
  split_ifs with hc
  · exact ⟨nofun, fun hr => absurd hc hr.1⟩
  · exact ⟨fun hr => ⟨hc, hr⟩, fun hr => hr.2⟩

theorem admitBinding_eq_ok_iff {config : GatewayConfig} {binding : Option PermitBinding} {now : ℤ} :
    config.admitBinding binding request facts now = .ok () ↔
      ∃ found expiry, binding = some found ∧ found.expiresAt = .instant expiry ∧ now < expiry ∧
        request.expiresAt ≤ expiry ∧ config.bindingMatches found request facts = true := by
  unfold GatewayConfig.admitBinding
  constructor
  · intro ha
    split at ha
    · cases ha
    rename_i found
    split at ha
    · cases ha
    · cases ha
    rename_i expiry he
    rw [refuse_if_eq_ok_iff, refuse_if_eq_ok_iff, not_or, not_le, not_lt] at ha
    exact ⟨found, expiry, rfl, he, ha.1.1, ha.1.2, by simpa using ha.2.1⟩
  · rintro ⟨found, expiry, rfl, he, hl, hc, hm⟩
    simp only [he, refuse_if_eq_ok_iff, not_or, not_le, not_lt, hm]
    exact ⟨⟨hl, hc⟩, by simp⟩

theorem admit_eq_ok_iff {config : GatewayConfig} {latched : Bool} {msg : GatewayMessage}
    {peer : PeerCredentials} {now : ℤ} {endpoint : EndpointPolicy} :
    config.admit latched msg peer now = .ok (request, endpoint, facts) ↔
      latched = false ∧ ∃ wire, Admitted config msg peer now request endpoint facts wire := by
  constructor
  · intro ha
    unfold GatewayConfig.admit at ha
    rw [refuse_if_eq_ok_iff, refuse_if_eq_ok_iff] at ha
    obtain ⟨ht, hl, ha⟩ := ha
    split at ha
    · cases ha
    rename_i doc hdo
    rw [refuse_if_eq_ok_iff, refuse_if_eq_ok_iff] at ha
    obtain ⟨hca, hv, ha⟩ := ha
    split at ha
    · cases ha
    rename_i found hf
    simp only [bind_eq_ok_iff, refuse_if_eq_ok_iff, orRefuse_eq_ok_iff] at ha
    obtain ⟨_, hd, hw, derived, hc, wire, hwi, hh, _, hb, hr⟩ := ha
    cases hr
    simp only [not_or, not_not, not_le] at hv hh hw ht
    exact ⟨by simpa using hl, wire, ht, hdo, by simpa using hca,
      hv.1, hv.2.1, hv.2.2, hf, hd, hw, hc, hwi,
      hh.1, hh.2, hb⟩
  · rintro ⟨rfl, wire, h⟩
    have hv : ¬ (config.trustBundle.validUntil ≤ now ∨ config.endpointCatalog.validUntil ≤ now ∨
        request.endpointCatalogHash ≠ config.endpointCatalog.catalogHash) := by
      simp [h.bundleValid, h.catalogValid, h.catalogHash]
    unfold GatewayConfig.admit
    simp only [refuse_if_eq_ok_iff, h.messageType, h.document, h.caller, h.endpointFound]
    refine ⟨by simp, by simp, by simp, hv, ?_⟩
    simp only [bind_eq_ok_iff, refuse_if_eq_ok_iff, orRefuse_eq_ok_iff]
    exact ⟨(), h.destination, not_not.mpr h.window, facts, h.contract, wire, h.wireBytes,
      by simp [h.wireHash, h.canonicalHash], (), h.binding, rfl⟩

/-! ## A gateway for the server time

One endpoint without parameters, and the digests of the two requests that are shown of it: one
that the gateway renders itself, and one whose bytes came with it. -/

def timeEndpoint : EndpointPolicy where
  endpointId := "REST_QUERY_TIME"
  authority := "BINANCE_PRODUCTION_FAPI"
  transport := .rest
  method := .get
  path := "/fapi/v1/time"
  allowedOperationClasses := ["HOST_RATE_CONTROL"]
  causalRoleClassMap := [("HOST_RATE_CONTROL", "HOST_RATE_CONTROL")]
  allowedParameterNames := []
  requiredParameterNames := []
  forbiddenParameterNames := ["apiSecret", "secretKey"]
  requestSchemaSha256 := "aaaaaaaaaaaaaaaaaaaaaaaaaaaaaaaaaaaaaaaaaaaaaaaaaaaaaaaaaaaaaaaa"

def timeNow : ℤ := 1783987200000000

def timeWireHash : String := "50a692d2306c61a271787bbb52584f8645ac80d4d7bf853a8bec26688fd2022c"

def otherWireHash : String := "ae7e9e42aa029b3c5d0600c084d9a425ef2d40b48f59644968f2979da43174ac"

def emptyHash : String := "e3b0c44298fc1c149afbf4c8996fb92427ae41e4649b934ca495991b7852b855"

def timeDigests : Digests where
  sha256 := fun bytes =>
    match bytes.head? with
    | none => emptyHash
    | some 71 => timeWireHash
    | some _ => otherWireHash
  parameters := fun _ => "4f53cda18c2baa0c0354bb5f9a3ecbe5ed12ab4d8e11ba873c2f11161202b945"
  operationFacts := fun _ => "5c8a832d6e4006913b06f6d187b38a4b2ec79c1311e15ca94b507990a81058c7"
  canonicalRequest := fun request =>
    if request.wireBytesHash = timeWireHash then
      "6c05445111f689040bf6b6db73a0051ba0ce6a5d413ad8b63c97ba0a066850c9"
    else "f33a7d835690e30c8dd8b9cd1013905483983b37682a151c107b0d99389fd339"
  requestDocument := fun request =>
    if request.requestKind = .structuredUnsigned then
      "61bb79f4ad8d22c92223da685639dc22f2fe1687083178e25c9d7b68fef1514f"
    else "2c4c0887ec8bf743158c8450b791ddb25a9fbe5af81a36dc4d42c7e430072bdd"
  peerClaim := fun _ _ _ => "efdd0b068d96ffd2c3f3535926dcecb8e438b60db2411c30be6a29444c47f9ca"

def timeGateway : GatewayConfig where
  digests := timeDigests
  trustBundle :=
    { validUntil := timeNow + 3600000000
      callers := [("host-bootstrap-runner",
        { allowedPeerUids := [1000]
          allowedPeerGids := [1000]
          allowedEndpointAuthorities := ["BINANCE_PRODUCTION_FAPI"]
          allowedEnvironments := [.production] })] }
  endpointCatalog :=
    { catalogHash := "aaaaaaaaaaaaaaaaaaaaaaaaaaaaaaaaaaaaaaaaaaaaaaaaaaaaaaaaaaaaaaaa"
      validUntil := timeNow + 86400000000
      endpoints := [(("BINANCE_PRODUCTION_FAPI", "REST_QUERY_TIME"), timeEndpoint)] }
  instanceId := "gateway-1"
  rateInstanceId := "rate-1"

def timePeer : PeerCredentials := ⟨100, 1000, 1000⟩

def timeRequest : ClosedGatewayRequest where
  requestId := "gateway-request-1"
  createdAt := timeNow
  expiresAt := timeNow + 1000000
  subjectCallerService := "host-bootstrap-runner"
  subjectCallerInstanceId := "host-bootstrap-01"
  environment := .production
  endpointAuthority := "BINANCE_PRODUCTION_FAPI"
  endpointId := "REST_QUERY_TIME"
  endpointCatalogHash := "aaaaaaaaaaaaaaaaaaaaaaaaaaaaaaaaaaaaaaaaaaaaaaaaaaaaaaaaaaaaaaaa"
  endpointRequestSchemaHash := "aaaaaaaaaaaaaaaaaaaaaaaaaaaaaaaaaaaaaaaaaaaaaaaaaaaaaaaaaaaaaaaa"
  gatewayConnectionId := none
  requestKind := .structuredUnsigned
  containsSensitiveMaterial := false
  transport := .rest
  method := .get
  scheme := .https
  host := "fapi.binance.com"
  path := "/fapi/v1/time"
  parameters := []
  bodyBase64 := none
  websocketFrame := none
  immutableWireBytesBase64 := none
  parameterHash := "4f53cda18c2baa0c0354bb5f9a3ecbe5ed12ab4d8e11ba873c2f11161202b945"
  canonicalRequestHash := "6c05445111f689040bf6b6db73a0051ba0ce6a5d413ad8b63c97ba0a066850c9"
  wireBytesHash := timeWireHash
  created_lt_expires := by decide

def timeBinding (request : ClosedGatewayRequest) : PermitBinding where
  permitId := "permit-1"
  allocatedGatewayConnectionId := none
  endpointCatalogHash := request.endpointCatalogHash
  canonicalRequestHash := request.canonicalRequestHash
  parameterHash := request.parameterHash
  wireBytesHash := request.wireBytesHash
  requestDocumentHash := timeDigests.requestDocument request
  operationFactsHash := "5c8a832d6e4006913b06f6d187b38a4b2ec79c1311e15ca94b507990a81058c7"
  causalCapabilityPayloadHash := "aaaaaaaaaaaaaaaaaaaaaaaaaaaaaaaaaaaaaaaaaaaaaaaaaaaaaaaaaaaaaaaa"
  fencingEpoch := 1
  expiresAt := .instant (timeNow + 2000000)

def timeMessage (request : ClosedGatewayRequest) : GatewayMessage where
  messageType := "GatewaySendRequest"
  messageId := "gateway-msg-0"
  correlationId := "correlation-1"
  callerService := "host-bootstrap-runner"
  callerInstanceId := "host-bootstrap-01"
  peerCredentialClaimHash := "efdd0b068d96ffd2c3f3535926dcecb8e438b60db2411c30be6a29444c47f9ca"
  requestDocument := some request
  permitBinding := some (timeBinding request)
  maximumResponseBytes := 65536

def timeFacts : OperationFacts := ⟨"HOST_RATE_CONTROL", .rest, none, none, none⟩

def timeWire : Bytes :=
  (asciiBytes (structuredHead .get "fapi.binance.com" "/fapi/v1/time")).getD []

theorem timeRequest_admitted : Admitted timeGateway (timeMessage timeRequest) timePeer timeNow
    timeRequest timeEndpoint timeFacts timeWire where
  messageType := rfl
  document := rfl
  caller := by
    simp [GatewayConfig.callerAllowed, timeGateway, timeMessage, timeRequest, timePeer, timeDigests]
  bundleValid := by simp [timeGateway]
  catalogValid := by simp [timeGateway]
  catalogHash := rfl
  endpointFound := by simp [timeGateway, timeRequest]
  destination := by
    rw [validateDestination]
    simp [timeRequest, destinations]
  window := by simp [timeRequest]
  contract := by
    refine validateRequestAgainstEndpoint_eq_ok_iff.mpr
      ⟨⟨rfl, rfl, rfl, rfl, ?_, ?_, ?_, ?_⟩, rfl, rfl, ?_⟩
    · simp [timeRequest]
    · simp [timeEndpoint]
    · simp [timeRequest]
    · simp [timeRequest]
    · simp [deriveOperationFacts, timeEndpoint, timeFacts, derivableActions]
  wireBytes := by
    have ha : asciiBytes (structuredHead .get "fapi.binance.com" "/fapi/v1/time") =
        some timeWire := by decide
    simp [preparedWireBytes, timeRequest, ha]
  wireHash := by decide
  canonicalHash := by
    simp [timeGateway, timeDigests, timeRequest, deriveCanonicalRequestHash]
  binding := by
    refine admitBinding_eq_ok_iff.mpr ⟨timeBinding timeRequest, timeNow + 2000000, rfl, rfl, ?_, ?_,
      ?_⟩
    · simp
    · simp [timeRequest]
    · simp [GatewayConfig.bindingMatches, timeBinding, timeRequest, timeGateway, timeDigests]

end AiQuant.Gateway
