import AiQuant.Gateway.RateService
import AiQuant.UserStream.EventJournal

/-! Signed policies and causal capabilities (`rate_budget/authorization.py`): the trust bundle
that names the issuers and the callers, and the checks that a capability passes before a request
reaches the rate database.  Documents are the JSON values that they are read as; the digest of a
document, base64, time stamps and Ed25519 are parameters. -/
namespace AiQuant.RateControl
open AiQuant.Lib
open AiQuant.Gateway (PeerCredentials CapabilityBindings VerifiedCapability ProtocolAcl)
open AiQuant.UserStream (Json Fields get)

/-- What the checks rest on. -/
structure TrustPrimitives where
  /-- `canonical_digest(value).hex()` -/
  digest : Json → String
  /-- `fromisoformat` of a text with a time zone. -/
  parseTime : String → Option Time
  /-- `b64decode(value, validate=True)` -/
  decodeBase64 : String → Option (List UInt8)
  /-- The Ed25519 key with these bytes accepts the signature of a digest. -/
  verifies : List UInt8 → List UInt8 → String → Bool

/-- `if not condition: raise AuthorizationDenied(reason)` -/
def require (condition : Prop) [Decidable condition] (reason : String) : Except String Unit :=
  if condition then .ok () else .error reason

@[simp] theorem require_eq_ok_iff {condition : Prop} [Decidable condition] {reason : String}
    {result : Unit} : require condition reason = .ok result ↔ condition := by
  unfold require
  split_ifs with hc
  · exact iff_of_true rfl hc
  · exact iff_of_false (by rintro ⟨⟩) hc

def asMapping (value : Json) (reason : String) : Except String Fields :=
  match value with
  | .object fields => .ok fields
  | _ => .error reason

def textOf? : Json → Option String
  | .string text => some text
  | _ => none

def integerOf? : Json → Option ℤ
  | .integer value => some value
  | _ => none

/-- `value is False` -/
def isFalse : Json → Bool
  | .boolean value => !value
  | _ => false

def asText (value : Json) (reason : String) : Except String String :=
  match value with
  | .string text => .ok text
  | _ => .error reason

def asInteger (value : Json) (reason : String) : Except String ℤ :=
  match value with
  | .integer number => .ok number
  | _ => .error reason

def distinctItems {α : Type} [DecidableEq α] (read : Json → Option α) (allowEmpty : Bool)
    (value : Json) (reason : String) : Except String (List α) :=
  match value with
  | .array items =>
    match items.mapM read with
    | some found =>
      if found.Nodup ∧ (allowEmpty = true ∨ found ≠ []) then .ok found else .error reason
    | none => .error reason
  | _ => .error reason

def stringSet : Json → String → Except String (List String) :=
  distinctItems textOf? false

def stringSetOrEmpty : Json → String → Except String (List String) :=
  distinctItems textOf? true

def integerSet : Json → String → Except String (List ℤ) :=
  distinctItems integerOf? false

/-- One round of `_unique_by`. -/
def addUnique (field reason : String) (result : List (String × Fields)) (raw : Json) :
    Except String (List (String × Fields)) := do
  let item ← asMapping raw reason
  let key ← asText (get item field) reason
  require (result.lookup key = none) reason
  return result ++ [(key, item)]

def uniqueBy (items : Json) (field reason : String) : Except String (List (String × Fields)) :=
  match items with
  | .array items => items.foldlM (addUnique field reason) []
  | _ => .error reason

namespace TrustPrimitives

variable (primitives : TrustPrimitives)

/-- `_parse_time` -/
def time (value : Json) (reason : String) : Except String Time :=
  match (textOf? value).bind primitives.parseTime with
  | some instant => .ok instant
  | none => .error reason

/-- `_decode_base64` -/
def base64 (value : Json) (expectedBytes : ℕ) (reason : String) : Except String (List UInt8) :=
  match (textOf? value).bind primitives.decodeBase64 with
  | some decoded => if decoded.length = expectedBytes then .ok decoded else .error reason
  | none => .error reason

def verifyRotationProof (keyring oldKey newKey : Fields) (keyringHash : String) :
    Except String Unit := do
  let proof ← asMapping (get keyring "rotation_proof") "TRUST_ROOT_ROTATION_INVALID"
  require (textOf? (get proof "old_key_id") = textOf? (get oldKey "key_id") ∧
    textOf? (get proof "new_key_id") = textOf? (get newKey "key_id")) "TRUST_ROOT_ROTATION_INVALID"
  for (key, field) in
      [(oldKey, "old_signature_base64"), (newKey, "new_signature_base64")] do
    let publicKey ← primitives.base64 (get key "public_key_base64") 32
      "TRUST_ROOT_ROTATION_INVALID"
    let signature ← primitives.base64 (get proof field) 64 "TRUST_ROOT_ROTATION_INVALID"
    require (primitives.verifies publicKey signature keyringHash) "TRUST_ROOT_ROTATION_INVALID"

def keysOf (keys : List (String × Fields)) (status : String) : List Fields :=
  (keys.map Prod.snd).filter fun key => textOf? (get key "status") = some status

def verificationKey (keyring : Fields) (expectedKeyringHash keyId : String)
    (signedAt now : Time) : Except String (List UInt8) := do
  let content ← asMapping (get keyring "content") "TRUST_ROOT_INVALID"
  let calculatedHash := primitives.digest (.object content)
  require (textOf? (get keyring "keyring_hash") = some calculatedHash ∧
    calculatedHash = expectedKeyringHash) "TRUST_ROOT_HASH_MISMATCH"
  require (textOf? (get content "purpose") = some "HOST_CONTROL_CONFIG")
    "TRUST_ROOT_PURPOSE_MISMATCH"
  let revoked ← stringSetOrEmpty (get content "revoked_key_ids") "TRUST_ROOT_INVALID"
  let keys ← uniqueBy (get content "keys") "key_id" "TRUST_ROOT_INVALID"
  match keysOf keys "CURRENT", keysOf keys "NEXT" with
  | [current], [next] => primitives.verifyRotationProof keyring current next calculatedHash
  | [_], [] =>
    match get keyring "rotation_proof" with
    | .null => .ok ()
    | _ => .error "TRUST_ROOT_ROTATION_INVALID"
  | _, _ => .error "TRUST_ROOT_INVALID"
  match keys.lookup keyId with
  | none => .error "CONFIG_SIGNATURE_KEY_UNTRUSTED"
  | some key =>
    require (keyId ∉ revoked ∧ (textOf? (get key "status") = some "CURRENT" ∨
      textOf? (get key "status") = some "NEXT")) "CONFIG_SIGNATURE_KEY_UNTRUSTED"
    let notBefore ← primitives.time (get key "not_before") "TRUST_ROOT_INVALID"
    let notAfter ← primitives.time (get key "not_after") "TRUST_ROOT_INVALID"
    require (notBefore ≤ signedAt ∧ signedAt ≤ now ∧ now < notAfter)
      "CONFIG_SIGNATURE_KEY_EXPIRED"
    primitives.base64 (get key "public_key_base64") 32 "TRUST_ROOT_INVALID"

structure VerifiedSignedDocument where
  content : Fields
  contentHash : String
  signedAt : Time

def verifySignedConfigDocument (document keyring : Fields)
    (expectedKeyringHash hashField statusField : String) (now : Time) :
    Except String VerifiedSignedDocument := do
  let content ← asMapping (get document "content") "SIGNED_POLICY_INVALID"
  require (textOf? (get content statusField) = some "SIGNED_RUNTIME") "SIGNED_POLICY_NOT_RUNTIME"
  let digest := primitives.digest (.object content)
  require (textOf? (get document hashField) = some digest) "SIGNED_POLICY_HASH_MISMATCH"
  let signature ← asMapping (get document "signature") "SIGNED_POLICY_SIGNATURE_MISSING"
  require (textOf? (get signature "algorithm") = some "Ed25519") "SIGNED_POLICY_SIGNATURE_INVALID"
  let signedAt ← primitives.time (get signature "signed_at") "SIGNED_POLICY_SIGNATURE_INVALID"
  require (signedAt ≤ now) "SIGNED_POLICY_SIGNATURE_INVALID"
  let keyId ← asText (get signature "key_id") "SIGNED_POLICY_SIGNATURE_INVALID"
  let key ← primitives.verificationKey keyring expectedKeyringHash keyId signedAt now
  let bytes ← primitives.base64 (get signature "signature_base64") 64
    "SIGNED_POLICY_SIGNATURE_INVALID"
  require (primitives.verifies key bytes digest) "SIGNED_POLICY_SIGNATURE_INVALID"
  return { content, contentHash := digest, signedAt }

end TrustPrimitives

structure IssuerPolicy where
  keyId : String
  publicKey : List UInt8
  allowedOperationClasses : List String
  allowedSubjectServices : List String
  allowedEndpointAuthorities : List String
  allowedEnvironments : List String
  notBefore : Time
  notAfter : Time

structure CallerAcl where
  allowedPeerUids : List ℤ
  allowedPeerGids : List ℤ
  allowedIssuers : List String
  allowedEndpointAuthorities : List String
  allowedEnvironments : List String

structure AttestationSignerPolicy where
  keyId : String
  publicKey : List UInt8
  holderUid : ℤ
  holderGid : ℤ
  maxEvidenceTtlSeconds : ℤ
  refreshBeforeExpirySeconds : ℤ
  notBefore : Time
  notAfter : Time

structure RuntimeTrustBundle where
  bundleHash : String
  issuedAt : Time
  validUntil : Time
  issuers : List (String × IssuerPolicy)
  attestationSigner : AttestationSignerPolicy
  callers : List (String × CallerAcl)
  protocols : List (String × ProtocolAcl)

def readCaller (issuers : List (String × IssuerPolicy)) (entry : String × Fields) :
    Except String (String × CallerAcl) := do
  let raw := entry.2
  let allowedIssuers ← stringSet (get raw "allowed_issuers") "TRUST_BUNDLE_ACL_INVALID"
  require (∀ issuer ∈ allowedIssuers, (issuers.lookup issuer).any fun policy =>
    entry.1 ∈ policy.allowedSubjectServices) "TRUST_BUNDLE_ACL_NOT_CLOSED"
  let allowedPeerUids ← integerSet (get raw "allowed_peer_uids") "TRUST_BUNDLE_ACL_INVALID"
  let allowedPeerGids ← integerSet (get raw "allowed_peer_gids") "TRUST_BUNDLE_ACL_INVALID"
  let allowedEndpointAuthorities ← stringSet (get raw "allowed_endpoint_authorities")
    "TRUST_BUNDLE_ACL_INVALID"
  let allowedEnvironments ← stringSet (get raw "allowed_environments") "TRUST_BUNDLE_ACL_INVALID"
  return (entry.1,
    { allowedPeerUids := allowedPeerUids, allowedPeerGids, allowedIssuers,
      allowedEndpointAuthorities, allowedEnvironments })

def readProtocol (entry : String × Fields) : Except String (String × ProtocolAcl) := do
  let raw := entry.2
  let allowedPeerUids ← integerSet (get raw "allowed_peer_uids")
    "TRUST_BUNDLE_PROTOCOL_ACL_INVALID"
  let allowedPeerGids ← integerSet (get raw "allowed_peer_gids")
    "TRUST_BUNDLE_PROTOCOL_ACL_INVALID"
  let allowedMessageTypes ← stringSet (get raw "allowed_message_types")
    "TRUST_BUNDLE_PROTOCOL_ACL_INVALID"
  return (entry.1, { allowedPeerUids := allowedPeerUids, allowedPeerGids, allowedMessageTypes })

namespace TrustPrimitives

variable (primitives : TrustPrimitives)

def readIssuer (revoked : List String) (issuedAt validUntil : Time)
    (issuers : List (String × IssuerPolicy)) (entry : String × Fields) :
    Except String (List (String × IssuerPolicy)) := do
  let raw := entry.2
  let keyId ← asText (get raw "key_id") "TRUST_BUNDLE_ISSUER_INVALID"
  require ((∀ issuer ∈ issuers, issuer.2.keyId ≠ keyId) ∧ keyId ∉ revoked)
    "TRUST_BUNDLE_ISSUER_INVALID"
  let notBefore ← primitives.time (get raw "not_before") "TRUST_BUNDLE_ISSUER_INVALID"
  let notAfter ← primitives.time (get raw "not_after") "TRUST_BUNDLE_ISSUER_INVALID"
  require (issuedAt ≤ notBefore ∧ notBefore < notAfter ∧ notAfter ≤ validUntil)
    "TRUST_BUNDLE_ISSUER_INVALID"
  let publicKey ← primitives.base64 (get raw "public_key_base64") 32 "TRUST_BUNDLE_ISSUER_INVALID"
  let allowedOperationClasses ← stringSet (get raw "allowed_operation_classes")
    "TRUST_BUNDLE_ISSUER_INVALID"
  let allowedSubjectServices ← stringSet (get raw "allowed_subject_services")
    "TRUST_BUNDLE_ISSUER_INVALID"
  let allowedEndpointAuthorities ← stringSet (get raw "allowed_endpoint_authorities")
    "TRUST_BUNDLE_ISSUER_INVALID"
  let allowedEnvironments ← stringSet (get raw "allowed_environments")
    "TRUST_BUNDLE_ISSUER_INVALID"
  return issuers ++ [(entry.1,
    { keyId := keyId, publicKey, allowedOperationClasses, allowedSubjectServices,
      allowedEndpointAuthorities, allowedEnvironments, notBefore, notAfter })]

def readAttestationSigner (revoked : List String) (issuedAt validUntil : Time)
    (signers : List (String × Fields)) : Except String AttestationSignerPolicy :=
  match signers with
  | [(keyId, raw)] => do
    let notBefore ← primitives.time (get raw "not_before") "TRUST_BUNDLE_ATTESTATION_INVALID"
    let notAfter ← primitives.time (get raw "not_after") "TRUST_BUNDLE_ATTESTATION_INVALID"
    let holderUid ← asInteger (get raw "holder_uid") "TRUST_BUNDLE_ATTESTATION_INVALID"
    let holderGid ← asInteger (get raw "holder_gid") "TRUST_BUNDLE_ATTESTATION_INVALID"
    let maxTtl ← asInteger (get raw "max_evidence_ttl_seconds")
      "TRUST_BUNDLE_ATTESTATION_INVALID"
    let refreshBefore ← asInteger (get raw "refresh_before_expiry_seconds")
      "TRUST_BUNDLE_ATTESTATION_INVALID"
    require (keyId ∉ revoked ∧
      textOf? (get raw "purpose") = some "HOST_RATE_STARTUP_EVIDENCE" ∧
      textOf? (get raw "private_key_holder_service") = some "host-attestation-signer" ∧
      textOf? (get raw "payload") =
        some "RFC8785_JCS_UTF8_OF_CONTENT_THEN_SHA256_DIGEST_SIGNED_BY_ED25519" ∧
      isFalse (get raw "revoked") ∧
      1 ≤ holderUid ∧ 1 ≤ holderGid ∧ 1 ≤ maxTtl ∧ maxTtl ≤ 300 ∧ 1 ≤ refreshBefore ∧
      refreshBefore < maxTtl ∧ issuedAt ≤ notBefore ∧ notBefore < notAfter ∧
      notAfter ≤ validUntil) "TRUST_BUNDLE_ATTESTATION_INVALID"
    let publicKey ← primitives.base64 (get raw "public_key_base64") 32
      "TRUST_BUNDLE_ATTESTATION_INVALID"
    return { keyId := keyId, publicKey, holderUid, holderGid, maxEvidenceTtlSeconds := maxTtl,
             refreshBeforeExpirySeconds := refreshBefore, notBefore, notAfter }
  | _ => .error "TRUST_BUNDLE_ATTESTATION_INVALID"

def readBundle (content : Fields) (bundleHash : String) (issuedAt validUntil : Time) :
    Except String RuntimeTrustBundle := do
  let revoked ← stringSetOrEmpty (get content "revoked_key_ids") "TRUST_BUNDLE_INVALID"
  let rawIssuers ← uniqueBy (get content "issuers") "issuer" "TRUST_BUNDLE_INVALID"
  let issuers ← rawIssuers.foldlM (primitives.readIssuer revoked issuedAt validUntil) []
  let rawSigners ← uniqueBy (get content "attestation_signers") "key_id"
    "TRUST_BUNDLE_ATTESTATION_INVALID"
  let attestationSigner ← primitives.readAttestationSigner revoked issuedAt validUntil rawSigners
  let rawCallers ← uniqueBy (get content "caller_acl") "service" "TRUST_BUNDLE_INVALID"
  let expectedServices := issuers.flatMap fun issuer => issuer.2.allowedSubjectServices
  require ((∀ caller ∈ rawCallers, caller.1 ∈ expectedServices) ∧
    ∀ service ∈ expectedServices, service ∈ rawCallers.map Prod.fst)
    "TRUST_BUNDLE_ACL_NOT_CLOSED"
  let callers ← rawCallers.mapM (readCaller issuers)
  let rawProtocols ← uniqueBy (get content "protocol_acl") "service" "TRUST_BUNDLE_INVALID"
  let services := ["binance-egress-gateway", "rate-budget-service"]
  require ((∀ entry ∈ rawProtocols, entry.1 ∈ services) ∧
    ∀ service ∈ services, service ∈ rawProtocols.map Prod.fst) "TRUST_BUNDLE_PROTOCOL_ACL_INVALID"
  let protocols ← rawProtocols.mapM readProtocol
  require (isFalse (get content "gateway_holds_signing_key")) "TRUST_BUNDLE_GATEWAY_KEY_FORBIDDEN"
  return { bundleHash := bundleHash, issuedAt, validUntil, issuers, attestationSigner, callers,
           protocols }

def verifyRuntimeTrustBundle (bundle keyring : Fields) (expectedKeyringHash : String)
    (now : Time) : Except String RuntimeTrustBundle := do
  let content ← asMapping (get bundle "content") "TRUST_BUNDLE_INVALID"
  require (textOf? (get content "bundle_status") = some "SIGNED_RUNTIME")
    "TRUST_BUNDLE_NOT_RUNTIME"
  let bundleHash := primitives.digest (.object content)
  require (textOf? (get bundle "bundle_hash") = some bundleHash) "TRUST_BUNDLE_HASH_MISMATCH"
  let issuedAt ← primitives.time (get content "issued_at") "TRUST_BUNDLE_INVALID"
  let validUntil ← primitives.time (get content "valid_until") "TRUST_BUNDLE_INVALID"
  require (issuedAt ≤ now ∧ now < validUntil) "RATE_TRUST_BUNDLE_EXPIRED"
  let signature ← asMapping (get bundle "signature") "TRUST_BUNDLE_SIGNATURE_MISSING"
  require (textOf? (get signature "algorithm") = some "Ed25519") "TRUST_BUNDLE_SIGNATURE_INVALID"
  let signedAt ← primitives.time (get signature "signed_at") "TRUST_BUNDLE_SIGNATURE_INVALID"
  require (issuedAt ≤ signedAt ∧ signedAt ≤ now) "TRUST_BUNDLE_SIGNATURE_INVALID"
  let keyId ← asText (get signature "key_id") "TRUST_BUNDLE_SIGNATURE_INVALID"
  let key ← primitives.verificationKey keyring expectedKeyringHash keyId signedAt now
  let bytes ← primitives.base64 (get signature "signature_base64") 64
    "TRUST_BUNDLE_SIGNATURE_INVALID"
  require (primitives.verifies key bytes bundleHash) "TRUST_BUNDLE_SIGNATURE_INVALID"
  primitives.readBundle content bundleHash issuedAt validUntil

end TrustPrimitives

/-- `payload.get(field) == value` of a text or `None`. -/
def equalsOptional : Json → Option String → Bool
  | .string found, some text => found == text
  | .null, none => true
  | _, _ => false

theorem equalsOptional_unique {value : Json} {first second : Option String}
    (hf : equalsOptional value first) (hs : equalsOptional value second) : first = second := by
  cases value with
  | null =>
    cases first with
    | some _ => cases hf
    | none =>
      cases second with
      | some _ => cases hs
      | none => rfl
  | string text =>
    cases first with
    | none => cases hf
    | some one =>
      cases second with
      | none => cases hs
      | some two => rw [← beq_iff_eq.mp hf, ← beq_iff_eq.mp hs]
  | _ => cases hf

structure FixesBindings (payload : Fields) (bindings : CapabilityBindings) : Prop where
  callerService : textOf? (get payload "subject_caller_service") = some bindings.callerService
  environment : textOf? (get payload "environment") = some bindings.environment.text
  operationClass : textOf? (get payload "allowed_operation_class") = some bindings.operationClass
  endpointAuthority : textOf? (get payload "endpoint_authority") = some bindings.endpointAuthority
  endpointId : textOf? (get payload "endpoint_id") = some bindings.endpointId
  gatewayConnectionId : equalsOptional (get payload "gateway_connection_id")
    bindings.gatewayConnectionId
  canonicalRequestHash : textOf? (get payload "canonical_request_hash") =
    some bindings.canonicalRequestHash
  operationFactsHash : textOf? (get payload "operation_facts_hash") =
    some bindings.operationFactsHash
  causalRefType : textOf? (get payload "causal_ref_type") = some bindings.causalRefType
  causalRefId : textOf? (get payload "causal_ref_id") = some bindings.causalRefId

theorem fixesBindings_iff (data : Fields) (bindings : CapabilityBindings) :
    FixesBindings data bindings ↔
      textOf? (get data "subject_caller_service") = some bindings.callerService ∧
      textOf? (get data "environment") = some bindings.environment.text ∧
      textOf? (get data "allowed_operation_class") = some bindings.operationClass ∧
      textOf? (get data "endpoint_authority") = some bindings.endpointAuthority ∧
      textOf? (get data "endpoint_id") = some bindings.endpointId ∧
      equalsOptional (get data "gateway_connection_id") bindings.gatewayConnectionId ∧
      textOf? (get data "canonical_request_hash") = some bindings.canonicalRequestHash ∧
      textOf? (get data "operation_facts_hash") = some bindings.operationFactsHash ∧
      textOf? (get data "causal_ref_type") = some bindings.causalRefType ∧
      textOf? (get data "causal_ref_id") = some bindings.causalRefId :=
  ⟨fun ⟨h0, h1, h2, h3, h4, h5, h6, h7, h8, h9⟩ => ⟨h0, h1, h2, h3, h4, h5, h6, h7, h8, h9⟩,
    fun ⟨h0, h1, h2, h3, h4, h5, h6, h7, h8, h9⟩ => ⟨h0, h1, h2, h3, h4, h5, h6, h7, h8, h9⟩⟩

instance (payload : Fields) (bindings : CapabilityBindings) :
    Decidable (FixesBindings payload bindings) :=
  decidable_of_iff' _ (fixesBindings_iff payload bindings)

def CallerAcl.admits (acl : CallerAcl) (peer : PeerCredentials) (issuer : String)
    (bindings : CapabilityBindings) : Prop :=
  peer.uid ∈ acl.allowedPeerUids ∧ peer.gid ∈ acl.allowedPeerGids ∧
    issuer ∈ acl.allowedIssuers ∧
    bindings.endpointAuthority ∈ acl.allowedEndpointAuthorities ∧
    bindings.environment.text ∈ acl.allowedEnvironments

instance (acl : CallerAcl) (peer : PeerCredentials) (issuer : String)
    (bindings : CapabilityBindings) : Decidable (acl.admits peer issuer bindings) :=
  inferInstanceAs (Decidable (_ ∧ _))

def IssuerPolicy.covers (issuer : IssuerPolicy) (bindings : CapabilityBindings) : Prop :=
  bindings.callerService ∈ issuer.allowedSubjectServices ∧
    bindings.operationClass ∈ issuer.allowedOperationClasses ∧
    bindings.endpointAuthority ∈ issuer.allowedEndpointAuthorities ∧
    bindings.environment.text ∈ issuer.allowedEnvironments

instance (issuer : IssuerPolicy) (bindings : CapabilityBindings) :
    Decidable (issuer.covers bindings) :=
  inferInstanceAs (Decidable (_ ∧ _))

namespace TrustPrimitives

variable (primitives : TrustPrimitives)

def checkCapability (capability payload : Fields) (bundle : RuntimeTrustBundle)
    (bindings : CapabilityBindings) (peer : PeerCredentials) (now : Time) (issuerName : String)
    (issuer : IssuerPolicy) : Except String VerifiedCapability := do
  let payloadHash := primitives.digest (.object payload)
  let signature ← asMapping (get capability "signature") "RATE_CAPABILITY_SIGNATURE_INVALID"
  require (textOf? (get signature "algorithm") = some "Ed25519" ∧
    textOf? (get signature "key_id") = some issuer.keyId) "RATE_CAPABILITY_SIGNATURE_INVALID"
  let bytes ← primitives.base64 (get signature "signature_base64") 64
    "RATE_CAPABILITY_SIGNATURE_INVALID"
  require (primitives.verifies issuer.publicKey bytes payloadHash)
    "RATE_CAPABILITY_SIGNATURE_INVALID"
  let issuedAt ← primitives.time (get payload "issued_at") "RATE_CAPABILITY_TIME_INVALID"
  let expiresAt ← primitives.time (get payload "expires_at") "RATE_CAPABILITY_TIME_INVALID"
  require (issuer.notBefore ≤ issuedAt ∧ issuedAt ≤ now ∧ now < expiresAt ∧
    expiresAt ≤ issuer.notAfter ∧ issuedAt < expiresAt) "RATE_CAPABILITY_TIME_INVALID"
  match bundle.callers.lookup bindings.callerService with
  | none => .error "RATE_CALLER_NOT_ALLOWED"
  | some acl =>
    require (acl.admits peer issuerName bindings) "RATE_CALLER_NOT_ALLOWED"
    require (issuer.covers bindings) "RATE_CAPABILITY_SCOPE_DENIED"
    require (FixesBindings payload bindings) "RATE_CAPABILITY_BINDING_MISMATCH"
    let nonce ← asText (get payload "nonce") "RATE_CAPABILITY_INVALID"
    return { payloadHash := payloadHash, nonce, expiresAt }

def verifyCausalCapability (capability : Fields) (bundle : RuntimeTrustBundle)
    (bindings : CapabilityBindings) (peer : PeerCredentials) (now : Time) :
    Except String VerifiedCapability := do
  require (bundle.issuedAt ≤ now ∧ now < bundle.validUntil) "RATE_TRUST_BUNDLE_EXPIRED"
  let payload ← asMapping (get capability "signed_payload") "RATE_CAPABILITY_INVALID"
  require (textOf? (get capability "payload_hash") = some (primitives.digest (.object payload)))
    "RATE_CAPABILITY_HASH_MISMATCH"
  let capabilityId ← asText (get payload "capability_id") "RATE_CAPABILITY_BINDING_MISMATCH"
  require (textOf? (get capability "capability_id") = some capabilityId)
    "RATE_CAPABILITY_BINDING_MISMATCH"
  let issuerName ← asText (get payload "issuer") "RATE_CAPABILITY_ISSUER_UNTRUSTED"
  match bundle.issuers.lookup issuerName with
  | none => .error "RATE_CAPABILITY_ISSUER_UNTRUSTED"
  | some issuer =>
    primitives.checkCapability capability payload bundle bindings peer now issuerName issuer

end TrustPrimitives

theorem environmentText_injective : Function.Injective Gateway.Environment.text := by
  intro first second hs
  cases first <;> cases second <;> first | rfl | exact absurd hs (by decide)

theorem FixesBindings.unique {data : Fields} {first second : CapabilityBindings}
    (hf : FixesBindings data first) (hs : FixesBindings data second) : first = second := by
  have ht : ∀ {field : String} {left right : String}, textOf? (get data field) = some left →
      textOf? (get data field) = some right → left = right :=
    fun hl hr => Option.some.inj (hl.symm.trans hr)
  have he : first.environment = second.environment :=
    environmentText_injective (ht hf.environment hs.environment)
  have hc : first.gatewayConnectionId = second.gatewayConnectionId :=
    equalsOptional_unique hf.gatewayConnectionId hs.gatewayConnectionId
  cases first
  cases second
  simp only [CapabilityBindings.mk.injEq]
  exact ⟨ht hf.callerService hs.callerService, he, ht hf.operationClass hs.operationClass,
    ht hf.endpointAuthority hs.endpointAuthority,
    ht hf.endpointId hs.endpointId, hc,
    ht hf.canonicalRequestHash hs.canonicalRequestHash,
    ht hf.operationFactsHash hs.operationFactsHash,
    ht hf.causalRefType hs.causalRefType,
    ht hf.causalRefId hs.causalRefId⟩

structure RuntimeTrustBundle.Closed (bundle : RuntimeTrustBundle) (revoked : List String) :
    Prop where
  unrevoked : ∀ issuer ∈ bundle.issuers, issuer.2.keyId ∉ revoked
  issuers : ∀ caller ∈ bundle.callers, ∀ name ∈ caller.2.allowedIssuers,
    ∃ issuer, bundle.issuers.lookup name = some issuer ∧ caller.1 ∈ issuer.allowedSubjectServices

/-- A capability that `verify_causal_capability` lets through. -/
structure AdmittedCapability (primitives : TrustPrimitives) (capability payload : Fields)
    (bundle : RuntimeTrustBundle) (bindings : CapabilityBindings) (peer : PeerCredentials)
    (issuerName : String) (issuer : IssuerPolicy) (acl : CallerAcl) : Prop where
  carries : get capability "signed_payload" = .object payload
  names : textOf? (get payload "issuer") = some issuerName
  issuerKnown : bundle.issuers.lookup issuerName = some issuer
  signed : ∃ bytes, primitives.verifies issuer.publicKey bytes (primitives.digest (.object payload))
  callerKnown : bundle.callers.lookup bindings.callerService = some acl
  admits : acl.admits peer issuerName bindings
  covers : issuer.covers bindings
  fixes : FixesBindings payload bindings

section Verified

variable {primitives : TrustPrimitives}

theorem asMapping_eq_ok_iff {value : Json} {reason : String} {fields : Fields} :
    asMapping value reason = .ok fields ↔ value = .object fields := by
  cases value with
  | object found => simp [asMapping]
  | _ => simp [asMapping]

theorem asText_eq_ok_iff {value : Json} {reason text : String} :
    asText value reason = .ok text ↔ textOf? value = some text := by
  cases value with
  | string found => simp [asText, textOf?]
  | _ => simp [asText, textOf?]

theorem verifyCausalCapability_admitted {capability : Fields} {bundle : RuntimeTrustBundle}
    {bindings : CapabilityBindings} {peer : PeerCredentials} {now : Time}
    {verified : VerifiedCapability}
    (hv : primitives.verifyCausalCapability capability bundle bindings peer now = .ok verified) :
    ∃ data issuerName issuer acl, AdmittedCapability primitives capability data bundle
      bindings peer issuerName issuer acl := by
  simp only [TrustPrimitives.verifyCausalCapability, bind_eq_ok_iff, require_eq_ok_iff,
    asMapping_eq_ok_iff, asText_eq_ok_iff, exists_const] at hv
  obtain ⟨_, data, hp, _, _, _, _, issuerName, hi, hv⟩ := hv
  split at hv
  · cases hv
  · next issuer his =>
    simp only [TrustPrimitives.checkCapability, bind_eq_ok_iff, require_eq_ok_iff,
      exists_const] at hv
    obtain ⟨_, _, _, bytes, _, hs, _, _, _, _, _, hv⟩ := hv
    split at hv
    · cases hv
    · next acl hacl =>
      simp only [bind_eq_ok_iff, require_eq_ok_iff, exists_const] at hv
      obtain ⟨ha, hc, hf, _⟩ := hv
      exact ⟨data, issuerName, issuer, acl, hp, hi, his, ⟨bytes, hs⟩, hacl, ha, hc, hf⟩

theorem readIssuer_unrevoked {revoked : List String} {issuedAt validUntil : Time}
    {issuers post : List (String × IssuerPolicy)} {entry : String × Fields}
    (hr : primitives.readIssuer revoked issuedAt validUntil issuers entry = .ok post)
    (hi : ∀ issuer ∈ issuers, issuer.2.keyId ∉ revoked) :
    ∀ issuer ∈ post, issuer.2.keyId ∉ revoked := by
  simp only [TrustPrimitives.readIssuer, bind_eq_ok_iff, require_eq_ok_iff, exists_const] at hr
  obtain ⟨keyId, _, hk, _, _, _, _, _, _, _, _, _, _, _, _, _, _, _, ha⟩ := hr
  cases ha
  rw [List.forall_mem_append]
  exact ⟨hi, by simpa using hk.2⟩

theorem readCaller_closed {issuers : List (String × IssuerPolicy)} {entry : String × Fields}
    {caller : String × CallerAcl} (hr : readCaller issuers entry = .ok caller) :
    ∀ name ∈ caller.2.allowedIssuers, ∃ issuer, issuers.lookup name = some issuer ∧
      caller.1 ∈ issuer.allowedSubjectServices := by
  simp only [readCaller, bind_eq_ok_iff, require_eq_ok_iff, exists_const] at hr
  obtain ⟨allowedIssuers, _, hc, _, _, _, _, _, _, _, _, hca⟩ := hr
  cases hca
  intro name hn
  obtain ⟨issuer, hi, ha⟩ := (Option.any_eq_true _ _).mp (hc name hn)
  exact ⟨issuer, hi, of_decide_eq_true ha⟩

theorem verifyRuntimeTrustBundle_closed {doc keyring : Fields} {expectedKeyringHash : String}
    {now : Time} {bundle : RuntimeTrustBundle}
    (hv : primitives.verifyRuntimeTrustBundle doc keyring expectedKeyringHash now = .ok bundle) :
    ∃ content revoked, get doc "content" = .object content ∧
      stringSetOrEmpty (get content "revoked_key_ids") "TRUST_BUNDLE_INVALID" = .ok revoked ∧
      bundle.Closed revoked := by
  simp only [TrustPrimitives.verifyRuntimeTrustBundle, bind_eq_ok_iff, require_eq_ok_iff,
    asMapping_eq_ok_iff, exists_const] at hv
  obtain ⟨content, hc, _, _, _, _, _, _, _, _, _, _, _, _, _, _, _, _, _, _, _, _, hre⟩ :=
    hv
  simp only [TrustPrimitives.readBundle, bind_eq_ok_iff, require_eq_ok_iff, exists_const] at hre
  obtain ⟨revoked, hr, rawIssuers, _, issuers, hi, _, _, _, _, rawCallers, _, _,
    callers, hca, _, _, _, _, _, _, hbu⟩ := hre
  cases hbu
  refine ⟨content, revoked, hc, hr, ?_, ?_⟩
  · exact foldlM_invariant (fun issuers => ∀ issuer ∈ issuers, issuer.2.keyId ∉ revoked)
      (fun _ _ _ _ hb hs => readIssuer_unrevoked hs hb) (by simp) hi
  · intro caller hcal
    obtain ⟨entry, _, hre⟩ := exists_of_mem_mapM hca hcal
    exact readCaller_closed hre

end Verified

end AiQuant.RateControl
