import AiQuant.RateControl.DeclaredCosts

/-! Who may reserve.  The trust bundle decides three times: when the policies are ingested, when a
capability is checked, and, through the stored arrays, inside `reserve_permit_v2`.  A request that
passes the second check is never turned away by the third. -/
namespace AiQuant.RateControl
open AiQuant.Lib
open AiQuant.Gateway (PeerCredentials CapabilityBindings VerifiedCapability RateService
  ReserveMessage Digests Transport Method)
open AiQuant.UserStream (Json Fields get)

/-- What a `RateBudgetApplication` is made of.  The texts of a catalog's transports and methods
are read by the gateway only. -/
structure Deployment where
  primitives : TrustPrimitives
  digests : Digests
  bundle : RuntimeTrustBundle
  catalog : RuntimeEndpointCatalog
  /-- The document of a capability's canonical text. -/
  readCapability : String → Fields
  transportOf : String → Transport
  methodOf : String → Method
  permitTtl : ℤ
  reserveValid : ReserveMessage → Bool
  consumeValid : Gateway.ConsumeRequest → Bool

namespace Deployment

variable (deployment : Deployment)

def admissionView (policy : EndpointPolicy) : Gateway.EndpointPolicy where
  endpointId := policy.endpointId
  authority := policy.authority
  transport := deployment.transportOf policy.transport
  method := deployment.methodOf policy.method
  path := policy.path
  allowedOperationClasses := policy.allowedOperationClasses
  causalRoleClassMap := policy.causalRoleClassMap
  allowedParameterNames := policy.allowedParameterNames
  requiredParameterNames := policy.requiredParameterNames
  forbiddenParameterNames := policy.forbiddenParameterNames
  requestSchemaSha256 := policy.requestSchemaSha256

/-- The `RateBudgetApplication` with its `PostgresRateAuthority`. -/
def service : RateService where
  digests := deployment.digests
  endpointCatalog :=
    { catalogHash := deployment.catalog.catalogHash
      validUntil := deployment.catalog.validUntil
      endpoints := deployment.catalog.endpoints.map fun entry =>
        (entry.1, deployment.admissionView entry.2) }
  bundleValidUntil := deployment.bundle.validUntil
  protocols := deployment.bundle.protocols
  permitTtl := deployment.permitTtl
  reserveValid := deployment.reserveValid
  consumeValid := deployment.consumeValid
  verifyCausalCapability := fun capability bindings peer now =>
    deployment.primitives.verifyCausalCapability (deployment.readCapability capability)
      deployment.bundle bindings peer now

end Deployment

section Reasons

variable {db post : Database} {request : ReserveRequest} {leaseCheckedAt now : Time}
  {reply : ReserveReply}

def DeniesCaller (reasonCode : String) : Prop :=
  reasonCode = "RATE_CALLER_NOT_ALLOWED" ∨ reasonCode = "RATE_CAUSAL_ROLE_INVALID"

instance (reasonCode : String) : Decidable (DeniesCaller reasonCode) :=
  inferInstanceAs (Decidable (_ ∨ _))

theorem costRefusal_not_deniesCaller {auth reasonCode : String} {item : CostItem}
    (hr : db.costRefusal auth item now = some reasonCode) : ¬ DeniesCaller reasonCode := by
  unfold Database.costRefusal at hr
  split at hr
  · cases hr
    decide
  split at hr
  · cases hr
    decide
  split at hr
  · cases hr
    decide
  split at hr
  · cases hr
    decide
  · cases hr

theorem not_deniesCaller_denied {reasonCode : String} {epoch : ℤ} (ho : ¬ DeniesCaller reasonCode) :
    ¬ DeniesCaller (reserveDenied reasonCode epoch).reasonCode :=
  ho

theorem not_deniesCaller_granted : ¬ DeniesCaller "RATE_GRANTED" := by decide

theorem selectedCosts_of_deniesCaller
    (hc : db.reservePermitV2 request leaseCheckedAt now = .ok (reply, post))
    (hd : DeniesCaller reply.reasonCode) :
    db.selectedCosts request now = .error reply.reasonCode := by
  unfold Database.reservePermitV2 at hc
  split at hc
  swap
  · cases hc
    exact absurd hd (not_deniesCaller_denied (by decide))
  unfold Database.reserveUnderActiveLease at hc
  dsimp only at hc
  split at hc
  · cases hc
    exact absurd hd (not_deniesCaller_denied (by decide))
  split at hc
  · cases hc
    exact absurd hd (not_deniesCaller_denied (by decide))
  split at hc
  · cases hc
    exact absurd hd (not_deniesCaller_denied (by decide))
  split at hc
  · cases hc
    unfold ReserveRequest.replay at hd
    split at hd
    · exact absurd hd not_deniesCaller_granted
    · exact absurd hd (not_deniesCaller_denied (by decide))
  split at hc
  · next hs =>
    cases hc
    exact hs
  split at hc
  · next reasonCode hrefused =>
    cases hc
    obtain ⟨item, _, hr⟩ := List.exists_of_findSome?_eq_some hrefused
    exact absurd hd (costRefusal_not_deniesCaller hr)
  split at hc
  · cases hc
    exact absurd hd (not_deniesCaller_denied (by decide))
  rw [bind_eq_ok_iff] at hc
  obtain ⟨_, _, hc⟩ := hc
  cases hc
  exact absurd hd not_deniesCaller_granted

/-- A row that lists the caller and prices its class. -/
structure RuntimePolicy.Serves (policy : RuntimePolicy) (caller operationClass : String) :
    Prop where
  lists : caller ∈ policy.allowedCallers
  allows : operationClass ∈ policy.allowedOperationClasses
  prices : ∃ items, policy.classCostVectors.lookup operationClass = some (some items)

theorem RuntimePolicy.Serves.not_deniesCaller {policy : RuntimePolicy}
    (hse : policy.Serves request.binding.subjectCallerService request.derivedOperationClass)
    (hp : db.policyFor request.binding = some policy)
    (hc : db.reservePermitV2 request leaseCheckedAt now = .ok (reply, post)) :
    ¬ DeniesCaller reply.reasonCode := by
  intro hd
  have hs := selectedCosts_of_deniesCaller hc hd
  obtain ⟨items, hi⟩ := hse.prices
  rw [Database.policyFor] at hp
  rw [Database.selectedCosts, hp] at hs
  dsimp only at hs
  rw [hi] at hs
  split at hs
  · rw [← Except.error.inj hs] at hd
    exact absurd hd (by decide)
  rw [if_neg (not_not.mpr hse.lists), if_neg (not_not.mpr hse.allows)] at hs
  split at hs
  · next hn => cases hn
  · next hn => cases hn
  · rw [← Except.error.inj hs] at hd
    exact absurd hd (by decide)
  · cases hs

end Reasons

section Layers

variable {catalog : RuntimeEndpointCatalog} {bundle : RuntimeTrustBundle}
  {endpoint : EndpointPolicy} {payload : PolicyPayload}

variable {peer : PeerCredentials} {issuerName : String} {issuer : IssuerPolicy} {acl : CallerAcl}

theorem mem_callersOf {primitives : TrustPrimitives} {capability signedPayload : Fields}
    {bindings : CapabilityBindings}
    (ha : AdmittedCapability primitives capability signedPayload bundle bindings peer
      issuerName issuer acl) (hau : bindings.endpointAuthority = endpoint.authority)
    (hcl : bindings.operationClass ∈ endpoint.allowedOperationClasses) :
    bindings.callerService ∈ bundle.callersOf endpoint := by
  obtain ⟨_, _, his, hl, _⟩ := ha.admits
  obtain ⟨_, hc, hi, _⟩ := ha.covers
  rw [RuntimeTrustBundle.callersOf, mem_sortedTexts]
  refine List.mem_map.mpr ⟨(bindings.callerService, acl), List.mem_filter.mpr
    ⟨mem_of_lookup ha.callerKnown, ?_⟩, rfl⟩
  rw [RuntimeTrustBundle.mayCall, Bool.and_eq_true, decide_eq_true_eq, List.any_eq_true]
  refine ⟨hau ▸ hl, issuerName, his, ?_⟩
  rw [ha.issuerKnown, Option.any_some, Bool.and_eq_true, decide_eq_true_eq, List.any_eq_true]
  exact ⟨hau ▸ hi, bindings.operationClass, hcl, decide_eq_true hc⟩

variable {opClass : String}

theorem Ingested.serves (hi : Ingested catalog bundle endpoint payload) {caller : String}
    (hca : caller ∈ bundle.callersOf endpoint) (hc : opClass ∈ endpoint.allowedOperationClasses) :
    payload.row.Serves caller opClass := by
  refine ⟨?_, (hi.classes opClass).mpr hc, ?_⟩
  · show caller ∈ payload.allowedCallers
    rw [hi.callers]
    exact hca
  · obtain ⟨items, hit⟩ := hi.covered opClass hc
    exact ⟨items, by rw [row_lookup, hit, Option.map_some]⟩

variable {deployment : Deployment} {msg : ReserveMessage}

theorem reserveClass_contract (hc : deployment.service.reserveClass msg = .ok opClass) :
    msg.endpointCatalogHash = deployment.catalog.catalogHash ∧
      ∃ policy, ((msg.endpointAuthority, msg.endpointId), policy) ∈
        deployment.catalog.endpoints ∧ opClass ∈ policy.allowedOperationClasses := by
  unfold RateService.reserveClass at hc
  rw [Gateway.deny_if_eq_ok_iff, not_not] at hc
  obtain ⟨hca, hc⟩ := hc
  refine ⟨hca, ?_⟩
  split at hc
  · cases hc
  next endpoint hendpoint =>
  rw [Gateway.deny_if_eq_ok_iff] at hc
  obtain ⟨_, hc⟩ := hc
  split at hc
  · cases hc
  next found ha =>
  cases hc
  rw [RateService.allowedClass, Option.filter_eq_some_iff, decide_eq_true_eq] at ha
  obtain ⟨pre, later, he, _⟩ := List.lookup_eq_some_iff.mp hendpoint
  have hm : ((msg.endpointAuthority, msg.endpointId), endpoint) ∈
      deployment.catalog.endpoints.map fun entry =>
        (entry.1, deployment.admissionView entry.2) := by
    show _ ∈ deployment.service.endpointCatalog.endpoints
    rw [he]
    exact List.mem_append_right _ List.mem_cons_self
  obtain ⟨entry, hen, hv⟩ := List.mem_map.mp hm
  obtain ⟨hk, rfl⟩ := Prod.mk.inj hv
  exact ⟨entry.2, by rw [← hk]; exact hen, ha.2⟩

/-- What stands behind a reservation that reaches the authority: a capability of the caller,
signed by an issuer whose key is not revoked, that both lists cover and that fixes its bindings. -/
structure Authorized (deployment : Deployment) (revoked : List String)
    (signed : List UInt8 → Json → Prop) (message : ReserveMessage) (peer : PeerCredentials)
    (operationClass : String) : Prop where
  classified : deployment.service.reserveClass message = .ok operationClass
  capability : ∃ payload issuerName issuer acl,
    get (deployment.readCapability message.causalCapability) "signed_payload" = .object payload ∧
    textOf? (get payload "issuer") = some issuerName ∧
    deployment.bundle.issuers.lookup issuerName = some issuer ∧ issuer.keyId ∉ revoked ∧
    signed issuer.publicKey (.object payload) ∧
    deployment.bundle.callers.lookup message.callerService = some acl ∧
    acl.admits peer issuerName (RateService.capabilityBindings message operationClass) ∧
    issuer.covers (RateService.capabilityBindings message operationClass) ∧
    FixesBindings payload (RateService.capabilityBindings message operationClass)

/-- The stored row serves the caller, so that the procedure does not turn it away. -/
structure Served (deployment : Deployment) (database : Database) (message : ReserveMessage)
    (operationClass : String) : Prop where
  row : ∃ policy, policy.Serves message.callerService operationClass ∧
    ∀ capability permitUuid startedAt, database.policyFor (deployment.service.reserveArguments
      message capability operationClass permitUuid startedAt).binding = some policy
  answers : ∀ capability permitUuid startedAt leaseCheckedAt executedAt granted after,
    database.reservePermitV2 (deployment.service.reserveArguments message capability
      operationClass permitUuid startedAt) leaseCheckedAt executedAt = .ok (granted, after) →
    granted.reasonCode ≠ "RATE_CALLER_NOT_ALLOWED" ∧
      granted.reasonCode ≠ "RATE_CAUSAL_ROLE_INVALID"

theorem handleReserve_admitted {db post : Database} {readings : RateService.ReserveReadings}
    {reply : Option ReserveReply}
    (hr : deployment.service.handleReserve db msg peer readings = .ok (reply, post)) :
    ∃ opClass payload issuerName issuer acl, deployment.service.reserveClass msg = .ok opClass ∧
      AdmittedCapability deployment.primitives
        (deployment.readCapability msg.causalCapability) payload deployment.bundle
        (RateService.capabilityBindings msg opClass) peer issuerName issuer acl := by
  simp only [RateService.handleReserve, bind_eq_ok_iff] at hr
  obtain ⟨_, _, opClass, hcl, capability, hc, _⟩ := hr
  obtain ⟨payload, issuerName, issuer, acl, ha⟩ :=
    verifyCausalCapability_admitted hc
  exact ⟨opClass, payload, issuerName, issuer, acl, hcl, ha⟩

theorem AdmittedCapability.bindings_eq {primitives : TrustPrimitives}
    {capability payload otherPayload : Fields} {otherBundle : RuntimeTrustBundle}
    {bindings otherBindings : CapabilityBindings} {otherPeer : PeerCredentials}
    {otherName : String} {otherIssuer : IssuerPolicy} {otherAcl : CallerAcl}
    (ha : AdmittedCapability primitives capability payload bundle bindings peer
      issuerName issuer acl)
    (ho : AdmittedCapability primitives capability otherPayload otherBundle otherBindings
      otherPeer otherName otherIssuer otherAcl) : otherBindings = bindings := by
  have hp : Json.object otherPayload = .object payload :=
    ho.carries.symm.trans ha.carries
  cases hp
  exact ho.fixes.unique ha.fixes

theorem authorized_of_admitted {revoked : List String} {signed : List UInt8 → Json → Prop}
    {signedPayload : Fields} (hc : deployment.bundle.Closed revoked)
    (hs : ∀ key bytes doc, deployment.primitives.verifies key bytes
      (deployment.primitives.digest doc) → signed key doc)
    (hcl : deployment.service.reserveClass msg = .ok opClass)
    (ha : AdmittedCapability deployment.primitives
      (deployment.readCapability msg.causalCapability) signedPayload deployment.bundle
      (RateService.capabilityBindings msg opClass) peer issuerName issuer acl) :
    Authorized deployment revoked signed msg peer opClass := by
  obtain ⟨bytes, hv⟩ := ha.signed
  refine ⟨hcl, signedPayload, issuerName, issuer, acl, ha.carries, ha.names,
    ha.issuerKnown, ?_, hs _ bytes _ hv, ha.callerKnown,
    ha.admits, ha.covers, ha.fixes⟩
  exact hc.unrevoked _ (mem_of_lookup ha.issuerKnown)

theorem served_of_found {db : Database}
    {later : List PolicyPayload} (hr : db.policies = later.map PolicyPayload.row)
    (hf : payloadOf later msg.endpointAuthority msg.endpointId
      msg.endpointCatalogHash = some payload) (hs : payload.row.Serves msg.callerService opClass) :
    Served deployment db msg opClass := by
  have hp : ∀ capability permitUuid startedAt, db.policyFor
      (deployment.service.reserveArguments msg capability opClass permitUuid
        startedAt).binding = some payload.row :=
    fun _ _ _ => policyFor_of_payloadOf hr hf
  refine ⟨⟨payload.row, hs, hp⟩, ?_⟩
  intro capability permitUuid startedAt leaseCheckedAt executedAt granted post hc
  have ho : ¬ DeniesCaller granted.reasonCode :=
    RuntimePolicy.Serves.not_deniesCaller hs (hp capability permitUuid startedAt) hc
  exact not_or.mp ho

/-- Admission, ingestion and the stored procedure agree on who may reserve. -/
theorem admission_layers_agree {deployment : Deployment} {signed : List UInt8 → Json → Prop}
    {bundleDocument keyring catalogDocument catalogKeyring : Fields}
    {bundleKeyringHash catalogKeyringHash schemaHash : String}
    {bundleVerifiedAt catalogVerifiedAt ingestedAt : Time}
    {bindArtifacts : List (String × String) → Except String Unit}
    (hsignatures : ∀ key bytes doc, deployment.primitives.verifies key bytes
      (deployment.primitives.digest doc) → signed key doc)
    (hbundle : deployment.primitives.verifyRuntimeTrustBundle bundleDocument keyring
      bundleKeyringHash bundleVerifiedAt = .ok deployment.bundle)
    (hcatalog : verifyEndpointCatalog deployment.primitives bindArtifacts catalogDocument
      catalogKeyring catalogKeyringHash schemaHash catalogVerifiedAt = .ok deployment.catalog)
    {vectors : CostVectors} {payloads ingested later : List PolicyPayload} {db : Database}
    (hingest : ingestRuntimePolicies deployment.catalog deployment.bundle vectors ingestedAt
      payloads = .ok ingested)
    (hlater : ingested <+: later) (hrows : db.policies = later.map PolicyPayload.row)
    {msg : ReserveMessage} {peer : PeerCredentials} {readings : RateService.ReserveReadings}
    {reply : Option ReserveReply} {post : Database}
    (hreserve : deployment.service.handleReserve db msg peer readings = .ok (reply, post)) :
    ∃ content revoked opClass, get bundleDocument "content" = .object content ∧
      stringSetOrEmpty (get content "revoked_key_ids") "TRUST_BUNDLE_INVALID" = .ok revoked ∧
      Authorized deployment revoked signed msg peer opClass ∧
      Served deployment db msg opClass ∧
      ∀ otherDatabase otherMessage otherPeer otherReadings otherOutcome,
        deployment.service.handleReserve otherDatabase otherMessage otherPeer otherReadings =
          .ok otherOutcome → otherMessage.causalCapability = msg.causalCapability →
        ∃ otherClass, deployment.service.reserveClass otherMessage = .ok otherClass ∧
          RateService.capabilityBindings otherMessage otherClass =
            RateService.capabilityBindings msg opClass := by
  obtain ⟨content, revoked, hco, hr, hcl⟩ := verifyRuntimeTrustBundle_closed hbundle
  obtain ⟨opClass, signedPayload, issuerName, issuer, acl, hc, ha⟩ :=
    handleReserve_admitted hreserve
  refine ⟨content, revoked, opClass, hco, hr, authorized_of_admitted hcl hsignatures hc ha, ?_, ?_⟩
  · obtain ⟨hh, policy, hpo, hal⟩ := reserveClass_contract hc
    obtain ⟨payload, hp, hf⟩ := ingestRuntimePolicies_found hingest hpo
    have hk : msg.endpointAuthority = policy.authority ∧
        msg.endpointId = policy.endpointId :=
      Prod.mk.inj (verifyEndpointCatalog_keyed hcatalog _ hpo)
    have hca : msg.callerService ∈ deployment.bundle.callersOf policy :=
      mem_callersOf ha hk.1 hal
    refine served_of_found hrows ?_ (hp.serves hca hal)
    rw [hk.1, hk.2, hh, ← hp.authority, ← hp.endpointId, ← hp.catalogHash]
    exact payloadOf_of_prefix hlater hf
  · intro otherDatabase otherMessage otherPeer otherReadings otherOutcome hoth hs
    obtain ⟨otherClass, _, _, _, _, hot, ho⟩ := handleReserve_admitted hoth
    rw [hs] at ho
    exact ⟨otherClass, hot, ha.bindings_eq ho⟩

end Layers

def sampleIssuerKey : List UInt8 := List.replicate 32 1

/-- The digests that were signed, with the keys that signed them: the bundle and the catalog, and
a capability. -/
def signedDigests : List (List UInt8 × String) :=
  [(List.replicate 32 0, sampleHash 'd'), (List.replicate 32 0, sampleHash 'b'),
   (sampleIssuerKey, sampleHash '6')]

def layerPrimitives : TrustPrimitives :=
  { samplePrimitives with
    digest := fun document =>
      match document with
      | .object fields =>
        if isNull (get fields "issuers") = false then sampleHash 'd'
        else if isNull (get fields "capability_id") = false then sampleHash '6'
        else samplePrimitives.digest document
      | _ => sampleHash '0'
    decodeBase64 := fun text =>
      if text = "AQEBAQEBAQEBAQEBAQEBAQEBAQEBAQEBAQEBAQEBAQE=" then some sampleIssuerKey
      else samplePrimitives.decodeBase64 text
    verifies := fun key _ digest => (key, digest) ∈ signedDigests }

def sampleTexts (texts : List String) : Json :=
  .array (texts.map .string)

def sampleIssuerEntry : Json :=
  .object [("issuer", .string "capability-issuer"), ("key_id", .string "issuer-key-1"),
    ("public_key_base64", .string "AQEBAQEBAQEBAQEBAQEBAQEBAQEBAQEBAQEBAQEBAQE="),
    ("not_before", .string "2026-07-13T00:00:00Z"), ("not_after", .string "2026-07-15T00:00:00Z"),
    ("allowed_operation_classes", sampleTexts ["MARKET_DATA_SNAPSHOT"]),
    ("allowed_subject_services", sampleTexts ["market-data"]),
    ("allowed_endpoint_authorities", sampleTexts ["BINANCE_PRODUCTION_FAPI"]),
    ("allowed_environments", sampleTexts ["production"])]

def sampleSignerEntry : Json :=
  .object [("key_id", .string "attestation-key-1"),
    ("purpose", .string "HOST_RATE_STARTUP_EVIDENCE"),
    ("private_key_holder_service", .string "host-attestation-signer"),
    ("payload", .string "RFC8785_JCS_UTF8_OF_CONTENT_THEN_SHA256_DIGEST_SIGNED_BY_ED25519"),
    ("revoked", .boolean false), ("holder_uid", .integer 1000), ("holder_gid", .integer 1000),
    ("max_evidence_ttl_seconds", .integer 60), ("refresh_before_expiry_seconds", .integer 30),
    ("not_before", .string "2026-07-13T00:00:00Z"), ("not_after", .string "2026-07-15T00:00:00Z"),
    ("public_key_base64", .string "AAAAAAAAAAAAAAAAAAAAAAAAAAAAAAAAAAAAAAAAAAA=")]

def sampleCallerEntry : Json :=
  .object [("service", .string "market-data"), ("allowed_peer_uids", .array [.integer 1001]),
    ("allowed_peer_gids", .array [.integer 1001]),
    ("allowed_issuers", sampleTexts ["capability-issuer"]),
    ("allowed_endpoint_authorities", sampleTexts ["BINANCE_PRODUCTION_FAPI"]),
    ("allowed_environments", sampleTexts ["production"])]

def sampleProtocolEntry (service messageType : String) (id : ℤ) : Json :=
  .object [("service", .string service), ("allowed_peer_uids", .array [.integer id]),
    ("allowed_peer_gids", .array [.integer id]),
    ("allowed_message_types", sampleTexts [messageType])]

def sampleBundleContent : Fields :=
  [("bundle_status", .string "SIGNED_RUNTIME"), ("issued_at", .string "2026-07-13T00:00:00Z"),
   ("valid_until", .string "2026-07-15T00:00:00Z"), ("revoked_key_ids", sampleTexts ["key-0"]),
   ("issuers", .array [sampleIssuerEntry]), ("attestation_signers", .array [sampleSignerEntry]),
   ("caller_acl", .array [sampleCallerEntry]),
   ("protocol_acl", .array
     [sampleProtocolEntry "binance-egress-gateway" "PermitConsumeRequest" 1002,
      sampleProtocolEntry "rate-budget-service" "PermitConsumeResponse" 1003]),
   ("gateway_holds_signing_key", .boolean false)]

def sampleBundleDocument : Fields :=
  [("content", .object sampleBundleContent), ("bundle_hash", .string (sampleHash 'd')),
   ("signature", sampleSignature)]

def layerBundle : RuntimeTrustBundle :=
  { sampleBundle with
    issuers := [("capability-issuer", { sampleIssuer with publicKey := sampleIssuerKey })]
    protocols := [("binance-egress-gateway", ⟨[1002], [1002], ["PermitConsumeRequest"]⟩),
      ("rate-budget-service", ⟨[1003], [1003], ["PermitConsumeResponse"]⟩)] }

def sampleCapabilityPayload : Fields :=
  [("capability_id", .string "capability-1"), ("issuer", .string "capability-issuer"),
   ("issued_at", .string "2026-07-13T00:00:00Z"), ("expires_at", .string "2026-07-15T00:00:00Z"),
   ("subject_caller_service", .string "market-data"), ("environment", .string "production"),
   ("allowed_operation_class", .string "MARKET_DATA_SNAPSHOT"),
   ("endpoint_authority", .string "BINANCE_PRODUCTION_FAPI"), ("endpoint_id", .string "REST_DEPTH"),
   ("gateway_connection_id", .null), ("canonical_request_hash", .string (sampleHash '2')),
   ("operation_facts_hash", .string (sampleHash '5')), ("causal_ref_type", .string "ORDER_BOOK"),
   ("causal_ref_id", .string "BTCUSDT"), ("nonce", .string "nonce-1")]

def sampleCapability : Fields :=
  [("signed_payload", .object sampleCapabilityPayload), ("payload_hash", .string (sampleHash '6')),
   ("capability_id", .string "capability-1"),
   ("signature", .object [("algorithm", .string "Ed25519"), ("key_id", .string "issuer-key-1"),
     ("signature_base64", .string (String.ofList (List.replicate 88 'A')))])]

def layerDeployment : Deployment where
  primitives := layerPrimitives
  digests := { Gateway.timeDigests with operationFacts := fun _ => sampleHash '5' }
  bundle := layerBundle
  catalog := sampleCatalog (fixedRule 2) (.fixed 2)
  readCapability text := if text = "capability-1" then sampleCapability else []
  transportOf _ := .rest
  methodOf _ := .get
  permitTtl := 1000000
  reserveValid _ := true
  consumeValid _ := true

def depthMessage : ReserveMessage where
  requestKey := "request-1"
  callerService := "market-data"
  callerInstanceId := "market-data-1"
  environment := .production
  endpointAuthority := "BINANCE_PRODUCTION_FAPI"
  endpointId := "REST_DEPTH"
  gatewayConnectionId := none
  endpointCatalogHash := sampleHash 'b'
  canonicalRequestHash := sampleHash '2'
  parameterHash := sampleHash '3'
  wireBytesHash := sampleHash '4'
  gatewayRequestDocumentHash := sampleHash '7'
  operationFacts := ⟨"QUERY_DEPTH", .rest, none, none, none⟩
  operationFactsHash := sampleHash '5'
  causalRefType := "ORDER_BOOK"
  causalRefId := "BTCUSDT"
  causalCapability := "capability-1"
  expectedFencingEpoch := 1

def depthPeer : PeerCredentials := ⟨100, 1001, 1001⟩

def depthReadings : RateService.ReserveReadings :=
  ⟨sampleStart, sampleStart, sampleStart, sampleStart, sampleStart, "1", true⟩

theorem depth_reservation_agreed : ∃ revoked opClass, Authorized layerDeployment revoked
        (fun key doc => (key, layerPrimitives.digest doc) ∈ signedDigests)
        depthMessage depthPeer opClass ∧
      Served layerDeployment (sampleDatabase [connectionCost, weightCost]) depthMessage
        opClass := by
  have hb : layerPrimitives.verifyRuntimeTrustBundle sampleBundleDocument sampleKeyring
      (sampleHash 'a') sampleStart = .ok layerBundle := rfl
  have hc : verifyEndpointCatalog layerPrimitives (fun _ => .ok ())
      (sampleCatalogDocument (fixedRule 2)) sampleKeyring (sampleHash 'a') (sampleHash 'e')
      sampleStart = .ok (sampleCatalog (fixedRule 2) (.fixed 2)) := rfl
  have hi : ingestRuntimePolicies (sampleCatalog (fixedRule 2) (.fixed 2)) layerBundle
      (sampleVectors [connectionCost, weightCost]) sampleStart [] =
        .ok [samplePayload [connectionCost, weightCost]] := rfl
  have hre : ((layerDeployment.service.handleReserve
      (sampleDatabase [connectionCost, weightCost]) depthMessage depthPeer
      depthReadings).toOption.bind Prod.fst).map (fun reply => reply.reasonCode) =
        some "RATE_GRANTED" := by
    decide
  cases hr : layerDeployment.service.handleReserve
      (sampleDatabase [connectionCost, weightCost]) depthMessage depthPeer depthReadings with
  | error reason =>
    rw [hr] at hre
    cases hre
  | ok outcome =>
    have hs : ∀ key bytes doc, layerDeployment.primitives.verifies key bytes
        (layerDeployment.primitives.digest doc) →
          (key, layerPrimitives.digest doc) ∈ signedDigests :=
      fun _ _ _ hv => of_decide_eq_true hv
    obtain ⟨_, revoked, opClass, _, _, ha, hse, _⟩ :=
      admission_layers_agree hs hb hc hi List.prefix_rfl rfl hr
    exact ⟨revoked, opClass, ha, hse⟩

end AiQuant.RateControl
