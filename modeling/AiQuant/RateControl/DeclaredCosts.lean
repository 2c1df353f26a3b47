import AiQuant.RateControl.PolicyIngest

/-! Which of its declared costs a permit is charged.  An ingested class has a cost for every
dimension with a fixed rule and for no other one, so a permit of an endpoint charges all that its
signed rules declare exactly when none of them prices by a parameter. -/
namespace AiQuant.RateControl
open AiQuant.Lib
open AiQuant.UserStream (Json Fields get)

def CostRule.Assigns (rule : CostRule) (parameters : String → Option ℤ) (cost : ℤ) : Prop :=
  match rule with
  | .fixed declared => cost = declared
  | .notApplicable => False
  | .signedParameterTiers name tiers => ∃ value, parameters name = some value ∧
      ∃ tier ∈ tiers, tier.minimum ≤ value ∧ value ≤ tier.maximum ∧ cost = tier.cost

def CostRule.isTiered : CostRule → Bool
  | .signedParameterTiers _ _ => true
  | _ => false

def newAllocations (database after : Database) : List Allocation :=
  after.allocations.drop database.allocations.length

def Database.Counts (database : Database) (dimension : String) (allocation : Allocation) : Prop :=
  ∃ slot ∈ database.slots, slot.windowId = allocation.windowId ∧ slot.rateLimitType = dimension

/-- Every dimension that a rule prices is charged, and no window of it less than the rule
assigns. -/
structure ChargesDeclared (endpoint : EndpointPolicy) (parameters : String → Option ℤ)
    (database after : Database) : Prop where
  charged : ∀ entry ∈ endpoint.rules, entry.2 ≠ .notApplicable →
    ∃ allocation ∈ newAllocations database after, after.Counts entry.1 allocation
  enough : ∀ entry ∈ endpoint.rules, ∀ cost, entry.2.Assigns parameters cost →
    ∀ allocation ∈ newAllocations database after, after.Counts entry.1 allocation →
      cost ≤ allocation.cost

section Rules

variable {endpoint : EndpointPolicy} {items : List CostItem} {dimension : String} {rule : CostRule}

theorem rules_lookup (hm : (dimension, rule) ∈ endpoint.rules) :
    endpoint.rules.lookup dimension = some rule := by
  simp only [EndpointPolicy.rules, List.mem_cons, Prod.mk.injEq, List.not_mem_nil, or_false] at hm
  rcases hm with ⟨rfl, rfl⟩ | ⟨rfl, rfl⟩ | ⟨rfl, rfl⟩ | ⟨rfl, rfl⟩ <;> rfl

theorem ValidCosts.rule_eq {item : CostItem} (hv : ValidCosts endpoint items)
    (hi : item ∈ items) (hm : (item.rateLimitType, rule) ∈ endpoint.rules) :
    rule = .fixed item.cost := by
  have hl := (hv.accepted item hi).2.2.2.2.2.2
  rw [rules_lookup hm] at hl
  exact Option.some.inj hl

theorem ValidCosts.exists_of_fixed {cost : ℤ} (hv : ValidCosts endpoint items)
    (hm : (dimension, .fixed cost) ∈ endpoint.rules) :
    ∃ item ∈ items, item.rateLimitType = dimension := by
  refine hv.complete dimension ?_
  exact List.mem_map.mpr ⟨(dimension, .fixed cost), List.mem_filter.mpr ⟨hm, rfl⟩, rfl⟩

end Rules

section Reservation

variable {db post : Database} {endpoint : EndpointPolicy} {authority : String}
  {items : List CostItem} {charged : List Allocation} {params : String → Option ℤ}

structure ChargesVector (database after : Database) (authority : String) (items : List CostItem) :
    Prop where
  ids : (after.slots.map fun slot => slot.windowId).Nodup
  each : List.Forall₂ (ChargedFor after authority) items (newAllocations database after)

theorem exists_partner {α β : Type} {rel : α → β → Prop} {left : List α}
    {right : List β} (hr : List.Forall₂ rel left right) {one : α} (hone : one ∈ left) :
    ∃ other ∈ right, rel one other := by
  induction hr with
  | nil => cases hone
  | cons hh _ ih =>
    rcases List.mem_cons.mp hone with rfl | hone
    · exact ⟨_, List.mem_cons_self, hh⟩
    · obtain ⟨other, ho, hb⟩ := ih hone
      exact ⟨other, List.mem_cons_of_mem _ ho, hb⟩

section

variable (hv : ChargesVector db post authority items)
include hv

theorem ChargesVector.item_of_counts {dimension : String} {alloc : Allocation}
    (hm : alloc ∈ newAllocations db post) (hco : post.Counts dimension alloc) :
    ∃ item ∈ items, item.rateLimitType = dimension ∧ alloc.cost = item.cost := by
  obtain ⟨item, hi, hc⟩ := exists_partner hv.each.flip hm
  obtain ⟨slot, hs, hid, _, _, ht, _⟩ := hc.window
  obtain ⟨other, hoth, hot, ho⟩ := hco
  have hsa : other = slot :=
    List.inj_on_of_nodup_map hv.ids hoth hs (hot.trans hid.symm)
  exact ⟨item, hi, by rw [← ht, ← hsa, ho], hc.cost⟩

theorem ChargesVector.exists_counts {item : CostItem} (hi : item ∈ items) :
    ∃ alloc ∈ newAllocations db post, post.Counts item.rateLimitType alloc := by
  obtain ⟨alloc, hm, hc⟩ := exists_partner hv.each hi
  obtain ⟨slot, hs, hid, _, _, ht, _⟩ := hc.window
  exact ⟨alloc, hm, slot, hs, hid, ht⟩

theorem ChargesVector.declared_iff (hva : ValidCosts endpoint items) :
    ChargesDeclared endpoint params db post ↔
      ∀ entry ∈ endpoint.rules, entry.2.isTiered = false := by
  constructor
  · intro hd entry he
    obtain ⟨dimension, rule⟩ := entry
    cases rule with
    | fixed _ => rfl
    | notApplicable => rfl
    | signedParameterTiers name tiers =>
      obtain ⟨alloc, hm, hc⟩ := hd.charged _ he (by rintro ⟨⟩)
      obtain ⟨item, hi, rfl, _⟩ := hv.item_of_counts hm hc
      cases hva.rule_eq hi he
  · intro ht
    refine ⟨?_, ?_⟩
    · rintro ⟨dimension, rule⟩ he hp
      cases rule with
      | fixed cost =>
        obtain ⟨item, hi, rfl⟩ := hva.exists_of_fixed he
        exact hv.exists_counts hi
      | notApplicable => exact absurd rfl hp
      | signedParameterTiers name tiers => cases ht _ he
    · rintro ⟨dimension, rule⟩ he cost ha alloc hm hc
      obtain ⟨item, hi, rfl, hco⟩ := hv.item_of_counts hm hc
      obtain rfl := hva.rule_eq hi he
      rw [hco]
      exact le_of_eq ha

end

theorem Reserves.chargesVector {req : ReserveRequest} {now : Time} {costs : List CostItem}
    (hr : Reserves db req now costs post) (hi : (db.slots.map fun slot => slot.windowId).Nodup) :
    ChargesVector db post req.binding.endpointAuthority costs := by
  obtain ⟨hs, charged, ha, _, hc⟩ := charges_allocate hr.charged
  have hn : newAllocations db post = charged := by
    rw [newAllocations, ha]
    exact List.drop_left
  refine ⟨?_, ?_⟩
  · rw [hs]
    exact hi
  · rw [hn]
    exact hc

/-- A new permit that is granted under an ingested catalog charges everything that the signed
rules of its endpoint declare exactly when none of them prices by a parameter. -/
theorem granted_charges_declared_iff {primitives : TrustPrimitives}
    {bindArtifacts : List (String × String) → Except String Unit} {doc keyring : Fields}
    {expectedKeyringHash schemaHash : String} {verifiedAt : Time}
    {catalog : RuntimeEndpointCatalog}
    (hcatalog : verifyEndpointCatalog primitives bindArtifacts doc keyring
      expectedKeyringHash schemaHash verifiedAt = .ok catalog)
    {bundle : RuntimeTrustBundle} {vectors : CostVectors} {ingestedAt : Time}
    {payloads ingested later : List PolicyPayload}
    (hingest : ingestRuntimePolicies catalog bundle vectors ingestedAt payloads = .ok ingested)
    (hlater : ingested <+: later) (hrows : db.policies = later.map PolicyPayload.row)
    (hids : (db.slots.map fun slot => slot.windowId).Nodup)
    {entry : (String × String) × EndpointPolicy} (hentry : entry ∈ catalog.endpoints)
    {req : ReserveRequest} {leaseCheckedAt now : Time} {reply : ReserveReply}
    (hkey : (req.binding.endpointAuthority, req.binding.endpointId) = entry.1)
    (hhash : req.binding.endpointCatalogHash = catalog.catalogHash)
    (hcall : db.reservePermitV2 req leaseCheckedAt now = .ok (reply, post))
    (hgranted : reply.granted = true)
    (hnew : ∀ permit ∈ db.permits, permit.requestKey ≠ req.requestKey) :
    ChargesDeclared entry.2 params db post ↔ ∀ rule ∈ entry.2.rules, rule.2.isTiered = false := by
  obtain ⟨data, hp, hf⟩ := ingestRuntimePolicies_found hingest hentry
  have hb : payloadOf later req.binding.endpointAuthority req.binding.endpointId
      req.binding.endpointCatalogHash = some data := by
    have hpl := Prod.mk.inj (hkey.trans (verifyEndpointCatalog_keyed hcatalog entry hentry))
    rw [hpl.1, hpl.2, hhash, ← hp.authority, ← hp.endpointId, ← hp.catalogHash]
    exact payloadOf_of_prefix hlater hf
  rcases reservePermitV2_cases hcall with ⟨hd, _⟩ | ⟨existing, he, hre, _⟩ |
      ⟨costs, hr, _⟩
  · rw [hgranted] at hd
    cases hd
  · exact absurd hre.key (hnew existing he)
  · obtain ⟨policy, items, hpo, hv, rfl⟩ := selectedCosts_eq_ok hr.selected
    rw [policyFor_of_payloadOf hrows hb] at hpo
    cases hpo
    rw [row_lookup, Option.map_eq_some_iff] at hv
    obtain ⟨_, hl, ⟨⟩⟩ := hv
    have hva := hp.costs req.derivedOperationClass items hl
    exact (hr.chargesVector hids).declared_iff hva.ordered

end Reservation

def sampleHash (digit : Char) : String :=
  String.ofList (List.replicate 64 digit)

def sampleStart : Time := 1783900800000000

/-- The documents below have distinct digests, and every signature is genuine. -/
def samplePrimitives : TrustPrimitives where
  digest document :=
    match document with
    | .object fields =>
      if isNull (get fields "keys") = false then sampleHash 'a'
      else if isNull (get fields "catalog_id") = false then sampleHash 'b'
      else sampleHash 'c'
    | _ => sampleHash 'd'
  parseTime text :=
    if text = "2026-07-13T00:00:00Z" then some sampleStart
    else if text = "2026-07-15T00:00:00Z" then some (sampleStart + 172800000000)
    else none
  decodeBase64 text :=
    if text.length = 44 then some (List.replicate 32 0)
    else if text.length = 88 then some (List.replicate 64 0)
    else none
  verifies _ _ _ := true

def sampleKey : Json :=
  .object [("key_id", .string "key-1"), ("status", .string "CURRENT"),
    ("not_before", .string "2026-07-13T00:00:00Z"), ("not_after", .string "2026-07-15T00:00:00Z"),
    ("public_key_base64", .string "AAAAAAAAAAAAAAAAAAAAAAAAAAAAAAAAAAAAAAAAAAA=")]

def sampleKeyring : Fields :=
  [("content", .object [("purpose", .string "HOST_CONTROL_CONFIG"), ("revoked_key_ids", .array []),
      ("keys", .array [sampleKey])]),
   ("keyring_hash", .string (sampleHash 'a')), ("rotation_proof", .null)]

def fixedRule (cost : ℤ) : Json :=
  .object [("mode", .string "FIXED"), ("fixed_cost", .integer cost), ("parameter_name", .null),
    ("tiers", .array [])]

def notApplicableRule : Json :=
  .object [("mode", .string "NOT_APPLICABLE"), ("fixed_cost", .integer 0),
    ("parameter_name", .null), ("tiers", .array [])]

def sampleTier (minimum maximum cost : ℤ) : Json :=
  .object [("min_inclusive", .integer minimum), ("max_inclusive", .integer maximum),
    ("cost", .integer cost)]

def tieredRule : Json :=
  .object [("mode", .string "SIGNED_PARAMETER_TIERS"), ("fixed_cost", .null),
    ("parameter_name", .string "limit"),
    ("tiers", .array [sampleTier 0 50 2, sampleTier 51 100 5, sampleTier 101 1000 20])]

def sampleContract (weightRule : Json) : Fields :=
  [("endpoint_id", .string "REST_DEPTH"),
   ("endpoint_authorities", .array [.string "BINANCE_PRODUCTION_FAPI"]),
   ("transport", .string "REST"), ("method", .string "GET"), ("path", .string "/fapi/v1/depth"),
   ("allowed_operation_classes", .array [.string "MARKET_DATA_SNAPSHOT"]),
   ("causal_role_class_map", .object [("QUERY_DEPTH", .string "MARKET_DATA_SNAPSHOT")]),
   ("request_weight_rule", weightRule), ("order_count_rule", notApplicableRule),
   ("websocket_control_rule", notApplicableRule), ("connection_attempt_rule", fixedRule 1),
   ("allowed_parameter_names", .array [.string "limit"]), ("required_parameter_names", .array []),
   ("forbidden_parameter_names", .array []), ("request_schema_sha256", .string (sampleHash 'e')),
   ("source_document_sha256", .string (sampleHash 'f'))]

def sampleCatalogContent (weightRule : Json) : Fields :=
  [("catalog_id", .string "catalog-1"), ("catalog_status", .string "SIGNED_RUNTIME"),
   ("checked_at", .string "2026-07-13T00:00:00Z"), ("valid_until", .string "2026-07-15T00:00:00Z"),
   ("source_documents", .array [.object
     [("artifact_path", .string "source.txt"), ("sha256", .string (sampleHash 'f'))]]),
   ("bootstrap", .object [("allowed_endpoint_ids", .array [.string "REST_DEPTH"])]),
   ("endpoint_contracts", .array [.object (sampleContract weightRule)]),
   ("unknown_endpoint_policy", .string "DENY")]

def sampleSignature : Json :=
  .object [("algorithm", .string "Ed25519"), ("key_id", .string "key-1"),
    ("signed_at", .string "2026-07-13T00:00:00Z"),
    ("signature_base64", .string (String.ofList (List.replicate 88 'A')))]

def sampleCatalogDocument (weightRule : Json) : Fields :=
  [("content", .object (sampleCatalogContent weightRule)),
   ("catalog_hash", .string (sampleHash 'b')), ("signature", sampleSignature)]

def sampleEndpoint (weightRule : Json) (requestWeightRule : CostRule) : EndpointPolicy where
  endpointId := "REST_DEPTH"
  authority := "BINANCE_PRODUCTION_FAPI"
  transport := "REST"
  method := "GET"
  path := "/fapi/v1/depth"
  marketStreamRole := .missing
  controlFrameType := .missing
  allowedOperationClasses := ["MARKET_DATA_SNAPSHOT"]
  causalRoleClassMap := [("QUERY_DEPTH", "MARKET_DATA_SNAPSHOT")]
  requestWeightRule := requestWeightRule
  orderCountRule := .notApplicable
  websocketControlRule := .notApplicable
  connectionAttemptRule := .fixed 1
  allowedParameterNames := ["limit"]
  requiredParameterNames := []
  forbiddenParameterNames := []
  requestSchemaSha256 := sampleHash 'e'
  contractPayload := sampleContract weightRule
  contractHash := sampleHash 'c'

def sampleCatalog (weightRule : Json) (requestWeightRule : CostRule) :
    RuntimeEndpointCatalog where
  catalogId := "catalog-1"
  catalogHash := sampleHash 'b'
  checkedAt := sampleStart
  validUntil := sampleStart + 172800000000
  endpoints := [(("BINANCE_PRODUCTION_FAPI", "REST_DEPTH"),
    sampleEndpoint weightRule requestWeightRule)]

def sampleTieredCost : CostRule :=
  .signedParameterTiers "limit" [⟨0, 50, 2⟩, ⟨51, 100, 5⟩, ⟨101, 1000, 20⟩]

def sampleIssuer : IssuerPolicy where
  keyId := "issuer-key-1"
  publicKey := List.replicate 32 0
  allowedOperationClasses := ["MARKET_DATA_SNAPSHOT"]
  allowedSubjectServices := ["market-data"]
  allowedEndpointAuthorities := ["BINANCE_PRODUCTION_FAPI"]
  allowedEnvironments := ["production"]
  notBefore := sampleStart
  notAfter := sampleStart + 172800000000

def sampleBundle : RuntimeTrustBundle where
  bundleHash := sampleHash 'd'
  issuedAt := sampleStart
  validUntil := sampleStart + 172800000000
  issuers := [("capability-issuer", sampleIssuer)]
  attestationSigner := ⟨"attestation-key-1", List.replicate 32 0, 1000, 1000, 60, 30, sampleStart,
    sampleStart + 172800000000⟩
  callers := [("market-data", ⟨[1001], [1001], ["capability-issuer"], ["BINANCE_PRODUCTION_FAPI"],
    ["production"]⟩)]
  protocols := []

def connectionCost : CostItem :=
  ⟨"CONNECTION_ATTEMPTS", sampleHash '1', "MINUTE_5", 1, 300⟩

def weightCost : CostItem :=
  ⟨"REQUEST_WEIGHT", sampleHash '1', "MINUTE_1", 2, 1200⟩

def sampleVectors (items : List CostItem) : CostVectors :=
  AList.singleton ("BINANCE_PRODUCTION_FAPI", "REST_DEPTH")
    (AList.singleton "MARKET_DATA_SNAPSHOT" items)

def samplePayload (items : List CostItem) : PolicyPayload where
  catalogHash := sampleHash 'b'
  endpointAuthority := "BINANCE_PRODUCTION_FAPI"
  endpointId := "REST_DEPTH"
  endpointContractHash := sampleHash 'c'
  allowedCallers := ["market-data"]
  allowedOperationClasses := ["MARKET_DATA_SNAPSHOT"]
  causalRoleClassMap := [("QUERY_DEPTH", "MARKET_DATA_SNAPSHOT")]
  classCostVectors := [("MARKET_DATA_SNAPSHOT", items)]
  validFrom := sampleStart
  validUntil := sampleStart + 172800000000

def sampleWindows : List RateWindow :=
  [⟨1, "BINANCE_PRODUCTION_FAPI", sampleHash '1', "CONNECTION_ATTEMPTS", "MINUTE_5", sampleStart,
     sampleStart + 300000000, 0, 0, 300, none⟩,
   ⟨2, "BINANCE_PRODUCTION_FAPI", sampleHash '1', "REQUEST_WEIGHT", "MINUTE_1", sampleStart,
     sampleStart + 60000000, 0, 0, 2400, none⟩]

def sampleDatabase (items : List CostItem) : Database where
  fencing := ⟨1, "rate-1", some (sampleStart + 60000000)⟩
  windows := sampleWindows
  policies := [(samplePayload items).row]

def sampleRequest : ReserveRequest where
  permitId := "rate-permit-1"
  requestKey := "request-1"
  binding :=
    { subjectCallerService := "market-data"
      subjectCallerInstanceId := "market-data-1"
      environment := "production"
      gatewayConnectionId := none
      endpointAuthority := "BINANCE_PRODUCTION_FAPI"
      endpointId := "REST_DEPTH"
      endpointCatalogHash := sampleHash 'b'
      canonicalRequestHash := sampleHash '2'
      parameterHash := sampleHash '3'
      wireBytesHash := sampleHash '4'
      operationFactsHash := sampleHash '5'
      capabilityPayloadHash := sampleHash '6'
      gatewayRequestDocumentHash := sampleHash '7' }
  derivedOperationClass := "MARKET_DATA_SNAPSHOT"
  capabilityNonce := "nonce-1"
  fencingEpoch := 1
  expiresAt := sampleStart + 1000000

def sampleReservation (items : List CostItem) : Except String (ReserveReply × Database) :=
  (sampleDatabase items).reservePermitV2 sampleRequest sampleStart sampleStart

def sampleCharges (items : List CostItem) : Option (Bool × List Allocation × List WindowSlot) :=
  (sampleReservation items).toOption.map fun outcome =>
    (outcome.1.granted, newAllocations (sampleDatabase items) outcome.2, outcome.2.slots)

theorem exists_reservation {items : List CostItem} {granted : Bool} {charged : List Allocation}
    {slots : List WindowSlot} (hc : sampleCharges items = some (granted, charged, slots)) :
    ∃ reply post, sampleReservation items = .ok (reply, post) ∧ reply.granted = granted ∧
      newAllocations (sampleDatabase items) post = charged ∧ post.slots = slots := by
  unfold sampleCharges at hc
  cases hca : sampleReservation items with
  | error error =>
    rw [hca] at hc
    cases hc
  | ok outcome =>
    rw [hca] at hc
    cases hc
    exact ⟨outcome.1, outcome.2, rfl, rfl, rfl, rfl⟩

/-- A permit for the deepest order book charges a connection attempt and no weight at all. -/
theorem tiered_dimension_uncharged :
    verifyEndpointCatalog samplePrimitives (fun _ => .ok ()) (sampleCatalogDocument tieredRule)
      sampleKeyring (sampleHash 'a') (sampleHash 'e') sampleStart =
        .ok (sampleCatalog tieredRule sampleTieredCost) ∧
    ingestRuntimePolicies (sampleCatalog tieredRule sampleTieredCost) sampleBundle
      (sampleVectors [connectionCost]) sampleStart [] = .ok [samplePayload [connectionCost]] ∧
    (sampleDatabase [connectionCost]).policies =
      [samplePayload [connectionCost]].map PolicyPayload.row ∧
    ∃ reply post, (sampleDatabase [connectionCost]).reservePermitV2 sampleRequest sampleStart
        sampleStart = .ok (reply, post) ∧ reply.granted = true ∧
      ¬ ChargesDeclared (sampleEndpoint tieredRule sampleTieredCost)
        (fun name => if name = "limit" then some 1000 else none)
        (sampleDatabase [connectionCost]) post := by
  refine ⟨rfl, rfl, rfl, ?_⟩
  have hc : sampleCharges [connectionCost] =
      some (true, [⟨"rate-permit-1", 1, 1, 0, 1⟩], sampleWindows.map (·.slot)) := by
    decide
  obtain ⟨reply, post, hca, hg, hn, hs⟩ := exists_reservation hc
  refine ⟨reply, post, hca, hg, fun hd => ?_⟩
  obtain ⟨alloc, hm, slot, hsl, hid, ht⟩ :=
    hd.charged ("REQUEST_WEIGHT", sampleTieredCost) List.mem_cons_self (by rintro ⟨⟩)
  rw [hn, List.mem_singleton] at hm
  subst hm
  rw [hs] at hsl
  have ha : ∀ slot ∈ sampleWindows.map (·.slot), slot.windowId = 1 →
      slot.rateLimitType ≠ "REQUEST_WEIGHT" := by
    decide
  exact ha slot hsl hid ht

theorem fixed_dimensions_charged :
    ∃ reply post, sampleReservation [connectionCost, weightCost] = .ok (reply, post) ∧
      ChargesDeclared (sampleEndpoint (fixedRule 2) (.fixed 2)) (fun _ => none)
        (sampleDatabase [connectionCost, weightCost]) post := by
  have hc : (sampleCharges [connectionCost, weightCost]).map Prod.fst = some true := by
    decide
  obtain ⟨⟨granted, charged, slots⟩, hc, rfl⟩ := Option.map_eq_some_iff.mp hc
  obtain ⟨reply, post, hcall, hg, _, _⟩ := exists_reservation hc
  refine ⟨reply, post, hcall, ?_⟩
  have hca : verifyEndpointCatalog samplePrimitives (fun _ => .ok ())
      (sampleCatalogDocument (fixedRule 2)) sampleKeyring (sampleHash 'a') (sampleHash 'e')
      sampleStart = .ok (sampleCatalog (fixedRule 2) (.fixed 2)) := rfl
  have hi : ingestRuntimePolicies (sampleCatalog (fixedRule 2) (.fixed 2)) sampleBundle
      (sampleVectors [connectionCost, weightCost]) sampleStart [] =
        .ok [samplePayload [connectionCost, weightCost]] := rfl
  exact (granted_charges_declared_iff hca hi List.prefix_rfl rfl (by decide)
    List.mem_cons_self rfl rfl hcall hg (by simp [sampleDatabase])).mpr
    (by decide)

end AiQuant.RateControl
