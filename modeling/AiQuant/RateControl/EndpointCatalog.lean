import AiQuant.RateControl.Authorization

/-! The signed endpoint catalog (`rate_budget/policy.py`): what each endpoint contract says about
its callers' roles, its parameters and the cost of a request in four dimensions. -/
namespace AiQuant.RateControl
open AiQuant.Lib
open AiQuant.UserStream (Json Fields get)

structure CostTier where
  minimum : ℤ
  maximum : ℤ
  cost : ℤ
deriving DecidableEq

/-- A rule of one of the three modes, with what the mode needs. -/
inductive CostRule where
  | fixed (cost : ℤ)
  | notApplicable
  | signedParameterTiers (parameterName : String) (tiers : List CostTier)
deriving DecidableEq

/-- `isinstance(value, int)`, where a Boolean is one. -/
def numberOf? : Json → Option ℤ
  | .integer value => some value
  | .boolean value => some (if value then 1 else 0)
  | _ => none

/-- `value == 0` -/
def equalsZero : Json → Bool
  | .integer value => value = 0
  | .boolean value => !value
  | .float text => text = "0.0" || text = "-0.0"
  | _ => false

def isNull : Json → Bool
  | .null => true
  | _ => false

def addTier (tiers : List CostTier) (item : Json) : Except String (List CostTier) := do
  let tier ← asMapping item "ENDPOINT_COST_TIERS_INVALID"
  let minimum ← asInteger (get tier "min_inclusive") "ENDPOINT_COST_TIERS_INVALID"
  let maximum ← asInteger (get tier "max_inclusive") "ENDPOINT_COST_TIERS_INVALID"
  let cost ← asInteger (get tier "cost") "ENDPOINT_COST_TIERS_INVALID"
  require (0 ≤ minimum ∧ minimum ≤ maximum ∧ 0 ≤ cost) "ENDPOINT_COST_TIERS_INVALID"
  require (∀ previous ∈ tiers.getLast?, minimum = previous.maximum + 1)
    "ENDPOINT_COST_TIERS_INVALID"
  return tiers ++ [⟨minimum, maximum, cost⟩]

def asItems (value : Json) (reason : String) : Except String (List Json) :=
  match value with
  | .array items => .ok items
  | _ => .error reason

def costRule (value : Json) : Except String CostRule := do
  let raw ← asMapping value "ENDPOINT_COST_RULE_INVALID"
  let mode ← asText (get raw "mode") "ENDPOINT_COST_RULE_INVALID"
  let rawTiers ← asItems (get raw "tiers") "ENDPOINT_COST_RULE_INVALID"
  let tiers ← rawTiers.foldlM addTier []
  if mode = "FIXED" then
    match numberOf? (get raw "fixed_cost") with
    | some cost =>
      require (0 ≤ cost ∧ isNull (get raw "parameter_name") ∧ tiers = [])
        "ENDPOINT_COST_RULE_INVALID"
      return .fixed cost
    | none => .error "ENDPOINT_COST_RULE_INVALID"
  else if mode = "NOT_APPLICABLE" then do
    require (equalsZero (get raw "fixed_cost") ∧ isNull (get raw "parameter_name") ∧ tiers = [])
      "ENDPOINT_COST_RULE_INVALID"
    return .notApplicable
  else if mode = "SIGNED_PARAMETER_TIERS" then do
    require (isNull (get raw "fixed_cost") ∧ tiers ≠ []) "ENDPOINT_COST_RULE_INVALID"
    let parameterName ← asText (get raw "parameter_name") "ENDPOINT_COST_RULE_INVALID"
    return .signedParameterTiers parameterName tiers
  else
    .error "ENDPOINT_COST_RULE_INVALID"

inductive IdentityPart where
  | missing
  | text (value : String)
  | number (value : ℤ)
  | decimal (text : String)
deriving DecidableEq

def identityPart : Json → Except String IdentityPart
  | .null => .ok .missing
  | .string value => .ok (.text value)
  | .integer value => .ok (.number value)
  | .boolean value => .ok (.number (if value then 1 else 0))
  | .float text => .ok (.decimal text)
  | .nonFinite text => .ok (.decimal text)
  | .array _ => .error "unhashable type"
  | .object _ => .error "unhashable type"

structure EndpointPolicy where
  endpointId : String
  authority : String
  transport : String
  method : String
  path : String
  marketStreamRole : IdentityPart
  controlFrameType : IdentityPart
  allowedOperationClasses : List String
  causalRoleClassMap : List (String × String)
  requestWeightRule : CostRule
  orderCountRule : CostRule
  websocketControlRule : CostRule
  connectionAttemptRule : CostRule
  allowedParameterNames : List String
  requiredParameterNames : List String
  forbiddenParameterNames : List String
  requestSchemaSha256 : String
  contractPayload : Fields
  contractHash : String

structure RuntimeEndpointCatalog where
  catalogId : String
  catalogHash : String
  checkedAt : Time
  validUntil : Time
  endpoints : List ((String × String) × EndpointPolicy)

def readCausalMap (value : Json) (allowedClasses : List String) :
    Except String (List (String × String)) := do
  let raw ← asMapping value "ENDPOINT_CATALOG_INVALID"
  require (raw ≠ []) "ENDPOINT_CAUSAL_MAP_INVALID"
  raw.mapM fun entry => do
    let operationClass ← asText entry.2 "ENDPOINT_CAUSAL_MAP_INVALID"
    require (operationClass ∈ allowedClasses) "ENDPOINT_CAUSAL_MAP_INVALID"
    return (entry.1, operationClass)

section Catalog

variable (primitives : TrustPrimitives)

def readContract (sourceHashes : List String) (schemaHash : String) (contract : Fields) :
    Except String (List String × EndpointPolicy) := do
  let authorities ← stringSet (get contract "endpoint_authorities") "ENDPOINT_CATALOG_INVALID"
  let endpointId ← asText (get contract "endpoint_id") "ENDPOINT_CATALOG_INVALID"
  let transport ← asText (get contract "transport") "ENDPOINT_CATALOG_INVALID"
  let method ← asText (get contract "method") "ENDPOINT_CATALOG_INVALID"
  let path ← asText (get contract "path") "ENDPOINT_CATALOG_INVALID"
  require ((textOf? (get contract "source_document_sha256")).any (· ∈ sourceHashes) ∧
    textOf? (get contract "request_schema_sha256") = some schemaHash) "ENDPOINT_CATALOG_INVALID"
  let allowedClasses ← stringSet (get contract "allowed_operation_classes")
    "ENDPOINT_CATALOG_INVALID"
  let causalMap ← readCausalMap (get contract "causal_role_class_map") allowedClasses
  let allowedParameters ← stringSetOrEmpty (get contract "allowed_parameter_names")
    "ENDPOINT_CATALOG_INVALID"
  let requiredParameters ← stringSetOrEmpty (get contract "required_parameter_names")
    "ENDPOINT_CATALOG_INVALID"
  let forbiddenParameters ← stringSetOrEmpty (get contract "forbidden_parameter_names")
    "ENDPOINT_CATALOG_INVALID"
  require ((∀ name ∈ requiredParameters, name ∈ allowedParameters) ∧
    ∀ name ∈ allowedParameters, name ∉ forbiddenParameters) "ENDPOINT_PARAMETER_POLICY_INVALID"
  let requestWeightRule ← costRule (get contract "request_weight_rule")
  let orderCountRule ← costRule (get contract "order_count_rule")
  let websocketControlRule ← costRule (get contract "websocket_control_rule")
  let connectionAttemptRule ← costRule (get contract "connection_attempt_rule")
  let marketStreamRole ← identityPart (get contract "market_stream_role")
  let controlFrameType ← identityPart (get contract "control_frame_type")
  return (authorities,
    { endpointId := endpointId, authority := "", transport, method, path, marketStreamRole,
      controlFrameType, allowedOperationClasses := allowedClasses,
      causalRoleClassMap := causalMap, requestWeightRule, orderCountRule, websocketControlRule,
      connectionAttemptRule, allowedParameterNames := allowedParameters,
      requiredParameterNames := requiredParameters,
      forbiddenParameterNames := forbiddenParameters, requestSchemaSha256 := schemaHash,
      contractPayload := contract, contractHash := primitives.digest (.object contract) })

def EndpointPolicy.sameIdentity (left right : EndpointPolicy) : Bool :=
  left.authority = right.authority && left.transport = right.transport &&
    left.method = right.method && left.path = right.path &&
    left.marketStreamRole = right.marketStreamRole &&
    left.controlFrameType = right.controlFrameType

def addEndpoint (policy : EndpointPolicy)
    (endpoints : List ((String × String) × EndpointPolicy)) (authority : String) :
    Except String (List ((String × String) × EndpointPolicy)) := do
  let placed := { policy with authority }
  require ((∀ entry ∈ endpoints, ¬ entry.2.sameIdentity placed) ∧
    endpoints.lookup (authority, policy.endpointId) = none) "ENDPOINT_IDENTITY_DUPLICATE"
  return endpoints ++ [((authority, policy.endpointId), placed)]

def addContract (sourceHashes : List String) (schemaHash : String)
    (endpoints : List ((String × String) × EndpointPolicy)) (item : Json) :
    Except String (List ((String × String) × EndpointPolicy)) := do
  let contract ← asMapping item "ENDPOINT_CATALOG_INVALID"
  let (authorities, policy) ← readContract primitives sourceHashes schemaHash contract
  authorities.foldlM (addEndpoint policy) endpoints

def addSource (sources : List (String × String)) (item : Json) :
    Except String (List (String × String)) := do
  let source ← asMapping item "ENDPOINT_SOURCE_INVALID"
  let relative ← asText (get source "artifact_path") "ENDPOINT_SOURCE_INVALID"
  let expectedHash ← asText (get source "sha256") "ENDPOINT_SOURCE_INVALID"
  require (relative ∉ sources.map Prod.fst ∧ expectedHash ∉ sources.map Prod.snd)
    "ENDPOINT_SOURCE_INVALID"
  return sources ++ [(relative, expectedHash)]

/-- `verify_endpoint_catalog`.  `schemaHash` is the digest of the request schema's file, and
`bindArtifacts` compares the source files with their digests. -/
def verifyEndpointCatalog (bindArtifacts : List (String × String) → Except String Unit)
    (document keyring : Fields) (expectedKeyringHash schemaHash : String) (now : Time) :
    Except String RuntimeEndpointCatalog := do
  let verified ← primitives.verifySignedConfigDocument document keyring expectedKeyringHash
    "catalog_hash" "catalog_status" now
  let content := verified.content
  let checkedAt ← primitives.time (get content "checked_at") "ENDPOINT_CATALOG_TIME_INVALID"
  let validUntil ← primitives.time (get content "valid_until") "ENDPOINT_CATALOG_TIME_INVALID"
  require (checkedAt ≤ verified.signedAt ∧ verified.signedAt ≤ now ∧ now < validUntil)
    "ENDPOINT_CATALOG_EXPIRED"
  let rawSources ← asItems (get content "source_documents") "ENDPOINT_SOURCE_INVALID"
  require (0 < rawSources.length) "ENDPOINT_SOURCE_INVALID"
  let sources ← rawSources.foldlM addSource []
  bindArtifacts sources
  let rawContracts ← asItems (get content "endpoint_contracts") "ENDPOINT_CATALOG_INVALID"
  require (0 < rawContracts.length) "ENDPOINT_CATALOG_INVALID"
  let endpoints ← rawContracts.foldlM
    (addContract primitives (sources.map Prod.snd) schemaHash) []
  let bootstrap ← asMapping (get content "bootstrap") "ENDPOINT_BOOTSTRAP_INVALID"
  let bootstrapIds ← stringSet (get bootstrap "allowed_endpoint_ids") "ENDPOINT_BOOTSTRAP_INVALID"
  require (∀ endpointId ∈ bootstrapIds, ∃ entry ∈ endpoints, entry.1.2 = endpointId)
    "ENDPOINT_BOOTSTRAP_INVALID"
  let catalogId ← asText (get content "catalog_id") "ENDPOINT_CATALOG_INVALID"
  require (textOf? (get content "unknown_endpoint_policy") = some "DENY")
    "ENDPOINT_CATALOG_INVALID"
  return { catalogId := catalogId, catalogHash := verified.contentHash, checkedAt, validUntil,
           endpoints }

variable {primitives}

/-- Every entry of a catalog stands under its own authority and identifier. -/
def Keyed (endpoints : List ((String × String) × EndpointPolicy)) : Prop :=
  ∀ entry ∈ endpoints, entry.1 = (entry.2.authority, entry.2.endpointId)

theorem addEndpoint_keyed {policy : EndpointPolicy} {auth : String}
    {pre post : List ((String × String) × EndpointPolicy)} (hk : Keyed pre)
    (hadd : addEndpoint policy pre auth = .ok post) : Keyed post := by
  simp only [addEndpoint, bind_eq_ok_iff, require_eq_ok_iff, exists_const] at hadd
  obtain ⟨_, ha⟩ := hadd
  cases ha
  refine List.forall_mem_append.mpr ⟨hk, ?_⟩
  simp

theorem addContract_keyed {sourceHashes : List String} {schemaHash : String} {item : Json}
    {pre post : List ((String × String) × EndpointPolicy)} (hk : Keyed pre)
    (hadd : addContract primitives sourceHashes schemaHash pre item = .ok post) : Keyed post := by
  simp only [addContract, bind_eq_ok_iff] at hadd
  obtain ⟨_, _, _, _, ha⟩ := hadd
  exact foldlM_invariant Keyed (fun _ _ _ _ hb hs => addEndpoint_keyed hb hs) hk ha

theorem verifyEndpointCatalog_keyed {bindArtifacts : List (String × String) → Except String Unit}
    {doc keyring : Fields} {expectedKeyringHash schemaHash : String} {now : Time}
    {catalog : RuntimeEndpointCatalog}
    (hv : verifyEndpointCatalog primitives bindArtifacts doc keyring
      expectedKeyringHash schemaHash now = .ok catalog) : Keyed catalog.endpoints := by
  simp only [verifyEndpointCatalog, bind_eq_ok_iff, require_eq_ok_iff, exists_const] at hv
  obtain ⟨_, _, _, _, _, _, _, _, _, _, _, _, _, _, _, _, _, endpoints, he, _, _, _, _, _,
    _, _, _, hc⟩ := hv
  cases hc
  exact foldlM_invariant Keyed (fun _ _ _ _ hb hs => addContract_keyed hb hs) (by simp [Keyed]) he

end Catalog

end AiQuant.RateControl
