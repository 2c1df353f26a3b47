import AiQuant.RateControl.EndpointCatalog
import AiQuant.Gateway.ChargedClass
import Mathlib.Data.List.AList

/-! Ingestion of runtime policies (`ingest_runtime_policies`, `rate_budget/postgres.py`): a
verified catalog, a verified trust bundle and the costs of every class become the rows of
`endpoint_runtime_policies`, which is append-only.  A row is kept as the document that its
payload hash is taken of. -/
namespace AiQuant.RateControl
open AiQuant.Lib
open AiQuant.UserStream (Json Fields get)

def CostRule.isFixed : CostRule → Bool
  | .fixed _ => true
  | _ => false

def EndpointPolicy.rules (endpoint : EndpointPolicy) : List (String × CostRule) :=
  [("REQUEST_WEIGHT", endpoint.requestWeightRule), ("ORDERS", endpoint.orderCountRule),
   ("WS_CONTROL_MESSAGES", endpoint.websocketControlRule),
   ("CONNECTION_ATTEMPTS", endpoint.connectionAttemptRule)]

def CostItem.identity (item : CostItem) : String × String × String :=
  (item.rateLimitType, item.scopeKeyHash, item.intervalName)

def isLowerHexDigit (character : Char) : Bool :=
  ('0' ≤ character && character ≤ '9') || ('a' ≤ character && character ≤ 'f')

def EndpointPolicy.accepts (endpoint : EndpointPolicy) (item : CostItem) : Prop :=
  item.scopeKeyHash.length = 64 ∧ item.scopeKeyHash.toList.all isLowerHexDigit ∧
    3 ≤ item.intervalName.length ∧ item.intervalName.length ≤ 32 ∧ 0 ≤ item.cost ∧
    1 ≤ item.ceilingUnits ∧ endpoint.rules.lookup item.rateLimitType = some (.fixed item.cost)

instance (endpoint : EndpointPolicy) (item : CostItem) : Decidable (endpoint.accepts item) :=
  inferInstanceAs (Decidable (_ ∧ _))

def EndpointPolicy.expected (endpoint : EndpointPolicy) : List String :=
  (endpoint.rules.filter fun entry => entry.2.isFixed).map Prod.fst

def validateRuntimeCosts (endpoint : EndpointPolicy) (operationClass : String)
    (costs : List CostItem) : Except String Unit := do
  require (operationClass ∈ endpoint.allowedOperationClasses ∧ costs ≠ [])
    "RATE_POLICY_COST_INVALID"
  require ((costs.map CostItem.identity).Nodup ∧ ∀ item ∈ costs, endpoint.accepts item)
    "RATE_POLICY_COST_INVALID"
  require ((∀ item ∈ costs, item.rateLimitType ∈ endpoint.expected) ∧
    ∀ dimension ∈ endpoint.expected, dimension ∈ costs.map fun item => item.rateLimitType)
    "RATE_POLICY_COST_INVALID"

/-- `policy_payload`; the maps of the document are kept in the order of their keys. -/
structure PolicyPayload where
  catalogHash : String
  endpointAuthority : String
  endpointId : String
  endpointContractHash : String
  allowedCallers : List String
  allowedOperationClasses : List String
  causalRoleClassMap : List (String × String)
  classCostVectors : List (String × List CostItem)
  validFrom : Time
  validUntil : Time
deriving DecidableEq

/-- What `reserve_permit_v2` reads of the row. -/
def PolicyPayload.row (payload : PolicyPayload) : RuntimePolicy where
  endpointAuthority := payload.endpointAuthority
  endpointId := payload.endpointId
  endpointCatalogHash := payload.catalogHash
  signedRuntime := true
  allowedCallers := payload.allowedCallers
  allowedOperationClasses := payload.allowedOperationClasses
  classCostVectors := payload.classCostVectors.map fun entry => (entry.1, some entry.2)
  hasEndpointContract := true
  validFrom := payload.validFrom
  validUntil := payload.validUntil

/-- `sorted(texts)` -/
def sortedTexts (texts : List String) : List String :=
  texts.insertionSort fun left right => left ≤ right

def sortedEntries {α : Type} (entries : List (String × α)) : List (String × α) :=
  entries.insertionSort fun left right => left.1 ≤ right.1

def RuntimeTrustBundle.mayCall (bundle : RuntimeTrustBundle) (endpoint : EndpointPolicy)
    (acl : CallerAcl) : Bool :=
  endpoint.authority ∈ acl.allowedEndpointAuthorities &&
    acl.allowedIssuers.any fun name => (bundle.issuers.lookup name).any fun issuer =>
      endpoint.authority ∈ issuer.allowedEndpointAuthorities &&
        endpoint.allowedOperationClasses.any (· ∈ issuer.allowedOperationClasses)

def RuntimeTrustBundle.callersOf (bundle : RuntimeTrustBundle) (endpoint : EndpointPolicy) :
    List String :=
  sortedTexts ((bundle.callers.filter fun caller => bundle.mayCall endpoint caller.2).map Prod.fst)

abbrev ClassVectors := AList fun _ : String => List CostItem

/-- `normalized` -/
def normalizedVectors (vectors : ClassVectors) : List (String × List CostItem) :=
  (sortedEntries (vectors.entries.map fun entry => (entry.1, entry.2))).map fun entry =>
    (entry.1, orderedCosts entry.2)

def endpointPayload (catalog : RuntimeEndpointCatalog) (bundle : RuntimeTrustBundle)
    (endpoint : EndpointPolicy) (vectors : ClassVectors) : Except String PolicyPayload := do
  require ((∀ operationClass ∈ vectors.keys, operationClass ∈ endpoint.allowedOperationClasses) ∧
    ∀ operationClass ∈ endpoint.allowedOperationClasses, operationClass ∈ vectors.keys)
    "RATE_POLICY_CLASS_COVERAGE_INVALID"
  vectors.entries.forM fun entry => validateRuntimeCosts endpoint entry.1 entry.2
  let allowedCallers := bundle.callersOf endpoint
  require (allowedCallers ≠ [] ∧ 0 < endpoint.contractPayload.length ∧ endpoint.contractHash ≠ "")
    "RATE_POLICY_TRUST_CLOSURE_INVALID"
  return {
    catalogHash := catalog.catalogHash
    endpointAuthority := endpoint.authority
    endpointId := endpoint.endpointId
    endpointContractHash := endpoint.contractHash
    allowedCallers := allowedCallers
    allowedOperationClasses := sortedTexts endpoint.allowedOperationClasses
    causalRoleClassMap := sortedEntries endpoint.causalRoleClassMap
    classCostVectors := normalizedVectors vectors
    validFrom := catalog.checkedAt
    validUntil := catalog.validUntil }

def payloadOf (payloads : List PolicyPayload) (authority endpointId catalogHash : String) :
    Option PolicyPayload :=
  payloads.find? fun payload => payload.endpointAuthority = authority &&
    payload.endpointId = endpointId && payload.catalogHash = catalogHash

/-- `INSERT … ON CONFLICT DO NOTHING`; an existing row has to be the same. -/
def insertPayload (payloads : List PolicyPayload) (payload : PolicyPayload) :
    Except String (List PolicyPayload) :=
  match payloadOf payloads payload.endpointAuthority payload.endpointId payload.catalogHash with
  | none => .ok (payloads ++ [payload])
  | some existing =>
    if existing = payload then .ok payloads else .error "RATE_POLICY_APPEND_ONLY_CONFLICT"

/-- `class_cost_vectors`, by authority and endpoint. -/
abbrev CostVectors := AList fun _ : String × String => ClassVectors

def keyPayload (catalog : RuntimeEndpointCatalog) (bundle : RuntimeTrustBundle)
    (vectors : CostVectors) (entry : (String × String) × EndpointPolicy) :
    Except String PolicyPayload :=
  match vectors.lookup entry.1 with
  | none => .error "RATE_POLICY_COVERAGE_INVALID"
  | some classVectors => endpointPayload catalog bundle entry.2 classVectors

/-- Membership among the keys of the catalog is decided. -/
local instance keyTextsLawful : LawfulBEq (String × String) := inferInstance

/-- `ingest_runtime_policies`: all rows are built before the first one is inserted, in one
transaction. -/
def ingestRuntimePolicies (catalog : RuntimeEndpointCatalog) (bundle : RuntimeTrustBundle)
    (vectors : CostVectors) (now : Time) (payloads : List PolicyPayload) :
    Except String (List PolicyPayload) := do
  require ((∀ key ∈ vectors.keys, key ∈ catalog.endpoints.map Prod.fst) ∧
    ∀ key ∈ catalog.endpoints.map Prod.fst, key ∈ vectors.keys) "RATE_POLICY_COVERAGE_INVALID"
  require (catalog.checkedAt ≤ now ∧ now < catalog.validUntil) "ENDPOINT_CATALOG_EXPIRED"
  let rows ← (catalog.endpoints.insertionSort fun left right =>
    toLex left.1 ≤ toLex right.1).mapM (keyPayload catalog bundle vectors)
  rows.foldlM insertPayload payloads

structure ValidCosts (endpoint : EndpointPolicy) (items : List CostItem) : Prop where
  nonempty : items ≠ []
  accepted : ∀ item ∈ items, endpoint.accepts item
  complete : ∀ dimension ∈ endpoint.expected, ∃ item ∈ items, item.rateLimitType = dimension

structure Ingested (catalog : RuntimeEndpointCatalog) (bundle : RuntimeTrustBundle)
    (endpoint : EndpointPolicy) (payload : PolicyPayload) : Prop where
  catalogHash : payload.catalogHash = catalog.catalogHash
  authority : payload.endpointAuthority = endpoint.authority
  endpointId : payload.endpointId = endpoint.endpointId
  callers : payload.allowedCallers = bundle.callersOf endpoint
  classes : ∀ operationClass, operationClass ∈ payload.allowedOperationClasses ↔
    operationClass ∈ endpoint.allowedOperationClasses
  covered : ∀ operationClass ∈ endpoint.allowedOperationClasses,
    ∃ items, payload.classCostVectors.lookup operationClass = some items
  costs : ∀ operationClass items, payload.classCostVectors.lookup operationClass = some items →
    ValidCosts endpoint items

section Ingestion

variable {catalog : RuntimeEndpointCatalog} {bundle : RuntimeTrustBundle}
  {endpoint : EndpointPolicy} {data : PolicyPayload} {payloads ingested : List PolicyPayload}

variable {α : Type}

theorem mem_of_lookup {entries : List (String × α)} {key : String} {value : α}
    (hf : entries.lookup key = some value) : (key, value) ∈ entries := by
  obtain ⟨pre, later, rfl, _⟩ := List.lookup_eq_some_iff.mp hf
  exact List.mem_append_right _ List.mem_cons_self

theorem exists_lookup_of_mem {entries : List (String × α)} {key : String}
    (hm : key ∈ entries.map Prod.fst) : ∃ value, entries.lookup key = some value := by
  obtain ⟨entry, he, rfl⟩ := List.mem_map.mp hm
  exact Option.isSome_iff_exists.mp (List.lookup_isSome_iff.mpr ⟨entry, he, by simp⟩)

variable {items : List CostItem}

theorem mem_orderedCosts {item : CostItem} : item ∈ orderedCosts items ↔ item ∈ items :=
  List.mem_insertionSort _

theorem mem_sortedTexts {texts : List String} {text : String} :
    text ∈ sortedTexts texts ↔ text ∈ texts :=
  List.mem_insertionSort _

theorem mem_sortedEntries {entries : List (String × α)} {entry : String × α} :
    entry ∈ sortedEntries entries ↔ entry ∈ entries :=
  List.mem_insertionSort _

theorem ValidCosts.ordered (hv : ValidCosts endpoint items) :
    ValidCosts endpoint (orderedCosts items) where
  nonempty hempty := by
    obtain ⟨item, hi⟩ := List.exists_mem_of_ne_nil items hv.nonempty
    have hs := mem_orderedCosts.mpr hi
    rw [hempty] at hs
    cases hs
  accepted item hi := hv.accepted item (mem_orderedCosts.mp hi)
  complete dimension hdimension := by
    obtain ⟨item, hi, ht⟩ := hv.complete dimension hdimension
    exact ⟨item, mem_orderedCosts.mpr hi, ht⟩

variable {operationClass : String}

theorem validateRuntimeCosts_valid {costs : List CostItem} {result : Unit}
    (hv : validateRuntimeCosts endpoint operationClass costs = .ok result) :
    ValidCosts endpoint costs := by
  simp only [validateRuntimeCosts, bind_eq_ok_iff, require_eq_ok_iff, exists_const] at hv
  obtain ⟨⟨_, hn⟩, ⟨_, ha⟩, _, hc⟩ := hv
  refine ⟨hn, ha, fun dimension hd => ?_⟩
  exact List.mem_map.mp (hc dimension hd)

variable {vectors : ClassVectors}

theorem mem_normalizedVectors (hm : (operationClass, items) ∈ normalizedVectors vectors) :
    ∃ entry ∈ vectors.entries, entry.1 = operationClass ∧ items = orderedCosts entry.2 := by
  obtain ⟨sorted, hs, hi⟩ := List.mem_map.mp hm
  rw [mem_sortedEntries] at hs
  obtain ⟨entry, he, rfl⟩ := List.mem_map.mp hs
  cases hi
  exact ⟨entry, he, rfl, rfl⟩

theorem mem_keys_normalizedVectors (hm : operationClass ∈ vectors.keys) :
    operationClass ∈ (normalizedVectors vectors).map Prod.fst := by
  obtain ⟨entry, he, rfl⟩ := List.mem_map.mp hm
  refine List.mem_map.mpr ⟨(entry.1, orderedCosts entry.2), ?_, rfl⟩
  exact List.mem_map.mpr ⟨(entry.1, entry.2), mem_sortedEntries.mpr (List.mem_map_of_mem he), rfl⟩

theorem endpointPayload_ingested (hp : endpointPayload catalog bundle endpoint vectors = .ok data) :
    Ingested catalog bundle endpoint data := by
  simp only [endpointPayload, bind_eq_ok_iff, require_eq_ok_iff, exists_const, forM_eq_ok_iff] at hp
  obtain ⟨⟨_, hc⟩, hv, _, hp⟩ := hp
  cases hp
  refine ⟨rfl, rfl, rfl, rfl, fun _ => mem_sortedTexts, ?_, ?_⟩
  · intro operationClass hcl
    exact exists_lookup_of_mem (mem_keys_normalizedVectors (hc operationClass hcl))
  · intro operationClass items hl
    obtain ⟨entry, he, _, rfl⟩ := mem_normalizedVectors (mem_of_lookup hl)
    exact (validateRuntimeCosts_valid (hv entry he)).ordered

theorem payloadOf_of_prefix {later : List PolicyPayload} {auth endpointId catalogHash : String}
    (hg : payloads <+: later) (hf : payloadOf payloads auth endpointId catalogHash = some data) :
    payloadOf later auth endpointId catalogHash = some data := by
  obtain ⟨appended, rfl⟩ := hg
  rw [payloadOf, List.find?_append, ← payloadOf, hf]
  rfl

def Found (payloads : List PolicyPayload) (payload : PolicyPayload) : Prop :=
  payloadOf payloads payload.endpointAuthority payload.endpointId payload.catalogHash =
    some payload

theorem insertPayload_found (hi : insertPayload payloads data = .ok ingested) :
    payloads <+: ingested ∧ Found ingested data := by
  unfold insertPayload at hi
  split at hi
  · next ha =>
    cases hi
    refine ⟨List.prefix_append _ _, ?_⟩
    rw [Found, payloadOf, List.find?_append, ← payloadOf, ha, Option.none_or]
    simp
  · next existing hexisting =>
    split at hi
    · next hs =>
      cases hi
      exact ⟨List.prefix_rfl, hs ▸ hexisting⟩
    · cases hi

theorem insertPayloads_found {rows : List PolicyPayload}
    (hi : rows.foldlM insertPayload payloads = .ok ingested) :
    payloads <+: ingested ∧ ∀ data ∈ rows, Found ingested data := by
  induction rows generalizing payloads with
  | nil =>
    rw [foldlM_nil_eq_ok_iff] at hi
    exact ⟨hi ▸ List.prefix_rfl, by simp⟩
  | cons data rows ih =>
    obtain ⟨mid, hfi, hr⟩ := foldlM_cons_eq_ok_iff.mp hi
    obtain ⟨hg, hf⟩ := insertPayload_found hfi
    obtain ⟨hl, hro⟩ := ih hr
    rw [List.forall_mem_cons]
    exact ⟨hg.trans hl, payloadOf_of_prefix hl hf, hro⟩

theorem ingestRuntimePolicies_found {vectors : CostVectors} {now : Time}
    (hi : ingestRuntimePolicies catalog bundle vectors now payloads = .ok ingested)
    {entry : (String × String) × EndpointPolicy} (he : entry ∈ catalog.endpoints) :
    ∃ data, Ingested catalog bundle entry.2 data ∧ Found ingested data := by
  simp only [ingestRuntimePolicies, bind_eq_ok_iff, require_eq_ok_iff, exists_const] at hi
  obtain ⟨_, _, rows, hr, hin⟩ := hi
  obtain ⟨data, hp, hs⟩ := exists_mem_of_mapM hr ((List.mem_insertionSort _).mpr he)
  refine ⟨data, ?_, (insertPayloads_found hin).2 data hp⟩
  unfold keyPayload at hs
  split at hs
  · cases hs
  · exact endpointPayload_ingested hs

theorem row_lookup (data : PolicyPayload) (operationClass : String) :
    data.row.classCostVectors.lookup operationClass =
      (data.classCostVectors.lookup operationClass).map some := by
  rw [PolicyPayload.row]
  induction data.classCostVectors with
  | nil => rfl
  | cons entry entries ih =>
    rw [List.map_cons, List.lookup_cons, List.lookup_cons, ih]
    split <;> rfl

theorem policyFor_of_payloadOf {db : Database} {binding : PermitBinding}
    (hr : db.policies = payloads.map PolicyPayload.row)
    (hf : payloadOf payloads binding.endpointAuthority binding.endpointId
      binding.endpointCatalogHash = some data) : db.policyFor binding = some data.row := by
  rw [Database.policyFor, hr, List.find?_map]
  exact congrArg (Option.map PolicyPayload.row) hf

end Ingestion

end AiQuant.RateControl
