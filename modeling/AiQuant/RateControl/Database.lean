import Mathlib.Data.String.Basic
import Mathlib.Algebra.Order.Ring.Int
import Mathlib.Data.Prod.Lex
import Mathlib.Data.List.Sort
import AiQuant.Lib.Fallible

/-! The host rate-control database (`migrations/host_control`): the fencing lease, the
runtime policies with their rate windows, and the permits reserved and consumed under
them.  Every stored procedure locks the single fencing row first, so a call is one
atomic step; it reads the clock when it starts.  Instants are microseconds.

Arguments of a procedure may be SQL nulls.  A comparison with a null is neither true
nor false, and `IF` takes its branch only on true. -/
namespace AiQuant.RateControl
open AiQuant.Lib

abbrev Time := ℤ

/-- `stored <> requested` is true. -/
def sqlNe {α : Type} [DecidableEq α] (stored : α) (requested : Option α) : Bool :=
  requested.any (· ≠ stored)

/-- `fencing_state`.  Only the expiry of the lease is ever read. -/
structure FencingState where
  epoch : ℤ
  allocatorInstanceId : String
  leaseExpiresAt : Option Time
deriving DecidableEq

structure RateWindow where
  windowId : ℕ
  endpointAuthority : String
  scopeKeyHash : String
  rateLimitType : String
  intervalName : String
  windowStart : Time
  windowEnd : Time
  effectiveUsed : ℤ
  observedMax : ℤ
  hardLimit : ℤ
  blockedUntil : Option Time
deriving DecidableEq

/-- An element of a class's cost vector, as the ingested policies have them. -/
structure CostItem where
  rateLimitType : String
  scopeKeyHash : String
  intervalName : String
  cost : ℤ
  ceilingUnits : ℤ
deriving DecidableEq

/-- `endpoint_runtime_policies`.  A class without a cost array maps to `none`. -/
structure RuntimePolicy where
  endpointAuthority : String
  endpointId : String
  endpointCatalogHash : String
  signedRuntime : Bool
  allowedCallers : List String
  allowedOperationClasses : List String
  classCostVectors : List (String × Option (List CostItem))
  hasEndpointContract : Bool
  validFrom : Time
  validUntil : Time
deriving DecidableEq

structure AuthorityBlock where
  endpointAuthority : String
  blockedUntil : Option Time
  consecutiveBackoffCount : ℤ := 0
deriving DecidableEq

inductive PermitState where
  | reserved | consumed | expired
deriving DecidableEq

structure CapabilityNonce where
  nonce : String
  payloadHash : String
  state : PermitState
  expiresAt : Time
  consumedAt : Option Time
deriving DecidableEq

/-- The request a permit is bound to. -/
structure PermitBinding where
  subjectCallerService : String
  subjectCallerInstanceId : String
  environment : String
  gatewayConnectionId : Option String
  endpointAuthority : String
  endpointId : String
  endpointCatalogHash : String
  canonicalRequestHash : String
  parameterHash : String
  wireBytesHash : String
  operationFactsHash : String
  capabilityPayloadHash : String
  gatewayRequestDocumentHash : String
deriving DecidableEq

structure Permit where
  permitId : String
  requestKey : String
  binding : PermitBinding
  derivedOperationClass : String
  capabilityNonce : String
  fencingEpoch : ℤ
  state : PermitState
  reservedAt : Time
  expiresAt : Time
  consumedAt : Option Time
  gatewayInstanceId : Option String
deriving DecidableEq

structure Allocation where
  permitId : String
  windowId : ℕ
  cost : ℤ
  effectiveUsedBefore : ℤ
  effectiveUsedAfter : ℤ
deriving DecidableEq

structure Database where
  fencing : FencingState := ⟨1, "UNINITIALIZED", none⟩
  windows : List RateWindow := []
  policies : List RuntimePolicy := []
  blocks : List AuthorityBlock := []
  nonces : List CapabilityNonce := []
  permits : List Permit := []
  allocations : List Allocation := []
deriving DecidableEq

structure LeaseRequest where
  allocatorInstanceId : Option String
  expectedPreviousEpoch : Option ℤ
  ttlSeconds : Option ℤ

structure LeaseReply where
  granted : Bool
  reasonCode : String
  fencingEpoch : ℤ
  leaseExpiresAt : Option Time

/-- `lease_expires_at > now_at` is true. -/
def FencingState.held (fencing : FencingState) (now : Time) : Bool :=
  fencing.leaseExpiresAt.any (now < ·)

/-- `acquire_fencing_lease`: the holder renews, and an expired (or never taken) lease
is taken over under the next epoch.  A null time to live leaves no expiry behind. -/
def Database.acquireFencingLease (database : Database) (request : LeaseRequest) (now : Time) :
    LeaseReply × Database :=
  let fencing := database.fencing
  let newExpiry := request.ttlSeconds.map (now + 1000000 * ·)
  match request.allocatorInstanceId with
  | none => (⟨false, "FENCING_REQUEST_INVALID", fencing.epoch, none⟩, database)
  | some instanceId =>
    if instanceId = "" ∨ instanceId = "UNINITIALIZED" ∨
        request.ttlSeconds.any (fun ttl => ttl < 1 || 300 < ttl) then
      (⟨false, "FENCING_REQUEST_INVALID", fencing.epoch, none⟩, database)
    else if sqlNe fencing.epoch request.expectedPreviousEpoch then
      (⟨false, "FENCING_EPOCH_STALE", fencing.epoch, fencing.leaseExpiresAt⟩, database)
    else if fencing.held now then
      if fencing.allocatorInstanceId ≠ instanceId then
        (⟨false, "FENCING_LEASE_HELD", fencing.epoch, fencing.leaseExpiresAt⟩, database)
      else
        (⟨true, "FENCING_LEASE_RENEWED", fencing.epoch, newExpiry⟩,
          { database with fencing := { fencing with leaseExpiresAt := newExpiry } })
    else
      (⟨true, "FENCING_LEASE_ACQUIRED", fencing.epoch + 1, newExpiry⟩,
        { database with fencing := ⟨fencing.epoch + 1, instanceId, newExpiry⟩ })

/-- `state_row.epoch <> requested_fencing_epoch OR lease_expires_at IS NULL OR
lease_expires_at <= now_at` is not true. -/
def FencingState.admits (fencing : FencingState) (requestedEpoch : Option ℤ) (now : Time) : Bool :=
  !sqlNe fencing.epoch requestedEpoch && fencing.held now

/-- The arguments of `reserve_permit_v2`.  A null in any of them but the connection
violates a `NOT NULL` column of the permit, so such a call changes nothing. -/
structure ReserveRequest where
  permitId : String
  requestKey : String
  binding : PermitBinding
  derivedOperationClass : String
  capabilityNonce : String
  fencingEpoch : ℤ
  expiresAt : Time

structure ReserveReply where
  granted : Bool
  reasonCode : String
  permitId : Option String
  derivedOperationClass : Option String
  fencingEpoch : ℤ
  expiresAt : Option Time
deriving DecidableEq

def reserveDenied (reasonCode : String) (epoch : ℤ) : ReserveReply :=
  ⟨false, reasonCode, none, none, epoch, none⟩

def Database.windowFor (database : Database) (authority : String) (item : CostItem)
    (now : Time) : Option RateWindow :=
  database.windows.find? fun window =>
    window.endpointAuthority = authority && window.scopeKeyHash = item.scopeKeyHash &&
      window.rateLimitType = item.rateLimitType && window.intervalName = item.intervalName &&
      window.windowStart ≤ now && now < window.windowEnd

def RateWindow.used (window : RateWindow) : ℤ :=
  max window.effectiveUsed window.observedMax

def Database.costRefusal (database : Database) (authority : String) (item : CostItem)
    (now : Time) : Option String :=
  if item.cost < 0 ∨ item.ceilingUnits < 1 then some "RATE_AUTHORITY_UNAVAILABLE"
  else match database.windowFor authority item now with
    | none => some "RATE_AUTHORITY_UNAVAILABLE"
    | some window =>
      if window.blockedUntil.any (now < ·) then some "RATE_SCOPE_BLOCKED"
      else if min window.hardLimit item.ceilingUnits < window.used + item.cost then
        some "RATE_CLASS_CEILING_EXCEEDED"
      else none

def Database.charge (authority permitId : String) (now : Time) (database : Database)
    (item : CostItem) : Except String Database :=
  match database.windowFor authority item now with
  | none => .error "null value in column effective_used"
  | some window =>
    if database.allocations.any (fun allocation =>
        allocation.permitId = permitId && allocation.windowId = window.windowId) then
      .error "duplicate key value violates unique constraint"
    else .ok { database with
      windows := database.windows.map fun other =>
        if other.windowId = window.windowId then
          { other with effectiveUsed := window.used + item.cost } else other
      allocations := database.allocations ++
        [⟨permitId, window.windowId, item.cost, window.used, window.used + item.cost⟩] }

/-- `ORDER BY rate_limit_type, scope_key_hash, interval_name`. -/
def orderedCosts (items : List CostItem) : List CostItem :=
  items.insertionSort fun left right =>
    toLex (left.rateLimitType, toLex (left.scopeKeyHash, left.intervalName)) ≤
      toLex (right.rateLimitType, toLex (right.scopeKeyHash, right.intervalName))

def ReserveRequest.permit (request : ReserveRequest) (now : Time) : Permit where
  permitId := request.permitId
  requestKey := request.requestKey
  binding := request.binding
  derivedOperationClass := request.derivedOperationClass
  capabilityNonce := request.capabilityNonce
  fencingEpoch := request.fencingEpoch
  state := .reserved
  reservedAt := now
  expiresAt := request.expiresAt
  consumedAt := none
  gatewayInstanceId := none

def ReserveRequest.replay (request : ReserveRequest) (existing : Permit) (epoch : ℤ)
    (now : Time) : ReserveReply :=
  if existing.state = .reserved ∧ now < existing.expiresAt ∧ existing.binding = request.binding ∧
      existing.derivedOperationClass = request.derivedOperationClass ∧
      existing.capabilityNonce = request.capabilityNonce ∧
      existing.fencingEpoch = request.fencingEpoch then
    ⟨true, "RATE_GRANTED", some existing.permitId, some existing.derivedOperationClass,
      existing.fencingEpoch, some existing.expiresAt⟩
  else reserveDenied "RATE_CAPABILITY_REPLAYED" epoch

def Database.selectedCosts (database : Database) (request : ReserveRequest) (now : Time) :
    Except String (List CostItem) :=
  match database.policies.find? fun policy =>
      policy.endpointAuthority = request.binding.endpointAuthority &&
        policy.endpointId = request.binding.endpointId &&
        policy.endpointCatalogHash = request.binding.endpointCatalogHash with
  | none => .error "RATE_ENDPOINT_UNKNOWN"
  | some policy =>
    if policy.signedRuntime = false ∨ now < policy.validFrom ∨ policy.validUntil ≤ now ∨
        policy.hasEndpointContract = false then
      .error "RATE_ENDPOINT_UNKNOWN"
    else if request.binding.subjectCallerService ∉ policy.allowedCallers then
      .error "RATE_CALLER_NOT_ALLOWED"
    else if request.derivedOperationClass ∉ policy.allowedOperationClasses then
      .error "RATE_CAUSAL_ROLE_INVALID"
    else match policy.classCostVectors.lookup request.derivedOperationClass with
      | none => .error "RATE_CAUSAL_ROLE_INVALID"
      | some none => .error "RATE_AUTHORITY_UNAVAILABLE"
      | some (some []) => .error "RATE_AUTHORITY_UNAVAILABLE"
      | some (some items) => .ok (orderedCosts items)

def Database.insertPermit (database : Database) (request : ReserveRequest)
    (costs : List CostItem) (now : Time) : Except String Database :=
  if database.permits.any (·.permitId = request.permitId) then
    .error "duplicate key value violates unique constraint"
  else
    costs.foldlM (Database.charge request.binding.endpointAuthority request.permitId now)
      { database with
        nonces := database.nonces ++ [⟨request.capabilityNonce,
          request.binding.capabilityPayloadHash, .reserved, request.expiresAt, none⟩]
        permits := database.permits ++ [request.permit now] }

/-- `reserve_permit_v2_under_active_lease`. -/
def Database.reserveUnderActiveLease (database : Database) (request : ReserveRequest)
    (now : Time) : Except String (ReserveReply × Database) :=
  let epoch := database.fencing.epoch
  let denied := fun reasonCode => .ok (reserveDenied reasonCode epoch, database)
  if epoch ≠ request.fencingEpoch then denied "RATE_FENCING_STALE"
  else if request.expiresAt ≤ now ∨ now + 5000000 < request.expiresAt then
    denied "RATE_AUTHORITY_UNAVAILABLE"
  else if database.blocks.any (fun block =>
      block.endpointAuthority = request.binding.endpointAuthority &&
        block.blockedUntil.all (now < ·)) then
    denied "RATE_SCOPE_BLOCKED"
  else match database.permits.find? (·.requestKey = request.requestKey) with
    | some existing => .ok (request.replay existing epoch now, database)
    | none =>
      match database.selectedCosts request now with
      | .error reasonCode => denied reasonCode
      | .ok costs =>
        match costs.findSome? fun item =>
            database.costRefusal request.binding.endpointAuthority item now with
        | some reasonCode => denied reasonCode
        | none =>
          if database.nonces.any (·.nonce = request.capabilityNonce) then
            denied "RATE_CAPABILITY_REPLAYED"
          else do
            let after ← database.insertPermit request costs now
            return (⟨true, "RATE_GRANTED", some request.permitId,
              some request.derivedOperationClass, epoch, some request.expiresAt⟩, after)

/-- `reserve_permit_v2`: the lease is checked with a clock reading of its own. -/
def Database.reservePermitV2 (database : Database) (request : ReserveRequest)
    (leaseCheckedAt now : Time) : Except String (ReserveReply × Database) :=
  if database.fencing.admits (some request.fencingEpoch) leaseCheckedAt then
    database.reserveUnderActiveLease request now
  else .ok (reserveDenied "RATE_FENCING_STALE" database.fencing.epoch, database)

/-- The arguments of `consume_permit_v2`, any of which may be null. -/
structure ConsumeRequest where
  permitId : Option String
  subjectService : Option String
  subjectInstance : Option String
  environment : Option String
  endpointAuthority : Option String
  endpointId : Option String
  gatewayConnectionId : Option String
  catalogHash : Option String
  canonicalHash : Option String
  parameterHash : Option String
  wireHash : Option String
  operationFactsHash : Option String
  capabilityHash : Option String
  documentHash : Option String
  fencingEpoch : Option ℤ
  gatewayInstanceId : Option String
deriving DecidableEq

structure ConsumeReply where
  granted : Bool
  reasonCode : String
  sendDeadline : Option Time

def consumeDenied (reasonCode : String) : ConsumeReply :=
  ⟨false, reasonCode, none⟩

def ConsumeRequest.bindingRefusal (request : ConsumeRequest) (permit : Permit) : Option String :=
  let binding := permit.binding
  if sqlNe binding.subjectCallerService request.subjectService ∨
      sqlNe binding.subjectCallerInstanceId request.subjectInstance ∨
      sqlNe binding.environment request.environment ∨
      sqlNe binding.endpointAuthority request.endpointAuthority ∨
      sqlNe binding.endpointId request.endpointId ∨
      binding.gatewayConnectionId ≠ request.gatewayConnectionId ∨
      sqlNe binding.endpointCatalogHash request.catalogHash ∨
      sqlNe binding.canonicalRequestHash request.canonicalHash then
    some "RATE_PERMIT_BINDING_MISMATCH"
  else if sqlNe binding.parameterHash request.parameterHash then
    some "RATE_PARAMETER_HASH_MISMATCH"
  else if sqlNe binding.wireBytesHash request.wireHash then some "RATE_WIRE_HASH_MISMATCH"
  else if sqlNe binding.gatewayRequestDocumentHash request.documentHash then
    some "RATE_REQUEST_DOCUMENT_HASH_MISMATCH"
  else if sqlNe binding.operationFactsHash request.operationFactsHash then
    some "RATE_OPERATION_FACTS_MISMATCH"
  else if sqlNe binding.capabilityPayloadHash request.capabilityHash then
    some "RATE_CAPABILITY_INVALID_OR_REPLAYED"
  else none

def Database.updatePermit (database : Database) (permitId : String) (update : Permit → Permit) :
    List Permit :=
  database.permits.map fun permit => if permit.permitId = permitId then update permit else permit

def ConsumeRequest.consumesNonce (request : ConsumeRequest) (permit : Permit) (now : Time)
    (nonce : CapabilityNonce) : Bool :=
  nonce.nonce = permit.capabilityNonce && request.capabilityHash = some nonce.payloadHash &&
    nonce.state = .reserved && now < nonce.expiresAt

def Database.expirePermit (database : Database) (permit : Permit) : Database :=
  { database with
    permits := database.updatePermit permit.permitId fun other =>
      if other.state = .reserved then { other with state := .expired } else other
    nonces := database.nonces.map fun nonce =>
      if nonce.nonce = permit.capabilityNonce ∧ nonce.state = .reserved then
        { nonce with state := .expired } else nonce }

def Database.markConsumed (database : Database) (request : ConsumeRequest) (permit : Permit)
    (now : Time) : Database :=
  { database with
    nonces := database.nonces.map fun nonce =>
      if request.consumesNonce permit now nonce then
        { nonce with state := .consumed, consumedAt := some now } else nonce
    permits := database.updatePermit permit.permitId fun other =>
      { other with
        state := .consumed
        consumedAt := some now
        gatewayInstanceId := request.gatewayInstanceId } }

/-- `consume_permit_v2` once the lease is checked and the permit found. -/
def Database.consumeFound (database : Database) (request : ConsumeRequest) (permit : Permit)
    (now : Time) : ConsumeReply × Database :=
  if permit.state = .consumed then
    (consumeDenied "RATE_PERMIT_ALREADY_CONSUMED", database)
  else if permit.state = .expired ∨ permit.expiresAt ≤ now then
    (consumeDenied "RATE_PERMIT_EXPIRED", database.expirePermit permit)
  else match request.bindingRefusal permit with
    | some reasonCode => (consumeDenied reasonCode, database)
    | none =>
      if database.nonces.any (request.consumesNonce permit now) then
        (⟨true, "RATE_PERMIT_CONSUMED", some (min (now + 50000) permit.expiresAt)⟩,
          database.markConsumed request permit now)
      else (consumeDenied "RATE_CAPABILITY_INVALID_OR_REPLAYED", database)

def Database.permitNamed (database : Database) (request : ConsumeRequest) : Option Permit :=
  database.permits.find? fun permit => request.permitId = some permit.permitId

def Database.consumePermitV2 (database : Database) (request : ConsumeRequest) (now : Time) :
    ConsumeReply × Database :=
  if database.fencing.admits request.fencingEpoch now then
    match database.permitNamed request with
    | none => (consumeDenied "RATE_PERMIT_UNKNOWN", database)
    | some permit => database.consumeFound request permit now
  else (consumeDenied "RATE_FENCING_STALE", database)

end AiQuant.RateControl
