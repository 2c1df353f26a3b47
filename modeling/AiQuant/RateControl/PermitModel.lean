import AiQuant.RateControl.Permits

/-! The permit state machine of `rate_budget/permit.py` and the stored procedure that
persists it.  The Python model compares the permit's own fencing epoch and does not cut
the send deadline at the expiry; `consume_permit_v2` does the opposite of both. -/
namespace AiQuant.RateControl

structure PermitRecord where
  permitId : String
  canonicalRequestHash : String
  parameterHash : String
  wireBytesHash : String
  operationFactsHash : String
  capabilityPayloadHash : String
  gatewayRequestDocumentHash : String
  fencingEpoch : ℤ
  expiresAt : Time
  gatewayConnectionId : Option String := none
  status : PermitState := .reserved

structure PermitConsumeRequest where
  permitId : String
  canonicalRequestHash : String
  parameterHash : String
  wireBytesHash : String
  operationFactsHash : String
  capabilityPayloadHash : String
  gatewayRequestDocumentHash : String
  fencingEpoch : ℤ
  occurredAt : Time

/-- `ConsumeGranted` or `ConsumeDenied`. -/
inductive ConsumeDecision where
  | granted (permitId : String) (gatewayConnectionId : Option String) (fencingEpoch : ℤ)
      (sendDeadline : Time) (canonicalRequestHash parameterHash wireBytesHash operationFactsHash
        capabilityPayloadHash gatewayRequestDocumentHash : String)
  | denied (permitId reasonCode : String)

structure ConsumeResult where
  permit : PermitRecord
  decision : ConsumeDecision

/-- The loop over the comparisons of `consume_permit`, with the reason of the first that
fails. -/
def PermitRecord.mismatch (permit : PermitRecord) (request : PermitConsumeRequest) :
    Option String :=
  if request.permitId ≠ permit.permitId then some "PERMIT_ID_MISMATCH"
  else if request.canonicalRequestHash ≠ permit.canonicalRequestHash then
    some "CANONICAL_HASH_MISMATCH"
  else if request.parameterHash ≠ permit.parameterHash then some "PARAMETER_HASH_MISMATCH"
  else if request.wireBytesHash ≠ permit.wireBytesHash then some "WIRE_HASH_MISMATCH"
  else if request.operationFactsHash ≠ permit.operationFactsHash then
    some "OPERATION_FACTS_HASH_MISMATCH"
  else if request.capabilityPayloadHash ≠ permit.capabilityPayloadHash then
    some "CAPABILITY_HASH_MISMATCH"
  else if request.gatewayRequestDocumentHash ≠ permit.gatewayRequestDocumentHash then
    some "GATEWAY_DOCUMENT_HASH_MISMATCH"
  else if request.fencingEpoch ≠ permit.fencingEpoch then some "FENCING_EPOCH_MISMATCH"
  else none

def consumePermit (permit : PermitRecord) (request : PermitConsumeRequest) (sendWindow : Time) :
    ConsumeResult :=
  if permit.status ≠ .reserved then
    ⟨permit, .denied permit.permitId "PERMIT_NOT_RESERVED"⟩
  else if permit.expiresAt ≤ request.occurredAt then
    ⟨{ permit with status := .expired }, .denied permit.permitId "PERMIT_EXPIRED"⟩
  else match permit.mismatch request with
    | some reason => ⟨permit, .denied permit.permitId reason⟩
    | none =>
      ⟨{ permit with status := .consumed }, .granted permit.permitId permit.gatewayConnectionId
        permit.fencingEpoch (request.occurredAt + sendWindow) permit.canonicalRequestHash
        permit.parameterHash permit.wireBytesHash permit.operationFactsHash
        permit.capabilityPayloadHash permit.gatewayRequestDocumentHash⟩

def ConsumeDecision.sendDeadline? : ConsumeDecision → Option Time
  | .granted _ _ _ sendDeadline _ _ _ _ _ _ => some sendDeadline
  | .denied _ _ => none

def Permit.record (permit : Permit) : PermitRecord where
  permitId := permit.permitId
  canonicalRequestHash := permit.binding.canonicalRequestHash
  parameterHash := permit.binding.parameterHash
  wireBytesHash := permit.binding.wireBytesHash
  operationFactsHash := permit.binding.operationFactsHash
  capabilityPayloadHash := permit.binding.capabilityPayloadHash
  gatewayRequestDocumentHash := permit.binding.gatewayRequestDocumentHash
  fencingEpoch := permit.fencingEpoch
  expiresAt := permit.expiresAt
  gatewayConnectionId := permit.binding.gatewayConnectionId
  status := permit.state

/-- The call of the stored procedure for a request that matches the permit's subject,
environment, endpoint, connection and catalog. -/
def PermitConsumeRequest.call (request : PermitConsumeRequest) (permit : Permit)
    (gatewayInstanceId : Option String) : ConsumeRequest where
  permitId := some request.permitId
  subjectService := some permit.binding.subjectCallerService
  subjectInstance := some permit.binding.subjectCallerInstanceId
  environment := some permit.binding.environment
  endpointAuthority := some permit.binding.endpointAuthority
  endpointId := some permit.binding.endpointId
  gatewayConnectionId := permit.binding.gatewayConnectionId
  catalogHash := some permit.binding.endpointCatalogHash
  canonicalHash := some request.canonicalRequestHash
  parameterHash := some request.parameterHash
  wireHash := some request.wireBytesHash
  operationFactsHash := some request.operationFactsHash
  capabilityHash := some request.capabilityPayloadHash
  documentHash := some request.gatewayRequestDocumentHash
  fencingEpoch := some request.fencingEpoch
  gatewayInstanceId := gatewayInstanceId

/-- The two implementations agree: on the decision, on the state the permit is left in,
and on the deadline of a grant. -/
structure ConsumesAlike (database : Database) (permit : Permit) (request : PermitConsumeRequest)
    (gatewayInstanceId : Option String) : Prop where
  decision : (database.consumePermitV2 (request.call permit gatewayInstanceId)
      request.occurredAt).1.granted =
    (consumePermit permit.record request 50000).decision.sendDeadline?.isSome
  state : ((database.consumePermitV2 (request.call permit gatewayInstanceId)
      request.occurredAt).2.permits.find? (·.permitId = permit.permitId)).map (·.state) =
    some (consumePermit permit.record request 50000).permit.status
  deadline : (consumePermit permit.record request 50000).decision.sendDeadline?.isSome = true →
    (database.consumePermitV2 (request.call permit gatewayInstanceId)
      request.occurredAt).1.sendDeadline =
    (consumePermit permit.record request 50000).decision.sendDeadline?

/-- The request carries the hashes of the permit. -/
structure PermitConsumeRequest.HashesMatch (request : PermitConsumeRequest) (permit : Permit) :
    Prop where
  canonical : request.canonicalRequestHash = permit.binding.canonicalRequestHash
  parameter : request.parameterHash = permit.binding.parameterHash
  wire : request.wireBytesHash = permit.binding.wireBytesHash
  facts : request.operationFactsHash = permit.binding.operationFactsHash
  capability : request.capabilityPayloadHash = permit.binding.capabilityPayloadHash
  document : request.gatewayRequestDocumentHash = permit.binding.gatewayRequestDocumentHash

section Agreement

variable {db : Database} {permit : Permit} {req : PermitConsumeRequest}

theorem bindingRefusal_call_eq_none_iff (gateway : Option String) :
    (req.call permit gateway).bindingRefusal permit = none ↔ req.HashesMatch permit := by
  constructor
  · intro hb
    simp only [ConsumeRequest.bindingRefusal, PermitConsumeRequest.call, sqlNe, Option.any_some,
      ne_eq, not_true_eq_false, decide_false, Bool.false_eq_true, false_or,
      decide_eq_true_eq] at hb
    split at hb
    · cases hb
    rename_i hcanonical
    split at hb
    · cases hb
    rename_i hparameter
    split at hb
    · cases hb
    rename_i hwire
    split at hb
    · cases hb
    rename_i hdocument
    split at hb
    · cases hb
    rename_i hfacts
    split at hb
    · cases hb
    rename_i hcapability
    exact ⟨not_not.mp hcanonical, not_not.mp hparameter, not_not.mp hwire, not_not.mp hfacts,
      not_not.mp hcapability, not_not.mp hdocument⟩
  · intro hm
    simp [ConsumeRequest.bindingRefusal, PermitConsumeRequest.call, sqlNe, hm.canonical,
      hm.parameter, hm.wire, hm.facts, hm.capability, hm.document]

theorem mismatch_record_eq_none_iff (hid : req.permitId = permit.permitId) :
    permit.record.mismatch req = none ↔
      req.HashesMatch permit ∧ req.fencingEpoch = permit.fencingEpoch := by
  constructor
  · intro hn
    unfold PermitRecord.mismatch at hn
    split at hn
    · cases hn
    split at hn
    · cases hn
    rename_i hcanonical
    split at hn
    · cases hn
    rename_i hparameter
    split at hn
    · cases hn
    rename_i hwire
    split at hn
    · cases hn
    rename_i hfacts
    split at hn
    · cases hn
    rename_i hcapability
    split at hn
    · cases hn
    rename_i hdocument
    split at hn
    · cases hn
    rename_i hepoch
    exact ⟨⟨not_not.mp hcanonical, not_not.mp hparameter, not_not.mp hwire, not_not.mp hfacts,
      not_not.mp hcapability, not_not.mp hdocument⟩, not_not.mp hepoch⟩
  · rintro ⟨hm, hepoch⟩
    simp [PermitRecord.mismatch, Permit.record, hid, hm.canonical, hm.parameter,
      hm.wire, hm.facts, hm.capability, hm.document, hepoch]

/-! ### The permit in the tables -/

theorem Lockstep.find_permit (hlockstep : Lockstep db) (hpermit : permit ∈ db.permits) :
    db.permits.find? (·.permitId = permit.permitId) = some permit := by
  cases hf : db.permits.find? (·.permitId = permit.permitId) with
  | none =>
    have hn := List.find?_eq_none.mp hf permit hpermit
    simp at hn
  | some found =>
    have hs : found.permitId = permit.permitId := by simpa using List.find?_some hf
    rw [List.inj_on_of_nodup_map hlockstep.permitIds (List.mem_of_find?_eq_some hf) hpermit hs]

theorem Lockstep.find_updatePermit (hlockstep : Lockstep db) (hpermit : permit ∈ db.permits)
    {upd : Permit → Permit} (hk : ∀ other, (upd other).permitId = other.permitId) :
    (db.updatePermit permit.permitId upd).find? (·.permitId = permit.permitId) =
      some (upd permit) := by
  unfold Database.updatePermit
  rw [List.find?_map]
  have hi : ((fun other : Permit => decide (other.permitId = permit.permitId)) ∘ fun other =>
      if other.permitId = permit.permitId then upd other else other) =
      fun other => decide (other.permitId = permit.permitId) := by
    funext other
    dsimp only [Function.comp]
    split
    · rw [hk other]
    · rfl
  rw [hi, hlockstep.find_permit hpermit, Option.map_some, if_pos rfl]

theorem Lockstep.consumePermitV2_call (hlockstep : Lockstep db) (hpermit : permit ∈ db.permits)
    (hid : req.permitId = permit.permitId) (hepoch : db.fencing.epoch = req.fencingEpoch)
    (hheld : db.fencing.held req.occurredAt = true) (gateway : Option String) :
    db.consumePermitV2 (req.call permit gateway) req.occurredAt =
      db.consumeFound (req.call permit gateway) permit req.occurredAt := by
  have ha : db.fencing.admits (req.call permit gateway).fencingEpoch req.occurredAt = true := by
    simp [FencingState.admits, PermitConsumeRequest.call, sqlNe, hepoch, hheld]
  have hn : db.permitNamed (req.call permit gateway) = some permit := by
    have hi : (fun other : Permit =>
        decide ((req.call permit gateway).permitId = some other.permitId)) =
        fun other => decide (other.permitId = permit.permitId) := by
      funext other
      simp only [PermitConsumeRequest.call, hid, Option.some.injEq, eq_comm]
    unfold Database.permitNamed
    rw [hi]
    exact hlockstep.find_permit hpermit
  unfold Database.consumePermitV2
  rw [if_pos ha, hn]

theorem Lockstep.any_consumesNonce (hlockstep : Lockstep db)
    (hpermit : permit ∈ db.permits) (hr : permit.state = .reserved)
    (hl : req.occurredAt < permit.expiresAt) (hm : req.HashesMatch permit)
    (gateway : Option String) : db.nonces.any ((req.call permit gateway).consumesNonce permit
      req.occurredAt) = true := by
  obtain ⟨nonce, hn, hb⟩ := hlockstep.states permit hpermit
  refine List.any_eq_true.mpr ⟨nonce, hn, ?_⟩
  simp [ConsumeRequest.consumesNonce, PermitConsumeRequest.call, hb.identifier,
    hb.payloadHash, hb.state, hb.expiresAt, hr, hl, hm.capability]

/-! ### Agreement, case by case -/

theorem consumePermit_of_live (hr : permit.state = .reserved)
    (hl : req.occurredAt < permit.expiresAt) : consumePermit permit.record req 50000 =
      match permit.record.mismatch req with
      | some reason => ⟨permit.record, .denied permit.permitId reason⟩
      | none => ⟨{ permit.record with status := .consumed }, .granted permit.permitId
          permit.binding.gatewayConnectionId permit.fencingEpoch (req.occurredAt + 50000)
          permit.binding.canonicalRequestHash permit.binding.parameterHash
          permit.binding.wireBytesHash permit.binding.operationFactsHash
          permit.binding.capabilityPayloadHash permit.binding.gatewayRequestDocumentHash⟩ := by
  have hs : permit.record.status = .reserved := hr
  have hb : req.occurredAt < permit.record.expiresAt := hl
  unfold consumePermit
  rw [if_neg (not_not.mpr hs), if_neg (not_le.mpr hb)]
  rfl

theorem ConsumesAlike.of_denied {gateway : Option String}
    (hlockstep : Lockstep db) (hpermit : permit ∈ db.permits) {reasonCode : String}
    (hc : db.consumePermitV2 (req.call permit gateway) req.occurredAt =
      (consumeDenied reasonCode, db))
    {dec : ConsumeDecision} (hd : dec.sendDeadline? = none)
    (hm : consumePermit permit.record req 50000 = ⟨permit.record, dec⟩) :
    ConsumesAlike db permit req gateway := by
  refine ⟨?_, ?_, ?_⟩
  · rw [hc, hm, hd]
    rfl
  · rw [hc, hm, hlockstep.find_permit hpermit]
    rfl
  · intro hg
    rw [hm, hd] at hg
    cases hg

variable (hlockstep : Lockstep db) (hpermit : permit ∈ db.permits)
  (hid : req.permitId = permit.permitId)
  (hepoch : db.fencing.epoch = req.fencingEpoch)
  (hheld : db.fencing.held req.occurredAt = true)

include hlockstep hpermit hid hepoch hheld

theorem consumesAlike_of_not_reserved (hs : permit.state ≠ .reserved) (gateway : Option String) :
    ConsumesAlike db permit req gateway := by
  have hm : consumePermit permit.record req 50000 =
      ⟨permit.record, .denied permit.permitId "PERMIT_NOT_RESERVED"⟩ := if_pos hs
  have hca := hlockstep.consumePermitV2_call hpermit hid hepoch hheld gateway
  unfold Database.consumeFound at hca
  cases hc : permit.state with
  | reserved => exact absurd hc hs
  | consumed =>
    rw [if_pos hc] at hca
    exact .of_denied hlockstep hpermit hca rfl hm
  | expired =>
    rw [if_neg (by rw [hc]; decide), if_pos (Or.inl hc),
      hlockstep.expirePermit_of_expired hpermit hc] at hca
    exact .of_denied hlockstep hpermit hca rfl hm

section

variable (hr : permit.state = .reserved)
include hr

theorem consumesAlike_of_expired
    (he : permit.expiresAt ≤ req.occurredAt) (gateway : Option String) :
    ConsumesAlike db permit req gateway := by
  have hm : consumePermit permit.record req 50000 =
      ⟨{ permit.record with status := .expired }, .denied permit.permitId "PERMIT_EXPIRED"⟩ := by
    have hs : permit.record.status = .reserved := hr
    have ho : permit.record.expiresAt ≤ req.occurredAt := he
    unfold consumePermit
    rw [if_neg (not_not.mpr hs), if_pos ho]
    rfl
  have hc := hlockstep.consumePermitV2_call hpermit hid hepoch hheld gateway
  unfold Database.consumeFound at hc
  rw [if_neg (by rw [hr]; decide), if_pos (Or.inr he)] at hc
  refine ⟨?_, ?_, ?_⟩
  · rw [hc, hm]
    rfl
  · rw [hc, hm]
    have hk : ∀ other : Permit, (if other.state = .reserved then
        { other with state := .expired } else other).permitId = other.permitId := by
      intro other
      split <;> rfl
    have hf := hlockstep.find_updatePermit hpermit hk
    rw [if_pos hr] at hf
    exact congrArg (Option.map (·.state)) hf
  · intro hg
    rw [hm] at hg
    cases hg

section

variable (hl : req.occurredAt < permit.expiresAt)
include hl

theorem consumesAlike_of_mismatch (hm : ¬ req.HashesMatch permit) (gateway : Option String) :
    ConsumesAlike db permit req gateway := by
  have hc := hlockstep.consumePermitV2_call hpermit hid hepoch hheld gateway
  unfold Database.consumeFound at hc
  rw [if_neg (by rw [hr]; decide), if_neg (by rw [hr, not_or, not_le]; exact ⟨by decide, hl⟩)] at hc
  cases hb : (req.call permit gateway).bindingRefusal permit with
  | none => exact absurd ((bindingRefusal_call_eq_none_iff gateway).mp hb) hm
  | some refused =>
    cases hmo : permit.record.mismatch req with
    | none => exact absurd ((mismatch_record_eq_none_iff hid).mp hmo).1 hm
    | some reason =>
      rw [hb] at hc
      have hd : consumePermit permit.record req 50000 =
          ⟨permit.record, .denied permit.permitId reason⟩ := by
        rw [consumePermit_of_live hr hl, hmo]
      exact .of_denied hlockstep hpermit hc rfl hd

theorem consumePermitV2_call_granted (hm : req.HashesMatch permit) (gateway : Option String) :
    db.consumePermitV2 (req.call permit gateway) req.occurredAt =
      (⟨true, "RATE_PERMIT_CONSUMED", some (min (req.occurredAt + 50000) permit.expiresAt)⟩,
        db.markConsumed (req.call permit gateway) permit req.occurredAt) := by
  rw [hlockstep.consumePermitV2_call hpermit hid hepoch hheld gateway]
  unfold Database.consumeFound
  rw [if_neg (by rw [hr]; decide), if_neg (by rw [hr, not_or, not_le]; exact
    ⟨by decide, hl⟩), (bindingRefusal_call_eq_none_iff gateway).mpr hm]
  exact if_pos (hlockstep.any_consumesNonce hpermit hr hl hm gateway)

theorem consumesAlike_of_match (hma : req.HashesMatch permit) (gateway : Option String) :
    ConsumesAlike db permit req gateway ↔ req.fencingEpoch = permit.fencingEpoch ∧
        req.occurredAt + 50000 ≤ permit.expiresAt := by
  have hca := consumePermitV2_call_granted hlockstep hpermit hid hepoch hheld hr hl hma gateway
  have hm := consumePermit_of_live hr hl
  constructor
  · intro ha
    cases hc : permit.record.mismatch req with
    | some reason =>
      have hde := ha.decision
      rw [hca, hm, hc] at hde
      cases hde
    | none =>
      have hd := ha.deadline (by rw [hm, hc]; rfl)
      rw [hca, hm, hc] at hd
      refine ⟨((mismatch_record_eq_none_iff hid).mp hc).2, ?_⟩
      exact min_eq_left_iff.mp (Option.some.inj hd)
  · rintro ⟨ho, hw⟩
    rw [(mismatch_record_eq_none_iff hid).mpr ⟨hma, ho⟩] at hm
    refine ⟨?_, ?_, ?_⟩
    · rw [hca, hm]
      rfl
    · rw [hca, hm]
      have hk : ∀ other : Permit, Permit.permitId { other with
          state := .consumed
          consumedAt := some req.occurredAt
          gatewayInstanceId := gateway } = other.permitId := fun _ => rfl
      exact congrArg (Option.map (·.state)) (hlockstep.find_updatePermit hpermit hk)
    · intro _
      rw [hca, hm, min_eq_left hw]
      rfl

end

end

end Agreement

/-- The stored procedure and the model agree, under an active lease of the requested
epoch, just if one of their common denials applies, or the requested epoch is the one
the permit was reserved under and the send window ends before the permit does. -/
theorem consumesAlike_iff {allowed : ConsumeRequest → Prop} {grants : List ConsumeGrant}
    {db : Database} (hrun : PermitRun allowed grants db) {permit : Permit}
    (hpermit : permit ∈ db.permits) {req : PermitConsumeRequest}
    (hid : req.permitId = permit.permitId) (hepoch : db.fencing.epoch = req.fencingEpoch)
    (hheld : db.fencing.held req.occurredAt = true) (gateway : Option String) :
    ConsumesAlike db permit req gateway ↔
      permit.state ≠ .reserved ∨ permit.expiresAt ≤ req.occurredAt ∨
        ¬ req.HashesMatch permit ∨
        (req.fencingEpoch = permit.fencingEpoch ∧
          req.occurredAt + 50000 ≤ permit.expiresAt) := by
  have hlockstep := hrun.lockstep
  by_cases hr : permit.state = .reserved
  swap
  · exact iff_of_true (consumesAlike_of_not_reserved hlockstep hpermit hid hepoch hheld hr
      gateway) (Or.inl hr)
  by_cases hl : req.occurredAt < permit.expiresAt
  swap
  · exact iff_of_true (consumesAlike_of_expired hlockstep hpermit hid hepoch hheld hr
      (not_lt.mp hl) gateway) (Or.inr (Or.inl (not_lt.mp hl)))
  by_cases hm : req.HashesMatch permit
  swap
  · exact iff_of_true (consumesAlike_of_mismatch hlockstep hpermit hid hepoch hheld hr hl
      hm gateway) (Or.inr (Or.inr (Or.inl hm)))
  rw [consumesAlike_of_match hlockstep hpermit hid hepoch hheld hr hl hm gateway]
  constructor
  · intro hb
    exact Or.inr (Or.inr (Or.inr hb))
  · rintro (ho | hov | hd | hb)
    · exact absurd hr ho
    · exact absurd hl (not_lt.mpr hov)
    · exact absurd hm hd
    · exact hb

section Takeover

def modelConsume (epoch : ℤ) (occurredAt : Time) : PermitConsumeRequest where
  permitId := "permit-1"
  canonicalRequestHash := "canonical"
  parameterHash := "parameter"
  wireBytesHash := "wire"
  operationFactsHash := "facts"
  capabilityPayloadHash := "capability"
  gatewayRequestDocumentHash := "document"
  fencingEpoch := epoch
  occurredAt := occurredAt

theorem own_epoch_consumes_alike : ownConsume.1.sendDeadline = some 650000 ∧
      ConsumesAlike reservedPermit.2 (takeoverReserve.permit 500000) (modelConsume 2 600000)
        (some "gateway-1") := by
  refine ⟨by decide, ?_⟩
  have hrun : PermitRun (fun _ => True) [] reservedPermit.2 := permitRun_reservedPermit
  have hpermit : takeoverReserve.permit 500000 ∈ reservedPermit.2.permits := by decide
  have hepoch : reservedPermit.2.fencing.epoch = (modelConsume 2 600000).fencingEpoch := by
    decide
  have hheld : reservedPermit.2.fencing.held (modelConsume 2 600000).occurredAt = true := by
    decide
  exact (consumesAlike_iff hrun hpermit rfl hepoch hheld _).mpr
    (Or.inr (Or.inr (Or.inr ⟨rfl, by decide⟩)))

/-- After the takeover, the procedure grants the permit of epoch 2 to a request for
epoch 3, and the model denies it. -/
theorem taken_over_permit_consumed_by_procedure_only :
    ¬ ∀ (grants : List ConsumeGrant) (db : Database) (permit : Permit)
        (req : PermitConsumeRequest) (gatewayInstanceId : Option String),
        PermitRun (fun _ => True) grants db → permit ∈ db.permits →
        req.permitId = permit.permitId → db.fencing.epoch = req.fencingEpoch →
        db.fencing.held req.occurredAt = true → ConsumesAlike db permit req gatewayInstanceId := by
  intro hc
  have hrun : PermitRun (fun _ => True) [] secondLease.2 :=
    permitRun_reservedPermit.elsewhere rfl rfl
  have ha := hc [] secondLease.2 (takeoverReserve.permit 500000) (modelConsume 3 3000000)
    (some "gateway-1") hrun (by decide) rfl (by decide) (by decide)
  exact absurd ha.decision (by decide)

end Takeover

end AiQuant.RateControl
