import AiQuant.RateControl.Fencing

/-! Permits are one-shot: a permit and its capability nonce move together, once, from
`RESERVED` to `CONSUMED` or `EXPIRED`.  The comparisons of `consume_permit_v2` are never
true for a null argument, so a request that leaves an argument out is not compared. -/
namespace AiQuant.RateControl
open AiQuant.Lib

def PermitState.Moves (before after : PermitState) : Prop :=
  after = before ∨ before = .reserved

/-- The request names every field that the permit was reserved for. -/
structure ConsumeRequest.Carries (request : ConsumeRequest) (binding : PermitBinding) : Prop where
  subjectService : request.subjectService = some binding.subjectCallerService
  subjectInstance : request.subjectInstance = some binding.subjectCallerInstanceId
  environment : request.environment = some binding.environment
  endpointAuthority : request.endpointAuthority = some binding.endpointAuthority
  endpointId : request.endpointId = some binding.endpointId
  gatewayConnectionId : request.gatewayConnectionId = binding.gatewayConnectionId
  catalogHash : request.catalogHash = some binding.endpointCatalogHash
  canonicalHash : request.canonicalHash = some binding.canonicalRequestHash
  parameterHash : request.parameterHash = some binding.parameterHash
  wireHash : request.wireHash = some binding.wireBytesHash
  operationFactsHash : request.operationFactsHash = some binding.operationFactsHash
  capabilityHash : request.capabilityHash = some binding.capabilityPayloadHash
  documentHash : request.documentHash = some binding.gatewayRequestDocumentHash

/-- No argument that is compared with a stored field is null; the connection may be. -/
structure ConsumeRequest.Complete (request : ConsumeRequest) : Prop where
  subjectService : request.subjectService.isSome = true
  subjectInstance : request.subjectInstance.isSome = true
  environment : request.environment.isSome = true
  endpointAuthority : request.endpointAuthority.isSome = true
  endpointId : request.endpointId.isSome = true
  catalogHash : request.catalogHash.isSome = true
  canonicalHash : request.canonicalHash.isSome = true
  parameterHash : request.parameterHash.isSome = true
  wireHash : request.wireHash.isSome = true
  operationFactsHash : request.operationFactsHash.isSome = true
  documentHash : request.documentHash.isSome = true

section Reservation

variable {db post : Database} {now : Time}

def ReserveRequest.nonceRow (request : ReserveRequest) : CapabilityNonce :=
  ⟨request.capabilityNonce, request.binding.capabilityPayloadHash, .reserved, request.expiresAt,
    none⟩

/-- A reservation that is granted anew. -/
structure Reserves (database : Database) (request : ReserveRequest) (now : Time)
    (costs : List CostItem) (after : Database) : Prop where
  expires : now < request.expiresAt
  newKey : database.permits.find? (·.requestKey = request.requestKey) = none
  selected : database.selectedCosts request now = .ok costs
  accepted : ∀ item ∈ costs,
    database.costRefusal request.binding.endpointAuthority item now = none
  newNonce : ∀ nonce ∈ database.nonces, nonce.nonce ≠ request.capabilityNonce
  newPermit : ∀ permit ∈ database.permits, permit.permitId ≠ request.permitId
  charged : costs.foldlM (Database.charge request.binding.endpointAuthority request.permitId now)
    { database with
      nonces := database.nonces ++ [request.nonceRow]
      permits := database.permits ++ [request.permit now] } = .ok after

/-- What makes a request key's permit the answer to a request again. -/
structure ReserveRequest.Replays (request : ReserveRequest) (existing : Permit) (now : Time) :
    Prop where
  key : existing.requestKey = request.requestKey
  state : existing.state = .reserved
  expires : now < existing.expiresAt
  binding : existing.binding = request.binding
  operationClass : existing.derivedOperationClass = request.derivedOperationClass
  nonce : existing.capabilityNonce = request.capabilityNonce
  epoch : existing.fencingEpoch = request.fencingEpoch

theorem reservePermitV2_cases {req : ReserveRequest} {leaseCheckedAt : Time}
    {reply : ReserveReply} (hca : db.reservePermitV2 req leaseCheckedAt now = .ok (reply, post)) :
    (reply.granted = false ∧ post = db) ∨
    (∃ existing ∈ db.permits, req.Replays existing now ∧ post = db ∧
      reply = ⟨true, "RATE_GRANTED", some existing.permitId,
        some existing.derivedOperationClass, existing.fencingEpoch, some existing.expiresAt⟩) ∨
    ∃ costs, Reserves db req now costs post ∧
      reply = ⟨true, "RATE_GRANTED", some req.permitId, some req.derivedOperationClass,
        db.fencing.epoch, some req.expiresAt⟩ := by
  unfold Database.reservePermitV2 at hca
  split at hca
  swap
  · cases hca
    exact Or.inl ⟨rfl, rfl⟩
  unfold Database.reserveUnderActiveLease at hca
  dsimp only at hca
  split at hca
  · cases hca
    exact Or.inl ⟨rfl, rfl⟩
  split at hca
  · cases hca
    exact Or.inl ⟨rfl, rfl⟩
  rename_i hexpires
  split at hca
  · cases hca
    exact Or.inl ⟨rfl, rfl⟩
  split at hca
  · rename_i existing hexisting
    cases hca
    unfold ReserveRequest.replay
    split
    · rename_i hsa
      obtain ⟨hst, hl, hb, hc, hno, he⟩ := hsa
      have hk : existing.requestKey = req.requestKey := by
        simpa using List.find?_some hexisting
      exact Or.inr (Or.inl ⟨existing, List.mem_of_find?_eq_some hexisting,
        ⟨hk, hst, hl, hb, hc, hno, he⟩, rfl, rfl⟩)
    · exact Or.inl ⟨rfl, rfl⟩
  rename_i hn
  split at hca
  · cases hca
    exact Or.inl ⟨rfl, rfl⟩
  rename_i costs hs
  split at hca
  · cases hca
    exact Or.inl ⟨rfl, rfl⟩
  rename_i haccepted
  split at hca
  · cases hca
    exact Or.inl ⟨rfl, rfl⟩
  rename_i hnewNonce
  rw [bind_eq_ok_iff] at hca
  obtain ⟨inserted, hi, hca⟩ := hca
  cases hca
  unfold Database.insertPermit at hi
  split at hi
  · cases hi
  rename_i hnewPermit
  refine Or.inr (Or.inr ⟨costs, ⟨?_, hn, hs, ?_, ?_, ?_, hi⟩, rfl⟩)
  · exact not_le.mp (not_or.mp hexpires).1
  · exact List.findSome?_eq_none_iff.mp haccepted
  · intro nonce hm hsa
    exact hnewNonce (List.any_eq_true.mpr ⟨nonce, hm, decide_eq_true hsa⟩)
  · intro permit hm hsa
    exact hnewPermit (List.any_eq_true.mpr ⟨permit, hm, decide_eq_true hsa⟩)

theorem Reserves.tables {req : ReserveRequest} {costs : List CostItem}
    (hr : Reserves db req now costs post) : post.nonces = db.nonces ++ [req.nonceRow] ∧
      post.permits = db.permits ++ [req.permit now] :=
  have hs := charges_sameBesides hr.charged
  ⟨hs.nonces, hs.permits⟩

end Reservation

section Consumption

variable {db post : Database} {req : ConsumeRequest} {permit : Permit} {now : Time}

theorem permitNamed_mem (hn : db.permitNamed req = some permit) : permit ∈ db.permits :=
  List.mem_of_find?_eq_some hn

structure Consumes (database : Database) (request : ConsumeRequest) (permit : Permit)
    (now : Time) : Prop where
  named : database.permitNamed request = some permit
  state : permit.state = .reserved
  expires : now < permit.expiresAt
  bound : request.bindingRefusal permit = none
  nonce : ∃ nonce ∈ database.nonces, request.consumesNonce permit now nonce = true

theorem consumePermitV2_cases {reply : ConsumeReply}
    (hc : db.consumePermitV2 req now = (reply, post)) : (reply.granted = false ∧ post = db) ∨
    (∃ permit, db.permitNamed req = some permit ∧ reply.granted = false ∧
      (permit.state = .expired ∨ permit.state = .reserved ∧ permit.expiresAt ≤ now) ∧
      post = db.expirePermit permit) ∨
    ∃ permit, Consumes db req permit now ∧
      reply = ⟨true, "RATE_PERMIT_CONSUMED", some (min (now + 50000) permit.expiresAt)⟩ ∧
      post = db.markConsumed req permit now := by
  unfold Database.consumePermitV2 at hc
  split at hc
  swap
  · cases hc
    exact Or.inl ⟨rfl, rfl⟩
  split at hc
  · cases hc
    exact Or.inl ⟨rfl, rfl⟩
  rename_i permit hn
  unfold Database.consumeFound at hc
  split at hc
  · cases hc
    exact Or.inl ⟨rfl, rfl⟩
  rename_i hconsumed
  split at hc
  · rename_i he
    cases hc
    refine Or.inr (Or.inl ⟨permit, hn, rfl, ?_, rfl⟩)
    cases hs : permit.state with
    | reserved =>
      rw [hs] at he
      exact Or.inr ⟨rfl, he.resolve_left (by decide)⟩
    | consumed => exact absurd hs hconsumed
    | expired => exact Or.inl rfl
  rename_i hl
  rw [not_or, not_le] at hl
  have hr : permit.state = .reserved := by
    cases hs : permit.state with
    | reserved => rfl
    | consumed => exact absurd hs hconsumed
    | expired => exact absurd hs hl.1
  split at hc
  · cases hc
    exact Or.inl ⟨rfl, rfl⟩
  rename_i hb
  split at hc
  · rename_i hno
    cases hc
    rw [List.any_eq_true] at hno
    exact Or.inr (Or.inr ⟨permit, ⟨hn, hr, hl.2, hb, hno⟩, rfl, rfl⟩)
  · cases hc
    exact Or.inl ⟨rfl, rfl⟩

theorem eq_some_of_not_sqlNe {α : Type} [DecidableEq α] {stored : α} {requested : Option α}
    (hg : requested.isSome = true) (he : ¬ sqlNe stored requested = true) :
    requested = some stored := by
  cases requested with
  | none => cases hg
  | some value => simpa [sqlNe] using he

theorem ConsumeRequest.Complete.carries (hc : req.Complete)
    (hco : Consumes db req permit now) : req.Carries permit.binding := by
  have hb := hco.bound
  unfold ConsumeRequest.bindingRefusal at hb
  dsimp only at hb
  split at hb
  · cases hb
  rename_i henvelope
  split at hb
  · cases hb
  rename_i hparameter
  split at hb
  · cases hb
  rename_i hwire
  split at hb
  · cases hb
  rename_i hdocument
  split at hb
  · cases hb
  rename_i hfacts
  split at hb
  · cases hb
  rename_i hcapability
  simp only [not_or] at henvelope
  obtain ⟨hs, hi, he, ha, hen, hcon, hcat, hca⟩ := henvelope
  obtain ⟨nonce, -, hn⟩ := hco.nonce
  have hg : req.capabilityHash.isSome = true := by
    simp only [ConsumeRequest.consumesNonce, Bool.and_eq_true, decide_eq_true_eq] at hn
    rw [hn.1.1.2]
    rfl
  exact {
    subjectService := eq_some_of_not_sqlNe hc.subjectService hs
    subjectInstance := eq_some_of_not_sqlNe hc.subjectInstance hi
    environment := eq_some_of_not_sqlNe hc.environment he
    endpointAuthority := eq_some_of_not_sqlNe hc.endpointAuthority ha
    endpointId := eq_some_of_not_sqlNe hc.endpointId hen
    gatewayConnectionId := (not_not.mp hcon).symm
    catalogHash := eq_some_of_not_sqlNe hc.catalogHash hcat
    canonicalHash := eq_some_of_not_sqlNe hc.canonicalHash hca
    parameterHash := eq_some_of_not_sqlNe hc.parameterHash hparameter
    wireHash := eq_some_of_not_sqlNe hc.wireHash hwire
    operationFactsHash := eq_some_of_not_sqlNe hc.operationFactsHash hfacts
    capabilityHash := eq_some_of_not_sqlNe hg hcapability
    documentHash := eq_some_of_not_sqlNe hc.documentHash hdocument }

structure Permit.MovesTo (permit moved : Permit) : Prop where
  permitId : moved.permitId = permit.permitId
  binding : moved.binding = permit.binding
  capabilityNonce : moved.capabilityNonce = permit.capabilityNonce
  expiresAt : moved.expiresAt = permit.expiresAt
  state : permit.state.Moves moved.state

structure CapabilityNonce.MovesTo (nonce moved : CapabilityNonce) : Prop where
  identifier : moved.nonce = nonce.nonce
  payloadHash : moved.payloadHash = nonce.payloadHash
  expiresAt : moved.expiresAt = nonce.expiresAt
  state : nonce.state.Moves moved.state

theorem Permit.MovesTo.refl (permit : Permit) : permit.MovesTo permit :=
  ⟨rfl, rfl, rfl, rfl, Or.inl rfl⟩

theorem CapabilityNonce.MovesTo.refl (nonce : CapabilityNonce) : nonce.MovesTo nonce :=
  ⟨rfl, rfl, rfl, Or.inl rfl⟩

structure Database.MovesTo (before after : Database) : Prop where
  permits : ∀ permit ∈ before.permits, ∃ moved ∈ after.permits, permit.MovesTo moved
  nonces : ∀ nonce ∈ before.nonces, ∃ moved ∈ after.nonces, nonce.MovesTo moved

theorem Database.MovesTo.refl (db : Database) : db.MovesTo db :=
  ⟨fun permit hm => ⟨permit, hm, .refl permit⟩, fun nonce hm => ⟨nonce, hm, .refl nonce⟩⟩

structure CapabilityNonce.Belongs (nonce : CapabilityNonce) (permit : Permit) : Prop where
  identifier : nonce.nonce = permit.capabilityNonce
  payloadHash : nonce.payloadHash = permit.binding.capabilityPayloadHash
  expiresAt : nonce.expiresAt = permit.expiresAt
  state : nonce.state = permit.state

structure Lockstep (database : Database) : Prop where
  permitIds : (database.permits.map (·.permitId)).Nodup
  nonces : (database.nonces.map (·.nonce)).Nodup
  capabilities : (database.permits.map (·.capabilityNonce)).Nodup
  states : ∀ permit ∈ database.permits, ∃ nonce ∈ database.nonces, nonce.Belongs permit

theorem Lockstep.of_tables {db other : Database} (hl : Lockstep db)
    (hp : other.permits = db.permits) (hn : other.nonces = db.nonces) : Lockstep other := by
  refine ⟨?_, ?_, ?_, ?_⟩
  · rw [hp]
    exact hl.permitIds
  · rw [hn]
    exact hl.nonces
  · rw [hp]
    exact hl.capabilities
  · rw [hp, hn]
    exact hl.states

theorem Lockstep.mark (hl : Lockstep db) {permits : List Permit}
    {nonces : List CapabilityNonce} {permitUpdate : Permit → Permit}
    {nonceUpdate : CapabilityNonce → CapabilityNonce} (hpe : permit ∈ db.permits)
    (hper : permits = db.permits.map permitUpdate) (hnonc : nonces = db.nonces.map nonceUpdate)
    (hp : ∀ other, (permitUpdate other).permitId = other.permitId ∧
      (permitUpdate other).capabilityNonce = other.capabilityNonce ∧
      (permitUpdate other).binding = other.binding ∧
      (permitUpdate other).expiresAt = other.expiresAt)
    (hn : ∀ nonce, (nonceUpdate nonce).nonce = nonce.nonce ∧
      (nonceUpdate nonce).payloadHash = nonce.payloadHash ∧
      (nonceUpdate nonce).expiresAt = nonce.expiresAt)
    (hot : ∀ other ∈ db.permits, other.permitId ≠ permit.permitId →
      (permitUpdate other).state = other.state)
    (ho : ∀ nonce ∈ db.nonces, nonce.nonce ≠ permit.capabilityNonce →
      (nonceUpdate nonce).state = nonce.state)
    (hown : ∀ nonce ∈ db.nonces, nonce.nonce = permit.capabilityNonce →
      nonce.state = permit.state → (nonceUpdate nonce).state = (permitUpdate permit).state) :
    Lockstep { db with permits := permits, nonces := nonces } := by
  subst hper hnonc
  refine ⟨?_, ?_, ?_, ?_⟩
  · simpa [List.map_map, Function.comp_def, (hp _).1] using hl.permitIds
  · simpa [List.map_map, Function.comp_def, (hn _).1] using hl.nonces
  · simpa [List.map_map, Function.comp_def, (hp _).2.1] using hl.capabilities
  · intro moved hm
    obtain ⟨other, hmem, rfl⟩ := List.mem_map.mp hm
    obtain ⟨nonce, hnon, hb⟩ := hl.states other hmem
    obtain ⟨-, hc, hbi, he⟩ := hp other
    obtain ⟨hid, hpa, hno⟩ := hn nonce
    refine ⟨nonceUpdate nonce, List.mem_map_of_mem hnon, ?_, ?_, ?_, ?_⟩
    · rw [hid, hb.identifier, hc]
    · rw [hpa, hb.payloadHash, hbi]
    · rw [hno, hb.expiresAt, he]
    by_cases hs : other.permitId = permit.permitId
    · obtain rfl := List.inj_on_of_nodup_map hl.permitIds hmem hpe hs
      exact hown nonce hnon hb.identifier hb.state
    · have hd : nonce.nonce ≠ permit.capabilityNonce := by
        rw [hb.identifier]
        intro heq
        exact hs (congrArg Permit.permitId (List.inj_on_of_nodup_map hl.capabilities hmem hpe heq))
      rw [ho nonce hnon hd, hot other hmem hs, hb.state]

theorem Lockstep.expire (hl : Lockstep db) (hp : permit ∈ db.permits) :
    Lockstep (db.expirePermit permit) := by
  refine hl.mark hp rfl rfl ?_ ?_ ?_ ?_ ?_
  · intro other
    dsimp only
    split
    · split <;> exact ⟨rfl, rfl, rfl, rfl⟩
    · exact ⟨rfl, rfl, rfl, rfl⟩
  · intro nonce
    split <;> exact ⟨rfl, rfl, rfl⟩
  · intro other _ ho
    rw [if_neg ho]
  · intro nonce _ ho
    rw [if_neg (fun hsa => ho hsa.1)]
  · intro nonce _ hid hs
    rw [if_pos rfl]
    dsimp only
    by_cases hr : permit.state = .reserved
    · rw [if_pos hr, if_pos ⟨hid, hs.trans hr⟩]
    · rw [if_neg hr, if_neg fun hsa => hr (hs.symm.trans hsa.2), hs]

theorem Lockstep.consume (hl : Lockstep db) (hc : Consumes db req permit now) :
    Lockstep (db.markConsumed req permit now) := by
  refine hl.mark (permitNamed_mem hc.named) rfl rfl ?_ ?_ ?_ ?_ ?_
  · intro other
    split <;> exact ⟨rfl, rfl, rfl, rfl⟩
  · intro nonce
    split <;> exact ⟨rfl, rfl, rfl⟩
  · intro other _ ho
    rw [if_neg ho]
  · intro nonce _ ho
    have hk : req.consumesNonce permit now nonce = false := by
      simp [ConsumeRequest.consumesNonce, ho]
    rw [hk]
    rfl
  · intro nonce hn hid _
    -- the nonce that the update finds is the permit's only one
    obtain ⟨found, hfo, hm⟩ := hc.nonce
    have hf : found.nonce = permit.capabilityNonce := by
      simp only [ConsumeRequest.consumesNonce, Bool.and_eq_true, decide_eq_true_eq] at hm
      exact hm.1.1.1
    obtain rfl := List.inj_on_of_nodup_map hl.nonces hn hfo (hid.trans hf.symm)
    rw [if_pos rfl, if_pos hm]

theorem Database.movesTo_expirePermit (db : Database) (permit : Permit) :
    db.MovesTo (db.expirePermit permit) := by
  refine ⟨?_, ?_⟩
  · intro other hm
    refine ⟨_, List.mem_map_of_mem hm, ?_⟩
    dsimp only
    split
    · split
      · rename_i hreserved
        exact ⟨rfl, rfl, rfl, rfl, Or.inr hreserved⟩
      · exact .refl other
    · exact .refl other
  · intro nonce hm
    refine ⟨_, List.mem_map_of_mem hm, ?_⟩
    split
    · rename_i hreserved
      exact ⟨rfl, rfl, rfl, Or.inr hreserved.2⟩
    · exact .refl nonce

theorem Lockstep.movesTo_markConsumed (hl : Lockstep db) (hc : Consumes db req permit now) :
    db.MovesTo (db.markConsumed req permit now) := by
  refine ⟨?_, ?_⟩
  · intro other hm
    refine ⟨_, List.mem_map_of_mem hm, ?_⟩
    split
    · rename_i hsame
      obtain rfl := List.inj_on_of_nodup_map hl.permitIds hm (permitNamed_mem hc.named) hsame
      exact ⟨rfl, rfl, rfl, rfl, Or.inr hc.state⟩
    · exact .refl other
  · intro nonce hm
    refine ⟨_, List.mem_map_of_mem hm, ?_⟩
    split
    · rename_i hmarked
      simp only [ConsumeRequest.consumesNonce, Bool.and_eq_true, decide_eq_true_eq] at hmarked
      exact ⟨rfl, rfl, rfl, Or.inr hmarked.1.2⟩
    · exact .refl nonce

theorem Lockstep.reserve {post : Database} {req : ReserveRequest} {costs : List CostItem}
    (hl : Lockstep db) (hre : Reserves db req now costs post) : Lockstep post := by
  obtain ⟨hnon, hp⟩ := hre.tables
  have hn : ∀ permit ∈ db.permits, permit.capabilityNonce ≠ req.capabilityNonce := by
    intro permit hm hs
    obtain ⟨nonce, hno, hb⟩ := hl.states permit hm
    exact hre.newNonce nonce hno (hb.identifier.trans hs)
  refine ⟨?_, ?_, ?_, ?_⟩
  · rw [hp, List.map_append, List.nodup_append]
    refine ⟨hl.permitIds, by simp, ?_⟩
    rintro left hle right hr rfl
    obtain ⟨permit, hm, rfl⟩ := List.mem_map.mp hle
    rw [List.map_singleton, List.mem_singleton] at hr
    exact hre.newPermit permit hm hr
  · rw [hnon, List.map_append, List.nodup_append]
    refine ⟨hl.nonces, by simp, ?_⟩
    rintro left hle right hr rfl
    obtain ⟨nonce, hm, rfl⟩ := List.mem_map.mp hle
    rw [List.map_singleton, List.mem_singleton] at hr
    exact hre.newNonce nonce hm hr
  · rw [hp, List.map_append, List.nodup_append]
    refine ⟨hl.capabilities, by simp, ?_⟩
    rintro left hle right hr rfl
    obtain ⟨permit, hm, rfl⟩ := List.mem_map.mp hle
    rw [List.map_singleton, List.mem_singleton] at hr
    exact hn permit hm hr
  · rw [hp, hnon]
    intro permit hm
    rcases List.mem_append.mp hm with ho | hnew
    · obtain ⟨nonce, hno, hv⟩ := hl.states permit ho
      exact ⟨nonce, List.mem_append_left _ hno, hv⟩
    · rw [List.mem_singleton.mp hnew]
      exact ⟨req.nonceRow, by simp, rfl, rfl, rfl, rfl⟩

theorem Reserves.movesTo {post : Database} {req : ReserveRequest} {costs : List CostItem}
    (hr : Reserves db req now costs post) : db.MovesTo post := by
  obtain ⟨hn, hp⟩ := hr.tables
  refine ⟨?_, ?_⟩
  · intro permit hm
    rw [hp]
    exact ⟨permit, List.mem_append_left _ hm, .refl permit⟩
  · intro nonce hm
    rw [hn]
    exact ⟨nonce, List.mem_append_left _ hm, .refl nonce⟩

theorem Lockstep.expirePermit_of_expired (hl : Lockstep db)
    (hp : permit ∈ db.permits) (he : permit.state = .expired) : db.expirePermit permit = db := by
  have hpe : db.permits.map (fun other =>
      if other.permitId = permit.permitId then
        if other.state = .reserved then { other with state := .expired } else other
      else other) = db.permits := by
    refine (List.map_congr_left ?_).trans (List.map_id _)
    intro other hmem
    split
    · rename_i hsame
      obtain rfl := List.inj_on_of_nodup_map hl.permitIds hmem hp hsame
      rw [if_neg (by rw [he]; decide)]
      rfl
    · rfl
  have hn : db.nonces.map (fun nonce =>
      if nonce.nonce = permit.capabilityNonce ∧ nonce.state = .reserved then
        { nonce with state := .expired } else nonce) = db.nonces := by
    refine (List.map_congr_left ?_).trans (List.map_id _)
    intro nonce hmem
    obtain ⟨own, ho, hb⟩ := hl.states permit hp
    split
    · rename_i hm
      obtain rfl := List.inj_on_of_nodup_map hl.nonces hmem ho (hm.1.trans hb.identifier.symm)
      rw [hb.state, he] at hm
      cases hm.2
    · rfl
  unfold Database.expirePermit Database.updatePermit
  rw [hpe, hn]

end Consumption

/-- A granted consumption, with the permit as it was stored. -/
structure ConsumeGrant where
  permit : Permit
  request : ConsumeRequest
  grantedAt : Time
  sendDeadline : Option Time
deriving DecidableEq

def ConsumeReply.grants (reply : ConsumeReply) (database : Database) (request : ConsumeRequest)
    (now : Time) : List ConsumeGrant :=
  if reply.granted then
    (database.permitNamed request).toList.map (⟨·, request, now, reply.sendDeadline⟩) else []

/-- Any interleaving of reservations and consumptions, at any instants; the other
procedures touch neither permits nor nonces. -/
inductive PermitRun (allowed : ConsumeRequest → Prop) : List ConsumeGrant → Database → Prop
  | start {database : Database} (hpermits : database.permits = [])
      (hnonces : database.nonces = []) : PermitRun allowed [] database
  | reserve {grants : List ConsumeGrant} {database after : Database} {request : ReserveRequest}
      {reply : ReserveReply} {leaseCheckedAt now : Time} (hrun : PermitRun allowed grants database)
      (hcall : database.reservePermitV2 request leaseCheckedAt now = .ok (reply, after)) :
      PermitRun allowed grants after
  | consume {grants : List ConsumeGrant} {database after : Database} {request : ConsumeRequest}
      {reply : ConsumeReply} {now : Time} (hrun : PermitRun allowed grants database)
      (hallowed : allowed request)
      (hcall : database.consumePermitV2 request now = (reply, after)) :
      PermitRun allowed (grants ++ reply.grants database request now) after
  | elsewhere {grants : List ConsumeGrant} {database after : Database}
      (hrun : PermitRun allowed grants database) (hpermits : after.permits = database.permits)
      (hnonces : after.nonces = database.nonces) : PermitRun allowed grants after

/-- The promises of a grant: the permit's own request, before its expiry, to be sent
before it. -/
structure ConsumeGrant.Sound (grant : ConsumeGrant) : Prop where
  carries : grant.request.Carries grant.permit.binding
  live : grant.grantedAt < grant.permit.expiresAt
  deadline : ∃ deadline, grant.sendDeadline = some deadline ∧ deadline ≤ grant.permit.expiresAt

structure ExpiresOne (database : Database) (now : Time) (after : Database) : Prop where
  expired : ∃ permit ∈ database.permits, permit.state = .reserved ∧ permit.expiresAt ≤ now ∧
    after = { database with
      permits := database.permits.map fun other =>
        if other.permitId = permit.permitId then { other with state := .expired } else other
      nonces := database.nonces.map fun nonce =>
        if nonce.nonce = permit.capabilityNonce then { nonce with state := .expired }
        else nonce }

/-- Permits are one-shot. -/
structure OneShot (grants : List ConsumeGrant) (database : Database) : Prop where
  lockstep : Lockstep database
  permits_once : (grants.map (·.permit.permitId)).Nodup
  nonces_once : (grants.map (·.permit.capabilityNonce)).Nodup
  sound : ∀ grant ∈ grants, grant.Sound
  reserve_moves : ∀ request leaseCheckedAt now reply after,
    database.reservePermitV2 request leaseCheckedAt now = .ok (reply, after) →
      database.MovesTo after
  consume_moves : ∀ request now reply after,
    database.consumePermitV2 request now = (reply, after) → database.MovesTo after
  denied : ∀ request now reply after, database.consumePermitV2 request now = (reply, after) →
    reply.granted = false → after = database ∨ ExpiresOne database now after

section Run

variable {grants : List ConsumeGrant} {db post : Database} {now : Time}

theorem Lockstep.expiresOne (hl : Lockstep db) {permit : Permit}
    (hp : permit ∈ db.permits) (hr : permit.state = .reserved)
    (he : permit.expiresAt ≤ now) : ExpiresOne db now (db.expirePermit permit) := by
  refine ⟨permit, hp, hr, he, ?_⟩
  have hpe : db.updatePermit permit.permitId (fun other =>
      if other.state = .reserved then { other with state := .expired } else other) =
      db.permits.map fun other =>
        if other.permitId = permit.permitId then { other with state := .expired } else other := by
    apply List.map_congr_left
    intro other hm
    by_cases hs : other.permitId = permit.permitId
    · obtain rfl := List.inj_on_of_nodup_map hl.permitIds hm hp hs
      rw [if_pos rfl, if_pos rfl]
      exact if_pos hr
    · rw [if_neg hs, if_neg hs]
  have hn : db.nonces.map (fun nonce =>
      if nonce.nonce = permit.capabilityNonce ∧ nonce.state = .reserved then
        { nonce with state := .expired } else nonce) =
      db.nonces.map fun nonce =>
        if nonce.nonce = permit.capabilityNonce then { nonce with state := .expired }
        else nonce := by
    apply List.map_congr_left
    intro nonce hm
    by_cases hs : nonce.nonce = permit.capabilityNonce
    · obtain ⟨own, ho, hb⟩ := hl.states permit hp
      obtain rfl := List.inj_on_of_nodup_map hl.nonces hm ho (hs.trans hb.identifier.symm)
      rw [if_pos ⟨hs, hb.state.trans hr⟩, if_pos hs]
    · rw [if_neg fun hbo => hs hbo.1, if_neg hs]
  unfold Database.expirePermit
  rw [hpe, hn]

structure PermitInvariant (grants : List ConsumeGrant) (database : Database) : Prop where
  lockstep : Lockstep database
  permits_once : (grants.map (·.permit.permitId)).Nodup
  nonces_once : (grants.map (·.permit.capabilityNonce)).Nodup
  consumed : ∀ grant ∈ grants, ∃ permit ∈ database.permits,
    permit.permitId = grant.permit.permitId ∧
      permit.capabilityNonce = grant.permit.capabilityNonce ∧ permit.state = .consumed
  sound : ∀ grant ∈ grants, grant.Sound

theorem PermitInvariant.of_movesTo (hi : PermitInvariant grants db)
    (hl : Lockstep post) (hm : db.MovesTo post) : PermitInvariant grants post := by
  refine ⟨hl, hi.permits_once, hi.nonces_once, ?_, hi.sound⟩
  intro grant hg
  obtain ⟨permit, hmem, hid, hn, hs⟩ := hi.consumed grant hg
  obtain ⟨moved, hmo, hto⟩ := hm.permits permit hmem
  refine ⟨moved, hmo, hto.permitId.trans hid, hto.capabilityNonce.trans hn, ?_⟩
  rcases hto.state with hsa | hr
  · exact hsa.trans hs
  · rw [hs] at hr
    cases hr

theorem PermitInvariant.grant (hi : PermitInvariant grants db)
    {req : ConsumeRequest} {permit : Permit} {grant : ConsumeGrant}
    (hc : Consumes db req permit now) (hp : grant.permit = permit) (hso : grant.Sound) :
    PermitInvariant (grants ++ [grant]) (db.markConsumed req permit now) := by
  have hl := hi.lockstep
  have hm := permitNamed_mem hc.named
  -- an earlier grant of the permit, or of its nonce, would have consumed it
  have hf : ∀ earlier ∈ grants, earlier.permit.permitId ≠ permit.permitId ∧
      earlier.permit.capabilityNonce ≠ permit.capabilityNonce := by
    intro earlier he
    obtain ⟨stored, hst, hid, hn, hs⟩ := hi.consumed earlier he
    refine ⟨?_, ?_⟩
    · intro hsa
      obtain rfl := List.inj_on_of_nodup_map hl.permitIds hst hm (hid.trans hsa)
      rw [hc.state] at hs
      cases hs
    · intro hsa
      obtain rfl := List.inj_on_of_nodup_map hl.capabilities hst hm (hn.trans hsa)
      rw [hc.state] at hs
      cases hs
  have hk := hi.of_movesTo (hl.consume hc) (hl.movesTo_markConsumed hc)
  refine ⟨hk.lockstep, ?_, ?_, ?_, ?_⟩
  · rw [List.map_append, List.nodup_append]
    refine ⟨hi.permits_once, by simp, ?_⟩
    rintro left hle right hr rfl
    obtain ⟨earlier, he, rfl⟩ := List.mem_map.mp hle
    rw [List.map_singleton, List.mem_singleton, hp] at hr
    exact (hf earlier he).1 hr
  · rw [List.map_append, List.nodup_append]
    refine ⟨hi.nonces_once, by simp, ?_⟩
    rintro left hle right hr rfl
    obtain ⟨earlier, he, rfl⟩ := List.mem_map.mp hle
    rw [List.map_singleton, List.mem_singleton, hp] at hr
    exact (hf earlier he).2 hr
  · intro other ho
    rcases List.mem_append.mp ho with hold | hnew
    · exact hk.consumed other hold
    · rw [List.mem_singleton.mp hnew, hp]
      refine ⟨_, List.mem_map_of_mem hm, ?_⟩
      rw [if_pos rfl]
      exact ⟨rfl, rfl, rfl⟩
  · intro other ho
    rcases List.mem_append.mp ho with hold | hnew
    · exact hi.sound other hold
    · rw [List.mem_singleton.mp hnew]
      exact hso

theorem PermitRun.lockstep {allowed : ConsumeRequest → Prop}
    (hrun : PermitRun allowed grants db) : Lockstep db := by
  induction hrun with
  | start hpermits hnonces => exact ⟨by simp [hpermits], by simp [hnonces], by simp [hpermits],
      by simp [hpermits]⟩
  | reserve _ hca ih =>
    rcases reservePermitV2_cases hca with ⟨-, rfl⟩ | ⟨existing, -, -, rfl, -⟩ |
      ⟨costs, hr, -⟩
    · exact ih
    · exact ih
    · exact ih.reserve hr
  | consume _ _ hca ih =>
    rcases consumePermitV2_cases hca with ⟨-, rfl⟩ | ⟨permit, hn, -, -, rfl⟩ |
      ⟨permit, hc, -, rfl⟩
    · exact ih
    · exact ih.expire (permitNamed_mem hn)
    · exact ih.consume hc
  | elsewhere _ hpermits hnonces ih => exact ih.of_tables hpermits hnonces

theorem PermitRun.invariant (hrun : PermitRun ConsumeRequest.Complete grants db) :
    PermitInvariant grants db := by
  induction hrun with
  | start hpermits hnonces =>
    have hl := (PermitRun.start hpermits hnonces : PermitRun ConsumeRequest.Complete [] _).lockstep
    refine ⟨hl, List.nodup_nil, List.nodup_nil, ?_, ?_⟩
    · intro grant hg
      cases hg
    · intro grant hg
      cases hg
  | reserve _ hca ih =>
    rcases reservePermitV2_cases hca with ⟨-, rfl⟩ | ⟨existing, -, -, rfl, -⟩ |
      ⟨costs, hr, -⟩
    · exact ih
    · exact ih
    · exact ih.of_movesTo (ih.lockstep.reserve hr) hr.movesTo
  | @consume grants db post req reply now _ hco hca ih =>
    rcases consumePermitV2_cases hca with ⟨hd, rfl⟩ | ⟨permit, hn, hd, -, rfl⟩ |
      ⟨permit, hc, rfl, rfl⟩
    · simpa [ConsumeReply.grants, hd] using ih
    · have hk := ih.of_movesTo (ih.lockstep.expire (permitNamed_mem hn))
        (db.movesTo_expirePermit permit)
      simpa [ConsumeReply.grants, hd] using hk
    · have hgr : ConsumeReply.grants
          ⟨true, "RATE_PERMIT_CONSUMED", some (min (now + 50000) permit.expiresAt)⟩ db
          req now = [⟨permit, req, now, some (min (now + 50000) permit.expiresAt)⟩] := by
        simp [ConsumeReply.grants, hc.named]
      rw [hgr]
      exact ih.grant hc rfl ⟨hco.carries hc, hc.expires, _, rfl, min_le_right _ _⟩
  | elsewhere hrun hpermits hnonces ih =>
    refine ⟨(hrun.elsewhere hpermits hnonces).lockstep, ih.permits_once, ih.nonces_once, ?_,
      ih.sound⟩
    rw [hpermits]
    exact ih.consumed

/-- As long as no consumption leaves a compared argument out, permits are one-shot. -/
theorem permits_one_shot (hrun : PermitRun ConsumeRequest.Complete grants db) :
    OneShot grants db := by
  have hi := hrun.invariant
  have hl := hi.lockstep
  refine ⟨hl, hi.permits_once, hi.nonces_once, hi.sound, ?_, ?_, ?_⟩
  · intro req leaseCheckedAt now reply post hca
    rcases reservePermitV2_cases hca with ⟨-, rfl⟩ | ⟨existing, -, -, rfl, -⟩ |
      ⟨costs, hr, -⟩
    · exact .refl _
    · exact .refl _
    · exact hr.movesTo
  · intro req now reply post hca
    rcases consumePermitV2_cases hca with ⟨-, rfl⟩ | ⟨permit, -, -, -, rfl⟩ |
      ⟨permit, hc, -, rfl⟩
    · exact .refl _
    · exact db.movesTo_expirePermit permit
    · exact hl.movesTo_markConsumed hc
  · intro req now reply post hca hd
    rcases consumePermitV2_cases hca with ⟨-, rfl⟩ |
      ⟨permit, hn, -, he | ⟨hre, he⟩, rfl⟩ | ⟨permit, -, rfl, -⟩
    · exact Or.inl rfl
    · exact Or.inl (hl.expirePermit_of_expired (permitNamed_mem hn) he)
    · exact Or.inr (hl.expiresOne (permitNamed_mem hn) hre he)
    · cases hd

end Run

section Anonymous

def anonymousConsume : ConsumeRequest :=
  { takeoverConsume 2 with subjectService := none }

def anonymousConsumed : ConsumeReply × Database :=
  reservedPermit.2.consumePermitV2 anonymousConsume 600000

theorem permitRun_reservedPermit {allowed : ConsumeRequest → Prop} :
    PermitRun allowed [] reservedPermit.2 := by
  have hs : PermitRun allowed [] firstLease.2 := .start (by decide) (by decide)
  have hc : firstLease.2.reservePermitV2 takeoverReserve 500000 500000 =
      .ok reservedPermit := eq_ok_okValue _
  exact PermitRun.reserve hs hc

theorem own_request_granted_once : ownConsume.1.granted = true ∧
      (ownConsume.2.consumePermitV2 (takeoverConsume 2) 700000).1.granted = false ∧
      OneShot (ownConsume.1.grants reservedPermit.2 (takeoverConsume 2) 600000) ownConsume.2 := by
  refine ⟨by decide, by decide, ?_⟩
  have hc : (takeoverConsume 2).Complete :=
    ⟨rfl, rfl, rfl, rfl, rfl, rfl, rfl, rfl, rfl, rfl, rfl⟩
  have hca : reservedPermit.2.consumePermitV2 (takeoverConsume 2) 600000 =
      (ownConsume.1, ownConsume.2) := rfl
  exact permits_one_shot (permitRun_reservedPermit.consume hc hca)

theorem anonymous_request_granted : ¬ ∀ (grants : List ConsumeGrant) (db : Database),
        PermitRun (fun _ => True) grants db → OneShot grants db := by
  intro hc
  have hca : reservedPermit.2.consumePermitV2 anonymousConsume 600000 =
      (anonymousConsumed.1, anonymousConsumed.2) := rfl
  have hr : PermitRun (fun _ => True)
      ([] ++ anonymousConsumed.1.grants reservedPermit.2 anonymousConsume 600000)
      anonymousConsumed.2 := permitRun_reservedPermit.consume trivial hca
  have hg := (hc _ _ hr).sound
    ⟨takeoverReserve.permit 500000, anonymousConsume, 600000, some 650000⟩ (by decide)
  exact absurd hg.carries.subjectService (by decide)

end Anonymous

end AiQuant.RateControl
