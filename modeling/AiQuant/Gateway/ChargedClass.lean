import AiQuant.Gateway.RateService
import Mathlib.Logic.Equiv.List

/-! The class that was charged is the class that is sent.  A permit keeps the class that the
catalog gave the caller's facts when it was reserved, and the costs that the policy gives that
class; a granted consumption carries the digest of the facts that the gateway derived from the
endpoint, and an injective digest makes the two sets of facts one. -/
namespace AiQuant.RateControl

open AiQuant.Lib

def Database.slots (database : Database) : List WindowSlot :=
  database.windows.map (·.slot)

def Database.policyFor (database : Database) (binding : PermitBinding) : Option RuntimePolicy :=
  database.policies.find? fun policy =>
    policy.endpointAuthority = binding.endpointAuthority &&
      policy.endpointId = binding.endpointId &&
      policy.endpointCatalogHash = binding.endpointCatalogHash

structure ChargedFor (database : Database) (authority : String) (item : CostItem)
    (allocation : Allocation) : Prop where
  cost : allocation.cost = item.cost
  used : allocation.effectiveUsedAfter = allocation.effectiveUsedBefore + item.cost
  window : ∃ slot ∈ database.slots, slot.windowId = allocation.windowId ∧
    slot.endpointAuthority = authority ∧ slot.scopeKeyHash = item.scopeKeyHash ∧
    slot.rateLimitType = item.rateLimitType ∧ slot.intervalName = item.intervalName

/-- The allocations of a permit are the policy's vector for its class and endpoint. -/
structure Charged (database : Database) (permit : Permit) : Prop where
  vector : ∃ policy items, database.policyFor permit.binding = some policy ∧
    policy.classCostVectors.lookup permit.derivedOperationClass = some (some items) ∧
    List.Forall₂ (ChargedFor database permit.binding.endpointAuthority) (orderedCosts items)
      (database.allocations.filter (·.permitId = permit.permitId))

section Costs

variable {db post : Database} {auth permitId : String} {now : Time}

theorem ChargedFor.of_slots {item : CostItem} {alloc : Allocation}
    (hc : ChargedFor db auth item alloc) (hs : ∀ slot ∈ db.slots, slot ∈ post.slots) :
    ChargedFor post auth item alloc := by
  obtain ⟨slot, hm, hsl⟩ := hc.window
  exact ⟨hc.cost, hc.used, slot, hs slot hm, hsl⟩

theorem charge_slots {item : CostItem} (hc : Database.charge auth permitId now db item = .ok post) :
    post.slots = db.slots := by
  obtain ⟨win, -, -, rfl⟩ := charge_eq_ok_iff.mp hc
  simp only [Database.slots, List.map_map]
  apply List.map_congr_left
  intro other _
  simp only [Function.comp]
  split
  · rfl
  · rfl

theorem charges_allocate {costs : List CostItem}
    (hl : costs.foldlM (Database.charge auth permitId now) db = .ok post) :
    post.slots = db.slots ∧ ∃ charged, post.allocations = db.allocations ++ charged ∧
      (∀ alloc ∈ charged, alloc.permitId = permitId) ∧
      List.Forall₂ (ChargedFor post auth) costs charged := by
  induction costs generalizing db with
  | nil =>
    rw [foldlM_nil_eq_ok_iff] at hl
    subst hl
    exact ⟨rfl, [], by simp, by simp, .nil⟩
  | cons item rest ih =>
    rw [foldlM_cons_eq_ok_iff] at hl
    obtain ⟨mid, hf, hr⟩ := hl
    obtain ⟨hsl, charged, ha, hp, hc⟩ := ih hr
    have hk : post.slots = db.slots := hsl.trans (charge_slots hf)
    obtain ⟨win, hfo, -, rfl⟩ := charge_eq_ok_iff.mp hf
    obtain ⟨hm, hs⟩ := mem_of_windowFor hfo
    simp only [RateWindow.serves, Bool.and_eq_true, decide_eq_true_eq] at hs
    obtain ⟨⟨⟨⟨⟨hau, hsc⟩, ht⟩, hi⟩, -⟩, -⟩ := hs
    refine ⟨hk, ⟨permitId, win.windowId, item.cost, win.used, win.used + item.cost⟩ ::
      charged, by simp [ha], by simpa using hp, .cons ⟨rfl, rfl, ?_⟩ hc⟩
    refine ⟨win.slot, ?_, rfl, hau, hsc, ht, hi⟩
    rw [hk]
    exact List.mem_map_of_mem hm

theorem selectedCosts_eq_ok {req : ReserveRequest} {costs : List CostItem}
    (hs : db.selectedCosts req now = .ok costs) :
    ∃ policy items, db.policyFor req.binding = some policy ∧
      policy.classCostVectors.lookup req.derivedOperationClass = some (some items) ∧
      costs = orderedCosts items := by
  unfold Database.selectedCosts at hs
  split at hs
  · cases hs
  rename_i policy hp
  split_ifs at hs
  split at hs
  · cases hs
  · cases hs
  · cases hs
  · rename_i items _ hv
    cases hs
    exact ⟨policy, items, hp, hv, rfl⟩

theorem policyFor_of_prefix {binding : PermitBinding} {policy : RuntimePolicy}
    (hp : db.policies <+: post.policies) (hf : db.policyFor binding = some policy) :
    post.policyFor binding = some policy := by
  obtain ⟨appended, ha⟩ := hp
  unfold Database.policyFor at hf ⊢
  rw [← ha, List.find?_append, hf]
  rfl

theorem Charged.of_tables {permit moved : Permit} (hc : Charged db permit)
    (hid : moved.permitId = permit.permitId) (hb : moved.binding = permit.binding)
    (hcl : moved.derivedOperationClass = permit.derivedOperationClass)
    (hp : db.policies <+: post.policies) (hs : ∀ slot ∈ db.slots, slot ∈ post.slots)
    (ha : post.allocations.filter (·.permitId = permit.permitId) =
      db.allocations.filter (·.permitId = permit.permitId)) : Charged post moved := by
  obtain ⟨policy, items, hpo, hv, hi⟩ := hc.vector
  rw [← ha] at hi
  refine ⟨policy, items, ?_, ?_, ?_⟩
  · rw [hb]
    exact policyFor_of_prefix hp hpo
  · rw [hcl]
    exact hv
  · rw [hid, hb]
    exact hi.imp fun _ _ ho => ho.of_slots hs

end Costs

structure Accounted (database : Database) : Prop where
  owned : ∀ allocation ∈ database.allocations, ∃ permit ∈ database.permits,
    permit.permitId = allocation.permitId
  charged : ∀ permit ∈ database.permits, Charged database permit

section Accounting

variable {db post : Database} {now : Time}

theorem Accounted.reserve {req : ReserveRequest} {costs : List CostItem}
    (hac : Accounted db) (hr : Reserves db req now costs post) : Accounted post := by
  obtain ⟨hn, hpe⟩ := hr.tables
  have hsa := charges_sameBesides hr.charged
  obtain ⟨hs, charged, ha, hnew, hc⟩ := charges_allocate hr.charged
  have hp : db.policies <+: post.policies := by
    rw [hsa.policies]
  have hk : ∀ slot ∈ db.slots, slot ∈ post.slots := by
    intro slot hm
    rw [hs]
    exact hm
  refine ⟨?_, ?_⟩
  · intro alloc hm
    rw [hpe]
    rw [ha] at hm
    rcases List.mem_append.mp hm with hold | hf
    · obtain ⟨permit, hper, hid⟩ := hac.owned alloc hold
      exact ⟨permit, List.mem_append_left _ hper, hid⟩
    · exact ⟨req.permit now, by simp, (hnew alloc hf).symm⟩
  · intro permit hm
    rw [hpe] at hm
    rcases List.mem_append.mp hm with hold | hf
    · -- the new allocations are of another permit
      refine (hac.charged permit hold).of_tables rfl rfl rfl hp hk ?_
      have hot : charged.filter (·.permitId = permit.permitId) = [] := by
        rw [List.filter_eq_nil_iff]
        intro alloc hin
        rw [hnew alloc hin]
        simpa using (hr.newPermit permit hold).symm
      rw [ha, List.filter_append, hot, List.append_nil]
    · rw [List.mem_singleton.mp hf]
      obtain ⟨policy, items, hpo, hv, rfl⟩ := selectedCosts_eq_ok hr.selected
      refine ⟨policy, items, policyFor_of_prefix hp hpo, hv, ?_⟩
      have he : db.allocations.filter (·.permitId = req.permitId) = [] := by
        rw [List.filter_eq_nil_iff]
        intro alloc hin
        obtain ⟨owner, ho, hid⟩ := hac.owned alloc hin
        rw [← hid]
        simpa using hr.newPermit owner ho
      have hall : charged.filter (·.permitId = req.permitId) = charged := by
        rw [List.filter_eq_self]
        intro alloc hin
        simpa using hnew alloc hin
      show List.Forall₂ _ _ (post.allocations.filter (·.permitId = req.permitId))
      rw [ha, List.filter_append, he, hall]
      exact hc

/-- The permits of `after` are those of `database`, with other states; no cost moves. -/
structure Restates (database after : Database) : Prop where
  policies : after.policies = database.policies
  windows : after.windows = database.windows
  allocations : after.allocations = database.allocations
  permits : ∃ update : Permit → Permit, after.permits = database.permits.map update ∧
    ∀ permit, (update permit).permitId = permit.permitId ∧
      (update permit).binding = permit.binding ∧
      (update permit).derivedOperationClass = permit.derivedOperationClass

theorem Restates.refl (db : Database) : Restates db db :=
  ⟨rfl, rfl, rfl, id, by simp, fun _ => ⟨rfl, rfl, rfl⟩⟩

theorem consumePermitV2_restates {req : ConsumeRequest} {reply : ConsumeReply}
    (hc : db.consumePermitV2 req now = (reply, post)) : Restates db post := by
  rcases consumePermitV2_cases hc with ⟨-, rfl⟩ | ⟨permit, -, -, -, rfl⟩ | ⟨permit, -, -, rfl⟩
  · exact .refl _
  · refine ⟨rfl, rfl, rfl, _, rfl, ?_⟩
    intro other
    dsimp only
    split
    · split <;> exact ⟨rfl, rfl, rfl⟩
    · exact ⟨rfl, rfl, rfl⟩
  · refine ⟨rfl, rfl, rfl, _, rfl, ?_⟩
    intro other
    dsimp only
    split <;> exact ⟨rfl, rfl, rfl⟩

theorem Accounted.restate (ha : Accounted db) (hr : Restates db post) : Accounted post := by
  obtain ⟨upd, hpe, hk⟩ := hr.permits
  refine ⟨?_, ?_⟩
  · intro alloc hm
    rw [hr.allocations] at hm
    obtain ⟨permit, hp, hid⟩ := ha.owned alloc hm
    refine ⟨upd permit, ?_, (hk permit).1.trans hid⟩
    rw [hpe]
    exact List.mem_map_of_mem hp
  · intro moved hm
    rw [hpe] at hm
    obtain ⟨permit, hp, rfl⟩ := List.mem_map.mp hm
    obtain ⟨hid, hb, hc⟩ := hk permit
    refine (ha.charged permit hp).of_tables hid hb hc ?_ ?_ ?_
    · rw [hr.policies]
    · intro slot hs
      rw [Database.slots, hr.windows]
      exact hs
    · rw [hr.allocations]

end Accounting

end AiQuant.RateControl

namespace AiQuant.Gateway

open AiQuant.Lib
open AiQuant.RateControl (Database Permit Charged Accounted Restates)

/-- Any history of the rate database since its migration: reservations and consumptions
through the deployed services, at any instants, and the other writers, which append policies
and windows but touch neither permits nor allocations. -/
inductive ServiceRun (deployed : RateService → Prop) : Database → Prop
  | start {database : Database} (hpermits : database.permits = [])
      (hallocations : database.allocations = []) : ServiceRun deployed database
  | reserve {database after : Database} {service : RateService} {message : ReserveMessage}
      {peer : PeerCredentials} {readings : RateService.ReserveReadings}
      {reply : Option RateControl.ReserveReply} (hrun : ServiceRun deployed database)
      (hdeployed : deployed service)
      (hcall : service.handleReserve database message peer readings = .ok (reply, after)) :
      ServiceRun deployed after
  | consume {database after : Database} {service : RateService} {message : ConsumeRequest}
      {peer : PeerCredentials} {readings : RateService.ConsumeReadings}
      {reply : Option RateControl.ConsumeReply} (hrun : ServiceRun deployed database)
      (hdeployed : deployed service)
      (hcall : service.handleConsume database message peer readings = .ok (reply, after)) :
      ServiceRun deployed after
  | elsewhere {database after : Database} (hrun : ServiceRun deployed database)
      (hpermits : after.permits = database.permits)
      (hallocations : after.allocations = database.allocations)
      (hpolicies : database.policies <+: after.policies)
      (hslots : ∀ slot ∈ database.slots, slot ∈ after.slots) : ServiceRun deployed after

structure Classified (deployed : RateService → Prop) (permit : Permit) : Prop where
  reserved : ∃ service endpoint facts, deployed service ∧
    permit.binding.endpointCatalogHash = service.endpointCatalog.catalogHash ∧
    service.endpointCatalog.endpoints.lookup
      (permit.binding.endpointAuthority, permit.binding.endpointId) = some endpoint ∧
    permit.binding.operationFactsHash = service.digests.operationFacts facts ∧
    endpoint.causalRoleClassMap.lookup facts.semanticAction = some permit.derivedOperationClass

section Calls

variable {service : RateService} {db post : Database} {peer : PeerCredentials}

theorem reserveClass_eq_ok {msg : ReserveMessage} {opClass : String}
    (hc : service.reserveClass msg = .ok opClass) :
    ∃ endpoint, msg.endpointCatalogHash = service.endpointCatalog.catalogHash ∧
      service.endpointCatalog.endpoints.lookup (msg.endpointAuthority, msg.endpointId) =
        some endpoint ∧
      msg.operationFactsHash = service.digests.operationFacts msg.operationFacts ∧
      endpoint.causalRoleClassMap.lookup msg.operationFacts.semanticAction = some opClass := by
  unfold RateService.reserveClass at hc
  rw [deny_if_eq_ok_iff, not_not] at hc
  obtain ⟨hca, hc⟩ := hc
  split at hc
  · cases hc
  rename_i endpoint he
  rw [deny_if_eq_ok_iff, not_not] at hc
  obtain ⟨hf, hc⟩ := hc
  split at hc
  · cases hc
  rename_i found ha
  cases hc
  rw [RateService.allowedClass, Option.filter_eq_some_iff] at ha
  exact ⟨endpoint, hca, he, hf, ha.1⟩

theorem handleReserve_cases {msg : ReserveMessage} {readings : RateService.ReserveReadings}
    {reply : Option RateControl.ReserveReply}
    (hca : service.handleReserve db msg peer readings = .ok (reply, post)) :
    post = db ∨ ∃ opClass capability granted, service.reserveClass msg = .ok opClass ∧
      db.reservePermitV2 (service.reserveArguments msg capability opClass
        readings.permitUuid readings.startedAt) readings.leaseCheckedAt readings.executedAt =
          .ok (granted, post) := by
  simp only [RateService.handleReserve, bind_eq_ok_iff] at hca
  obtain ⟨_, -, opClass, hc, capability, -, hr⟩ := hca
  unfold RateService.reserve at hr
  split at hr
  · cases hr
    exact .inl rfl
  split at hr
  · cases hr
    exact .inl rfl
  rename_i granted reached hp
  split at hr
  · cases hr
    exact .inr ⟨opClass, capability, granted, hc, hp⟩
  · cases hr
    exact .inl rfl

theorem handleConsume_cases {msg : ConsumeRequest} {readings : RateService.ConsumeReadings}
    {reply : Option RateControl.ConsumeReply}
    (hca : service.handleConsume db msg peer readings = .ok (reply, post)) :
    (reply = none ∧ post = db) ∨ ∃ answered, reply = some answered ∧
      db.consumePermitV2 (RateService.consumeArguments msg) readings.executedAt =
        (answered, post) := by
  simp only [RateService.handleConsume, bind_eq_ok_iff] at hca
  obtain ⟨_, -, _, -, _, -, hc⟩ := hca
  unfold RateService.consume at hc
  split at hc
  · cases hc
    exact .inr ⟨_, rfl, rfl⟩
  · cases hc
    exact .inl ⟨rfl, rfl⟩

theorem consumeArguments_complete (msg : ConsumeRequest) :
    (RateService.consumeArguments msg).Complete :=
  ⟨rfl, rfl, rfl, rfl, rfl, rfl, rfl, rfl, rfl, rfl, rfl⟩

end Calls

section Run

variable {deployed : RateService → Prop} {db post : Database}

theorem Classified.reserve {service : RateService} {msg : ReserveMessage}
    {capability : VerifiedCapability} {opClass permitUuid : String} {startedAt now : ℤ}
    (hd : deployed service) (hcl : service.reserveClass msg = .ok opClass) : Classified deployed
      ((service.reserveArguments msg capability opClass permitUuid startedAt).permit now) := by
  obtain ⟨endpoint, hc, he, hf, hl⟩ := reserveClass_eq_ok hcl
  exact ⟨service, endpoint, msg.operationFacts, hd, hc, he, hf, hl⟩

theorem ServiceRun.accounted (hrun : ServiceRun deployed db) : Accounted db := by
  induction hrun with
  | start hpermits ha => exact ⟨by simp [ha], by simp [hpermits]⟩
  | reserve _ _ hc ih =>
    rcases handleReserve_cases hc with rfl | ⟨_, _, _, -, hp⟩
    · exact ih
    rcases RateControl.reservePermitV2_cases hp with ⟨-, rfl⟩ | ⟨_, -, -, rfl, -⟩ |
      ⟨costs, hr, -⟩
    · exact ih
    · exact ih
    · exact ih.reserve hr
  | consume _ _ hc ih =>
    rcases handleConsume_cases hc with ⟨-, rfl⟩ | ⟨_, -, hp⟩
    · exact ih
    · exact ih.restate (RateControl.consumePermitV2_restates hp)
  | elsewhere _ hpermits ha hpolicies hslots ih =>
    refine ⟨?_, ?_⟩
    · rw [hpermits, ha]
      exact ih.owned
    · intro permit hm
      rw [hpermits] at hm
      exact (ih.charged permit hm).of_tables rfl rfl rfl hpolicies hslots (by rw [ha])

theorem ServiceRun.classified (hrun : ServiceRun deployed db) :
    ∀ permit ∈ db.permits, Classified deployed permit := by
  induction hrun with
  | start hp _ => simp [hp]
  | reserve _ hdeployed hca ih =>
    rcases handleReserve_cases hca with rfl | ⟨_, _, _, hc, hpr⟩
    · exact ih
    rcases RateControl.reservePermitV2_cases hpr with ⟨-, rfl⟩ | ⟨_, -, -, rfl, -⟩ |
      ⟨costs, hre, -⟩
    · exact ih
    · exact ih
    · intro permit hm
      rw [hre.tables.2] at hm
      rcases List.mem_append.mp hm with ho | hn
      · exact ih permit ho
      · rw [List.mem_singleton.mp hn]
        exact .reserve hdeployed hc
  | consume _ _ hca ih =>
    rcases handleConsume_cases hca with ⟨-, rfl⟩ | ⟨_, -, hpr⟩
    · exact ih
    obtain ⟨upd, hp, hk⟩ := (RateControl.consumePermitV2_restates hpr).permits
    intro moved hm
    rw [hp] at hm
    obtain ⟨permit, hpe, rfl⟩ := List.mem_map.mp hm
    obtain ⟨-, hb, hc⟩ := hk permit
    obtain ⟨hr⟩ := ih permit hpe
    rw [← hb, ← hc] at hr
    exact ⟨hr⟩
  | elsewhere _ hp _ _ _ ih =>
    rw [hp]
    exact ih

end Run

/-- The gateway and the services have one digest, and one catalog for one catalog hash. -/
structure SharesCatalog (gateway : GatewayConfig) (deployed : RateService → Prop) : Prop where
  digests : ∀ service, deployed service → service.digests = gateway.digests
  catalog : ∀ service, deployed service →
    service.endpointCatalog.catalogHash = gateway.endpointCatalog.catalogHash →
      service.endpointCatalog = gateway.endpointCatalog

/-- The class of the permit that a granted consumption names is the one that the endpoint's map
gives the gateway's own facts, and its allocations are the policy's vector for that class. -/
theorem charged_class_is_sent_class {gateway : SendConfig} {deployed : RateService → Prop}
    (hinjective : Function.Injective gateway.digests.operationFacts)
    (hshares : SharesCatalog gateway.toGatewayConfig deployed) {db post : Database}
    (hrun : ServiceRun deployed db) {latched : Bool} {msg : GatewayMessage}
    {caller peer : PeerCredentials} {now : ℤ} {uuid : String} {req : ClosedGatewayRequest}
    {endpoint : EndpointPolicy} {facts : OperationFacts} {binding : PermitBinding}
    (hadmission : gateway.admit latched msg caller now = .ok (req, endpoint, facts))
    {service : RateService} {readings : RateService.ConsumeReadings}
    {reply : RateControl.ConsumeReply} (hconsume : service.handleConsume db
      (gateway.consumeRequest msg req facts binding now uuid) peer readings =
        .ok (some reply, post)) (hgranted : reply.granted = true) :
    deriveOperationFacts endpoint = .ok facts ∧
      ∃ permit ∈ db.permits, permit.permitId = binding.permitId ∧
        endpoint.causalRoleClassMap.lookup facts.semanticAction =
          some permit.derivedOperationClass ∧
        Charged db permit := by
  obtain ⟨-, wire, ha⟩ := admit_eq_ok_iff.mp hadmission
  obtain ⟨-, -, -, hfa⟩ := validateRequestAgainstEndpoint_eq_ok_iff.mp ha.contract
  refine ⟨hfa, ?_⟩
  obtain ⟨hno, -⟩ | ⟨answered, han, hp⟩ := handleConsume_cases hconsume
  · cases hno
  cases han
  obtain ⟨hd, -⟩ | ⟨_, -, hd, -⟩ | ⟨permit, hco, -, -⟩ :=
    RateControl.consumePermitV2_cases hp
  · rw [hgranted] at hd
    cases hd
  · rw [hgranted] at hd
    cases hd
  have hm := RateControl.permitNamed_mem hco.named
  have hid : binding.permitId = permit.permitId := by
    have hn := List.find?_some hco.named
    simpa [RateService.consumeArguments, SendConfig.consumeRequest] using hn
  have hc := (consumeArguments_complete _).carries hco
  refine ⟨permit, hm, hid.symm, ?_, hrun.accounted.charged permit hm⟩
  -- the four bindings: catalog, endpoint, and the digest of the facts
  obtain ⟨reserving, found, claimed, hde, hca, hf, hdi, hcla⟩ :=
    (hrun.classified permit hm).reserved
  have hs : reserving.endpointCatalog = gateway.endpointCatalog := by
    refine hshares.catalog reserving hde ?_
    rw [← hca, ← ha.catalogHash]
    exact (Option.some.inj hc.catalogHash).symm
  have he : found = endpoint := by
    have hau : req.endpointAuthority = permit.binding.endpointAuthority :=
      Option.some.inj hc.endpointAuthority
    have hna : req.endpointId = permit.binding.endpointId :=
      Option.some.inj hc.endpointId
    have hl := ha.endpointFound
    rw [hau, hna, ← hs, hf] at hl
    exact Option.some.inj hl
  have hcl : claimed = facts := by
    refine hinjective ?_
    rw [hshares.digests reserving hde] at hdi
    exact hdi.symm.trans (Option.some.inj hc.operationFactsHash).symm
  rw [← he, ← hcl]
  exact hcla

def Transport.code : Transport → ℕ
  | rest => 0
  | wsApi => 1
  | marketStreamControl => 2

def OperationFacts.code (facts : OperationFacts) : ℕ :=
  Encodable.encode (facts.semanticAction.toList.map Char.toNat, facts.transport.code,
    facts.orderRole.map fun role => role.toList.map Char.toNat, facts.reduceOnly,
    facts.closePosition)

theorem OperationFacts.code_injective : Function.Injective OperationFacts.code := by
  have hc : Function.Injective fun text : String => text.toList.map Char.toNat :=
    (List.map_injective_iff.mpr fun _ _ he => Char.toNat_inj.mp he).comp
      fun _ _ he => String.toList_inj.mp he
  have htr : Function.Injective Transport.code := by
    intro left right he
    cases left <;> cases right <;> first | rfl | cases he
  rintro ⟨action, transport, role, reduce, close⟩ ⟨action', transport', role', reduce', close'⟩ he
  have hco := Encodable.encode_injective he
  simp only [Prod.mk.injEq] at hco
  obtain ⟨ha, ht, hr, rfl, rfl⟩ := hco
  rw [hc ha, htr ht, Option.map_injective hc hr]

def factsDigest (facts : OperationFacts) : String :=
  if facts = timeFacts then "5c8a832d6e4006913b06f6d187b38a4b2ec79c1311e15ca94b507990a81058c7"
  else String.ofList (List.replicate facts.code '0')

theorem factsDigest_injective : Function.Injective factsDigest := by
  have ho : ∀ facts : OperationFacts, String.ofList (List.replicate facts.code '0') ≠
      "5c8a832d6e4006913b06f6d187b38a4b2ec79c1311e15ca94b507990a81058c7" := by
    intro facts he
    have hm : '5' ∈ List.replicate facts.code '0' := by
      rw [← @String.toList_ofList (List.replicate facts.code '0'), he]
      simp
    simp at hm
  intro left right he
  unfold factsDigest at he
  split_ifs at he with hle hr hr
  · exact hle.trans hr.symm
  · exact absurd he.symm (ho right)
  · exact absurd he (ho left)
  · refine OperationFacts.code_injective ?_
    have hl := congrArg (fun text : String => text.toList.length) he
    simpa using hl

def chargedDigests : Digests :=
  { timeDigests with operationFacts := factsDigest }

def chargedBinding : PermitBinding :=
  { timeBinding timeRequest with
    permitId := "rate-permit-1"
    expiresAt := .instant (timeNow + 1000000) }

def chargedMessage : GatewayMessage :=
  { timeMessage timeRequest with permitBinding := some chargedBinding }

def chargedGateway : SendConfig :=
  { timeGateway with
    digests := chargedDigests
    replyValid := fun _ => true
    replyDigest := fun _ => none
    outcomeDigest := fun _ => none
    receiptDigest := fun _ => "" }

def timeService : RateService where
  digests := chargedDigests
  endpointCatalog := timeGateway.endpointCatalog
  bundleValidUntil := timeNow + 3600000000
  protocols := [("binance-egress-gateway", ⟨[1001], [1001], ["PermitConsumeRequest"]⟩)]
  permitTtl := 1000000
  reserveValid := fun _ => true
  consumeValid := fun _ => true
  verifyCausalCapability := fun _ _ _ now =>
    .ok ⟨"aaaaaaaaaaaaaaaaaaaaaaaaaaaaaaaaaaaaaaaaaaaaaaaaaaaaaaaaaaaaaaaa", "nonce-1",
      now + 5000000⟩

def timeReserve : ReserveMessage where
  requestKey := "request-1"
  callerService := "host-bootstrap-runner"
  callerInstanceId := "host-bootstrap-01"
  environment := .production
  endpointAuthority := "BINANCE_PRODUCTION_FAPI"
  endpointId := "REST_QUERY_TIME"
  gatewayConnectionId := none
  endpointCatalogHash := timeRequest.endpointCatalogHash
  canonicalRequestHash := timeRequest.canonicalRequestHash
  parameterHash := timeRequest.parameterHash
  wireBytesHash := timeRequest.wireBytesHash
  gatewayRequestDocumentHash := timeDigests.requestDocument timeRequest
  operationFacts := timeFacts
  operationFactsHash := "5c8a832d6e4006913b06f6d187b38a4b2ec79c1311e15ca94b507990a81058c7"
  causalRefType := "HOST_BOOTSTRAP"
  causalRefId := "bootstrap-1"
  causalCapability := "capability-1"
  expectedFencingEpoch := 1

def timeWindow : RateControl.RateWindow :=
  ⟨1, "BINANCE_PRODUCTION_FAPI", "scope", "REQUEST_WEIGHT", "MINUTE", timeNow, timeNow + 60000000,
    0, 0, 2400, none⟩

def timeDatabase : Database where
  fencing := ⟨1, "rate-1", some (timeNow + 60000000)⟩
  windows := [timeWindow]
  policies := [⟨"BINANCE_PRODUCTION_FAPI", "REST_QUERY_TIME", timeRequest.endpointCatalogHash, true,
    ["host-bootstrap-runner"], ["HOST_RATE_CONTROL"],
    [("HOST_RATE_CONTROL", some [⟨"REQUEST_WEIGHT", "scope", "MINUTE", 1, 1200⟩])], true, timeNow,
    timeNow + 86400000000⟩]

def timeReadings : RateService.ReserveReadings :=
  ⟨timeNow, timeNow, timeNow, timeNow, timeNow, "1", true⟩

def timeArguments : RateControl.ReserveRequest :=
  timeService.reserveArguments timeReserve
    ⟨"aaaaaaaaaaaaaaaaaaaaaaaaaaaaaaaaaaaaaaaaaaaaaaaaaaaaaaaaaaaaaaaa", "nonce-1",
      timeNow + 5000000⟩ "HOST_RATE_CONTROL" "1" timeNow

def timeReserved : Database :=
  { timeDatabase with
    windows := [{ timeWindow with effectiveUsed := 1 }]
    nonces := [timeArguments.nonceRow]
    permits := [timeArguments.permit timeNow]
    allocations := [⟨"rate-permit-1", 1, 1, 0, 1⟩] }

theorem timeReserve_granted : timeService.handleReserve timeDatabase timeReserve timePeer
    timeReadings = .ok (some ⟨true, "RATE_GRANTED", some "rate-permit-1", some "HOST_RATE_CONTROL",
      1, some (timeNow + 1000000)⟩, timeReserved) := by
  have hc : timeService.reserveClass timeReserve = .ok "HOST_RATE_CONTROL" := by
    simp [RateService.reserveClass, timeService, timeReserve, timeGateway, timeRequest,
      chargedDigests, factsDigest, RateService.allowedClass, timeEndpoint, timeFacts, Option.filter]
  simp only [RateService.handleReserve, bind_eq_ok_iff]
  refine ⟨(), ?_, _, hc, _, rfl, ?_⟩
  · simp [RateService.checkValidity, timeService, timeReadings, timeGateway]
  have hp : timeDatabase.reservePermitV2 timeArguments timeNow timeNow =
      .ok (⟨true, "RATE_GRANTED", some "rate-permit-1", some "HOST_RATE_CONTROL",
      1, some (timeNow + 1000000)⟩, timeReserved) := by
    rfl
  show Except.ok (RateService.reserve timeDatabase timeArguments timeReadings) = _
  have hl : ¬ timeArguments.expiresAt ≤ timeReadings.startedAt := by decide
  rw [RateService.reserve, if_neg hl]
  simp only [timeReadings, hp, if_true]
theorem chargedMessage_admitted : chargedGateway.admit false chargedMessage timePeer timeNow =
    .ok (timeRequest, timeEndpoint, timeFacts) := by
  refine admit_eq_ok_iff.mpr ⟨rfl, timeWire, { timeRequest_admitted with binding := ?_ }⟩
  refine admitBinding_eq_ok_iff.mpr ⟨chargedBinding, timeNow + 1000000, rfl, rfl, ?_, ?_, ?_⟩
  · simp
  · simp [timeRequest]
  · simp [GatewayConfig.bindingMatches, chargedBinding, timeBinding, timeRequest, chargedGateway,
      chargedDigests, timeDigests, factsDigest]

def chargedConsume : ConsumeRequest :=
  chargedGateway.consumeRequest chargedMessage timeRequest timeFacts chargedBinding timeNow "2"

def chargedConsumed : RateControl.ConsumeReply × Database :=
  timeReserved.consumePermitV2 (RateService.consumeArguments chargedConsume) timeNow

theorem timeConsume_granted : chargedConsumed.1.granted = true := by rfl

theorem timeConsume_handled : timeService.handleConsume timeReserved chargedConsume ⟨200, 1001, 1001⟩
    ⟨timeNow, timeNow, true⟩ = .ok (some chargedConsumed.1, chargedConsumed.2) := by
  simp only [RateService.handleConsume, bind_eq_ok_iff]
  refine ⟨(), ?_, (), ?_, (), ?_, rfl⟩
  · simp [RateService.checkValidity, timeService, timeGateway]
  · simp [RateService.authorizeProtocolPeer, timeService]
  · simp [RateService.checkConsume, timeService, chargedConsume, SendConfig.consumeRequest,
      timeGateway, timeRequest, chargedGateway, chargedDigests, RateService.allowedClass,
      timeEndpoint, timeFacts, Option.filter]

theorem timeConsume_class : chargedConsumed.1.granted = true ∧
    deriveOperationFacts timeEndpoint = .ok timeFacts ∧
      ∃ permit ∈ timeReserved.permits, permit.permitId = "rate-permit-1" ∧
        timeEndpoint.causalRoleClassMap.lookup timeFacts.semanticAction =
          some permit.derivedOperationClass ∧
        Charged timeReserved permit := by
  have hs : SharesCatalog chargedGateway.toGatewayConfig (· = timeService) := by
    refine ⟨?_, ?_⟩
    · rintro _ rfl
      rfl
    · rintro _ rfl _
      rfl
  have hst : ServiceRun (· = timeService) timeDatabase := .start rfl rfl
  exact ⟨timeConsume_granted, charged_class_is_sent_class factsDigest_injective hs
    (hst.reserve rfl timeReserve_granted) chargedMessage_admitted timeConsume_handled
    timeConsume_granted⟩

end AiQuant.Gateway
