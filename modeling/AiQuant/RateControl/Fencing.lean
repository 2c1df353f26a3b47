import AiQuant.RateControl.Database

/-! Fencing of permits over whole runs of the host database: what the current epoch
says about the permits that are still granted.  `consume_permit_v2` compares the
requested epoch with the current one and never looks at the permit's own. -/
namespace AiQuant.RateControl
open AiQuant.Lib

/-- What a run shows of its fencing: a takeover with its new epoch, and a granted
consumption with the stored permit and the fencing row it was granted under. -/
inductive FencingEvent where
  | acquired (epoch : ℤ)
  | granted (permit : Permit) (fencing : FencingState) (grantedAt : Time)
deriving DecidableEq

def LeaseReply.events (reply : LeaseReply) : List FencingEvent :=
  if reply.granted ∧ reply.reasonCode = "FENCING_LEASE_ACQUIRED" then
    [.acquired reply.fencingEpoch] else []

def ConsumeReply.events (reply : ConsumeReply) (database : Database) (request : ConsumeRequest)
    (now : Time) : List FencingEvent :=
  if reply.granted then
    (database.permitNamed request).toList.map (.granted · database.fencing now) else []

/-- Any interleaving of the three procedures from a freshly migrated database, with the
clock advancing at will between the calls.  The other writers of the database (policy
ingestion, header reconciliation) touch neither the lease nor the permits. -/
inductive RateRun (allowed : Database → ConsumeRequest → Prop) :
    List FencingEvent → Database → Time → Prop
  | start {database : Database} {now : Time}
      (hfencing : database.fencing = ⟨1, "UNINITIALIZED", none⟩)
      (hpermits : database.permits = []) : RateRun allowed [] database now
  | acquire {events : List FencingEvent} {database after : Database} {before now : Time}
      {request : LeaseRequest} {reply : LeaseReply} (hrun : RateRun allowed events database before)
      (hclock : before ≤ now) (hcall : database.acquireFencingLease request now = (reply, after)) :
      RateRun allowed (events ++ reply.events) after now
  | reserve {events : List FencingEvent} {database after : Database}
      {before leaseCheckedAt now : Time} {request : ReserveRequest} {reply : ReserveReply}
      (hrun : RateRun allowed events database before) (hclock : before ≤ leaseCheckedAt)
      (hlater : leaseCheckedAt ≤ now)
      (hcall : database.reservePermitV2 request leaseCheckedAt now = .ok (reply, after)) :
      RateRun allowed events after now
  | consume {events : List FencingEvent} {database after : Database} {before now : Time}
      {request : ConsumeRequest} {reply : ConsumeReply}
      (hrun : RateRun allowed events database before) (hclock : before ≤ now)
      (hallowed : allowed database request)
      (hcall : database.consumePermitV2 request now = (reply, after)) :
      RateRun allowed (events ++ reply.events database request now) after now
  | elsewhere {events : List FencingEvent} {database after : Database} {now : Time}
      (hrun : RateRun allowed events database now) (hfencing : after.fencing = database.fencing)
      (hpermits : after.permits = database.permits) : RateRun allowed events after now

/-- A granted permit is of the current epoch, under an unexpired lease, and of no epoch
that was taken over before. -/
structure Fenced (events : List FencingEvent) : Prop where
  current : ∀ permit fencing grantedAt, .granted permit fencing grantedAt ∈ events →
    permit.fencingEpoch = fencing.epoch ∧ fencing.held grantedAt = true
  monotone : events.Pairwise fun earlier later =>
    ∀ epoch permit fencing grantedAt, earlier = .acquired epoch →
      later = .granted permit fencing grantedAt → epoch ≤ permit.fencingEpoch

/-- The request carries the epoch that its permit was reserved under. -/
def OwnEpoch (database : Database) (request : ConsumeRequest) : Prop :=
  ∀ permit, database.permitNamed request = some permit →
    request.fencingEpoch = some permit.fencingEpoch

section Procedures

variable {db post : Database} {now : Time}

theorem acquireFencingLease_epoch {req : LeaseRequest} {reply : LeaseReply}
    (hc : db.acquireFencingLease req now = (reply, post)) :
    (reply.events = [] ∧ post.fencing.epoch = db.fencing.epoch) ∨
      (reply.events = [.acquired post.fencing.epoch] ∧
        post.fencing.epoch = db.fencing.epoch + 1) := by
  unfold Database.acquireFencingLease at hc
  dsimp only at hc
  split at hc
  · cases hc
    exact Or.inl ⟨rfl, rfl⟩
  split at hc
  · cases hc
    exact Or.inl ⟨rfl, rfl⟩
  split at hc
  · cases hc
    exact Or.inl ⟨rfl, rfl⟩
  split at hc
  · split at hc
    · cases hc
      exact Or.inl ⟨rfl, rfl⟩
    · cases hc
      exact Or.inl ⟨by simp [LeaseReply.events], rfl⟩
  · cases hc
    exact Or.inr ⟨by simp [LeaseReply.events], rfl⟩

structure SameBesidesCharges (before after : Database) : Prop where
  fencing : after.fencing = before.fencing
  policies : after.policies = before.policies
  blocks : after.blocks = before.blocks
  nonces : after.nonces = before.nonces
  permits : after.permits = before.permits

theorem charge_sameBesides {auth permitId : String} {item : CostItem}
    (hc : Database.charge auth permitId now db item = .ok post) : SameBesidesCharges db post := by
  unfold Database.charge at hc
  split at hc
  · cases hc
  split at hc
  · cases hc
  · cases hc
    exact ⟨rfl, rfl, rfl, rfl, rfl⟩

theorem charges_sameBesides {auth permitId : String} {costs : List CostItem}
    (hc : costs.foldlM (Database.charge auth permitId now) db = .ok post) :
    SameBesidesCharges db post := by
  refine foldlM_invariant (SameBesidesCharges db) ?_ ⟨rfl, rfl, rfl, rfl, rfl⟩ hc
  intro item _ reached next hr hch
  have hn := charge_sameBesides hch
  exact ⟨hn.fencing.trans hr.fencing, hn.policies.trans hr.policies,
    hn.blocks.trans hr.blocks, hn.nonces.trans hr.nonces,
    hn.permits.trans hr.permits⟩

theorem insertPermit_fencing {req : ReserveRequest} {costs : List CostItem}
    (hi : db.insertPermit req costs now = .ok post) : post.fencing = db.fencing := by
  unfold Database.insertPermit at hi
  split at hi
  · cases hi
  · exact (charges_sameBesides hi).fencing

theorem reservePermitV2_fencing {req : ReserveRequest} {leaseCheckedAt : Time}
    {reply : ReserveReply} (hc : db.reservePermitV2 req leaseCheckedAt now = .ok (reply, post)) :
    post.fencing = db.fencing := by
  unfold Database.reservePermitV2 at hc
  split at hc
  swap
  · cases hc
    rfl
  unfold Database.reserveUnderActiveLease at hc
  dsimp only at hc
  repeat' split at hc
  all_goals try (cases hc; rfl)
  rw [bind_eq_ok_iff] at hc
  obtain ⟨reached, hi, hc⟩ := hc
  cases hc
  exact insertPermit_fencing hi

theorem consumePermitV2_events {req : ConsumeRequest} {reply : ConsumeReply}
    (hc : db.consumePermitV2 req now = (reply, post)) :
    post.fencing = db.fencing ∧ (reply.events db req now = [] ∨
        ∃ permit, db.permitNamed req = some permit ∧
          db.fencing.admits req.fencingEpoch now = true ∧
          reply.events db req now = [.granted permit db.fencing now]) := by
  unfold Database.consumePermitV2 at hc
  split at hc
  swap
  · cases hc
    exact ⟨rfl, Or.inl rfl⟩
  rename_i ha
  split at hc
  · cases hc
    exact ⟨rfl, Or.inl rfl⟩
  rename_i permit hp
  unfold Database.consumeFound at hc
  split at hc
  · cases hc
    exact ⟨rfl, Or.inl rfl⟩
  split at hc
  · cases hc
    exact ⟨rfl, Or.inl rfl⟩
  split at hc
  · cases hc
    exact ⟨rfl, Or.inl rfl⟩
  split at hc
  · cases hc
    refine ⟨rfl, Or.inr ⟨permit, hp, ha, ?_⟩⟩
    simp [ConsumeReply.events, hp]
  · cases hc
    exact ⟨rfl, Or.inl rfl⟩

end Procedures

structure FencingInvariant (events : List FencingEvent) (database : Database) : Prop where
  acquired_le : ∀ epoch, .acquired epoch ∈ events → epoch ≤ database.fencing.epoch
  fenced : Fenced events

section Invariant

variable {events : List FencingEvent} {db post : Database} {now : Time}

theorem FencingInvariant.of_fencing_eq (hi : FencingInvariant events db)
    (hf : post.fencing = db.fencing) : FencingInvariant events post where
  acquired_le := by
    rw [hf]
    exact hi.acquired_le
  fenced := hi.fenced

theorem FencingInvariant.acquire (hi : FencingInvariant events db)
    (he : post.fencing.epoch = db.fencing.epoch + 1) :
    FencingInvariant (events ++ [.acquired post.fencing.epoch]) post := by
  refine ⟨?_, ?_, ?_⟩
  · intro epoch hm
    rw [List.mem_append, List.mem_singleton] at hm
    rcases hm with ho | hn
    · have hle := hi.acquired_le epoch ho
      omega
    · cases hn
      exact le_rfl
  · intro permit fencing grantedAt hm
    rw [List.mem_append, List.mem_singleton] at hm
    rcases hm with ho | hn
    · exact hi.fenced.current permit fencing grantedAt ho
    · cases hn
  · rw [List.pairwise_append]
    refine ⟨hi.fenced.monotone, List.pairwise_singleton _ _, ?_⟩
    intro earlier _ later hl epoch permit fencing grantedAt _ hg
    rw [List.mem_singleton] at hl
    cases hl.symm.trans hg

theorem FencingInvariant.grant (hi : FencingInvariant events db) {permit : Permit}
    (hown : permit.fencingEpoch = db.fencing.epoch) (hh : db.fencing.held now = true) :
    FencingInvariant (events ++ [.granted permit db.fencing now]) db := by
  refine ⟨?_, ?_, ?_⟩
  · intro epoch hm
    rw [List.mem_append, List.mem_singleton] at hm
    rcases hm with ho | hn
    · exact hi.acquired_le epoch ho
    · cases hn
  · intro other fencing grantedAt hm
    rw [List.mem_append, List.mem_singleton] at hm
    rcases hm with ho | hn
    · exact hi.fenced.current other fencing grantedAt ho
    · cases hn
      exact ⟨hown, hh⟩
  · rw [List.pairwise_append]
    refine ⟨hi.fenced.monotone, List.pairwise_singleton _ _, ?_⟩
    intro earlier he later hl epoch other fencing grantedAt ha hg
    rw [List.mem_singleton] at hl
    cases hl.symm.trans hg
    rw [hown]
    exact hi.acquired_le epoch (ha ▸ he)

theorem RateRun.invariant (hr : RateRun OwnEpoch events db now) : FencingInvariant events db := by
  induction hr with
  | start _ _ =>
    refine ⟨?_, ?_, List.Pairwise.nil⟩
    · intro epoch hm
      cases hm
    · intro permit fencing grantedAt hm
      cases hm
  | acquire _ _ hc ih =>
    rcases acquireFencingLease_epoch hc with ⟨he, hep⟩ | ⟨he, hep⟩
    · rw [he, List.append_nil]
      refine ⟨?_, ih.fenced⟩
      rw [hep]
      exact ih.acquired_le
    · rw [he]
      exact ih.acquire hep
  | reserve _ _ _ hc ih => exact ih.of_fencing_eq (reservePermitV2_fencing hc)
  | consume _ _ ho hc ih =>
    obtain ⟨hf, he | ⟨permit, hp, ha, he⟩⟩ := consumePermitV2_events hc
    · rw [he, List.append_nil]
      exact ih.of_fencing_eq hf
    · rw [he]
      rw [FencingState.admits, ho permit hp, sqlNe, Option.any_some, Bool.and_eq_true,
        Bool.not_eq_true', decide_eq_false_iff_not, not_not] at ha
      exact (ih.grant ha.1 ha.2).of_fencing_eq hf
  | elsewhere _ hf _ ih => exact ih.of_fencing_eq hf

/-- As long as every consumption asks for the epoch its permit was reserved under, a
takeover ends all permits of the epochs before it. -/
theorem fenced_of_ownEpoch (hrun : RateRun OwnEpoch events db now) : Fenced events :=
  hrun.invariant.fenced

end Invariant

section Takeover

def takeoverBinding : PermitBinding where
  subjectCallerService := "copy-executor"
  subjectCallerInstanceId := "executor-1"
  environment := "TESTNET"
  gatewayConnectionId := none
  endpointAuthority := "testnet.binancefuture.com"
  endpointId := "PLACE_ORDER"
  endpointCatalogHash := "catalog"
  canonicalRequestHash := "canonical"
  parameterHash := "parameter"
  wireBytesHash := "wire"
  operationFactsHash := "facts"
  capabilityPayloadHash := "capability"
  gatewayRequestDocumentHash := "document"

def takeoverReserve : ReserveRequest where
  permitId := "permit-1"
  requestKey := "request-1"
  binding := takeoverBinding
  derivedOperationClass := "ENTRY"
  capabilityNonce := "nonce-1"
  fencingEpoch := 2
  expiresAt := 5500000

/-- The permit's own request, with the epoch the caller puts into the binding. -/
def takeoverConsume (epoch : ℤ) : ConsumeRequest where
  permitId := some "permit-1"
  subjectService := some "copy-executor"
  subjectInstance := some "executor-1"
  environment := some "TESTNET"
  endpointAuthority := some "testnet.binancefuture.com"
  endpointId := some "PLACE_ORDER"
  gatewayConnectionId := none
  catalogHash := some "catalog"
  canonicalHash := some "canonical"
  parameterHash := some "parameter"
  wireHash := some "wire"
  operationFactsHash := some "facts"
  capabilityHash := some "capability"
  documentHash := some "document"
  fencingEpoch := some epoch
  gatewayInstanceId := some "gateway-1"

def policedDatabase : Database where
  windows := [⟨1, "testnet.binancefuture.com", "scope", "REQUEST_WEIGHT", "MINUTE", 0, 60000000,
    0, 0, 2400, none⟩]
  policies := [⟨"testnet.binancefuture.com", "PLACE_ORDER", "catalog", true, ["copy-executor"],
    ["ENTRY"], [("ENTRY", some [⟨"REQUEST_WEIGHT", "scope", "MINUTE", 1, 1200⟩])], true, 0,
    60000000⟩]

def firstLease : LeaseReply × Database :=
  policedDatabase.acquireFencingLease ⟨some "rate-1", some 1, some 1⟩ 0

def reservedPermit : ReserveReply × Database :=
  okValue (firstLease.2.reservePermitV2 takeoverReserve 500000 500000) (by decide)

def secondLease : LeaseReply × Database :=
  reservedPermit.2.acquireFencingLease ⟨some "rate-2", some 2, some 60⟩ 2000000

def ownConsume : ConsumeReply × Database :=
  reservedPermit.2.consumePermitV2 (takeoverConsume 2) 600000

def staleConsume : ConsumeReply × Database :=
  secondLease.2.consumePermitV2 (takeoverConsume 3) 3000000

theorem rateRun_reservedPermit {allowed : Database → ConsumeRequest → Prop} :
    RateRun allowed [.acquired 2] reservedPermit.2 500000 := by
  have hs : RateRun allowed [] policedDatabase 0 := .start rfl rfl
  have hc : policedDatabase.acquireFencingLease ⟨some "rate-1", some 1, some 1⟩ 0 =
      (firstLease.1, firstLease.2) := rfl
  have hl : RateRun allowed ([] ++ firstLease.1.events) firstLease.2 0 :=
    hs.acquire le_rfl hc
  have hr : firstLease.2.reservePermitV2 takeoverReserve 500000 500000 =
      .ok reservedPermit := eq_ok_okValue _
  exact RateRun.reserve hl (by decide) le_rfl hr

theorem own_epoch_grant_fenced : ownConsume.1.granted = true ∧
      Fenced ([.acquired 2] ++
        ownConsume.1.events reservedPermit.2 (takeoverConsume 2) 600000) := by
  refine ⟨by decide, ?_⟩
  have ho : OwnEpoch reservedPermit.2 (takeoverConsume 2) := by
    intro permit hp
    have hs : reservedPermit.2.permitNamed (takeoverConsume 2) =
        some (takeoverReserve.permit 500000) := by decide
    rw [hs] at hp
    cases hp
    rfl
  have hc : reservedPermit.2.consumePermitV2 (takeoverConsume 2) 600000 =
      (ownConsume.1, ownConsume.2) := rfl
  exact fenced_of_ownEpoch (rateRun_reservedPermit.consume (by decide) ho hc)

/-- After the takeover the permit of epoch 2 is granted to a caller that asks for
epoch 3. -/
theorem stale_permit_granted_after_takeover :
    ¬ ∀ (events : List FencingEvent) (db : Database) (now : Time),
        RateRun (fun _ _ => True) events db now → Fenced events := by
  intro hcl
  have hl : reservedPermit.2.acquireFencingLease ⟨some "rate-2", some 2, some 60⟩ 2000000 =
      (secondLease.1, secondLease.2) := rfl
  have hca : secondLease.2.consumePermitV2 (takeoverConsume 3) 3000000 =
      (staleConsume.1, staleConsume.2) := rfl
  have ht : RateRun (fun _ _ => True) ([.acquired 2] ++ secondLease.1.events)
      secondLease.2 2000000 := rateRun_reservedPermit.acquire (by decide) hl
  have hc := ht.consume (by decide) trivial hca
  have hg := (hcl _ _ _ hc).current (takeoverReserve.permit 500000)
    ⟨3, "rate-2", some 62000000⟩ 3000000 (by decide)
  exact absurd hg.1 (by decide)

end Takeover

end AiQuant.RateControl
