import AiQuant.RateControl.Database

/-! Safety of the fencing lease.  `acquire_fencing_lease` journals its decisions in
`fencing_lease_events`; the invariant ties these rows to the single row of
`fencing_state`. -/
namespace AiQuant.RateControl

inductive LeaseEventType where
  | acquired | renewed | denied
deriving DecidableEq

/-- A row of `fencing_lease_events`, in the order of the event ids. -/
structure FencingLeaseEvent where
  allocatorInstanceId : String
  previousEpoch : ℤ
  resultingEpoch : ℤ
  eventType : LeaseEventType
  reasonCode : String
  leaseExpiresAt : Option Time

def LeaseReply.eventType (reply : LeaseReply) : LeaseEventType :=
  if reply.granted = false then .denied
  else if reply.reasonCode = "FENCING_LEASE_ACQUIRED" then .acquired
  else .renewed

def LeaseReply.journaled (reply : LeaseReply) (instanceId : String) (previous : FencingState) :
    List FencingLeaseEvent :=
  if reply.reasonCode = "FENCING_REQUEST_INVALID" then []
  else [{
    allocatorInstanceId := instanceId
    previousEpoch := previous.epoch
    resultingEpoch := reply.fencingEpoch
    eventType := reply.eventType
    reasonCode := reply.reasonCode
    leaseExpiresAt :=
      if reply.reasonCode = "FENCING_EPOCH_STALE" then none else reply.leaseExpiresAt }]

/-- The arguments of a call without nulls. -/
structure LeaseCall where
  allocatorInstanceId : String
  expectedPreviousEpoch : ℤ
  ttlSeconds : ℤ

def LeaseCall.request (call : LeaseCall) : LeaseRequest :=
  ⟨some call.allocatorInstanceId, some call.expectedPreviousEpoch, some call.ttlSeconds⟩

/-- The database with the journal of its lease. -/
structure LeaseStore where
  database : Database
  journal : List FencingLeaseEvent

def LeaseStore.acquire (store : LeaseStore) (call : LeaseCall) (now : Time) :
    LeaseReply × LeaseStore :=
  let (reply, after) := store.database.acquireFencingLease call.request now
  (reply, {
    database := after
    journal := store.journal ++ reply.journaled call.allocatorInstanceId store.database.fencing })

/-- Any sequence of lease calls with a clock that never goes back; what the other
procedures do between them leaves the lease alone. -/
inductive LeaseRun : LeaseStore → Time → Prop
  | start {database : Database} {now : Time}
      (hfencing : database.fencing = ⟨1, "UNINITIALIZED", none⟩) : LeaseRun ⟨database, []⟩ now
  | acquire {store : LeaseStore} {before now : Time} (hrun : LeaseRun store before)
      (hclock : before ≤ now) (call : LeaseCall) : LeaseRun (store.acquire call now).2 now
  | elsewhere {store : LeaseStore} {now : Time} (hrun : LeaseRun store now) {after : Database}
      (hfencing : after.fencing = store.database.fencing) :
      LeaseRun { store with database := after } now

section Call

variable {store : LeaseStore} {call : LeaseCall} {now : Time}

theorem LeaseStore.acquire_cases (store : LeaseStore) (call : LeaseCall) (now : Time) :
    ((store.acquire call now).1.granted = false ∧
      (store.acquire call now).2.database = store.database ∧
      ∀ ev ∈ (store.acquire call now).1.journaled call.allocatorInstanceId store.database.fencing,
        ev.eventType = .denied ∧ ev.resultingEpoch = store.database.fencing.epoch) ∨
    (store.database.fencing.held now = true ∧
      store.database.fencing.allocatorInstanceId = call.allocatorInstanceId ∧
      (store.acquire call now).1 = ⟨true, "FENCING_LEASE_RENEWED", store.database.fencing.epoch,
        some (now + 1000000 * call.ttlSeconds)⟩ ∧
      (store.acquire call now).2.database.fencing = { store.database.fencing with
        leaseExpiresAt := some (now + 1000000 * call.ttlSeconds) }) ∨
    (store.database.fencing.held now = false ∧
      (store.acquire call now).1 = ⟨true, "FENCING_LEASE_ACQUIRED",
        store.database.fencing.epoch + 1, some (now + 1000000 * call.ttlSeconds)⟩ ∧
      (store.acquire call now).2.database.fencing = ⟨store.database.fencing.epoch + 1,
        call.allocatorInstanceId, some (now + 1000000 * call.ttlSeconds)⟩) := by
  dsimp only [LeaseStore.acquire, Database.acquireFencingLease, LeaseCall.request]
  split
  · left
    simp [LeaseReply.journaled]
  split
  · left
    simp [LeaseReply.journaled, LeaseReply.eventType]
  split
  · rename_i hh
    split
    · left
      simp [LeaseReply.journaled, LeaseReply.eventType]
    · rename_i hholder
      exact Or.inr (Or.inl ⟨hh, not_not.mp hholder, rfl, rfl⟩)
  · rename_i hh
    exact Or.inr (Or.inr ⟨Bool.eq_false_iff.mpr hh, rfl, rfl⟩)

theorem LeaseStore.acquire_journal (store : LeaseStore) (call : LeaseCall) (now : Time) :
    (store.acquire call now).2.journal = store.journal ++
      (store.acquire call now).1.journaled call.allocatorInstanceId store.database.fencing :=
  rfl

end Call

/-- A granted row of the journal gives an instance the lease of its epoch until the
row's expiry. -/
def LeaseStore.Holds (store : LeaseStore) (instanceId : String) (instant : Time) : Prop :=
  ∃ event ∈ store.journal, event.eventType ≠ .denied ∧ event.allocatorInstanceId = instanceId ∧
    event.resultingEpoch = store.database.fencing.epoch ∧
    event.leaseExpiresAt.any (instant < ·) = true

/-- The epochs of the `ACQUIRED` rows. -/
def LeaseStore.acquiredEpochs (store : LeaseStore) : List ℤ :=
  (store.journal.filter (·.eventType = .acquired)).map (·.resultingEpoch)

structure LeaseInvariant (store : LeaseStore) : Prop where
  epoch_le : ∀ event ∈ store.journal, event.resultingEpoch ≤ store.database.fencing.epoch
  holder : ∀ event ∈ store.journal, event.eventType ≠ .denied →
    event.resultingEpoch = store.database.fencing.epoch →
      event.allocatorInstanceId = store.database.fencing.allocatorInstanceId
  acquired : store.acquiredEpochs.Pairwise (· < ·)

theorem LeaseInvariant.acquire {store : LeaseStore} (hi : LeaseInvariant store)
    (call : LeaseCall) (now : Time) : LeaseInvariant (store.acquire call now).2 := by
  obtain ⟨hep, hh, ha⟩ := hi
  have hj := store.acquire_journal call now
  rcases store.acquire_cases call now with ⟨-, hd, hro⟩ |
    ⟨-, hs, hr, hf⟩ | ⟨-, hr, hf⟩
  · have hn : ((store.acquire call now).1.journaled call.allocatorInstanceId
        store.database.fencing).filter (·.eventType = .acquired) = [] := by
      rw [List.filter_eq_nil_iff]
      intro ev hm
      simp [(hro ev hm).1]
    refine ⟨?_, ?_, ?_⟩
    · rw [hd, hj]
      intro ev hm
      rcases List.mem_append.mp hm with ho | hnew
      · exact hep ev ho
      · exact (hro ev hnew).2.le
    · rw [hd, hj]
      intro ev hm hg
      rcases List.mem_append.mp hm with ho | hnew
      · exact hh ev ho hg
      · exact absurd (hro ev hnew).1 hg
    · rw [LeaseStore.acquiredEpochs, hj, List.filter_append, hn, List.append_nil]
      exact ha
  · rw [hr] at hj
    refine ⟨?_, ?_, ?_⟩
    · rw [hf, hj]
      intro ev hm
      rcases List.mem_append.mp hm with ho | hnew
      · exact hep ev ho
      · rw [List.mem_singleton.mp hnew]
    · rw [hf, hj]
      intro ev hm hg hc
      rcases List.mem_append.mp hm with ho | hnew
      · exact hh ev ho hg hc
      · rw [List.mem_singleton.mp hnew]
        exact hs.symm
    · rw [LeaseStore.acquiredEpochs, hj, List.filter_append]
      simpa [LeaseReply.journaled, LeaseReply.eventType, LeaseStore.acquiredEpochs] using ha
  · rw [hr] at hj
    -- every earlier row is of an earlier epoch
    have he : ∀ ev ∈ store.journal, ev.resultingEpoch < store.database.fencing.epoch + 1 := by
      intro ev hm
      have := hep ev hm
      omega
    refine ⟨?_, ?_, ?_⟩
    · rw [hf, hj]
      intro ev hm
      rcases List.mem_append.mp hm with ho | hnew
      · exact (he ev ho).le
      · rw [List.mem_singleton.mp hnew]
    · rw [hf, hj]
      intro ev hm _ hc
      rcases List.mem_append.mp hm with ho | hnew
      · exact absurd hc (he ev ho).ne
      · rw [List.mem_singleton.mp hnew]
    · rw [LeaseStore.acquiredEpochs, hj, List.filter_append, List.map_append, List.pairwise_append]
      refine ⟨ha, by simp [LeaseReply.journaled, LeaseReply.eventType], ?_⟩
      intro epoch ho last hl
      obtain ⟨ev, hm, rfl⟩ := List.mem_map.mp ho
      simp only [LeaseReply.journaled, LeaseReply.eventType, String.reduceEq, if_false,
        Bool.true_eq_false, if_true, List.filter_cons, decide_true, List.filter_nil,
        List.map_cons, List.map_nil, List.mem_singleton] at hl
      rw [hl]
      exact he ev (List.mem_filter.mp hm).1

theorem LeaseRun.invariant {store : LeaseStore} {now : Time} (hr : LeaseRun store now) :
    LeaseInvariant store := by
  induction hr with
  | start _ => exact ⟨by simp, by simp, by simp [LeaseStore.acquiredEpochs]⟩
  | acquire _ _ call ih => exact ih.acquire call _
  | elsewhere _ hfencing ih =>
    refine ⟨?_, ?_, ih.acquired⟩
    · rw [hfencing]
      exact ih.epoch_le
    · rw [hfencing]
      exact ih.holder

/-- What one call leaves of the lease. -/
structure LeaseStep (store : LeaseStore) (call : LeaseCall) (now : Time) : Prop where
  epoch : (store.acquire call now).2.database.fencing.epoch = store.database.fencing.epoch +
    if (store.acquire call now).1.eventType = .acquired then 1 else 0
  takeover : (store.acquire call now).1.granted = true →
    store.database.fencing.allocatorInstanceId ≠ call.allocatorInstanceId →
      ∀ expiry ∈ store.database.fencing.leaseExpiresAt, expiry ≤ now
  denied : (store.acquire call now).1.granted = false →
    (store.acquire call now).2.database.fencing = store.database.fencing

theorem leaseStep (store : LeaseStore) (call : LeaseCall) (now : Time) :
    LeaseStep store call now := by
  rcases store.acquire_cases call now with ⟨hde, hd, -⟩ |
    ⟨-, hs, hr, hf⟩ | ⟨hfr, hr, hf⟩
  · refine ⟨?_, ?_, ?_⟩
    · rw [hd]
      simp [LeaseReply.eventType, hde]
    · simp [hde]
    · rw [hd]
      exact fun _ => rfl
  · refine ⟨?_, fun _ ho => absurd hs ho, ?_⟩
    · rw [hf, hr]
      simp [LeaseReply.eventType]
    · simp [hr]
  · refine ⟨?_, fun _ _ expiry he => ?_, ?_⟩
    · rw [hf, hr]
      simp [LeaseReply.eventType]
    · rw [FencingState.held, Option.mem_def.mp he] at hfr
      simpa using hfr
    · simp [hr]

/-- Safety of the lease over every run: each call moves the epoch by one exactly when it
acquires, takes the lease from another instance only after its expiry and leaves it
alone when it is denied; at most one instance holds the lease of the current epoch; and
the acquired epochs strictly increase. -/
theorem fencing_lease_safe {store : LeaseStore} {pre : Time} (hrun : LeaseRun store pre) :
    (∀ (call : LeaseCall) (now : Time), pre ≤ now → LeaseStep store call now) ∧
      (∀ (left right : String) (instant : Time), store.Holds left instant →
        store.Holds right instant → left = right) ∧
      store.acquiredEpochs.Pairwise (· < ·) := by
  have hi := hrun.invariant
  refine ⟨fun call now _ => leaseStep store call now, ?_, hi.acquired⟩
  rintro left right instant ⟨ev, hm, hgr, rfl, hcu, -⟩ ⟨other, ho, hg, rfl, hc, -⟩
  rw [hi.holder ev hm hgr hcu, hi.holder other ho hg hc]

/-- Two instances after each other, with a renewal and a refusal between them. -/
def handedOver : LeaseStore :=
  let first := ((⟨{}, []⟩ : LeaseStore).acquire ⟨"rate-1", 1, 60⟩ 0).2
  let renewed := (first.acquire ⟨"rate-1", 2, 60⟩ 30000000).2
  let refused := (renewed.acquire ⟨"rate-2", 2, 60⟩ 60000000).2
  (refused.acquire ⟨"rate-2", 2, 60⟩ 90000000).2

theorem leaseRun_handedOver : LeaseRun handedOver 90000000 := by
  have hs : LeaseRun ⟨{}, []⟩ 0 := .start rfl
  have hf := hs.acquire (show (0 : ℤ) ≤ 0 by decide) ⟨"rate-1", 1, 60⟩
  have hr := hf.acquire (show (0 : ℤ) ≤ 30000000 by decide) ⟨"rate-1", 2, 60⟩
  have hre := hr.acquire (show (30000000 : ℤ) ≤ 60000000 by decide) ⟨"rate-2", 2, 60⟩
  exact hre.acquire (show (60000000 : ℤ) ≤ 90000000 by decide) ⟨"rate-2", 2, 60⟩

theorem handed_over_lease_safe :
    handedOver.acquiredEpochs = [2, 3] ∧ handedOver.journal.length = 4 ∧
      ∀ (left right : String) (instant : Time), handedOver.Holds left instant →
        handedOver.Holds right instant → left = right :=
  ⟨by decide, by decide, (fencing_lease_safe leaseRun_handedOver).2.1⟩

end AiQuant.RateControl
