import AiQuant.UserStream.EventJournal
import Mathlib.Data.List.Count

/-! A journal whose process is stopped between two file operations and started again on the same
two files.  The evidence of an event and the state that counts it are written one after the other,
and a process that is stopped in between leaves a pair that the constructor refuses. -/
namespace AiQuant.UserStream
open AiQuant.Lib

structure Journal.Matches (journal : Journal) (records : List EvidenceRecord) : Prop where
  seen_eq : journal.seen = (records.map (·.content.stableEventId)).toFinset
  nodup : (records.map (·.content.stableEventId)).Nodup
  accepted_eq : journal.state.acceptedEventCount = records.length
  counts_eq : ∀ eventType, (journal.state.eventTypeCounts.lookup eventType).getD 0 =
    records.countP (·.content.rawEventType = eventType)
  last_eq : journal.lastRecordSha256 = (records.getLast?.map (·.recordSha256)).getD zeroSha256
  state_last_eq : journal.state.lastRecordSha256 = journal.lastRecordSha256

structure Host where
  disk : Disk
  journal : Option Journal

/-- A call that completes, or one that is stopped after some of its file operations; the process
is then started again. -/
inductive HostStep where
  | call (call : JournalCall) (clock : Clock)
  | crash (call : JournalCall) (clock : Clock) (performed : ℕ) (restart : Clock)

section Runs

variable (hashing : Hashing)

namespace Host

def start (disk : Disk) (clock : Clock) : Host :=
  match openJournal hashing disk clock with
  | .ok (journal, opened) => ⟨opened, some journal⟩
  | .error _ => ⟨disk, none⟩

def fresh (clock : Clock) : Host :=
  start hashing ⟨none, none⟩ clock

def crashed (host : Host) (call : JournalCall) (clock : Clock) (performed : ℕ) : Disk :=
  match host.journal with
  | none => host.disk
  | some journal =>
    host.disk.performAll ((journal.call hashing clock call).operations.take performed)

def step (host : Host) : HostStep → Host
  | .call call clock =>
    match host.journal with
    | none => host
    | some journal =>
      let outcome := journal.call hashing clock call
      ⟨host.disk.performAll outcome.operations, some outcome.journal⟩
  | .crash call clock performed restart =>
    start hashing (host.crashed hashing call clock performed) restart

def Recovers (host : Host) : HostStep → Prop
  | .call _ _ => True
  | .crash call clock performed restart =>
    ∃ journal disk, openJournal hashing (host.crashed hashing call clock performed) restart =
        .ok (journal, disk) ∧
      disk.records = (host.crashed hashing call clock performed).records ∧
      journal.Matches disk.records

/-- Every stop of a history is recovered from. -/
def Survives (host : Host) : List HostStep → Prop
  | [] => True
  | next :: rest => host.Recovers hashing next ∧ (host.step hashing next).Survives rest

end Host

def JournalCall.connects : JournalCall → ℕ
  | .noteConnected => 1
  | _ => 0

def JournalCall.attempts : JournalCall → ℕ
  | .noteConnectionAttempt => 1
  | _ => 0

def Journal.appends (journal : Journal) : JournalCall → Bool
  | .recordEvent document _ => journal.accepts hashing document
  | _ => false

def Host.Spared (host : Host) : HostStep → Prop
  | .call _ _ => True
  | .crash call _ performed _ => ∀ journal, host.journal = some journal →
    ¬ (performed = 1 ∧ journal.appends hashing call = true) ∧
      if performed = 0 then
        journal.state.connectionCount ≤ journal.state.connectionAttemptCount
      else journal.state.connectionCount + call.connects ≤
        journal.state.connectionAttemptCount + call.attempts

def Host.AllSpared (host : Host) : List HostStep → Prop
  | [] => True
  | next :: rest => host.Spared hashing next ∧ (host.step hashing next).AllSpared rest

variable {hashing}

theorem verifyUserDataEvidence_concat (records : List EvidenceRecord) (record : EvidenceRecord) :
    verifyUserDataEvidence hashing (records ++ [record]) =
      (verifyUserDataEvidence hashing records).bind fun summary =>
        verifyRecord hashing summary record := by
  unfold verifyUserDataEvidence
  rw [List.foldlM_append]
  simp only [List.foldlM_cons, List.foldlM_nil, bind_pure]
  rfl

theorem countType_lookup (counts : Counts) (eventType other : String) :
    ((countType counts eventType).lookup other).getD 0 =
      (counts.lookup other).getD 0 + if eventType = other then 1 else 0 := by
  unfold countType
  by_cases hs : other = eventType
  · subst hs
    simp
  · simp [hs, Ne.symm hs]

/-- A summary says of the records what a reader counts. -/
structure EvidenceSummary.Describes (summary : EvidenceSummary) (records : List EvidenceRecord) :
    Prop where
  seen_eq : summary.seen = (records.map (·.content.stableEventId)).toFinset
  nodup : (records.map (·.content.stableEventId)).Nodup
  count_eq : summary.recordCount = records.length
  counts_eq : ∀ eventType, (summary.eventTypeCounts.lookup eventType).getD 0 =
    records.countP (·.content.rawEventType = eventType)
  final_eq : summary.finalRecordSha256 =
    (records.getLast?.map (·.recordSha256)).getD zeroSha256

theorem verifyUserDataEvidence_describes {records : List EvidenceRecord}
    {summary : EvidenceSummary} (hv : verifyUserDataEvidence hashing records = .ok summary) :
    summary.Describes records := by
  induction records using List.reverseRecOn generalizing summary with
  | nil =>
    obtain rfl := Except.ok.inj hv
    exact ⟨rfl, List.nodup_nil, rfl, fun _ => rfl, rfl⟩
  | append_singleton records record ih =>
    rw [verifyUserDataEvidence_concat] at hv
    cases hp : verifyUserDataEvidence hashing records with
    | error failure =>
      rw [hp] at hv
      cases hv
    | ok prev =>
      have hd := ih hp
      rw [hp] at hv
      change verifyRecord hashing prev record = .ok summary at hv
      unfold verifyRecord at hv
      dsimp only at hv
      split_ifs at hv with hc hl hm hs
      rw [not_or, not_not, not_not] at hl
      obtain rfl := Except.ok.inj hv
      rw [hd.seen_eq, List.mem_toFinset] at hs
      refine ⟨?_, ?_, ?_, fun eventType => ?_, ?_⟩
      · rw [hd.seen_eq]
        ext id
        simp
      · rw [List.map_append, List.nodup_append]
        refine ⟨hd.nodup, by simp, ?_⟩
        rintro id hid other ho rfl
        rw [List.map_singleton, List.mem_singleton] at ho
        exact hs (ho ▸ hid)
      · simp [hd.count_eq]
      · rw [countType_lookup, hd.counts_eq, List.countP_append, List.countP_singleton]
        simp
      · simp [hl.2]

namespace Journal

variable {journal : Journal} {disk : Disk} {clock : Clock}

def summary (journal : Journal) : EvidenceSummary where
  recordCount := journal.state.acceptedEventCount
  eventTypeCounts := journal.state.eventTypeCounts
  finalRecordSha256 := journal.lastRecordSha256
  seen := journal.seen

/-- The journal's own fields are in order and agree with the evidence. -/
structure Coherent (hashing : Hashing) (disk : Disk) (journal : Journal) : Prop where
  verified : verifyUserDataEvidence hashing disk.records = .ok journal.summary
  last_eq : journal.state.lastRecordSha256 = journal.lastRecordSha256
  sha256 : isSha256 journal.lastRecordSha256 = true
  bounded : journal.state.bounded = true
  status : journal.state.status ∈ ["STARTING", "RUNNING", "STOPPED"]
  reconnect_le : journal.state.reconnectCount ≤ journal.state.connectionAttemptCount

structure Sound (hashing : Hashing) (disk : Disk) (journal : Journal) : Prop
    extends Coherent hashing disk journal where
  state_eq : disk.state = some journal.state

theorem Coherent.matches (hc : journal.Coherent hashing disk) : journal.Matches disk.records := by
  have hd := verifyUserDataEvidence_describes hc.verified
  exact ⟨hd.seen_eq, hd.nodup, hd.count_eq, hd.counts_eq, hd.final_eq, hc.last_eq⟩

theorem Coherent.writeState (hc : journal.Coherent hashing disk) (result : Bool) :
    (journal.writeState result clock).journal.Sound hashing
      (disk.performAll (journal.writeState result clock).operations) where
  verified := hc.verified
  last_eq := hc.last_eq
  sha256 := hc.sha256
  bounded := hc.bounded
  status := hc.status
  reconnect_le := hc.reconnect_le
  state_eq := rfl

theorem verifyRecord_contentOf {eventType : String} {doc : Fields} {summary : EvidenceSummary}
    (hty : eventType ∈ allowedUserEventTypes) (ht : (get doc "E").isInt = true)
    (hc : fieldsCanonical (sanitizeEvent hashing.lower doc) = true)
    (hn : hashing.event (sanitizeEvent hashing.lower doc) ∉ summary.seen) (received : String) :
    verifyRecord hashing summary
        ⟨contentOf hashing eventType doc received, summary.finalRecordSha256,
          hashing.record (contentOf hashing eventType doc received) summary.finalRecordSha256⟩ =
      .ok {
        recordCount := summary.recordCount + 1
        eventTypeCounts := countType summary.eventTypeCounts eventType
        finalRecordSha256 := hashing.record (contentOf hashing eventType doc received)
          summary.finalRecordSha256
        seen := insert (hashing.event (sanitizeEvent hashing.lower doc)) summary.seen } := by
  have hte : (contentOf hashing eventType doc received).canonical = true :=
    Bool.and_eq_true_iff.mpr ⟨Json.canonical_of_isInt ht, hc⟩
  have hm : (contentOf hashing eventType doc received).meaningful hashing = true := by
    simp [EventContent.meaningful, contentOf, hty, ht]
  unfold verifyRecord
  dsimp only
  rw [if_neg (by simp [hte]), if_neg (by simp), if_neg (by simp [hm]),
    if_neg (by exact hn)]
  rfl

theorem Coherent.recordAllowed {eventType : String} {doc : Fields}
    (hc : journal.Coherent hashing disk) (receivedAt : Option String) (clock : Clock)
    (hty : eventType ∈ allowedUserEventTypes) (ht : (get doc "E").isInt = true)
    (hca : fieldsCanonical (sanitizeEvent hashing.lower doc) = true)
    (hn : hashing.event (sanitizeEvent hashing.lower doc) ∉ journal.seen) :
    ∃ (record : EvidenceRecord) (next : Journal),
      next.Coherent hashing (disk.perform (.appendEvidence record)) ∧
      journal.recordAllowed hashing eventType doc receivedAt clock =
        { next.writeState true clock with
          operations := .appendEvidence record :: (next.writeState true clock).operations } ∧
      next.state.connectionCount = journal.state.connectionCount ∧
      next.state.connectionAttemptCount = journal.state.connectionAttemptCount := by
  unfold Journal.recordAllowed
  rw [if_neg (by simp [hca]), if_neg hn]
  refine ⟨_, _, ?_, rfl, rfl, rfl⟩
  refine ⟨?_, rfl, hashing.record_sha256 _ _, hc.bounded, hc.status, hc.reconnect_le⟩
  change verifyUserDataEvidence hashing (disk.records ++ [_]) = _
  rw [verifyUserDataEvidence_concat, hc.verified]
  exact @verifyRecord_contentOf hashing _ _ journal.summary hty ht hca hn _

inductive CallCases (hashing : Hashing) (disk : Disk) (journal : Journal) (clock : Clock)
    (call : JournalCall) : Outcome → Prop
  | refused {failure : JournalError} (hconnects : call.connects = 0) (hattempts : call.attempts = 0)
      (happends : journal.appends hashing call = false) :
      CallCases hashing disk journal clock call ⟨.error failure, journal, []⟩
  | written {next : Journal} {result : Bool} (hnext : next.Coherent hashing disk)
      (hconnection : next.state.connectionCount = journal.state.connectionCount + call.connects)
      (hattempt : next.state.connectionAttemptCount =
        journal.state.connectionAttemptCount + call.attempts)
      (happends : journal.appends hashing call = false) :
      CallCases hashing disk journal clock call (next.writeState result clock)
  | recorded {next : Journal} {record : EvidenceRecord}
      (hnext : next.Coherent hashing (disk.perform (.appendEvidence record)))
      (hconnection : next.state.connectionCount = journal.state.connectionCount + call.connects)
      (hattempt : next.state.connectionAttemptCount =
        journal.state.connectionAttemptCount + call.attempts)
      (happends : journal.appends hashing call = true) :
      CallCases hashing disk journal clock call
        { next.writeState true clock with
          operations := .appendEvidence record :: (next.writeState true clock).operations }

theorem recordInvalid_cases (hco : journal.Coherent hashing disk) {call : JournalCall}
    (hc : call.connects = 0) (ha : call.attempts = 0) (hap : journal.appends hashing call = false) :
    CallCases hashing disk journal clock call (journal.recordInvalid clock) := by
  have hn : Coherent hashing disk
      { journal with state.invalidEventCount := journal.state.invalidEventCount + 1 } :=
    { hco with }
  exact .written hn (by simp [hc]) (by simp [ha]) hap

theorem recordEvent_cases (hc : journal.Coherent hashing disk) (doc : Fields)
    (receivedAt : Option String) :
    CallCases hashing disk journal clock (.recordEvent doc receivedAt)
      (journal.recordEvent hashing doc receivedAt clock) := by
  have ha : journal.appends hashing (.recordEvent doc receivedAt) =
      journal.accepts hashing doc := rfl
  unfold recordEvent
  cases ht : get doc "e" with
  | string eventType =>
    dsimp only
    split_ifs with hal
    · by_cases hca : fieldsCanonical (sanitizeEvent hashing.lower doc) = true
      · by_cases hs : hashing.event (sanitizeEvent hashing.lower doc) ∈ journal.seen
        · unfold Journal.recordAllowed
          rw [if_neg (by simp [hca]), if_pos hs]
          have hn : Coherent hashing disk { journal with
              state.duplicateEventCount := journal.state.duplicateEventCount + 1 } :=
            { hc with }
          refine .written hn rfl rfl ?_
          simp [ha, accepts, ht, hs]
        · obtain ⟨record, next, hn, hr, hco, hat⟩ :=
            hc.recordAllowed receivedAt clock hal.1 hal.2 hca hs
          rw [hr]
          refine .recorded hn hco hat ?_
          simp [ha, accepts, ht, hal.1, hal.2, hca, hs]
      · unfold Journal.recordAllowed
        rw [if_pos (by simpa using hca)]
        exact .refused rfl rfl (by simp [ha, accepts, ht, hca])
    · refine recordInvalid_cases hc rfl rfl ?_
      simp only [ha, accepts, ht, decide_eq_false_iff_not]
      exact fun hac => hal ⟨hac.1, hac.2.1⟩
  | array items => exact .refused rfl rfl (by simp [ha, accepts, ht])
  | object fields => exact .refused rfl rfl (by simp [ha, accepts, ht])
  | null => exact recordInvalid_cases hc rfl rfl (by simp [ha, accepts, ht])
  | boolean value =>
    exact recordInvalid_cases hc rfl rfl (by simp [ha, accepts, ht])
  | integer value =>
    exact recordInvalid_cases hc rfl rfl (by simp [ha, accepts, ht])
  | float text =>
    exact recordInvalid_cases hc rfl rfl (by simp [ha, accepts, ht])
  | nonFinite text =>
    exact recordInvalid_cases hc rfl rfl (by simp [ha, accepts, ht])

theorem call_cases (hc : journal.Coherent hashing disk) (call : JournalCall) (clock : Clock) :
    CallCases hashing disk journal clock call (journal.call hashing clock call) := by
  cases call with
  | markRunning => exact .written { hc with status := by simp } rfl rfl rfl
  | markStopped => exact .written { hc with status := by simp } rfl rfl rfl
  | noteConnectionAttempt =>
    refine .written { hc with reconnect_le := ?_ } rfl rfl rfl
    have hle := hc.reconnect_le
    dsimp only
    split_ifs
    · exact Nat.succ_le_succ hle
    · exact Nat.le_succ_of_le hle
  | noteConnected => exact .written { hc with } rfl rfl rfl
  | noteKeepalive => exact .written { hc with } rfl rfl rfl
  | noteError typeName => exact .written { hc with } rfl rfl rfl
  | recordEvent doc receivedAt => exact recordEvent_cases hc doc receivedAt

theorem Coherent.loadExisting (hc : journal.Coherent hashing disk) (updatedAt : String) :
    UserStream.loadExisting hashing disk (some journal.state) updatedAt = .ok journal := by
  have hv := hc.verified
  have hl := hc.last_eq
  unfold UserStream.loadExisting
  cases he : disk.evidence with
  | none =>
    rw [Disk.records, he] at hv
    have hem := Except.ok.inj hv
    have hs : ∅ = journal.seen := congrArg EvidenceSummary.seen hem
    have hz : zeroSha256 = journal.lastRecordSha256 :=
      congrArg EvidenceSummary.finalRecordSha256 hem
    dsimp only [Option.getD_some]
    rw [hs, hz]
  | some records =>
    rw [Disk.records, he, Option.getD_some] at hv
    have hsa : { journal.state with lastRecordSha256 := journal.lastRecordSha256 } =
        journal.state := by rw [← hl]
    dsimp only [Option.getD_some]
    rw [hv]
    change (if _ then _ else _) = _
    rw [if_neg (by simp [summary, hl])]
    dsimp only [summary]
    rw [if_pos Option.isSome_some]
    exact congrArg (fun st => Except.ok (⟨journal.seen, journal.lastRecordSha256, st⟩ :
      Journal)) hsa

theorem Sound.openJournal (hs : journal.Sound hashing disk) (clock : Clock) :
    (journal.state.connectionCount ≤ journal.state.connectionAttemptCount ∧
      ∃ (opened : Journal) (post : Disk), openJournal hashing disk clock = .ok (opened, post) ∧
        post.records = disk.records ∧ opened.Sound hashing post) ∨
    journal.state.connectionAttemptCount < journal.state.connectionCount ∧
      ∃ failure, openJournal hashing disk clock = .error failure := by
  have hsh : isSha256 journal.state.lastRecordSha256 = true := hs.last_eq ▸ hs.sha256
  rcases Nat.lt_or_ge journal.state.connectionAttemptCount journal.state.connectionCount with
    hm | hle
  · refine Or.inr ⟨hm, .stateCounters, ?_⟩
    have hc : journal.state.counted = false := by
      simp [StateDocument.counted, Nat.not_le.mpr hm]
    have hl : loadState disk = .error .stateCounters := by
      rw [loadState, hs.state_eq]
      simp [hs.bounded, hc]
    rw [UserStream.openJournal, hl]
    rfl
  · refine Or.inl ⟨hle, ?_⟩
    have hc : journal.state.counted = true := by
      simp only [StateDocument.counted, hs.status, hle, hs.reconnect_le, hsh,
        decide_true, Bool.and_self]
    have hl : loadState disk = .ok (some journal.state) := by
      rw [loadState, hs.state_eq]
      simp [hs.bounded, hc]
    refine ⟨(journal.writeState true clock).journal,
      disk.performAll (journal.writeState true clock).operations, ?_, rfl,
      hs.toCoherent.writeState true⟩
    rw [UserStream.openJournal, hl]
    change Except.bind (UserStream.loadExisting hashing disk (some journal.state) clock.now) _ = _
    rw [hs.toCoherent.loadExisting]
    rfl

theorem openJournal_torn {record : EvidenceRecord} {next : Journal}
    (hs : journal.Sound hashing disk)
    (hn : next.Coherent hashing (disk.perform (.appendEvidence record))) (clock : Clock) :
    ∃ failure, openJournal hashing (disk.perform (.appendEvidence record)) clock =
      .error failure := by
  unfold UserStream.openJournal
  cases hlo : loadState (disk.perform (.appendEvidence record)) with
  | error failure => exact ⟨failure, rfl⟩
  | ok loaded =>
    have hl : loaded = some journal.state := by
      have hst : (disk.perform (.appendEvidence record)).state = some journal.state :=
        hs.state_eq
      rw [loadState, hst] at hlo
      dsimp only at hlo
      split_ifs at hlo
      exact (Except.ok.inj hlo).symm
    subst hl
    refine ⟨.stateMismatch, ?_⟩
    have hc : next.state.acceptedEventCount = journal.state.acceptedEventCount + 1 := by
      rw [hn.matches.accepted_eq, hs.matches.accepted_eq]
      exact List.length_append
    have hv : verifyUserDataEvidence hashing (disk.records ++ [record]) =
      .ok next.summary := hn.verified
    have he : loadExisting hashing (disk.perform (.appendEvidence record))
        (some journal.state) clock.now = .error .stateMismatch := by
      unfold loadExisting
      dsimp only [Disk.perform, Option.getD_some]
      rw [hv]
      change (if _ then _ else _) = _
      rw [if_pos ⟨rfl, Or.inl (by simp [summary, hc])⟩]
    change Except.bind (loadExisting hashing _ (some journal.state) clock.now) _ = _
    rw [he]
    rfl

end Journal

namespace Host

variable {host : Host}

def Running (hashing : Hashing) (host : Host) : Prop :=
  ∃ journal, host.journal = some journal ∧ journal.Sound hashing host.disk

theorem isSha256_zero : isSha256 zeroSha256 = true := by
  decide

theorem fresh_running (clock : Clock) : (fresh hashing clock).Running hashing := by
  have hi : (⟨∅, zeroSha256, initialState clock.now⟩ : Journal).Coherent hashing ⟨none, none⟩ := by
    refine ⟨rfl, rfl, isSha256_zero, rfl, by simp [initialState], le_rfl⟩
  exact ⟨_, rfl, hi.writeState true⟩

theorem step_call_running (hr : host.Running hashing) (call : JournalCall) (clock : Clock) :
    (host.step hashing (.call call clock)).Running hashing := by
  obtain ⟨journal, hj, hs⟩ := hr
  have hc := Journal.call_cases hs.toCoherent call clock
  unfold step
  rw [hj]
  dsimp only
  refine ⟨_, rfl, ?_⟩
  dsimp only
  generalize journal.call hashing clock call = outcome at hc ⊢
  cases hc with
  | refused hconnects hattempts happends => exact hs
  | written hnext hconnection hattempt happends => exact hnext.writeState _
  | recorded hnext hconnection hattempt happends => exact hnext.writeState true

variable {journal : Journal} {call : JournalCall} {clock : Clock} {performed : ℕ}

theorem restart_of_sound {disk : Disk} (hc : host.crashed hashing call clock performed = disk)
    (hs : journal.Sound hashing disk) (restart : Clock) :
    (journal.state.connectionCount ≤ journal.state.connectionAttemptCount ∧
      host.Recovers hashing (.crash call clock performed restart) ∧
      (host.step hashing (.crash call clock performed restart)).Running hashing) ∨
    journal.state.connectionAttemptCount < journal.state.connectionCount ∧
      ¬ host.Recovers hashing (.crash call clock performed restart) := by
  unfold Recovers step
  dsimp only
  rw [hc, start]
  rcases hs.openJournal restart with
    ⟨hle, opened, post, hop, hr, ha⟩ | ⟨hm, failure, hop⟩
  · rw [hop]
    exact Or.inl ⟨hle, ⟨opened, post, rfl, hr, ha.matches⟩, opened, rfl, ha⟩
  · rw [hop]
    refine Or.inr ⟨hm, ?_⟩
    rintro ⟨opened, post, ho, -⟩
    cases ho

theorem spared_crash_iff {restart : Clock} (hj : host.journal = some journal) :
    host.Spared hashing (.crash call clock performed restart) ↔
      ¬ (performed = 1 ∧ journal.appends hashing call = true) ∧
        if performed = 0 then
          journal.state.connectionCount ≤ journal.state.connectionAttemptCount
        else journal.state.connectionCount + call.connects ≤
          journal.state.connectionAttemptCount + call.attempts := by
  refine ⟨fun ha => ha journal hj, fun hh other ho => ?_⟩
  rw [hj] at ho
  obtain rfl := Option.some.inj ho
  exact hh

theorem step_crash_of_kept {kept : Journal} {restart : Clock} (hj : host.journal = some journal)
    (hk : kept.Sound hashing (host.crashed hashing call clock performed))
    (ht : ¬ (performed = 1 ∧ journal.appends hashing call = true))
    (hc : kept.state.connectionCount ≤ kept.state.connectionAttemptCount ↔
      if performed = 0 then
        journal.state.connectionCount ≤ journal.state.connectionAttemptCount
      else journal.state.connectionCount + call.connects ≤
        journal.state.connectionAttemptCount + call.attempts) :
    host.Spared hashing (.crash call clock performed restart) ∧
        host.Recovers hashing (.crash call clock performed restart) ∧
        (host.step hashing (.crash call clock performed restart)).Running hashing ∨
      ¬ host.Spared hashing (.crash call clock performed restart) ∧
        ¬ host.Recovers hashing (.crash call clock performed restart) := by
  rw [spared_crash_iff hj, ← hc]
  exact (restart_of_sound rfl hk restart).imp (fun hh => ⟨⟨ht, hh.1⟩, hh.2⟩)
    fun hl => ⟨fun hh => absurd hh.2 (Nat.not_le.mpr hl.1), hl.2⟩

theorem step_crash (hr : host.Running hashing) (call : JournalCall) (clock : Clock)
    (performed : ℕ) (restart : Clock) : host.Spared hashing (.crash call clock performed restart) ∧
        host.Recovers hashing (.crash call clock performed restart) ∧
        (host.step hashing (.crash call clock performed restart)).Running hashing ∨
      ¬ host.Spared hashing (.crash call clock performed restart) ∧
        ¬ host.Recovers hashing (.crash call clock performed restart) := by
  obtain ⟨journal, hj, hs⟩ := hr
  have hc : host.crashed hashing call clock performed =
      host.disk.performAll ((journal.call hashing clock call).operations.take performed) := by
    rw [crashed, hj]
  have hca := Journal.call_cases hs.toCoherent call clock
  generalize journal.call hashing clock call = outcome at hca hc
  cases performed with
  | zero =>
    have hk : journal.Sound hashing (host.crashed hashing call clock 0) := by
      rw [hc]
      exact hs
    exact step_crash_of_kept hj hk (by simp) (by simp)
  | succ count =>
    cases hca with
    | refused hconnects hatt ha =>
      have hk : journal.Sound hashing (host.crashed hashing call clock (count + 1)) := by
        rw [hc]
        exact hs
      exact step_crash_of_kept hj hk (by simp [ha]) (by simp [hconnects, hatt])
    | @written next result hnext hco hat ha =>
      have hk : (next.writeState result clock).journal.Sound hashing
          (host.crashed hashing call clock (count + 1)) := by
        rw [hc, List.take_of_length_le (by simp [Journal.writeState])]
        exact hnext.writeState _
      exact step_crash_of_kept hj hk (by simp [ha]) (by simp [Journal.writeState, hco, hat])
    | @recorded next record hnext hco hat ha =>
      cases count with
      | zero =>
        obtain ⟨failure, hop⟩ := Journal.openJournal_torn hs hnext restart
        refine Or.inr ⟨fun hh => ((spared_crash_iff hj).mp hh).1 ⟨rfl, ha⟩, ?_⟩
        rintro ⟨opened, post, ho, -⟩
        rw [hc] at ho
        cases hop.symm.trans ho
      | succ rest =>
        have hk : (next.writeState true clock).journal.Sound hashing
            (host.crashed hashing call clock (rest + 1 + 1)) := by
          rw [hc, List.take_of_length_le (by simp [Journal.writeState])]
          exact hnext.writeState true
        exact step_crash_of_kept hj hk (by simp) (by simp [Journal.writeState, hco, hat])

theorem survives_iff (hr : host.Running hashing) (hist : List HostStep) :
    host.Survives hashing hist ↔ host.AllSpared hashing hist := by
  induction hist generalizing host with
  | nil => exact Iff.rfl
  | cons next rest ih =>
    cases next with
    | call call clock =>
      exact and_congr Iff.rfl (ih (step_call_running hr call clock))
    | crash call clock performed restart =>
      rcases step_crash hr call clock performed restart with
        ⟨hsp, hre, ha⟩ | ⟨hn, hl⟩
      · exact and_congr (iff_of_true hre hsp) (ih ha)
      · exact iff_of_false (fun hs => hl hs.1) fun hall => hn hall.1

end Host

/-- Over every history of calls and stops, each stop is recovered from exactly if none of them
falls between the two writes of an event or finds more connections than attempts. -/
theorem journal_survives_iff (hashing : Hashing) (clock : Clock) (hist : List HostStep) :
    (Host.fresh hashing clock).Survives hashing hist ↔
      (Host.fresh hashing clock).AllSpared hashing hist :=
  Host.survives_iff (Host.fresh_running clock) hist

end Runs

section Torn

def sampleHashing : Hashing where
  lower name := name
  event _ := "event"
  record _ _ := String.ofList (List.replicate 64 'a')
  record_sha256 _ _ := by decide

def sampleClock : Clock := ⟨"2026-07-14T00:00:00Z", "2026-07-14T00:00:01Z"⟩

def sampleEvent : Fields :=
  [("e", .string "ORDER_TRADE_UPDATE"), ("E", .integer 1800000000000)]

def tornHistory : List HostStep :=
  [.crash (.recordEvent sampleEvent none) sampleClock 1 sampleClock]

theorem tornHistory_lost : ¬ ∀ (hashing : Hashing) (clock : Clock) (hist : List HostStep),
      (Host.fresh hashing clock).Survives hashing hist := by
  intro hc
  obtain ⟨⟨journal, disk, ho, -⟩, -⟩ := hc sampleHashing sampleClock tornHistory
  have hl : (openJournal sampleHashing ((Host.fresh sampleHashing sampleClock).crashed
      sampleHashing (.recordEvent sampleEvent none) sampleClock 1) sampleClock).isOk = false := by
    decide
  rw [ho] at hl
  cases hl

end Torn

end AiQuant.UserStream
