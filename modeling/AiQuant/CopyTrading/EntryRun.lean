import AiQuant.CopyTrading.LiveEntries

/-! Runs that give up no live entry.  A call of `_process_signal` decides an entry otherwise than
`SUBMITTED` or `UNCERTAIN` only after its journal has ended, as long as the recovery of a live
entry gets its claim, the catalog and the account, and the clock runs on.  What is left is the
time between a claim and the first decision after it. -/
namespace AiQuant.CopyTrading
open AiQuant.Lib

section Steady

variable [HexOrder]

/-- Not decided yet, or last decided `SUBMITTED` or `UNCERTAIN`. -/
def EventLog.Undisposed (log : EventLog) (signalId : Digest) : Prop :=
  ∀ decision, log.latestDecision signalId = some decision →
    decision.state ∈ pendingDecisionStates

def EventLog.Restorable (log : EventLog) (signal : NormalizedSignal) : Prop :=
  ((log.lookup signal.signalId).bind (·.restoredOrder signal)).isSome

/-- The clock reads later than every journal event. -/
def Query.Later (log : EventLog) : (query : Query) → query.Reply → Prop
  | .clock => fun reading => ∀ event ∈ log.submissions, event.occurredAt < reading
  | _ => fun _ => True

/-- The catalog and the account are read, or fail in a way that is tried again; the protected
price exists and the account's risk allows the signal. -/
def NormalizedSignal.Accepted (signal : NormalizedSignal) : (query : Query) → query.Reply → Prop
  | .symbolRules _ => fun
    | .error failure => failure = .probe
    | .ok rules => ∃ price, entryLimitPrice signal rules = .ok price
  | .accountSnapshot now => fun
    | .error failure => failure = .probe
    | .ok account => (evaluateAccountRisk {} account signal.kind now).allowExecution = true
  | _ => fun _ => True

structure Steady (signal : NormalizedSignal) (before : World) (query : Query)
    (reply : query.Reply) (after : World) : Prop where
  answers : Answers before query reply after
  later : query.Later before.log reply
  accepted : before.log.LiveEntry signal.signalId → signal.Accepted query reply

/-- The runs of the engine whose calls get steady answers.  `run_cycle` hands on what is not
finished; a live entry is recovered by a runtime that executes orders, from a claim that can be
read back. -/
inductive EntryRun : World → Prop
  | start {log : EventLog} (hstored : log.SignalsStored) (hunused : log.Unused) :
      EntryRun ⟨log, []⟩
  | process {world reached : World} (hrun : EntryRun world) (settings : RuntimeSettings)
      {row : SignalRow} (hrow : row ∈ world.log.signals) {signal : NormalizedSignal}
      (hsignal : row.Describes signal) (assignment : LeaderAssignment)
      (hopen : world.log.Undisposed signal.signalId)
      (hclaim : world.log.LiveEntry signal.signalId →
        settings.mode.executionEnabled = true ∧ world.log.Restorable signal)
      (hcall : Proc.Reaches (Steady signal) world (processSignal settings signal assignment)
        reached) : EntryRun reached
  | control {world : World} (hrun : EntryRun world) {controlEventId : Digest}
      (hcontrol : world.log.latestRuntimeControl.state = .reduceAll ∧
        world.log.latestRuntimeControl.eventId = some controlEventId) (occurredAt : Time) :
      EntryRun { world with
        log := world.log.ensureControlReductionSignals controlEventId occurredAt }
  | outside {world : World} (hrun : EntryRun world) {log : EventLog}
      (houtside : Outside world.log log) : EntryRun { world with log := log }

end Steady

section Watched

variable [HexOrder] {log post : EventLog} {sig : NormalizedSignal} {signalId : Digest}

structure EventLog.Watched (log : EventLog) : Prop where
  stored : log.SignalsStored
  keyed : ∀ event ∈ log.submissions, event.Keyed
  limits : ∀ claim ∈ log.claims, claim.orderType = .limit →
    ∃ row ∈ log.signals, row.signalId = claim.signalId ∧ row.signalKind = .increase
  live : ∀ signalId, log.LiveEntry signalId → log.Undisposed signalId

theorem EventLog.LiveEntry.of_tables (hl : post.LiveEntry signalId)
    (hc : post.claims = log.claims) (hs : post.submissions = log.submissions)
    (hp : ∀ ev ∈ log.positions, ev ∈ post.positions) : log.LiveEntry signalId := by
  obtain ⟨⟨hcl, hn⟩, ev, hla, hst⟩ := hl
  refine ⟨⟨hc ▸ hcl, fun ev hm => hn ev (hp ev hm)⟩, ev, ?_, hst⟩
  rwa [EventLog.latestSubmission, hs] at hla

theorem EventLog.Watched.of_tables (hw : log.Watched) (hst : post.SignalsStored)
    (hsi : ∀ row ∈ log.signals, row ∈ post.signals) (hc : post.claims = log.claims)
    (hs : post.submissions = log.submissions) (hd : post.decisions = log.decisions)
    (hp : ∀ ev ∈ log.positions, ev ∈ post.positions) : post.Watched := by
  refine ⟨hst, hs ▸ hw.keyed, ?_, ?_⟩
  · intro claim hm hl
    obtain ⟨row, hr, hk⟩ := hw.limits claim (hc ▸ hm) hl
    exact ⟨row, hsi row hr, hk⟩
  · intro signalId hl
    unfold EventLog.Undisposed EventLog.latestDecision
    rw [hd]
    exact hw.live signalId (hl.of_tables hc hs hp)

theorem EventLog.Watched.not_live_of_reduce (hw : log.Watched)
    (hr : ∃ row ∈ log.signals, row.Describes sig) (hk : sig.kind = .reduce) :
    ¬ log.LiveEntry sig.signalId := by
  rintro ⟨⟨⟨claim, hm, hid, hl⟩, -⟩, -⟩
  obtain ⟨row, hrow, hd⟩ := hr
  obtain ⟨other, ho, hoi, hi⟩ := hw.limits claim hm hl
  have hsa : other.signalId = row.signalId := hoi.trans (hid.trans hd.signalId)
  have heq := List.inj_on_of_nodup_map hw.stored.nodup ho hrow hsa
  rw [heq, ← hd.kind, hk] at hi
  cases hi

theorem EventLog.Undisposed.decide (hu : log.Undisposed signalId) {st : DecisionState}
    (hs : sig.signalId = signalId → st ∈ pendingDecisionStates) (amount : Decimal)
    (codes : List String) (time : Time) :
    (log.recordSignalDecision sig st amount codes time).Undisposed
      signalId := by
  dsimp only [EventLog.recordSignalDecision]
  split
  · exact hu
  intro dec hl
  rcases newest_filter_concat_cases (·.occurredAt)
      (fun ev => HexOrder.value ev.decisionEventId) (fun ev => ev.signalId = signalId)
      log.decisions _ with ⟨hid, hn, -⟩ | hsa
  · obtain rfl := Option.some.inj (hn.symm.trans hl)
    exact hs (of_decide_eq_true hid)
  · exact hu dec (hsa.symm.trans hl)

theorem EventLog.Watched.decide (hw : log.Watched) {st : DecisionState}
    (hs : st ∈ pendingDecisionStates ∨ ¬ log.LiveEntry sig.signalId)
    (amount : Decimal) (codes : List String) (time : Time) :
    (log.recordSignalDecision sig st amount codes time).Watched := by
  have ht : (log.recordSignalDecision sig st amount codes time).SignalsStored ∧
      ∃ decisions, log.recordSignalDecision sig st amount codes time =
        { log with decisions := decisions } := by
    dsimp only [EventLog.recordSignalDecision]
    split
    · exact ⟨hw.stored, _, rfl⟩
    · exact ⟨⟨hw.stored.nodup, hw.stored.entries, hw.stored.controls,
        hw.stored.nodup_controls⟩, _, rfl⟩
  obtain ⟨hst, decisions, hl⟩ := ht
  refine ⟨hst, ?_, ?_, ?_⟩
  · rw [hl]
    exact hw.keyed
  · rw [hl]
    exact hw.limits
  · intro signalId hli
    have hb : log.LiveEntry signalId := by
      rw [hl] at hli
      exact hli
    refine (hw.live signalId hb).decide (fun hid => hs.resolve_right ?_) _ _ _
    exact not_not.mpr (hid ▸ hb)

theorem latestSubmission_recordSubmission {ev : SubmissionEvent} (hn : ev.signalId ≠ signalId) :
    (log.recordSubmission ev).latestSubmission signalId = log.latestSubmission signalId := by
  unfold EventLog.recordSubmission EventLog.latestSubmission
  split
  · rfl
  · simp [hn]

theorem EventLog.Watched.journal (hw : log.Watched) {ev : SubmissionEvent}
    (hk : ev.Keyed) (hu : log.Undisposed ev.signalId) : (log.recordSubmission ev).Watched := by
  have hl : ∃ submissions, log.recordSubmission ev =
      { log with submissions := submissions } ∧ ∀ ev ∈ submissions, ev.Keyed := by
    unfold EventLog.recordSubmission
    split
    · exact ⟨_, rfl, hw.keyed⟩
    · refine ⟨_, rfl, fun other hm => ?_⟩
      rcases List.mem_append.mp hm with ho | hn
      · exact hw.keyed other ho
      · rw [List.mem_singleton.mp hn]
        exact hk
  obtain ⟨submissions, hl, hke⟩ := hl
  have hli : ∀ signalId, (log.recordSubmission ev).LiveEntry signalId →
      log.Undisposed signalId := by
    rintro signalId ⟨hp, latest, hla, hs⟩
    by_cases hid : ev.signalId = signalId
    · exact hid ▸ hu
    · rw [latestSubmission_recordSubmission hid] at hla
      rw [hl] at hp
      exact hw.live signalId ⟨hp, latest, hla, hs⟩
  rw [hl] at hli ⊢
  exact ⟨⟨hw.stored.nodup, hw.stored.entries, hw.stored.controls, hw.stored.nodup_controls⟩,
    hke, hw.limits, hli⟩

theorem EventLog.Watched.claim (hw : log.Watched) {ord : CopyMarketOrder}
    (hr : ∃ row ∈ log.signals, row.Describes ord.signal)
    (hu : log.Undisposed ord.signal.signalId) (orderId : String) (now : Time) :
    (log.claim (claimRow ord orderId now)
      (submissionEvent ord.signal.signalId .submitting now 0 none none [])).2.Watched := by
  rcases claim_cases log (claimRow ord orderId now)
    (submissionEvent ord.signal.signalId .submitting now 0 none none []) with
    hl | ⟨-, claimed, hwo, hro⟩
  · rw [hl]
    exact hw
  rw [hwo, hro]
  refine ⟨⟨hw.stored.nodup, hw.stored.entries, hw.stored.controls, hw.stored.nodup_controls⟩,
    ?_, ?_, ?_⟩
  · intro ev hm
    rcases List.mem_append.mp hm with ho | hn
    · exact hw.keyed ev ho
    · rw [List.mem_singleton.mp hn]
      exact submissionEvent_keyed _ _ _ _ _ _ _
  · intro claim hm hl
    rcases List.mem_append.mp hm with ho | hn
    · exact hw.limits claim ho hl
    · obtain ⟨row, hrow, hd⟩ := hr
      rw [List.mem_singleton.mp hn] at hl ⊢
      -- An order of type `LIMIT` is the order of an entry.
      have hp := ord.policy
      rw [show ord.orderType = .limit from hl] at hp
      exact ⟨row, hrow, hd.signalId.symm, hd.kind.symm.trans hp.1⟩
  · rintro signalId ⟨⟨⟨claim, hm, hid, hl⟩, hn⟩, latest, hla, hs⟩
    by_cases heq : ord.signal.signalId = signalId
    · exact heq ▸ hu
    · refine hw.live signalId ⟨⟨⟨claim, ?_, hid, hl⟩, hn⟩, latest, ?_, hs⟩
      · rcases List.mem_append.mp hm with ho | hne
        · exact ho
        · rw [List.mem_singleton.mp hne] at hid
          exact absurd hid heq
      · have hse : (submissionEvent ord.signal.signalId .submitting now 0 none none
            []).signalId ≠ signalId := heq
        simpa [EventLog.latestSubmission, hse] using hla

/-- After a `REJECTED` event that is later than all others the entry is not live. -/
theorem not_live_of_rejected (hk : ∀ ev ∈ log.submissions, ev.Keyed)
    {ev : SubmissionEvent} (he : ev.Keyed) (hs : ev.state = .rejected)
    (hl : ∀ old ∈ log.submissions, old.occurredAt < ev.occurredAt) :
    ¬ (log.recordSubmission ev).LiveEntry ev.signalId := by
  rintro ⟨-, latest, hla, hst⟩
  unfold EventLog.recordSubmission at hla
  split at hla
  · rename_i hknown
    obtain ⟨old, hold, hsa⟩ := List.any_eq_true.mp hknown
    obtain ⟨resp, ho⟩ := hk old hold
    obtain ⟨response', he⟩ := he
    rw [decide_eq_true_eq, ho, he] at hsa
    injection hsa with _ _ ht
    exact absurd ht (hl old hold).ne
  · have hn : newest (·.occurredAt) (fun ev : SubmissionEvent => HexOrder.value ev.eventId)
        ((log.submissions ++ [ev]).filter (·.signalId = ev.signalId)) = some ev := by
      rw [List.filter_append, List.filter_cons_of_pos (by simp)]
      exact newest_concat_of_lt _ _ fun old hold => hl old (List.mem_filter.mp hold).1
    obtain rfl := Option.some.inj (hn.symm.trans hla)
    rw [hs] at hst
    exact absurd hst (by decide)

end Watched

section Call

variable [HexOrder] {called : NormalizedSignal} {entries : List NormalizedSignal}
  {world pre post : World} {sig : NormalizedSignal}

/-- In a call for `called`, while `entries` are not given up. -/
structure Handling (called : NormalizedSignal) (entries : List NormalizedSignal)
    (world : World) : Prop where
  watched : world.log.Watched
  row : ∃ row ∈ world.log.signals, row.Describes called
  rows : ∀ entry ∈ entries, ∃ row ∈ world.log.signals, row.Describes entry
  undisposed : ∀ entry ∈ entries, world.log.Undisposed entry.signalId

theorem Handling.of_subset {others : List NormalizedSignal} (hw : Handling called entries world)
    (hs : ∀ entry ∈ others, entry ∈ entries) : Handling called others world :=
  ⟨hw.watched, hw.row, fun entry he => hw.rows entry (hs entry he),
    fun entry he => hw.undisposed entry (hs entry he)⟩

theorem Handling.done (hw : Handling called entries world) : Handling called [] world :=
  hw.of_subset (by simp)

theorem Handling.of_tables (hw : Handling called entries pre) (hl : post.log.Watched)
    (hs : ∀ row ∈ pre.log.signals, row ∈ post.log.signals)
    (hu : ∀ entry ∈ entries, post.log.Undisposed entry.signalId) :
    Handling called entries post := by
  refine ⟨hl, ?_, ?_, hu⟩
  · obtain ⟨row, hr, hd⟩ := hw.row
    exact ⟨row, hs row hr, hd⟩
  · intro entry he
    obtain ⟨row, hr, hd⟩ := hw.rows entry he
    exact ⟨row, hs row hr, hd⟩

theorem Handling.of_decisions (hw : Handling called entries pre) (hl : post.log.Watched)
    (hs : ∀ row ∈ pre.log.signals, row ∈ post.log.signals)
    (hd : post.log.decisions = pre.log.decisions) : Handling called entries post := by
  refine hw.of_tables hl hs fun entry he => ?_
  unfold EventLog.Undisposed EventLog.latestDecision
  rw [hd]
  exact hw.undisposed entry he

theorem Handling.asks {qry : Query} {reply : qry.Reply}
    (hw : Handling called entries pre) (he : Steady called pre qry reply post) :
    Handling called entries post := by
  have ho := he.answers.2
  have hl : post.log.Watched := hw.watched.of_tables (ho.stored hw.watched.stored) ho.signals
    ho.claims ho.submissions ho.decisions fun _ hm => ho.positions.symm ▸ hm
  exact hw.of_decisions hl ho.signals ho.decisions

theorem Steady.live {qry : Query} {reply : qry.Reply} {signalId : Digest}
    (he : Steady called pre qry reply post) (hl : post.log.LiveEntry signalId) :
    pre.log.LiveEntry signalId :=
  hl.of_tables he.answers.2.claims he.answers.2.submissions
    fun _ hm => he.answers.2.positions.symm ▸ hm

theorem Handling.decide (hw : Handling called entries world) {st : DecisionState}
    (hs : st ∈ pendingDecisionStates ∨ ¬ world.log.LiveEntry sig.signalId ∧
      ∀ entry ∈ entries, entry.signalId ≠ sig.signalId) (amount : Decimal)
    (codes : List String) (time : Time) : Handling called entries { world with
      log := world.log.recordSignalDecision sig st amount codes time } := by
  refine hw.of_tables (hw.watched.decide (hs.imp_right And.left) _ _ _) ?_ ?_
  · dsimp only [EventLog.recordSignalDecision]
    split <;> exact fun _ => id
  · intro entry he
    refine (hw.undisposed entry he).decide (fun hid => hs.resolve_right ?_) _ _ _
    exact fun hn => hn.2 entry he hid.symm

theorem Handling.record (hw : Handling called entries world) (hm : sig ∈ entries)
    {ev : SubmissionEvent} (hk : ev.Keyed) (hid : ev.signalId = sig.signalId) :
    Handling called entries { world with log := world.log.recordSubmission ev } := by
  refine hw.of_decisions (hw.watched.journal hk (hid ▸ hw.undisposed sig hm)) ?_ ?_ <;>
    unfold EventLog.recordSubmission <;> split <;> first | exact fun _ => id | rfl

theorem Handling.claim (hw : Handling called entries world) {ord : CopyMarketOrder}
    (hm : ord.signal ∈ entries) (orderId : String) (now : Time) :
    Handling called entries { world with
      log := (world.log.claim (claimRow ord orderId now)
        (submissionEvent ord.signal.signalId .submitting now 0 none none [])).2 } := by
  have hc := hw.watched.claim (hw.rows _ hm) (hw.undisposed _ hm) orderId now
  rcases claim_cases world.log (claimRow ord orderId now)
    (submissionEvent ord.signal.signalId .submitting now 0 none none []) with
    hl | ⟨-, claimed, hwo, hro⟩
  · rw [hl] at hc ⊢
    exact hw
  · rw [hwo, hro] at hc ⊢
    exact hw.of_decisions hc (fun _ => id) rfl

/-- The executor gives no entry up, and a `REJECTED` receipt ends the entry. -/
theorem handling_journal (hm : sig ∈ entries) :
    JournalRules (Steady called) sig (Handling called entries) (fun rcpt reached =>
      rcpt.state = .rejected → ¬ reached.log.LiveEntry sig.signalId) where
  asks hw he := ⟨hw.asks he, he.answers.2.lookup_eq _⟩
  records rcpt exchangeOrderId resp hw := by
    simp only [recordNow, clock, writeLog, Proc.safe_bind, Proc.safe_question, Proc.safe_write]
    intro time asked he
    have ha := hw.asks he
    have hk := submissionEvent_keyed sig.signalId rcpt.state.submission time
      rcpt.filledQuantity exchangeOrderId resp rcpt.reasonCodes
    have hr := ha.record hm hk rfl
    refine ⟨ha, hr, hr, fun hs => ?_⟩
    refine not_live_of_rejected ha.watched.keyed hk ?_ ?_
    · rw [hs]
      rfl
    · rw [he.answers.2.submissions]
      exact he.later
  resubmits codes hw := by
    simp only [recordNow, clock, writeLog, Proc.safe_bind, Proc.safe_question, Proc.safe_write]
    intro time asked he
    have ha := hw.asks he
    have hr := ha.record hm (submissionEvent_keyed sig.signalId .submitting time 0 none none
      codes) rfl
    exact ⟨ha, hr, hr⟩
  claims ord env hsignal hw := by
    subst hsignal
    simp only [claimSubmission, clock, Proc.safe_bind, Proc.safe_question, Proc.safe_transact]
    intro now asked he
    have ha := hw.asks he
    have hc := ha.claim hm (copyClientOrderId ord.signal.signalId env) now
    exact ⟨ha, hc, hc⟩
  unknown _ hs hre := absurd (hs.symm.trans hre) (by decide)
  refused _ hl _ _ := by
    rintro ⟨⟨⟨claim, hc, hid, -⟩, -⟩, -⟩
    exact lookup_eq_none_iff.mp hl claim hc hid

/-- All worlds that the procedure reaches are watched. -/
abbrev Watches {α : Type} (called : NormalizedSignal) (proc : Engine α)
    (post : α → World → Prop) (world : World) : Prop :=
  proc.Safe (Steady called) (fun reached => reached.log.Watched) post world

/-- The procedure gives up none of `entries`. -/
abbrev Handles {α : Type} (called : NormalizedSignal) (entries : List NormalizedSignal)
    (proc : Engine α) (world : World) : Prop :=
  proc.Safe (Steady called) (fun reached => reached.log.Watched)
    (fun _ => Handling called entries) world

section Fills

variable {rcpt : CopyExecutionReceipt} (hw : Handling called entries world)
include hw

theorem recordDecision_handles {st : DecisionState}
    (hs : st ∈ pendingDecisionStates ∨ ¬ world.log.LiveEntry sig.signalId ∧
      ∀ entry ∈ entries, entry.signalId ≠ sig.signalId) (amount : Decimal)
    (codes : List String) (time : Time) :
    Handles called entries (recordDecision sig st amount codes time) world := by
  have hd := hw.decide hs amount codes time
  exact ⟨hd.watched, hd⟩

theorem recordVirtualPosition_handles (fill : FillRecord) :
    Watches called (recordVirtualPosition fill) (fun _ reached =>
      Handling called entries reached ∧ ¬ reached.log.LiveEntry fill.signal.signalId) world := by
  simp only [Watches, recordVirtualPosition, Proc.safe_bind, Proc.safe_transact]
  cases hr : world.log.recordVirtualPosition fill with
  | error code => exact ⟨hw.watched, Proc.safe_halt⟩
  | ok log =>
    obtain ⟨-, ⟨hl, ev, he, hk⟩ | ⟨prev, res, slot, realized, ha⟩⟩ :=
      EventLog.recordVirtualPosition_cases hr
    · rw [hl]
      exact ⟨hw.watched, hw, fun hli => hli.1.2 ev he hk⟩
    · have hl : log.Watched := by
        rw [ha.after_eq]
        refine hw.watched.of_tables ⟨hw.watched.stored.nodup, hw.watched.stored.entries,
          hw.watched.stored.controls, hw.watched.stored.nodup_controls⟩ (fun _ => id) rfl rfl rfl
          fun _ hm => List.mem_append_left _ hm
      have hh : Handling called entries { world with log := log } := by
        refine hw.of_decisions hl ?_ ?_ <;> rw [ha.after_eq]
        exact fun _ => id
      refine ⟨hl, hh, fun hli => hli.1.2 fill.positionEvent ?_ rfl⟩
      rw [ha.after_eq]
      exact List.mem_append_right _ (List.mem_singleton_self _)

variable (hn : ∀ entry ∈ entries, entry.signalId ≠ sig.signalId)
include hn

theorem recordIncreaseFill_handles (time : Time) :
    Handles called entries (recordIncreaseFill sig rcpt time) world := by
  unfold recordIncreaseFill
  split
  · exact hw
  simp only [Handles, readLog, Proc.safe_bind, Proc.safe_read]
  refine ⟨hw.watched, ?_⟩
  split
  · exact Proc.safe_halt
  simp only [Proc.safe_bind]
  apply (recordVirtualPosition_handles hw _).mono
  rintro _ reached ⟨hr, hl⟩
  exact recordDecision_handles hr (Or.inr ⟨hl, hn⟩) _ _ _

theorem attributeEntry_handles (time : Time) :
    Handles called entries (attributeEntry sig rcpt time) world := by
  simp only [Handles, attributeEntry, Proc.safe_bind]
  apply (recordIncreaseFill_handles hw hn time).mono
  intro attributed reached hr
  split
  · exact hr
  · exact recordDecision_handles hr (Or.inl (by decide)) _ _ _

theorem attributeReduction_handles (ledger : VirtualPositionLedger) (plan : ReductionPlan)
    (time : Time) :
    Handles called entries (attributeReduction sig ledger plan rcpt time) world := by
  unfold attributeReduction
  split
  · exact recordDecision_handles hw (Or.inl (by decide)) _ _ _
  split
  · exact Proc.safe_halt
  rw [Handles, Proc.safe_bind]
  apply (recordVirtualPosition_handles hw _).mono
  rintro _ reached ⟨hr, hl⟩
  exact recordDecision_handles hr (Or.inr ⟨hl, hn⟩) _ _ _

theorem recordBlockedClaimResult_handles
    (hre : rcpt.state = .rejected → ¬ world.log.LiveEntry sig.signalId) (time : Time) :
    Handles called entries (recordBlockedClaimResult sig rcpt time) world := by
  unfold recordBlockedClaimResult
  split
  · split
    · exact recordDecision_handles hw (Or.inl (by decide)) _ _ _
    · exact attributeEntry_handles hw hn time
  split
  · rename_i hrejected
    exact recordDecision_handles hw (Or.inr ⟨hre hrejected.1, hn⟩) _ _ _
  · exact recordDecision_handles hw (Or.inl (by decide)) _ _ _

theorem recordOutcome_handles (hre : rcpt.state = .rejected → ¬ world.log.LiveEntry sig.signalId)
    {onFill : CopyExecutionReceipt → Time → Engine Unit}
    (hf : ∀ time, Handles called entries (onFill rcpt time) world) (time : Time) :
    Handles called entries (recordOutcome sig rcpt onFill time) world := by
  unfold recordOutcome
  split
  · split
    · exact recordDecision_handles hw (Or.inl (by decide)) _ _ _
    split
    · split
      · exact hw
      · exact recordDecision_handles hw (Or.inl (by decide)) _ _ _
    · exact hf time
  rename_i hopen
  split
  · exact recordDecision_handles hw (Or.inl (by decide)) _ _ _
  · exact recordDecision_handles hw (Or.inl (by decide)) _ _ _
  · exact hw
  · -- of the states that are left, only `REJECTED` is not final
    have hr : rcpt.state = .rejected := by
      cases hs : rcpt.state <;> simp_all [CopyExecutionReceipt.isTerminal]
    exact recordDecision_handles hw (Or.inr ⟨hre hr, hn⟩) _ _ _

end Fills

/-! ### The calls of the engine -/

theorem nodup_pendingIncreaseSignals {log : EventLog} (hs : log.SignalsStored)
    (key : VirtualPositionKey) (limit : ℕ) :
    ((log.pendingIncreaseSignals key limit).map (·.signalId)).Nodup := by
  rw [EventLog.pendingIncreaseSignals, List.map_map]
  refine ((List.take_sublist _ _).map _).nodup ?_
  refine (((List.perm_insertionSort _ _).map _).nodup_iff).mpr ?_
  exact (List.filter_sublist.map _).nodup hs.nodup

variable (cfg : RuntimeSettings)

theorem cancelEntry_handles {entry : NormalizedSignal}
    (hw : Handling called (entry :: entries) world)
    (hn : ∀ other ∈ entries, other.signalId ≠ entry.signalId) (now : Time) :
    Handles called entries (cancelEntry cfg entry now) world := by
  have hs : ∀ {reached : World}, Handling called (entry :: entries) reached →
      Handling called entries reached := fun hr => hr.of_subset fun _ => List.mem_cons_of_mem _
  simp only [Handles, cancelEntry, Proc.safe_bind]
  refine ((handling_journal List.mem_cons_self).cancelPendingIncrease cfg.executor hw _
    |>.weaken fun _ hr => hr.watched).mono ?_
  rintro rcpt reached ⟨hr, hre⟩
  split
  · exact recordIncreaseFill_handles (hs hr) hn now
  split
  · rename_i hrejected
    rw [Proc.safe_bind]
    exact recordDecision_handles (hs hr) (Or.inr ⟨hre hrejected.1, hn⟩) _ _ _
  · rw [Proc.safe_bind]
    exact recordDecision_handles (hs hr) (Or.inl (by decide)) _ _ _

theorem cancelEntries_handles (now : Time) {pending : List NormalizedSignal}
    (hw : Handling called (pending ++ entries) world)
    (hn : ((pending ++ entries).map (·.signalId)).Nodup) :
    Handles called entries (cancelEntries cfg now pending) world := by
  induction pending generalizing world with
  | nil => exact hw
  | cons entry pending ih =>
    rw [List.cons_append, List.map_cons, List.nodup_cons] at hn
    simp only [Handles, cancelEntries, Proc.safe_bind]
    apply (cancelEntry_handles cfg hw ?_ now).mono
    · intro resolved reached hr
      split
      · exact ih hr hn.2
      · exact hr.of_subset fun _ => List.mem_append_right _
    · intro other ho hid
      exact hn.1 (hid ▸ List.mem_map_of_mem ho)

theorem cancelPages_handles (hk : called.kind = .reduce) (key : VirtualPositionKey) (now : Time)
    (pages : ℕ) (hw : Handling called [called] world) :
    Handles called [called] (cancelPages cfg key now pages) world := by
  induction pages generalizing world with
  | zero => exact hw
  | succ pages ih =>
    simp only [Handles, cancelPages, readLog, Proc.safe_bind, Proc.safe_read]
    refine ⟨hw.watched, ?_⟩
    have hst := hw.watched.stored
    have hp : Handling called (world.log.pendingIncreaseSignals key 100 ++ [called]) world := by
      refine ⟨hw.watched, hw.row, ?_, ?_⟩ <;> intro entry he <;>
        rcases List.mem_append.mp he with hm | hm
      · obtain ⟨row, hr, -, -, -, rfl⟩ := mem_pendingIncreaseSignals hm
        exact ⟨row, hr, row.describes_normalized _⟩
      · exact hw.rows entry hm
      · obtain ⟨row, -, -, -, hpe, rfl⟩ := mem_pendingIncreaseSignals hm
        rw [EventLog.isPendingEntry, Bool.and_eq_true, EventLog.decidedAs] at hpe
        intro dec hl
        have hd := hpe.2
        rw [show world.log.latestDecision row.signalId = some dec from hl] at hd
        simpa [pendingDecisionStates] using hd
      · exact hw.undisposed entry hm
    refine (cancelEntries_handles cfg now hp ?_).mono ?_
    · rw [List.map_append, List.nodup_append]
      refine ⟨nodup_pendingIncreaseSignals hst key 100, by simp, ?_⟩
      intro signalId hm other ho
      obtain ⟨entry, he, rfl⟩ := List.mem_map.mp hm
      obtain ⟨row, hr, hd⟩ := hw.row
      rw [List.map_singleton, List.mem_singleton] at ho
      rw [ho]
      exact hst.pending_ne ⟨row, hr, hd.signalId.symm, hd.kind.symm.trans hk⟩ he
    · intro resolved reached hr
      split
      · split
        · exact hr
        · exact ih hr
      · exact hr

variable {cfg} {risk : AccountRiskDecision}

theorem submitSignal_handles {ord : CopyMarketOrder} (hs : ord.signal = called)
    (hw : Handling called [called] world) (hl : world.log.LiveEntry called.signalId →
      cfg.mode.executionEnabled = true ∧ risk.allowExecution = true)
    {onFill : CopyExecutionReceipt → Time → Engine Unit}
    (hf : ∀ rcpt reached, Handling called [] reached → ∀ time,
      Handles called [] (onFill rcpt time) reached) (amount : Decimal) (now : Time) :
    Handles called [] (submitSignal cfg called ord amount risk onFill now) world := by
  unfold submitSignal
  split
  · rename_i hdisabled
    refine recordDecision_handles hw.done (Or.inr ⟨fun h => ?_, by simp⟩) _ _ _
    rw [(hl h).1] at hdisabled
    cases hdisabled
  split
  · rename_i hdenied
    refine recordDecision_handles hw.done (Or.inr ⟨fun h => ?_, by simp⟩) _ _ _
    rw [(hl h).2] at hdenied
    cases hdenied
  simp only [Handles, Proc.safe_bind]
  refine ((handling_journal (List.mem_singleton_self called)).execute cfg.executor hs hw risk
    |>.weaken fun _ hr => hr.watched).mono ?_
  rintro rcpt executed ⟨he, hre⟩
  have ha : Watches called (announceSubmission called rcpt now) (fun _ reached =>
      Handling called [called] reached ∧
        (rcpt.state = .rejected → ¬ reached.log.LiveEntry called.signalId)) executed := by
    unfold announceSubmission
    split
    · exact ⟨he, hre⟩
    · rename_i haccepted
      apply (recordDecision_handles he (Or.inl (by decide)) _ _ _).mono
      exact fun _ _ hr => ⟨hr, fun hrejected => absurd hrejected haccepted⟩
  apply ha.mono
  rintro _ announced ⟨han, hre⟩
  simp only [clock, Proc.safe_question]
  intro clockAt asked hst
  have has := han.asks hst
  exact ⟨has.watched, recordOutcome_handles has.done (by simp)
    (fun hrejected hl => hre hrejected (hst.live hl)) (hf rcpt asked has.done) _⟩

theorem processEntry_handles (asg : LeaderAssignment) {claimed : Option CopyMarketOrder}
    (hc : ∀ ord ∈ claimed, ord.signal = called) (hw : Handling called [called] world)
    (hl : world.log.LiveEntry called.signalId → claimed.isSome ∧
      cfg.mode.executionEnabled = true ∧ risk.allowExecution = true)
    (rules : SymbolTradingRules) (limitPrice : Decimal) (acct : CopyAccountSnapshot)
    (now : Time) : Handles called []
      (processEntry cfg called asg claimed rules limitPrice acct risk now) world := by
  have hf : ∀ rcpt reached, Handling called [] reached → ∀ time,
      Handles called [] (attributeEntry called rcpt time) reached :=
    fun rcpt reached hr time => attributeEntry_handles hr (by simp) time
  unfold processEntry
  split
  · exact submitSignal_handles (hc _ rfl) hw (fun h => (hl h).2) hf _ _
  have hn : ¬ world.log.LiveEntry called.signalId := fun h => absurd (hl h).1 (by simp)
  simp only [Handles, readLog, Proc.safe_bind, Proc.safe_read]
  refine ⟨hw.watched, ?_⟩
  split
  · exact Proc.safe_halt
  split
  · exact recordDecision_handles hw.done (Or.inr ⟨hn, by simp⟩) _ _ _
  split
  · exact Proc.safe_halt
  · rename_i ord horder
    exact submitSignal_handles (create_signal horder) hw (fun h => absurd h hn) hf _ _

theorem processReduction_handles (hk : called.kind = .reduce) {claimed : Option CopyMarketOrder}
    (hc : ∀ ord ∈ claimed, ord.signal = called) (hw : Handling called [called] world)
    (rules : SymbolTradingRules) (now : Time) :
    Handles called [] (processReduction cfg called claimed rules risk now) world := by
  have hn : ∀ {reached : World}, Handling called [called] reached →
      ¬ reached.log.LiveEntry called.signalId := fun hr => hr.watched.not_live_of_reduce hr.row hk
  simp only [Handles, processReduction, readLog, Proc.safe_bind, Proc.safe_read]
  refine ⟨hw.watched, ?_⟩
  have hre : Handles called [called] (resolveSuperseded cfg called
      (world.log.sourcePositionQuantityBefore called) now) world := by
    unfold resolveSuperseded
    split
    · exact cancelPages_handles cfg hk _ now _ hw
    · exact hw
  apply hre.mono
  intro resolved reached hr
  split
  · exact recordDecision_handles hr.done (Or.inl (by decide)) _ _ _
  simp only [Proc.safe_bind, Proc.safe_read]
  refine ⟨hr.watched, ?_⟩
  split
  · exact recordDecision_handles hr.done (Or.inr ⟨hn hr, by simp⟩) _ _ _
  split
  · exact Proc.safe_halt
  · rename_i ord horder
    refine submitSignal_handles (EngineRules.claimed_or_create_signal hc horder) hr
      (fun h => absurd h (hn hr)) ?_ _ _
    exact fun rcpt reached hr time => attributeReduction_handles hr (by simp) _ _ time

variable (cfg)

theorem processBlocked_handles {claimed : Option CopyMarketOrder}
    (hw : Handling called [called] world)
    (hl : world.log.LiveEntry called.signalId → claimed.isSome) (control : RuntimeControl)
    (block : EntryBlock) (now : Time) :
    Handles called [] (processBlocked cfg called claimed control block now) world := by
  unfold processBlocked
  split
  · have hn : ¬ world.log.LiveEntry called.signalId := fun h => absurd (hl h) (by simp)
    split <;> exact recordDecision_handles hw.done (Or.inr ⟨hn, by simp⟩) _ _ _
  · rw [Handles, Proc.safe_bind]
    refine ((handling_journal (List.mem_singleton_self called)).cancelPendingIncrease
      cfg.executor hw _ |>.weaken fun _ hr => hr.watched).mono ?_
    rintro rcpt reached ⟨hr, hre⟩
    exact recordBlockedClaimResult_handles hr.done (by simp) hre now

/-- What is read of the market: for a live entry it is accepted. -/
def NormalizedSignal.Judged (signal : NormalizedSignal) (now : Time) (log : EventLog) :
    Except ReadFailure (SymbolTradingRules × Option Decimal × CopyAccountSnapshot) → Prop
  | .error .probe => True
  | .error (.rejected _) => ¬ log.LiveEntry signal.signalId
  | .ok (_, limitPrice, account) => (limitPrice = none → signal.kind = .reduce) ∧
      (log.LiveEntry signal.signalId →
        (evaluateAccountRisk {} account signal.kind now).allowExecution = true)

theorem readMarket_handles (hw : Handling called [called] world) (now : Time) :
    Watches called (readMarket called now) (fun market reached =>
      Handling called [called] reached ∧
      (reached.log.LiveEntry called.signalId → world.log.LiveEntry called.signalId) ∧
      called.Judged now reached.log market) world := by
  simp only [Watches, readMarket, Proc.safe_bind, Proc.safe_question]
  intro rules asked he
  have ha := hw.asks he
  refine ⟨ha.watched, ?_⟩
  split
  · rename_i failure
    refine ⟨ha, he.live, ?_⟩
    cases failure with
    | probe => trivial
    | rejected reason =>
      intro hl
      cases he.accepted (he.live hl)
  rename_i rules
  split
  · rename_i reason hprice
    refine ⟨ha, he.live, fun hl => ?_⟩
    obtain ⟨price, hp⟩ := he.accepted (he.live hl)
    cases hprice.symm.trans hp
  rename_i limitPrice hprice
  rw [Proc.safe_bind, Proc.safe_question]
  intro reply read hre
  have hr := ha.asks hre
  refine ⟨hr.watched, ?_⟩
  split
  · rename_i failure
    refine ⟨hr, fun hl => he.live (hre.live hl), ?_⟩
    cases failure with
    | probe => trivial
    | rejected reason =>
      intro hl
      cases hre.accepted (hre.live hl)
  · rename_i acct
    refine ⟨hr, fun hl => he.live (hre.live hl), ?_, fun hl => hre.accepted (hre.live hl)⟩
    rintro rfl
    unfold entryLimitPrice at hprice
    split at hprice
    · split at hprice <;> cases hprice
    · cases hk : called.kind with
      | increase => contradiction
      | reduce => rfl

theorem applyRiskControl_handles (hw : Handling called entries world) (risk : AccountRiskDecision)
    (now : Time) : Watches called (applyRiskControl cfg risk now) (fun _ reached =>
      Handling called entries reached ∧ ∀ signalId, reached.log.LiveEntry signalId →
        world.log.LiveEntry signalId) world := by
  have hc : ∀ st, Handling called entries { world with
        log := world.log.appendRuntimeControl st "account-risk-engine" risk.reasonCodes now } ∧
      ∀ signalId, (world.log.appendRuntimeControl st "account-risk-engine" risk.reasonCodes
        now).LiveEntry signalId → world.log.LiveEntry signalId := by
    intro st
    have ht : Transaction (fun _ => True) world.log (world.log.appendRuntimeControl st
        "account-risk-engine" risk.reasonCodes now) := .control _ _ _ _
    have hst := ht.stored hw.watched.stored
    dsimp only [EventLog.appendRuntimeControl] at hst ⊢
    split at hst
    · rw [if_pos ‹_›]
      exact ⟨hw, fun _ => id⟩
    · rw [if_neg ‹_›]
      have hwa := hw.watched.of_tables hst (fun _ => id) rfl rfl rfl fun _ => id
      exact ⟨hw.of_decisions hwa (fun _ => id) rfl, fun _ => id⟩
  unfold applyRiskControl
  split
  · exact ⟨hw, fun _ => id⟩
  simp only [Watches, readLog, Proc.safe_bind, Proc.safe_read]
  refine ⟨hw.watched, ?_⟩
  split
  · exact ⟨(hc _).1.watched, hc _⟩
  split
  · exact ⟨(hc _).1.watched, hc _⟩
  · exact ⟨hw, fun _ => id⟩

theorem processOpen_handles (asg : LeaderAssignment) {claimed : Option CopyMarketOrder}
    (hc : ∀ ord ∈ claimed, ord.signal = called) (hw : Handling called [called] world)
    (hl : world.log.LiveEntry called.signalId →
      claimed.isSome ∧ cfg.mode.executionEnabled = true) (now : Time) :
    Handles called [] (processOpen cfg called asg claimed now) world := by
  simp only [Handles, processOpen, Proc.safe_bind]
  apply (readMarket_handles hw now).mono
  rintro market read ⟨hr, hlr, hm⟩
  split
  · exact Proc.safe_halt
  · exact recordDecision_handles hr.done (Or.inr ⟨hm, by simp⟩) _ _ _
  · rename_i rules limitPrice acct
    obtain ⟨hk, ha⟩ := hm
    rw [Proc.safe_bind]
    apply (applyRiskControl_handles cfg hr _ now).mono
    rintro _ controlled ⟨hco, hlc⟩
    split
    · refine processEntry_handles asg hc hco (fun h => ?_) _ _ _ _
      have h := hlc _ h
      exact ⟨(hl (hlr h)).1, (hl (hlr h)).2, ha h⟩
    · exact processReduction_handles (hk rfl) hc hco _ _

theorem processSignal_handles (asg : LeaderAssignment) (hw : Handling called [called] world)
    (hl : world.log.LiveEntry called.signalId →
      cfg.mode.executionEnabled = true ∧ world.log.Restorable called) :
    Handles called [] (processSignal cfg called asg) world := by
  simp only [Handles, processSignal, clock, readLog, Proc.safe_bind, Proc.safe_question,
    Proc.safe_read]
  intro now asked he
  have ha := hw.asks he
  refine ⟨ha.watched, ha.watched, ?_⟩
  split
  · exact Proc.safe_halt
  · rename_i filled hfilled
    refine recordDecision_handles ha.done (Or.inr ⟨fun h => ?_, by simp⟩) _ _ _
    have hn := EventLog.attributedFillQuantity_eq_none_iff.mpr h.1.2
    exact nomatch hfilled.symm.trans hn
  rw [Proc.safe_bind]
  have hex : Watches called (executorClaim cfg called) (fun claimed reached =>
      reached = asked ∧ (∀ ord ∈ claimed, ord.signal = called) ∧
        (asked.log.LiveEntry called.signalId →
          claimed.isSome ∧ cfg.mode.executionEnabled = true)) asked := by
    unfold executorClaim
    split
    · rename_i henabled
      simp only [Watches, claimedOrder, readLog, Proc.safe_bind, Proc.safe_read]
      refine ⟨ha.watched, rfl, ?_, fun h => ⟨?_, henabled⟩⟩
      · intro ord ho
        obtain ⟨claim, -, hr⟩ := Option.bind_eq_some_iff.mp ho
        exact restoredOrder_signal hr
      · have hr := (hl (he.live h)).2
        rwa [EventLog.Restorable, ← he.answers.2.lookup_eq] at hr
    · rename_i hdisabled
      exact ⟨rfl, by simp, fun h => absurd (hl (he.live h)).1 hdisabled⟩
  apply hex.mono
  rintro claimed _ ⟨rfl, hc, hcl⟩
  simp only [Proc.safe_bind, Proc.safe_read]
  refine ⟨ha.watched, ha.watched, ?_⟩
  split
  · exact processBlocked_handles cfg ha (fun h => (hcl h).1) _ _ _
  · exact processOpen_handles cfg asg hc ha hcl now

end Call

section Run

variable [HexOrder] {world : World}

/-- They are runs of the engine. -/
theorem EntryRun.engineRun (hr : EntryRun world) : EngineRun world := by
  induction hr with
  | start hstored hunused => exact .start hstored hunused
  | process _ cfg hrow hsignal asg _ _ hcall ih =>
    exact .process ih cfg hrow hsignal asg (hcall.mono fun _ _ _ _ => Steady.answers)
  | control _ hcontrol time ih => exact .control ih hcontrol time
  | outside _ houtside ih => exact .outside ih houtside

theorem EntryRun.watched (hr : EntryRun world) : world.log.Watched := by
  induction hr with
  | start hstored hunused =>
    refine ⟨hstored, ?_, ?_, ?_⟩
    · simp [hunused.submissions]
    · simp [hunused.claims]
    · rintro signalId ⟨⟨⟨claim, hm, -⟩, -⟩, -⟩
      rw [hunused.claims] at hm
      cases hm
  | process _ cfg hrow hsignal asg hopen hclaim hcall ih =>
    refine (processSignal_handles cfg asg ⟨ih, ⟨_, hrow, hsignal⟩, ?_, ?_⟩ hclaim).reaches ih hcall
    · exact List.forall_mem_singleton.mpr ⟨_, hrow, hsignal⟩
    · exact List.forall_mem_singleton.mpr hopen
  | control _ hcontrol time ih =>
    have hs := ih.stored.ensureControlReductionSignals hcontrol time
    obtain ⟨rows, hl, -⟩ := ensureControlReductionSignals_spec _ _ time
    rw [hl] at hs ⊢
    exact ih.of_tables hs (fun _ => List.mem_append_left _) rfl rfl rfl fun _ => id
  | outside _ ho ih =>
    exact ih.of_tables (ho.stored ih.stored) ho.signals ho.claims ho.submissions ho.decisions
      fun _ hm => ho.positions.symm ▸ hm

/-- In a run with steady answers the live entries are visible at any moment at which each of
them has been decided at all. -/
theorem live_entries_visible_iff (hrun : EntryRun world) :
    world.log.Visible ↔ ∀ row ∈ world.log.signals, row.signalKind = .increase →
      world.log.LiveEntry row.signalId →
      ∃ dec ∈ world.log.decisions, dec.signalId = row.signalId := by
  have hw := hrun.watched
  constructor
  · intro hv row hr hk hl
    obtain ⟨claim, hc, hid, hli⟩ := hl.1.1
    have hp := (hv row hr hk claim hc hid hli hl.hasLiveClaim).2.1 _ le_rfl
    obtain ⟨other, -, -, -, hpe, he⟩ := mem_pendingIncreaseSignals hp
    have hsa : row.signalId = other.signalId := congrArg NormalizedSignal.signalId he
    rw [EventLog.isPendingEntry, Bool.and_eq_true, EventLog.decidedAs, ← hsa] at hpe
    cases hd : world.log.latestDecision row.signalId with
    | none => simp [hd] at hpe
    | some dec =>
      have hm := List.mem_filter.mp (newest_mem _ _ hd)
      exact ⟨dec, hm.1, of_decide_eq_true hm.2⟩
  · intro hd row hr hk claim hc hid hl hli
    have he := liveEntry_of_hasLiveClaim hc hid hl hli
    have hp : world.log.decidedAs row.signalId pendingDecisionStates = true := by
      obtain ⟨dec, hm, hde⟩ := hd row hr hk he
      cases hla : world.log.latestDecision row.signalId with
      | none =>
        rw [EventLog.latestDecision, newest_eq_none_iff, List.filter_eq_nil_iff] at hla
        exact absurd (decide_eq_true hde) (hla dec hm)
      | some latest =>
        rw [EventLog.decidedAs, hla]
        exact decide_eq_true (hw.live _ he latest hla)
    exact ⟨countsMargin_of_pending hw.stored hr hc hid hl hp,
      fun limit hle => mem_pendingIncreaseSignals_of_pending hw.stored hr hk hc hid hl hp hle,
      mem_leadersWithOwnedExposure_of_pending hr hk hc hid hp⟩

end Run

section RecoveredEntry

local instance recoveredEntryHexOrder : HexOrder := distinctHexOrder

/-- The exchange of the resting entry, with a clock that runs ahead of the journal. -/
def runningReply (world : World) : (query : Query) → query.Reply
  | .clock => (world.log.submissions.map (·.occurredAt)).max?.getD newYear + 1000000
  | query => restingReply false world.trace query

def runningAnswer (world : World) (query : Query) : query.Reply × World :=
  (runningReply world query,
    { world with trace := world.trace ++ [⟨world.log, query, runningReply world query⟩] })

theorem steady_runningAnswer (world : World) (qry : Query) :
    Steady entrySignalOfRow world qry (runningAnswer world qry).1 (runningAnswer world qry).2 := by
  refine ⟨answers_traced world qry _, ?_, fun _ => ?_⟩
  · cases qry <;> try trivial
    intro ev hm
    have hmem : ev.occurredAt ∈ world.log.submissions.map (·.occurredAt) :=
      List.mem_map_of_mem hm
    exact (le_getD_max? hmem newYear).trans_lt (lt_add_of_pos_right _ (by decide))
  · cases qry <;> try trivial
    · exact ⟨some 100, by with_unfolding_all decide⟩
    · rename_i now
      have hi : invalidSnapshotReasons {} ⟨now, true, true, 150, 150, 0⟩ now = [] := by
        simp [invalidSnapshotReasons]
      change (evaluateAccountRisk {} ⟨now, true, true, 150, 150, 0⟩ _ now).allowExecution = true
      unfold evaluateAccountRisk
      dsimp only
      rw [if_neg (not_not.mpr hi)]
      split
      · rfl
      · split <;> rfl

def entryAnnounced : World :=
  ((processSignal {} entrySignalOfRow activeLeader).run runningAnswer ⟨entryStored, []⟩).2

def entryRecovered : World :=
  ((processSignal {} entrySignalOfRow activeLeader).run runningAnswer entryAnnounced).2

theorem entryRun_entryAnnounced : EntryRun entryAnnounced :=
  .process (.start signalsStored_entryStored ⟨rfl, rfl, rfl, rfl, rfl, rfl⟩) {}
    (List.mem_singleton.mpr rfl) (entryRow.describes_normalized _) activeLeader
    (by intro dec hl; cases hl) (by rintro ⟨⟨⟨claim, hm, -⟩, -⟩, -⟩; cases hm)
    (Proc.reaches_run steady_runningAnswer)

theorem entryRun_entryRecovered : EntryRun entryRecovered := by
  refine .process entryRun_entryAnnounced {}
    (show entryRow ∈ entryAnnounced.log.signals by with_unfolding_all decide)
    (entryRow.describes_normalized _) activeLeader ?_ (fun _ => ⟨rfl, ?_⟩)
    (Proc.reaches_run steady_runningAnswer)
  · have hd : (entryAnnounced.log.latestDecision entryRow.signalId).all
        (·.state ∈ pendingDecisionStates) = true := by
      with_unfolding_all decide
    intro dec hl
    rw [show entryAnnounced.log.latestDecision entryRow.signalId = some dec from hl] at hd
    exact of_decide_eq_true hd
  · unfold EventLog.Restorable
    with_unfolding_all decide

theorem recovered_entry_visible : (entryRecovered.log.claims.map (·.orderType) = [.limit] ∧
      entryRecovered.log.hasLiveClaim entryRow.signalId = true) ∧ entryRecovered.log.Visible := by
  refine ⟨⟨by with_unfolding_all decide, by with_unfolding_all decide⟩, ?_⟩
  refine (live_entries_visible_iff entryRun_entryRecovered).mpr fun row hr _ _ => ?_
  have hs : entryRecovered.log.signals = [entryRow] := by with_unfolding_all decide
  rw [hs, List.mem_singleton] at hr
  rw [hr]
  with_unfolding_all decide

end RecoveredEntry

end AiQuant.CopyTrading
