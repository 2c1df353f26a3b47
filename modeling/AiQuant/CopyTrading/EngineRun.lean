import AiQuant.CopyTrading.Receipts
import AiQuant.CopyTrading.SubmissionRun

/-! The runtime as a transition system.  `_process_signal` writes the log by five kinds
of transactions only, and each of its fills is the fill of a journaled receipt: what
these transactions keep, every possibly stopped call keeps. -/
namespace AiQuant.CopyTrading
open AiQuant.Lib

/-- The event identifier is the digest of the event's own values. -/
def SubmissionEvent.Keyed (event : SubmissionEvent) : Prop :=
  ∃ response, event.eventId = .submissionEvent event.exchangeOrderId event.filledQuantity
    event.occurredAt response event.signalId event.state

theorem submissionEvent_keyed (signalId : Digest) (st : SubmissionState) (time : Time)
    (filledQuantity : Decimal) (exchangeOrderId : Option String)
    (resp : Option OrderResponse) (codes : List String) :
    (submissionEvent signalId st time filledQuantity exchangeOrderId resp codes).Keyed :=
  ⟨resp, rfl⟩

def fillStates : List SubmissionState := [.filled, .reconciled, .partiallyFilled]

/-- The journal holds a fill of the signal. -/
def EventLog.HasReceipt (log : EventLog) (signalId : Digest) (filledQuantity : Decimal) : Prop :=
  ∃ event ∈ log.submissions, event.signalId = signalId ∧ event.state ∈ fillStates ∧
    event.filledQuantity = filledQuantity

theorem hasReceipt_recordSubmission {log : EventLog} {ev : SubmissionEvent}
    (hk : ev.Keyed) (hst : ev.state ∈ fillStates) (hl : ∀ other ∈ log.submissions, other.Keyed) :
    (log.recordSubmission ev).HasReceipt ev.signalId ev.filledQuantity := by
  unfold EventLog.recordSubmission
  split
  · rename_i hknown
    rw [List.any_eq_true] at hknown
    obtain ⟨other, hm, hsa⟩ := hknown
    rw [decide_eq_true_eq] at hsa
    obtain ⟨resp, ho⟩ := hl other hm
    obtain ⟨response', he⟩ := hk
    rw [ho, he] at hsa
    injection hsa with _ hf _ _ hsi hs
    exact ⟨other, hm, hsi, hs ▸ hst, hf⟩
  · exact ⟨ev, by simp, rfl, hst, rfl⟩

theorem CopyExecutionReceipt.submission_mem_fillStates {rcpt : CopyExecutionReceipt}
    (ht : rcpt.isTerminal = true) : rcpt.state.submission ∈ fillStates := by
  unfold CopyExecutionReceipt.isTerminal at ht
  cases hs : rcpt.state <;> simp_all [CopyExecutionState.submission, fillStates]

section Rules

variable [HexOrder]

/-- The transactions of the runtime, for the signals in `related`. -/
inductive Transaction (related : NormalizedSignal → Prop) (before : EventLog) : EventLog → Prop
  | claim (order : CopyMarketOrder) (environment : BinanceFuturesEnvironment) (now : Time)
      (hrelated : related order.signal) :
      Transaction related before (before.claim
        (claimRow order (copyClientOrderId order.signal.signalId environment) now)
        (submissionEvent order.signal.signalId .submitting now 0 none none [])).2
  | record {event : SubmissionEvent} (hkeyed : event.Keyed) :
      Transaction related before (before.recordSubmission event)
  | decide {signal : NormalizedSignal} (hrelated : related signal) (state : DecisionState)
      (localQuantity : Decimal) (reasonCodes : List String) (occurredAt : Time) :
      Transaction related before
        (before.recordSignalDecision signal state localQuantity reasonCodes occurredAt)
  | attributes {fill : FillRecord} {after : EventLog} (hrelated : related fill.signal)
      (hreceipt : before.HasReceipt fill.signal.signalId |fill.localDelta|)
      (hrecord : before.recordVirtualPosition fill = .ok after) :
      Transaction related before after
  | control (state : RuntimeControlState) (actorId : String) (reasonCodes : List String)
      (occurredAt : Time) :
      Transaction related before
        (before.appendRuntimeControl state actorId reasonCodes occurredAt)

section Tables

variable {rel : NormalizedSignal → Prop} {pre post : EventLog}

section

variable (ht : Transaction rel pre post)
include ht

theorem Transaction.cases :
    (∃ claims submissions, (submissions = pre.submissions ∨ ∃ ev : SubmissionEvent,
        ev.Keyed ∧ submissions = pre.submissions ++ [ev]) ∧
        post = { pre with claims := claims, submissions := submissions }) ∨
      (∃ (signal : NormalizedSignal) (ev : SignalDecisionEvent), rel signal ∧
        ev.signalId = signal.signalId ∧
        post = { pre with decisions := pre.decisions ++ [ev] }) ∨
      (∃ fill prev res slot pnl, rel fill.signal ∧ fill.Valid ∧
        pre.HasReceipt fill.signal.signalId |fill.localDelta| ∧
        pre.recordVirtualPosition fill = .ok post ∧
        pre.Attributes fill post prev res slot pnl) ∨
      ∃ controls, (controls = pre.controls ∨ ∃ ev : RuntimeControlEvent,
        (∀ old ∈ pre.controls, old.controlEventId ≠ ev.controlEventId) ∧
        controls = pre.controls ++ [ev]) ∧
        post = { pre with controls := controls } := by
  cases ht with
  | claim ord env now _ =>
    rcases claim_cases pre (claimRow ord (copyClientOrderId ord.signal.signalId env) now)
      (submissionEvent ord.signal.signalId .submitting now 0 none none []) with
      hl | ⟨-, claimed, hw, hro⟩
    · rw [hl]
      exact Or.inl ⟨_, _, Or.inl rfl, rfl⟩
    · rw [hw, hro]
      exact Or.inl ⟨_, _, Or.inr ⟨_, submissionEvent_keyed _ _ _ _ _ _ _, rfl⟩, rfl⟩
  | record hk =>
    unfold EventLog.recordSubmission
    split
    · exact Or.inl ⟨_, _, Or.inl rfl, rfl⟩
    · exact Or.inl ⟨_, _, Or.inr ⟨_, hk, rfl⟩, rfl⟩
  | decide hr st amount codes time =>
    dsimp only [EventLog.recordSignalDecision]
    split
    · exact Or.inr (Or.inr (Or.inr ⟨_, Or.inl rfl, rfl⟩))
    · exact Or.inr (Or.inl ⟨_, _, hr, rfl, rfl⟩)
  | attributes hr hrec hre =>
    obtain ⟨hv, hu | ⟨prev, res, slot, pnl, ha⟩⟩ :=
      EventLog.recordVirtualPosition_cases hre
    · exact Or.inr (Or.inr (Or.inr ⟨_, Or.inl rfl, hu.1⟩))
    · exact Or.inr (Or.inr (Or.inl ⟨_, prev, res, slot, pnl, hr,
        hv, hrec, hre, ha⟩))
  | control st actorId codes time =>
    dsimp only [EventLog.appendRuntimeControl]
    split
    · exact Or.inr (Or.inr (Or.inr ⟨_, Or.inl rfl, rfl⟩))
    · rename_i hnew
      refine Or.inr (Or.inr (Or.inr ⟨_, Or.inr ⟨_, ?_, rfl⟩, rfl⟩))
      intro old ho hs
      exact hnew (List.any_eq_true.mpr ⟨old, ho, decide_eq_true hs⟩)

theorem Transaction.submissions_cases : post.submissions = pre.submissions ∨
      ∃ ev : SubmissionEvent, ev.Keyed ∧
        post.submissions = pre.submissions ++ [ev] := by
  rcases ht.cases with ⟨claims, submissions, hj, rfl⟩ | ⟨-, ev, -, -, rfl⟩ |
    ⟨fill, prev, res, slot, pnl, -, -, -, -, ha⟩ |
    ⟨controls, -, rfl⟩
  · exact hj
  · exact Or.inl rfl
  · rw [ha.after_eq]
    exact Or.inl rfl
  · exact Or.inl rfl

theorem Transaction.claims_cases : post.policyUpgrades = pre.policyUpgrades ∧
      (post.claims = pre.claims ∨
        ∃ (ord : CopyMarketOrder) (env : BinanceFuturesEnvironment) (now : Time),
          rel ord.signal ∧
          (∀ claim ∈ pre.claims, claim.signalId ≠ ord.signal.signalId) ∧
          post = { pre with
            claims := pre.claims ++
              [claimRow ord (copyClientOrderId ord.signal.signalId env) now]
            submissions := pre.submissions ++
              [submissionEvent ord.signal.signalId .submitting now 0 none none []] }) := by
  cases ht with
  | claim ord env now hr =>
    rcases claim_cases pre (claimRow ord (copyClientOrderId ord.signal.signalId env) now)
      (submissionEvent ord.signal.signalId .submitting now 0 none none []) with
      hl | ⟨hf, claimed, hw, hro⟩
    · rw [hl]
      exact ⟨rfl, Or.inl rfl⟩
    · rw [hw, hro]
      exact ⟨rfl, Or.inr ⟨ord, env, now, hr, hf, rfl⟩⟩
  | record _ => exact ⟨recordSubmission_policyUpgrades _, Or.inl (recordSubmission_claims _)⟩
  | decide _ _ _ _ _ =>
    dsimp only [EventLog.recordSignalDecision]
    split <;> exact ⟨rfl, Or.inl rfl⟩
  | attributes _ _ hrecord =>
    obtain ⟨-, hu | ⟨prev, res, slot, pnl, ha⟩⟩ :=
      EventLog.recordVirtualPosition_cases hrecord
    · rw [hu.1]
      exact ⟨rfl, Or.inl rfl⟩
    · rw [ha.after_eq]
      exact ⟨rfl, Or.inl rfl⟩
  | control _ _ _ _ =>
    dsimp only [EventLog.appendRuntimeControl]
    split <;> exact ⟨rfl, Or.inl rfl⟩

theorem Transaction.positions_added : ∀ ev ∈ post.positions, ev ∈ pre.positions ∨
      ∃ fill : FillRecord, rel fill.signal ∧ fill.Valid ∧ ev = fill.positionEvent := by
  rcases ht.cases with ⟨claims, submissions, -, rfl⟩ | ⟨-, ev, -, -, rfl⟩ |
    ⟨fill, prev, res, slot, pnl, hr, hv, -, -, ha⟩ |
    ⟨controls, -, rfl⟩
  · exact fun _ => Or.inl
  · exact fun _ => Or.inl
  · rw [ha.after_eq]
    intro ev hm
    rcases List.mem_append.mp hm with ho | hn
    · exact Or.inl ho
    · exact Or.inr ⟨fill, hr, hv, List.mem_singleton.mp hn⟩
  · exact fun _ => Or.inl

theorem Transaction.decisions_added : ∀ dec ∈ post.decisions, dec ∈ pre.decisions ∨
      ∃ signal : NormalizedSignal, rel signal ∧ dec.signalId = signal.signalId := by
  rcases ht.cases with ⟨claims, submissions, -, rfl⟩ |
    ⟨signal, ev, hr, hs, rfl⟩ |
    ⟨fill, prev, res, slot, pnl, -, -, -, -, ha⟩ |
    ⟨controls, -, rfl⟩
  · exact fun _ => Or.inl
  · intro dec hm
    rcases List.mem_append.mp hm with ho | hn
    · exact Or.inl ho
    · exact Or.inr ⟨signal, hr, List.mem_singleton.mp hn ▸ hs⟩
  · rw [ha.after_eq]
    exact fun _ => Or.inl
  · exact fun _ => Or.inl

theorem Transaction.keyed (hb : ∀ ev ∈ pre.submissions, ev.Keyed) :
    ∀ ev ∈ post.submissions, ev.Keyed := by
  rcases ht.submissions_cases with hs | ⟨ev, hk, ha⟩
  · rw [hs]
    exact hb
  · rw [ha]
    intro other ho
    rcases List.mem_append.mp ho with hold | hn
    · exact hb other hold
    · rw [List.mem_singleton.mp hn]
      exact hk

theorem Transaction.hasReceipt
    {signalId : Digest} {filledQuantity : Decimal} (hr : pre.HasReceipt signalId filledQuantity) :
    post.HasReceipt signalId filledQuantity := by
  obtain ⟨ev, hm, hv⟩ := hr
  refine ⟨ev, ?_, hv⟩
  rcases ht.submissions_cases with hs | ⟨added, -, ha⟩
  · rw [hs]
    exact hm
  · rw [ha]
    exact List.mem_append_left _ hm

end

end Tables

/-- The journal grows by events of the signals in `related`. -/
def JournalGrows (related : NormalizedSignal → Prop) (before after : EventLog) : Prop :=
  ∃ added, after.submissions = before.submissions ++ added ∧
    ∀ event ∈ added, ∃ signal, related signal ∧ event.signalId = signal.signalId

section Journal

variable {rel : NormalizedSignal → Prop} {pre post : EventLog} {signal : NormalizedSignal}

omit [HexOrder] in
theorem JournalGrows.same (hs : post.submissions = pre.submissions) :
    JournalGrows rel pre post :=
  ⟨[], by rw [hs, List.append_nil], fun _ hm => absurd hm List.not_mem_nil⟩

omit [HexOrder] in
theorem JournalGrows.record (hr : rel signal) {ev : SubmissionEvent}
    (hid : ev.signalId = signal.signalId) : JournalGrows rel pre (pre.recordSubmission ev) := by
  unfold EventLog.recordSubmission
  split
  · exact .same rfl
  · exact ⟨[ev], rfl, List.forall_mem_singleton.mpr ⟨signal, hr, hid⟩⟩

omit [HexOrder] in
theorem JournalGrows.claim {claim : SubmissionClaimRow} (hr : rel signal)
    {ev : SubmissionEvent} (hid : ev.signalId = signal.signalId) :
    JournalGrows rel pre (pre.claim claim ev).2 := by
  rcases claim_cases pre claim ev with hl | ⟨-, claimed, hw, hro⟩
  · rw [hl]
    exact .same rfl
  · rw [hw, hro]
    exact ⟨[ev], rfl, List.forall_mem_singleton.mpr ⟨signal, hr, hid⟩⟩

omit [HexOrder] in
theorem JournalGrows.decide (st : DecisionState) (amount : Decimal)
    (codes : List String) (time : Time) : JournalGrows rel pre
      (pre.recordSignalDecision signal st amount codes time) := by
  dsimp only [EventLog.recordSignalDecision]
  split <;> exact .same rfl

theorem JournalGrows.attributes {fill : FillRecord}
    (hr : pre.recordVirtualPosition fill = .ok post) : JournalGrows rel pre post := by
  obtain ⟨-, hu | ⟨prev, res, slot, pnl, ha⟩⟩ :=
    EventLog.recordVirtualPosition_cases hr
  · exact .same (by rw [hu.1])
  · exact .same (by rw [ha.after_eq])

omit [HexOrder] in
theorem JournalGrows.control (st : RuntimeControlState) (actorId : String)
    (codes : List String) (time : Time) : JournalGrows rel pre
      (pre.appendRuntimeControl st actorId codes time) := by
  dsimp only [EventLog.appendRuntimeControl]
  split <;> exact .same rfl

end Journal

/-- The rules to prove an invariant of every possibly stopped call of
`_process_signal`. -/
structure EngineRules (env : World → (query : Query) → query.Reply → World → Prop)
    (related : NormalizedSignal → Prop) (invariant : World → Prop) : Prop where
  keyed : ∀ {world}, invariant world → ∀ event ∈ world.log.submissions, event.Keyed
  pending : ∀ {world key entry}, invariant world →
    entry ∈ world.log.pendingIncreaseSignals key 100 → related entry
  asks : ∀ {before query reply after}, invariant before → env before query reply after →
    invariant after ∧ after.log.submissions = before.log.submissions ∧
      ∀ signalId, after.log.lookup signalId = before.log.lookup signalId
  writes : ∀ {before log}, invariant before → Transaction related before.log log →
    JournalGrows related before.log log → invariant { before with log := log }

namespace EngineRules

variable {env : World → (qry : Query) → qry.Reply → World → Prop}
  {rel : NormalizedSignal → Prop} {inv : World → Prop} {world : World}
  {signal : NormalizedSignal} {rcpt : CopyExecutionReceipt}

def Receipted (signal : NormalizedSignal) (receipt : CopyExecutionReceipt) (world : World) :
    Prop :=
  receipt.isTerminal = true → world.log.HasReceipt signal.signalId receipt.filledQuantity

theorem ask (hru : EngineRules env rel inv) {pre post : World} {qry : Query}
    {reply : qry.Reply} (hb : inv pre) (he : env pre qry reply post)
    (hr : Receipted signal rcpt pre) : inv post ∧ Receipted signal rcpt post := by
  obtain ⟨ha, hs, -⟩ := hru.asks hb he
  refine ⟨ha, fun ht => ?_⟩
  unfold EventLog.HasReceipt
  rw [hs]
  exact hr ht

theorem journalRules (hr : EngineRules env rel inv) (hrel : rel signal) :
    JournalRules env signal inv (Receipted signal) where
  asks hbefore he := by
    obtain ⟨haf, -, hl⟩ := hr.asks hbefore he
    exact ⟨haf, hl signal.signalId⟩
  records rcpt exchangeOrderId resp hworld := by
    simp only [recordNow, clock, writeLog, Proc.safe_bind, Proc.safe_question, Proc.safe_write]
    intro time asked he
    have ha := (hr.asks hworld he).1
    have hk := submissionEvent_keyed signal.signalId rcpt.state.submission time
      rcpt.filledQuantity exchangeOrderId resp rcpt.reasonCodes
    have hre := hr.writes ha (.record hk) (.record hrel rfl)
    exact ⟨ha, hre, hre,
      fun ht => hasReceipt_recordSubmission hk
        (CopyExecutionReceipt.submission_mem_fillStates ht) (hr.keyed ha)⟩
  resubmits codes hworld := by
    simp only [recordNow, clock, writeLog, Proc.safe_bind, Proc.safe_question, Proc.safe_write]
    intro time asked he
    have ha := (hr.asks hworld he).1
    have hre := hr.writes ha (.record (submissionEvent_keyed signal.signalId
      .submitting time 0 none none codes)) (.record hrel rfl)
    exact ⟨ha, hre, hre⟩
  claims ord environment hsignal hworld := by
    subst hsignal
    simp only [claimSubmission, clock, Proc.safe_bind, Proc.safe_question, Proc.safe_transact]
    intro now asked he
    have ha := (hr.asks hworld he).1
    have hc := hr.writes ha (.claim ord environment now hrel) (.claim hrel rfl)
    exact ⟨ha, hc, hc⟩
  unknown _ hs ht := by simp [CopyExecutionReceipt.isTerminal, hs] at ht
  refused _ _ hs ht := by simp [CopyExecutionReceipt.isTerminal, hs] at ht

theorem recordDecision (hru : EngineRules env rel inv) (hr : rel signal)
    (hw : inv world) (st : DecisionState) (amount : Decimal) (codes : List String) (time : Time) :
    (recordDecision signal st amount codes time).Safe env inv
      (fun _ reached => inv reached ∧ reached.log.submissions = world.log.submissions)
      world := by
  have hd := hru.writes hw (.decide hr st amount codes time) (.decide _ _ _ _)
  refine ⟨hd, hd, ?_⟩
  dsimp only [EventLog.recordSignalDecision]
  split <;> rfl

theorem decided (hru : EngineRules env rel inv) (hr : rel signal)
    (hw : inv world) (st : DecisionState) (amount : Decimal) (codes : List String) (time : Time) :
    (AiQuant.CopyTrading.recordDecision signal st amount codes time).Safe
      env inv (fun _ => inv) world :=
  (hru.recordDecision hr hw st amount codes time).mono
    fun _ _ hre => hre.1

theorem recordVirtualPosition (hru : EngineRules env rel inv) {fill : FillRecord}
    (hre : rel fill.signal) (hw : inv world)
    (hrec : world.log.HasReceipt fill.signal.signalId |fill.localDelta|) :
    (recordVirtualPosition fill).Safe env inv (fun _ => inv) world := by
  simp only [AiQuant.CopyTrading.recordVirtualPosition, Proc.safe_bind, Proc.safe_transact]
  cases hr : world.log.recordVirtualPosition fill with
  | error code => exact ⟨hw, Proc.safe_halt⟩
  | ok log =>
    have ha := hru.writes hw (.attributes hre hrec hr) (.attributes hr)
    exact ⟨ha, ha⟩

theorem recordIncreaseFill (hru : EngineRules env rel inv)
    (hr : rel signal) (hw : inv world)
    (hrec : world.log.HasReceipt signal.signalId rcpt.filledQuantity) (time : Time) :
    (recordIncreaseFill signal rcpt time).Safe env inv (fun _ => inv)
      world := by
  unfold AiQuant.CopyTrading.recordIncreaseFill
  split
  · exact hw
  rename_i hguards
  simp only [not_or, not_le, not_lt] at hguards
  simp only [readLog, Proc.safe_bind, Proc.safe_read]
  refine ⟨hw, ?_⟩
  split
  · exact Proc.safe_halt
  · rename_i updated _ hupdated
    obtain ⟨-, -, -, hl⟩ := VirtualPositionLedger.recordIncreaseFill_spec hupdated
    simp only [Proc.safe_bind]
    apply (hru.recordVirtualPosition hr hw ?_).mono
    · intro _ reached hre
      exact hru.decided hr hre _ _ _ _
    · simpa [FillRecord.localDelta, hl, abs_of_pos hguards.2.1] using hrec

theorem attributeEntry (hru : EngineRules env rel inv) (hr : rel signal)
    (hw : inv world) (hrec : world.log.HasReceipt signal.signalId rcpt.filledQuantity)
    (time : Time) : (attributeEntry signal rcpt time).Safe env inv (fun _ => inv)
      world := by
  simp only [AiQuant.CopyTrading.attributeEntry, Proc.safe_bind]
  apply (hru.recordIncreaseFill hr hw hrec time).mono
  intro attributed reached hre
  split
  · exact hre
  · exact hru.decided hr hre _ _ _ _

theorem attributeReduction (hru : EngineRules env rel inv)
    (hr : rel signal) {ledger aligned : VirtualPositionLedger}
    {rules : SymbolTradingRules} {sourceBefore : Option Decimal} {plan : ReductionPlan}
    (hp : ledger.planReduction signal rules sourceBefore = (plan, aligned))
    (ha : plan.approved = true) (hw : inv world)
    (hrec : world.log.HasReceipt signal.signalId rcpt.filledQuantity) (time : Time) :
    (attributeReduction signal aligned plan rcpt time).Safe env inv (fun _ => inv) world := by
  unfold AiQuant.CopyTrading.attributeReduction
  split
  · exact hru.decided hr hw _ _ _ _
  split
  · exact Proc.safe_halt
  · rename_i updated _ hupdated
    obtain ⟨hf, hl⟩ :=
      VirtualPositionLedger.recordReductionFill_planned hp ha hupdated
    rw [Proc.safe_bind]
    apply (hru.recordVirtualPosition hr hw ?_).mono
    · intro _ reached hre
      exact hru.decided hr hre _ _ _ _
    · simpa [FillRecord.localDelta, hl, abs_of_pos hf] using hrec

theorem recordBlockedClaimResult (hru : EngineRules env rel inv)
    (hr : rel signal) (hw : inv world) (hre : Receipted signal rcpt world) (time : Time) :
    (recordBlockedClaimResult signal rcpt time).Safe env inv (fun _ => inv)
      world := by
  unfold AiQuant.CopyTrading.recordBlockedClaimResult
  split
  · rename_i hterminal
    split
    · exact hru.decided hr hw _ _ _ _
    · exact hru.attributeEntry hr hw (hre hterminal) time
  split
  · exact hru.decided hr hw _ _ _ _
  · exact hru.decided hr hw _ _ _ _

theorem recordOutcome (hru : EngineRules env rel inv) (hr : rel signal)
    {onFill : CopyExecutionReceipt → Time → Engine Unit} (hw : inv world)
    (hf : rcpt.isTerminal = true → ∀ time,
      (onFill rcpt time).Safe env inv (fun _ => inv) world) (time : Time) :
    (recordOutcome signal rcpt onFill time).Safe env inv (fun _ => inv)
      world := by
  unfold AiQuant.CopyTrading.recordOutcome
  split
  · rename_i hterminal
    split
    · exact hru.decided hr hw _ _ _ _
    split
    · split
      · exact hw
      · exact hru.decided hr hw _ _ _ _
    · exact hf hterminal time
  split
  · exact hru.decided hr hw _ _ _ _
  · exact hru.decided hr hw _ _ _ _
  · exact hw
  · exact hru.decided hr hw _ _ _ _

theorem announceSubmission (hru : EngineRules env rel inv)
    (hrel : rel signal) (hw : inv world) (hre : Receipted signal rcpt world) (now : Time) :
    (announceSubmission signal rcpt now).Safe env inv
      (fun _ reached => inv reached ∧ Receipted signal rcpt reached) world := by
  unfold AiQuant.CopyTrading.announceSubmission
  split
  · exact ⟨hw, hre⟩
  · apply (hru.recordDecision hrel hw _ _ _ _).mono
    intro _ reached hr
    refine ⟨hr.1, fun ht => ?_⟩
    unfold EventLog.HasReceipt
    rw [hr.2]
    exact hre ht

variable (cfg : RuntimeSettings)

theorem submitSignal (hru : EngineRules env rel inv) (hr : rel signal)
    {ord : CopyMarketOrder} (hs : ord.signal = signal)
    {onFill : CopyExecutionReceipt → Time → Engine Unit} (hw : inv world)
    (hf : ∀ rcpt reached, inv reached →
      reached.log.HasReceipt signal.signalId rcpt.filledQuantity → ∀ time,
        (onFill rcpt time).Safe env inv (fun _ => inv) reached)
    (amount : Decimal) (risk : AccountRiskDecision) (now : Time) :
    (submitSignal cfg signal ord amount risk onFill now).Safe env inv (fun _ => inv) world := by
  unfold AiQuant.CopyTrading.submitSignal
  split
  · exact hru.decided hr hw _ _ _ _
  split
  · exact hru.decided hr hw _ _ _ _
  rw [Proc.safe_bind]
  apply ((hru.journalRules hr).execute cfg.executor hs hw risk).mono
  rintro rcpt executed ⟨he, hre⟩
  rw [Proc.safe_bind]
  apply (hru.announceSubmission hr he hre now).mono
  rintro _ announced ⟨han, hre⟩
  simp only [clock, Proc.safe_bind, Proc.safe_question]
  intro clockAt asked henv
  obtain ⟨ha, hre⟩ := hru.ask han henv hre
  exact ⟨ha, hru.recordOutcome hr ha (fun ht => hf rcpt asked ha (hre ht)) _⟩

theorem applyRiskControl (hr : EngineRules env rel inv) (hw : inv world)
    (risk : AccountRiskDecision) (now : Time) :
    (applyRiskControl cfg risk now).Safe env inv (fun _ => inv) world := by
  unfold AiQuant.CopyTrading.applyRiskControl
  split
  · exact hw
  simp only [readLog, Proc.safe_bind, Proc.safe_read]
  refine ⟨hw, ?_⟩
  split
  · have hc := hr.writes hw
      (.control .reduceAll "account-risk-engine" risk.reasonCodes now) (.control _ _ _ _)
    exact ⟨hc, hc⟩
  split
  · have hc := hr.writes hw
      (.control .pausedNewEntries "account-risk-engine" risk.reasonCodes now) (.control _ _ _ _)
    exact ⟨hc, hc⟩
  · exact hw

theorem cancelEntry (hru : EngineRules env rel inv) {entry : NormalizedSignal}
    (hr : rel entry) (hw : inv world) (now : Time) :
    (cancelEntry cfg entry now).Safe env inv (fun _ => inv) world := by
  simp only [AiQuant.CopyTrading.cancelEntry, Proc.safe_bind]
  apply ((hru.journalRules hr).cancelPendingIncrease cfg.executor hw _).mono
  rintro rcpt cancelled ⟨hc, hre⟩
  split
  · rename_i hterminal
    exact hru.recordIncreaseFill hr hc (hre hterminal) now
  split
  · rw [Proc.safe_bind]
    exact hru.decided hr hc _ _ _ _
  · rw [Proc.safe_bind]
    exact hru.decided hr hc _ _ _ _

theorem cancelEntries (hru : EngineRules env rel inv) {entries : List NormalizedSignal}
    (hr : ∀ entry ∈ entries, rel entry) (hw : inv world) (now : Time) :
    (cancelEntries cfg now entries).Safe env inv (fun _ => inv) world := by
  induction entries generalizing world with
  | nil => exact hw
  | cons entry entries ih =>
    simp only [AiQuant.CopyTrading.cancelEntries, Proc.safe_bind]
    apply (hru.cancelEntry cfg (hr entry (by simp)) hw now).mono
    intro resolved reached hre
    split
    · exact ih (fun other ho => hr other (by simp [ho])) hre
    · exact hre

theorem cancelPages (hru : EngineRules env rel inv) (hw : inv world)
    (key : VirtualPositionKey) (now : Time) (pages : ℕ) :
    (cancelPages cfg key now pages).Safe env inv (fun _ => inv) world := by
  induction pages generalizing world with
  | zero => exact hw
  | succ pages ih =>
    simp only [AiQuant.CopyTrading.cancelPages, readLog, Proc.safe_bind, Proc.safe_read]
    refine ⟨hw, ?_⟩
    apply (hru.cancelEntries cfg (fun _ he => hru.pending hw he) hw now).mono
    intro resolved reached hr
    split
    · split
      · exact hr
      · exact ih hr
    · exact hr

theorem resolveSuperseded (hr : EngineRules env rel inv) (hw : inv world)
    (sourceBefore : Option Decimal) (now : Time) :
    (resolveSuperseded cfg signal sourceBefore now).Safe env inv (fun _ => inv)
      world := by
  unfold AiQuant.CopyTrading.resolveSuperseded
  split
  · exact hr.cancelPages cfg hw _ _ _
  · exact hw

theorem processEntry (hru : EngineRules env rel inv) (hr : rel signal)
    {claimed : Option CopyMarketOrder} (hc : ∀ ord ∈ claimed, ord.signal = signal)
    (hw : inv world) (asg : LeaderAssignment) (rules : SymbolTradingRules)
    (limitPrice : Decimal) (acct : CopyAccountSnapshot) (risk : AccountRiskDecision)
    (now : Time) : (processEntry cfg signal asg claimed rules limitPrice acct risk now).Safe env
      inv (fun _ => inv) world := by
  have hf : ∀ rcpt reached, inv reached →
      reached.log.HasReceipt signal.signalId rcpt.filledQuantity → ∀ time,
        (AiQuant.CopyTrading.attributeEntry signal rcpt time).Safe env inv (fun _ => inv) reached :=
    fun rcpt reached hre hrec => hru.attributeEntry hr hre hrec
  unfold AiQuant.CopyTrading.processEntry
  split
  · exact hru.submitSignal cfg hr (hc _ rfl) hw hf _ _ _
  simp only [readLog, Proc.safe_bind, Proc.safe_read]
  refine ⟨hw, ?_⟩
  split
  · exact Proc.safe_halt
  split
  · exact hru.decided hr hw _ _ _ _
  split
  · exact Proc.safe_halt
  · rename_i ord horder
    exact hru.submitSignal cfg hr (create_signal horder) hw hf _ _ _

omit [HexOrder] in
theorem claimed_or_create_signal {claimed : Option CopyMarketOrder}
    (hc : ∀ ord ∈ claimed, ord.signal = signal) {qty : Decimal} {leverage : ℕ}
    {orderType : CopyOrderType} {limitPrice : Option Decimal} {expiresAt : Option Time}
    {ord : CopyMarketOrder}
    (ho : (claimed <|> CopyMarketOrder.create signal qty leverage orderType limitPrice
      expiresAt) = some ord) : ord.signal = signal := by
  cases claimed with
  | none => exact create_signal ho
  | some restored =>
    cases ho
    exact hc _ rfl

theorem processReduction (hru : EngineRules env rel inv) (hr : rel signal)
    {claimed : Option CopyMarketOrder} (hc : ∀ ord ∈ claimed, ord.signal = signal)
    (hw : inv world) (rules : SymbolTradingRules) (risk : AccountRiskDecision) (now : Time) :
    (processReduction cfg signal claimed rules risk now).Safe env inv (fun _ => inv) world := by
  simp only [AiQuant.CopyTrading.processReduction, readLog, Proc.safe_bind, Proc.safe_read]
  refine ⟨hw, ?_⟩
  apply (hru.resolveSuperseded cfg hw _ now).mono
  intro resolved reached hre
  split
  · exact hru.decided hr hre _ _ _ _
  rw [Proc.safe_bind, Proc.safe_read]
  refine ⟨hre, ?_⟩
  split
  · exact hru.decided hr hre _ _ _ _
  rename_i happroved
  split
  · exact Proc.safe_halt
  · rename_i ord horder
    have hs : ord.signal = signal := claimed_or_create_signal hc horder
    apply hru.submitSignal cfg hr hs hre
    intro rcpt executed he hrec
    exact hru.attributeReduction hr rfl (by simpa using happroved) he hrec

theorem processBlocked (hru : EngineRules env rel inv) (hr : rel signal)
    (claimed : Option CopyMarketOrder) (hw : inv world) (control : RuntimeControl)
    (block : EntryBlock) (now : Time) :
    (processBlocked cfg signal claimed control block now).Safe env inv (fun _ => inv) world := by
  unfold AiQuant.CopyTrading.processBlocked
  split
  · split
    · exact hru.decided hr hw _ _ _ _
    · exact hru.decided hr hw _ _ _ _
  · rw [Proc.safe_bind]
    apply ((hru.journalRules hr).cancelPendingIncrease cfg.executor hw _).mono
    rintro rcpt cancelled ⟨hc, hre⟩
    exact hru.recordBlockedClaimResult hr hc hre now

theorem readMarket (hr : EngineRules env rel inv) (hw : inv world) (now : Time) :
    (readMarket signal now).Safe env inv (fun _ => inv) world := by
  simp only [AiQuant.CopyTrading.readMarket, Proc.safe_bind, Proc.safe_question]
  intro rules asked he
  have ha := (hr.asks hw he).1
  refine ⟨ha, ?_⟩
  split
  · exact ha
  split
  · exact ha
  rw [Proc.safe_bind, Proc.safe_question]
  intro acct read he
  have hre := (hr.asks ha he).1
  refine ⟨hre, ?_⟩
  split <;> exact hre

theorem processOpen (hr : EngineRules env rel inv) (hre : rel signal)
    {claimed : Option CopyMarketOrder} (hcl : ∀ ord ∈ claimed, ord.signal = signal)
    (hw : inv world) (asg : LeaderAssignment) (now : Time) :
    (processOpen cfg signal asg claimed now).Safe env inv (fun _ => inv)
      world := by
  simp only [AiQuant.CopyTrading.processOpen, Proc.safe_bind]
  apply (hr.readMarket hw now).mono
  intro market read hread
  split
  · exact Proc.safe_halt
  · exact hr.decided hre hread _ _ _ _
  · rw [Proc.safe_bind]
    apply (hr.applyRiskControl cfg hread _ now).mono
    intro _ controlled hc
    split
    · exact hr.processEntry cfg hre hcl hc _ _ _ _ _ _
    · exact hr.processReduction cfg hre hcl hc _ _ _

theorem executorClaim (hw : inv world) :
    (executorClaim cfg signal).Safe env inv (fun claimed reached =>
      reached = world ∧ ∀ ord ∈ claimed, ord.signal = signal) world := by
  unfold AiQuant.CopyTrading.executorClaim
  split
  · simp only [claimedOrder, readLog, Proc.safe_bind, Proc.safe_read]
    refine ⟨hw, rfl, ?_⟩
    intro ord ho
    obtain ⟨claim, -, hr⟩ := Option.bind_eq_some_iff.mp ho
    exact restoredOrder_signal hr
  · exact ⟨rfl, by simp⟩

theorem processSignal (hru : EngineRules env rel inv) (hr : rel signal)
    (hw : inv world) (asg : LeaderAssignment) :
    (processSignal cfg signal asg).Safe env inv (fun _ => inv)
      world := by
  simp only [AiQuant.CopyTrading.processSignal, clock, readLog, Proc.safe_bind,
    Proc.safe_question, Proc.safe_read]
  intro now asked he
  have ha := (hru.asks hw he).1
  refine ⟨ha, ha, ?_⟩
  split
  · exact Proc.safe_halt
  · exact hru.decided hr ha _ _ _ _
  rw [Proc.safe_bind]
  apply (executorClaim cfg ha).mono
  rintro claimed _ ⟨rfl, hc⟩
  simp only [Proc.safe_bind, Proc.safe_read]
  refine ⟨ha, ha, ?_⟩
  split
  · exact hru.processBlocked cfg hr claimed ha _ _ _
  · exact hru.processOpen cfg hr hc ha asg now

end EngineRules

end Rules

section Run

/-- A signal with the identity, key, kind and quantities of a stored row. -/
structure SignalRow.Describes (row : SignalRow) (signal : NormalizedSignal) : Prop where
  signalId : signal.signalId = row.signalId
  key : signal.key = row.key
  kind : signal.kind = row.signalKind
  delta : signal.sourceDeltaQuantity = row.sourceDeltaQuantity
  price : signal.referencePrice = row.referencePrice

theorem SignalRow.describes_normalized (row : SignalRow) (delta : Option SourceFillDeltaEvent) :
    row.Describes (row.normalized delta) :=
  ⟨rfl, rfl, rfl, rfl, rfl⟩

/-- What the writers of signals and controls guarantee: identifiers are unique, an entry
has its fill delta, and the identifier of a control reduction belongs to a reduction of
its own key, for a recorded control event. -/
structure EventLog.SignalsStored (log : EventLog) : Prop where
  nodup : (log.signals.map (·.signalId)).Nodup
  entries : ∀ row ∈ log.signals, row.signalKind = .increase → (log.deltaOf row).isSome
  controls : ∀ row ∈ log.signals, ∀ controlEventId key,
    row.signalId = controlSignalId controlEventId key →
      row.key = key ∧ row.signalKind = .reduce ∧
        ∃ control ∈ log.controls, control.controlEventId = controlEventId
  nodup_controls : (log.controls.map (·.controlEventId)).Nodup

structure EventLog.Unused (log : EventLog) : Prop where
  positions : log.positions = []
  pnls : log.pnls = []
  decisions : log.decisions = []
  claims : log.claims = []
  submissions : log.submissions = []
  policyUpgrades : log.policyUpgrades = []

/-- What the pollers, the operators and the stop rules may do meanwhile: anything but
write the tables that only the runtime writes. -/
structure Outside (before after : EventLog) : Prop where
  positions : after.positions = before.positions
  pnls : after.pnls = before.pnls
  decisions : after.decisions = before.decisions
  claims : after.claims = before.claims
  submissions : after.submissions = before.submissions
  policyUpgrades : after.policyUpgrades = before.policyUpgrades
  signals : ∀ row ∈ before.signals, row ∈ after.signals
  controls : ∃ added, after.controls = before.controls ++ added
  stored : before.SignalsStored → after.SignalsStored

/-- Any answer, kept in the trace. -/
def Answers (before : World) (query : Query) (reply : query.Reply) (after : World) : Prop :=
  after.trace = before.trace ++ [⟨before.log, query, reply⟩] ∧ Outside before.log after.log

theorem Outside.lookup_eq {pre post : EventLog} (ho : Outside pre post)
    (signalId : Digest) : post.lookup signalId = pre.lookup signalId := by
  simp only [EventLog.lookup, EventLog.latestSubmitting, ho.claims,
    ho.policyUpgrades, ho.submissions]

variable [HexOrder]

/-- Every world the runtime reaches from unused tables.  A call of `_process_signal` may
stop anywhere; control reductions are written while `REDUCE_ALL` is the latest control. -/
inductive EngineRun : World → Prop
  | start {log : EventLog} (hstored : log.SignalsStored) (hunused : log.Unused) :
      EngineRun ⟨log, []⟩
  | process {world reached : World} (hrun : EngineRun world) (settings : RuntimeSettings)
      {row : SignalRow} (hrow : row ∈ world.log.signals) {signal : NormalizedSignal}
      (hsignal : row.Describes signal) (assignment : LeaderAssignment)
      (hcall : Proc.Reaches Answers world (processSignal settings signal assignment) reached) :
      EngineRun reached
  | control {world : World} (hrun : EngineRun world) {controlEventId : Digest}
      (hcontrol : world.log.latestRuntimeControl.state = .reduceAll ∧
        world.log.latestRuntimeControl.eventId = some controlEventId) (occurredAt : Time) :
      EngineRun { world with
        log := world.log.ensureControlReductionSignals controlEventId occurredAt }
  | outside {world : World} (hrun : EngineRun world) {log : EventLog}
      (houtside : Outside world.log log) : EngineRun { world with log := log }

structure LogRules (related : NormalizedSignal → Prop) (invariant : EventLog → Prop) : Prop where
  start : ∀ {log}, log.SignalsStored → log.Unused → invariant log
  keyed : ∀ {log}, invariant log → ∀ event ∈ log.submissions, event.Keyed
  related_of_row : ∀ {log row signal}, invariant log → row ∈ log.signals →
    row.Describes signal → related signal
  writes : ∀ {log after}, invariant log → Transaction related log after → invariant after
  controls : ∀ {log} (controlEventId occurredAt), invariant log →
    invariant (log.ensureControlReductionSignals controlEventId occurredAt)
  outside : ∀ {log after}, invariant log → Outside log after → invariant after

variable {rel : NormalizedSignal → Prop} {inv : EventLog → Prop} {world : World}

theorem mem_pendingIncreaseSignals {log : EventLog} {key : VirtualPositionKey} {limit : ℕ}
    {entry : NormalizedSignal} (he : entry ∈ log.pendingIncreaseSignals key limit) :
    ∃ row ∈ log.signals, row.key = key ∧ row.signalKind = .increase ∧
      log.isPendingEntry row.signalId = true ∧ entry = row.normalized (log.deltaOf row) := by
  obtain ⟨row, hr, rfl⟩ := List.mem_map.mp he
  have hr := List.mem_of_mem_take hr
  rw [orderedSignals, List.mem_insertionSort, List.mem_filter] at hr
  simp only [Bool.and_eq_true, decide_eq_true_eq] at hr
  exact ⟨row, hr.1, hr.2.1.1.1, hr.2.1.1.2, hr.2.2, rfl⟩

theorem EventLog.SignalsStored.pending_ne {log : EventLog} (hs : log.SignalsStored)
    {signalId : Digest}
    (hrow : ∃ row ∈ log.signals, row.signalId = signalId ∧ row.signalKind = .reduce)
    {key : VirtualPositionKey} {limit : ℕ} {entry : NormalizedSignal}
    (he : entry ∈ log.pendingIncreaseSignals key limit) : entry.signalId ≠ signalId := by
  obtain ⟨row, hrow, hid, hr⟩ := hrow
  obtain ⟨other, ho, -, hi, -, rfl⟩ := mem_pendingIncreaseSignals he
  intro hsa
  have heq := List.inj_on_of_nodup_map hs.nodup ho hrow (hsa.trans hid.symm)
  rw [heq, hr] at hi
  cases hi

theorem LogRules.engineRules (hr : LogRules rel inv) :
    EngineRules Answers rel fun world => inv world.log where
  keyed := hr.keyed
  pending hworld hentry := by
    obtain ⟨row, hrow, -, -, -, rfl⟩ := mem_pendingIncreaseSignals hentry
    exact hr.related_of_row hworld hrow (row.describes_normalized _)
  asks hbefore he :=
    ⟨hr.outside hbefore he.2, he.2.submissions, he.2.lookup_eq⟩
  writes hbefore hwrite _ := hr.writes hbefore hwrite

theorem EngineRun.keeps (hrun : EngineRun world) (hr : LogRules rel inv) : inv world.log := by
  induction hrun with
  | start hstored hunused => exact hr.start hstored hunused
  | process _ cfg hrow hsignal asg hcall ih =>
    exact (hr.engineRules.processSignal cfg (hr.related_of_row ih hrow hsignal) ih
      asg).reaches ih hcall
  | control _ _ time ih => exact hr.controls _ time ih
  | outside _ houtside ih => exact hr.outside ih houtside

end Run

end AiQuant.CopyTrading
