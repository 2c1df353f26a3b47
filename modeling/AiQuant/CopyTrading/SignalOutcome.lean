import AiQuant.CopyTrading.ReceiptSoundness

/-! What `_process_signal` and `_record_blocked_claim_result` make of a receipt.  A call
that completes has attributed the fill, or has left the signal pending, or has finished
it with nothing filled; a call that is stopped has lost nothing. -/
namespace AiQuant.CopyTrading
open AiQuant.Lib

/-- A decision's identifier is the digest of its own values. -/
def SignalDecisionEvent.Keyed (event : SignalDecisionEvent) : Prop :=
  event.decisionEventId = .decisionEvent (.decisionEvidence event.localQuantity
    event.reasonCodes event.signalId event.state) event.occurredAt

theorem recordSignalDecision_spec {log : EventLog} (hk : ∀ old ∈ log.decisions, old.Keyed)
    (signal : NormalizedSignal) (st : DecisionState) (amount : Decimal)
    (codes : List String) (time : Time) :
    ∃ dec : SignalDecisionEvent, dec.Keyed ∧ dec.signalId = signal.signalId ∧
      dec.state = st ∧ dec.localQuantity = amount ∧
      dec.occurredAt = time ∧
      dec ∈ (log.recordSignalDecision signal st amount codes time).decisions ∧
      (log.recordSignalDecision signal st amount codes time = log ∨
        log.recordSignalDecision signal st amount codes time =
          { log with decisions := log.decisions ++ [dec] }) := by
  dsimp only [EventLog.recordSignalDecision]
  split
  · rename_i hknown
    obtain ⟨old, hold, hsa⟩ := List.any_eq_true.mp hknown
    have ho := hk old hold
    rw [decide_eq_true_eq, ho] at hsa
    injection hsa with he ht
    injection he with hq _ hs hst
    exact ⟨old, ho, hs, hst, hq, ht, hold, Or.inl rfl⟩
  · refine ⟨_, ?_, rfl, rfl, rfl, rfl, ?_, Or.inr rfl⟩
    · exact rfl
    · simp

/-- Since `before` nothing was attributed, and only the signal was decided: in these states,
from `now` on. -/
structure DecidesOnly (signal : NormalizedSignal) (states : List DecisionState) (now : Time)
    (before after : EventLog) : Prop where
  positions : after.positions = before.positions
  kept : ∀ decision ∈ before.decisions, decision ∈ after.decisions
  added : ∀ decision ∈ after.decisions, decision ∈ before.decisions ∨
    decision.signalId = signal.signalId ∧ decision.state ∈ states ∧ now ≤ decision.occurredAt
  keyed : ∀ decision ∈ after.decisions, decision.Keyed

/-- The signal has a decision in one of these states, from `now` on. -/
def EventLog.DecidedIn (log : EventLog) (signal : NormalizedSignal)
    (states : List DecisionState) (now : Time) : Prop :=
  ∃ decision ∈ log.decisions, decision.signalId = signal.signalId ∧ decision.state ∈ states ∧
    now ≤ decision.occurredAt

section Decisions

variable {signal : NormalizedSignal} {states : List DecisionState} {now : Time}
  {pre post last : EventLog}

theorem decidesOnly_refl (hk : ∀ dec ∈ pre.decisions, dec.Keyed) :
    DecidesOnly signal states now pre pre :=
  ⟨rfl, fun _ hm => hm, fun _ hm => Or.inl hm, hk⟩

theorem decidesOnly_of_same (hk : ∀ dec ∈ pre.decisions, dec.Keyed)
    (hp : post.positions = pre.positions) (hd : post.decisions = pre.decisions) :
    DecidesOnly signal states now pre post := by
  refine ⟨hp, ?_, ?_, ?_⟩ <;> rw [hd]
  · exact fun _ hm => hm
  · exact fun _ hm => Or.inl hm
  · exact hk

theorem DecidesOnly.outside (hd : DecidesOnly signal states now pre post)
    (ho : Outside post last) : DecidesOnly signal states now pre last where
  positions := ho.positions.trans hd.positions
  kept dec hmem := ho.decisions.symm ▸ hd.kept dec hmem
  added dec hmem := hd.added dec (ho.decisions ▸ hmem)
  keyed dec hmem := hd.keyed dec (ho.decisions ▸ hmem)

theorem EventLog.DecidedIn.outside (hd : post.DecidedIn signal states now)
    (ho : Outside post last) : last.DecidedIn signal states now := by
  obtain ⟨dec, hm, hv⟩ := hd
  exact ⟨dec, ho.decisions.symm ▸ hm, hv⟩

theorem DecidesOnly.decide (hd : DecidesOnly signal states now pre post) {st : DecisionState}
    (hst : st ∈ states) (amount : Decimal) (codes : List String) {time : Time} (ht : now ≤ time) :
    let decided := post.recordSignalDecision signal st amount codes time
    DecidesOnly signal states now pre decided ∧
      ∃ dec ∈ decided.decisions, dec.signalId = signal.signalId ∧
        dec.state = st ∧ dec.localQuantity = amount ∧
        dec.occurredAt = time := by
  obtain ⟨dec, hk, hs, rfl, rfl, rfl, hm, hl⟩ :=
    recordSignalDecision_spec hd.keyed signal st amount codes time
  refine ⟨?_, dec, hm, hs, rfl, rfl, rfl⟩
  rcases hl with hsa | ha
  · rw [hsa]
    exact hd
  · rw [ha]
    refine ⟨hd.positions, ?_, ?_, ?_⟩
    · intro old hold
      exact List.mem_append_left _ (hd.kept old hold)
    · intro other ho
      rcases List.mem_append.mp ho with hold | hn
      · exact hd.added other hold
      · rw [List.mem_singleton.mp hn]
        exact Or.inr ⟨hs, hst, ht⟩
    · intro other ho
      rcases List.mem_append.mp ho with hold | hn
      · exact hd.keyed other hold
      · rw [List.mem_singleton.mp hn]
        exact hk

theorem DecidesOnly.recoverable [HexOrder]
    (hde : DecidesOnly signal [.submitted, .uncertain] now pre post)
    (hd : post.DecidedIn signal [.submitted, .uncertain] now)
    (he : ∀ dec ∈ pre.decisions, dec.signalId = signal.signalId →
      dec.occurredAt < now) : post.isRecoverable signal.signalId = true := by
  obtain ⟨dec, hm, hsi, -, ht⟩ := hd
  have ho : dec ∈ post.decisions.filter (·.signalId = signal.signalId) := by
    simp [hm, hsi]
  cases hl : post.latestDecision signal.signalId with
  | none =>
    rw [EventLog.latestDecision, newest_eq_none_iff] at hl
    rw [hl] at ho
    cases ho
  | some latest =>
    have hla := newest_mem _ _ hl
    rw [List.mem_filter, decide_eq_true_eq] at hla
    have hn := not_newer_of_newest _ _ hl ho
    have hlat : now ≤ latest.occurredAt := by
      refine ht.trans (not_lt.mp fun hlt => hn ?_)
      exact Prod.Lex.toLex_lt_toLex.mpr (Or.inl hlt)
    have hs : latest.state ∈ [DecisionState.submitted, .uncertain] := by
      rcases hde.added latest hla.1 with hold | ⟨-, hs, -⟩
      · exact absurd hlat (not_le.mpr (he latest hold hla.2))
      · exact hs
    simp only [List.mem_cons, List.not_mem_nil, or_false] at hs
    rcases hs with hs | hs
    · simp [EventLog.isRecoverable, EventLog.decidedAs, hl, hs]
    · simp [EventLog.isRecoverable, EventLog.decidedAs, hl, hs]

end Decisions

inductive SignalOutcome where
  | attributed | pending | finished

def FillAttributed (signal : NormalizedSignal) (receipt : CopyExecutionReceipt)
    (before after : EventLog) : Prop :=
  0 < receipt.filledQuantity ∧ ∃ event, after.positions = before.positions ++ [event] ∧
    event.signalId = signal.signalId ∧ |event.localQuantityDelta| = receipt.filledQuantity

def rejectedStates : List DecisionState := [.cancelled, .riskRejected, .failed]

/-- What a completed call made of the receipt.  `finishing` says that it is one of the
receipts that end the signal.  A pending signal is recoverable, unless it had a decision
in the call's future. -/
def LeadsTo [HexOrder] (signal : NormalizedSignal) (receipt : CopyExecutionReceipt)
    (finishing : Bool) (now : Time) (before after : EventLog) : SignalOutcome → Prop
  | .attributed => FillAttributed signal receipt before after ∧
    ∃ decision ∈ after.decisions, decision.signalId = signal.signalId ∧
      decision.state = .filled ∧ decision.localQuantity = receipt.filledQuantity
  | .pending => finishing = false ∧
    DecidesOnly signal [.submitted, .uncertain] now before after ∧
    after.DecidedIn signal [.submitted, .uncertain] now ∧
    ((∀ decision ∈ before.decisions, decision.signalId = signal.signalId →
      decision.occurredAt < now) → after.isRecoverable signal.signalId = true)
  | .finished => finishing = true ∧ receipt.filledQuantity = 0 ∧
    DecidesOnly signal rejectedStates now before after ∧
    after.DecidedIn signal rejectedStates now

def NothingLost (signal : NormalizedSignal) (receipt : CopyExecutionReceipt)
    (before reached : EventLog) : Prop :=
  FillAttributed signal receipt before reached ∨
    reached.positions = before.positions ∧ ∀ decision ∈ reached.decisions,
      decision ∈ before.decisions ∨ decision.state.isTerminal = false ∨
        receipt.filledQuantity = 0

section Outcomes

variable [HexOrder] {signal : NormalizedSignal} {rcpt : CopyExecutionReceipt}
  {finishing : Bool} {now : Time} {pre post : EventLog} {world : World}

theorem LeadsTo.unique {outcome other : SignalOutcome}
    (hl : LeadsTo signal rcpt finishing now pre post outcome)
    (hr : LeadsTo signal rcpt finishing now pre post other) : outcome = other := by
  have hg {rest : Prop} (ha : FillAttributed signal rcpt pre post ∧ rest)
      (hs : post.positions = pre.positions) : False := by
    obtain ⟨-, ev, hap, -⟩ := ha.1
    rw [hs] at hap
    simpa using congrArg List.length hap
  cases outcome with
  | attributed =>
    cases other with
    | attributed => rfl
    | pending => exact (hg hl hr.2.1.positions).elim
    | finished => exact (hg hl hr.2.2.1.positions).elim
  | pending =>
    cases other with
    | attributed => exact (hg hr hl.2.1.positions).elim
    | pending => rfl
    | finished => exact absurd (hl.1.symm.trans hr.1) (by decide)
  | finished =>
    cases other with
    | attributed => exact (hg hr hl.2.2.1.positions).elim
    | pending => exact absurd (hr.1.symm.trans hl.1) (by decide)
    | finished => rfl

theorem exists_unique_of_leadsTo {outcome : SignalOutcome}
    (hl : LeadsTo signal rcpt finishing now pre post outcome) :
    ∃! outcome, LeadsTo signal rcpt finishing now pre post outcome :=
  ⟨outcome, hl, fun _ ho => ho.unique hl⟩

omit [HexOrder] in
theorem DecidesOnly.nothingLost {states : List DecisionState}
    (hd : DecidesOnly signal states now pre post)
    (hs : ∀ st ∈ states, st.isTerminal = false ∨ rcpt.filledQuantity = 0) :
    NothingLost signal rcpt pre post := by
  refine Or.inr ⟨hd.positions, fun dec hm => ?_⟩
  rcases hd.added dec hm with ho | ⟨-, hst, -⟩
  · exact Or.inl ho
  · exact Or.inr (hs dec.state hst)

omit [HexOrder] in
theorem DecidesOnly.nothingLost_pending
    (hd : DecidesOnly signal [.submitted, .uncertain] now pre post) :
    NothingLost signal rcpt pre post :=
  hd.nothingLost (by simp [DecisionState.isTerminal])

/-- Every completed run ends in exactly one outcome of the receipt, and a stopped one has
lost nothing. -/
abbrev Disposes (signal : NormalizedSignal) (receipt : CopyExecutionReceipt) (finishing : Bool)
    (now : Time) (before : EventLog) (proc : Engine Unit) (world : World) : Prop :=
  proc.Safe Answers (fun reached => NothingLost signal receipt before reached.log)
    (fun _ reached => ∃! outcome, LeadsTo signal receipt finishing now before reached.log outcome)
    world

abbrev Credits (signal : NormalizedSignal) (receipt : CopyExecutionReceipt) (finishing : Bool)
    (now : Time) (before : EventLog) (proc : Engine Unit) (world : World) : Prop :=
  proc.Safe Answers (fun reached => NothingLost signal receipt before reached.log)
    (fun _ reached => LeadsTo signal receipt finishing now before reached.log .attributed) world

theorem Credits.disposes {proc : Engine Unit}
    (hc : Credits signal rcpt finishing now pre proc world) :
    Disposes signal rcpt finishing now pre proc world :=
  hc.mono fun _ _ hl => @exists_unique_of_leadsTo _ _ _ _ _ _ _ _ hl

theorem pending_disposes (hf : finishing = false)
    (hd : DecidesOnly signal [.submitted, .uncertain] now pre world.log)
    (hde : world.log.DecidedIn signal [.submitted, .uncertain] now) :
    Disposes signal rcpt finishing now pre (pure ()) world := by
  have hl : LeadsTo signal rcpt finishing now pre world.log .pending :=
    ⟨hf, hd, hde, hd.recoverable hde⟩
  exact exists_unique_of_leadsTo hl

variable {time : Time}

theorem recordDecision_pending (hf : finishing = false)
    (hd : DecidesOnly signal [.submitted, .uncertain] now pre world.log) {st : DecisionState}
    (hs : st ∈ [DecisionState.submitted, .uncertain]) (amount : Decimal)
    (codes : List String) (ht : now ≤ time) : Disposes signal rcpt finishing now pre
      (recordDecision signal st amount codes time) world := by
  obtain ⟨hd, dec, hm, hsi, rfl, -, rfl⟩ :=
    hd.decide hs amount codes ht
  exact ⟨hd.nothingLost_pending, pending_disposes hf hd ⟨dec, hm, hsi, hs, ht⟩⟩

theorem recordDecision_finished (hfi : finishing = true) (hf : rcpt.filledQuantity = 0)
    (hb : DecidesOnly signal rejectedStates now pre world.log) {st : DecisionState}
    (hs : st ∈ rejectedStates) (amount : Decimal) (codes : List String) (ht : now ≤ time) :
    Disposes signal rcpt finishing now pre (recordDecision signal st amount codes time) world := by
  obtain ⟨hd, dec, hm, hsi, rfl, -, rfl⟩ :=
    hb.decide hs amount codes ht
  have hl : LeadsTo signal rcpt finishing now pre
      (world.log.recordSignalDecision signal dec.state amount codes dec.occurredAt) .finished :=
    ⟨hfi, hf, hd, dec, hm, hsi, hs, ht⟩
  exact ⟨hd.nothingLost fun _ _ => Or.inr hf, @exists_unique_of_leadsTo _ _ _ _ _ _ _ .finished hl⟩

theorem attribute_credits {fill : FillRecord} (hs : fill.signal = signal)
    (hfr : ∀ ev ∈ pre.positions, ev.signalId ≠ signal.signalId)
    (hd : DecidesOnly signal [.submitted, .uncertain] now pre world.log)
    (hf : 0 < rcpt.filledQuantity) (hde : |fill.localDelta| = rcpt.filledQuantity)
    (codes : List String) (time : Time) : Credits signal rcpt finishing now pre (do
      recordVirtualPosition fill
      recordDecision signal .filled rcpt.filledQuantity codes time) world := by
  have hlo : NothingLost signal rcpt pre world.log := hd.nothingLost_pending
  simp only [Credits, recordVirtualPosition, Proc.safe_bind, Proc.safe_transact]
  cases hr : world.log.recordVirtualPosition fill with
  | error code => exact ⟨hlo, Proc.safe_halt⟩
  | ok log =>
    obtain ⟨-, ⟨-, ev, he, hk⟩ | ⟨prev, res, slot, realized, ha⟩⟩ :=
      EventLog.recordVirtualPosition_cases hr
    · rw [hd.positions] at he
      rw [hs] at hk
      exact absurd hk (hfr ev he)
    · have hfi : FillAttributed signal rcpt pre log := by
        refine ⟨hf, fill.positionEvent, ?_, ?_, hde⟩
        · rw [ha.after_eq, ← hd.positions]
        · rw [← hs]
          rfl
      have hke : ∀ dec ∈ log.decisions, dec.Keyed := by
        rw [ha.after_eq]
        exact hd.keyed
      obtain ⟨dec, -, ho, hst, hq, -, hm, hlog⟩ :=
        recordSignalDecision_spec hke signal .filled rcpt.filledQuantity codes time
      have hdo : FillAttributed signal rcpt pre
          (log.recordSignalDecision signal .filled rcpt.filledQuantity codes time) := by
        rcases hlog with hsa | had
        · rw [hsa]
          exact hfi
        · rw [had]
          exact hfi
      have hl : LeadsTo signal rcpt finishing now pre
          (log.recordSignalDecision signal .filled rcpt.filledQuantity codes time)
          .attributed :=
        ⟨hdo, dec, hm, ho, hst, hq⟩
      exact ⟨Or.inl hfi, Or.inl hdo, hl⟩

theorem attributeEntry_credits (hfr : ∀ ev ∈ pre.positions, ev.signalId ≠ signal.signalId)
    (hd : DecidesOnly signal [.submitted, .uncertain] now pre world.log)
    (hf : 0 < rcpt.filledQuantity) (hr : rcpt.filledQuantity ≤ rcpt.requestedQuantity)
    (hp : 0 < rcpt.averagePrice) (time : Time) :
    Credits signal rcpt finishing now pre (attributeEntry signal rcpt time)
      world := by
  have hg : ¬(rcpt.requestedQuantity ≤ 0 ∨ rcpt.filledQuantity ≤ 0 ∨
      rcpt.requestedQuantity < rcpt.filledQuantity ∨ rcpt.averagePrice ≤ 0) := by
    simp only [not_or, not_le, not_lt]
    exact ⟨hf.trans_le hr, hf, hr, hp⟩
  simp only [Credits, attributeEntry, recordIncreaseFill, if_neg hg, readLog, Proc.safe_bind,
    Proc.safe_read]
  refine ⟨hd.nothingLost_pending, ?_⟩
  split
  · exact Proc.safe_halt
  · rename_i updated _ hupdated
    obtain ⟨-, -, -, hl⟩ := VirtualPositionLedger.recordIncreaseFill_spec hupdated
    have hde : |updated.localQuantity -
        (world.log.loadVirtualLedger.positionFor signal).localQuantity| =
          rcpt.filledQuantity := by
      rw [hl, add_sub_cancel_left, abs_of_pos hf]
    have ha : Credits signal rcpt finishing now pre (do
        recordVirtualPosition {
          signal := signal
          previous := world.log.loadVirtualLedger.positionFor signal
          updated := updated
          referencePrice := rcpt.averagePrice
          leverage := rcpt.leverage
          occurredAt := time }
        recordDecision signal .filled rcpt.filledQuantity rcpt.reasonCodes time)
        world := by
      apply attribute_credits rfl hfr hd hf
      exact hde
    rw [Credits, Proc.safe_bind] at ha
    simpa only [Proc.safe_bind, Proc.safe_pure, if_true] using ha

theorem attributeEntry_disposes (hfr : ∀ ev ∈ pre.positions, ev.signalId ≠ signal.signalId)
    (hf : finishing = false) (hd : DecidesOnly signal [.submitted, .uncertain] now pre world.log)
    (ht : now ≤ time) : Disposes signal rcpt finishing now pre (attributeEntry signal rcpt time)
      world := by
  by_cases hg : rcpt.requestedQuantity ≤ 0 ∨ rcpt.filledQuantity ≤ 0 ∨
      rcpt.requestedQuantity < rcpt.filledQuantity ∨ rcpt.averagePrice ≤ 0
  · simp only [Disposes, attributeEntry, recordIncreaseFill, if_pos hg, Proc.safe_bind,
      Proc.safe_pure, Bool.false_eq_true, if_false]
    exact recordDecision_pending hf hd (by simp) _ _ ht
  · simp only [not_or, not_le, not_lt] at hg
    obtain ⟨-, hfi, hr, hp⟩ := hg
    exact (attributeEntry_credits hfr hd hfi hr hp time).disposes

theorem attributeReduction_disposes {ledger aligned : VirtualPositionLedger}
    {rules : SymbolTradingRules} {sourceBefore : Option Decimal} {plan : ReductionPlan}
    (hp : ledger.planReduction signal rules sourceBefore = (plan, aligned))
    (ha : plan.approved = true) (hfr : ∀ ev ∈ pre.positions, ev.signalId ≠ signal.signalId)
    (hfi : finishing = false)
    (hd : DecidesOnly signal [.submitted, .uncertain] now pre world.log) (ht : now ≤ time) :
    Disposes signal rcpt finishing now pre
      (attributeReduction signal aligned plan rcpt time) world := by
  unfold attributeReduction
  split
  · exact recordDecision_pending hfi hd (by simp) _ _ ht
  split
  · exact Proc.safe_halt
  · rename_i updated _ hupdated
    obtain ⟨hf, hl⟩ :=
      VirtualPositionLedger.recordReductionFill_planned hp ha hupdated
    apply Credits.disposes
    apply attribute_credits rfl hfr hd hf
    rw [FillRecord.localDelta, hl, sub_sub_cancel_left, abs_neg, abs_of_pos hf]

/-- How `_process_signal` attributes a fill: as an entry, or as the reduction it planned. -/
inductive FillAttribution (signal : NormalizedSignal) :
    (CopyExecutionReceipt → Time → Engine Unit) → Prop
  | entry : FillAttribution signal (attributeEntry signal)
  | reduction {ledger aligned : VirtualPositionLedger} {rules : SymbolTradingRules}
      {sourceBefore : Option Decimal} {plan : ReductionPlan}
      (hplan : ledger.planReduction signal rules sourceBefore = (plan, aligned))
      (happroved : plan.approved = true) :
      FillAttribution signal (attributeReduction signal aligned plan)

variable {onFill : CopyExecutionReceipt → Time → Engine Unit}

theorem FillAttribution.disposes (ha : FillAttribution signal onFill)
    (hfr : ∀ ev ∈ pre.positions, ev.signalId ≠ signal.signalId) (hf : finishing = false)
    (hd : DecidesOnly signal [.submitted, .uncertain] now pre world.log) (ht : now ≤ time)
    : Disposes signal rcpt finishing now pre (onFill rcpt time) world := by
  cases ha with
  | entry => exact attributeEntry_disposes hfr hf hd ht
  | reduction hplan happroved =>
    exact attributeReduction_disposes hplan happroved hfr hf hd ht

theorem recordOutcome_disposes (hat : FillAttribution signal onFill) (hb : rcpt.Bounded)
    (hfr : ∀ ev ∈ pre.positions, ev.signalId ≠ signal.signalId) (ha : rcpt.state ≠ .rejected →
      DecidesOnly signal [.submitted, .uncertain] now pre world.log ∧
        world.log.DecidedIn signal [.submitted, .uncertain] now)
    (hr : rcpt.state = .rejected → DecidesOnly signal rejectedStates now pre world.log)
    (ht : now ≤ time) : Disposes signal rcpt (rcpt.state = .rejected) now pre
      (recordOutcome signal rcpt onFill time) world := by
  unfold recordOutcome
  split
  · rename_i hterminal
    have hs := (state_of_isTerminal hterminal).1
    obtain ⟨hd, hde⟩ := ha hs
    have hf : decide (rcpt.state = .rejected) = false := by simp [hs]
    split
    · exact recordDecision_pending hf hd (by simp) _ _ ht
    split
    · split
      · exact pending_disposes hf hd hde
      · exact recordDecision_pending hf hd (by simp) _ _ ht
    · exact hat.disposes hfr hf hd ht
  · rename_i hopen
    cases hs : rcpt.state with
    | partiallyFilled =>
      exact recordDecision_pending (by simp) (ha (by simp [hs])).1 (by simp) _ _ ht
    | unknown =>
      exact recordDecision_pending (by simp) (ha (by simp [hs])).1 (by simp) _ _ ht
    | acknowledged =>
      obtain ⟨hd, hde⟩ := ha (by simp [hs])
      exact pending_disposes (by simp) hd hde
    | filled => exact absurd (by simp [CopyExecutionReceipt.isTerminal, hs]) hopen
    | reconciled => exact absurd (by simp [CopyExecutionReceipt.isTerminal, hs]) hopen
    | rejected =>
      have he : rejectedDecision rcpt.reasonCodes ∈ rejectedStates := by
        unfold rejectedDecision rejectedStates
        repeat' split
        all_goals simp
      exact recordDecision_finished (by simp) (hb.rejected hs) (hr hs) he
        _ _ ht

theorem afterExecute_disposes (ha : FillAttribution signal onFill) (hb : rcpt.Bounded)
    (hk : ∀ dec ∈ world.log.decisions, dec.Keyed)
    (hf : ∀ ev ∈ world.log.positions, ev.signalId ≠ signal.signalId) (now : Time) :
    Disposes signal rcpt (rcpt.state = .rejected) now world.log (do
      announceSubmission signal rcpt now
      let clockAt ← clock
      recordOutcome signal rcpt onFill (max clockAt (now + 1))) world := by
  have hl (clockAt : Time) : now ≤ max clockAt (now + 1) :=
    (Int.le_add_one le_rfl).trans (le_max_right _ _)
  simp only [Disposes, announceSubmission, clock, Proc.safe_bind, Proc.safe_question]
  split
  · rename_i hrejected
    intro clockAt asked han
    have hd : DecidesOnly signal rejectedStates now world.log asked.log :=
      (decidesOnly_refl hk).outside han.2
    refine ⟨hd.nothingLost fun _ _ => Or.inr (hb.rejected hrejected), ?_⟩
    exact recordOutcome_disposes ha hb hf (fun hn => absurd hrejected hn) (fun _ => hd) (hl clockAt)
  · rename_i hrejected
    have hsu : DecisionState.submitted ∈ [DecisionState.submitted, .uncertain] := by simp
    obtain ⟨hd, dec, hm, hsi, hs, -, ht⟩ :=
      (@decidesOnly_refl signal [.submitted, .uncertain] now world.log hk).decide hsu
        rcpt.requestedQuantity
        (if resubmittedReason ∈ rcpt.reasonCodes then [resubmittedReason] else []) le_rfl
    refine ⟨hd.nothingLost_pending, ?_⟩
    intro clockAt asked han
    have has := hd.outside han.2
    have hde : asked.log.DecidedIn signal [.submitted, .uncertain] now :=
      EventLog.DecidedIn.outside ⟨dec, hm, hsi, by simp [hs], ht.ge⟩ han.2
    refine ⟨has.nothingLost_pending, ?_⟩
    exact recordOutcome_disposes ha hb hf (fun _ => ⟨has, hde⟩)
      (fun hs => absurd hs hrejected) (hl clockAt)

theorem recordBlockedClaimResult_disposes (hb : rcpt.Bounded)
    (hp : world.log.positions = pre.positions) (hde : world.log.decisions = pre.decisions)
    (hk : ∀ dec ∈ pre.decisions, dec.Keyed)
    (hfr : ∀ ev ∈ pre.positions, ev.signalId ≠ signal.signalId) (now : Time) : Disposes signal rcpt
      (rcpt.state = .rejected && rcpt.reasonCodes.any (· ∈ blockedCancellations)) now
      pre (recordBlockedClaimResult signal rcpt now) world := by
  have hd : DecidesOnly signal [.submitted, .uncertain] now pre world.log :=
    decidesOnly_of_same hk hp hde
  unfold recordBlockedClaimResult
  split
  · rename_i hterminal
    have hf : (decide (rcpt.state = .rejected) &&
        rcpt.reasonCodes.any (· ∈ blockedCancellations)) = false := by
      simp [(state_of_isTerminal hterminal).1]
    split
    · exact recordDecision_pending hf hd (by simp) _ _ le_rfl
    · exact attributeEntry_disposes hfr hf hd le_rfl
  split
  · rename_i hcancelled
    exact recordDecision_finished (by simpa using hcancelled) (hb.rejected hcancelled.1)
      (decidesOnly_of_same hk hp hde) (by simp [rejectedStates]) _ _ le_rfl
  · rename_i hcancelled
    refine recordDecision_pending ?_ hd (by simp) _ _ le_rfl
    rw [Bool.and_eq_false_iff, decide_eq_false_iff_not, Bool.eq_false_iff]
    exact not_and_or.mp hcancelled

theorem recordBlockedClaimResult_credits (hb : rcpt.Bounded)
    (hp : world.log.positions = pre.positions) (hd : world.log.decisions = pre.decisions)
    (hk : ∀ dec ∈ pre.decisions, dec.Keyed)
    (hfr : ∀ ev ∈ pre.positions, ev.signalId ≠ signal.signalId) (now : Time)
    (ht : rcpt.isTerminal = true) (hf : 0 < rcpt.filledQuantity) (hpr : 0 < rcpt.averagePrice) :
    Credits signal rcpt finishing now pre (recordBlockedClaimResult signal rcpt now)
      world := by
  have hpri : rcpt.fillPriceDetailsPending = false := by
    simp [CopyExecutionReceipt.fillPriceDetailsPending, not_le.mpr hpr]
  simp only [recordBlockedClaimResult, ht, hpri, if_true, Bool.false_eq_true, if_false]
  exact attributeEntry_credits hfr (decidesOnly_of_same hk hp hd) hf hb.filled_le hpr now

/-- Receipts are sound for every exchange reply, whether the executor submits, reconciles,
resubmits, cancels or asks for a price, and every receipt leads to exactly one outcome. -/
theorem receipts_sound_and_settled (hclaims : world.log.ClaimsChecked)
    (hkeyed : ∀ dec ∈ world.log.decisions, dec.Keyed) (cfg : ExecutorSettings) :
    (∀ ord riskDecision, (execute cfg ord riskDecision).Safe Answers (fun _ => True)
      (fun rcpt reached => SoundReceipt ord.signal (fun _ => ord.localQuantity)
        (reached.trace.drop world.trace.length) reached.log rcpt) world) ∧
    (∀ signal reasonCode, (cancelPendingIncrease cfg signal reasonCode).Safe Answers
      (fun _ => True) (fun rcpt reached => SoundReceipt signal (·.getD 0)
        (reached.trace.drop world.trace.length) reached.log rcpt) world) ∧
    ∀ signal rcpt, rcpt.Bounded →
      (∀ ev ∈ world.log.positions, ev.signalId ≠ signal.signalId) → ∀ now,
        (∀ onFill, FillAttribution signal onFill →
          Disposes signal rcpt (rcpt.state = .rejected) now world.log (do
            announceSubmission signal rcpt now
            let clockAt ← clock
            recordOutcome signal rcpt onFill (max clockAt (now + 1))) world) ∧
        Disposes signal rcpt
          (rcpt.state = .rejected && rcpt.reasonCodes.any (· ∈ blockedCancellations)) now
          world.log (recordBlockedClaimResult signal rcpt now) world := by
  refine ⟨?_, cancelPendingIncrease_sound cfg hclaims, ?_⟩
  · intro ord riskDecision
    exact (execute_sound cfg hclaims ord riskDecision).mono
      fun _ _ he => he.toSoundReceipt
  intro signal rcpt hb hf now
  refine ⟨fun onFill ha => ?_, ?_⟩
  · exact afterExecute_disposes ha hb hkeyed hf now
  · exact recordBlockedClaimResult_disposes hb rfl rfl hkeyed hf now

end Outcomes

section Receipts

local instance receiptHexOrder : HexOrder := distinctHexOrder

def restingOrder : CopyMarketOrder where
  signal := entrySignalOfRow
  localQuantity := 1
  leverage := 20
  orderType := .limit
  limitPrice := some 100
  expiresAt := some newYear
  localQuantity_pos := one_unit_pos
  leverage_pos := one_le_leverage_twenty
  leverage_le := twenty_le_leverage_limit
  policy := by decide

def restingClaim : SubmissionClaimRow :=
  claimRow restingOrder (copyClientOrderId entrySignalOfRow.signalId .testnet) 0

/-- The claim as it was made, and one over five units whose hash does not match. -/
def restingWorld : World := ⟨{ claims := [restingClaim] }, []⟩
def alteredWorld : World := ⟨{ claims := [{ restingClaim with requestedQuantity := some 5 }] }, []⟩

def forgetfulReply (trace : List Asked) : (query : Query) → query.Reply
  | .clock => newYear
  | .positionMode => .ok true
  | .changeInitialLeverage _ _ => .ok ()
  | .positionRisk _ => .ok []
  | .placeOrder _ => .error (.other "timeout")
  | .queryOrder _ clientOrderId =>
    if trace.any (fun asked => asked.query = .cancelOrder "BTCUSDT" clientOrderId) then
      .error (.http "QUERY_ORDER" 400 (-2013))
    else .ok {
      clientOrderId := some (.text clientOrderId)
      status := some (.text "PARTIALLY_FILLED")
      executedQty := .finite (1 / 2)
      avgPrice := .finite 100
      cumQuote := .finite 0
      orderId := none }
  | .cancelOrder _ _ => .error (.other "timeout")
  | .openOrders _ => .ok []
  | .symbolRules _ => .error .probe
  | .accountSnapshot _ => .error .probe

def forgetfulAnswer (world : World) (query : Query) : query.Reply × World :=
  (forgetfulReply world.trace query,
    { world with trace := world.trace ++ [⟨world.log, query, forgetfulReply world.trace query⟩] })

theorem answers_forgetfulAnswer (world : World) (qry : Query) :
    Answers world qry (forgetfulAnswer world qry).1 (forgetfulAnswer world qry).2 :=
  answers_traced world qry _

def restingClientOrderId : String := copyClientOrderId entrySignalOfRow.signalId .testnet

def restingRun : Option CopyExecutionReceipt × World :=
  (execute {} restingOrder permitted).run forgetfulAnswer restingWorld

def alteredRun : Option CopyExecutionReceipt × World :=
  (execute {} restingOrder permitted).run forgetfulAnswer alteredWorld

def filledRun : Option CopyExecutionReceipt × World :=
  (execute {} restingOrder permitted).run exchangeAnswer ⟨entryStored, []⟩

def filledReceipt : CopyExecutionReceipt where
  signalId := entrySignalOfRow.signalId
  clientOrderId := restingClientOrderId
  state := .filled
  requestedQuantity := 1
  leverage := 20
  filledQuantity := 1
  averagePrice := 100
  exchangeOrderId := none
  reasonCodes := []

theorem filled_entry_sound : filledRun.1 = some filledReceipt ∧
      SoundReceipt entrySignalOfRow (fun _ => 1) filledRun.2.trace filledRun.2.log
        filledReceipt := by
  have hr : filledRun.1 = some filledReceipt := by decide
  have hc : entryStored.ClaimsChecked := ⟨by simp [entryStored], by simp [entryStored]⟩
  have hs := (@receipts_sound_and_settled _ ⟨entryStored, []⟩ hc (by simp [entryStored])
    {}).1 restingOrder permitted
  exact ⟨hr, hs.returns (Proc.returns_run answers_exchangeAnswer hr)⟩

/-- The receipt of an altered claim asks for the order at hand, not for the claimed five
units; and an exchange that contradicts itself gets a fill it had reported rejected. -/
theorem altered_claim_and_forgotten_fill :
    (∃ rcpt claim, Proc.Returns Answers alteredWorld (execute {} restingOrder permitted) rcpt
        alteredRun.2 ∧ alteredRun.2.log.lookup entrySignalOfRow.signalId = some claim ∧
      claim.requestedQuantity = some 5 ∧ rcpt.requestedQuantity = 1) ∧
    ∃ rcpt, Proc.Returns Answers restingWorld (execute {} restingOrder permitted) rcpt
        restingRun.2 ∧ rcpt.state = .rejected ∧
      ∃ asked ∈ restingRun.2.trace, ∃ resp, asked.orderReply = some (.ok resp) ∧
        rcpt.FillReported resp := by
  constructor
  · have hrun : alteredRun.1 = some (emptyReceipt .unknown restingOrder restingClientOrderId
        ["COPY_SUBMISSION_CLAIM_PARAMETERS_INVALID"]) := by
      decide
    have hc : (alteredRun.2.log.lookup entrySignalOfRow.signalId).map (·.requestedQuantity) =
        some (some 5) := by
      decide
    obtain ⟨claim, hl, hq⟩ := Option.map_eq_some_iff.mp hc
    exact ⟨_, claim, Proc.returns_run answers_forgetfulAnswer hrun, hl, hq, rfl⟩
  · have hrun : restingRun.1 = some (emptyReceipt .rejected restingOrder restingClientOrderId
        ["COPY_PROTECTED_LIMIT_EXPIRED", "COPY_SUBMISSION_CONFIRMED_ABSENT"]) := by
      decide
    have hr : (.ok ⟨some (.text restingClientOrderId), some (.text "PARTIALLY_FILLED"),
        .finite (1 / 2), .finite 100, .finite 0, none⟩ : Except ProbeError OrderResponse) ∈
          restingRun.2.trace.filterMap (·.orderReply) := by
      with_unfolding_all decide
    obtain ⟨asked, ha, hre⟩ := List.mem_filterMap.mp hr
    refine ⟨_, Proc.returns_run answers_forgetfulAnswer hrun, rfl, asked, ha, _, hre, rfl,
      1 / 2, rfl, ?_, ?_⟩
    · norm_num
    · norm_num [emptyReceipt, restingOrder]

end Receipts

end AiQuant.CopyTrading
