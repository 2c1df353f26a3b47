import AiQuant.CopyTrading.CompletedClose
import AiQuant.CopyTrading.RefusedOrders
import AiQuant.CopyTrading.SourceExposure

/-! Exits of a leader that are dropped.  A reduction that closes the leader's source position is
left recoverable when a probe fails, but any other error of the catalog or the account, an
unusable account snapshot and every refusal of the order ends it for good, with the position
still there. -/
namespace AiQuant.CopyTrading
open AiQuant.Lib

namespace VirtualPositionLedger

theorem planReduction_closing {ledger aligned : VirtualPositionLedger} {sig : NormalizedSignal}
    {rules : SymbolTradingRules} {source : Decimal} {plan : ReductionPlan}
    (hp : ledger.planReduction sig rules (some source) = (plan, aligned))
    (hk : sig.kind = .reduce) (hs : 0 ≤ source) (hc : source ≤ sig.sourceDeltaQuantity) :
    (plan.approved = true → plan.requestedLocalQuantity = (ledger.positionFor sig).localQuantity) ∧
      (plan.approved = false → (ledger.positionFor sig).localQuantity = 0) := by
  unfold planReduction at hp
  rw [if_neg (by simp [hk])] at hp
  dsimp only at hp
  rw [dif_neg (not_lt.mpr hs)] at hp
  cases hp
  refine ⟨fun ha => planFrom_whole ha hc, fun hr => ?_⟩
  unfold planFrom at hr
  split at hr
  · rename_i hlocal
    exact le_antisymm hlocal (ledger.positionFor sig).localQuantity_nonneg
  split at hr
  · rename_i hreduction
    rw [localReduction, if_pos (Or.inr hc), min_self] at hreduction
    exact le_antisymm hreduction (ledger.positionFor sig).localQuantity_nonneg
  · cases hr

end VirtualPositionLedger

section Exits

variable [HexOrder]

def EventLog.localQuantity (log : EventLog) (signal : NormalizedSignal) : Decimal :=
  (log.loadVirtualLedger.positionFor signal).localQuantity

def EventLog.Closes (log : EventLog) (signal : NormalizedSignal) : Prop :=
  ∃ source, log.sourcePositionQuantityBefore signal = some source ∧
    source ≤ signal.sourceDeltaQuantity

def ClosesThroughout (signal : NormalizedSignal) (start reached : World) : Prop :=
  reached.log.Closes signal ∧
    ∀ asked ∈ reached.trace.drop start.trace.length, asked.log.Closes signal

def GivenUp (signal : NormalizedSignal) (before after : EventLog) : Prop :=
  ∃ decision ∈ after.decisions, decision ∉ before.decisions ∧
    decision.signalId = signal.signalId ∧ decision.state.isTerminal = true ∧
      decision.state ≠ .filled

/-- One of the answers ends a reduction for good: an error of the catalog or the account that is
no probe error, a snapshot that cannot be traded on, or the refusal of the order. -/
inductive Denied (signal : NormalizedSignal) (calls : List Asked) : Prop
  | catalog {log : EventLog} {reason : String}
      (hasked : ⟨log, .symbolRules signal.symbol, .error (.rejected reason)⟩ ∈ calls)
  | account {log : EventLog} {now : Time} {reason : String}
      (hasked : ⟨log, .accountSnapshot now, .error (.rejected reason)⟩ ∈ calls)
  | snapshot {log : EventLog} {now : Time} {snapshot : CopyAccountSnapshot}
      (hasked : ⟨log, .accountSnapshot now, .ok snapshot⟩ ∈ calls)
      (hinvalid : invalidSnapshotReasons {} snapshot now ≠ [])
  | order (hrefused : Refused signal calls)

theorem Denied.mono {sig : NormalizedSignal} {calls later : List Asked}
    (hd : Denied sig calls) (hc : calls <:+: later) : Denied sig later := by
  cases hd with
  | catalog hasked => exact .catalog (hc.subset hasked)
  | account hasked => exact .account (hc.subset hasked)
  | snapshot hasked hinvalid => exact .snapshot (hc.subset hasked) hinvalid
  | order hr => exact .order (hr.mono hc)

/-- What a call must meet: while its leader still owns a part of the key, no answer denies a
reduction that closes. -/
def ExitCondition (signal : NormalizedSignal) (start reached : World) : Prop :=
  signal.kind = .reduce → ClosesThroughout signal start reached →
    0 < reached.log.localQuantity signal →
      ¬ Denied signal (reached.trace.drop start.trace.length)

/-- No exit is dropped: a closing reduction is ended without a fill only when its leader owns
nothing of the key, and one that is not filled yet stays recoverable. -/
structure ExitKept (signal : NormalizedSignal) (start reached : World) : Prop where
  flat : ClosesThroughout signal start reached → GivenUp signal start.log reached.log →
    reached.log.localQuantity signal = 0
  recoverable : ClosesThroughout signal start reached → 0 < reached.log.localQuantity signal →
    (∀ decision ∈ start.log.decisions, decision.signalId = signal.signalId →
      decision.state.isTerminal = false) →
    (∀ decision ∈ reached.log.decisions, decision.signalId = signal.signalId →
      decision.state ≠ .filled) →
    reached.log.isRecoverable signal.signalId = true

def Strayed (signal : NormalizedSignal) (start world : World) : Prop :=
  ¬ world.log.Closes signal ∨
    ∃ asked ∈ world.trace.drop start.trace.length, ¬ asked.log.Closes signal

structure Excused (signal : NormalizedSignal) (start world : World) : Prop where
  since : Since start world
  keyed : ∀ event ∈ world.log.submissions, event.Keyed
  excuse : Strayed signal start world ∨ Denied signal (world.trace.drop start.trace.length)

/-- The reduction is stored and was not given up since `start`. -/
structure Pursued (signal : NormalizedSignal) (start world : World) : Prop where
  since : Since start world
  keyed : ∀ event ∈ world.log.submissions, event.Keyed
  stored : world.log.SignalsStored
  row : ∃ row ∈ world.log.signals, row.signalId = signal.signalId ∧ row.signalKind = .reduce
  claims : ∀ claim ∈ start.log.claims, claim ∈ world.log.claims
  pursued : ¬ GivenUp signal start.log world.log

def Held (signal : NormalizedSignal) (start world : World) : Prop :=
  ¬ GivenUp signal start.log world.log ∨ Excused signal start world ∨
    world.log.localQuantity signal = 0

section Calls

variable {sig : NormalizedSignal} {start world : World}

omit [HexOrder] in
theorem GivenUp.of_added {pre mid post : EventLog} (hg : GivenUp sig pre post)
    (ha : ∀ dec ∈ post.decisions, dec ∈ mid.decisions ∨
      dec.signalId ≠ sig.signalId ∨ dec.state.isTerminal = false ∨
        dec.state = .filled) : GivenUp sig pre mid := by
  obtain ⟨dec, hm, hn, hs, ht, hst⟩ := hg
  rcases ha dec hm with hold | ho | hop | hf
  · exact ⟨dec, hold, hn, hs, ht, hst⟩
  · exact absurd hs ho
  · rw [hop] at ht
    cases ht
  · exact absurd hf hst

variable {log : EventLog}

theorem Transaction.closes_iff {rel : NormalizedSignal → Prop} {post : EventLog}
    (hw : Transaction rel log post) : post.Closes sig ↔ log.Closes sig := by
  unfold EventLog.Closes
  rcases hw.cases with ⟨claims, submissions, -, rfl⟩ | ⟨-, ev, -, -, rfl⟩ |
    ⟨fill, prev, res, slot, pnl, -, -, -, -, ha⟩ |
    ⟨controls, -, rfl⟩
  · rfl
  · rfl
  · rw [ha.after_eq]
    rfl
  · rfl

theorem excused_rules : EngineRules Answers (fun _ => True) (Excused sig start) where
  keyed hworld := hworld.keyed
  pending _ _ := trivial
  asks {pre qry reply post} hb he := by
    refine ⟨⟨hb.since.asks he, ?_, ?_⟩, he.2.submissions, he.2.lookup_eq⟩
    · rw [he.2.submissions]
      exact hb.keyed
    have hs := hb.since.started
    have hc := he.infix_drop hs
    rcases hb.excuse with (ho | ⟨asked, ha, ho⟩) | hd
    · exact Or.inl (Or.inr ⟨_, he.mem_drop hs, ho⟩)
    · exact Or.inl (Or.inr ⟨asked, hc.subset ha, ho⟩)
    · exact Or.inr (hd.mono hc)
  writes hb hw _ := by
    refine ⟨hb.since.writes hw.signals_eq, hw.keyed hb.keyed, ?_⟩
    rcases hb.excuse with (ho | ha) | hd
    · exact Or.inl (Or.inl fun hcl => ho (hw.closes_iff.mp hcl))
    · exact Or.inl (Or.inr ha)
    · exact Or.inr hd

omit [HexOrder] in
theorem Pursued.asks (hp : Pursued sig start world) {post : World} {qry : Query}
    {reply : qry.Reply} (ha : Answers world qry reply post) : Pursued sig start post := by
  have ho := ha.2
  obtain ⟨row, hr, hv⟩ := hp.row
  refine ⟨hp.since.asks ha, ?_, ho.stored hp.stored, ⟨row, ho.signals row hr, hv⟩, ?_, ?_⟩
  · rw [ho.submissions]
    exact hp.keyed
  · rw [ho.claims]
    exact hp.claims
  · intro hg
    refine hp.pursued (hg.of_added fun dec hm => ?_)
    rw [ho.decisions] at hm
    exact Or.inl hm

theorem Pursued.writes (hp : Pursued sig start world)
    {rel : NormalizedSignal → Prop} (hw : Transaction rel world.log log)
    (hd : ∀ dec ∈ log.decisions, dec ∈ world.log.decisions ∨
      dec.signalId ≠ sig.signalId ∨ dec.state.isTerminal = false ∨
        dec.state = .filled) : Pursued sig start { world with log := log } := by
  obtain ⟨row, hr, hv⟩ := hp.row
  refine ⟨hp.since.writes hw.signals_eq, hw.keyed hp.keyed,
    hw.stored hp.stored, ⟨row, hw.signals_eq.symm ▸ hr, hv⟩, ?_, ?_⟩
  · intro claim hc
    have hk := hp.claims claim hc
    obtain ⟨-, hs | ⟨ord, env, now, -, -, ha⟩⟩ := hw.claims_cases
    · rw [hs]
      exact hk
    · rw [ha]
      exact List.mem_append_left _ hk
  · intro hg
    exact hp.pursued (hg.of_added hd)

theorem pursued_rules : EngineRules Answers (fun other => other.signalId ≠ sig.signalId)
      (Pursued sig start) where
  keyed hworld := hworld.keyed
  pending hworld hentry := hworld.stored.pending_ne hworld.row hentry
  asks hb he := ⟨hb.asks he, he.2.submissions, he.2.lookup_eq⟩
  writes hb hw _ := by
    refine hb.writes hw ?_
    intro dec hm
    refine (hw.decisions_added dec hm).imp_right ?_
    rintro ⟨other, ho, hid⟩
    exact Or.inl (hid ▸ ho)

theorem pursued_journal : JournalRules Answers sig (Pursued sig start) (fun _ _ => True) :=
  journalRules_of_writes (fun hw he => hw.asks he)
    fun hw hwr _ hd =>
      hw.writes hwr fun _ hm => Or.inl (hd ▸ hm)

theorem Pursued.held (hp : Pursued sig start world) : Held sig start world :=
  Or.inl hp.pursued

theorem Excused.held (he : Excused sig start world) : Held sig start world :=
  Or.inr (Or.inl he)

theorem Pursued.excused (hp : Pursued sig start world)
    (hd : Denied sig (world.trace.drop start.trace.length)) : Excused sig start world :=
  ⟨hp.since, hp.keyed, Or.inr hd⟩

variable {st : DecisionState}

theorem Pursued.decides (hp : Pursued sig start world)
    (hs : st.isTerminal = false ∨ st = .filled) (amount : Decimal)
    (codes : List String) (time : Time) : (recordDecision sig st amount codes time).Safe Answers
      (Pursued sig start) (fun _ => Pursued sig start) world := by
  have hw : Transaction (fun _ => True) world.log
      (world.log.recordSignalDecision sig st amount codes time) :=
    .decide trivial st amount codes time
  have hd := hp.writes hw (recordSignalDecision_added
    (fun st => st.isTerminal = false ∨ st = .filled) hs _ _ _)
  exact ⟨hd, hd⟩

theorem Pursued.decides_held (hp : Pursued sig start world)
    (hs : st.isTerminal = false ∨ st = .filled) (amount : Decimal)
    (codes : List String) (time : Time) : (recordDecision sig st amount codes time).Safe Answers
      (Held sig start) (fun _ => Held sig start) world :=
  ((hp.decides hs amount codes time).weaken
    fun _ hr => hr.held).mono fun _ _ hr => hr.held

theorem Excused.decides_held (he : Excused sig start world) (st : DecisionState)
    (amount : Decimal) (codes : List String) (time : Time) :
    (recordDecision sig st amount codes time).Safe Answers
      (Held sig start) (fun _ => Held sig start) world :=
  ((excused_rules.decided trivial he st amount codes time).weaken
    fun _ hr => hr.held).mono fun _ _ hr => hr.held

theorem decides_held_of_flat (hf : world.log.localQuantity sig = 0)
    (st : DecisionState) (amount : Decimal) (codes : List String) (time : Time) :
    (recordDecision sig st amount codes time).Safe Answers
      (Held sig start) (fun _ => Held sig start) world := by
  have hp := (recordSignalDecision_tables world.log sig st amount codes time).2.1
  have hd : (world.log.recordSignalDecision sig st amount codes time).localQuantity sig = 0 := by
    rw [EventLog.localQuantity, EventLog.positionFor_of_positions hp]
    exact hf
  exact ⟨Or.inr (Or.inr hd), Or.inr (Or.inr hd)⟩

theorem attributeReduction_held (hp : Pursued sig start world)
    (ledger : VirtualPositionLedger) (plan : ReductionPlan) (rcpt : CopyExecutionReceipt)
    (time : Time) : (attributeReduction sig ledger plan rcpt time).Safe Answers (Held sig start)
      (fun _ => Held sig start) world := by
  unfold attributeReduction
  split
  · exact hp.decides_held (Or.inl rfl) _ _ _
  split
  · exact Proc.safe_halt
  rename_i updated _ _
  simp only [recordVirtualPosition, Proc.safe_bind, Proc.safe_transact]
  cases hr : world.log.recordVirtualPosition ⟨sig, ledger.positionFor sig, updated,
      rcpt.averagePrice, rcpt.leverage, time⟩ with
  | error code => exact ⟨hp.held, Proc.safe_halt⟩
  | ok log =>
    have hde : log.decisions = world.log.decisions := by
      obtain ⟨-, hu | ⟨prev, res, slot, pnl, ha⟩⟩ :=
        EventLog.recordVirtualPosition_cases hr
      · rw [hu.1]
      · rw [ha.after_eq]
    have hf : ¬ GivenUp sig start.log log := fun hg =>
      hp.pursued (hg.of_added fun _ hm => Or.inl (hde ▸ hm))
    have hd : ¬ GivenUp sig start.log (log.recordSignalDecision sig .filled
        rcpt.filledQuantity rcpt.reasonCodes time) := fun hg =>
      hf (hg.of_added (recordSignalDecision_added
        (fun st => st.isTerminal = false ∨ st = .filled) (Or.inr rfl) _ _ _))
    exact ⟨Or.inl hf, Or.inl hd, Or.inl hd⟩

theorem recordOutcome_held (hp : Pursued sig start world) {rcpt : CopyExecutionReceipt}
    (hre : rcpt.state = .rejected → Refused sig (world.trace.drop start.trace.length))
    {onFill : CopyExecutionReceipt → Time → Engine Unit}
    (hf : ∀ time, (onFill rcpt time).Safe Answers (Held sig start)
      (fun _ => Held sig start) world) (time : Time) :
    (recordOutcome sig rcpt onFill time).Safe Answers (Held sig start)
      (fun _ => Held sig start) world := by
  unfold recordOutcome
  split
  · split
    · exact hp.decides_held (Or.inl rfl) _ _ _
    split
    · split
      · exact hp.held
      · exact hp.decides_held (Or.inl rfl) _ _ _
    · exact hf time
  rename_i hopen
  split
  · exact hp.decides_held (Or.inl rfl) _ _ _
  · exact hp.decides_held (Or.inl rfl) _ _ _
  · exact hp.held
  · -- of the states that are left, only `REJECTED` is not final
    have hr : rcpt.state = .rejected := by
      cases hs : rcpt.state <;> simp_all [CopyExecutionReceipt.isTerminal]
    exact (hp.excused (.order (hre hr))).decides_held _ _ _ _

variable {cfg : RuntimeSettings}

theorem submitSignal_held (hp : Pursued sig start world) (hk : sig.kind = .reduce)
    (hen : cfg.mode.executionEnabled = true) {ord : CopyMarketOrder} (hs : ord.signal = sig)
    (hq : world.log.lookup sig.signalId = none → ord.localQuantity = world.log.localQuantity sig)
    {risk : AccountRiskDecision} (hri : risk.allowExecution = true) (amount : Decimal)
    (ledger : VirtualPositionLedger) (plan : ReductionPlan) (now : Time) :
    (submitSignal cfg sig ord amount risk
      (attributeReduction sig ledger plan) now).Safe Answers (Held sig start)
      (fun _ => Held sig start) world := by
  unfold submitSignal
  rw [hen, hri, if_neg (by simp), if_neg (by simp), Proc.safe_bind]
  have hexe := (pursued_journal.execute cfg.executor hs hp risk).and
    (execute_refuses cfg.executor hs hk hq hri hp.since.started)
  apply (hexe.weaken fun _ hrea => hrea.1.held).mono
  rintro rcpt executed ⟨⟨he, -⟩, hre⟩
  -- the decision that announces the order asks nothing, and the clock only adds to the trace
  have hrest : ∀ announced, Pursued sig start announced → announced.trace = executed.trace → (do
        let clockAt ← clock
        recordOutcome sig rcpt (attributeReduction sig ledger plan)
          (max clockAt (now + 1)) : Engine Unit).Safe Answers (Held sig start)
        (fun _ => Held sig start) announced := by
    intro announced ha ht
    simp only [clock, Proc.safe_bind, Proc.safe_question]
    intro clockAt asked han
    have has := ha.asks han
    refine ⟨has.held, recordOutcome_held has ?_
      (fun time => attributeReduction_held has _ _ _ time) _⟩
    intro hrej
    have hr := hre.refused hrej
    rw [← ht] at hr
    exact hr.mono (han.infix_drop ha.since.started)
  rw [Proc.safe_bind]
  unfold announceSubmission
  split
  · exact hrest executed he rfl
  · have hsu : DecisionState.submitted.isTerminal = false ∨
        DecisionState.submitted = .filled := Or.inl rfl
    obtain ⟨hd, -⟩ := he.decides hsu rcpt.requestedQuantity
      (if resubmittedReason ∈ rcpt.reasonCodes then [resubmittedReason] else []) now
    exact ⟨hd.held, hrest _ hd rfl⟩

theorem EventLog.sourcePositionQuantityBefore_nonneg {source : Decimal}
    (hs : log.sourcePositionQuantityBefore sig = some source) : 0 ≤ source := by
  unfold EventLog.sourcePositionQuantityBefore at hs
  split at hs
  · cases hs
  split at hs
  · cases hs
  · cases hs
    exact le_max_left _ _

def ClaimedBy (signal : NormalizedSignal) (log : EventLog) (claimed : Option CopyMarketOrder) :
    Prop :=
  ∀ order ∈ claimed, order.signal = signal ∧ log.lookup signal.signalId ≠ none

theorem processReduction_held (hp : Pursued sig start world) (hk : sig.kind = .reduce)
    (he : cfg.mode.executionEnabled = true) {claimed : Option CopyMarketOrder}
    (hcl : ClaimedBy sig start.log claimed) (rules : SymbolTradingRules)
    {risk : AccountRiskDecision} (hri : risk.allowExecution = true) (now : Time) :
    (processReduction cfg sig claimed rules risk now).Safe Answers (Held sig start)
      (fun _ => Held sig start) world := by
  have hc : ∀ ord ∈ claimed, ord.signal = sig :=
    fun ord ho => (hcl ord ho).1
  by_cases hclo : world.log.Closes sig
  · obtain ⟨source, hs, hle⟩ := hclo
    simp only [processReduction, readLog, Proc.safe_bind, Proc.safe_read]
    refine ⟨hp.held, ?_⟩
    apply ((pursued_rules.resolveSuperseded cfg hp _ now).weaken
      fun _ hr => hr.held).mono
    intro resolved planned hpl
    split
    · exact hpl.decides_held (Or.inl rfl) _ _ _
    rw [Proc.safe_bind, Proc.safe_read]
    refine ⟨hpl.held, ?_⟩
    rw [hs]
    generalize hplan : planned.log.loadVirtualLedger.planReduction sig rules (some source) =
      planning
    obtain ⟨plan, aligned⟩ := planning
    obtain ⟨hw, hf⟩ := VirtualPositionLedger.planReduction_closing hplan hk
      (EventLog.sourcePositionQuantityBefore_nonneg hs) hle
    dsimp only
    split
    · rename_i hrefused
      exact decides_held_of_flat (hf hrefused) _ _ _ _
    rename_i happroved
    split
    · exact Proc.safe_halt
    rename_i ord ho
    refine submitSignal_held hpl hk he (EngineRules.claimed_or_create_signal hc ho) ?_ hri _ _ _ _
    intro hu
    cases claimed with
    | some restored =>
      -- a claimed order's claim is still there
      obtain ⟨-, hl⟩ := hcl restored rfl
      rw [Ne, lookup_eq_none_iff] at hl
      rw [lookup_eq_none_iff] at hu
      exact absurd (fun claim hcla => hu claim (hpl.claims claim hcla)) hl
    | none =>
      have hcr := create_localQuantity ho
      rw [hcr, hw (by simpa using happroved)]
      rfl
  · have hexc : Excused sig start world :=
      ⟨hp.since, hp.keyed, Or.inl (Or.inl hclo)⟩
    exact ((excused_rules.processReduction cfg trivial hc hexc rules risk
      now).weaken fun _ hr => hr.held).mono fun _ _ hr => hr.held

def MarketRead (signal : NormalizedSignal) (now : Time) (calls : List Asked) :
    Except ReadFailure (SymbolTradingRules × Option Decimal × CopyAccountSnapshot) → Prop
  | .error .probe => True
  | .error (.rejected _) => Denied signal calls
  | .ok (_, limitPrice, account) => limitPrice = none ∧
    (invalidSnapshotReasons {} account now ≠ [] → Denied signal calls)

theorem readMarket_pursued (hp : Pursued sig start world) (hk : sig.kind = .reduce) (now : Time) :
    (readMarket sig now).Safe Answers (Pursued sig start)
      (fun market reached => Pursued sig start reached ∧
        MarketRead sig now (reached.trace.drop start.trace.length) market) world := by
  have hn : ∀ rules, entryLimitPrice sig rules = .ok none := by
    intro rules
    rw [entryLimitPrice, if_neg (by simp [hk])]
  simp only [readMarket, hn, Proc.safe_bind, Proc.safe_question]
  intro rulesReply asked ha
  have has := hp.asks ha
  have hl := ha.mem_drop hp.since.started
  refine ⟨has, ?_⟩
  split
  · rename_i failure
    refine ⟨has, ?_⟩
    cases failure with
    | probe => trivial
    | rejected reason => exact .catalog hl
  simp only [Proc.safe_bind, Proc.safe_question]
  intro accountReply read ha
  have hre := has.asks ha
  have hr := ha.mem_drop has.since.started
  refine ⟨hre, ?_⟩
  split
  · rename_i failure
    refine ⟨hre, ?_⟩
    cases failure with
    | probe => trivial
    | rejected reason => exact .account hr
  · exact ⟨hre, rfl, fun hi => .snapshot hr hi⟩

omit [HexOrder] in
theorem evaluateAccountRisk_reduce {policy : CopyAccountRiskPolicy}
    {snap : CopyAccountSnapshot} {now : Time} (hv : invalidSnapshotReasons policy snap now = []) :
    (evaluateAccountRisk policy snap .reduce now).allowExecution = true := by
  unfold evaluateAccountRisk
  rw [hv]
  dsimp only
  rw [if_neg (by simp)]
  split
  · simp
  split
  · simp
  · rfl

theorem processOpen_held (hp : Pursued sig start world) (hk : sig.kind = .reduce)
    (hen : cfg.mode.executionEnabled = true) {claimed : Option CopyMarketOrder}
    (hcl : ClaimedBy sig start.log claimed) (asg : LeaderAssignment) (now : Time) :
    (processOpen cfg sig asg claimed now).Safe Answers (Held sig start)
      (fun _ => Held sig start) world := by
  rw [processOpen, Proc.safe_bind]
  apply ((readMarket_pursued hp hk now).weaken fun _ hr => hr.held).mono
  rintro market read ⟨hre, hm⟩
  split
  · exact Proc.safe_halt
  · exact (hre.excused hm).decides_held _ _ _ _
  rename_i rules limitPrice acct
  obtain ⟨rfl, hi⟩ := hm
  by_cases hv : invalidSnapshotReasons {} acct now = []
  · have hri : (evaluateAccountRisk {} acct sig.kind now).allowExecution = true := by
      rw [hk]
      exact evaluateAccountRisk_reduce hv
    rw [Proc.safe_bind]
    apply ((pursued_rules.applyRiskControl cfg hre _ now).weaken
      fun _ hr => hr.held).mono
    intro _ controlled hc
    exact processReduction_held hc hk hen hcl _ hri _
  · have he := hre.excused (hi hv)
    rw [Proc.safe_bind]
    apply ((excused_rules.applyRiskControl cfg he _ now).weaken
      fun _ hr => hr.held).mono
    intro _ controlled hc
    exact ((excused_rules.processReduction cfg trivial
      (fun ord ho => (hcl ord ho).1) hc _ _ _).weaken
      fun _ hr => hr.held).mono fun _ _ hr => hr.held

theorem executorClaim_claimedBy (cfg : RuntimeSettings) (hh : Held sig start world) :
    (executorClaim cfg sig).Safe Answers (Held sig start)
      (fun claimed reached => reached = world ∧ ClaimedBy sig world.log claimed) world := by
  unfold executorClaim
  split
  · simp only [claimedOrder, readLog, Proc.safe_bind, Proc.safe_read]
    refine ⟨hh, rfl, ?_⟩
    intro ord ho
    obtain ⟨claim, hl, hr⟩ := Option.bind_eq_some_iff.mp ho
    exact ⟨restoredOrder_signal hr, by simp [hl]⟩
  · exact ⟨rfl, by simp [ClaimedBy]⟩

theorem processSignal_held (hp : Pursued sig start start) (hk : sig.kind = .reduce)
    (he : cfg.mode.executionEnabled = true) (asg : LeaderAssignment) :
    (processSignal cfg sig asg).Safe Answers (Held sig start) (fun _ => Held sig start) start := by
  simp only [processSignal, clock, readLog, Proc.safe_bind, Proc.safe_question, Proc.safe_read]
  intro now asked han
  have ha := hp.asks han
  refine ⟨ha.held, ha.held, ?_⟩
  split
  · exact Proc.safe_halt
  · exact ha.decides_held (Or.inr rfl) _ _ _
  rw [Proc.safe_bind]
  apply (executorClaim_claimedBy cfg ha.held).mono
  rintro claimed _ ⟨rfl, hcl⟩
  have hc : ClaimedBy sig start.log claimed := by
    intro ord ho
    obtain ⟨hs, hl⟩ := hcl ord ho
    rw [han.2.lookup_eq] at hl
    exact ⟨hs, hl⟩
  simp only [Proc.safe_bind, Proc.safe_read]
  refine ⟨ha.held, ha.held, ?_⟩
  rw [entryBlock, if_pos (by rw [hk]; decide)]
  exact processOpen_held ha hk he hc asg now

end Calls

/-- A call of `_process_signal` and the state it has reached. -/
structure SignalCall where
  signal : NormalizedSignal
  start : World
  reached : World

/-- The runs of an executing runtime with all the calls they make, each of which meets
`condition`. -/
inductive ExitRun (condition : NormalizedSignal → World → World → Prop) :
    List SignalCall → World → Prop
  | start {log : EventLog} (hstored : log.SignalsStored) (hunused : log.Unused) :
      ExitRun condition [] ⟨log, []⟩
  | process {calls : List SignalCall} {world reached : World} (hrun : ExitRun condition calls world)
      {settings : RuntimeSettings} (henabled : settings.mode.executionEnabled = true)
      {row : SignalRow} (hrow : row ∈ world.log.signals) {signal : NormalizedSignal}
      (hsignal : row.Describes signal) (assignment : LeaderAssignment)
      (hcall : Proc.Reaches Answers world (processSignal settings signal assignment) reached)
      (hcondition : condition signal world reached) :
      ExitRun condition (calls ++ [⟨signal, world, reached⟩]) reached
  | control {calls : List SignalCall} {world : World} (hrun : ExitRun condition calls world)
      {controlEventId : Digest}
      (hcontrol : world.log.latestRuntimeControl.state = .reduceAll ∧
        world.log.latestRuntimeControl.eventId = some controlEventId) (occurredAt : Time) :
      ExitRun condition calls { world with
        log := world.log.ensureControlReductionSignals controlEventId occurredAt }
  | outside {calls : List SignalCall} {world : World} (hrun : ExitRun condition calls world)
      {log : EventLog} (houtside : Outside world.log log) :
      ExitRun condition calls { world with log := log }

section Runs

variable {condition : NormalizedSignal → World → World → Prop} {calls : List SignalCall}
  {world reached : World} {sig : NormalizedSignal}

theorem ExitRun.engineRun (hr : ExitRun condition calls world) : EngineRun world := by
  induction hr with
  | start hstored hunused => exact .start hstored hunused
  | process _ _ hrow hsignal asg hcall _ ih =>
    exact .process ih _ hrow hsignal asg hcall
  | control _ hcontrol time ih => exact .control ih hcontrol time
  | outside _ houtside ih => exact .outside ih houtside

theorem pursued_of_engineRun (hr : EngineRun world) {row : SignalRow}
    (hrow : row ∈ world.log.signals) (hs : row.Describes sig)
    (hk : sig.kind = .reduce) : Pursued sig world world where
  since := .refl world
  keyed := hr.controlRun.stored_keyed.2
  stored := hr.controlRun.stored_keyed.1
  row := ⟨row, hrow, hs.signalId.symm, hs.kind.symm.trans hk⟩
  claims _ hclaim := hclaim
  pursued := fun ⟨_, hm, hn, _⟩ => hn hm

theorem not_strayed_of_closesThroughout {start : World}
    (hc : ClosesThroughout sig start reached) : ¬ Strayed sig start reached := by
  rintro (ho | ⟨asked, ha, ho⟩)
  · exact ho hc.1
  · exact ho (hc.2 asked ha)

theorem Held.exitKept {start : World} (hk : sig.kind = .reduce)
    (hh : Held sig start reached) (hco : ExitCondition sig start reached) :
    ExitKept sig start reached := by
  have hf : ClosesThroughout sig start reached →
      GivenUp sig start.log reached.log → reached.log.localQuantity sig = 0 := by
    intro hc hg
    rcases hh with hpu | he | hz
    · exact absurd hg hpu
    · by_contra hnonzero
      have hp : 0 < reached.log.localQuantity sig :=
        lt_of_le_of_ne (reached.log.loadVirtualLedger.positionFor sig).localQuantity_nonneg
          (Ne.symm hnonzero)
      rcases he.excuse with hst | hd
      · exact not_strayed_of_closesThroughout hc hst
      · exact hco hk hc hp hd
    · exact hz
  refine ⟨hf, fun hc hp ho hu => ?_⟩
  apply isRecoverable_of_not_terminal
  intro dec hm hs
  -- a terminal decision would be new, and the reduction given up
  by_contra ht
  rw [Bool.not_eq_false] at ht
  refine hp.ne' (hf hc ⟨dec, hm, ?_, hs, ht, hu dec hm hs⟩)
  intro hold
  rw [ho dec hold hs] at ht
  cases ht

end Runs

end Exits

section StaleExit

local instance staleExitHexOrder : HexOrder := distinctHexOrder

def exitLog : EventLog :=
  okValue (exposureLog [hedgeDocument .buy 1 2000, hedgeDocument .sell 1 3000])
    (by with_unfolding_all decide)

def exitStored : EventLog := { exitLog with
  slotAssignments := [⟨.external "slot", .longTerm, "1", newYear⟩]
  controls := [⟨.external "running", .running, "operator", ["START"], newYear⟩] }

def purchaseRow : SignalRow := exitStored.signals.headD entryRow
def exitRow : SignalRow := lastSignal exitStored (by with_unfolding_all decide)

def purchaseSignal : NormalizedSignal := purchaseRow.normalized (exitStored.deltaOf purchaseRow)
def exitSignal : NormalizedSignal := exitRow.normalized (exitStored.deltaOf exitRow)

theorem signalsStored_exitStored : exitStored.SignalsStored where
  nodup := by with_unfolding_all decide
  entries := by with_unfolding_all decide
  controls row hrow eventId key hid := by
    have hp : ∀ row ∈ exitStored.signals, (match row.signalId with
        | .signal _ _ _ => true
        | _ => false) = true := by
      with_unfolding_all decide
    have ho := hp row hrow
    rw [hid] at ho
    cases ho
  nodup_controls := by decide

def exitEntered : World :=
  ((processSignal {} purchaseSignal activeLeader).run exchangeAnswer ⟨exitStored, []⟩).2

def staleReply (trace : List Asked) : (query : Query) → query.Reply
  | .accountSnapshot now => .ok {
      observedAt := now - 16000000
      hedgeMode := true
      canTrade := true
      marginBalanceUsdt := 150
      availableBalanceUsdt := 150
      totalMaintenanceMarginUsdt := 0 }
  | query => exchangeReply trace query

def staleAnswer (world : World) (query : Query) : query.Reply × World :=
  (staleReply world.trace query,
    { world with trace := world.trace ++ [⟨world.log, query, staleReply world.trace query⟩] })

def exitStale : World :=
  ((processSignal {} exitSignal activeLeader).run staleAnswer exitEntered).2

def probeReply (trace : List Asked) : (query : Query) → query.Reply
  | .symbolRules _ => .error .probe
  | query => exchangeReply trace query

def probeAnswer (world : World) (query : Query) : query.Reply × World :=
  (probeReply world.trace query,
    { world with trace := world.trace ++ [⟨world.log, query, probeReply world.trace query⟩] })

def exitProbed : World :=
  ((processSignal {} exitSignal activeLeader).run probeAnswer exitEntered).2

theorem exitRun_exitEntered :
    ExitRun ExitCondition [⟨purchaseSignal, ⟨exitStored, []⟩, exitEntered⟩] exitEntered := by
  have hk : purchaseSignal.kind = .increase := by with_unfolding_all decide
  refine .process (.start signalsStored_exitStored
    (by constructor <;> with_unfolding_all decide)) rfl
    (show purchaseRow ∈ exitStored.signals by with_unfolding_all decide)
    (purchaseRow.describes_normalized _)
    activeLeader (Proc.reaches_run answers_exchangeAnswer) ?_
  intro hr
  rw [hk] at hr
  cases hr

def Asked.isProbe : Asked → Bool
  | ⟨_, .clock, _⟩ => true
  | ⟨_, .symbolRules _, .error .probe⟩ => true
  | _ => false

theorem not_denied_of_probes {sig : NormalizedSignal} {calls : List Asked}
    (hpr : ∀ asked ∈ calls, asked.isProbe = true) : ¬ Denied sig calls := by
  have hd {asked : Asked} (ha : asked ∈ calls) (ho : asked.isProbe = false) :
      False := by
    rw [hpr asked ha] at ho
    cases ho
  intro hde
  cases hde with
  | catalog ha => exact hd ha rfl
  | account ha => exact hd ha rfl
  | snapshot ha _ => exact hd ha rfl
  | order hre =>
    cases hre with
    | oneWayMode ha => exact hd ha rfl
    | insufficient ha _ _ _ => exact hd ha rfl
    | rejected ha _ _ => exact hd ha rfl
    | @ended asked _ _ ha hr _ _ =>
      have hp := hpr asked ha
      unfold Asked.isProbe at hp
      split at hp
      · cases hr
      · cases hr
      · cases hp
    | absent ha _ _ _ => exact hd (ha.subset (List.mem_cons_self ..)) rfl

theorem closesThroughout_exit {reached : World}
    (hr : reached.log.sourcePositionQuantityBefore exitSignal = some 1)
    (ha : ∀ asked ∈ reached.trace.drop exitEntered.trace.length,
      asked.log.sourcePositionQuantityBefore exitSignal = some 1) :
    ClosesThroughout exitSignal exitEntered reached := by
  have hd : (1 : Decimal) ≤ exitSignal.sourceDeltaQuantity := by with_unfolding_all decide
  exact ⟨⟨1, hr, hd⟩, fun asked hm => ⟨1, ha asked hm, hd⟩⟩

theorem exitRun_exitProbed : ExitRun ExitCondition [⟨purchaseSignal, ⟨exitStored, []⟩, exitEntered⟩,
      ⟨exitSignal, exitEntered, exitProbed⟩] exitProbed := by
  have hp : ∀ asked ∈ exitProbed.trace.drop exitEntered.trace.length, asked.isProbe = true := by
    with_unfolding_all decide
  exact .process exitRun_exitEntered rfl
    (show exitRow ∈ exitEntered.log.signals by with_unfolding_all decide)
    (exitRow.describes_normalized _)
    activeLeader (Proc.reaches_run fun world qry => answers_traced world qry _)
    (fun _ _ _ => not_denied_of_probes hp)

end StaleExit

end AiQuant.CopyTrading
