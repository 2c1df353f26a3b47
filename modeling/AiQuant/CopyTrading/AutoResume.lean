import AiQuant.CopyTrading.WatchdogRun

/-! The two services that release a pause on their own: the watchdog and the repair finalizer
(`services/copy_codex_repair_finalize.py`).  Each reads the control in force, checks, and appends
`RUNNING` last; other actors append control events meanwhile. -/
namespace AiQuant.CopyTrading
open AiQuant.Lib

inductive RepairStatus where
  | repaired | noChange | failed
deriving DecidableEq

/-- The entries of the evidence that `_safe_to_resume` reads.  `followUpRequired` is the truth
of its entry, if there is one. -/
structure RepairDocument where
  status : RepairStatus
  followUpRequired : Option Bool

structure StoredFinding where
  severity : Option String
  code : String

/-- The newest run of the watchdog.  There are no findings where the column is no list, and an
item is `none` where it is no document. -/
structure StoredHealthRun where
  state : String
  findings : Option (List (Option StoredFinding))

def latestWatchdog (row : Option StoredHealthRun) : String × List StoredFinding :=
  match row with
  | some ⟨state, some findings⟩ => (state, findings.reduceOption)
  | _ => ("FAILED", [])

def safeResumeActors : List String := ["codex-hourly-audit", "deterministic-watchdog"]

def blockingWarningCodes : List String := ["COPY_ACCOUNT_WARNING_RISK_LINE"]

def StoredFinding.blocks (finding : StoredFinding) : Bool :=
  finding.severity = some "CRITICAL" ∨ finding.code ∈ blockingWarningCodes

/-- What the finalizer asks outside the tables of the model. -/
inductive FinalizerQuery where
  | latestWatchdog
  | facts
  | clock

abbrev FinalizerQuery.Reply : FinalizerQuery → Type
  | .latestWatchdog => Option StoredHealthRun
  | .facts => DatabaseHealthFacts
  | .clock => Time

abbrev Finalizer := Proc EventLog FinalizerQuery FinalizerQuery.Reply

def DatabaseHealthFacts.settled (facts : DatabaseHealthFacts) : Bool :=
  facts.uncertainSignals = 0 ∧ facts.overduePendingEntries = 0 ∧ facts.latestPollFailures = 0 ∧
    facts.historyGapFailures = 0 ∧ facts.pendingEntryAllowances.entries = []

section Finalize

variable [HexOrder]

def safeToResume (document : RepairDocument) : Finalizer Bool := do
  if document.status = .failed then return false
  else if document.followUpRequired.getD true then return false
  else
    let row ← Proc.question FinalizerQuery.latestWatchdog
    if (latestWatchdog row).1 = "FAILED" then return false
    else if (latestWatchdog row).2.any StoredFinding.blocks then return false
    else
      let facts ← Proc.question FinalizerQuery.facts
      if facts.settled then
        let recoverable ← Proc.read (·.recoverableSignals 1)
        return recoverable.isEmpty
      else return false

/-- `main` of the finalizer up to `_persist`; it returns `resumed`. -/
def finalizeRepair (document : RepairDocument) : Finalizer Bool := do
  let current ← Proc.read (·.latestRuntimeControl)
  if current.state = .pausedNewEntries ∧ current.actorId ∈ safeResumeActors then
    let safe ← safeToResume document
    if safe then
      let now ← Proc.question FinalizerQuery.clock
      Proc.write (·.appendRuntimeControl .running "codex-auto-repair"
        ["COPY_CODEX_REPAIR_VERIFIED"] now)
      return true
    else return false
  else return false

def RuntimeControl.IsAutomaticPause (current : RuntimeControl) : Prop :=
  current.state = .pausedNewEntries ∧
    current.actorId ∈ ["codex-hourly-audit", "deterministic-watchdog", "account-risk-engine"]

/-- A `RUNNING` event becomes the latest control only in the place of the automatic pause that
the run read, and a control appended since stays in force. -/
structure NoUndonePause (own : List (EventLog × EventLog)) : Prop where
  releases : ∀ first before after event, Completes own first before after event →
    event.state = .running → after.newestControl = some event →
      before.newestControl = first.newestControl ∧
        before.latestRuntimeControl.IsAutomaticPause
  keeps : ∀ first before after event, Completes own first before after event →
    event.state = .running → ∀ other, before.newestControl = some other →
      other ∉ first.controls → after.newestControl = some other

/-- Of the control events that others append between the read and the `RUNNING` event, none is
newer than the one read, or one is not older than the `RUNNING` event. -/
def PauseUndisturbed (own : List (EventLog × EventLog)) : Prop :=
  ∀ first before after event, Completes own first before after event → event.state = .running →
    ∀ added control, before.controls = first.controls ++ added →
      first.newestControl = some control →
      (∀ other ∈ added, ¬ other.newerThan control) ∨ ∃ other ∈ added, ¬ event.newerThan other

/-- A transaction of a run that read `current`: it changes nothing, or appends a control event,
and `RUNNING` only over an automatic pause. -/
def Releases (current : RuntimeControl) (before after : EventLog) : Prop :=
  after = before ∨ ∃ state actorId reasonCodes occurredAt,
    after = before.appendRuntimeControl state actorId reasonCodes occurredAt ∧
      (state = .running → current.IsAutomaticPause)

def ReadsThenReleases (own : List (EventLog × EventLog)) : Prop :=
  own = [] ∨ ∃ first later, own = (first, first) :: later ∧ ∀ step ∈ later,
    AppendsControls first step.1 ∧ Releases first.latestRuntimeControl step.1 step.2

omit [HexOrder] in
theorem Releases.appends {current : RuntimeControl} {pre post : EventLog}
    (hr : Releases current pre post) : AppendsControls pre post := by
  rcases hr with rfl | ⟨st, actorId, codes, time, rfl, -⟩
  · exact ⟨[], (List.append_nil _).symm⟩
  · rcases appendRuntimeControl_controls pre st actorId codes time with
      hs | ⟨ev, -, he⟩
    · exact ⟨[], by rw [hs, List.append_nil]⟩
    · exact ⟨[ev], he⟩

variable {start final : EventLog} {own : List (EventLog × EventLog)}

theorem readsThenReleases_of_within {Q : Type} {R : Q → Type} {α : Type}
    {rest : RuntimeControl → Proc EventLog Q R α}
    (hw : ∀ current, (rest current).Within (fun _ => True) (Releases current))
    (hrun : Proc.Interleaves AppendsControls start
      (Proc.read (·.latestRuntimeControl) >>= rest) own final) : ReadsThenReleases own := by
  rcases Proc.Interleaves.of_read_bind hrun with hn | ⟨first, later, -, ho, hr⟩
  · exact Or.inl hn
  refine Or.inr ⟨first, later, ho, fun step hs => ⟨?_, ?_⟩⟩
  · refine Proc.Interleaves.own_related (fun log => ⟨[], (List.append_nil _).symm⟩) ?_ id
      ((hw _).mono (fun _ h => h) fun _ _ => Releases.appends) hr step hs
    rintro first second third ⟨earlier, he⟩ ⟨later, hl⟩
    exact ⟨earlier ++ later, by rw [hl, he, List.append_assoc]⟩
  · exact hr.own_within (hw _) step hs

theorem Completes.released {first pre post : EventLog}
    {ev : RuntimeControlEvent} (ho : ReadsThenReleases own)
    (hc : Completes own first pre post ev) (hru : ev.state = .running) :
    first.latestRuntimeControl.IsAutomaticPause ∧ AppendsControls first pre ∧
      ev ∉ pre.controls := by
  rcases ho with rfl | ⟨read, later, rfl, hl⟩
  · cases hc.first
  have hf : read = first := congrArg Prod.fst (Option.some.inj hc.first)
  subst hf
  have hg : post ≠ pre := by
    rintro rfl
    simpa using hc.appended
  have hst := hc.step
  rw [List.mem_cons] at hst
  rcases hst with hsa | hst
  · rw [Prod.mk.injEq] at hsa
    exact absurd (hsa.2.trans hsa.1.symm) hg
  obtain ⟨had, hr⟩ := hl _ hst
  rcases hr with hsa | ⟨st, actorId, codes, time, haf, hp⟩
  · exact absurd hsa hg
  have ha := hc.appended
  rw [show post = pre.appendRuntimeControl st actorId codes time from haf]
    at ha
  dsimp only [EventLog.appendRuntimeControl] at ha
  split at ha
  · simp at ha
  · rename_i hnew
    have he := List.append_cancel_left ha
    rw [List.cons.injEq] at he
    have hs : ev.state = st := by rw [← he.1]
    refine ⟨hp (hs.symm.trans hru), had, fun hm => hnew ?_⟩
    rw [← he.1] at hm
    exact List.any_eq_true.mpr ⟨_, hm, decide_eq_true rfl⟩

theorem exists_automaticPause {log : EventLog} (hp : log.latestRuntimeControl.IsAutomaticPause) :
    ∃ control, log.newestControl = some control := by
  cases hn : log.newestControl with
  | some control => exact ⟨control, rfl⟩
  | none =>
    have ha := hp.2
    unfold EventLog.newestControl at hn
    unfold EventLog.latestRuntimeControl at ha
    rw [hn] at ha
    simp at ha

theorem noUndonePause_iff (hown : ReadsThenReleases own) :
    NoUndonePause own ↔ PauseUndisturbed own := by
  constructor
  · intro hk first pre post ev hc hr added control ha hco
    obtain ⟨-, -, hf⟩ := hc.released hown hr
    refine (concat_replaces_iff ha hco hc.appended hf).mp ?_
    exact fun hl =>
      (hk.releases first pre post ev hc hr hl).1
  · intro hu
    have hre : ∀ first pre post ev, Completes own first pre post ev →
        ev.state = .running → post.newestControl = some ev →
          pre.newestControl = first.newestControl ∧
            pre.latestRuntimeControl.IsAutomaticPause := by
      intro first pre post ev hc hr hl
      obtain ⟨hp, ⟨added, ha⟩, hf⟩ := hc.released hown hr
      obtain ⟨control, hco⟩ := exists_automaticPause hp
      have hs := (concat_replaces_iff ha hco hc.appended hf).mpr
        (hu first pre post ev hc hr added control ha hco)
        hl
      exact ⟨hs, latestRuntimeControl_congr hs ▸ hp⟩
    refine ⟨hre, ?_⟩
    intro first pre post ev hc hr other ho hab
    have hca := newest_append_cases (·.occurredAt)
      (fun ev : RuntimeControlEvent => HexOrder.value ev.controlEventId)
      pre.controls [ev]
    rw [← hc.appended] at hca
    rcases hca with hk | ⟨row, hrow, hl⟩
    · exact hk.trans ho
    · rw [List.mem_singleton] at hrow
      subst hrow
      have hs := (hre first pre post row hc hr hl).1
      rw [ho] at hs
      exact absurd (newest_mem _ _ hs.symm) hab

omit [HexOrder] in
theorem releases_refl (current : RuntimeControl) (log : EventLog) : Releases current log log :=
  Or.inl rfl

theorem safeToResume_within (current : RuntimeControl) (doc : RepairDocument) :
    (safeToResume doc).Within (fun _ => True) (Releases current) := by
  unfold safeToResume
  split
  · exact Proc.within_pure
  split
  · exact Proc.within_pure
  refine Proc.within_bind (Proc.within_question.mpr trivial) fun row => ?_
  split
  · exact Proc.within_pure
  split
  · exact Proc.within_pure
  refine Proc.within_bind (Proc.within_question.mpr trivial) fun facts => ?_
  split
  · exact Proc.within_bind (Proc.within_read.mpr (releases_refl current)) fun _ =>
      Proc.within_pure
  · exact Proc.within_pure

theorem finalizeRepair_own {doc : RepairDocument}
    (hr : Proc.Interleaves AppendsControls start (finalizeRepair doc) own final) :
    ReadsThenReleases own := by
  refine readsThenReleases_of_within (fun current => ?_) hr
  split
  · rename_i hp
    refine Proc.within_bind (safeToResume_within current doc) fun safe => ?_
    split
    · refine Proc.within_bind (Proc.within_question.mpr trivial) fun now => ?_
      refine Proc.within_bind (Proc.within_write.mpr fun log => ?_) fun _ => Proc.within_pure
      refine Or.inr ⟨_, _, _, _, rfl, fun _ => ⟨hp.1, ?_⟩⟩
      exact List.mem_append_left ["account-risk-engine"] hp.2
    · exact Proc.within_pure
  · exact Proc.within_pure

theorem applyReport_within (facts : DatabaseHealthFacts) {report : HealthReport} (now : Time)
    (hn : report.requestedControl ≠ some .running) :
    ∃ rest, applyReport facts report now = (Proc.read (·.latestRuntimeControl) >>= rest) ∧
      ∀ current, (rest current).Within (fun _ => True) (Releases current) := by
  refine ⟨_, rfl, fun current => ?_⟩
  have ha (append : ControlAppend) (hp : append.state = .running → current.IsAutomaticPause) :
      (appendControl append now).Within (fun _ => True) (Releases current) :=
    Proc.within_write.mpr fun log => Or.inr ⟨_, _, _, _, rfl, hp⟩
  split
  · rename_i requested hrequested
    have hnot : requested ≠ .running := by
      rintro rfl
      exact hn hrequested
    have hsp := requestedAppend_spec current report hnot
    split
    · rename_i append happend
      rw [happend] at hsp
      exact ha append fun hru => absurd (hsp.symm.trans hru) hnot
    · exact Proc.within_pure
  · split
    · rename_i hf
      simp only [retiredAccountRiskPauseCanResume, resolvedServicePauseCanResume,
        Bool.or_eq_true, decide_eq_true_eq] at hf
      refine ha _ fun _ => ?_
      rcases hf with hre | hs
      · exact ⟨hre.1, by simp [hre.2.1]⟩
      · exact ⟨hs.1, by simp [hs.2.1]⟩
    · refine Proc.within_bind (Proc.within_read.mpr (releases_refl current)) fun recoverable => ?_
      split
      · rename_i hr
        simp only [resolvedReconciliationPauseCanResume, decide_eq_true_eq] at hr
        exact ha _ fun _ => ⟨hr.1, by simp [hr.2.1]⟩
      · exact Proc.within_pure

variable [DecimalFormat]

theorem watchdogAt_own {now : Time}
    (hrun : Proc.Interleaves AppendsControls start (watchdogAt now) own final) :
    ReadsThenReleases own := by
  rcases Proc.Interleaves.of_question_bind hrun with hno | ⟨_, facts, -, ha⟩
  · exact Or.inl hno
  rcases Proc.Interleaves.of_question_bind ha with hno | ⟨_, reply, -, hre⟩
  · exact Or.inl hno
  cases reply with
  | error failure => exact Or.inl (Proc.Interleaves.of_halt hre)
  | ok reply =>
    rcases Proc.Interleaves.of_question_bind hre with hno | ⟨_, host, -, hr⟩
    · exact Or.inl hno
    dsimp only at hr
    have hn : (evaluateHealth facts reply.1 reply.2 now (some host)).requestedControl ≠
        some .running := evaluateHealth_ne_running
    obtain ⟨rest, hap, hrest⟩ := applyReport_within facts now hn
    rw [hap] at hr
    exact readsThenReleases_of_within
      (fun current => Proc.within_bind (hrest current) fun _ => Proc.within_pure) hr

/-- Among any other writers, a resume of the watchdog or of the finalizer undoes no later control
exactly where it was undisturbed. -/
theorem automatic_resume_iff_undisturbed :
    (∀ (now : Time) (start final : EventLog) (own : List (EventLog × EventLog)),
      Proc.Interleaves AppendsControls start (watchdogAt now) own final →
        (NoUndonePause own ↔ PauseUndisturbed own)) ∧
      ∀ (doc : RepairDocument) (start final : EventLog) (own : List (EventLog × EventLog)),
        Proc.Interleaves AppendsControls start (finalizeRepair doc) own final →
          (NoUndonePause own ↔ PauseUndisturbed own) :=
  ⟨fun _ _ _ _ hr => noUndonePause_iff (watchdogAt_own hr),
    fun _ _ _ _ hr => noUndonePause_iff (finalizeRepair_own hr)⟩

omit [DecimalFormat] in
theorem finalizeRepair_resumes {doc : RepairDocument} {row : StoredHealthRun}
    {facts : DatabaseHealthFacts} {first last : EventLog}
    (hp : first.latestRuntimeControl.state = .pausedNewEntries)
    (ha : first.latestRuntimeControl.actorId ∈ safeResumeActors)
    (hd : doc.status ≠ .failed ∧ doc.followUpRequired = some false)
    (hw : (latestWatchdog (some row)).1 ≠ "FAILED" ∧
      (latestWatchdog (some row)).2.any StoredFinding.blocks = false)
    (hf : facts.settled = true) (hr : (first.recoverableSignals 1).isEmpty = true)
    (hl : Relation.ReflTransGen AppendsControls first last) (now : Time) :
    Proc.Interleaves AppendsControls first (finalizeRepair doc)
      [(first, first), (first, first), (last, last.appendRuntimeControl .running
        "codex-auto-repair" ["COPY_CODEX_REPAIR_VERIFIED"] now)]
      (last.appendRuntimeControl .running "codex-auto-repair"
        ["COPY_CODEX_REPAIR_VERIFIED"] now) := by
  refine Proc.Interleaves.read_bind ?_
  rw [if_pos ⟨hp, ha⟩, safeToResume, if_neg hd.1, if_neg (by simp [hd.2])]
  refine Proc.Interleaves.ask (some row) ?_
  dsimp only [Proc.bind]
  rw [if_neg hw.1, if_neg (by simp [hw.2])]
  refine Proc.Interleaves.ask facts ?_
  dsimp only [Proc.bind]
  rw [if_pos hf]
  refine Proc.Interleaves.atomic ?_
  dsimp only [Proc.bind, pure]
  rw [if_pos hr]
  exact .ask now (.moves hl (.atomic .here))

end Finalize

section OperatorReduces

local instance resumeHexOrder : HexOrder := ⟨fun _ => 0⟩

local instance resumeDecimalFormat : DecimalFormat := ⟨fun value => toString value.num⟩

def watchdogPaused : EventLog :=
  ({} : EventLog).appendRuntimeControl .pausedNewEntries "deterministic-watchdog"
    ["COPY_UNCERTAIN_SUBMISSIONS"] 1

def operatorReduces (occurredAt : Time) : RuntimeControlEvent where
  controlEventId := .external "reduce"
  state := .reduceAll
  actorId := "telegram:1"
  reasonCodes := ["TELEGRAM_REDUCE_ALL"]
  occurredAt := occurredAt

def reducedAt (occurredAt : Time) : EventLog :=
  { watchdogPaused with controls := watchdogPaused.controls ++ [operatorReduces occurredAt] }

def repairResumed (occurredAt : Time) : EventLog :=
  (reducedAt occurredAt).appendRuntimeControl .running "codex-auto-repair"
    ["COPY_CODEX_REPAIR_VERIFIED"] 10

def repairVerified : RuntimeControlEvent where
  controlEventId := .runtimeControl "codex-auto-repair" 10 ["COPY_CODEX_REPAIR_VERIFIED"] .running
  state := .running
  actorId := "codex-auto-repair"
  reasonCodes := ["COPY_CODEX_REPAIR_VERIFIED"]
  occurredAt := 10

def repairTransactions (occurredAt : Time) : List (EventLog × EventLog) :=
  [(watchdogPaused, watchdogPaused), (watchdogPaused, watchdogPaused),
    (reducedAt occurredAt, repairResumed occurredAt)]

theorem interleaves_repairResumed (time : Time) :
    Proc.Interleaves AppendsControls watchdogPaused (finalizeRepair ⟨.repaired, some false⟩)
      (repairTransactions time) (repairResumed time) := by
  refine @finalizeRepair_resumes _ _ ⟨"HEALTHY", some []⟩
    { uncertainFacts with uncertainSignals := 0 } _ _ ?_ ?_ ?_ ?_ ?_ ?_
    (.single ⟨[operatorReduces time], rfl⟩) 10
  · decide
  · decide
  · decide
  · decide
  · decide
  · decide

theorem repairResumed_controls (time : Time) :
    (repairResumed time).controls = (reducedAt time).controls ++ [repairVerified] := by
  simp [repairResumed, reducedAt, watchdogPaused, EventLog.appendRuntimeControl, operatorReduces,
    repairVerified]

theorem later_reduction_kept : NoUndonePause (repairTransactions 20) := by
  refine (automatic_resume_iff_undisturbed.2 _ _ _ _ (interleaves_repairResumed 20)).mpr ?_
  intro first pre post ev hc hr added control had hco
  have hf : watchdogPaused = first := congrArg Prod.fst (Option.some.inj hc.first)
  subst hf
  have ha := hc.appended
  have hs := hc.step
  simp only [repairTransactions, List.mem_cons, Prod.mk.injEq, List.not_mem_nil, or_false] at hs
  rcases hs with ⟨rfl, rfl⟩ | ⟨rfl, rfl⟩ | ⟨rfl, rfl⟩
  · simp at ha
  · simp at ha
  · rw [repairResumed_controls] at ha
    cases List.append_cancel_left ha
    cases List.append_cancel_left had
    exact Or.inr ⟨operatorReduces 20, by simp, (by decide : ¬ Newer (·.occurredAt)
        (fun ev : RuntimeControlEvent => HexOrder.value ev.controlEventId)
        repairVerified (operatorReduces 20))⟩

/-- A `REDUCE_ALL` between the read and the clock reading is undone: the runtime runs. -/
theorem earlier_reduction_undone : ¬ ∀ [HexOrder] (doc : RepairDocument) (start final : EventLog)
      (own : List (EventLog × EventLog)),
      Proc.Interleaves AppendsControls start (finalizeRepair doc) own final →
      NoUndonePause own := by
  intro hcl
  have hk := hcl _ _ _ _ (interleaves_repairResumed 5)
  have hc : Completes (repairTransactions 5) watchdogPaused (reducedAt 5)
      (repairResumed 5) repairVerified :=
    ⟨rfl, by simp [repairTransactions], repairResumed_controls 5⟩
  have hl := hk.keeps _ _ _ _ hc rfl (operatorReduces 5) (by decide) (by decide)
  have hr : (repairResumed 5).newestControl = some repairVerified := by decide
  rw [hr] at hl
  exact absurd hl (by decide)

end OperatorReduces

end AiQuant.CopyTrading
