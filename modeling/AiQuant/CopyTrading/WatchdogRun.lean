import AiQuant.CopyTrading.FlattenCompletion
import AiQuant.CopyTrading.Health

/-! The controls that the watchdog and the risk engine leave behind.  A critical finding
always asks for a control, and a pause is released only by a report that asks for none. -/
namespace AiQuant.CopyTrading
open AiQuant.Lib

theorem strongerControl_ne_running {current : Option RuntimeControlState}
    {cand : RuntimeControlState} (hcu : current ≠ some .running)
    (hc : cand ≠ .running) : strongerControl current cand ≠ .running := by
  unfold strongerControl
  split
  · exact hc
  · split
    · exact hc
    · exact fun hr => hcu (congrArg some hr)

theorem foldl_escalate (items : List HealthItem) (start : Option RuntimeControlState)
    (hs : start ≠ some .running) : items.foldl HealthItem.escalate start ≠ some .running ∧
      (items.foldl HealthItem.escalate start = none ↔
        start = none ∧ ∀ item ∈ items, item.request = none) := by
  induction items generalizing start with
  | nil => simpa using hs
  | cons item items ih =>
    rw [List.foldl_cons]
    cases hr : item.request with
    | none => simpa [HealthItem.escalate, hr] using ih start hs
    | some cand =>
      have hn : some (strongerControl start cand) ≠ some RuntimeControlState.running := by
        intro hru
        refine strongerControl_ne_running hs ?_ (Option.some.inj hru)
        rintro rfl
        exact item.not_running hr
      simpa [HealthItem.escalate, hr] using ih _ hn

theorem requestedControl_ne_running (items : List HealthItem) :
    requestedControl items ≠ some .running :=
  (foldl_escalate items none (by simp)).1

theorem requestedControl_eq_none_iff (items : List HealthItem) :
    requestedControl items = none ↔ ∀ item ∈ items, item.request = none := by
  rw [requestedControl, (foldl_escalate items none (by simp)).2]
  exact and_iff_right rfl

def HealthReport.HasCritical (report : HealthReport) : Prop :=
  ∃ finding ∈ report.findings, finding.severity = .critical

section Reports

variable [DecimalFormat] {facts : DatabaseHealthFacts} {acct : CopyAccountSnapshot}
  {exchange : ExchangePositions} {now : Time} {host : Option HostHealthFacts}

theorem evaluateHealth_requestedControl :
    (evaluateHealth facts acct exchange now host).requestedControl =
      requestedControl (healthItems facts acct exchange now host) := by
  rw [evaluateHealth]

theorem evaluateHealth_findings : (evaluateHealth facts acct exchange now host).findings =
      (healthItems facts acct exchange now host).map (·.finding) := by
  rw [evaluateHealth]

theorem evaluateHealth_ne_running :
    (evaluateHealth facts acct exchange now host).requestedControl ≠ some .running := by
  rw [evaluateHealth_requestedControl]
  exact requestedControl_ne_running _

theorem evaluateHealth_fail_closed
    (hc : (evaluateHealth facts acct exchange now host).HasCritical) :
    (evaluateHealth facts acct exchange now host).requestedControl ≠ none := by
  rw [HealthReport.HasCritical, evaluateHealth_findings] at hc
  obtain ⟨finding, hf, hs⟩ := hc
  obtain ⟨item, hi, rfl⟩ := List.mem_map.mp hf
  rw [evaluateHealth_requestedControl]
  intro hn
  have hr := (requestedControl_eq_none_iff _).mp hn item hi
  have hso := item.critical_requests hs
  rw [hr] at hso
  cases hso

end Reports

section Turns

variable [HexOrder] [DecimalFormat]

/-- A run with no other actor in between, and its report if it got that far. -/
def runWatchdog (inputs : (query : WatchdogQuery) → query.Reply) (log : EventLog) :
    Option HealthReport × EventLog :=
  watchdog.run (fun log query => (inputs query, log)) log

def WellNamedControls (log : EventLog) : Prop :=
  ∀ event ∈ log.controls, ∀ actorId occurredAt reasonCodes state,
    event.controlEventId = .runtimeControl actorId occurredAt reasonCodes state →
      event.occurredAt = occurredAt

/-- Runs of the watchdog and events of other actors, at increasing times. -/
inductive WatchdogRun : EventLog → Prop
  | start {log : EventLog} (hempty : log.controls = []) : WatchdogRun log
  | watchdog {log : EventLog} (hrun : WatchdogRun log)
      (inputs : (query : WatchdogQuery) → query.Reply)
      (hlater : ∀ event ∈ log.controls, event.occurredAt < inputs .clock) :
      WatchdogRun (runWatchdog inputs log).2
  | other {log after : EventLog} (hrun : WatchdogRun log) (event : RuntimeControlEvent)
      (hlater : ∀ earlier ∈ log.controls, earlier.occurredAt < event.occurredAt)
      (hnamed : ∀ actorId occurredAt reasonCodes state,
        event.controlEventId = .runtimeControl actorId occurredAt reasonCodes state →
          event.occurredAt = occurredAt)
      (hcontrols : after.controls = log.controls ++ [event]) : WatchdogRun after
  | elsewhere {log after : EventLog} (hrun : WatchdogRun log)
      (hcontrols : after.controls = log.controls) : WatchdogRun after

inductive Applies (current : RuntimeControl) (report : HealthReport) : Option ControlAppend → Prop
  | requested {requested : RuntimeControlState}
      (hrequested : report.requestedControl = some requested) :
      Applies current report (requestedAppend current report requested)
  | resumed (hnone : report.requestedControl = none) (hpaused : current.state = .pausedNewEntries)
      (hactor : current.actorId = "deterministic-watchdog" ∨
        current.actorId = "account-risk-engine") :
      Applies current report (some (resumeAppend current))
  | kept (hnone : report.requestedControl = none) : Applies current report none

def EventLog.appendControl? (log : EventLog) (append : Option ControlAppend) (now : Time) :
    EventLog :=
  match append with
  | none => log
  | some append =>
    log.appendRuntimeControl append.state append.actorId append.reasonCodes now

variable {ins : (qry : WatchdogQuery) → qry.Reply} {log : EventLog}

omit [DecimalFormat] in
theorem run_applyReport (facts : DatabaseHealthFacts) (report : HealthReport) (now : Time)
    (log : EventLog) : ∃ append, Applies log.latestRuntimeControl report append ∧
      (applyReport facts report now).run (fun log qry => (ins qry, log)) log =
        (some (), log.appendControl? append now) := by
  rw [applyReport, Proc.run_read_bind]
  cases hr : report.requestedControl with
  | some requested =>
    refine ⟨_, .requested hr, ?_⟩
    dsimp only
    cases requestedAppend log.latestRuntimeControl report requested with
    | none => rfl
    | some append => rfl
  | none =>
    dsimp only
    split
    · rename_i hf
      simp only [retiredAccountRiskPauseCanResume, resolvedServicePauseCanResume,
        Bool.or_eq_true, decide_eq_true_eq] at hf
      rcases hf with hre | hs
      · exact ⟨_, .resumed hr hre.1 (Or.inr hre.2.1), rfl⟩
      · exact ⟨_, .resumed hr hs.1 (Or.inl hs.2.1), rfl⟩
    · rw [Proc.run_read_bind]
      split
      · rename_i hresolved
        simp only [resolvedReconciliationPauseCanResume, decide_eq_true_eq] at hresolved
        exact ⟨_, .resumed hr hresolved.1 (Or.inl hresolved.2.1), rfl⟩
      · exact ⟨none, .kept hr, rfl⟩

theorem runWatchdog_spec {report : HealthReport} {post : EventLog}
    (hr : runWatchdog ins log = (some report, post)) : ∃ facts acct exchange host append,
      report = evaluateHealth facts acct exchange (ins .clock) host ∧
      Applies log.latestRuntimeControl report append ∧
      post = log.appendControl? append (ins .clock) := by
  rw [runWatchdog, watchdog, Proc.run_question_bind, watchdogAt, Proc.run_question_bind,
    Proc.run_question_bind] at hr
  dsimp only at hr
  cases ha : ins (.account (ins .clock)) with
  | error failure =>
    rw [ha] at hr
    cases hr
  | ok reply =>
    obtain ⟨acct, exchange⟩ := reply
    rw [ha] at hr
    dsimp only at hr
    rw [Proc.run_question_bind] at hr
    obtain ⟨append, hap, hrun⟩ := run_applyReport (ins .facts)
      (evaluateHealth (ins .facts) acct exchange (ins .clock) (some (ins .host)))
      (ins .clock) log
    rw [Proc.run_bind_of_some hrun, Proc.run_pure, Prod.mk.injEq, Option.some.injEq] at hr
    obtain ⟨rfl, rfl⟩ := hr
    exact ⟨_, _, _, _, append, rfl, hap, rfl⟩

theorem runWatchdog_none (hr : (runWatchdog ins log).1 = none) : (runWatchdog ins log).2 = log := by
  rw [runWatchdog, watchdog, Proc.run_question_bind, watchdogAt, Proc.run_question_bind,
    Proc.run_question_bind] at hr ⊢
  dsimp only at hr ⊢
  cases ha : ins (.account (ins .clock)) with
  | error failure => rfl
  | ok reply =>
    obtain ⟨acct, exchange⟩ := reply
    rw [ha] at hr
    dsimp only at hr
    rw [Proc.run_question_bind] at hr
    obtain ⟨append, -, hrun⟩ := run_applyReport (ins .facts)
      (evaluateHealth (ins .facts) acct exchange (ins .clock) (some (ins .host)))
      (ins .clock) log
    rw [Proc.run_bind_of_some hrun] at hr
    cases hr

def ControlAppend.event (append : ControlAppend) (now : Time) : RuntimeControlEvent where
  controlEventId := .runtimeControl append.actorId now append.reasonCodes append.state
  state := append.state
  actorId := append.actorId
  reasonCodes := append.reasonCodes
  occurredAt := now

omit [HexOrder] [DecimalFormat] in
theorem appendControl_controls (hn : WellNamedControls log) {now : Time}
    (hl : ∀ ev ∈ log.controls, ev.occurredAt < now) (append : ControlAppend) :
    (log.appendControl? (some append) now).controls = log.controls ++ [append.event now] := by
  dsimp only [EventLog.appendControl?, EventLog.appendRuntimeControl]
  rw [if_neg]
  · rfl
  · intro hk
    obtain ⟨ev, he, hid⟩ := List.any_eq_true.mp hk
    have ht : ev.occurredAt = now := hn ev he _ _ _ _ (of_decide_eq_true hid)
    exact (hl ev he).ne ht

omit [DecimalFormat] in
theorem latest_appendControl (hn : WellNamedControls log) {now : Time}
    (hl : ∀ ev ∈ log.controls, ev.occurredAt < now) (append : ControlAppend) :
    (log.appendControl? (some append) now).latestRuntimeControl.state = append.state := by
  unfold EventLog.latestRuntimeControl
  rw [appendControl_controls hn hl append, newest_concat_of_lt _ _ hl]
  rfl

omit [HexOrder] [DecimalFormat] in
theorem WellNamedControls.concat {post : EventLog} {ev : RuntimeControlEvent}
    (hl : WellNamedControls log) (hc : post.controls = log.controls ++ [ev])
    (hn : ∀ actorId time codes st, ev.controlEventId = .runtimeControl actorId time codes st →
        ev.occurredAt = time) : WellNamedControls post := by
  intro other ho
  rw [hc, List.mem_append, List.mem_singleton] at ho
  rcases ho with hold | rfl
  · exact hl other hold
  · exact hn

theorem WatchdogRun.wellNamed (hrun : WatchdogRun log) : WellNamedControls log := by
  induction hrun with
  | start hempty =>
    intro ev he
    rw [hempty] at he
    cases he
  | watchdog _ ins hlater ih =>
    rename_i pre _
    cases hr : runWatchdog ins pre with
    | mk result post =>
      cases result with
      | none =>
        have hn : (runWatchdog ins pre).1 = none := by rw [hr]
        have hs := runWatchdog_none hn
        rw [hr] at hs
        exact hs ▸ ih
      | some report =>
        obtain ⟨_, _, _, _, append, -, -, rfl⟩ := runWatchdog_spec hr
        cases append with
        | none => exact ih
        | some append =>
          refine ih.concat (appendControl_controls ih hlater append) ?_
          intro actorId time codes st hid
          cases hid
          rfl
  | other _ ev _ hnamed hc ih => exact ih.concat hc hnamed
  | elsewhere _ hc ih =>
    intro ev he
    exact ih ev (hc ▸ he)

omit [HexOrder] [DecimalFormat] in
theorem requestedAppend_spec (current : RuntimeControl) (report : HealthReport)
    {requested : RuntimeControlState} (hr : requested ≠ .running) :
    match requestedAppend current report requested with
    | some append => append.state = requested
    | none => requested.priority ≤ current.state.priority := by
  unfold requestedAppend
  by_cases ha : (requested = .reduceAll ∧ current.state ≠ .reduceAll) ∨
      (requested = .pausedNewEntries ∧ current.state = .running)
  · rw [if_pos ha]
  · rw [if_neg ha]
    cases requested with
    | running => exact absurd rfl hr
    | pausedNewEntries =>
      cases hs : current.state <;> simp [hs, RuntimeControlState.priority] at ha ⊢
    | reduceAll =>
      cases hs : current.state <;> simp [hs, RuntimeControlState.priority] at ha ⊢

/-- The watchdog fails closed, and it releases only pauses of its own or of the risk
engine. -/
theorem watchdog_fail_closed (hrun : WatchdogRun log)
    (hlater : ∀ ev ∈ log.controls, ev.occurredAt < ins .clock) {report : HealthReport}
    {post : EventLog} (hreport : runWatchdog ins log = (some report, post)) :
    (report.HasCritical → post.latestRuntimeControl.state ≠ .running) ∧
      (∀ control, report.requestedControl = some control →
        control.priority ≤ post.latestRuntimeControl.state.priority) ∧
      ∀ ev ∈ post.controls, ev ∉ log.controls → ev.state = .running →
        log.latestRuntimeControl.state = .pausedNewEntries ∧
          (log.latestRuntimeControl.actorId = "deterministic-watchdog" ∨
            log.latestRuntimeControl.actorId = "account-risk-engine") ∧
          report.requestedControl = none ∧ ¬ report.HasCritical := by
  obtain ⟨facts, acct, exchange, host, append, hm, ha, rfl⟩ := runWatchdog_spec hreport
  have hna := hrun.wellNamed
  have hcl : report.HasCritical → report.requestedControl ≠ none :=
    hm ▸ evaluateHealth_fail_closed
  have hn : report.requestedControl ≠ some .running := hm ▸ evaluateHealth_ne_running
  -- the requested control is in force afterwards
  have hf : ∀ control, report.requestedControl = some control → control.priority ≤
      (log.appendControl? append (ins .clock)).latestRuntimeControl.state.priority := by
    intro control hc
    have hco : control ≠ .running := by
      rintro rfl
      exact hn hc
    cases ha with
    | requested hrequested =>
      rw [hrequested, Option.some.injEq] at hc
      subst hc
      have hsp := requestedAppend_spec log.latestRuntimeControl report hco
      split at hsp
      · rename_i append happend
        rw [happend, latest_appendControl hna hlater, hsp]
      · rename_i hkept
        rw [hkept]
        exact hsp
    | resumed hno _ _ => exact nomatch hno.symm.trans hc
    | kept hno => exact nomatch hno.symm.trans hc
  refine ⟨?_, hf, ?_⟩
  · intro hcr hru
    obtain ⟨control, hc⟩ := Option.ne_none_iff_exists'.mp (hcl hcr)
    have hle := hf control hc
    rw [hru] at hle
    cases control with
    | running => exact hn hc
    | pausedNewEntries => cases hle
    | reduceAll => cases hle
  · intro ev he hnew hs
    cases append with
    | none => exact absurd he hnew
    | some append =>
      rw [appendControl_controls hna hlater, List.mem_append, List.mem_singleton] at he
      have he := he.resolve_left hnew
      generalize hso : some append = appended at ha
      cases ha with
      | requested hrequested =>
        rename_i requested
        have hr : requested ≠ .running := by
          rintro rfl
          exact hn hrequested
        have hsp := requestedAppend_spec log.latestRuntimeControl report hr
        rw [← hso] at hsp
        subst he
        exact absurd (hsp.symm.trans hs) hr
      | resumed hno hp hac =>
        exact ⟨hp, hac, hno, fun hcr => hcl hcr hno⟩
      | kept hno => cases hso

end Turns

section Paused

local instance watchdogHexOrder : HexOrder := ⟨fun _ => 0⟩

local instance plainDecimalFormat : DecimalFormat := ⟨fun value => toString value.num⟩

def noPositions : ExchangePositions := ⟨[], List.nodup_nil⟩

/-- The facts of a quiet system with one submission that stays uncertain. -/
def uncertainFacts : DatabaseHealthFacts where
  activeLeaders := 3
  assignedSlots := 3
  stalePollSeconds := some 5
  latestPollFailures := 0
  historyGapFailures := 0
  uncertainSignals := 1
  failedSignalsLastHour := 0
  overduePendingEntries := 0
  overdueSlotReplacements := 0
  deadNotifications := 0
  pendingNotifications := 0
  oldestPendingNotificationSeconds := none
  shortSelectionAgeHours := some 1
  longSelectionAgeHours := some 1
  latestCodexAuditAgeHours := some 1
  latestCodexAuditState := some "HEALTHY"
  controlState := .running
  virtualPositions := noPositions
  pendingEntryAllowances := noPositions
  repeatedMinimumRejections := 0

def soundAccount (observedAt : Time) : CopyAccountSnapshot :=
  ⟨observedAt, true, true, 150, 150, 0⟩

def soundHost : HostHealthFacts where
  serviceStates _ := some "active"
  rootFreeBytes := 100 * gibibyte
  rootFreePercent := 50
  memoryAvailableBytes := gibibyte
  backupAgeHours := some 1
  userStreamUnit := none
  rootFreePercent_bounds := by norm_num
  backupAgeHours_nonneg := by simp

def operatorRuns (occurredAt : Time) : RuntimeControlEvent where
  controlEventId := .external "run"
  state := .running
  actorId := "telegram:1"
  reasonCodes := ["TELEGRAM_RESUME"]
  occurredAt := occurredAt

def runningLog : EventLog := { controls := [operatorRuns 1] }

/-- The answers of a run at `10` that finds the uncertain submission. -/
def uncertainInputs : (query : WatchdogQuery) → query.Reply
  | .clock => (10 : ℤ)
  | .facts => uncertainFacts
  | .account observedAt => .ok (soundAccount observedAt, noPositions)
  | .host => soundHost

theorem watchdogRun_runningLog : WatchdogRun runningLog := by
  refine .other (show WatchdogRun {} from .start rfl) (operatorRuns 1) (by simp) ?_ rfl
  intro actorId time codes st hid
  cases hid

theorem watchdog_pauses_uncertain : ∃ report post,
    runWatchdog uncertainInputs runningLog = (some report, post) ∧ report.HasCritical ∧
      post.latestRuntimeControl.state ≠ .running := by
  have hso : ((runWatchdog uncertainInputs runningLog).1.any fun report =>
      report.findings.any (·.severity = .critical)) = true := by with_unfolding_all decide
  obtain ⟨report, hr, ha⟩ := Option.any_eq_true _ _ |>.mp hso
  obtain ⟨finding, hf, hs⟩ := List.any_eq_true.mp ha
  have hc : report.HasCritical := ⟨finding, hf, of_decide_eq_true hs⟩
  have hrun : runWatchdog uncertainInputs runningLog =
      (some report, (runWatchdog uncertainInputs runningLog).2) := Prod.ext hr rfl
  refine ⟨report, _, hrun, hc, ?_⟩
  exact (watchdog_fail_closed watchdogRun_runningLog (by decide) hrun).1 hc

end Paused
end AiQuant.CopyTrading
