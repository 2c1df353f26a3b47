import AiQuant.CopyTrading.ControlRun
import AiQuant.Lib.Interleave

/-! The end of `run_cycle`: a `REDUCE_ALL` whose positions, orders and signals are gone is
completed by a further control event.  The cycle reads the control first and appends
last, and other writers append control events meanwhile. -/
namespace AiQuant.CopyTrading
open AiQuant.Lib

structure AccountPositionMark where
  symbol : String
  positionSide : PositionSide
  exchangeQuantity : Decimal
  markPrice : Decimal

/-- What the end of the cycle asks the exchange and the clock. -/
inductive FlattenQuery where
  | accountPositionMarks
  | allOpenOrders
  | clock

/-- The answers: the account's positions as `_account_position_marks` reads them, and the
client order ids of the open orders. -/
abbrev FlattenQuery.Reply : FlattenQuery → Type
  | .accountPositionMarks => Except ReadFailure (List AccountPositionMark)
  | .allOpenOrders => Except ProbeError (List (Option JsonText))
  | .clock => Time

abbrev Flatten := Proc EventLog FlattenQuery FlattenQuery.Reply

def isOwnOrder (clientOrderId : Option JsonText) : Bool :=
  match clientOrderId with
  | some (.text value) => value.startsWith "aqc-" || value.startsWith "aqg-"
  | _ => false

def exchangeFlattenConfirmed : Flatten Bool := do
  match ← Proc.question FlattenQuery.accountPositionMarks with
  | .error _ => Proc.halt
  | .ok marks =>
    if marks.isEmpty then
      match ← Proc.question FlattenQuery.allOpenOrders with
      | .error _ => Proc.halt
      | .ok orders => pure (!orders.any isOwnOrder)
    else pure false

def flattenCompletion (control : RuntimeControl) : RuntimeControlState × String :=
  if control.operatorFlattens then (.running, "COPY_OPERATOR_FLATTEN_COMPLETED_AUTO_RESUME")
  else (.pausedNewEntries, "COPY_SAFETY_FLATTEN_COMPLETED_REMAINS_PAUSED")

section Completion

variable [HexOrder]

/-- The end of `run_cycle`, from its second read of the control on. -/
def completeFlatten (settings : RuntimeSettings) : Flatten Unit := do
  let finalControl ← Proc.read (·.latestRuntimeControl)
  if settings.mode.executionEnabled && finalControl.state = .reduceAll then
    let ledger ← Proc.read (·.loadVirtualLedger)
    if ledger.positions.all (·.localQuantity = 0) then
      let recovered ← Proc.read (·.recoverableSignals 1)
      if recovered.isEmpty then
        let confirmed ← exchangeFlattenConfirmed
        if confirmed then
          let now ← Proc.question FlattenQuery.clock
          Proc.write (·.appendRuntimeControl (flattenCompletion finalControl).1 "copy-executor"
            [(flattenCompletion finalControl).2] now)
        else pure ()
      else pure ()
    else pure ()
  else pure ()

/-- The row that `latest_runtime_control` reads. -/
def EventLog.newestControl (log : EventLog) : Option RuntimeControlEvent :=
  newest (·.occurredAt) (fun event => HexOrder.value event.controlEventId) log.controls

/-- The order in which `latest_runtime_control` prefers control events. -/
def RuntimeControlEvent.newerThan (event other : RuntimeControlEvent) : Prop :=
  Newer (·.occurredAt) (fun event : RuntimeControlEvent => HexOrder.value event.controlEventId)
    event other

/-- What the other writers do: they append control events, and anything to the other
tables. -/
def AppendsControls (before after : EventLog) : Prop :=
  ∃ added, after.controls = before.controls ++ added

/-- The cycle's own transactions, of which the first reads the control, appended
`event`. -/
structure Completes (own : List (EventLog × EventLog)) (first before after : EventLog)
    (event : RuntimeControlEvent) : Prop where
  first : own.head? = some (first, first)
  step : (before, after) ∈ own
  appended : after.controls = before.controls ++ [event]

/-- A completion becomes the latest control only in the place of the `REDUCE_ALL` that
the cycle read, and never in the place of an event appended since. -/
structure NoLostControl (own : List (EventLog × EventLog)) : Prop where
  replaces : ∀ first before after event, Completes own first before after event →
    after.newestControl = some event →
      before.newestControl = first.newestControl ∧ before.latestRuntimeControl.state = .reduceAll
  keeps : ∀ first before after event, Completes own first before after event →
    ∀ other, before.newestControl = some other → other ∉ first.controls →
      after.newestControl ≠ some event

/-- Of the control events that others append between the read and the completion, none
is newer than the one read, or one is not older than the completion. -/
def Undisturbed (own : List (EventLog × EventLog)) : Prop :=
  ∀ first before after event, Completes own first before after event →
    ∀ added control, before.controls = first.controls ++ added →
      first.newestControl = some control →
      (∀ other ∈ added, ¬ other.newerThan control) ∨ ∃ other ∈ added, ¬ event.newerThan other

section Run

variable {cfg : RuntimeSettings} {start final : EventLog} {own : List (EventLog × EventLog)}

omit [HexOrder] in
theorem AppendsControls.trans_moves {pre post : EventLog}
    (hm : Relation.ReflTransGen AppendsControls pre post) : AppendsControls pre post := by
  induction hm with
  | refl => exact ⟨[], (List.append_nil _).symm⟩
  | tail _ hstep ih =>
    obtain ⟨earlier, he⟩ := ih
    obtain ⟨later, hl⟩ := hstep
    exact ⟨earlier ++ later, by rw [hl, he, List.append_assoc]⟩

omit [HexOrder] in
theorem exchangeFlattenConfirmed_asking :
    exchangeFlattenConfirmed.Within (fun _ => True) fun _ _ => False := by
  unfold exchangeFlattenConfirmed
  refine Proc.within_bind (Proc.within_question.mpr trivial) ?_
  intro reply
  cases reply with
  | error failure => exact Proc.within_halt
  | ok marks =>
    dsimp only
    split
    · refine Proc.within_bind (Proc.within_question.mpr trivial) ?_
      intro reply
      cases reply with
      | error failure => exact Proc.within_halt
      | ok orders => exact Proc.within_pure
    · exact Proc.within_pure

omit [HexOrder] in
theorem appendRuntimeControl_controls (log : EventLog) (st : RuntimeControlState)
    (actorId : String) (codes : List String) (time : Time) :
    (log.appendRuntimeControl st actorId codes time).controls = log.controls ∨
      ∃ ev, ev ∉ log.controls ∧
        (log.appendRuntimeControl st actorId codes time).controls = log.controls ++ [ev] := by
  dsimp only [EventLog.appendRuntimeControl]
  split
  · exact Or.inl rfl
  · rename_i hnew
    refine Or.inr ⟨_, ?_, rfl⟩
    intro hm
    exact hnew (List.any_eq_true.mpr ⟨_, hm, decide_eq_true rfl⟩)

theorem completeFlatten_own
    (hrun : Proc.Interleaves AppendsControls start (completeFlatten cfg) own final) :
    own = [] ∨ ∃ first later, own = (first, first) :: later ∧ ∀ step ∈ later,
      step.2 = step.1 ∨ (first.latestRuntimeControl.state = .reduceAll ∧
        AppendsControls first step.1 ∧ ∃ st actorId codes time,
          step.2 = step.1.appendRuntimeControl st actorId codes time) := by
  rcases Proc.Interleaves.of_read_bind hrun with hn | ⟨first, later, -, ho, hrest⟩
  · exact Or.inl hn
  refine Or.inr ⟨first, later, ho, ?_⟩
  split at hrest
  swap
  · rw [Proc.Interleaves.of_done hrest]
    simp
  rename_i hguard
  have hre : first.latestRuntimeControl.state = .reduceAll := by
    simp only [Bool.and_eq_true, decide_eq_true_eq] at hguard
    exact hguard.2
  rcases Proc.Interleaves.of_read_bind hrest with rfl | ⟨second, later, hs, rfl, hl⟩
  · simp
  split at hl
  swap
  · rw [Proc.Interleaves.of_done hl]
    simp
  rcases Proc.Interleaves.of_read_bind hl with rfl | ⟨third, later, ht, rfl, hr⟩
  · simp
  split at hr
  swap
  · rw [Proc.Interleaves.of_done hr]
    simp
  rcases Proc.Interleaves.of_asking_bind exchangeFlattenConfirmed_asking hr with
    rfl | ⟨fourth, confirmed, hf, hc⟩
  · simp
  split at hc
  swap
  · rw [Proc.Interleaves.of_done hc]
    simp
  rcases Proc.Interleaves.of_question_bind hc with rfl | ⟨fifth, now, hfi, hw⟩
  · simp
  rcases Proc.Interleaves.of_write hw with rfl | ⟨last, hla, rfl⟩
  · simp
  have hm := (((hs.trans ht).trans hf).trans hfi).trans hla
  intro step hst
  simp only [List.mem_cons, List.not_mem_nil, or_false] at hst
  rcases hst with rfl | rfl | rfl
  · exact Or.inl rfl
  · exact Or.inl rfl
  · exact Or.inr ⟨hre, AppendsControls.trans_moves hm, _, _, _, _, rfl⟩

theorem Completes.spec {first pre post : EventLog} {ev : RuntimeControlEvent}
    (hrun : Proc.Interleaves AppendsControls start (completeFlatten cfg) own final)
    (hc : Completes own first pre post ev) :
    first.latestRuntimeControl.state = .reduceAll ∧ AppendsControls first pre ∧
      ev ∉ pre.controls := by
  rcases completeFlatten_own hrun with rfl | ⟨read, later, rfl, hl⟩
  · cases hc.first
  have hfi : read = first := congrArg Prod.fst (Option.some.inj hc.first)
  subst hfi
  have hg : post ≠ pre := by
    rintro rfl
    simpa using hc.appended
  have hst := hc.step
  rw [List.mem_cons] at hst
  rcases hst with hs | hst
  · rw [Prod.mk.injEq] at hs
    exact absurd (hs.2.trans hs.1.symm) hg
  rcases hl _ hst with hs | ⟨hr, had, st, actorId, codes, time, haf⟩
  · exact absurd hs hg
  refine ⟨hr, had, ?_⟩
  have ha := hc.appended
  dsimp only at haf
  rw [haf] at ha
  rcases appendRuntimeControl_controls pre st actorId codes time with
    hs | ⟨found, hfr, hf⟩
  · rw [hs] at ha
    simp at ha
  · rw [hf] at ha
    have he := List.append_cancel_left ha
    rw [List.cons.injEq] at he
    exact he.1 ▸ hfr

theorem exists_newestControl {log : EventLog} (hr : log.latestRuntimeControl.state = .reduceAll) :
    ∃ control, log.newestControl = some control ∧ control.state = .reduceAll := by
  unfold EventLog.latestRuntimeControl at hr
  unfold EventLog.newestControl
  split at hr
  · cases hr
  · rename_i control hc
    exact ⟨control, hc, hr⟩

theorem latestRuntimeControl_congr {log other : EventLog}
    (hs : log.newestControl = other.newestControl) :
    log.latestRuntimeControl = other.latestRuntimeControl := by
  unfold EventLog.newestControl at hs
  unfold EventLog.latestRuntimeControl
  rw [hs]

theorem concat_replaces_iff {first pre post : EventLog} {ev control : RuntimeControlEvent}
    {added : List RuntimeControlEvent} (ha : pre.controls = first.controls ++ added)
    (hc : first.newestControl = some control)
    (hap : post.controls = pre.controls ++ [ev]) (hf : ev ∉ pre.controls) :
    (post.newestControl = some ev → pre.newestControl = first.newestControl) ↔
      (∀ other ∈ added, ¬ other.newerThan control) ∨ ∃ other ∈ added, ¬ ev.newerThan other := by
  constructor
  · intro hr
    by_contra hdisturbed
    rw [not_or] at hdisturbed
    obtain ⟨hn, hall⟩ := hdisturbed
    simp only [not_forall, not_not, not_exists, not_and] at hn hall
    obtain ⟨other, hot, ho⟩ := hn
    -- the event is newer than everything that was there
    have hl : post.newestControl = some ev := by
      unfold EventLog.newestControl
      rw [hap]
      apply newest_concat_of_newer
      intro old hold
      rw [ha, List.mem_append] at hold
      rcases hold with hold | hold
      · have he : ev.newerThan control :=
          Newer.trans _ _ (hall other hot) ho
        exact Newer.of_not_newer _ _ he (not_newer_of_newest _ _ hc hold)
      · exact hall old hold
    have hs := hr hl
    rw [hc] at hs
    have hm : other ∈ pre.controls := by
      rw [ha]
      exact List.mem_append_right _ hot
    exact not_newer_of_newest _ _ hs hm ho
  · rintro (hno | ⟨other, hot, hnot⟩) hl
    · rw [hc]
      unfold EventLog.newestControl
      rw [ha]
      exact newest_append_of_not_newer _ _ hc hno
    · unfold EventLog.newestControl at hl
      rw [hap] at hl
      refine absurd (newer_of_newest_concat _ _ hf hl other ?_) hnot
      rw [ha]
      exact List.mem_append_right _ hot

/-- A completion loses no control event exactly where the cycle was undisturbed. -/
theorem noLostControl_iff_undisturbed
    (hrun : Proc.Interleaves AppendsControls start (completeFlatten cfg) own final) :
    NoLostControl own ↔ Undisturbed own := by
  constructor
  · intro hk first pre post ev hc added control ha hco
    obtain ⟨-, -, hf⟩ := hc.spec hrun
    refine (concat_replaces_iff ha hco hc.appended hf).mp ?_
    exact fun hl => (hk.replaces first pre post ev hc hl).1
  · intro hu
    have hre : ∀ first pre post ev, Completes own first pre post ev →
        post.newestControl = some ev → pre.newestControl = first.newestControl ∧
          pre.latestRuntimeControl.state = .reduceAll := by
      intro first pre post ev hc hl
      obtain ⟨hr, ⟨added, ha⟩, hf⟩ := hc.spec hrun
      obtain ⟨control, hco, -⟩ := exists_newestControl hr
      have hs := (concat_replaces_iff ha hco hc.appended hf).mpr
        (hu first pre post ev hc added control ha hco) hl
      exact ⟨hs, latestRuntimeControl_congr hs ▸ hr⟩
    refine ⟨hre, ?_⟩
    intro first pre post ev hc other ho hab hl
    have hs := (hre first pre post ev hc hl).1
    rw [ho] at hs
    exact hab (newest_mem _ _ hs.symm)

theorem completeFlatten_completes {first second third last : EventLog}
    (he : cfg.mode.executionEnabled = true) (hre : first.latestRuntimeControl.state = .reduceAll)
    (hs : Relation.ReflTransGen AppendsControls first second)
    (hf : second.loadVirtualLedger.positions.all (·.localQuantity = 0) = true)
    (ht : Relation.ReflTransGen AppendsControls second third)
    (hr : (third.recoverableSignals 1).isEmpty = true)
    (hl : Relation.ReflTransGen AppendsControls third last) (now : Time) :
    Proc.Interleaves AppendsControls first (completeFlatten cfg)
      [(first, first), (second, second), (third, third), (last, last.appendRuntimeControl
        (flattenCompletion first.latestRuntimeControl).1 "copy-executor"
        [(flattenCompletion first.latestRuntimeControl).2] now)]
      (last.appendRuntimeControl (flattenCompletion first.latestRuntimeControl).1 "copy-executor"
        [(flattenCompletion first.latestRuntimeControl).2] now) := by
  refine Proc.Interleaves.read_bind ?_
  rw [if_pos (by simp [he, hre])]
  refine Proc.Interleaves.moves hs (Proc.Interleaves.read_bind ?_)
  rw [if_pos hf]
  refine Proc.Interleaves.moves ht (Proc.Interleaves.read_bind ?_)
  rw [if_pos hr]
  -- no position and no order is reported
  refine Proc.Interleaves.ask (.ok []) (Proc.Interleaves.ask (.ok []) ?_)
  refine Proc.Interleaves.ask now (Proc.Interleaves.moves hl ?_)
  exact .atomic .here

end Run

end Completion

section OperatorPause

local instance completionHexOrder : HexOrder := ⟨fun _ => 0⟩

def flatAsked : EventLog :=
  ({} : EventLog).appendRuntimeControl .reduceAll "telegram:1" ["TELEGRAM_REDUCE_ALL"] newYear

def operatorPause (occurredAt : Time) : RuntimeControlEvent where
  controlEventId := .external "pause"
  state := .pausedNewEntries
  actorId := "telegram:1"
  reasonCodes := ["TELEGRAM_PAUSE"]
  occurredAt := occurredAt

def pausedAt (occurredAt : Time) : EventLog :=
  { flatAsked with controls := flatAsked.controls ++ [operatorPause occurredAt] }

/-- The cycle completes the flatten at `now`, after the pause was appended. -/
def pausedCompleted (occurredAt now : Time) : EventLog :=
  (pausedAt occurredAt).appendRuntimeControl
    (flattenCompletion flatAsked.latestRuntimeControl).1 "copy-executor"
    [(flattenCompletion flatAsked.latestRuntimeControl).2] now

theorem interleaves_pausedCompleted (time now : Time) :
    Proc.Interleaves AppendsControls flatAsked (completeFlatten {})
      [(flatAsked, flatAsked), (flatAsked, flatAsked), (flatAsked, flatAsked),
        (pausedAt time, pausedCompleted time now)] (pausedCompleted time now) :=
  completeFlatten_completes rfl (by decide) .refl (by decide) .refl
    (by decide) (.single ⟨[operatorPause time], rfl⟩) now

def completionAt (now : Time) : RuntimeControlEvent where
  controlEventId := .runtimeControl "copy-executor" now
    ["COPY_OPERATOR_FLATTEN_COMPLETED_AUTO_RESUME"] .running
  state := .running
  actorId := "copy-executor"
  reasonCodes := ["COPY_OPERATOR_FLATTEN_COMPLETED_AUTO_RESUME"]
  occurredAt := now

theorem later_pause_kept : (pausedCompleted (newYear + 2000000) (newYear + 1000000)).newestControl =
      some (operatorPause (newYear + 2000000)) ∧
    NoLostControl [(flatAsked, flatAsked), (flatAsked, flatAsked), (flatAsked, flatAsked),
      (pausedAt (newYear + 2000000), pausedCompleted (newYear + 2000000) (newYear + 1000000))] := by
  refine ⟨by decide, ?_⟩
  refine (noLostControl_iff_undisturbed (interleaves_pausedCompleted _ _)).mpr ?_
  intro first pre post ev hc added control had hcon
  have hf : flatAsked = first := congrArg Prod.fst (Option.some.inj hc.first)
  subst hf
  have ha := hc.appended
  have hs := hc.step
  simp only [List.mem_cons, Prod.mk.injEq, List.not_mem_nil, or_false] at hs
  rcases hs with ⟨rfl, rfl⟩ | ⟨rfl, rfl⟩ | ⟨rfl, rfl⟩ | ⟨rfl, rfl⟩
  · simp at ha
  · simp at ha
  · simp at ha
  · have hco : (pausedCompleted (newYear + 2000000) (newYear + 1000000)).controls =
        (pausedAt (newYear + 2000000)).controls ++ [completionAt (newYear + 1000000)] := by
      with_unfolding_all decide
    rw [hco] at ha
    cases List.append_cancel_left ha
    cases List.append_cancel_left had
    exact Or.inr ⟨operatorPause (newYear + 2000000), by simp, (by decide : ¬ Newer (·.occurredAt)
        (fun ev : RuntimeControlEvent => HexOrder.value ev.controlEventId)
        (completionAt (newYear + 1000000)) (operatorPause (newYear + 2000000)))⟩

/-- A pause between the read and the clock reading is overridden: the runtime resumes. -/
theorem earlier_pause_overridden : ¬ ∀ [HexOrder] (cfg : RuntimeSettings) (start final : EventLog)
      (own : List (EventLog × EventLog)),
      Proc.Interleaves AppendsControls start (completeFlatten cfg) own final →
      NoLostControl own := by
  intro hcl
  have hk := hcl _ _ _ _ (interleaves_pausedCompleted (newYear + 1000000) (newYear + 2000000))
  have hc : Completes [(flatAsked, flatAsked), (flatAsked, flatAsked),
      (flatAsked, flatAsked), (pausedAt (newYear + 1000000),
        pausedCompleted (newYear + 1000000) (newYear + 2000000))] flatAsked
      (pausedAt (newYear + 1000000)) (pausedCompleted (newYear + 1000000) (newYear + 2000000))
      (completionAt (newYear + 2000000)) := ⟨rfl, by simp, by with_unfolding_all decide⟩
  exact hk.keeps _ _ _ _ hc (operatorPause (newYear + 1000000)) (by decide)
    (by with_unfolding_all decide) (by with_unfolding_all decide)

end OperatorPause

end AiQuant.CopyTrading
