import AiQuant.Lib.Returns
import AiQuant.Lib.UtcDateTime

/-! `AuthorityController` (`orchestration/authority.py`): decision epochs, and who decides.  Only
the epoch that was acquired last is remembered. -/
namespace AiQuant.Orchestration
open AiQuant.Lib

inductive DecisionAuthority where
  | codexPrimary | ruleFallback | none
deriving DecidableEq

inductive CodexState where
  | healthy | cooldown | dryRunRecovery | unavailable

/-- How `acquire_epoch` raises. -/
inductive EpochError where
  | notUtc
  | alreadyAcquired

def EpochError.text : EpochError → String
  | notUtc => "schedule must use UTC"
  | alreadyAcquired => "DECISION_EPOCH_ALREADY_ACQUIRED"

structure AuthorityController where
  authority : DecisionAuthority
  codexState : CodexState
  successfulRecoveryDryRuns : ℕ
  activeEpoch : Option (List Char)

/-- The arguments of `record_ai_cycle`. -/
structure AiCycle where
  valid : Bool
  quotaAvailable : Bool
  toolAvailable : Bool

def AiCycle.good (cycle : AiCycle) : Bool :=
  cycle.valid && cycle.quotaAvailable && cycle.toolAvailable

theorem first_second : (0 : ℕ) < 60 := by decide

theorem first_microsecond : (0 : ℕ) < 1000000 := by decide

/-- `scheduled_at.replace(second=0, microsecond=0)` -/
def wholeMinute (moment : UtcDateTime) : UtcDateTime :=
  { moment with second := 0, microsecond := 0, second_lt := first_second,
                microsecond_lt := first_microsecond }

namespace AuthorityController

def new : AuthorityController where
  authority := .codexPrimary
  codexState := .healthy
  successfulRecoveryDryRuns := 0
  activeEpoch := none

/-- `scheduledAt` is `none` for a `datetime` without the offset of UTC. -/
def acquireEpoch (controller : AuthorityController) (scheduledAt : Option UtcDateTime) :
    Except EpochError (List Char) × AuthorityController :=
  match scheduledAt with
  | none => (.error .notUtc, controller)
  | some moment =>
    let epoch := (wholeMinute moment).isoformat
    if controller.activeEpoch = some epoch then (.error .alreadyAcquired, controller)
    else (.ok epoch, { controller with activeEpoch := some epoch })

def recordAiCycle (controller : AuthorityController) (cycle : AiCycle) : AuthorityController :=
  if cycle.valid && cycle.quotaAvailable && cycle.toolAvailable then
    if controller.authority = .ruleFallback then
      let dryRuns := controller.successfulRecoveryDryRuns + 1
      if 3 ≤ dryRuns then
        { controller with
          authority := .codexPrimary, codexState := .healthy, successfulRecoveryDryRuns := 0 }
      else
        { controller with codexState := .dryRunRecovery, successfulRecoveryDryRuns := dryRuns }
    else { controller with codexState := .healthy }
  else
    { controller with
      authority := .ruleFallback
      codexState := if cycle.quotaAvailable then .cooldown else .unavailable
      successfulRecoveryDryRuns := 0 }

end AuthorityController

inductive AuthorityCall where
  | acquireEpoch (scheduledAt : Option UtcDateTime)
  | recordAiCycle (cycle : AiCycle)

namespace AuthorityController

variable {controller : AuthorityController}

def step (controller : AuthorityController) : AuthorityCall → AuthorityController
  | .acquireEpoch scheduledAt => (controller.acquireEpoch scheduledAt).2
  | .recordAiCycle cycle => controller.recordAiCycle cycle

def run (controller : AuthorityController) (calls : List AuthorityCall) : AuthorityController :=
  calls.foldl step controller

def grantedBy (controller : AuthorityController) : AuthorityCall → List (List Char)
  | .acquireEpoch scheduledAt =>
    match (controller.acquireEpoch scheduledAt).1 with
    | .ok epoch => [epoch]
    | .error _ => []
  | .recordAiCycle _ => []

def granted : AuthorityController → List AuthorityCall → List (List Char)
  | _, [] => []
  | controller, call :: rest => controller.grantedBy call ++ granted (controller.step call) rest

end AuthorityController

def AuthorityCall.minute? : AuthorityCall → Option UtcDateTime
  | .acquireEpoch scheduledAt => scheduledAt.map wholeMinute
  | .recordAiCycle _ => none

def AuthorityCall.cycle? : AuthorityCall → Option AiCycle
  | .acquireEpoch _ => none
  | .recordAiCycle cycle => some cycle

/-- No epoch is returned twice. -/
def GrantedOnce (calls : List AuthorityCall) : Prop :=
  (AuthorityController.new.granted calls).Nodup

/-- Whenever the authority goes back to Codex, the last cycles are a failure and three good ones
after it. -/
def RecoversAfterThree (calls : List AuthorityCall) : Prop :=
  ∀ earlier call later, calls = earlier ++ call :: later →
    (AuthorityController.new.run earlier).authority = .ruleFallback →
    (AuthorityController.new.run (earlier ++ [call])).authority = .codexPrimary →
    ∃ before failure first second third,
      (earlier ++ [call]).filterMap AuthorityCall.cycle? =
        before ++ [failure, first, second, third] ∧
      failure.good = false ∧ first.good = true ∧ second.good = true ∧ third.good = true

namespace AuthorityController

variable {controller : AuthorityController}

theorem recordAiCycle_activeEpoch (controller : AuthorityController) (cycle : AiCycle) :
    (controller.recordAiCycle cycle).activeEpoch = controller.activeEpoch := by
  rw [recordAiCycle]
  dsimp only
  split_ifs <;> rfl

theorem granted_eq_changes (calls : List AuthorityCall) (controller : AuthorityController) :
    controller.granted calls = changes controller.activeEpoch
      ((calls.filterMap AuthorityCall.minute?).map UtcDateTime.isoformat) := by
  induction calls generalizing controller with
  | nil => rfl
  | cons call rest ih =>
    rw [granted, ih]
    cases call with
    | recordAiCycle cycle =>
      show [] ++ changes (controller.recordAiCycle cycle).activeEpoch _ = _
      rw [recordAiCycle_activeEpoch]
      rfl
    | acquireEpoch scheduledAt =>
      cases scheduledAt with
      | none => rfl
      | some moment =>
        have hc : (AuthorityCall.acquireEpoch (some moment) :: rest).filterMap
            AuthorityCall.minute? = wholeMinute moment :: rest.filterMap AuthorityCall.minute? :=
          rfl
        rw [hc, List.map_cons, changes, grantedBy, step, acquireEpoch]
        by_cases hs : controller.activeEpoch = some (wholeMinute moment).isoformat
        · rw [if_pos hs, if_pos hs]
          rfl
        · rw [if_neg hs, if_neg hs]
          rfl

theorem granted_nodup_iff (calls : List AuthorityCall) :
    (new.granted calls).Nodup ↔ NoReturn (calls.filterMap AuthorityCall.minute?) := by
  have hc := granted_eq_changes calls new
  rw [hc]
  exact (nodup_changes_iff _).trans (noReturn_map fun _ _ ht => UtcDateTime.eq_of_isoformat ht)

variable {cycle : AiCycle}

theorem recordAiCycle_of_good (hg : cycle.good = true) (hf : controller.authority = .ruleFallback) :
    controller.recordAiCycle cycle =
      if 3 ≤ controller.successfulRecoveryDryRuns + 1 then
        { controller with
          authority := .codexPrimary, codexState := .healthy, successfulRecoveryDryRuns := 0 }
      else
        { controller with
          codexState := .dryRunRecovery
          successfulRecoveryDryRuns := controller.successfulRecoveryDryRuns + 1 } := by
  rw [recordAiCycle]
  exact (if_pos hg).trans (if_pos hf)

theorem recordAiCycle_of_bad (controller : AuthorityController) (hb : cycle.good = false) :
    (controller.recordAiCycle cycle).authority = .ruleFallback ∧
      (controller.recordAiCycle cycle).successfulRecoveryDryRuns = 0 := by
  have hn : ¬(cycle.valid && cycle.quotaAvailable && cycle.toolAvailable) = true := by
    rw [← AiCycle.good, hb]
    exact Bool.false_ne_true
  rw [recordAiCycle, if_neg hn]
  exact ⟨rfl, rfl⟩

theorem recordAiCycle_authority_of_primary (hg : cycle.good = true)
    (hp : controller.authority ≠ .ruleFallback) :
    (controller.recordAiCycle cycle).authority = controller.authority := by
  have hif : (cycle.valid && cycle.quotaAvailable && cycle.toolAvailable) = true := hg
  rw [recordAiCycle, if_pos hif, if_neg hp]

theorem acquireEpoch_authority (controller : AuthorityController)
    (scheduledAt : Option UtcDateTime) :
    (controller.acquireEpoch scheduledAt).2.authority = controller.authority ∧
      (controller.acquireEpoch scheduledAt).2.successfulRecoveryDryRuns =
        controller.successfulRecoveryDryRuns := by
  cases scheduledAt with
  | none => exact ⟨rfl, rfl⟩
  | some moment =>
    rw [acquireEpoch]
    split_ifs <;> exact ⟨rfl, rfl⟩

def CountsDryRuns (controller : AuthorityController) (cycles : List AiCycle) : Prop :=
  controller.authority = .ruleFallback →
    ∃ before failure goods, cycles = before ++ failure :: goods ∧ failure.good = false ∧
      (∀ cycle ∈ goods, cycle.good = true) ∧
      goods.length = controller.successfulRecoveryDryRuns ∧
      controller.successfulRecoveryDryRuns < 3

theorem countsDryRuns_recordAiCycle {cycles : List AiCycle}
    (hc : controller.CountsDryRuns cycles) (cycle : AiCycle) :
    (controller.recordAiCycle cycle).CountsDryRuns (cycles ++ [cycle]) := by
  intro hn
  cases hgo : cycle.good with
  | false =>
    obtain ⟨-, hz⟩ := recordAiCycle_of_bad controller hgo
    refine ⟨cycles, cycle, [], rfl, hgo, fun _ hm => absurd hm List.not_mem_nil, ?_, ?_⟩
    · rw [hz, List.length_nil]
    · rw [hz]
      exact Nat.zero_lt_succ 2
  | true =>
    by_cases hf : controller.authority = .ruleFallback
    · obtain ⟨pre, failure, goods, hcy, hb, hg, hl, -⟩ := hc hf
      rw [recordAiCycle_of_good hgo hf] at hn ⊢
      split at hn
      · cases hn
      · next hle =>
        rw [if_neg hle]
        refine ⟨pre, failure, goods ++ [cycle], ?_, hb, ?_, ?_, not_le.mp hle⟩
        · rw [hcy, List.append_assoc]
          rfl
        · intro other hm
          rcases List.mem_append.mp hm with ho | hla
          · exact hg other ho
          · rwa [List.mem_singleton.mp hla]
        · rw [List.length_append, hl]
          rfl
    · rw [recordAiCycle_authority_of_primary hgo hf] at hn
      exact absurd hn hf

theorem countsDryRuns_step {cycles : List AiCycle} (hc : controller.CountsDryRuns cycles)
    (call : AuthorityCall) :
    (controller.step call).CountsDryRuns (cycles ++ [call].filterMap AuthorityCall.cycle?) := by
  cases call with
  | recordAiCycle cycle => exact countsDryRuns_recordAiCycle hc cycle
  | acquireEpoch scheduledAt =>
    obtain ⟨ha, hr⟩ := acquireEpoch_authority controller scheduledAt
    show (controller.acquireEpoch scheduledAt).2.CountsDryRuns (cycles ++ [])
    rw [List.append_nil]
    intro hn
    rw [hr]
    exact hc (ha ▸ hn)

theorem run_append_singleton (controller : AuthorityController) (calls : List AuthorityCall)
    (call : AuthorityCall) : controller.run (calls ++ [call]) = (controller.run calls).step call :=
  List.foldl_append

theorem countsDryRuns_run (calls : List AuthorityCall) :
    (new.run calls).CountsDryRuns (calls.filterMap AuthorityCall.cycle?) := by
  induction calls using List.reverseRecOn with
  | nil =>
    intro hn
    cases hn
  | append_singleton calls call ih =>
    rw [run_append_singleton, List.filterMap_append]
    exact countsDryRuns_step ih call

theorem recovery_cycle {call : AuthorityCall} (hc : controller.successfulRecoveryDryRuns < 3)
    (hb : controller.authority = .ruleFallback)
    (ha : (controller.step call).authority = .codexPrimary) :
    ∃ cycle, call = .recordAiCycle cycle ∧ cycle.good = true ∧
      controller.successfulRecoveryDryRuns = 2 := by
  cases call with
  | acquireEpoch scheduledAt =>
    have hs := (acquireEpoch_authority controller scheduledAt).1
    have hba : controller.authority = .codexPrimary := hs.symm.trans ha
    rw [hb] at hba
    cases hba
  | recordAiCycle cycle =>
    refine ⟨cycle, rfl, ?_⟩
    change (controller.recordAiCycle cycle).authority = .codexPrimary at ha
    cases hg : cycle.good with
    | false =>
      rw [(recordAiCycle_of_bad controller hg).1] at ha
      cases ha
    | true =>
      rw [recordAiCycle_of_good hg hb] at ha
      split at ha
      · exact ⟨rfl, by omega⟩
      · change controller.authority = .codexPrimary at ha
        rw [hb] at ha
        cases ha

end AuthorityController

theorem recoversAfterThree (calls : List AuthorityCall) : RecoversAfterThree calls := by
  intro earlier call later _ hb ha
  obtain ⟨pre, failure, goods, hc, hbad, hg, hl, hle⟩ :=
    AuthorityController.countsDryRuns_run earlier hb
  rw [AuthorityController.run_append_singleton] at ha
  obtain ⟨cycle, rfl, hgo, ht⟩ := AuthorityController.recovery_cycle hle hb ha
  obtain ⟨first, second, rfl⟩ := List.length_eq_two.mp (hl.trans ht)
  refine ⟨pre, failure, first, second, cycle, ?_, hbad, hg first List.mem_cons_self,
    hg second (List.mem_cons_of_mem _ List.mem_cons_self), hgo⟩
  rw [List.filterMap_append, hc, List.append_assoc]
  rfl

/-- An epoch is returned once, and the authority goes back after three good cycles, just when no
minute is asked for again after another one. -/
theorem epochs_granted_once_iff (calls : List AuthorityCall) :
    GrantedOnce calls ∧ RecoversAfterThree calls ↔
      NoReturn (calls.filterMap AuthorityCall.minute?) :=
  (and_iff_left (recoversAfterThree calls)).trans (AuthorityController.granted_nodup_iff calls)

theorem year_2026 : (1 : ℕ) ≤ 2026 ∧ (2026 : ℕ) ≤ 9999 := by decide

theorem month_7 : (1 : ℕ) ≤ 7 ∧ (7 : ℕ) ≤ 12 := by decide

theorem day_11 : (1 : ℕ) ≤ 11 ∧ 11 ≤ daysInMonth 2026 7 := by decide

theorem hour_10 : (10 : ℕ) < 24 := by decide

theorem minute_20 : (20 : ℕ) < 60 := by decide

def morning (hour minute : ℕ) (hhour : hour < 24) (hminute : minute < 60) : UtcDateTime where
  year := 2026
  month := 7
  day := 11
  hour := hour
  minute := minute
  second := 0
  microsecond := 0
  year_mem := year_2026
  month_mem := month_7
  day_mem := day_11
  hour_lt := hhour
  minute_lt := hminute
  second_lt := first_second
  microsecond_lt := first_microsecond

def retriedSchedule : List AuthorityCall :=
  [.acquireEpoch (some (morning 10 0 hour_10 first_second)),
    .acquireEpoch (some (morning 10 20 hour_10 minute_20)),
    .acquireEpoch (some (morning 10 0 hour_10 first_second))]

theorem retried_epoch_granted_again :
    ¬(GrantedOnce retriedSchedule ∧ RecoversAfterThree retriedSchedule) := by
  intro hc
  have ht : ¬(AuthorityController.new.granted retriedSchedule).Nodup := by decide
  exact ht hc.1

end AiQuant.Orchestration
