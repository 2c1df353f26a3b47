import AiQuant.Lib.KeyedList
import Mathlib.Data.List.MinMax
import Mathlib.Data.Prod.Lex
import Mathlib.Data.String.Basic

/-! `IterationQueue` (`iteration/queue.py`): the oldest cycle first, one attempt at a time. -/
namespace AiQuant.Iteration
open AiQuant.Lib

inductive CycleState where
  | queued | running | deferredQuota | completed | failed
deriving DecidableEq

/-- Times are microseconds. -/
structure IterationCycle where
  cycleId : String
  scheduledFor : ℤ
  dataCutoffAt : ℤ
  championHash : String
  state : CycleState := .queued
  attemptCount : ℕ := 0
  retryAfter : Option ℤ := none
deriving DecidableEq

/-- How `enqueue` and `finish` raise. -/
inductive QueueError where
  | identityConflict
  | notRunning
  | keyError (cycleId : String)

def QueueError.text : QueueError → String
  | identityConflict => "cycle identity conflict"
  | notRunning => "cycle is not the running attempt"
  | keyError cycleId => "'" ++ cycleId ++ "'"

/-- `timedelta(days=1)` -/
def retryDelay : ℤ := 86400000000

/-- The time and the id that the oldest cycle is the least by. -/
def CycleKey := ℤ ×ₗ String

instance : LinearOrder CycleKey :=
  @Prod.Lex.instLinearOrder ℤ String Int.instLinearOrder inferInstance

namespace IterationCycle

variable (cycle : IterationCycle) (now : ℤ)

/-- The state is one that `claim` takes. -/
def Claimable : Prop := cycle.state = .queued ∨ cycle.state = .deferredQuota

instance : Decidable cycle.Claimable := inferInstanceAs (Decidable (_ ∨ _))

def Eligible : Prop :=
  cycle.Claimable ∧ cycle.scheduledFor ≤ now ∧ ∀ retry ∈ cycle.retryAfter, retry ≤ now

instance : Decidable (cycle.Eligible now) := inferInstanceAs (Decidable (_ ∧ _ ∧ _))

def sortKey : CycleKey := toLex (cycle.scheduledFor, cycle.cycleId)

def deferred : IterationCycle :=
  { cycle with state := .deferredQuota, retryAfter := some (now + retryDelay) }

def started : IterationCycle :=
  { cycle with state := .running, attemptCount := cycle.attemptCount + 1, retryAfter := none }

def finished (success : Bool) : IterationCycle :=
  { cycle with state := if success then .completed else .failed }

@[simp] theorem deferred_cycleId : (cycle.deferred now).cycleId = cycle.cycleId := rfl

@[simp] theorem started_cycleId : cycle.started.cycleId = cycle.cycleId := rfl

@[simp] theorem finished_cycleId (success : Bool) :
    (cycle.finished success).cycleId = cycle.cycleId := rfl

end IterationCycle

structure IterationQueue where
  cycles : KeyedList IterationCycle.cycleId
  running : Option String

namespace IterationQueue

def new : IterationQueue where
  cycles := .empty
  running := none

def enqueue (queue : IterationQueue) (cycle : IterationCycle) :
    Except QueueError IterationQueue :=
  match queue.cycles.lookup cycle.cycleId with
  | some existing =>
    if existing ≠ cycle then .error .identityConflict
    else .ok { queue with cycles := queue.cycles.setDefault cycle }
  | none => .ok { queue with cycles := queue.cycles.setDefault cycle }

def claim (queue : IterationQueue) (now : ℤ) (quotaAvailable : Bool) :
    Option IterationCycle × IterationQueue :=
  if queue.running.isSome then (none, queue)
  else
    let eligible := queue.cycles.items.filter fun cycle => cycle.Eligible now
    match eligible.argmin IterationCycle.sortKey with
    | none => (none, queue)
    | some cycle =>
      if !quotaAvailable then
        (some (cycle.deferred now),
          { queue with cycles := queue.cycles.replace (cycle.deferred now) })
      else
        (some cycle.started,
          { cycles := queue.cycles.replace cycle.started, running := some cycle.cycleId })

def finish (queue : IterationQueue) (cycleId : String) (success : Bool) :
    Except QueueError (IterationCycle × IterationQueue) :=
  if queue.running ≠ some cycleId then .error .notRunning
  else match queue.cycles.lookup cycleId with
    | none => .error (.keyError cycleId)
    | some cycle =>
      .ok (cycle.finished success,
        { cycles := queue.cycles.replace (cycle.finished success), running := none })

end IterationQueue

inductive QueueCall where
  | enqueue (cycle : IterationCycle)
  | claim (now : ℤ) (quotaAvailable : Bool)
  | finish (cycleId : String) (success : Bool)

def QueueCall.cycle? : QueueCall → Option IterationCycle
  | enqueue cycle => some cycle
  | _ => none

namespace IterationQueue

def perform (queue : IterationQueue) : QueueCall → IterationQueue
  | .enqueue cycle =>
    match queue.enqueue cycle with
    | .ok after => after
    | .error _ => queue
  | .claim now quotaAvailable => (queue.claim now quotaAvailable).2
  | .finish cycleId success =>
    match queue.finish cycleId success with
    | .ok (_, after) => after
    | .error _ => queue

def claimed (queue : IterationQueue) : QueueCall → Option IterationCycle
  | .claim now quotaAvailable => (queue.claim now quotaAvailable).1
  | _ => none

variable {queue : IterationQueue} {now : ℤ} {quotaAvailable success : Bool} {cycleId : String}

theorem perform_enqueue (cycle : IterationCycle) : queue.perform (.enqueue cycle) =
      { queue with cycles := queue.cycles.setDefault cycle } := by
  cases hl : queue.cycles.lookup cycle.cycleId with
  | none => simp [perform, enqueue, hl]
  | some existing =>
    have hs : queue.cycles.setDefault cycle = queue.cycles := by
      simp [KeyedList.setDefault, hl]
    by_cases he : existing = cycle
    · simp [perform, enqueue, hl, he]
    · simp [perform, enqueue, hl, he, hs]

theorem claim_cases (queue : IterationQueue) (now : ℤ) (quotaAvailable : Bool) :
    queue.claim now quotaAvailable = (none, queue) ∨
      ∃ cycle, queue.running = none ∧ cycle ∈ queue.cycles.items ∧ cycle.Eligible now ∧
        (∀ other ∈ queue.cycles.items, other.Eligible now → cycle.sortKey ≤ other.sortKey) ∧
        ((quotaAvailable = false ∧ queue.claim now quotaAvailable = (some (cycle.deferred now),
            { queue with cycles := queue.cycles.replace (cycle.deferred now) })) ∨
          (quotaAvailable = true ∧ queue.claim now quotaAvailable = (some cycle.started,
            { cycles := queue.cycles.replace cycle.started,
              running := some cycle.cycleId }))) := by
  cases hr : queue.running with
  | some cycleId =>
    left
    simp [claim, hr]
  | none =>
    cases ho : (queue.cycles.items.filter fun cycle => cycle.Eligible now).argmin
        IterationCycle.sortKey with
    | none =>
      left
      simp [claim, hr, ho]
    | some cycle =>
      right
      have hm := List.mem_filter.mp (List.argmin_mem ho)
      refine ⟨cycle, rfl, hm.1, of_decide_eq_true hm.2, ?_, ?_⟩
      · intro other hot he
        exact List.le_of_mem_argmin (List.mem_filter.mpr ⟨hot, decide_eq_true he⟩) ho
      · cases quotaAvailable with
        | false =>
          left
          simp [claim, hr, ho]
        | true =>
          right
          simp [claim, hr, ho]

theorem finish_cases (queue : IterationQueue) (cycleId : String) (success : Bool) :
    queue.perform (.finish cycleId success) = queue ∨
      ∃ cycle, queue.running = some cycleId ∧ queue.cycles.lookup cycleId = some cycle ∧
        queue.perform (.finish cycleId success) =
          { cycles := queue.cycles.replace (cycle.finished success), running := none } := by
  by_cases hr : queue.running = some cycleId
  · cases hl : queue.cycles.lookup cycleId with
    | none =>
      left
      simp [perform, finish, hr, hl]
    | some cycle =>
      right
      exact ⟨cycle, hr, rfl, by simp [perform, finish, hr, hl]⟩
  · left
    simp [perform, finish, hr]

end IterationQueue

end AiQuant.Iteration
