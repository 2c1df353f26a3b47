import Mathlib.Algebra.Order.Ring.Rat
import Mathlib.Data.List.Infix

/-! `AutomaticTradeEngine` (`automation/engine.py`): validation, gate and submission of complete
trade intents.  The gate and the executor are adapters over a world of their own; both may raise.
A time is the microseconds of a `datetime` with the offset of UTC, and `none` for any other. -/
namespace AiQuant.Automation

inductive AutomationEnvironment where
  | paper | testnet

inductive IntentAction where
  | opening | increase | close | reverse
deriving DecidableEq

inductive TradeSide where
  | long | short
deriving DecidableEq

structure AutomaticTradeIntent where
  intentId : String
  decisionVersion : String
  evidenceHash : String
  createdAt : Option ℤ
  expiresAt : Option ℤ
  environment : AutomationEnvironment
  symbol : String
  action : IntentAction
  side : TradeSide
  quantity : ℚ
  entryAssumption : ℚ
  stopTrigger : ℚ
  targetTrigger : ℚ
  grossEdgeBps : ℚ

structure AutomationSnapshot where
  observedAt : Option ℤ
  openPositions : ℤ
  dailyNetPnl : ℚ
  emergencyStop : Bool := false

/-- The limits that `__post_init__` accepts. -/
structure AutomationLimits where
  maximumIntentsPerCycle : ℕ
  maximumParallelPositions : ℤ
  dailyNetLossLimit : ℚ
  maximumIntentAge : ℤ
  intents_mem : 1 ≤ maximumIntentsPerCycle ∧ maximumIntentsPerCycle ≤ 10
  positions_mem : 1 ≤ maximumParallelPositions ∧ maximumParallelPositions ≤ 10
  loss_pos : 0 < dailyNetLossLimit
  age_mem : 1000000 ≤ maximumIntentAge ∧ maximumIntentAge ≤ 600000000

def AutomationLimits.standard : AutomationLimits where
  maximumIntentsPerCycle := 5
  maximumParallelPositions := 5
  dailyNetLossLimit := 1
  maximumIntentAge := 90000000
  intents_mem := ⟨by decide, by decide⟩
  positions_mem := ⟨by decide, by decide⟩
  loss_pos := zero_lt_one
  age_mem := ⟨by decide, by decide⟩

structure GateDecision where
  approved : Bool
  reasonCodes : List String := []

structure ExecutionReceipt where
  accepted : Bool
  referenceId : Option String
  reasonCodes : List String := []

structure AutomaticTradeOutcome where
  intentId : String
  submitted : Bool
  referenceId : Option String
  reasonCodes : List String

/-- The gate, the executor and the letters of `str.isalnum`. -/
structure Adapters (ω ε : Type) where
  evaluate : AutomaticTradeIntent → AutomationSnapshot → ω → Except ε GateDecision × ω
  submitWithNativeProtection : AutomaticTradeIntent → ω → Except ε ExecutionReceipt × ω
  isAlnum : Char → Bool

/-- How `process_cycle` raises. -/
inductive CycleError (ε : Type) where
  | notUtc (label : String)
  | adapter (raised : ε)

def CycleError.text {ε : Type} (adapterText : ε → String) : CycleError ε → String
  | notUtc label => label ++ " must be timezone-aware UTC"
  | adapter raised => adapterText raised

/-- What was passed to the executor, and its receipt unless it raised. -/
structure Submission where
  intent : AutomaticTradeIntent
  receipt : Option ExecutionReceipt

namespace Submission

def accepted (submission : Submission) : Bool :=
  submission.receipt.any (·.accepted)

def opens (submission : Submission) : Bool :=
  submission.accepted && submission.intent.action = .opening

def closes (submission : Submission) : Bool :=
  submission.accepted && submission.intent.action = .close

def project (positions : ℤ) (submission : Submission) : ℤ :=
  if submission.opens then positions + 1
  else if submission.closes then max 0 (positions - 1)
  else positions

end Submission

namespace AutomaticTradeIntent

variable (intent : AutomaticTradeIntent)

def Protected : Prop :=
  if intent.side = .long then
    intent.stopTrigger < intent.entryAssumption ∧ intent.entryAssumption < intent.targetTrigger
  else
    intent.targetTrigger < intent.entryAssumption ∧ intent.entryAssumption < intent.stopTrigger

instance : Decidable intent.Protected :=
  inferInstanceAs (Decidable (if intent.side = .long then _ else _))

end AutomaticTradeIntent

def reasonIf (fails : Prop) [Decidable fails] (reason : String) : List String :=
  if fails then [reason] else []

@[simp] theorem reasonIf_eq_nil {fails : Prop} [Decidable fails] {reason : String} :
    reasonIf fails reason = [] ↔ ¬ fails := by
  by_cases hf : fails
  · simp [reasonIf, hf]
  · simp [reasonIf, hf]

def timeReasons (limits : AutomationLimits) (intent : AutomaticTradeIntent) (now : ℤ) :
    List String :=
  match intent.createdAt, intent.expiresAt with
  | some created, some expires =>
    reasonIf (expires ≤ created ∨ expires < now) "AUTOMATION_INTENT_EXPIRED" ++
      reasonIf (limits.maximumIntentAge < now - created) "AUTOMATION_INTENT_STALE"
  | _, _ => []

/-- `_validate_intent`, with the cycle's and the snapshot's times as they passed. -/
def validateIntent (isAlnum : Char → Bool) (limits : AutomationLimits)
    (processed seen : List String) (projectedPositions : ℤ) (intent : AutomaticTradeIntent)
    (snapshot : AutomationSnapshot) (observed now : ℤ) : List String :=
  reasonIf (intent.createdAt = none ∨ intent.expiresAt = none) "AUTOMATION_TIME_INVALID" ++
  reasonIf (intent.intentId = "" ∨ intent.intentId ∈ processed ∨ intent.intentId ∈ seen)
    "AUTOMATION_INTENT_DUPLICATE" ++
  reasonIf (intent.decisionVersion = "" ∨ intent.evidenceHash.length ≠ 64)
    "AUTOMATION_DECISION_EVIDENCE_INVALID" ++
  reasonIf (¬ "USDT".toList <:+ intent.symbol.toList ∨
    ¬ (intent.symbol ≠ "" ∧ intent.symbol.toList.all isAlnum)) "AUTOMATION_SYMBOL_INVALID" ++
  reasonIf (min (min (min intent.quantity intent.entryAssumption) intent.stopTrigger)
    intent.targetTrigger ≤ 0) "AUTOMATION_PRICE_OR_QUANTITY_INVALID" ++
  reasonIf (¬ intent.Protected) "AUTOMATION_NATIVE_PROTECTION_INVALID" ++
  timeReasons limits intent now ++
  reasonIf (now < observed ∨ limits.maximumIntentAge < now - observed)
    "AUTOMATION_SNAPSHOT_STALE" ++
  reasonIf (snapshot.emergencyStop = true) "AUTOMATION_EMERGENCY_STOP" ++
  reasonIf (snapshot.dailyNetPnl ≤ -limits.dailyNetLossLimit) "AUTOMATION_DAILY_LOSS_LIMIT" ++
  reasonIf ((intent.action = .opening ∨ intent.action = .increase) ∧
    limits.maximumParallelPositions ≤ projectedPositions) "AUTOMATION_POSITION_LIMIT"

def rejected (intent : AutomaticTradeIntent) (reasons : List String) : AutomaticTradeOutcome where
  intentId := intent.intentId
  submitted := false
  referenceId := none
  reasonCodes := reasons

/-- The variables of the loop over the intents, and what it passed to the executor. -/
structure Pass (ω : Type) where
  world : ω
  processed : List String
  seen : List String
  projectedPositions : ℤ
  outcomes : List AutomaticTradeOutcome
  submissions : List Submission

section Cycles

variable {ω ε : Type} (adapters : Adapters ω ε) (limits : AutomationLimits)

def processIntent (snapshot : AutomationSnapshot) (observed now : ℤ) (pass : Pass ω)
    (intent : AutomaticTradeIntent) : Except ε Unit × Pass ω :=
  let validation := validateIntent adapters.isAlnum limits pass.processed pass.seen
    pass.projectedPositions intent snapshot observed now
  let pass := { pass with seen := intent.intentId :: pass.seen }
  if validation ≠ [] then
    (.ok (), { pass with outcomes := pass.outcomes ++ [rejected intent validation] })
  else
    match adapters.evaluate intent snapshot pass.world with
    | (.error raised, world) => (.error raised, { pass with world := world })
    | (.ok gate, world) =>
      if !gate.approved then
        let reasons :=
          if gate.reasonCodes = [] then ["AUTOMATION_GATE_DENIED"] else gate.reasonCodes
        (.ok (), { pass with
          world := world
          outcomes := pass.outcomes ++ [rejected intent reasons] })
      else
        -- marked before the submission, whatever becomes of it
        let pass := { pass with processed := intent.intentId :: pass.processed }
        match adapters.submitWithNativeProtection intent world with
        | (.error raised, world) =>
          (.error raised, { pass with
            world := world
            submissions := pass.submissions ++ [⟨intent, none⟩] })
        | (.ok receipt, world) =>
          (.ok (), { pass with
            world := world
            projectedPositions := Submission.project pass.projectedPositions
              ⟨intent, some receipt⟩
            outcomes := pass.outcomes ++ [{
              intentId := intent.intentId
              submitted := receipt.accepted
              referenceId := receipt.referenceId
              reasonCodes := receipt.reasonCodes }]
            submissions := pass.submissions ++ [⟨intent, some receipt⟩] })

def processIntents (snapshot : AutomationSnapshot) (observed now : ℤ) (pass : Pass ω) :
    List AutomaticTradeIntent → Except ε Unit × Pass ω
  | [] => (.ok (), pass)
  | intent :: intents =>
    match processIntent adapters limits snapshot observed now pass intent with
    | (.ok (), after) => processIntents snapshot observed now after intents
    | (.error raised, after) => (.error raised, after)

/-- The arguments of `process_cycle`, and the world its adapters find. -/
structure CycleCall (ω : Type) where
  world : ω
  intents : List AutomaticTradeIntent
  snapshot : AutomationSnapshot
  now : Option ℤ

structure CycleResult (ω ε : Type) where
  returned : Except (CycleError ε) (List AutomaticTradeOutcome)
  processed : List String
  world : ω
  submissions : List Submission

def processCycle (processed : List String) (call : CycleCall ω) : CycleResult ω ε :=
  match call.now, call.snapshot.observedAt with
  | none, _ => ⟨.error (.notUtc "cycle time"), processed, call.world, []⟩
  | some _, none => ⟨.error (.notUtc "snapshot time"), processed, call.world, []⟩
  | some now, some observed =>
    if limits.maximumIntentsPerCycle < call.intents.length then
      ⟨.ok (call.intents.map (rejected · ["AUTOMATION_CYCLE_INTENT_LIMIT"])), processed,
        call.world, []⟩
    else
      let (ended, pass) := processIntents adapters limits call.snapshot observed now
        ⟨call.world, processed, [], call.snapshot.openPositions, [], []⟩ call.intents
      ⟨match ended with
        | .ok () => .ok pass.outcomes
        | .error raised => .error (.adapter raised),
        pass.processed, pass.world, pass.submissions⟩

def runCycles (processed : List String) : List (CycleCall ω) → List (CycleCall ω × List Submission)
  | [] => []
  | call :: calls =>
    let result := processCycle adapters limits processed call
    (call, result.submissions) :: runCycles result.processed calls

end Cycles

structure AutomaticTradeEngine (ω ε : Type) where
  adapters : Adapters ω ε
  limits : AutomationLimits
  processed : List String

namespace AutomaticTradeEngine

variable {ω ε : Type}

def new (adapters : Adapters ω ε) (limits : Option AutomationLimits)
    (processedIntentIds : Option (List String)) : AutomaticTradeEngine ω ε where
  adapters := adapters
  limits := limits.getD .standard
  processed := processedIntentIds.getD []

def run (engine : AutomaticTradeEngine ω ε) (calls : List (CycleCall ω)) :
    List (CycleCall ω × List Submission) :=
  runCycles engine.adapters engine.limits engine.processed calls

end AutomaticTradeEngine

end AiQuant.Automation
