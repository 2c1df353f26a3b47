import AiQuant.Automation.Engine
import Mathlib.Data.List.Nodup
import Mathlib.Tactic.Linarith

/-! Safety of the engine over its lifetime, whatever the gate and the executor do. -/
namespace AiQuant.Automation

/-- What every submission has behind it. -/
structure Sendable (limits : AutomationLimits) (snapshot : AutomationSnapshot) (now : Option ℤ)
    (intent : AutomaticTradeIntent) : Prop where
  snapshot_fresh : ∃ time observed, now = some time ∧ snapshot.observedAt = some observed ∧
    observed ≤ time ∧ time - observed ≤ limits.maximumIntentAge
  running : snapshot.emergencyStop = false
  solvent : -limits.dailyNetLossLimit < snapshot.dailyNetPnl
  protection : intent.Protected
  unexpired : ∃ time created expires, now = some time ∧ intent.createdAt = some created ∧
    intent.expiresAt = some expires ∧ created < expires ∧ time ≤ expires

variable {isAlnum : Char → Bool} {limits : AutomationLimits} {processed seen : List String}
  {positions observed now : ℤ} {intent : AutomaticTradeIntent} {snap : AutomationSnapshot}

theorem timeReasons_eq_nil {created expires : ℤ} (hc : intent.createdAt = some created)
    (he : intent.expiresAt = some expires) (hn : timeReasons limits intent now = []) :
    created < expires ∧ now ≤ expires := by
  rw [timeReasons, hc, he] at hn
  dsimp only at hn
  rw [List.append_eq_nil_iff, reasonIf_eq_nil, reasonIf_eq_nil, not_or] at hn
  exact ⟨not_le.mp hn.1.1, not_lt.mp hn.1.2⟩

section Validated

variable (hvalid : validateIntent isAlnum limits processed seen positions intent snap
  observed now = [])

include hvalid

theorem notMem_processed_of_validated : intent.intentId ∉ processed := by
  simp only [validateIntent, List.append_eq_nil_iff, reasonIf_eq_nil, not_or] at hvalid
  tauto

theorem positions_lt_of_validated (ho : intent.action = .opening) :
    positions < limits.maximumParallelPositions := by
  simp only [validateIntent, List.append_eq_nil_iff, reasonIf_eq_nil, not_and, not_le] at hvalid
  exact hvalid.2 (.inl ho)

theorem sendable_of_validated (ho : snap.observedAt = some observed) :
    Sendable limits snap (some now) intent := by
  simp only [validateIntent, List.append_eq_nil_iff, reasonIf_eq_nil] at hvalid
  obtain ⟨⟨⟨⟨⟨⟨⟨⟨⟨⟨ht, -⟩, -⟩, -⟩, -⟩, hp⟩, hr⟩, hs⟩, hst⟩, hl⟩, -⟩ :=
    hvalid
  rw [not_or] at ht hs
  obtain ⟨created, hc⟩ := Option.ne_none_iff_exists'.mp ht.1
  obtain ⟨expires, he⟩ := Option.ne_none_iff_exists'.mp ht.2
  exact {
    snapshot_fresh := ⟨now, observed, rfl, ho, not_lt.mp hs.1, not_lt.mp hs.2⟩
    running := Bool.eq_false_iff.mpr hst
    solvent := not_le.mp hl
    protection := not_not.mp hp
    unexpired := ⟨now, created, expires, rfl, hc, he, timeReasons_eq_nil hc he hr⟩ }

end Validated

variable {ω ε : Type} (adapters : Adapters ω ε)

theorem processIntent_cases (limits : AutomationLimits) (snap : AutomationSnapshot)
    (observed now : ℤ) (pass : Pass ω) (intent : AutomaticTradeIntent) :
    (∃ ended world outcomes, processIntent adapters limits snap observed now pass intent =
        (ended, { pass with
          world := world, seen := intent.intentId :: pass.seen, outcomes := outcomes })) ∨
      validateIntent adapters.isAlnum limits pass.processed pass.seen pass.projectedPositions
        intent snap observed now = [] ∧
      ∃ ended world outcomes rcpt,
        processIntent adapters limits snap observed now pass intent = (ended, {
          world := world
          processed := intent.intentId :: pass.processed
          seen := intent.intentId :: pass.seen
          projectedPositions := Submission.project pass.projectedPositions ⟨intent, rcpt⟩
          outcomes := outcomes
          submissions := pass.submissions ++ [⟨intent, rcpt⟩] }) := by
  by_cases hvalid : validateIntent adapters.isAlnum limits pass.processed pass.seen
      pass.projectedPositions intent snap observed now = []
  · cases hg : adapters.evaluate intent snap pass.world with
    | mk dec world =>
      cases dec with
      | error raised =>
        left
        exact ⟨.error raised, world, pass.outcomes, by simp [processIntent, hvalid, hg]⟩
      | ok gate =>
        cases ha : gate.approved with
        | false =>
          left
          refine ⟨.ok (), world, pass.outcomes ++ [rejected intent
            (if gate.reasonCodes = [] then ["AUTOMATION_GATE_DENIED"] else gate.reasonCodes)], ?_⟩
          simp [processIntent, hvalid, hg, ha]
        | true =>
          right
          refine ⟨hvalid, ?_⟩
          cases hr : adapters.submitWithNativeProtection intent world with
          | mk rcpt post =>
            cases rcpt with
            | error raised =>
              refine ⟨.error raised, post, pass.outcomes, none, ?_⟩
              simp [processIntent, hvalid, hg, ha, hr, Submission.project,
                Submission.opens, Submission.closes, Submission.accepted]
            | ok rcpt =>
              refine ⟨.ok (), post, pass.outcomes ++ [⟨intent.intentId, rcpt.accepted,
                rcpt.referenceId, rcpt.reasonCodes⟩], some rcpt, ?_⟩
              simp [processIntent, hvalid, hg, ha, hr]
  · left
    refine ⟨.ok (), pass.world, pass.outcomes ++ [rejected intent (validateIntent
      adapters.isAlnum limits pass.processed pass.seen pass.projectedPositions intent snap
        observed now)], ?_⟩
    simp [processIntent, hvalid]

def intentIds (submissions : List Submission) : List String :=
  submissions.map (·.intent.intentId)

def Within (limits : AutomationLimits) (positions : ℤ) (submissions : List Submission) : Prop :=
  positions ≤ limits.maximumParallelPositions → ∀ before, before <+: submissions →
    before.foldl Submission.project positions ≤ limits.maximumParallelPositions

structure Sound (limits : AutomationLimits) (call : CycleCall ω) (processed : List String)
    (pass : Pass ω) : Prop where
  marked : pass.processed = (intentIds pass.submissions).reverse ++ processed
  ids : (intentIds pass.submissions).Nodup
  fresh : ∀ name ∈ intentIds pass.submissions, name ∉ processed
  sendable : ∀ submission ∈ pass.submissions,
    Sendable limits call.snapshot call.now submission.intent
  projected : pass.projectedPositions =
    pass.submissions.foldl Submission.project call.snapshot.openPositions
  within : Within limits call.snapshot.openPositions pass.submissions

theorem project_le_limit {rcpt : Option ExecutionReceipt}
    (hp : positions ≤ limits.maximumParallelPositions)
    (hop : intent.action = .opening → positions < limits.maximumParallelPositions) :
    Submission.project positions ⟨intent, rcpt⟩ ≤ limits.maximumParallelPositions := by
  have hl := limits.positions_mem.1
  unfold Submission.project
  split_ifs with ho hc
  · have ha : intent.action = .opening := by
      simp only [Submission.opens, Bool.and_eq_true, decide_eq_true_eq] at ho
      exact ho.2
    exact hop ha
  · exact max_le (by linarith) (by linarith)
  · exact hp

theorem Sound.processIntent {call : CycleCall ω} {pass : Pass ω}
    (hso : Sound limits call processed pass) (hnow : call.now = some now)
    (ho : call.snapshot.observedAt = some observed) (intent : AutomaticTradeIntent) :
    Sound limits call processed
      (processIntent adapters limits call.snapshot observed now pass intent).2 := by
  obtain ⟨hm, hi, hf, hse, hp, hw⟩ := hso
  rcases processIntent_cases adapters limits call.snapshot observed now pass intent with
    ⟨ended, world, outcomes, heq⟩ | ⟨hvalid, ended, world, outcomes, rcpt, heq⟩
  · rw [heq]
    exact ⟨hm, hi, hf, hse, hp, hw⟩
  · have hnew := notMem_processed_of_validated hvalid
    rw [hm, List.mem_append, List.mem_reverse, not_or] at hnew
    have hs : intentIds (pass.submissions ++ [⟨intent, rcpt⟩]) =
        intentIds pass.submissions ++ [intent.intentId] := by simp [intentIds]
    rw [heq]
    refine ⟨?_, ?_, ?_, ?_, ?_, ?_⟩
    · rw [hs, hm, List.reverse_append]
      rfl
    · rw [hs, List.nodup_append_comm, List.singleton_append]
      exact List.nodup_cons.mpr ⟨hnew.1, hi⟩
    · rw [hs]
      intro name hn
      rcases List.mem_append.mp hn with he | hl
      · exact hf name he
      · rw [List.mem_singleton.mp hl]
        exact hnew.2
    · intro submission hmem
      rcases List.mem_append.mp hmem with he | hl
      · exact hse submission he
      · rw [List.mem_singleton.mp hl, hnow]
        exact sendable_of_validated hvalid ho
    · rw [List.foldl_append, ← hp]
      rfl
    · intro hst pre hb
      rcases List.prefix_concat_iff.mp hb with rfl | he
      · rw [List.foldl_append, ← hp]
        refine project_le_limit ?_ (positions_lt_of_validated hvalid)
        rw [hp]
        exact hw hst _ List.prefix_rfl
      · exact hw hst pre he

theorem Sound.processIntents {call : CycleCall ω} {pass : Pass ω}
    (hs : Sound limits call processed pass) (hn : call.now = some now)
    (ho : call.snapshot.observedAt = some observed) (intents : List AutomaticTradeIntent) :
    Sound limits call processed
      (processIntents adapters limits call.snapshot observed now pass intents).2 := by
  induction intents generalizing pass with
  | nil => exact hs
  | cons intent intents ih =>
    have ha := hs.processIntent adapters hn ho intent
    rw [Automation.processIntents]
    cases hr : Automation.processIntent adapters limits call.snapshot observed now pass
      intent with
    | mk ended post =>
      rw [hr] at ha
      cases ended with
      | ok _ => exact ih ha
      | error raised => exact ha

structure CycleSound (limits : AutomationLimits) (call : CycleCall ω) (processed : List String)
    (result : CycleResult ω ε) : Prop where
  marked : result.processed = (intentIds result.submissions).reverse ++ processed
  ids : (intentIds result.submissions).Nodup
  fresh : ∀ name ∈ intentIds result.submissions, name ∉ processed
  sendable : ∀ submission ∈ result.submissions,
    Sendable limits call.snapshot call.now submission.intent
  within : Within limits call.snapshot.openPositions result.submissions

theorem within_nil : Within limits positions [] := by
  intro hp pre hb
  rw [List.prefix_nil.mp hb]
  exact hp

theorem cycleSound_nothing (call : CycleCall ω)
    (returned : Except (CycleError ε) (List AutomaticTradeOutcome)) :
    CycleSound limits call processed ⟨returned, processed, call.world, []⟩ where
  marked := rfl
  ids := List.nodup_nil
  fresh _ hname := absurd hname List.not_mem_nil
  sendable _ hmem := absurd hmem List.not_mem_nil
  within := within_nil

theorem processCycle_sound (limits : AutomationLimits) (processed : List String)
    (call : CycleCall ω) :
    CycleSound limits call processed (processCycle adapters limits processed call) := by
  unfold processCycle
  cases hnow : call.now with
  | none => exact cycleSound_nothing call _
  | some now =>
    cases ho : call.snapshot.observedAt with
    | none => exact cycleSound_nothing call _
    | some observed =>
      dsimp only
      split_ifs with hma
      · exact cycleSound_nothing call _
      · have hst : Sound limits call processed
            ⟨call.world, processed, [], call.snapshot.openPositions, [], []⟩ :=
          ⟨rfl, List.nodup_nil, fun _ hn => absurd hn List.not_mem_nil,
            fun _ hmem => absurd hmem List.not_mem_nil, rfl, within_nil⟩
        obtain ⟨hm, hi, hf, hs, -, hw⟩ :=
          hst.processIntents adapters hnow ho call.intents
        exact ⟨hm, hi, hf, hs, hw⟩

def allSubmissions (cycles : List (CycleCall ω × List Submission)) : List Submission :=
  cycles.flatMap Prod.snd

theorem runCycles_ids (limits : AutomationLimits) (processed : List String)
    (calls : List (CycleCall ω)) :
    (intentIds (allSubmissions (runCycles adapters limits processed calls))).Nodup ∧
      ∀ name ∈ intentIds (allSubmissions (runCycles adapters limits processed calls)),
        name ∉ processed := by
  induction calls generalizing processed with
  | nil => exact ⟨List.nodup_nil, fun _ hn => absurd hn List.not_mem_nil⟩
  | cons call calls ih =>
    have hc := processCycle_sound adapters limits processed call
    obtain ⟨hre, hr⟩ := ih (processCycle adapters limits processed call).processed
    have hs : intentIds (allSubmissions (runCycles adapters limits processed (call :: calls))) =
        intentIds (processCycle adapters limits processed call).submissions ++
          intentIds (allSubmissions (runCycles adapters limits
            (processCycle adapters limits processed call).processed calls)) := by
      simp [runCycles, allSubmissions, intentIds]
    rw [hs]
    constructor
    · refine List.nodup_append.mpr ⟨hc.ids, hre, ?_⟩
      rintro name hn other ho rfl
      refine hr name ho ?_
      rw [hc.marked]
      exact List.mem_append_left _ (List.mem_reverse.mpr hn)
    · intro name hn
      rcases List.mem_append.mp hn with hf | hl
      · exact hc.fresh name hf
      · intro hm
        refine hr name hl ?_
        rw [hc.marked]
        exact List.mem_append_right _ hm

theorem runCycles_sound {processed : List String} {calls : List (CycleCall ω)}
    {cycle : CycleCall ω × List Submission}
    (hc : cycle ∈ runCycles adapters limits processed calls) :
    (∀ submission ∈ cycle.2, Sendable limits cycle.1.snapshot cycle.1.now submission.intent) ∧
      Within limits cycle.1.snapshot.openPositions cycle.2 := by
  induction calls generalizing processed with
  | nil => exact absurd hc List.not_mem_nil
  | cons call calls ih =>
    rcases List.mem_cons.mp hc with rfl | hl
    · have hs := processCycle_sound adapters limits processed call
      exact ⟨hs.sendable, hs.within⟩
    · exact ih hl

theorem count_le_project (positions : ℤ) (submissions : List Submission) :
    positions + submissions.countP Submission.opens - submissions.countP Submission.closes ≤
      submissions.foldl Submission.project positions := by
  induction submissions using List.reverseRecOn with
  | nil => simp
  | append_singleton submissions last ih =>
    rw [List.foldl_append, List.countP_append, List.countP_append]
    simp only [List.foldl_cons, List.foldl_nil, List.countP_singleton, Submission.project]
    have he : last.opens = true → last.closes = false := by
      intro ho
      simp only [Submission.opens, Bool.and_eq_true, decide_eq_true_eq] at ho
      simp [Submission.closes, ho.2]
    split_ifs with ho hc hc
    · simp [he ho] at hc
    · push_cast
      linarith
    · push_cast
      linarith [le_max_right 0 (submissions.foldl Submission.project positions - 1)]
    · push_cast
      linarith

/-- Over the lifetime of an engine, whatever its gate and its executor do: an id is submitted at
most once, a restored one never; every submission has all its grounds; positions stay within the
limit after every one. -/
theorem automatic_trade_engine_safe (engine : AutomaticTradeEngine ω ε)
    (calls : List (CycleCall ω)) : (intentIds (allSubmissions (engine.run calls))).Nodup ∧
      (∀ name ∈ intentIds (allSubmissions (engine.run calls)), name ∉ engine.processed) ∧
      ∀ cycle ∈ engine.run calls, (∀ submission ∈ cycle.2,
          Sendable engine.limits cycle.1.snapshot cycle.1.now submission.intent) ∧
        (cycle.1.snapshot.openPositions ≤ engine.limits.maximumParallelPositions →
          ∀ pre, pre <+: cycle.2 → pre.foldl Submission.project cycle.1.snapshot.openPositions ≤
                engine.limits.maximumParallelPositions ∧
              max 0 (cycle.1.snapshot.openPositions + pre.countP Submission.opens -
                pre.countP Submission.closes) ≤ engine.limits.maximumParallelPositions) := by
  obtain ⟨hi, hf⟩ := runCycles_ids engine.adapters engine.limits engine.processed calls
  refine ⟨hi, hf, fun cycle hc => ?_⟩
  obtain ⟨hs, hw⟩ := runCycles_sound engine.adapters hc
  refine ⟨hs, fun hst pre hb => ?_⟩
  have hp := hw hst pre hb
  have hl : (0 : ℤ) ≤ engine.limits.maximumParallelPositions :=
    zero_le_one.trans engine.limits.positions_mem.1
  exact ⟨hp, max_le hl ((count_le_project _ pre).trans hp)⟩

end AiQuant.Automation
