import AiQuant.CopyTrading.Challenges

/-! Confirmations in flight.  A call takes its lock, looks its challenge up, decides its effect
and commits; it may fail anywhere.  Everything in one transaction stands or falls together.  A
reset commits its effect on a second connection, before the transaction that consumes the
challenge. -/
namespace AiQuant.CopyTrading
open AiQuant.Lib

inductive LockKey where
  | nonce (kind : ChallengeKind) (nonceHash : Digest)
  | slots

def ChallengeKind.lockKey (kind : ChallengeKind) (nonceHash : Digest) : LockKey :=
  match kind with
  | .leaderLock => .slots
  | .leaderChange => .slots
  | _ => .nonce kind nonceHash

/-- A confirmation that holds its lock; `decided` are the rows that it has inserted and not yet
committed. -/
structure ConfirmCall where
  challenge : Challenge
  userId : ℤ
  now : Time
  decided : Option (List EffectRow) := none

def ConfirmCall.lockKey (call : ConfirmCall) : LockKey :=
  call.challenge.payload.kind.lockKey call.challenge.nonceHash

def ConfirmCall.detached (call : ConfirmCall) : Bool :=
  call.challenge.payload = .control .resetAccountSummary && call.decided.isSome

def Challenge.effectFirst (challenge : Challenge) : Bool :=
  challenge.payload.kind = .positionClose || challenge.payload.kind = .leaderPositionsClose

/-- A committed effect, with the call that it belongs to. -/
structure Effected where
  challengeId : Digest
  userId : ℤ
  occurredAt : Time
  rows : List EffectRow

def ConfirmCall.effected (call : ConfirmCall) (rows : List EffectRow) : Effected :=
  ⟨call.challenge.challengeId, call.userId, call.now, rows⟩

structure ConfirmSystem where
  tables : OperatorTables
  calls : List ConfirmCall := []
  effected : List Effected := []

def OperatorTables.consumed (tables : OperatorTables) (challengeId : Digest) : Bool :=
  tables.consumptions.any (·.challengeId = challengeId)

def OperatorTables.consume (tables : OperatorTables) (call : ConfirmCall) : OperatorTables :=
  { tables with consumptions := tables.consumptions ++
      [⟨.challengeConsumption call.challenge.challengeId call.now, call.challenge.challengeId,
        call.userId, call.now⟩] }

/-- The commit of a call.  Where the challenge is consumed already, the insert of the consumption
does nothing and the call returns: with its signals if it inserts them first, else without
effect. -/
def ConfirmSystem.commitCall (state : ConfirmSystem) (call : ConfirmCall) (rows : List EffectRow)
    (rest : List ConfirmCall) : ConfirmSystem :=
  if state.tables.consumed call.challenge.challengeId then
    if call.challenge.effectFirst then
      ⟨state.tables.insertAll rows, rest, state.effected ++ [call.effected rows]⟩
    else { state with calls := rest }
  else ⟨(state.tables.insertAll rows).consume call, rest,
    if call.detached then state.effected else state.effected ++ [call.effected rows]⟩

inductive ConfirmAction where
  | create
  | begin
  | finish
  | decide
  | reset
  | commit
  | fail (call : ConfirmCall)
  | outside

section System

variable [HexOrder]

/-- One statement or commit of a call, or a step of others, who write neither challenges nor
consumptions. -/
inductive ConfirmStep (before : ConfirmSystem) : ConfirmAction → ConfirmSystem → Prop
  | create {payload : ChallengePayload} {userId : ℤ} {nonce : String} {now : Time}
      {tables : OperatorTables}
      (hcreate : before.tables.createChallenge payload userId nonce now = .ok tables) :
      ConfirmStep before .create { before with tables := tables }
  | begin {kind : ChallengeKind} {userId : ℤ} {nonce : String} {now : Time}
      {challenge : Challenge} (huser : 0 < userId) (hreadable : ReadableNonce nonce)
      (hlock : ∀ call ∈ before.calls, call.lockKey ≠ kind.lockKey (.nonce nonce))
      (hfound : before.tables.pendingChallenge kind userId (.nonce nonce) now = some challenge) :
      ConfirmStep before .begin
        { before with calls := before.calls ++ [⟨challenge, userId, now, none⟩] }
  | finish {earlier later : List ConfirmCall} {call : ConfirmCall}
      (hcalls : before.calls = earlier ++ call :: later) (hdecided : call.decided = none)
      (hrefused : before.tables.confirmedEffect call.challenge call.userId call.now = .refused) :
      ConfirmStep before .finish { before with calls := earlier ++ later }
  | decide {earlier later : List ConfirmCall} {call : ConfirmCall} {rows : List EffectRow}
      (hcalls : before.calls = earlier ++ call :: later) (hdecided : call.decided = none)
      (hpayload : call.challenge.payload ≠ .control .resetAccountSummary)
      (heffect : before.tables.confirmedEffect call.challenge call.userId call.now =
        .effect rows) :
      ConfirmStep before .decide
        { before with calls := earlier ++ { call with decided := some rows } :: later }
  | reset {earlier later : List ConfirmCall} {call : ConfirmCall} {reset : PnlReset}
      (hcalls : before.calls = earlier ++ call :: later) (hdecided : call.decided = none)
      (hpayload : call.challenge.payload = .control .resetAccountSummary)
      (hreset : before.tables.resetPnlBaseline (telegramActor call.userId) call.now =
        .ok reset) :
      ConfirmStep before .reset
        { tables := before.tables.insert (.pnlReset reset)
          calls := earlier ++ { call with decided := some [] } :: later
          effected := before.effected ++ [call.effected [.pnlReset reset]] }
  | commit {earlier later : List ConfirmCall} {call : ConfirmCall} {rows : List EffectRow}
      (hcalls : before.calls = earlier ++ call :: later) (hdecided : call.decided = some rows) :
      ConfirmStep before .commit (before.commitCall call rows (earlier ++ later))
  | fail {earlier later : List ConfirmCall} {call : ConfirmCall}
      (hcalls : before.calls = earlier ++ call :: later) :
      ConfirmStep before (.fail call) { before with calls := earlier ++ later }
  | outside {tables : OperatorTables} (hchallenges : tables.challenges = before.tables.challenges)
      (hconsumptions : tables.consumptions = before.tables.consumptions) :
      ConfirmStep before .outside { before with tables := tables }

/-- No failure takes a reset between its two commits. -/
def ConfirmAction.Orderly : ConfirmAction → Prop
  | .fail call => call.detached = false
  | _ => True

/-- The states reached from tables without challenges. -/
inductive ConfirmRun (allowed : ConfirmAction → Prop) : ConfirmSystem → Prop
  | start {tables : OperatorTables} (hchallenges : tables.challenges = [])
      (hconsumptions : tables.consumptions = []) : ConfirmRun allowed { tables := tables }
  | step {state after : ConfirmSystem} {action : ConfirmAction} (hrun : ConfirmRun allowed state)
      (hallowed : allowed action) (hstep : ConfirmStep state action after) :
      ConfirmRun allowed after

end System

def ConfirmSystem.Effects (state : ConfirmSystem) (challenge : Challenge) : Prop :=
  ∃ effect ∈ state.effected, effect.challengeId = challenge.challengeId

def ConfirmSystem.Consumes (state : ConfirmSystem) (challenge : Challenge) : Prop :=
  ∃ consumption ∈ state.tables.consumptions, consumption.challengeId = challenge.challengeId

/-- Every challenge takes effect once at most, for its user and before its expiry, and once no
call holds it any more, exactly if it is consumed. -/
structure ConfirmSystem.OneShot (state : ConfirmSystem) : Prop where
  once : (state.effected.map (·.challengeId)).Nodup
  owned : ∀ effect ∈ state.effected, ∃ challenge ∈ state.tables.challenges,
    challenge.challengeId = effect.challengeId ∧ challenge.userId = effect.userId ∧
      effect.occurredAt < challenge.expiresAt
  atomic : ∀ challenge ∈ state.tables.challenges,
    (∀ call ∈ state.calls, call.challenge ≠ challenge) →
    (state.Effects challenge ↔ state.Consumes challenge)

structure ConfirmSystem.Invariant (state : ConfirmSystem) : Prop extends state.OneShot where
  ids : (state.tables.challenges.map (·.challengeId)).Nodup
  known : ∀ consumption ∈ state.tables.consumptions, ∃ challenge ∈ state.tables.challenges,
    challenge.challengeId = consumption.challengeId
  locks : (state.calls.map (·.lockKey)).Nodup
  held : ∀ call ∈ state.calls, call.challenge ∈ state.tables.challenges ∧
    call.challenge.userId = call.userId ∧ call.now < call.challenge.expiresAt ∧
      ¬ state.Consumes call.challenge
  pending : ∀ call ∈ state.calls, state.Effects call.challenge ↔ call.detached = true

/-! ### Tables that stay -/

theorem OperatorTables.insert_challenges (tables : OperatorTables) (row : EffectRow) :
    (tables.insert row).challenges = tables.challenges := by
  cases row with
  | closeSignal row =>
    dsimp only [OperatorTables.insert]
    split <;> rfl
  | _ => rfl

theorem OperatorTables.insert_consumptions (tables : OperatorTables) (row : EffectRow) :
    (tables.insert row).consumptions = tables.consumptions := by
  cases row with
  | closeSignal row =>
    dsimp only [OperatorTables.insert]
    split <;> rfl
  | _ => rfl

theorem OperatorTables.insertAll_challenges (tables : OperatorTables) (rows : List EffectRow) :
    (tables.insertAll rows).challenges = tables.challenges := by
  induction rows generalizing tables with
  | nil => rfl
  | cons row rest ih => exact (ih (tables.insert row)).trans (tables.insert_challenges row)

theorem OperatorTables.insertAll_consumptions (tables : OperatorTables) (rows : List EffectRow) :
    (tables.insertAll rows).consumptions = tables.consumptions := by
  induction rows generalizing tables with
  | nil => rfl
  | cons row rest ih => exact (ih (tables.insert row)).trans (tables.insert_consumptions row)

variable {tables : OperatorTables}

theorem OperatorTables.consumed_eq_false_iff {challengeId : Digest} :
    tables.consumed challengeId = false ↔
      ¬ ∃ consumption ∈ tables.consumptions, consumption.challengeId = challengeId := by
  simp [OperatorTables.consumed]

theorem pendingChallenge_found {kind : ChallengeKind} {userId : ℤ} {nonceHash : Digest} {now : Time}
    {chal : Challenge} (hf : tables.pendingChallenge kind userId nonceHash now = some chal) :
    chal ∈ tables.challenges ∧ chal.payload.kind = kind ∧
      chal.nonceHash = nonceHash ∧ chal.userId = userId ∧ now < chal.expiresAt ∧
      ¬ ∃ consumption ∈ tables.consumptions, consumption.challengeId = chal.challengeId := by
  have hkey := List.find?_some hf
  simp only [Bool.and_eq_true, decide_eq_true_eq, Bool.not_eq_true', and_assoc] at hkey
  obtain ⟨hk, hn, hu, he, hc⟩ := hkey
  exact ⟨List.mem_of_find?_eq_some hf, hk, hn, hu, he, OperatorTables.consumed_eq_false_iff.mp hc⟩

theorem createChallenge_spec {post : OperatorTables} {data : ChallengePayload}
    {userId : ℤ} {nonce : String} {now : Time}
    (hc : tables.createChallenge data userId nonce now = .ok post) : (∀ other ∈ tables.challenges,
        other.challengeId ≠ (data.challenge userId nonce now).challengeId) ∧
      post = { tables with
        challenges := tables.challenges ++ [data.challenge userId nonce now] } := by
  unfold OperatorTables.createChallenge at hc
  split_ifs at hc with hu hk
  cases hc
  refine ⟨fun other ho hs => hk ?_, rfl⟩
  rw [List.any_eq_true]
  refine ⟨other, ho, ?_⟩
  simp only [Bool.or_eq_true, decide_eq_true_eq]
  exact Or.inl hs

/-! ### Calls -/

section Calls

variable {st : ConfirmSystem} {earlier later : List ConfirmCall} {call : ConfirmCall}

theorem mem_calls_iff (hc : st.calls = earlier ++ call :: later) {other : ConfirmCall} :
    other ∈ st.calls ↔ other = call ∨ other ∈ earlier ++ later := by
  rw [hc]
  simp only [List.mem_append, List.mem_cons]
  tauto

section

variable (hi : st.Invariant)
include hi

theorem ConfirmSystem.Invariant.other_challenge (hc : st.calls = earlier ++ call :: later)
    {other : ConfirmCall} (ho : other ∈ earlier ++ later) : other.challenge ≠ call.challenge := by
  have hl := hi.locks
  rw [hc, List.map_append, List.map_cons, List.nodup_middle, List.nodup_cons,
    ← List.map_append] at hl
  intro hs
  have hk : other.lockKey = call.lockKey := by
    unfold ConfirmCall.lockKey
    rw [hs]
  exact hl.1 (hk ▸ List.mem_map_of_mem ho)

theorem ConfirmSystem.Invariant.challengeId_ne {left right : Challenge}
    (hl : left ∈ st.tables.challenges) (hr : right ∈ st.tables.challenges) (hne : left ≠ right) :
    left.challengeId ≠ right.challengeId :=
  fun hs => hne (List.inj_on_of_nodup_map hi.ids hl hr hs)

section

variable (hc : st.calls = earlier ++ call :: later)
include hc

theorem ConfirmSystem.Invariant.rest_locks : ((earlier ++ later).map (·.lockKey)).Nodup := by
  have hl := hi.locks
  rw [hc, List.map_append, List.map_cons, List.nodup_middle, List.nodup_cons,
    ← List.map_append] at hl
  exact hl.2

theorem ConfirmSystem.Invariant.remove (ha : call.detached = false) :
    ({ st with calls := earlier ++ later } : ConfirmSystem).Invariant := by
  have hr : ∀ other ∈ earlier ++ later, other ∈ st.calls :=
    fun other ho => (mem_calls_iff hc).mpr (Or.inr ho)
  have hca : call ∈ st.calls := (mem_calls_iff hc).mpr (Or.inl rfl)
  have hn : st.Effects call.challenge ↔ st.Consumes call.challenge := by
    have hu : ¬ st.Effects call.challenge := by
      rw [hi.pending call hca, ha]
      exact Bool.false_ne_true
    exact ⟨fun he => absurd he hu,
      fun hco => absurd hco (hi.held call hca).2.2.2⟩
  exact {
    hi with
    locks := hi.rest_locks hc
    held := fun other ho => hi.held other (hr other ho)
    pending := fun other ho => hi.pending other (hr other ho)
    atomic := fun chal hch hf => by
      by_cases hs : chal = call.challenge
      · rw [hs]
        exact hn
      · refine hi.atomic chal hch fun other ho => ?_
        rcases (mem_calls_iff hc).mp ho with rfl | ho
        · exact Ne.symm hs
        · exact hf other ho }

theorem ConfirmSystem.Invariant.replace {decided : Option (List EffectRow)}
    (hd : ({ call with decided := decided } : ConfirmCall).detached = call.detached) :
    ({ st with calls := earlier ++ { call with decided := decided } :: later } :
      ConfirmSystem).Invariant := by
  have hca : call ∈ st.calls := (mem_calls_iff hc).mpr (Or.inl rfl)
  have hr : ∀ other ∈ earlier ++ later, other ∈ st.calls :=
    fun other ho => (mem_calls_iff hc).mpr (Or.inr ho)
  let advanced : ConfirmSystem :=
    { st with calls := earlier ++ { call with decided := decided } :: later }
  have ha : advanced.calls = earlier ++ { call with decided := decided } :: later := rfl
  exact {
    hi with
    locks := by
      have hl := hi.locks
      rw [hc] at hl
      rw [List.map_append, List.map_cons] at hl ⊢
      exact hl
    held := fun other ho => by
      rcases (mem_calls_iff ha).mp ho with rfl | ho
      · exact hi.held call hca
      · exact hi.held other (hr other ho)
    pending := fun other ho => by
      rcases (mem_calls_iff ha).mp ho with rfl | ho
      · rw [hd]
        exact hi.pending call hca
      · exact hi.pending other (hr other ho)
    atomic := fun chal hch hf => by
      refine hi.atomic chal hch fun other ho => ?_
      rcases (mem_calls_iff hc).mp ho with rfl | ho
      · exact hf { other with decided := decided } ((mem_calls_iff ha).mpr (Or.inl rfl))
      · exact hf other ((mem_calls_iff ha).mpr (Or.inr ho)) }

end

end

end Calls

/-! ### Steps -/

section Steps

variable {pre post : ConfirmSystem}

theorem ConfirmSystem.Invariant.start {tables : OperatorTables}
    (hch : tables.challenges = []) (hco : tables.consumptions = []) :
    ({ tables := tables } : ConfirmSystem).Invariant where
  once := List.nodup_nil
  owned := fun _ he => absurd he List.not_mem_nil
  atomic := fun chal hcha => by
    rw [hch] at hcha
    exact absurd hcha List.not_mem_nil
  ids := by
    rw [hch]
    exact List.nodup_nil
  known := fun consumption hc => by
    rw [hco] at hc
    exact absurd hc List.not_mem_nil
  locks := List.nodup_nil
  held := fun _ hca => absurd hca List.not_mem_nil
  pending := fun _ hca => absurd hca List.not_mem_nil

theorem ConfirmSystem.Invariant.create (hi : pre.Invariant) {chal : Challenge}
    (hf : ∀ other ∈ pre.tables.challenges, other.challengeId ≠ chal.challengeId) :
    ({ pre with tables := { pre.tables with
      challenges := pre.tables.challenges ++ [chal] } } : ConfirmSystem).Invariant where
  once := hi.once
  owned := fun effect he => by
    obtain ⟨owner, ho, how⟩ := hi.owned effect he
    exact ⟨owner, List.mem_append_left _ ho, how⟩
  atomic := fun other hot hfr => by
    rcases List.mem_append.mp hot with hot | hot
    · exact hi.atomic other hot hfr
    · cases List.mem_singleton.mp hot
      constructor
      · rintro ⟨effect, he, hs⟩
        obtain ⟨owner, ho, hid, -⟩ := hi.owned effect he
        exact absurd (hid.trans hs) (hf owner ho)
      · rintro ⟨consumption, hc, hs⟩
        obtain ⟨owner, ho, hid⟩ := hi.known consumption hc
        exact absurd (hid.trans hs) (hf owner ho)
  ids := by
    rw [List.map_append, List.map_singleton, List.nodup_append_comm, List.singleton_append,
      List.nodup_cons]
    refine ⟨fun hm => ?_, hi.ids⟩
    obtain ⟨other, hot, hs⟩ := List.mem_map.mp hm
    exact hf other hot hs
  known := fun consumption hc => by
    obtain ⟨owner, ho, hid⟩ := hi.known consumption hc
    exact ⟨owner, List.mem_append_left _ ho, hid⟩
  locks := hi.locks
  held := fun call hca => by
    obtain ⟨hm, hr⟩ := hi.held call hca
    exact ⟨List.mem_append_left _ hm, hr⟩
  pending := hi.pending

variable {call : ConfirmCall}

theorem ConfirmSystem.Invariant.begin (hi : pre.Invariant)
    (hm : call.challenge ∈ pre.tables.challenges) (hu : call.challenge.userId = call.userId)
    (he : call.now < call.challenge.expiresAt) (hc : ¬ pre.Consumes call.challenge)
    (hd : call.decided = none) (hl : ∀ other ∈ pre.calls, other.lockKey ≠ call.lockKey) :
    ({ pre with calls := pre.calls ++ [call] } : ConfirmSystem).Invariant := by
  have ha : call.detached = false := by
    simp [ConfirmCall.detached, hd]
  have hfr : ∀ other ∈ pre.calls, other.challenge ≠ call.challenge := by
    intro other ho hs
    refine hl other ho ?_
    unfold ConfirmCall.lockKey
    rw [hs]
  exact {
    hi with
    atomic := fun chal hch hn =>
      hi.atomic chal hch fun other ho =>
        hn other (List.mem_append_left _ ho)
    locks := by
      rw [List.map_append, List.map_singleton, List.nodup_append_comm, List.singleton_append,
        List.nodup_cons]
      refine ⟨fun hk => ?_, hi.locks⟩
      obtain ⟨other, ho, hs⟩ := List.mem_map.mp hk
      exact hl other ho hs
    held := fun other ho => by
      rcases List.mem_append.mp ho with ho | ho
      · exact hi.held other ho
      · cases List.mem_singleton.mp ho
        exact ⟨hm, hu, he, hc⟩
    pending := fun other ho => by
      rcases List.mem_append.mp ho with ho | ho
      · exact hi.pending other ho
      · cases List.mem_singleton.mp ho
        rw [ha]
        exact ⟨fun hef => absurd ((hi.atomic _ hm hfr).mp hef) hc,
          fun hf => absurd hf Bool.false_ne_true⟩ }

theorem ConfirmSystem.Invariant.outside (hi : pre.Invariant) {tables : OperatorTables}
    (hc : tables.challenges = pre.tables.challenges)
    (hco : tables.consumptions = pre.tables.consumptions) :
    ({ pre with tables := tables } : ConfirmSystem).Invariant := by
  have hcon : ∀ chal, ConfirmSystem.Consumes { pre with tables := tables } chal ↔
      pre.Consumes chal := by
    intro chal
    unfold ConfirmSystem.Consumes
    rw [hco]
  exact {
    hi with
    owned := by
      rw [hc]
      exact hi.owned
    atomic := fun chal hch hf => by
      rw [hc] at hch
      exact (hi.atomic chal hch hf).trans (hcon chal).symm
    ids := by
      rw [hc]
      exact hi.ids
    known := by
      rw [hc, hco]
      exact hi.known
    held := fun call hca => by
      rw [hc, hcon]
      exact hi.held call hca }

variable {rows : List EffectRow}

theorem effects_append_iff (he : post.effected = pre.effected ++ [call.effected rows])
    (chal : Challenge) : post.Effects chal ↔
      pre.Effects chal ∨ call.challenge.challengeId = chal.challengeId := by
  unfold ConfirmSystem.Effects
  rw [he]
  simp only [List.mem_append, List.mem_singleton, or_and_right, exists_or, exists_eq_left,
    ConfirmCall.effected]

theorem consumes_append_iff {consumption : ChallengeConsumption}
    (hc : post.tables.consumptions = pre.tables.consumptions ++ [consumption])
    (chal : Challenge) : post.Consumes chal ↔
      pre.Consumes chal ∨ consumption.challengeId = chal.challengeId := by
  unfold ConfirmSystem.Consumes
  rw [hc]
  simp only [List.mem_append, List.mem_singleton, or_and_right, exists_or, exists_eq_left]

theorem ConfirmSystem.Invariant.once_append (hi : pre.Invariant)
    (hc : call ∈ pre.calls) (ha : call.detached = false) (rows : List EffectRow) :
    ((pre.effected ++ [call.effected rows]).map (·.challengeId)).Nodup := by
  rw [List.map_append, List.map_singleton, List.nodup_append_comm, List.singleton_append,
    List.nodup_cons]
  refine ⟨fun hm => ?_, hi.once⟩
  obtain ⟨effect, he, hs⟩ := List.mem_map.mp hm
  have hd := (hi.pending call hc).mp ⟨effect, he, hs⟩
  rw [ha] at hd
  exact Bool.false_ne_true hd

theorem ConfirmSystem.Invariant.owned_append (hi : pre.Invariant)
    (hc : call ∈ pre.calls) (rows : List EffectRow) :
    ∀ effect ∈ pre.effected ++ [call.effected rows], ∃ chal ∈ pre.tables.challenges,
      chal.challengeId = effect.challengeId ∧ chal.userId = effect.userId ∧
        effect.occurredAt < chal.expiresAt := by
  intro effect he
  rcases List.mem_append.mp he with he | he
  · exact hi.owned effect he
  · cases List.mem_singleton.mp he
    obtain ⟨hm, hu, hexp, -⟩ := hi.held call hc
    exact ⟨call.challenge, hm, rfl, hu, hexp⟩

variable {earlier later : List ConfirmCall}

theorem ConfirmSystem.Invariant.reset (hi : pre.Invariant)
    (hca : pre.calls = earlier ++ call :: later) (hde : call.decided = none)
    (hp : call.challenge.payload = .control .resetAccountSummary) (row : EffectRow) :
    ({ tables := pre.tables.insert row
       calls := earlier ++ { call with decided := some [] } :: later
       effected := pre.effected ++ [call.effected [row]] } : ConfirmSystem).Invariant := by
  have hcall : call ∈ pre.calls := (mem_calls_iff hca).mpr (Or.inl rfl)
  have hr : ∀ other ∈ earlier ++ later, other ∈ pre.calls :=
    fun other ho => (mem_calls_iff hca).mpr (Or.inr ho)
  have hat : call.detached = false := by
    simp [ConfirmCall.detached, hde]
  let resetCall : ConfirmCall := { call with decided := some [] }
  have hd : resetCall.detached = true := by
    simp [resetCall, ConfirmCall.detached, hp]
  let post : ConfirmSystem :=
    { tables := pre.tables.insert row
      calls := earlier ++ resetCall :: later
      effected := pre.effected ++ [call.effected [row]] }
  have ha : post.calls = earlier ++ resetCall :: later := rfl
  have he : ∀ chal, post.Effects chal ↔
      pre.Effects chal ∨ call.challenge.challengeId = chal.challengeId :=
    effects_append_iff rfl
  have hco : ∀ chal, post.Consumes chal ↔ pre.Consumes chal := by
    intro chal
    unfold ConfirmSystem.Consumes
    rw [show post.tables.consumptions = pre.tables.consumptions from
      pre.tables.insert_consumptions row]
  have hu : ∀ chal ∈ pre.tables.challenges, chal ≠ call.challenge →
      (post.Effects chal ↔ pre.Effects chal) := by
    intro chal hc ho
    have hid := hi.challengeId_ne hc (hi.held call hcall).1 ho
    rw [he chal, or_iff_left (Ne.symm hid)]
  exact {
    once := hi.once_append hcall hat [row]
    owned := by
      rw [pre.tables.insert_challenges row]
      exact hi.owned_append hcall [row]
    atomic := fun chal hc hf => by
      rw [pre.tables.insert_challenges row] at hc
      have ho : chal ≠ call.challenge :=
        Ne.symm (hf resetCall ((mem_calls_iff ha).mpr (Or.inl rfl)))
      rw [hu chal hc ho, hco chal]
      refine hi.atomic chal hc fun other hm => ?_
      rcases (mem_calls_iff hca).mp hm with rfl | hm
      · exact Ne.symm ho
      · exact hf other ((mem_calls_iff ha).mpr (Or.inr hm))
    ids := by
      rw [pre.tables.insert_challenges row]
      exact hi.ids
    known := by
      rw [pre.tables.insert_challenges row, pre.tables.insert_consumptions row]
      exact hi.known
    locks := by
      have hl := hi.locks
      rw [hca] at hl
      rw [List.map_append, List.map_cons] at hl ⊢
      exact hl
    held := fun other hm => by
      rw [pre.tables.insert_challenges row, hco other.challenge]
      rcases (mem_calls_iff ha).mp hm with rfl | hm
      · exact hi.held call hcall
      · exact hi.held other (hr other hm)
    pending := fun other hm => by
      rcases (mem_calls_iff ha).mp hm with rfl | hm
      · rw [hd]
        exact iff_of_true ((he call.challenge).mpr (Or.inr rfl)) rfl
      · rw [hu other.challenge (hi.held other (hr other hm)).1 (hi.other_challenge hca hm)]
        exact hi.pending other (hr other hm) }

theorem ConfirmSystem.Invariant.consume (hi : pre.Invariant)
    {effected : List Effected} (hca : pre.calls = earlier ++ call :: later)
    (ha : post = ⟨(pre.tables.insertAll rows).consume call, earlier ++ later, effected⟩)
    (hon : (effected.map (·.challengeId)).Nodup)
    (how : ∀ effect ∈ effected, ∃ chal ∈ pre.tables.challenges,
      chal.challengeId = effect.challengeId ∧ chal.userId = effect.userId ∧
        effect.occurredAt < chal.expiresAt) (he : ∀ chal, post.Effects chal ↔
      pre.Effects chal ∨ call.challenge.challengeId = chal.challengeId) : post.Invariant := by
  subst ha
  have hcall : call ∈ pre.calls := (mem_calls_iff hca).mpr (Or.inl rfl)
  have hr : ∀ other ∈ earlier ++ later, other ∈ pre.calls :=
    fun other ho => (mem_calls_iff hca).mpr (Or.inr ho)
  obtain ⟨hm, -⟩ := hi.held call hcall
  have hcha : ((pre.tables.insertAll rows).consume call).challenges =
      pre.tables.challenges := pre.tables.insertAll_challenges rows
  let post : ConfirmSystem :=
    ⟨(pre.tables.insertAll rows).consume call, earlier ++ later, effected⟩
  have hcon : post.tables.consumptions = pre.tables.consumptions ++ _ :=
    congrArg (· ++ _) (pre.tables.insertAll_consumptions rows)
  have hco := consumes_append_iff hcon
  have ho : ∀ chal ∈ pre.tables.challenges, chal ≠ call.challenge →
      call.challenge.challengeId ≠ chal.challengeId :=
    fun chal hch hne => Ne.symm (hi.challengeId_ne hch hm hne)
  exact {
    once := hon
    owned := by
      rw [hcha]
      exact how
    atomic := fun chal hch hf => by
      rw [hcha] at hch
      rw [he chal, hco chal]
      by_cases hs : chal = call.challenge
      · rw [hs]
        exact iff_of_true (Or.inr rfl) (Or.inr rfl)
      · rw [or_iff_left (ho chal hch hs), or_iff_left (ho chal hch hs)]
        refine hi.atomic chal hch fun other hin => ?_
        rcases (mem_calls_iff hca).mp hin with rfl | hin
        · exact Ne.symm hs
        · exact hf other hin
    ids := by
      rw [hcha]
      exact hi.ids
    known := fun consumption hc => by
      rw [hcha]
      rcases List.mem_append.mp hc with hc | hc
      · rw [pre.tables.insertAll_consumptions rows] at hc
        exact hi.known consumption hc
      · cases List.mem_singleton.mp hc
        exact ⟨call.challenge, hm, rfl⟩
    locks := hi.rest_locks hca
    held := fun other hin => by
      obtain ⟨hh, hus, hexp, hu⟩ := hi.held other (hr other hin)
      have hne := ho other.challenge hh (hi.other_challenge hca hin)
      rw [hcha, hco other.challenge, or_iff_left hne]
      exact ⟨hh, hus, hexp, hu⟩
    pending := fun other hin => by
      have hne := ho other.challenge (hi.held other (hr other hin)).1 (hi.other_challenge hca hin)
      rw [he other.challenge, or_iff_left hne]
      exact hi.pending other (hr other hin) }

theorem ConfirmSystem.Invariant.commit (hi : pre.Invariant)
    (hc : pre.calls = earlier ++ call :: later) :
    (pre.commitCall call rows (earlier ++ later)).Invariant := by
  have hca : call ∈ pre.calls := (mem_calls_iff hc).mpr (Or.inl rfl)
  have hu : pre.tables.consumed call.challenge.challengeId = false :=
    OperatorTables.consumed_eq_false_iff.mpr (hi.held call hca).2.2.2
  unfold ConfirmSystem.commitCall
  rw [if_neg (Bool.eq_false_iff.mp hu)]
  by_cases hd : call.detached = true
  · rw [if_pos hd]
    refine hi.consume hc rfl hi.once hi.owned fun chal => ?_
    refine (or_iff_left_of_imp fun hs => ?_).symm
    obtain ⟨effect, he, hid⟩ := (hi.pending call hca).mpr hd
    exact ⟨effect, he, hid.trans hs⟩
  · rw [if_neg hd]
    exact hi.consume hc rfl (hi.once_append hca (Bool.eq_false_iff.mpr hd) rows)
      (hi.owned_append hca rows) (effects_append_iff rfl)

theorem ConfirmSystem.Invariant.step [HexOrder] {action : ConfirmAction} (hi : pre.Invariant)
    (ha : action.Orderly) (hs : ConfirmStep pre action post) : post.Invariant := by
  cases hs with
  | create hcreate =>
    obtain ⟨hf, rfl⟩ := createChallenge_spec hcreate
    exact hi.create hf
  | begin huser hreadable hlock hfound =>
    obtain ⟨hm, rfl, hn, rfl, he, hu⟩ := pendingChallenge_found hfound
    refine hi.begin hm rfl he hu rfl fun other ho => ?_
    unfold ConfirmCall.lockKey at hlock ⊢
    rw [hn]
    exact hlock other ho
  | finish hcalls hd hrefused =>
    refine hi.remove hcalls ?_
    simp [ConfirmCall.detached, hd]
  | decide hcalls hd hp heffect =>
    refine hi.replace hcalls ?_
    simp [ConfirmCall.detached, hp]
  | reset hcalls hd hp hreset =>
    exact hi.reset hcalls hd hp _
  | commit hcalls hd => exact hi.commit hcalls
  | fail hcalls => exact hi.remove hcalls ha
  | outside hchallenges hconsumptions => exact hi.outside hchallenges hconsumptions

theorem ConfirmRun.invariant [HexOrder] {st : ConfirmSystem}
    (hr : ConfirmRun ConfirmAction.Orderly st) : st.Invariant := by
  induction hr with
  | start hchallenges hconsumptions =>
    exact ConfirmSystem.Invariant.start hchallenges hconsumptions
  | step hr hallowed hstep ih => exact ih.step hallowed hstep

/-- Where no reset fails between its commits, confirmations are one-shot and atomic. -/
theorem confirmations_one_shot [HexOrder] {st : ConfirmSystem}
    (hrun : ConfirmRun ConfirmAction.Orderly st) : st.OneShot :=
  hrun.invariant.toOneShot

end Steps

section FailedReset

local instance failedResetHexOrder : HexOrder := ⟨fun _ => 0⟩

def operatorNonce : String := "0123456789abcdef"

def freshValuation : AccountValuationEvent where
  valuationEventId := .external "valuation"
  observedAt := 0
  exchangeMarginBalanceUsdt := 150
  exchangeAvailableBalanceUsdt := 150
  operatingEnvelopeUsdt := 150
  totalInitialMarginUsdt := 0

def valuedTables : OperatorTables where
  slots := { log := {} }
  valuations := [freshValuation]

def operatorChallenge (action : ControlAction) : Challenge :=
  (ChallengePayload.control action).challenge 7 operatorNonce 5

def operatorCall (action : ControlAction) : ConfirmCall := ⟨operatorChallenge action, 7, 20, none⟩

def challengedTables (action : ControlAction) : OperatorTables :=
  { valuedTables with challenges := [operatorChallenge action] }

theorem operatorCall_begun (allowed : ConfirmAction → Prop) (hcr : allowed .create)
    (hb : allowed .begin) (action : ControlAction) :
    ConfirmRun allowed ⟨challengedTables action, [operatorCall action], []⟩ := by
  have hs : ConfirmRun allowed { tables := valuedTables } := .start rfl rfl
  have hc : ConfirmStep { tables := valuedTables } .create { tables := challengedTables action } :=
    @ConfirmStep.create _ _ (.control action) 7 operatorNonce 5 _ rfl
  have hbe : ConfirmStep { tables := challengedTables action } .begin
      ⟨challengedTables action, [operatorCall action], []⟩ :=
    @ConfirmStep.begin _ _ .control 7 operatorNonce 20 _ (by decide)
      ⟨by decide, by decide, by decide⟩ (fun _ hca => absurd hca List.not_mem_nil)
      (by cases action <;> decide)
  exact (hs.step hcr hc).step hb hbe

def pauseRows : List EffectRow :=
  controlEffect (operatorChallenge .pauseNewEntries).challengeId 7 20 .pauseNewEntries

def pausedCall : ConfirmCall :=
  { operatorCall .pauseNewEntries with decided := some pauseRows }

theorem pause_one_shot :
    (ConfirmSystem.commitCall ⟨challengedTables .pauseNewEntries, [pausedCall], []⟩ pausedCall
      pauseRows []).OneShot := by
  have hb := operatorCall_begun ConfirmAction.Orderly trivial trivial .pauseNewEntries
  have hd : ConfirmStep
      ⟨challengedTables .pauseNewEntries, [operatorCall .pauseNewEntries], []⟩ .decide
      ⟨challengedTables .pauseNewEntries, [pausedCall], []⟩ :=
    @ConfirmStep.decide _ _ [] [] (operatorCall .pauseNewEntries) pauseRows rfl rfl
      (by decide) rfl
  have hc := @ConfirmStep.commit _
    ⟨challengedTables .pauseNewEntries, [pausedCall], []⟩ [] [] pausedCall pauseRows rfl rfl
  have hp := hb.step (by exact trivial) hd
  exact confirmations_one_shot (hp.step (by exact trivial) hc)

def accountReset : PnlReset where
  resetEventId := .pnlReset "telegram:7" 20 (.external "valuation")
  valuationEventId := .external "valuation"
  actorId := "telegram:7"
  envelopeEventId := .envelopeReset 150 150 (.pnlReset "telegram:7" 20 (.external "valuation"))
  operatingEnvelopeUsdt := 150
  exchangeMarginBalanceUsdt := 150
  anchors := []
  occurredAt := 20

theorem failed_reset_unconsumed :
    ¬ ∀ [HexOrder] (st : ConfirmSystem), ConfirmRun (fun _ => True) st → st.OneShot := by
  intro hcl
  let resetCall : ConfirmCall := { operatorCall .resetAccountSummary with decided := some [] }
  let resetTables : OperatorTables :=
    (challengedTables .resetAccountSummary).insert (.pnlReset accountReset)
  let effect : Effected := (operatorCall .resetAccountSummary).effected [.pnlReset accountReset]
  have hb := operatorCall_begun (fun _ => True) trivial trivial .resetAccountSummary
  have hr : ConfirmStep
      ⟨challengedTables .resetAccountSummary, [operatorCall .resetAccountSummary], []⟩ .reset
      ⟨resetTables, [resetCall], [effect]⟩ :=
    @ConfirmStep.reset _ _ [] [] (operatorCall .resetAccountSummary) accountReset rfl rfl rfl
      (by decide)
  have hf : ConfirmStep ⟨resetTables, [resetCall], [effect]⟩ (.fail resetCall)
      ⟨resetTables, [], [effect]⟩ :=
    @ConfirmStep.fail _ ⟨resetTables, [resetCall], [effect]⟩ [] [] resetCall rfl
  have ho := hcl _ ((hb.step trivial hr).step trivial hf)
  have hch : operatorChallenge .resetAccountSummary ∈ resetTables.challenges :=
    List.mem_cons_self
  obtain ⟨consumption, hc, -⟩ := (ho.atomic _ hch
    fun _ hca => absurd hca List.not_mem_nil).mp ⟨effect, List.mem_cons_self, rfl⟩
  exact absurd hc List.not_mem_nil

end FailedReset

end AiQuant.CopyTrading
