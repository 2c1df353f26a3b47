import AiQuant.CopyTrading.Execution

/-! At most one exchange order for each signal.  A run is any sequence of `execute` and
`cancel_pending_increase` calls for one signal, each of which may stop anywhere, with
any answers of the exchange.  Every `place_order` call it makes carries the durable
claim's parameters, and all but the one that follows the claim itself are made only
after the exchange has confirmed, two minutes after the latest submission, that it
does not know the order. -/
namespace AiQuant.CopyTrading
open AiQuant.Lib

def placements (trace : List Asked) : List OrderParameters :=
  trace.filterMap fun asked => match asked.query with
    | .placeOrder parameters => some parameters
    | _ => none

@[simp] theorem placements_append (left right : List Asked) :
    placements (left ++ right) = placements left ++ placements right :=
  List.filterMap_append

def NotPlacing (query : Query) : Prop :=
  ∀ parameters, query ≠ .placeOrder parameters

theorem placements_eq_nil_of_notPlacing {trace : List Asked}
    (hq : ∀ asked ∈ trace, NotPlacing asked.query) : placements trace = [] := by
  unfold placements
  rw [List.filterMap_eq_nil_iff]
  intro asked ha
  split
  · rename_i params hplace
    exact absurd hplace (hq asked ha params)
  · rfl

section Frame

structure SameSubmissions (signalId : Digest) (before after : EventLog) : Prop where
  claims : after.claims.filter (·.signalId = signalId) =
    before.claims.filter (·.signalId = signalId)
  upgrades : after.policyUpgrades.filter (·.signalId = signalId) =
    before.policyUpgrades.filter (·.signalId = signalId)
  submissions : after.submissions.filter (·.signalId = signalId) =
    before.submissions.filter (·.signalId = signalId)

/-- What other processes may do to the journal.  Other signals may be submitted at any
time, and the signal itself as long as nobody has claimed it; no upgrade is added. -/
structure Elsewhere (signalId : Digest) (before after : EventLog) : Prop where
  upgrades : after.policyUpgrades.filter (·.signalId = signalId) =
    before.policyUpgrades.filter (·.signalId = signalId)
  claimed : before.lookup signalId ≠ none → SameSubmissions signalId before after

/-- Any answer, kept in the trace. -/
def AnswersFor (signalId : Digest) (before : World) (query : Query) (reply : query.Reply)
    (after : World) : Prop :=
  after.trace = before.trace ++ [⟨before.log, query, reply⟩] ∧
    Elsewhere signalId before.log after.log

variable {signal : NormalizedSignal} {log post : EventLog}

variable {α : Type}

theorem find?_of_filter_eq {left right : List α} {keep : α → Bool}
    (hf : left.filter keep = right.filter keep) : left.find? keep = right.find? keep := by
  rw [← List.head?_filter, ← List.head?_filter, hf]

theorem SameSubmissions.latestSubmitting_eq (hsa : SameSubmissions signal.signalId log post) :
    post.latestSubmitting signal.signalId = log.latestSubmitting signal.signalId := by
  have hs : ∀ events : List SubmissionEvent,
      events.filter (fun ev => ev.signalId = signal.signalId && ev.state = .submitting) =
        (events.filter (·.signalId = signal.signalId)).filter (·.state = .submitting) := by
    intro events
    rw [List.filter_filter]
    exact List.filter_congr fun ev _ => Bool.and_comm _ _
  simp only [EventLog.latestSubmitting, hs, hsa.submissions]

theorem SameSubmissions.lookup_eq (hsa : SameSubmissions signal.signalId log post) :
    post.lookup signal.signalId = log.lookup signal.signalId := by
  have hc := find?_of_filter_eq hsa.claims
  have hu := find?_of_filter_eq hsa.upgrades
  unfold EventLog.lookup
  rw [hc, hu]
  cases hf : log.claims.find? (·.signalId = signal.signalId) with
  | none => rfl
  | some claim =>
    have hs : claim.signalId = signal.signalId := by simpa using List.find?_some hf
    simp only [Option.map_some, hs, hsa.latestSubmitting_eq]

@[simp] theorem recordSubmission_claims (ev : SubmissionEvent) :
    (log.recordSubmission ev).claims = log.claims := by
  unfold EventLog.recordSubmission
  split <;> rfl

@[simp] theorem recordSubmission_policyUpgrades (ev : SubmissionEvent) :
    (log.recordSubmission ev).policyUpgrades = log.policyUpgrades := by
  unfold EventLog.recordSubmission
  split <;> rfl

theorem latestSubmitting_le_claimedAt {claim : SubmissionClaim} {submittedAt : Time}
    (hl : log.lookup signal.signalId = some claim)
    (hs : log.latestSubmitting signal.signalId = some submittedAt) :
    submittedAt ≤ claim.claimedAt := by
  unfold EventLog.lookup at hl
  rw [Option.map_eq_some_iff] at hl
  obtain ⟨row, hr, rfl⟩ := hl
  have hsi : row.signalId = signal.signalId := by simpa using List.find?_some hr
  simp only [hsi, hs, Option.getD_some]
  exact le_max_right _ _

theorem lookup_eq_none_iff :
    log.lookup signal.signalId = none ↔ ∀ row ∈ log.claims, row.signalId ≠ signal.signalId := by
  simp [EventLog.lookup]

theorem lookup_recordSubmission_eq_none_iff (ev : SubmissionEvent) :
    (log.recordSubmission ev).lookup signal.signalId = none ↔
      log.lookup signal.signalId = none := by
  rw [lookup_eq_none_iff, lookup_eq_none_iff, recordSubmission_claims]

theorem claim_cases (log : EventLog) (row : SubmissionClaimRow) (submitting : SubmissionEvent) :
    log.claim row submitting = (false, log) ∨
      (∀ claim ∈ log.claims, claim.signalId ≠ row.signalId) ∧
        ∃ claimed : EventLog, log.claim row submitting = (true, claimed) ∧
          claimed = { log with
            claims := log.claims ++ [row]
            submissions := log.submissions ++ [submitting] } := by
  unfold EventLog.claim
  split
  · exact Or.inl rfl
  · rename_i hfree
    refine Or.inr ⟨?_, _, rfl, rfl⟩
    intro claim hm heq
    apply hfree
    rw [List.any_eq_true]
    exact ⟨claim, hm, by simp [heq]⟩

def JournalWrite (signalId : Digest) (before after : World) : Prop :=
  after.trace = before.trace ∧
    (after.log = before.log ∨ ∃ event : SubmissionEvent, event.signalId = signalId ∧
      event.state ≠ .submitting ∧ after.log = before.log.recordSubmission event)

def Looking : Query → Prop
  | .clock => True
  | .queryOrder _ _ => True
  | .openOrders _ => True
  | _ => False

abbrev Records {α : Type} (signalId : Digest) (proc : Engine α) : Prop :=
  proc.Within (· = .clock) (JournalWrite signalId)

abbrev Looks {α : Type} (signalId : Digest) (proc : Engine α) : Prop :=
  proc.Within Looking (JournalWrite signalId)

abbrev Quiet {α : Type} (signalId : Digest) (proc : Engine α) : Prop :=
  proc.Within NotPlacing (JournalWrite signalId)

theorem notPlacing_of_looking {qry : Query} (hl : Looking qry) : NotPlacing qry := by
  rintro params rfl
  exact hl

variable {signalId : Digest}

theorem Records.looks {proc : Engine α} (hr : Records signalId proc) : Looks signalId proc := by
  apply hr.mono
  · rintro qry rfl
    trivial
  · exact fun _ _ hw => hw

theorem Looks.quiet {proc : Engine α} (hl : Looks signalId proc) : Quiet signalId proc :=
  hl.mono (fun _ => notPlacing_of_looking) fun _ _ hw => hw

theorem clock_records : Records signalId clock :=
  Proc.within_question.mpr rfl

theorem queryOrder_looks (sym orderId : String) : Looks signalId (queryOrder sym orderId) :=
  Proc.within_question.mpr trivial

theorem openOrders_looks (sym : String) : Looks signalId (openOrders sym) :=
  Proc.within_question.mpr trivial

theorem cancelOrder_quiet (sym orderId : String) : Quiet signalId (cancelOrder sym orderId) :=
  Proc.within_question.mpr (by simp [NotPlacing])

theorem readLog_records (qry : EventLog → α) : Records signalId (readLog qry) :=
  Proc.within_read.mpr fun _ => ⟨rfl, Or.inl rfl⟩

theorem recordNow_records {st : SubmissionState} (filled : Decimal)
    (exchangeOrderId : Option String) (resp : Option OrderResponse)
    (codes : List String) (hs : st ≠ .submitting) :
    Records signalId (recordNow signalId st filled exchangeOrderId resp codes) := by
  apply Proc.within_bind clock_records
  intro time
  apply Proc.within_write.mpr
  intro world
  exact ⟨rfl, Or.inr ⟨_, rfl, hs, rfl⟩⟩

theorem CopyExecutionState.submission_ne_submitting (st : CopyExecutionState) :
    st.submission ≠ .submitting := by
  cases st <;> simp [CopyExecutionState.submission]

section Orders

variable (cfg : ExecutorSettings) (ord : CopyMarketOrder) (orderId : String)

theorem terminationReasons_records (status : String) (codes : List String) :
    Records ord.signal.signalId (terminationReasons ord status codes) := by
  unfold terminationReasons
  split
  · apply Proc.within_bind clock_records
    intro now
    split <;> exact Proc.within_pure
  · exact Proc.within_pure

theorem receiptFromResponse_records (resp : OrderResponse) (reconciled : Bool)
    (codes : List String) : Records ord.signal.signalId
      (receiptFromResponse ord orderId resp reconciled codes) := by
  unfold receiptFromResponse
  split
  · apply Proc.within_bind (recordNow_records _ _ _ _ (by decide))
    intro _
    exact Proc.within_pure
  · apply Proc.within_bind (terminationReasons_records ord _ _)
    intro additional
    apply Proc.within_bind
      (recordNow_records _ _ _ _ (CopyExecutionState.submission_ne_submitting _))
    intro _
    exact Proc.within_pure

theorem queryFillPrice_looks (codes : List String) (retries : ℕ) :
    Looks ord.signal.signalId (queryFillPrice ord orderId codes retries) := by
  induction retries with
  | zero => exact Proc.within_pure
  | succ retries ih =>
    apply Proc.within_bind (queryOrder_looks _ _)
    intro reply
    split
    · exact ih
    · split
      · apply Proc.within_bind (receiptFromResponse_records ord orderId _ _ _).looks
        intro _
        exact Proc.within_pure
      · exact ih

theorem receiptWithImmediateFillPrice_looks (resp : OrderResponse) (reconciled : Bool)
    (codes : List String) : Looks ord.signal.signalId (receiptWithImmediateFillPrice cfg ord orderId
      resp reconciled codes) := by
  apply Proc.within_bind (receiptFromResponse_records ord orderId _ _ _).looks
  intro rcpt
  split
  · apply Proc.within_bind (queryFillPrice_looks ord orderId _ _)
    intro queried
    split
    · exact Proc.within_pure
    · apply Proc.within_bind
        (recordNow_records _ _ _ _ (CopyExecutionState.submission_ne_submitting _)).looks
      intro _
      exact Proc.within_pure
  · exact Proc.within_pure

theorem rejectAndRecord_records (codes : List String) :
    Records ord.signal.signalId (rejectAndRecord ord orderId codes) := by
  apply Proc.within_bind (recordNow_records _ _ _ _ (by decide))
  intro _
  exact Proc.within_pure

theorem unknownAndRecord_records (codes : List String) :
    Records ord.signal.signalId (unknownAndRecord ord orderId codes) := by
  apply Proc.within_bind (recordNow_records _ _ _ _ (by decide))
  intro _
  exact Proc.within_pure

theorem reconcileAfterUncertainSubmit_looks (codes : List String) : Looks ord.signal.signalId
      (reconcileAfterUncertainSubmit cfg ord orderId codes) := by
  apply Proc.within_bind (queryOrder_looks _ _)
  intro reply
  split
  · exact (unknownAndRecord_records ord orderId _).looks
  · exact receiptWithImmediateFillPrice_looks cfg ord orderId _ _ _

theorem submissionDefinitivelyAbsent_looks (error : ProbeError) (claimedAt : Time) :
    Looks ord.signal.signalId (submissionDefinitivelyAbsent ord orderId error claimedAt) := by
  unfold submissionDefinitivelyAbsent
  split
  · apply Proc.within_bind clock_records.looks
    intro now
    split
    · exact Proc.within_pure
    · apply Proc.within_bind (openOrders_looks _)
      intro reply
      split <;> exact Proc.within_pure
  · exact Proc.within_pure

theorem queryCancelled_looks (reasonCode : String) (claimedAt : Time) :
    Looks ord.signal.signalId (do
      match ← queryOrder ord.signal.symbol orderId with
      | .ok resp =>
        receiptWithImmediateFillPrice cfg ord orderId resp true [reasonCode]
      | .error error =>
        if ← submissionDefinitivelyAbsent ord orderId error claimedAt then
          rejectAndRecord ord orderId [reasonCode, "COPY_SUBMISSION_CONFIRMED_ABSENT"]
        else
          unknownAndRecord ord orderId ["COPY_PROTECTED_LIMIT_CANCEL_STATUS_UNKNOWN"]) := by
  apply Proc.within_bind (queryOrder_looks _ _)
  intro queried
  split
  · exact receiptWithImmediateFillPrice_looks cfg ord orderId _ _ _
  · apply Proc.within_bind (submissionDefinitivelyAbsent_looks ord orderId _ _)
    intro absent
    split
    · exact (rejectAndRecord_records ord orderId _).looks
    · exact (unknownAndRecord_records ord orderId _).looks

theorem cancelExisting_quiet (reasonCode : String) (claimedAt : Time) : Quiet ord.signal.signalId
      (cancelExisting cfg ord orderId reasonCode claimedAt) := by
  apply Proc.within_bind (cancelOrder_quiet _ _)
  intro cancelled
  split
  · exact (receiptWithImmediateFillPrice_looks cfg ord orderId _ _ _).quiet
  · exact (queryCancelled_looks cfg ord orderId _ _).quiet

theorem reconcileExisting_quiet (claimedAt : Time) (he : ord.isPersistentEntry = false) :
    Quiet ord.signal.signalId (reconcileExisting cfg ord orderId claimedAt) := by
  apply Proc.within_bind (queryOrder_looks _ _).quiet
  intro queried
  split
  · apply Proc.within_bind (submissionDefinitivelyAbsent_looks ord orderId _ _).quiet
    intro absent
    split
    · rw [he, if_neg (by simp)]
      exact (rejectAndRecord_records ord orderId _).looks.quiet
    · exact Proc.within_pure
  · apply Proc.within_bind clock_records.looks.quiet
    intro now
    split
    · exact cancelExisting_quiet cfg ord orderId _ _
    · exact (receiptWithImmediateFillPrice_looks cfg ord orderId _ _ _).quiet

end Orders

theorem Quiet.placements_eq {proc : Engine α} {world reached : World}
    (hq : Quiet signal.signalId proc)
    (hr : Proc.Reaches (AnswersFor signal.signalId) world proc reached) :
    placements reached.trace = placements world.trace := by
  have hs : proc.Safe (AnswersFor signal.signalId)
      (fun st => placements st.trace = placements world.trace)
      (fun _ st => placements st.trace = placements world.trace) world := by
    apply hq.safe
    · intro pre post hb hw
      rw [hw.1, hb]
    · intro pre qry reply post hb hqu ha
      have has : placements [⟨pre.log, qry, reply⟩] = [] :=
        placements_eq_nil_of_notPlacing (by simpa using hqu)
      rw [ha.1, placements_append, has, List.append_nil, hb]
    · rfl
  exact hs.reaches rfl hr

end Frame

section Run

variable [HexOrder] {signal : NormalizedSignal} {log post : EventLog}

def EventLog.durableParameters (log : EventLog) (signal : NormalizedSignal) :
    Option OrderParameters :=
  (log.lookup signal.signalId).bind fun claim =>
    (claim.restoredOrder signal).map (orderParameters · claim.clientOrderId)

theorem durableParameters_of_tables (hc : post.claims = log.claims)
    (hu : post.policyUpgrades = log.policyUpgrades) :
    post.durableParameters signal = log.durableParameters signal := by
  unfold EventLog.durableParameters EventLog.lookup
  rw [hc, hu]
  cases log.claims.find? (·.signalId = signal.signalId) with
  | none => rfl
  | some claim => rfl

theorem cancelPendingIncrease_quiet (cfg : ExecutorSettings) (signal : NormalizedSignal)
    (reasonCode : String) :
    Quiet signal.signalId (cancelPendingIncrease cfg signal reasonCode) := by
  apply Proc.within_bind (readLog_records _).looks.quiet
  intro found
  split
  · exact Proc.within_pure
  · split
    · exact Proc.within_pure
    · rename_i ord hrestored
      have hs := restoredOrder_signal hrestored
      rw [← hs]
      split
      · exact cancelExisting_quiet cfg ord _ _ _
      · rename_i hm
        apply reconcileExisting_quiet
        simp [CopyMarketOrder.isPersistentEntry, hm]

theorem durableParameters_of_lookup_eq
    (hl : post.lookup signal.signalId = log.lookup signal.signalId) :
    post.durableParameters signal = log.durableParameters signal := by
  unfold EventLog.durableParameters
  rw [hl]

theorem lookup_ne_none_of_durable {params : OrderParameters}
    (hd : log.durableParameters signal = some params) : log.lookup signal.signalId ≠ none := by
  intro hl
  rw [EventLog.durableParameters, hl] at hd
  cases hd

variable {claim : SubmissionClaim}

theorem restoredOrder_claimRow (ord : CopyMarketOrder) (env : BinanceFuturesEnvironment)
    (hcl : claim = {
      signalId := ord.signal.signalId
      clientOrderId := copyClientOrderId ord.signal.signalId env
      requestHash := ord.requestHash (copyClientOrderId ord.signal.signalId env)
      requestHashVersion := 2
      requestedQuantity := some ord.localQuantity
      leverage := some ord.leverage
      orderType := ord.orderType
      limitPrice := ord.limitPrice
      expiresAt := ord.expiresAt
      claimedAt := claim.claimedAt
      policyUpgraded := false }) :
    claim.restoredOrder ord.signal = some ord := by
  have hc : CopyMarketOrder.create ord.signal ord.localQuantity ord.leverage
      ord.orderType ord.limitPrice ord.expiresAt = some ord := by
    unfold CopyMarketOrder.create
    rw [dif_pos ⟨ord.localQuantity_pos, ord.leverage_pos, ord.leverage_le, ord.policy⟩]
  have ha : copyClientOrderId ord.signal.signalId env ∈
      allowedClientOrderIds ord.signal.signalId false := by
    cases env <;> simp [allowedClientOrderIds]
  rw [hcl]
  simp [SubmissionClaim.restoredOrder, ha, hc, Option.filter]

variable {ord : CopyMarketOrder} {now : Time}

theorem claim_lookup (env : BinanceFuturesEnvironment) {submitting : SubmissionEvent}
    (hup : log.policyUpgrades.filter (·.signalId = ord.signal.signalId) = [])
    (hc : log.claim (claimRow ord (copyClientOrderId ord.signal.signalId env) now)
      submitting = (true, post)) : log.lookup ord.signal.signalId = none ∧
      ∃ claim : SubmissionClaim, post.lookup ord.signal.signalId = some claim ∧
        claim.clientOrderId = copyClientOrderId ord.signal.signalId env ∧
        claim.requestedQuantity = some ord.localQuantity ∧
        claim.restoredOrder ord.signal = some ord := by
  rcases claim_cases log (claimRow ord
      (copyClientOrderId ord.signal.signalId env) now) submitting with
    hl | ⟨hu, claimed, hw, hr⟩
  · rw [hl] at hc
    cases hc
  obtain rfl : claimed = post := by
    rw [hw] at hc
    exact (Prod.mk.inj hc).2
  subst hr
  have hu : ∀ claim ∈ log.claims, claim.signalId ≠ ord.signal.signalId := hu
  refine ⟨lookup_eq_none_iff.mpr hu, ?_⟩
  have hf : (log.claims ++ [claimRow ord (copyClientOrderId ord.signal.signalId env) now]).find?
        (·.signalId = ord.signal.signalId) =
      some (claimRow ord (copyClientOrderId ord.signal.signalId env) now) := by
    rw [List.find?_append, List.find?_eq_none.mpr (by simpa using hu)]
    simp [claimRow]
  have hupg : log.policyUpgrades.find? (·.signalId = ord.signal.signalId) = none := by
    rw [← List.head?_filter, hup]
    rfl
  simp only [EventLog.lookup, hf, hupg, Option.map_some]
  exact ⟨_, rfl, rfl, rfl, restoredOrder_claimRow ord env rfl⟩

theorem claim_durableParameters (env : BinanceFuturesEnvironment) {submitting : SubmissionEvent}
    (hu : log.policyUpgrades.filter (·.signalId = ord.signal.signalId) = [])
    (hcl : log.claim (claimRow ord (copyClientOrderId ord.signal.signalId env) now)
      submitting = (true, post)) :
    log.lookup ord.signal.signalId = none ∧ post.durableParameters ord.signal =
        some (orderParameters ord (copyClientOrderId ord.signal.signalId env)) := by
  obtain ⟨hf, claim, hl, hc, -, hr⟩ :=
    claim_lookup env hu hcl
  refine ⟨hf, ?_⟩
  rw [EventLog.durableParameters, hl, Option.bind_some, hr, hc]
  rfl

/-- The placement that follows a successful claim: nothing has been placed before, and
it is asked on the very log that the claim produced. -/
def FollowsClaim (signal : NormalizedSignal) (before : List Asked) (log : EventLog)
    (parameters : OrderParameters) : Prop :=
  placements before = [] ∧ ∃ (order : CopyMarketOrder) (now : Time) (unclaimed : EventLog),
    order.signal = signal ∧ parameters = orderParameters order parameters.newClientOrderId ∧
      unclaimed.claim (claimRow order parameters.newClientOrderId now)
        (submissionEvent signal.signalId .submitting now 0 none none []) = (true, log)

/-- A placement made again: for an entry without an expiry, after the exchange has
answered that it does not know the order, two minutes after the latest submission, and
does not list it. -/
def Resubmitted (signal : NormalizedSignal) (before : List Asked)
    (parameters : OrderParameters) : Prop :=
  (signal.kind = .increase ∧ parameters.orderType = .limit ∧
    parameters.timeInForce = some .gtc) ∧
  ∃ (earlier : List Asked) (queried timed listed recorded leveraged : EventLog)
    (now submittedAt : Time) (openIds : List JsonText) (leverage : ℕ),
    before = earlier ++
      [⟨queried, .queryOrder signal.symbol parameters.newClientOrderId,
          .error (.http "QUERY_ORDER" 400 (-2013))⟩,
        ⟨timed, .clock, now⟩,
        ⟨listed, .openOrders signal.symbol, .ok openIds⟩,
        ⟨recorded, .clock, submittedAt⟩,
        ⟨leveraged, .changeInitialLeverage signal.symbol leverage, .ok ()⟩] ∧
    (∀ submitted, timed.latestSubmitting signal.signalId = some submitted →
      submitted + absenceConfirmationDelay ≤ now) ∧
    .text parameters.newClientOrderId ∉ openIds

structure SubmissionInvariant (signal : NormalizedSignal) (world : World) : Prop where
  upgraded : world.log.lookup signal.signalId = none →
    world.log.policyUpgrades.filter (·.signalId = signal.signalId) = []
  durable : ∀ parameters ∈ placements world.trace,
    world.log.durableParameters signal = some parameters
  justified : ∀ before asked after parameters, world.trace = before ++ asked :: after →
    asked.query = .placeOrder parameters →
    asked.log.durableParameters signal = some parameters ∧
      (FollowsClaim signal before asked.log parameters ∨ Resubmitted signal before parameters)

variable {world reached : World}

theorem SubmissionInvariant.of_quiet (hi : SubmissionInvariant signal world)
    {suffix : List Asked} (ht : reached.trace = world.trace ++ suffix)
    (hq : ∀ asked ∈ suffix, NotPlacing asked.query)
    (hu : reached.log.policyUpgrades.filter (·.signalId = signal.signalId) =
      world.log.policyUpgrades.filter (·.signalId = signal.signalId))
    (hl : world.log.lookup signal.signalId ≠ none → reached.log.lookup signal.signalId ≠ none ∧
        reached.log.durableParameters signal = world.log.durableParameters signal) :
    SubmissionInvariant signal reached := by
  have hpl := placements_eq_nil_of_notPlacing hq
  constructor
  · intro hn
    rw [hu]
    apply hi.upgraded
    by_contra hclaimed
    exact (hl hclaimed).1 hn
  · intro params hm
    rw [ht, placements_append, hpl, List.append_nil] at hm
    have hd := hi.durable params hm
    rw [(hl (lookup_ne_none_of_durable hd)).2, hd]
  · intro pre asked post params hs hp
    rw [ht] at hs
    rcases List.append_eq_append_iff.mp hs with ⟨mid, hb, hsu⟩ | ⟨mid, hw, haf⟩
    · have ha : asked ∈ suffix := by
        rw [hsu]
        simp
      exact absurd hp (hq asked ha params)
    · cases mid with
      | nil =>
        have ha : asked ∈ suffix := by
          rw [← List.nil_append suffix, ← haf]
          simp
        exact absurd hp (hq asked ha params)
      | cons head rest =>
        obtain ⟨rfl, -⟩ := List.cons.inj haf
        exact hi.justified pre _ rest params hw hp

theorem SubmissionInvariant.of_log (hi : SubmissionInvariant signal world)
    (hu : log.policyUpgrades.filter (·.signalId = signal.signalId) =
      world.log.policyUpgrades.filter (·.signalId = signal.signalId))
    (hl : world.log.lookup signal.signalId ≠ none → log.lookup signal.signalId ≠ none ∧
        log.durableParameters signal = world.log.durableParameters signal) :
    SubmissionInvariant signal { world with log := log } := by
  have ht : ({ world with log := log } : World).trace = world.trace ++ [] :=
    (List.append_nil _).symm
  exact hi.of_quiet ht (by simp) hu hl

theorem SubmissionInvariant.recorded (hi : SubmissionInvariant signal world)
    (ev : SubmissionEvent) :
    SubmissionInvariant signal { world with log := world.log.recordSubmission ev } := by
  apply hi.of_log
  · rw [recordSubmission_policyUpgrades]
  · intro hc
    exact ⟨fun hn => hc ((lookup_recordSubmission_eq_none_iff ev).mp hn),
      durableParameters_of_tables (recordSubmission_claims ev)
        (recordSubmission_policyUpgrades ev)⟩

theorem Elsewhere.keeps (he : Elsewhere signal.signalId log post)
    (hc : log.lookup signal.signalId ≠ none) : post.lookup signal.signalId ≠ none ∧
      post.durableParameters signal = log.durableParameters signal := by
  have hl := (he.claimed hc).lookup_eq
  exact ⟨hl ▸ hc, durableParameters_of_lookup_eq hl⟩

theorem SubmissionInvariant.answered (hi : SubmissionInvariant signal world)
    {qry : Query} {reply : qry.Reply} (hq : NotPlacing qry)
    (ha : AnswersFor signal.signalId world qry reply reached) :
    SubmissionInvariant signal reached :=
  hi.of_quiet ha.1 (by simpa using hq) ha.2.upgrades ha.2.keeps

theorem SubmissionInvariant.placed (hi : SubmissionInvariant signal world)
    {params : OrderParameters} {reply : Except ProbeError OrderResponse}
    (han : AnswersFor signal.signalId world (.placeOrder params) reply reached)
    (hd : world.log.durableParameters signal = some params)
    (hr : FollowsClaim signal world.trace world.log params ∨
      Resubmitted signal world.trace params) : SubmissionInvariant signal reached := by
  obtain ⟨ht, he⟩ := han
  obtain ⟨hc, hsa⟩ := he.keeps (lookup_ne_none_of_durable hd)
  constructor
  · exact fun hn => absurd hn hc
  · intro placed hmem
    rw [ht, placements_append, List.mem_append] at hmem
    rw [hsa]
    rcases hmem with hmem | hmem
    · exact hi.durable placed hmem
    · rw [hd, List.mem_singleton.mp (show placed ∈ [params] from hmem)]
  · intro pre asked post placed hs hp
    rw [ht] at hs
    rcases List.append_eq_append_iff.mp hs with ⟨mid, hb, hl⟩ | ⟨mid, hw, ha⟩
    · have hm : mid = [] ∧ asked = ⟨world.log, .placeOrder params, reply⟩ := by
        cases mid with
        | nil => exact ⟨rfl, (List.cons.inj hl).1.symm⟩
        | cons head rest => simp at hl
      obtain ⟨rfl, rfl⟩ := hm
      cases hp
      rw [hb, List.append_nil]
      exact ⟨hd, hr⟩
    · cases mid with
      | nil =>
        rw [List.nil_append] at ha
        obtain ⟨rfl, -⟩ := List.cons.inj ha
        cases hp
        rw [← List.append_nil pre, ← hw]
        exact ⟨hd, hr⟩
      | cons head rest =>
        obtain ⟨rfl, -⟩ := List.cons.inj ha
        exact hi.justified pre _ rest placed hw hp

theorem SubmissionInvariant.quiet {α : Type} {proc : Engine α}
    (hi : SubmissionInvariant signal world) (hq : Quiet signal.signalId proc) :
    proc.Safe (AnswersFor signal.signalId) (SubmissionInvariant signal)
      (fun _ => SubmissionInvariant signal) world := by
  apply hq.safe
  · rintro ⟨pre, trace⟩ ⟨post, _⟩ hb ⟨rfl, hl | ⟨ev, -, -, hl⟩⟩
    · obtain rfl : post = pre := hl
      exact hb
    · obtain rfl : post = pre.recordSubmission ev := hl
      exact hb.recorded ev
  · intro pre qry reply post hb hqu ha
    exact hb.answered hqu ha
  · exact hi

variable (cfg : ExecutorSettings)

theorem placeAndReconcile_safe {orderId : String} (codes : List String) (hs : ord.signal = signal)
    (hi : SubmissionInvariant signal world)
    (hd : world.log.durableParameters signal = some (orderParameters ord orderId))
    (hr : FollowsClaim signal world.trace world.log (orderParameters ord orderId) ∨
      Resubmitted signal world.trace (orderParameters ord orderId)) :
    (placeAndReconcile cfg ord orderId codes).Safe
      (AnswersFor signal.signalId) (SubmissionInvariant signal)
      (fun _ => SubmissionInvariant signal) world := by
  subst hs
  unfold placeAndReconcile placeOrder
  rw [Proc.safe_bind, Proc.safe_question]
  intro reply answered ha
  have hp := hi.placed ha hd hr
  refine ⟨hp, ?_⟩
  split
  · dsimp only
    split
    · exact hp.quiet (rejectAndRecord_records ord orderId _).looks.quiet
    · exact hp.quiet (reconcileAfterUncertainSubmit_looks cfg ord orderId _).quiet
  · exact hp.quiet (receiptWithImmediateFillPrice_looks cfg ord orderId _ _ _).quiet

theorem resubmitPersistentEntry_safe {orderId : String}
    {earlier : List Asked} {queried timed listed : EventLog}
    {openIds : List JsonText} (he : ord.isPersistentEntry = true)
    (hs : ord.signal = signal) (hi : SubmissionInvariant signal world)
    (hd : world.log.durableParameters signal = some (orderParameters ord orderId))
    (ht : world.trace = earlier ++ [⟨queried, .queryOrder signal.symbol orderId,
          .error (.http "QUERY_ORDER" 400 (-2013))⟩,
        ⟨timed, .clock, now⟩, ⟨listed, .openOrders signal.symbol, .ok openIds⟩])
    (hw : ∀ submitted, timed.latestSubmitting signal.signalId = some submitted →
      submitted + absenceConfirmationDelay ≤ now) (hab : .text orderId ∉ openIds) :
    (resubmitPersistentEntry cfg ord orderId).Safe (AnswersFor signal.signalId)
      (SubmissionInvariant signal) (fun _ => SubmissionInvariant signal) world := by
  subst hs
  simp only [CopyMarketOrder.isPersistentEntry, Bool.and_eq_true, decide_eq_true_eq,
    Option.isNone_iff_eq_none] at he
  obtain ⟨⟨hk, hli⟩, hexp⟩ := he
  simp only [resubmitPersistentEntry, recordNow, clock, writeLog, changeInitialLeverage,
    Proc.safe_bind, Proc.safe_question, Proc.safe_write]
  intro submittedAt asked ha
  have hi := hi.answered (by simp [NotPlacing]) ha
  have has := ha.2.keeps (lookup_ne_none_of_durable hd)
  refine ⟨hi, ?_⟩
  have hi := hi.recorded (submissionEvent ord.signal.signalId .submitting
    submittedAt 0 none none [resubmittedReason])
  refine ⟨hi, ?_⟩
  intro reply leveraged hl
  have hr : (asked.log.recordSubmission (submissionEvent ord.signal.signalId .submitting
      submittedAt 0 none none [resubmittedReason])).durableParameters ord.signal =
      some (orderParameters ord orderId) := by
    rw [durableParameters_of_tables (recordSubmission_claims _)
      (recordSubmission_policyUpgrades _), has.2, hd]
  have hi := hi.answered (by simp [NotPlacing]) hl
  refine ⟨hi, ?_⟩
  split
  · exact Proc.safe_halt
  · have hdu : leveraged.log.durableParameters ord.signal = some (orderParameters ord orderId) :=
      (hl.2.keeps (lookup_ne_none_of_durable hr)).2.trans hr
    apply placeAndReconcile_safe cfg _ rfl hi hdu
    right
    refine ⟨⟨hk, hli, by simp [orderParameters, hli, hexp]⟩, ?_⟩
    refine ⟨earlier, queried, timed, listed, world.log,
      asked.log.recordSubmission (submissionEvent ord.signal.signalId .submitting submittedAt 0
        none none [resubmittedReason]), now, submittedAt, openIds, ord.leverage, ?_, hw,
      hab⟩
    rw [hl.1, ha.1, ht]
    simp [orderParameters]

theorem reconcileExisting_safe (hi : SubmissionInvariant signal world)
    (hlo : world.log.lookup signal.signalId = some claim)
    (hr : claim.restoredOrder signal = some ord) :
    (reconcileExisting cfg ord claim.clientOrderId claim.claimedAt).Safe
      (AnswersFor signal.signalId) (SubmissionInvariant signal)
      (fun _ => SubmissionInvariant signal) world := by
  obtain rfl := restoredOrder_signal hr
  by_cases he : ord.isPersistentEntry = true
  swap
  · exact hi.quiet (reconcileExisting_quiet cfg ord _ _ (by simpa using he))
  have hd : ∀ {log : EventLog}, log.lookup ord.signal.signalId = some claim →
      log.durableParameters ord.signal = some (orderParameters ord claim.clientOrderId) := by
    intro log hlo
    simp [EventLog.durableParameters, hlo, hr]
  -- As long as the claim is read, other processes leave it alone.
  have hk : ∀ {pre post : World} {qry : Query} {reply : qry.Reply},
      pre.log.lookup ord.signal.signalId = some claim →
        AnswersFor ord.signal.signalId pre qry reply post →
        post.log.lookup ord.signal.signalId = some claim := by
    intro pre post qry reply hb ha
    rw [(ha.2.claimed (by simp [hb])).lookup_eq, hb]
  unfold reconcileExisting queryOrder
  rw [Proc.safe_bind, Proc.safe_question]
  intro reply queried hqu
  have hi := hi.answered (by simp [NotPlacing]) hqu
  refine ⟨hi, ?_⟩
  have hq := hk hlo hqu
  cases reply with
  | ok resp =>
    apply hi.quiet
    apply Proc.within_bind clock_records.looks.quiet
    intro now
    split
    · exact cancelExisting_quiet cfg ord _ _ _
    · exact (receiptWithImmediateFillPrice_looks cfg ord _ _ _ _).quiet
  | error error =>
    dsimp only
    rw [Proc.safe_bind]
    unfold submissionDefinitivelyAbsent
    split
    swap
    · exact hi
    rename_i hmissing
    obtain rfl : error = .http "QUERY_ORDER" 400 (-2013) := by
      simpa [queryReportsOrderMissing] using hmissing
    simp only [clock, openOrders, Proc.safe_bind, Proc.safe_question]
    intro now timed ht
    have hi := hi.answered (by simp [NotPlacing]) ht
    have hti := hk hq ht
    refine ⟨hi, ?_⟩
    split
    · exact hi
    rename_i hwaited
    rw [not_or, not_lt, not_lt] at hwaited
    rw [Proc.safe_bind, Proc.safe_question]
    intro listing listed hl
    have hi := hi.answered (by simp [NotPlacing]) hl
    refine ⟨hi, ?_⟩
    cases listing with
    | error _ => exact hi
    | ok openIds =>
      rw [Proc.safe_pure]
      by_cases ho : openIds.any (· = .text claim.clientOrderId) = true
      · simpa [ho] using hi
      · simp only [ho, Bool.not_false, if_true]
        apply resubmitPersistentEntry_safe cfg he rfl hi (hd (hk hti hl))
        · rw [hl.1, ht.1, hqu.1]
          simp only [List.append_assoc, List.cons_append, List.nil_append]
          rfl
        · intro submitted hs
          have hla := latestSubmitting_le_claimedAt hq hs
          calc submitted + absenceConfirmationDelay
              ≤ claim.claimedAt + absenceConfirmationDelay := by gcongr
            _ ≤ claim.claimedAt + (now - claim.claimedAt) := by gcongr; exact hwaited.2
            _ = now := by ring
        · intro hm
          apply ho
          rw [List.any_eq_true]
          exact ⟨_, hm, by simp⟩

theorem reconcileClaim_safe (hs : ord.signal = signal) (hi : SubmissionInvariant signal world)
    (hl : world.log.lookup signal.signalId = some claim) :
    (reconcileClaim cfg ord claim).Safe (AnswersFor signal.signalId)
      (SubmissionInvariant signal) (fun _ => SubmissionInvariant signal) world := by
  subst hs
  unfold reconcileClaim
  split
  · exact hi.quiet (unknownAndRecord_records ord _ _).looks.quiet
  · rename_i restored hrestored
    exact reconcileExisting_safe cfg hi hl hrestored

theorem SubmissionInvariant.placements_eq_nil (hi : SubmissionInvariant signal world)
    (hl : world.log.lookup signal.signalId = none) : placements world.trace = [] := by
  rw [List.eq_nil_iff_forall_not_mem]
  intro params hm
  exact lookup_ne_none_of_durable (hi.durable params hm) hl

theorem submitOrder_safe (hs : ord.signal = signal) (hi : SubmissionInvariant signal world) :
    (submitOrder cfg ord (copyClientOrderId signal.signalId cfg.environment)).Safe
      (AnswersFor signal.signalId) (SubmissionInvariant signal)
      (fun _ => SubmissionInvariant signal) world := by
  subst hs
  simp only [submitOrder, claimSubmission, clock, Proc.safe_bind, Proc.safe_question,
    Proc.safe_transact]
  intro now timed ht
  have hi := hi.answered (by simp [NotPlacing]) ht
  refine ⟨hi, ?_⟩
  rcases claim_cases timed.log (claimRow ord
      (copyClientOrderId ord.signal.signalId cfg.environment) now)
      (submissionEvent ord.signal.signalId .submitting now 0 none none []) with
    hl | ⟨hu, claimed, hw, hr⟩
  · rw [hl]
    refine ⟨hi, ?_⟩
    simp only [Bool.false_eq_true, if_false, readLog, Proc.safe_bind, Proc.safe_read]
    refine ⟨hi, ?_⟩
    split
    · exact hi
    · rename_i existing hexisting
      exact reconcileClaim_safe cfg rfl hi hexisting
  · have hu := lookup_eq_none_iff.mpr hu
    obtain ⟨-, hd⟩ := claim_durableParameters cfg.environment (hi.upgraded hu) hw
    have hp := hi.placements_eq_nil hu
    have hc : SubmissionInvariant ord.signal { timed with log := claimed } :=
      hi.of_log (by rw [hr]) fun hf => absurd hu hf
    rw [hw]
    refine ⟨hc, ?_⟩
    rw [if_pos rfl]
    apply placeAndReconcile_safe cfg _ rfl hc hd
    exact Or.inl ⟨hp, ord, now, timed.log, rfl, rfl, hw⟩

theorem execute_safe (hs : ord.signal = signal)
    (riskDecision : AccountRiskDecision) (hi : SubmissionInvariant signal world) :
    (execute cfg ord riskDecision).Safe (AnswersFor signal.signalId)
      (SubmissionInvariant signal) (fun _ => SubmissionInvariant signal) world := by
  subst hs
  simp only [execute, readLog, Proc.safe_bind, Proc.safe_read]
  refine ⟨hi, ?_⟩
  split
  · rename_i existing hexisting
    exact reconcileClaim_safe cfg rfl hi hexisting
  split
  · exact hi
  simp only [positionMode, Proc.safe_bind, Proc.safe_question]
  intro mode asked ha
  have hi := hi.answered (by simp [NotPlacing]) ha
  refine ⟨hi, ?_⟩
  split
  · exact Proc.safe_halt
  · exact hi
  split
  · simp only [changeInitialLeverage, Proc.safe_bind, Proc.safe_question]
    intro reply leveraged hl
    have hi := hi.answered (by simp [NotPlacing]) hl
    refine ⟨hi, ?_⟩
    split
    · exact Proc.safe_halt
    · exact submitOrder_safe cfg rfl hi
  · simp only [positionRisk, Proc.safe_bind, Proc.safe_question]
    intro positions listed hli
    have hi := hi.answered (by simp [NotPlacing]) hli
    refine ⟨hi, ?_⟩
    split
    · exact Proc.safe_halt
    split
    · exact Proc.safe_halt
    · exact submitOrder_safe cfg rfl hi
    · exact hi

/-- The worlds that any sequence of calls for one signal reaches from a log.  Every call
may run under settings of its own and may stop anywhere. -/
inductive SubmissionRun (signal : NormalizedSignal) (start : EventLog) : World → Prop
  | start : SubmissionRun signal start ⟨start, []⟩
  | execute {world reached : World} (hrun : SubmissionRun signal start world)
      (settings : ExecutorSettings) (order : CopyMarketOrder) (hsignal : order.signal = signal)
      (riskDecision : AccountRiskDecision)
      (hcall : Proc.Reaches (AnswersFor signal.signalId) world
        (AiQuant.CopyTrading.execute settings order riskDecision) reached) :
      SubmissionRun signal start reached
  | cancel {world reached : World} (hrun : SubmissionRun signal start world)
      (settings : ExecutorSettings) (reasonCode : String)
      (hcall : Proc.Reaches (AnswersFor signal.signalId) world
        (cancelPendingIncrease settings signal reasonCode) reached) :
      SubmissionRun signal start reached
  | elsewhere {world : World} (hrun : SubmissionRun signal start world) {log : EventLog}
      (helsewhere : Elsewhere signal.signalId world.log log) :
      SubmissionRun signal start { world with log := log }

theorem SubmissionRun.invariant {start : EventLog}
    (hf : ∀ upgrade ∈ start.policyUpgrades, ∃ claim ∈ start.claims,
      claim.signalId = upgrade.signalId)
    (hr : SubmissionRun signal start world) : SubmissionInvariant signal world := by
  induction hr with
  | start =>
    constructor
    · intro hl
      rw [List.filter_eq_nil_iff]
      intro upgrade hu hs
      obtain ⟨claim, hc, heq⟩ := hf upgrade hu
      exact lookup_eq_none_iff.mp hl claim hc (heq.trans (by simpa using hs))
    · intro params hm
      cases hm
    · intro pre asked post params hsp
      simp at hsp
  | execute _ cfg ord hs riskDecision hcall ih =>
    exact (execute_safe cfg hs riskDecision ih).reaches ih hcall
  | cancel _ cfg reasonCode hcall ih =>
    exact (ih.quiet (cancelPendingIncrease_quiet cfg signal reasonCode)).reaches ih hcall
  | elsewhere _ helsewhere ih => exact ih.of_log helsewhere.upgrades helsewhere.keeps

/-- At most one exchange order for a signal.  Every placement of a run carries the
parameters and the client order id of the durable claim; it follows the claim itself or
is a confirmed resubmission; and cancelling places nothing. -/
theorem one_order_per_signal {start : EventLog}
    (hforeign : ∀ upgrade ∈ start.policyUpgrades, ∃ claim ∈ start.claims,
      claim.signalId = upgrade.signalId) (hrun : SubmissionRun signal start world) :
    (∀ pre asked post params, world.trace = pre ++ asked :: post →
      asked.query = .placeOrder params → asked.log.durableParameters signal = some params ∧
        world.log.durableParameters signal = some params ∧
        (FollowsClaim signal pre asked.log params ∨
          Resubmitted signal pre params)) ∧
      ∀ (cfg : ExecutorSettings) (reasonCode : String) (reached : World),
        Proc.Reaches (AnswersFor signal.signalId) world
          (cancelPendingIncrease cfg signal reasonCode) reached →
        placements reached.trace = placements world.trace := by
  have hi := hrun.invariant hforeign
  constructor
  · intro pre asked post params hs hp
    obtain ⟨hd, hre⟩ := hi.justified pre asked post params hs hp
    refine ⟨hd, hi.durable params ?_, hre⟩
    rw [placements, List.mem_filterMap]
    exact ⟨asked, by simp [hs], by simp [hp]⟩
  · intro cfg reasonCode reached hr
    exact (cancelPendingIncrease_quiet cfg signal reasonCode).placements_eq hr

end Run

section LostEntry

local instance lostEntryHexOrder : HexOrder := ⟨fun _ => 0⟩

def lostSignal : NormalizedSignal where
  signalId := .external "lost"
  sourceEventKey := .external "lost"
  sourceIdentityKey := .external "lost"
  leadPortfolioId := "1"
  symbol := "BTCUSDT"
  positionSide := .long
  kind := .increase
  sourceDeltaQuantity := 1
  sourceCumulativeQuantity := 1
  referencePrice := 100
  occurredAtMs := 1767225599000

def lostOrder : CopyMarketOrder where
  signal := lostSignal
  localQuantity := 1
  leverage := 10
  orderType := .limit
  limitPrice := some 100
  expiresAt := none
  localQuantity_pos := by decide
  leverage_pos := by decide
  leverage_le := by decide
  policy := by decide

def lostReply (trace : List Asked) : (query : Query) → query.Reply
  | .clock => 1767225600000000 + 60000000 * (trace.length : ℤ)
  | .positionMode => .ok true
  | .changeInitialLeverage _ _ => .ok ()
  | .positionRisk _ => .ok []
  | .placeOrder _ => .error (.other "timeout")
  | .queryOrder _ _ => .error (.http "QUERY_ORDER" 400 (-2013))
  | .cancelOrder _ _ => .error (.other "timeout")
  | .openOrders _ => .ok []
  | .symbolRules _ => .error .probe
  | .accountSnapshot _ => .error .probe

def lostAnswer (world : World) (query : Query) : query.Reply × World :=
  (lostReply world.trace query,
    { world with trace := world.trace ++ [⟨world.log, query, lostReply world.trace query⟩] })

theorem answersFor_lostAnswer (signalId : Digest) (world : World) (qry : Query) :
    AnswersFor signalId world qry (lostAnswer world qry).1 (lostAnswer world qry).2 :=
  ⟨rfl, rfl, fun _ => ⟨rfl, rfl, rfl⟩⟩

def permitted : AccountRiskDecision := ⟨true, false, false, []⟩

def lostOnce : World := ((execute {} lostOrder permitted).run lostAnswer ⟨{}, []⟩).2
def lostTwice : World := ((execute {} lostOrder permitted).run lostAnswer lostOnce).2

theorem submissionRun_lostTwice : SubmissionRun lostSignal {} lostTwice :=
  .execute (.execute .start {} lostOrder rfl permitted
    (Proc.reaches_run (answersFor_lostAnswer _))) {} lostOrder rfl permitted
    (Proc.reaches_run (answersFor_lostAnswer _))

/-- The first placement is lost, the second is the confirmed resubmission of the same
order. -/
theorem lost_entry_resubmitted : placements lostTwice.trace = [orderParameters lostOrder
        (copyClientOrderId lostSignal.signalId .testnet),
      orderParameters lostOrder (copyClientOrderId lostSignal.signalId .testnet)] ∧
      ∀ pre asked post params, lostTwice.trace = pre ++ asked :: post →
        asked.query = .placeOrder params → asked.log.durableParameters lostSignal = some params ∧
          lostTwice.log.durableParameters lostSignal = some params ∧
          (FollowsClaim lostSignal pre asked.log params ∨
            Resubmitted lostSignal pre params) :=
  ⟨by decide, (one_order_per_signal (by simp) submissionRun_lostTwice).1⟩

end LostEntry

end AiQuant.CopyTrading
