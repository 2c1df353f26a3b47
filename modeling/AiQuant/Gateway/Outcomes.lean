import AiQuant.Gateway.SendRun

/-! Runs of the gateway: at most one send a call, under a matching grant, with one journaled
outcome or a latched gateway; and when what is journaled about a send is true. -/
namespace AiQuant.Gateway

open AiQuant.Lib
open AiQuant.Lib.Proc (Traces)

/-- A completed call; `final` is the state it left. -/
structure Served where
  message : GatewayMessage
  peer : PeerCredentials
  events : List GatewayEvent
  value : Except Raised GatewaySendResult
  final : GatewayState

/-- The gateway serves one message after the other. -/
inductive SendConfig.Serves (config : SendConfig) : GatewayState → List Served → Prop
  | nil {state : GatewayState} : Serves config state []
  | cons {state : GatewayState} {served : Served} {later : List Served}
      (hcall : Traces state (config.call served.message served.peer) served.events served.value
        served.final)
      (hlater : Serves config served.final later) : Serves config state (served :: later)

variable {config : SendConfig} {st final : GatewayState} {events : List GatewayEvent}
  {value : Except Raised GatewaySendResult}

variable {later : List Served} {served : Served}

theorem serves_split {pre : List Served} (hs : config.Serves st (pre ++ served :: later)) :
    ∃ reached, Traces reached (config.call served.message served.peer) served.events served.value
      served.final ∧ config.Serves served.final later := by
  induction pre generalizing st with
  | nil =>
    rcases hs with _ | ⟨hc, hl⟩
    exact ⟨st, hc, hl⟩
  | cons first pre ih =>
    rcases hs with _ | ⟨_, hl⟩
    exact ih hl

def DeniedBeforeConsume (served : Served) : Prop :=
  consumes served.events = [] ∧
    ∃ result, served.value = .ok result ∧ result.status = .deniedBeforeConsume

variable {message : GatewayMessage}

theorem call_latched {peer : PeerCredentials} (hl : st.outcomeJournalFailed = true)
    (hc : Traces st (config.call message peer) events value final) :
    final = st ∧ consumes events = [] ∧
      ∃ result, value = .ok result ∧ result.status = .deniedBeforeConsume := by
  cases call_cases hc with
  | overflowed ho => rw [hl] at ho; cases ho
  | refused hs => exact ⟨rfl, rfl, _, rfl, hs⟩
  | consumed ho => rw [hl] at ho; cases ho

theorem latched_denies {run : List Served} (hse : config.Serves st run)
    (hl : st.outcomeJournalFailed = true) (hs : served ∈ run) : DeniedBeforeConsume served := by
  induction run generalizing st with
  | nil => cases hs
  | cons first later ih =>
    rcases hse with _ | ⟨hc, hla⟩
    obtain ⟨hf, hd⟩ := call_latched hl hc
    rcases List.mem_cons.mp hs with rfl | hs
    · exact hd
    · exact ih hla (hf ▸ hl) hs

structure MatchingGrant (config : SendConfig) (reply : ConsumeReply) (consume : ConsumeRequest)
    (request : ClosedGatewayRequest) (binding : PermitBinding) : Prop where
  granted : reply.decision = some .granted
  accepted : config.consumeResponseMatches reply consume request binding = some true
  correlationId : reply.correlationId = consume.correlationId
  requestMessageId : reply.requestMessageId = some consume.messageId
  permitId : reply.permitId = some binding.permitId
  connection : reply.gatewayConnectionId.join = request.gatewayConnectionId
  canonicalRequestHash : reply.canonicalRequestHash = some request.canonicalRequestHash
  parameterHash : reply.gatewayDerivedParameterHash = some request.parameterHash
  wireBytesHash : reply.gatewayDerivedWireBytesHash = some request.wireBytesHash
  documentHash : reply.gatewayRequestDocumentHash = some (config.digests.requestDocument request)
  factsHash : reply.gatewayDerivedOperationFactsHash = some consume.gatewayDerivedOperationFactsHash
  capabilityHash : reply.causalCapabilityPayloadHash = some binding.causalCapabilityPayloadHash
  fencingEpoch : reply.fencingEpoch = some binding.fencingEpoch
  deadline : ∃ deadline expiry, reply.sendDeadline.map (·.iso) = some (.instant deadline) ∧
    binding.expiresAt = .instant expiry ∧ deadline ≤ expiry ∧ deadline ≤ request.expiresAt

variable {reply : ConsumeReply} {consume : ConsumeRequest} {request : ClosedGatewayRequest}
    {binding : PermitBinding}

theorem matchingGrant (hg : reply.decision = some .granted)
    (hm : config.consumeResponseMatches reply consume request binding = some true) :
    MatchingGrant config reply consume request binding := by
  have hf : config.expectedFields reply consume request binding = true := by
    by_contra hf
    rw [Bool.not_eq_true] at hf
    simp [SendConfig.consumeResponseMatches, hf] at hm
  have hd := hm
  simp only [SendConfig.consumeResponseMatches, hf, hg, Bool.not_true,
    Bool.false_eq_true, if_false, ne_eq, not_true_eq_false] at hd
  simp only [SendConfig.expectedFields, Bool.and_eq_true, decide_eq_true_eq] at hf
  obtain ⟨⟨⟨⟨⟨⟨⟨⟨⟨⟨⟨⟨⟨-, -⟩, -⟩, hc⟩, hme⟩, hpe⟩, hco⟩, hcan⟩,
    hp⟩, hw⟩, hdo⟩, hfa⟩, hca⟩, hep⟩ := hf
  refine ⟨hg, hm, hc, hme, hpe, hco, hcan, hp, hw, hdo, hfa, hca, hep, ?_⟩
  split at hd
  · cases hd
  rename_i sendDeadline hsome
  split at hd
  · cases hd
  · cases hd
  · cases hd
  · cases hd
  rename_i deadline expiry hi he
  simp only [Option.some.injEq, Bool.and_eq_true, decide_eq_true_eq] at hd
  exact ⟨deadline, expiry, by simp [hsome, hi], he, hd.1.2, hd.2⟩

variable {grant : ConsumeGranted}

theorem grant_deadline {deadline : ℤ}
    (hg : SendConfig.grant reply = some grant) (hd : grant.sendDeadline = some deadline) :
    reply.sendDeadline.map (·.model) = some (.instant deadline) := by
  simp only [SendConfig.grant, Option.bind_eq_bind, Option.bind_eq_some_iff] at hg
  obtain ⟨_, _, _, _, _, _, read, hr, _, _, _, _, _, _, _, _, _, _, _, _, hg⟩ := hg
  cases hg
  cases hd
  unfold SendConfig.deadlineField at hr
  split at hr
  · cases hr
  rename_i sendDeadline hsome
  split at hr
  · cases hr
  · cases hr
  rename_i value hm
  cases hr
  simp [hsome, hm]

variable {now : ℤ}

theorem sendOnceChecks_ok {expected : String × ℤ × String × String}
    (hc : config.sendOnceChecks request grant now expected = .ok ()) :
    now < request.expiresAt ∧ ∃ deadline, grant.sendDeadline = some deadline ∧ now < deadline := by
  unfold SendConfig.sendOnceChecks at hc
  split at hc
  · cases hc
  split at hc
  · cases hc
  rename_i hlive
  split at hc
  · cases hc
  rename_i deadline hd
  split at hc
  · cases hc
  rename_i hopen
  exact ⟨not_le.mp hlive, deadline, hd, not_le.mp hopen⟩

/-- What an invocation of the transport rests on: a matching grant that was received before, and
a reading of the clock, taken last, before its deadline and the request's expiry. -/
def SentUnderGrant (config : SendConfig) (served : Served) (request : ClosedGatewayRequest)
    (wire : Bytes) (answer : Except Raised GatewayTransportResult) : Prop :=
  ∃ earlier now rest consume reply binding deadline,
    served.events = earlier ++ ⟨.clock, now⟩ :: ⟨.transport request wire, answer⟩ :: rest ∧
    (consume, .replied reply) ∈ consumes earlier ∧
    served.message.requestDocument = some request ∧
    served.message.permitBinding = some binding ∧
    MatchingGrant config reply consume request binding ∧
    reply.sendDeadline.map (·.model) = some (.instant deadline) ∧ now < deadline ∧
    now < request.expiresAt ∧ config.digests.sha256 wire = binding.wireBytesHash

variable {outcome : Outcome} {status : SendStatus}

theorem Report.noSend (hr : Report outcome status st events value final) : sends events = [] := by
  obtain ⟨doc, _, hj⟩ := hr.journaled
  exact hj.noSend

theorem Report.noConsume
    (hr : Report outcome status st events value final) : consumes events = [] := by
  obtain ⟨doc, _, hj⟩ := hr.journaled
  exact hj.noConsume

variable {answer : Except Raised GatewayTransportResult}

theorem AfterSend.reported (ha : AfterSend answer st events value final) :
    (answer = .error .interrupted ∧ events = []) ∨
      ∃ outcome status, Report outcome status st events value final := by
  match answer, ha with
  | .ok _, hr => exact .inr ⟨_, _, hr⟩
  | .error (.denied _), hr => exact .inr ⟨_, _, hr⟩
  | .error .failed, hr => exact .inr ⟨_, _, hr⟩
  | .error .interrupted, hn => exact .inl ⟨rfl, hn.1⟩

theorem AfterSend.noSend (ha : AfterSend answer st events value final) : sends events = [] := by
  rcases ha.reported with ⟨_, rfl⟩ | ⟨_, _, hr⟩
  · rfl
  · exact hr.noSend

theorem call_sends
    (hc : Traces st (config.call served.message served.peer) served.events served.value
      served.final) : sends served.events = [] ∨ ∃ request wire answer rest,
      sends served.events = [(request, wire, answer)] ∧
        SentUnderGrant config served request wire answer ∧
        notices served.events = notices rest ∧
        AfterSend answer st rest served.value served.final := by
  obtain ⟨message, peer, events, value, final⟩ := served
  have hs : CallShape config message peer st events value final := call_cases hc
  cases hs with
  | overflowed => exact .inl rfl
  | refused => exact .inl rfl
  | @consumed now uuid request endpoint facts wire binding answer rest _ _ hopen ha hb han =>
    cases han with
    | ungranted _ hquiet => exact .inl (by simpa using hquiet.noSend)
    | unsent hreport => exact .inl (by simpa using hreport.noSend)
    | @granted reply grant _ _ _ _ hgranted hmatches hgrant hse =>
      cases hse with
      | refused hreport => exact .inl (by simpa using hreport.noSend)
      | unreadable hreport => exact .inl (by simpa using hreport.noSend)
      | @invoked sendNow sent rest _ _ hchecks haf =>
        obtain ⟨hl, deadline, hd, hbe⟩ := sendOnceChecks_ok hchecks
        obtain ⟨found, _, hf, _, _, _, hbo⟩ :=
          admitBinding_eq_ok_iff.mp ha.binding
        cases hb.symm.trans hf
        simp only [GatewayConfig.bindingMatches, Bool.and_eq_true, decide_eq_true_eq] at hbo
        refine .inr ⟨request, wire, sent, rest, by simp [haf.noSend], ?_, by simp, haf⟩
        exact ⟨[⟨.clock, now⟩, ⟨.uuid, uuid⟩, ⟨.consume _, .replied reply⟩], sendNow, rest, _, reply,
          binding, deadline, rfl, by simp, ha.document, hb,
          matchingGrant hgranted hmatches, grant_deadline hgrant hd, hbe, hl,
          ha.wireHash.trans hbo.1.1.2.symm⟩

variable {wire : Bytes}

theorem Answered.noConsume {facts : OperationFacts} {answer : ConsumeAnswer}
    (ha : Answered config message request facts binding consume wire st answer events
      value final) : consumes events = [] := by
  cases ha with
  | ungranted _ hquiet => exact hquiet.noConsume
  | unsent hr => exact hr.noConsume
  | granted _ _ _ hs =>
    cases hs with
    | refused hr => simpa using hr.noConsume
    | unreadable hr => simpa using hr.noConsume
    | invoked _ haf =>
      rcases haf.reported with ⟨_, rfl⟩ | ⟨_, _, hr⟩
      · rfl
      · simpa using hr.noConsume

/-- One document is notified at most three times and acknowledged once; or three times in vain,
and from then on the gateway denies every call. -/
def OneOutcome (served : Served) (later : List Served) : Prop :=
  ∃ (document : SendOutcome) (failures : List (Except Raised Unit)),
    (∀ f ∈ failures, f ≠ .ok ()) ∧
      ((failures.length < 3 ∧
          notices served.events = failures.map (document, ·) ++ [(document, .ok ())]) ∨
        (failures.length = 3 ∧ notices served.events = failures.map (document, ·) ∧
          served.final.outcomeJournalFailed = true ∧ ∀ next ∈ later, DeniedBeforeConsume next))

theorem not_oneOutcome (hn : notices served.events = []) : ¬ OneOutcome served later := by
  rintro ⟨doc, failures, _, ⟨_, hj⟩ | ⟨ha, hj, _⟩⟩
  · simp [hn] at hj
  · rw [hn] at hj
    have hl := congrArg List.length hj
    simp [ha] at hl

/-- Neither the transport nor the journal was cut off by an exception outside `Exception`. -/
def Uninterrupted (events : List GatewayEvent) : Prop :=
  (∀ sent ∈ sends events, sent.2.2 ≠ .error .interrupted) ∧
    ∀ notice ∈ notices events, notice.2 ≠ .error .interrupted

theorem Report.oneOutcome (hr : Report outcome status st events served.value served.final)
    (hn : notices served.events = notices events) (hu : Uninterrupted served.events)
    (hla : config.Serves served.final later) : OneOutcome served later := by
  obtain ⟨doc, _, _, _, answers, han, hj⟩ := hr.journaled
  rw [han] at hn
  generalize hfinal : served.final = reached at hj
  cases hj with
  | acknowledged failures hf ha =>
    exact ⟨doc, failures, hf, .inl ⟨ha, by simpa using hn⟩⟩
  | latched _ hf ha =>
    have hl : served.final.outcomeJournalFailed = true := by rw [hfinal]
    exact ⟨doc, answers, hf, .inr ⟨ha, hn, hl,
      fun next hne => latched_denies hla hl hne⟩⟩
  | interrupted failures =>
    have hm : (doc, .error .interrupted) ∈ notices served.events := by simp [hn]
    exact absurd rfl (hu.2 _ hm)

theorem call_journals
    (hca : Traces st (config.call served.message served.peer) served.events served.value
      served.final) (hl : config.Serves served.final later)
    (hre : (consume, .replied reply) ∈ consumes served.events)
    (hg : reply.decision = some .granted) (hv : config.replyValid reply = true)
    (hc : (config.replyDigest reply).isSome = true)
    (hco : ∀ request binding, served.message.requestDocument = some request →
      served.message.permitBinding = some binding →
        config.consumeResponseMatches reply consume request binding ≠ none)
    (hu : Uninterrupted served.events) : OneOutcome served later := by
  obtain ⟨message, peer, events, value, final⟩ := served
  have hs : CallShape config message peer st events value final := call_cases hca
  cases hs with
  | overflowed => cases hre
  | refused => cases hre
  | @consumed now uuid request endpoint facts wire binding answer rest _ _ hopen hadmitted hb ha =>
    simp only [consumes_clock, consumes_uuid, consumes_consume, ha.noConsume,
      List.mem_singleton, Prod.mk.injEq] at hre
    obtain ⟨rfl, rfl⟩ := hre
    cases ha with
    | ungranted hun =>
      exact absurd (hun reply rfl hg hv hc) (hco request binding hadmitted.document hb)
    | unsent hr => exact hr.oneOutcome (by simp) hu hl
    | granted _ _ _ hse =>
      cases hse with
      | refused hr => exact hr.oneOutcome (by simp) hu hl
      | unreadable hr => exact hr.oneOutcome (by simp) hu hl
      | invoked _ haf =>
        rcases haf.reported with ⟨rfl, _⟩ | ⟨_, _, hr⟩
        · exact absurd rfl (hu.1 (request, wire, .error .interrupted) (by simp))
        · exact hr.oneOutcome (by simp) hu hl

/-- In every run: a call invokes the transport at most once, and only under a matching grant
that is still open, with bytes of the permitted hash; and a usable grant has one outcome. -/
theorem sends_once_under_matching_grant (config : SendConfig) (st : GatewayState)
    (pre later : List Served) (served : Served)
    (hserves : config.Serves st (pre ++ served :: later)) : (sends served.events).length ≤ 1 ∧
      (∀ request wire answer, (request, wire, answer) ∈ sends served.events →
        SentUnderGrant config served request wire answer) ∧
      ∀ consume reply, (consume, .replied reply) ∈ consumes served.events →
        reply.decision = some .granted → config.replyValid reply = true →
        (config.replyDigest reply).isSome = true →
        (∀ request binding, served.message.requestDocument = some request →
          served.message.permitBinding = some binding →
            config.consumeResponseMatches reply consume request binding ≠ none) →
        Uninterrupted served.events → OneOutcome served later := by
  obtain ⟨reached, hca, hl⟩ := serves_split hserves
  refine ⟨?_, ?_, ?_⟩
  · rcases call_sends hca with hn | ⟨_, _, _, _, ho, _⟩
    · simp [hn]
    · simp [ho]
  · intro request wire answer hs
    rcases call_sends hca with hn | ⟨_, _, _, _, ho, hgr, _⟩
    · simp [hn] at hs
    · rw [ho, List.mem_singleton] at hs
      cases hs
      exact hgr
  · intro consume reply hr hg hv hc hco hu
    exact call_journals hca hl hr hg hv hc hco hu

def SaysNotSent (served : Served) : Prop :=
  (∃ notice ∈ notices served.events, notice.1.outcome = .notSent) ∨
    ∃ result, served.value = .ok result ∧ result.status = .notSentAfterConsume

def SaysSentUnknown (served : Served) : Prop :=
  notices served.events ≠ [] ∧
    (∀ notice ∈ notices served.events, notice.1.outcome = .sentUnknown) ∧
    ∀ result, served.value = .ok result → result.status = .sentUnknown

/-- What is said not to be sent was not sent, and a transport that did not return is reported
as unknown. -/
def Truthful (served : Served) : Prop :=
  (SaysNotSent served → sends served.events = []) ∧
    ∀ request wire raised, (request, wire, .error raised) ∈ sends served.events →
      SaysSentUnknown served

/-- The transport, where it was invoked, returned or failed with an ordinary exception. -/
def OrdinaryTransport (served : Served) : Prop :=
  ∀ request wire answer, (request, wire, answer) ∈ sends served.events →
    (∀ reason, answer ≠ .error (.denied reason)) ∧ answer ≠ .error .interrupted

theorem Journal.nonempty {answers : List (Except Raised Unit)}
    (hj : Journal st answers final) : answers ≠ [] := by
  cases hj with
  | acknowledged => simp
  | latched _ _ hattempts =>
    rintro rfl
    simp at hattempts
  | interrupted => simp

theorem Report.notices_outcome (hr : Report outcome status st events value final) :
    notices events ≠ [] ∧ ∀ notice ∈ notices events, notice.1.outcome = outcome := by
  obtain ⟨doc, rfl, _, _, answers, ha, hj⟩ := hr.journaled
  rw [ha]
  refine ⟨by simpa using hj.nonempty, ?_⟩
  intro notice hn
  obtain ⟨answer, _, rfl⟩ := List.mem_map.mp hn
  rfl

theorem truthful_of_noSend (hs : sends served.events = []) : Truthful served := by
  refine ⟨fun _ => hs, ?_⟩
  intro request wire raised hse
  simp [hs] at hse

section Sent

variable {served : Served} {request : ClosedGatewayRequest} {wire : Bytes}
  {answer : Except Raised GatewayTransportResult}

theorem ordinaryTransport_iff (hs : sends served.events = [(request, wire, answer)]) :
    OrdinaryTransport served ↔
      (∀ reason, answer ≠ .error (.denied reason)) ∧ answer ≠ .error .interrupted := by
  constructor
  · intro ho
    exact ho request wire answer (by simp [hs])
  · rintro ha _ _ _ hse
    rw [hs, List.mem_singleton] at hse
    cases hse
    exact ha

theorem not_saysNotSent {outcome : Outcome} {status : SendStatus}
    (hr : Report outcome status st events served.value served.final)
    (hno : notices served.events = notices events) (ho : outcome ≠ .notSent)
    (hs : status ≠ .notSentAfterConsume) : ¬ SaysNotSent served := by
  rintro (⟨notice, hn, hsa⟩ | ⟨result, hv, hsa⟩)
  · rw [hno] at hn
    exact ho ((hr.notices_outcome.2 notice hn).symm.trans hsa)
  · exact hs ((hr.status result hv).symm.trans hsa)

theorem truthful_iff_of_sent (hs : sends served.events = [(request, wire, answer)])
    (hn : notices served.events = notices events)
    (ha : AfterSend answer st events served.value served.final) :
    Truthful served ↔ OrdinaryTransport served := by
  rw [ordinaryTransport_iff hs]
  match answer, hs, ha with
  | .ok transportResult, hs, hr =>
    refine ⟨fun _ => ⟨by simp, by simp⟩, fun _ => ⟨?_, ?_⟩⟩
    · intro hsa
      exact absurd hsa (not_saysNotSent hr hn (by decide) (by decide))
    · intro _ _ _ hse
      simp [hs] at hse
  | .error (.denied reason), hs, hr =>
    refine ⟨fun ht => ?_, fun ho => absurd rfl (ho.1 reason)⟩
    obtain ⟨hso, hou⟩ := hr.notices_outcome
    obtain ⟨notice, hno⟩ := List.exists_mem_of_ne_nil _ hso
    have hnone := ht.1 (.inl ⟨notice, hn ▸ hno, hou notice hno⟩)
    simp [hs] at hnone
  | .error .failed, hs, hr =>
    refine ⟨fun _ => ⟨by simp, by simp⟩, fun _ => ⟨?_, ?_⟩⟩
    · intro hsa
      exact absurd hsa (not_saysNotSent hr hn (by decide) (by decide))
    · intro _ _ _ _
      rw [SaysSentUnknown, hn]
      exact ⟨hr.notices_outcome.1, hr.notices_outcome.2, hr.status⟩
  | .error .interrupted, hs, hnot =>
    refine ⟨fun ht => ?_, fun ho => absurd rfl ho.2⟩
    have hu := ht.2 request wire .interrupted (by simp [hs])
    exact absurd (by rw [hn, hnot.1]; rfl) hu.1

end Sent

/-- In every run, what a call says about its send is true exactly if the transport, where it was
invoked, raised neither a `GatewayDenied` nor an exception outside `Exception`. -/
theorem truthful_iff_ordinary_transport (config : SendConfig) (st : GatewayState)
    (pre later : List Served) (served : Served)
    (hserves : config.Serves st (pre ++ served :: later)) :
    Truthful served ↔ OrdinaryTransport served := by
  obtain ⟨reached, hc, _⟩ := serves_split hserves
  rcases call_sends hc with hno | ⟨request, wire, answer, rest, ho, _, hn, ha⟩
  · refine ⟨fun _ => ?_, fun _ => truthful_of_noSend hno⟩
    intro request wire answer hs
    simp [hno] at hs
  · exact truthful_iff_of_sent ho hn ha

theorem call_replied {peer : PeerCredentials} {endpoint : EndpointPolicy} {facts : OperationFacts}
    {uuid : String} (ho : st.outcomeJournalFailed = false)
    (had : Admitted config.toGatewayConfig message peer now request endpoint facts wire)
    (hb : message.permitBinding = some binding)
    (hr : Traces st (config.handleReply message request facts binding now
      (config.consumeRequest message request facts binding now uuid) reply) events value final) :
    Traces st (config.call message peer) (⟨.clock, now⟩ :: ⟨.uuid, uuid⟩ ::
      ⟨.consume (config.consumeRequest message request facts binding now uuid), .replied reply⟩ ::
        events) value final := by
  have ha : config.admit st.outcomeJournalFailed message peer now =
      .ok (request, endpoint, facts) := admit_eq_ok_iff.mpr ⟨ho, wire, had⟩
  refine Proc.traces_bind.mpr ⟨[⟨.clock, now⟩], now, st, _,
    Proc.traces_question.mpr ⟨rfl, rfl⟩, ?_, rfl⟩
  refine Proc.traces_bind.mpr ⟨[], _, st, _, Proc.traces_read.mpr ⟨rfl, rfl, rfl⟩, ?_, rfl⟩
  simp only [ha, hb]
  refine Proc.traces_bind.mpr ⟨[⟨.uuid, uuid⟩], uuid, st, _,
    Proc.traces_question.mpr ⟨rfl, rfl⟩, ?_, rfl⟩
  exact Proc.traces_bind.mpr ⟨[_], .replied reply, st, _,
    Proc.traces_question.mpr ⟨rfl, rfl⟩, hr, rfl⟩

theorem sendGranted_invoked {consumed : SendConfig.Consumed}
    (hw : preparedWireBytes consumed.request = .ok wire)
    (hh : config.digests.sha256 wire = consumed.request.wireBytesHash)
    (hc : config.sendOnceChecks consumed.request grant now
      (config.expectedBinding consumed.binding consumed.facts) = .ok ())
    (ha : Traces st (match answer with
      | .ok transportResult => config.reportDefinite consumed transportResult
      | .error (.denied _) => config.reportNotSent consumed "SEND_DEADLINE_EXPIRED"
      | .error .failed => config.reportUnknown consumed
      | .error .interrupted => pure (.error .interrupted)) events value final) :
    Traces st (config.sendGranted consumed grant)
      (⟨.clock, now⟩ :: ⟨.transport consumed.request wire, answer⟩ :: events) value final := by
  unfold SendConfig.sendGranted
  simp only [hw, hh, ne_eq, not_true_eq_false, if_false]
  refine Proc.traces_bind.mpr ⟨[⟨.clock, now⟩], now, st, _,
    Proc.traces_question.mpr ⟨rfl, rfl⟩, ?_, rfl⟩
  refine Proc.traces_bind.mpr ⟨[⟨.transport consumed.request wire, answer⟩], answer, st, _, ?_,
    ha, rfl⟩
  simp only [SendConfig.sendOnce, hc]
  exact Proc.traces_question.mpr ⟨rfl, rfl⟩

def timeSender : SendConfig where
  toGatewayConfig := timeGateway
  replyValid := fun reply => reply.reasonCode = some "RATE_PERMIT_CONSUMED"
  replyDigest := fun _ =>
    some "a95a8b9a0b4d5b382bdbb2ac1fd9ad6f2fb0ad4e14ba5bb039ab5bb124253544"
  outcomeDigest := fun document =>
    if document.outcome = .notSent then
      some "84f9d5d90ab8b225840e96e1cb2b3ae581e55e8c27350945e21c25b8c35d5b59"
    else some "29e348ea78899304601fb7c0e5cc0e7979a10d3331411064018bda4aaf79df5f"
  receiptDigest := fun _ => "0e48a9c08a6580642e7fae6b823b24bdcb74f285e1ed0c3753e5497f4246ea28"

/-- A grant for the request; the schema asks for the reason `RATE_PERMIT_CONSUMED`. -/
def timeReply (reasonCode : String) : ConsumeReply where
  messageType := "PermitConsumeDecision"
  messageId := "rate-msg-decision"
  callerService := "rate-budget-service"
  callerInstanceId := "rate-1"
  correlationId := "correlation-1"
  requestMessageId := some "rate-msg-1"
  permitId := some "permit-1"
  decision := some .granted
  gatewayConnectionId := some none
  canonicalRequestHash := some timeRequest.canonicalRequestHash
  gatewayDerivedParameterHash := some timeRequest.parameterHash
  gatewayDerivedWireBytesHash := some timeRequest.wireBytesHash
  gatewayRequestDocumentHash := some (timeDigests.requestDocument timeRequest)
  gatewayDerivedOperationFactsHash :=
    some "5c8a832d6e4006913b06f6d187b38a4b2ec79c1311e15ca94b507990a81058c7"
  causalCapabilityPayloadHash :=
    some "aaaaaaaaaaaaaaaaaaaaaaaaaaaaaaaaaaaaaaaaaaaaaaaaaaaaaaaaaaaaaaaa"
  capabilityNonceState := some "CONSUMED"
  fencingEpoch := some 1
  sendDeadline := some ⟨.instant (timeNow + 50000), .instant (timeNow + 50000)⟩
  reasonCode := some reasonCode

def timeConsume : ConsumeRequest :=
  timeSender.consumeRequest (timeMessage timeRequest) timeRequest timeFacts (timeBinding timeRequest)
    timeNow "1"

theorem timeReply_matches :
    timeSender.consumeResponseMatches (timeReply "RATE_PERMIT_CONSUMED") timeConsume timeRequest
      (timeBinding timeRequest) = some true := by
  simp [SendConfig.consumeResponseMatches, SendConfig.expectedFields, timeReply, timeConsume,
    SendConfig.consumeRequest, timeSender, timeGateway, timeMessage, timeBinding, timeDigests,
    timeRequest]

def timeGrant : ConsumeGranted where
  permitId := "permit-1"
  gatewayConnectionId := none
  fencingEpoch := 1
  sendDeadline := some (timeNow + 50000)
  canonicalRequestHash := timeRequest.canonicalRequestHash
  gatewayDerivedParameterHash := timeRequest.parameterHash
  gatewayDerivedWireBytesHash := timeRequest.wireBytesHash
  gatewayDerivedOperationFactsHash :=
    "5c8a832d6e4006913b06f6d187b38a4b2ec79c1311e15ca94b507990a81058c7"
  causalCapabilityPayloadHash := "aaaaaaaaaaaaaaaaaaaaaaaaaaaaaaaaaaaaaaaaaaaaaaaaaaaaaaaaaaaaaaaa"
  gatewayRequestDocumentHash := timeDigests.requestDocument timeRequest

theorem timeReply_grant : SendConfig.grant (timeReply "RATE_PERMIT_CONSUMED") = some timeGrant := by
  decide

theorem timeGrant_checks : timeSender.sendOnceChecks timeRequest timeGrant timeNow
    (timeSender.expectedBinding (timeBinding timeRequest) timeFacts) = .ok () := by
  simp only [SendConfig.sendOnceChecks, timeRequest_admitted.destination]
  simp [timeGrant, timeRequest, SendConfig.expectedBinding, timeBinding, timeSender, timeGateway,
    timeDigests]

def timeConsumed : SendConfig.Consumed :=
  ⟨timeMessage timeRequest, timeRequest, timeFacts, timeBinding timeRequest, "rate-msg-decision",
    "a95a8b9a0b4d5b382bdbb2ac1fd9ad6f2fb0ad4e14ba5bb039ab5bb124253544"⟩

def timeOpening (reasonCode : String) : List GatewayEvent :=
  [⟨.clock, timeNow⟩, ⟨.uuid, "1"⟩, ⟨.consume timeConsume, .replied (timeReply reasonCode)⟩]

theorem timeCall_invoked (ha : Traces ⟨false⟩ (match answer with
      | .ok transportResult => timeSender.reportDefinite timeConsumed transportResult
      | .error (.denied _) => timeSender.reportNotSent timeConsumed "SEND_DEADLINE_EXPIRED"
      | .error .failed => timeSender.reportUnknown timeConsumed
      | .error .interrupted => pure (.error .interrupted)) events value final) :
    Traces ⟨false⟩ (timeSender.call (timeMessage timeRequest) timePeer)
      (timeOpening "RATE_PERMIT_CONSUMED" ++
        ⟨.clock, timeNow⟩ :: ⟨.transport timeRequest timeWire, answer⟩ :: events) value final := by
  refine call_replied rfl timeRequest_admitted rfl ?_
  have hd : (timeReply "RATE_PERMIT_CONSUMED").decision = some .granted := rfl
  have hv : timeSender.replyValid (timeReply "RATE_PERMIT_CONSUMED") = true := rfl
  have hdi : timeSender.replyDigest (timeReply "RATE_PERMIT_CONSUMED") =
      some timeConsumed.decisionHash := rfl
  have hm : timeSender.consumeResponseMatches (timeReply "RATE_PERMIT_CONSUMED")
      (timeSender.consumeRequest (timeMessage timeRequest) timeRequest timeFacts
        (timeBinding timeRequest) timeNow "1") timeRequest (timeBinding timeRequest) = some true :=
    timeReply_matches
  simp only [SendConfig.handleReply, hv, Bool.not_true, Bool.false_eq_true, if_false, hdi,
    hm, hd, ne_eq, not_true_eq_false, timeReply_grant]
  exact sendGranted_invoked timeRequest_admitted.wireBytes timeRequest_admitted.wireHash
    timeGrant_checks ha

def timeResult : GatewayTransportResult := ⟨"HTTP_RESPONSE", [], some 200, none, none, "PUBLIC"⟩

def timeOutcome (outcome : Outcome) (protocolStatus : String) (sentAt : Option ℤ)
    (transportResult : Option GatewayTransportResult) : SendOutcome :=
  timeSender.outcomeDocument timeConsumed outcome protocolStatus sentAt transportResult "1" timeNow

def timeReport (document : SendOutcome) : List GatewayEvent :=
  ⟨.uuid, "1"⟩ :: ⟨.clock, timeNow⟩ :: noticeEvents document [.error .failed, .ok ()]

def timeCall (answer : Except Raised GatewayTransportResult) (rest : List GatewayEvent)
    (value : Except Raised GatewaySendResult) : Served where
  message := timeMessage timeRequest
  peer := timePeer
  events := timeOpening "RATE_PERMIT_CONSUMED" ++
    ⟨.clock, timeNow⟩ :: ⟨.transport timeRequest timeWire, answer⟩ :: rest
  value := value
  final := ⟨false⟩

def sentCall : Except Raised GatewaySendResult → Served :=
  timeCall (.ok timeResult) (⟨.clock, timeNow⟩ ::
    timeReport (timeOutcome .sentDefiniteResult "HTTP_RESPONSE" (some timeNow) (some timeResult)) ++
      [⟨.uuid, "1"⟩, ⟨.uuid, "1"⟩])

def timeAnswer (past : List GatewayEvent) : (query : Query) → Answer query
  | .clock => timeNow
  | .uuid => "1"
  | .consume _ => .unavailable
  | .notify _ => if (notices past).length = 0 then .error .failed else .ok ()
  | .transport _ _ => .error .failed

theorem sentCall_serves : ∃ value, timeSender.Serves ⟨false⟩ [sentCall value] := by
  have hr : ∃ value, (timeSender.reportDefinite timeConsumed timeResult).traced timeAnswer []
      ⟨false⟩ = some (⟨.clock, timeNow⟩ :: timeReport (timeOutcome .sentDefiniteResult
        "HTTP_RESPONSE" (some timeNow) (some timeResult)) ++ [⟨.uuid, "1"⟩, ⟨.uuid, "1"⟩], value,
          ⟨false⟩) :=
    ⟨_, rfl⟩
  obtain ⟨value, hr⟩ := hr
  exact ⟨value, .cons (timeCall_invoked (Proc.traces_traced hr)) .nil⟩

theorem sentCall_sent_once : ∃ value, timeSender.Serves ⟨false⟩ [sentCall value] ∧
    (sends (sentCall value).events).length ≤ 1 ∧ OneOutcome (sentCall value) [] := by
  obtain ⟨value, hs⟩ := sentCall_serves
  have hr := sends_once_under_matching_grant timeSender ⟨false⟩ [] [] (sentCall value) hs
  refine ⟨value, hs, hr.1, ?_⟩
  refine hr.2.2 timeConsume (timeReply "RATE_PERMIT_CONSUMED") ?_ rfl rfl rfl ?_ ⟨?_, ?_⟩
  · simp [sentCall, timeCall, timeOpening]
  · rintro _ _ ⟨⟩ ⟨⟩
    simp [timeReply_matches]
  · simp [sentCall, timeCall, timeOpening, timeReport]
  · simp [sentCall, timeCall, timeOpening, timeReport]

def invalidGrantCall : Served where
  message := timeMessage timeRequest
  peer := timePeer
  events := timeOpening "RATE_PERMIT_EXPIRED"
  value := .error (.denied "ALLOCATOR_RESPONSE_INVALID")
  final := ⟨false⟩

def interruptedCall : Served :=
  timeCall (.error .interrupted) [] (.error .interrupted)

theorem invalidGrantCall_serves : timeSender.Serves ⟨false⟩ [invalidGrantCall] := by
  refine .cons (call_replied rfl timeRequest_admitted rfl ?_) .nil
  have hv : timeSender.replyValid (timeReply "RATE_PERMIT_EXPIRED") = false := by
    simp [timeSender, timeReply]
  simp only [SendConfig.handleReply, hv, Bool.not_false, if_true]
  exact Proc.traces_pure.mpr ⟨rfl, rfl, rfl⟩

theorem interruptedCall_serves : timeSender.Serves ⟨false⟩ [interruptedCall] :=
  .cons (timeCall_invoked (Proc.traces_pure.mpr ⟨rfl, rfl, rfl⟩)) .nil

/-- A grant that fails the schema, and one whose transport is cut off, leave nothing in the
journal and the gateway open. -/
theorem grants_without_outcome : (timeSender.Serves ⟨false⟩ [invalidGrantCall] ∧
      (timeConsume, .replied (timeReply "RATE_PERMIT_EXPIRED")) ∈ consumes invalidGrantCall.events ∧
      (timeReply "RATE_PERMIT_EXPIRED").decision = some .granted ∧
      ¬ OneOutcome invalidGrantCall []) ∧
    (timeSender.Serves ⟨false⟩ [interruptedCall] ∧
      (timeConsume, .replied (timeReply "RATE_PERMIT_CONSUMED")) ∈ consumes interruptedCall.events ∧
      (timeReply "RATE_PERMIT_CONSUMED").decision = some .granted ∧
      ¬ OneOutcome interruptedCall []) :=
  ⟨⟨invalidGrantCall_serves, by simp [invalidGrantCall, timeOpening], rfl, not_oneOutcome rfl⟩,
    ⟨interruptedCall_serves, by simp [interruptedCall, timeCall, timeOpening], rfl,
      not_oneOutcome rfl⟩⟩

theorem sentCall_truthful : ∃ value, timeSender.Serves ⟨false⟩ [sentCall value] ∧
    OrdinaryTransport (sentCall value) ∧ Truthful (sentCall value) := by
  obtain ⟨value, hs⟩ := sentCall_serves
  have hse : sends (sentCall value).events = [(timeRequest, timeWire, .ok timeResult)] := rfl
  have ho : OrdinaryTransport (sentCall value) :=
    (ordinaryTransport_iff hse).mpr ⟨by simp, by simp⟩
  exact ⟨value, hs, ho,
    (truthful_iff_ordinary_transport timeSender ⟨false⟩ [] [] (sentCall value) hs).mpr ho⟩

def deniedCall : Except Raised GatewaySendResult → Served :=
  timeCall (.error (.denied "CONNECTION_REFUSED"))
    (timeReport (timeOutcome .notSent "NOT_SENT" none none) ++
      [⟨.clock, timeNow⟩, ⟨.uuid, "1"⟩, ⟨.uuid, "1"⟩])

/-- The transport was invoked, and both the journal and the result say that nothing was sent. -/
theorem deniedCall_not_truthful : ∃ result, timeSender.Serves ⟨false⟩ [deniedCall (.ok result)] ∧
    (sends (deniedCall (.ok result)).events).length = 1 ∧
    (timeOutcome .notSent "NOT_SENT" none none, .ok ()) ∈ notices (deniedCall (.ok result)).events ∧
    result.status = .notSentAfterConsume ∧ ¬ Truthful (deniedCall (.ok result)) := by
  have hr : ∃ result,
      (timeSender.reportNotSent timeConsumed "SEND_DEADLINE_EXPIRED").traced timeAnswer [] ⟨false⟩ =
        some (timeReport (timeOutcome .notSent "NOT_SENT" none none) ++
          [⟨.clock, timeNow⟩, ⟨.uuid, "1"⟩, ⟨.uuid, "1"⟩], .ok result, ⟨false⟩) ∧
      result.status = .notSentAfterConsume :=
    ⟨_, rfl, rfl⟩
  obtain ⟨result, hr, hs⟩ := hr
  refine ⟨result, .cons (timeCall_invoked (Proc.traces_traced hr)) .nil, rfl, ?_, hs, ?_⟩
  · simp [deniedCall, timeCall, timeOpening, timeReport]
  · intro ht
    have hn := ht.1 (.inr ⟨result, rfl, hs⟩)
    simp [deniedCall, timeCall, timeOpening] at hn

end AiQuant.Gateway
