import AiQuant.Gateway.Send

/-! What a call of the gateway can do.  `call_cases` lists the events of every completed call;
over a run of calls, the transport is invoked at most once a call and only under a matching
grant, and every grant is journaled or latches the gateway. -/
namespace AiQuant.Gateway

open AiQuant.Lib
open AiQuant.Lib.Proc (Traces)

abbrev GatewayEvent := Event Answer

def sends (events : List GatewayEvent) :
    List (ClosedGatewayRequest × Bytes × Except Raised GatewayTransportResult) :=
  events.filterMap fun
    | ⟨.transport request wire, answer⟩ => some (request, wire, answer)
    | _ => none

def notices (events : List GatewayEvent) : List (SendOutcome × Except Raised Unit) :=
  events.filterMap fun
    | ⟨.notify document, answer⟩ => some (document, answer)
    | _ => none

def consumes (events : List GatewayEvent) : List (ConsumeRequest × ConsumeAnswer) :=
  events.filterMap fun
    | ⟨.consume document, answer⟩ => some (document, answer)
    | _ => none

def noticeEvents (document : SendOutcome) (answers : List (Except Raised Unit)) :
    List GatewayEvent :=
  answers.map fun answer => ⟨.notify document, answer⟩

section Events

variable {rest : List GatewayEvent} {request : ClosedGatewayRequest} {wire : Bytes}
  {document : SendOutcome} {consume : ConsumeRequest}

@[simp] theorem sends_nil : sends [] = [] := rfl

@[simp] theorem sends_clock (instant : ℤ) : sends (⟨.clock, instant⟩ :: rest) = sends rest := rfl

@[simp] theorem sends_uuid (text : String) : sends (⟨.uuid, text⟩ :: rest) = sends rest := rfl

@[simp] theorem sends_consume (answer : ConsumeAnswer) :
    sends (⟨.consume consume, answer⟩ :: rest) = sends rest := rfl

@[simp] theorem sends_notify (answer : Except Raised Unit) :
    sends (⟨.notify document, answer⟩ :: rest) = sends rest := rfl

@[simp] theorem sends_transport (answer : Except Raised GatewayTransportResult) :
    sends (⟨.transport request wire, answer⟩ :: rest) = (request, wire, answer) :: sends rest := rfl

@[simp] theorem sends_append {first second : List GatewayEvent} :
    sends (first ++ second) = sends first ++ sends second :=
  List.filterMap_append ..

@[simp] theorem notices_nil : notices [] = [] := rfl

@[simp] theorem notices_clock (instant : ℤ) :
    notices (⟨.clock, instant⟩ :: rest) = notices rest := rfl

@[simp] theorem notices_uuid (text : String) : notices (⟨.uuid, text⟩ :: rest) = notices rest := rfl

@[simp] theorem notices_consume (answer : ConsumeAnswer) :
    notices (⟨.consume consume, answer⟩ :: rest) = notices rest := rfl

@[simp] theorem notices_notify (answer : Except Raised Unit) :
    notices (⟨.notify document, answer⟩ :: rest) = (document, answer) :: notices rest := rfl

@[simp] theorem notices_transport (answer : Except Raised GatewayTransportResult) :
    notices (⟨.transport request wire, answer⟩ :: rest) = notices rest := rfl

@[simp] theorem notices_append {first second : List GatewayEvent} :
    notices (first ++ second) = notices first ++ notices second :=
  List.filterMap_append ..

@[simp] theorem consumes_nil : consumes [] = [] := rfl

@[simp] theorem consumes_clock (instant : ℤ) :
    consumes (⟨.clock, instant⟩ :: rest) = consumes rest := rfl

@[simp] theorem consumes_uuid (text : String) :
    consumes (⟨.uuid, text⟩ :: rest) = consumes rest := rfl

@[simp] theorem consumes_consume (answer : ConsumeAnswer) :
    consumes (⟨.consume consume, answer⟩ :: rest) = (consume, answer) :: consumes rest := rfl

@[simp] theorem consumes_notify (answer : Except Raised Unit) :
    consumes (⟨.notify document, answer⟩ :: rest) = consumes rest := rfl

@[simp] theorem consumes_transport (answer : Except Raised GatewayTransportResult) :
    consumes (⟨.transport request wire, answer⟩ :: rest) = consumes rest := rfl

@[simp] theorem consumes_append {first second : List GatewayEvent} :
    consumes (first ++ second) = consumes first ++ consumes second :=
  List.filterMap_append ..

@[simp] theorem sends_noticeEvents {answers : List (Except Raised Unit)} :
    sends (noticeEvents document answers) = [] := by
  simp [sends, noticeEvents]

@[simp] theorem notices_noticeEvents {answers : List (Except Raised Unit)} :
    notices (noticeEvents document answers) = answers.map (document, ·) := by
  simp [notices, noticeEvents, List.filterMap_map]

@[simp] theorem consumes_noticeEvents {answers : List (Except Raised Unit)} :
    consumes (noticeEvents document answers) = [] := by
  simp [consumes, noticeEvents]

end Events

/-- How the notices of one document end: acknowledged, given up on, or interrupted. -/
inductive Journal (state : GatewayState) : List (Except Raised Unit) → GatewayState → Prop
  | acknowledged (failures : List (Except Raised Unit)) (hfailures : ∀ f ∈ failures, f ≠ .ok ())
      (hattempts : failures.length < 3) : Journal state (failures ++ [.ok ()]) state
  | latched (failures : List (Except Raised Unit)) (hfailures : ∀ f ∈ failures, f ≠ .ok ())
      (hattempts : failures.length = 3) :
      Journal state failures { state with outcomeJournalFailed := true }
  | interrupted (failures : List (Except Raised Unit)) :
      Journal state (failures ++ [.error .interrupted]) state

/-- The notices of at most `attempts` attempts, by what they came to. -/
def Notified (document : SendOutcome) (attempts : ℕ) (events : List GatewayEvent)
    (value : Except Raised Bool) : Prop :=
  ∃ failures : List (Except Raised Unit), (∀ f ∈ failures, f ≠ .ok ()) ∧
    ((value = .ok true ∧ failures.length < attempts ∧
        events = noticeEvents document (failures ++ [.ok ()])) ∨
      (value = .ok false ∧ failures.length = attempts ∧
        events = noticeEvents document failures) ∨
      (value = .error .interrupted ∧
        events = noticeEvents document (failures ++ [.error .interrupted])))

theorem Notified.retry {document : SendOutcome} {attempts : ℕ} {events : List GatewayEvent}
    {value : Except Raised Bool} (hn : Notified document attempts events value) (raised : Raised) :
    Notified document (attempts + 1) (⟨.notify document, .error raised⟩ :: events) value := by
  obtain ⟨failures, hfa, he⟩ := hn
  refine ⟨.error raised :: failures, ?_, ?_⟩
  · intro f hf
    rcases List.mem_cons.mp hf with rfl | hf
    · exact nofun
    · exact hfa f hf
  · rcases he with ⟨hv, hl, rfl⟩ | ⟨hv, hl, rfl⟩ | ⟨hv, rfl⟩
    · exact .inl ⟨hv, Nat.succ_lt_succ hl, rfl⟩
    · exact .inr (.inl ⟨hv, congrArg Nat.succ hl, rfl⟩)
    · exact .inr (.inr ⟨hv, rfl⟩)

variable {st final : GatewayState} {events : List GatewayEvent}

theorem notifyOutcome_traces {document : SendOutcome} {attempts : ℕ} {value : Except Raised Bool}
    (ht : Traces st (SendConfig.notifyOutcome document attempts) events value final) :
    final = st ∧ Notified document attempts events value := by
  induction attempts generalizing events with
  | zero =>
    simp only [SendConfig.notifyOutcome, Proc.traces_pure] at ht
    obtain ⟨rfl, rfl, rfl⟩ := ht
    exact ⟨rfl, [], by simp, .inr (.inl ⟨rfl, rfl, rfl⟩)⟩
  | succ attempts ih =>
    simp only [SendConfig.notifyOutcome, Proc.traces_bind, Proc.traces_question] at ht
    obtain ⟨_, answer, _, rest, ⟨rfl, rfl⟩, hr, rfl⟩ := ht
    cases answer with
    | ok value =>
      obtain ⟨rfl, rfl, rfl⟩ := Proc.traces_pure.mp hr
      exact ⟨rfl, [], by simp, .inl ⟨rfl, Nat.succ_pos _, rfl⟩⟩
    | error raised =>
      cases raised with
      | interrupted =>
        obtain ⟨rfl, rfl, rfl⟩ := Proc.traces_pure.mp hr
        exact ⟨rfl, [], by simp, .inr (.inr ⟨rfl, rfl⟩)⟩
      | denied reason => exact ⟨(ih hr).1, (ih hr).2.retry (.denied reason)⟩
      | failed => exact ⟨(ih hr).1, (ih hr).2.retry .failed⟩

structure Journaled (document : SendOutcome) (state : GatewayState) (events : List GatewayEvent)
    (final : GatewayState) : Prop where
  noSend : sends events = []
  noConsume : consumes events = []
  journal : ∃ answers, notices events = answers.map (document, ·) ∧ Journal state answers final

variable {config : SendConfig} {consumed : SendConfig.Consumed}

theorem sendOutcome_traces {outcome : Outcome} {protocolStatus : String} {sentAt : Option ℤ}
    {transportResult : Option GatewayTransportResult} {value : Except Raised SendOutcome}
    (ht : Traces st (config.sendOutcome consumed outcome protocolStatus sentAt
      transportResult) events value final) :
    ∃ document, document.outcome = outcome ∧ Journaled document st events final := by
  simp only [SendConfig.sendOutcome, Proc.traces_bind, Proc.traces_question] at ht
  obtain ⟨_, uuid, _, _, ⟨rfl, rfl⟩, ⟨_, time, _, _, ⟨rfl, rfl⟩, ⟨noticed, ended, _, rest,
    hn, hr, rfl⟩, rfl⟩, rfl⟩ := ht
  obtain ⟨rfl, failures, hf, he⟩ := notifyOutcome_traces hn
  refine ⟨config.outcomeDocument consumed outcome protocolStatus sentAt transportResult uuid
    time, rfl, ?_⟩
  rcases he with ⟨rfl, hl, rfl⟩ | ⟨rfl, hl, rfl⟩ | ⟨rfl, rfl⟩
  · obtain ⟨rfl, rfl, rfl⟩ := Proc.traces_pure.mp hr
    exact ⟨by simp, by simp, _, by simp, .acknowledged failures hf hl⟩
  · simp only [Proc.traces_bind, Proc.traces_write, Proc.traces_pure] at hr
    obtain ⟨_, _, _, _, ⟨rfl, rfl⟩, ⟨rfl, rfl, rfl⟩, rfl⟩ := hr
    exact ⟨by simp, by simp, _, by simp, .latched failures hf hl⟩
  · obtain ⟨rfl, rfl, rfl⟩ := Proc.traces_pure.mp hr
    exact ⟨by simp, by simp, _, by simp, .interrupted failures⟩

structure Quiet (events : List GatewayEvent) : Prop where
  noSend : sends events = []
  noNotice : notices events = []
  noConsume : consumes events = []

theorem Journaled.append_quiet {document : SendOutcome} {more : List GatewayEvent}
    (hj : Journaled document st events final) (hq : Quiet more) :
    Journaled document st (events ++ more) final := by
  obtain ⟨hs, hc, answers, hn, hjo⟩ := hj
  exact ⟨by simp [hs, hq.noSend], by simp [hc, hq.noConsume], answers,
    by simp [hn, hq.noNotice], hjo⟩

variable {value : Except Raised GatewaySendResult}

theorem result_traces {fields : SendConfig.ResultFields}
    (ht : Traces st (config.result fields) events value final) :
    final = st ∧ Quiet events ∧ ∀ result, value = .ok result → result.status = fields.status := by
  simp only [SendConfig.result, Proc.traces_bind, Proc.traces_question] at ht
  obtain ⟨_, uuid, _, rest, ⟨rfl, rfl⟩, hr, rfl⟩ := ht
  split at hr
  · obtain ⟨rfl, rfl, rfl⟩ := Proc.traces_pure.mp hr
    refine ⟨rfl, ⟨rfl, rfl, rfl⟩, ?_⟩
    rintro result ⟨⟩
    rfl
  · split at hr
    · obtain ⟨rfl, rfl, rfl⟩ := Proc.traces_pure.mp hr
      exact ⟨rfl, ⟨rfl, rfl, rfl⟩, fun _ hv => by cases hv⟩
    · simp only [Proc.traces_bind, Proc.traces_question, Proc.traces_pure] at hr
      obtain ⟨_, rcpt, _, _, ⟨rfl, rfl⟩, ⟨rfl, rfl, rfl⟩, rfl⟩ := hr
      refine ⟨rfl, ⟨rfl, rfl, rfl⟩, ?_⟩
      rintro result ⟨⟩
      rfl

/-- An exit that journals `outcome` and, if it returns at all, returns `status`. -/
structure Report (outcome : Outcome) (status : SendStatus) (state : GatewayState)
    (events : List GatewayEvent) (value : Except Raised GatewaySendResult)
    (final : GatewayState) : Prop where
  status : ∀ result, value = .ok result → result.status = status
  journaled : ∃ document, document.outcome = outcome ∧ Journaled document state events final

theorem journal_then_result {outcome : Outcome} {status : SendStatus} {protocolStatus : String}
    {sentAt : Option ℤ} {transportResult : Option GatewayTransportResult}
    {next : SendOutcome → GatewayProc (Except Raised GatewaySendResult)}
    (hn : ∀ {document st events value final}, Traces st (next document) events value final →
        final = st ∧ Quiet events ∧ ∀ result, value = .ok result → result.status = status)
    (ht : Traces st (config.sendOutcome consumed outcome protocolStatus sentAt
      transportResult >>= fun journaled => orRaise journaled next) events value final) :
    Report outcome status st events value final := by
  obtain ⟨journal, ended, mid, rest, hjo, hr, rfl⟩ := Proc.traces_bind.mp ht
  obtain ⟨document, ho, hj⟩ := sendOutcome_traces hjo
  match ended, hr with
  | .error raised, hr =>
    obtain ⟨rfl, rfl, rfl⟩ := Proc.traces_pure.mp hr
    exact ⟨fun _ hv => (by cases hv), document, ho, by simpa using hj⟩
  | .ok found, hr =>
    obtain ⟨rfl, hq, hs⟩ := hn hr
    exact ⟨hs, document, ho, hj.append_quiet hq⟩

theorem Report.after_clock {outcome : Outcome} {status : SendStatus} {instant : ℤ}
    (hr : Report outcome status st events value final) :
    Report outcome status st (⟨.clock, instant⟩ :: events) value final := by
  obtain ⟨hs, document, ho, hse, hc, hj⟩ := hr
  exact ⟨hs, document, ho, hse, hc, hj⟩

theorem reportNotSent_traces {reason : String}
    (ht : Traces st (config.reportNotSent consumed reason) events value final) :
    Report .notSent .notSentAfterConsume st events value final := by
  refine journal_then_result ?_ ht
  intro document st events value final hre
  simp only [Proc.traces_bind, Proc.traces_question] at hre
  obtain ⟨_, now, _, _, ⟨rfl, rfl⟩, hr, rfl⟩ := hre
  obtain ⟨rfl, hq, hs⟩ := result_traces hr
  exact ⟨rfl, ⟨hq.noSend, hq.noNotice, hq.noConsume⟩, hs⟩

theorem reportUnknown_traces (ht : Traces st (config.reportUnknown consumed) events value final) :
    Report .sentUnknown .sentUnknown st events value final := by
  obtain ⟨_, sentAt, _, _, hc, hre, rfl⟩ := Proc.traces_bind.mp ht
  obtain ⟨rfl, rfl⟩ := Proc.traces_question.mp hc
  refine (journal_then_result ?_ hre).after_clock
  intro document st events value final hr
  exact result_traces hr

theorem reportDefinite_traces {transportResult : GatewayTransportResult}
    (ht : Traces st (config.reportDefinite consumed transportResult) events value final) :
    Report .sentDefiniteResult .sentDefiniteResult st events value final := by
  obtain ⟨_, sentAt, _, _, hc, hre, rfl⟩ := Proc.traces_bind.mp ht
  obtain ⟨rfl, rfl⟩ := Proc.traces_question.mp hc
  refine (journal_then_result ?_ hre).after_clock
  intro document st events value final hr
  exact result_traces hr

def AfterSend (answer : Except Raised GatewayTransportResult) (state : GatewayState)
    (events : List GatewayEvent) (value : Except Raised GatewaySendResult)
    (final : GatewayState) : Prop :=
  match answer with
  | .ok _ => Report .sentDefiniteResult .sentDefiniteResult state events value final
  | .error (.denied _) => Report .notSent .notSentAfterConsume state events value final
  | .error .failed => Report .sentUnknown .sentUnknown state events value final
  | .error .interrupted => events = [] ∧ value = .error .interrupted ∧ final = state

inductive Granted (config : SendConfig) (consumed : SendConfig.Consumed) (grant : ConsumeGranted)
    (wire : Bytes) (state : GatewayState) :
    List GatewayEvent → Except Raised GatewaySendResult → GatewayState → Prop
  | refused {now : ℤ} {rest : List GatewayEvent} {value : Except Raised GatewaySendResult}
      {final : GatewayState}
      (hreport : Report .notSent .notSentAfterConsume state rest value final) :
      Granted config consumed grant wire state (⟨.clock, now⟩ :: rest) value final
  | unreadable {now : ℤ} {rest : List GatewayEvent} {value : Except Raised GatewaySendResult}
      {final : GatewayState} (hreport : Report .sentUnknown .sentUnknown state rest value final) :
      Granted config consumed grant wire state (⟨.clock, now⟩ :: rest) value final
  | invoked {now : ℤ} {answer : Except Raised GatewayTransportResult} {rest : List GatewayEvent}
      {value : Except Raised GatewaySendResult} {final : GatewayState}
      (hchecks : config.sendOnceChecks consumed.request grant now
        (config.expectedBinding consumed.binding consumed.facts) = .ok ())
      (hafter : AfterSend answer state rest value final) :
      Granted config consumed grant wire state
        (⟨.clock, now⟩ :: ⟨.transport consumed.request wire, answer⟩ :: rest) value final

theorem sendOnceChecks_ne_interrupted {request : ClosedGatewayRequest} {grant : ConsumeGranted}
    {now : ℤ} {expected : String × ℤ × String × String} :
    config.sendOnceChecks request grant now expected ≠ .error .interrupted := by
  unfold SendConfig.sendOnceChecks
  cases validateDestination request with
  | error reason => simp
  | ok _ =>
    cases grant.sendDeadline with
    | none => dsimp only; split_ifs <;> simp
    | some deadline => dsimp only; split_ifs <;> simp

theorem sendGranted_traces {grant : ConsumeGranted} {wire : Bytes}
    (hw : preparedWireBytes consumed.request = .ok wire)
    (hh : config.digests.sha256 wire = consumed.request.wireBytesHash)
    (ht : Traces st (config.sendGranted consumed grant) events value final) :
    Granted config consumed grant wire st events value final := by
  unfold SendConfig.sendGranted at ht
  simp only [hw, hh, ne_eq, not_true_eq_false, if_false] at ht
  obtain ⟨_, now, _, _, hcl, hs, rfl⟩ := Proc.traces_bind.mp ht
  obtain ⟨rfl, rfl⟩ := Proc.traces_question.mp hcl
  obtain ⟨attempt, ended, mid, rest, ha, hr, rfl⟩ := Proc.traces_bind.mp hs
  unfold SendConfig.sendOnce at ha
  split at ha
  · rename_i raised hc
    obtain ⟨rfl, rfl, rfl⟩ := Proc.traces_pure.mp ha
    match raised, hc, hr with
    | .denied reason, _, hr => exact .refused (reportNotSent_traces hr)
    | .failed, _, hr => exact .unreadable (reportUnknown_traces hr)
    | .interrupted, hc, _ => exact absurd hc sendOnceChecks_ne_interrupted
  · rename_i hc
    obtain ⟨rfl, rfl⟩ := Proc.traces_question.mp ha
    refine .invoked hc ?_
    match ended, hr with
    | .ok transportResult, hr => exact reportDefinite_traces hr
    | .error (.denied reason), hr => exact reportNotSent_traces hr
    | .error .failed, hr => exact reportUnknown_traces hr
    | .error .interrupted, hr => exact Proc.traces_pure.mp hr

inductive Answered (config : SendConfig) (message : GatewayMessage)
    (request : ClosedGatewayRequest) (facts : OperationFacts) (binding : PermitBinding)
    (consume : ConsumeRequest) (wire : Bytes) (state : GatewayState) : ConsumeAnswer →
    List GatewayEvent → Except Raised GatewaySendResult → GatewayState → Prop
  | ungranted {answer : ConsumeAnswer} {events : List GatewayEvent}
      {value : Except Raised GatewaySendResult}
      (hunusable : ∀ reply, answer = .replied reply → reply.decision = some .granted →
        config.replyValid reply = true → (config.replyDigest reply).isSome = true →
          config.consumeResponseMatches reply consume request binding = none)
      (hquiet : Quiet events)
      (hstatus : ∀ result, value = .ok result → result.status = .consumeDenied) :
      Answered config message request facts binding consume wire state answer events value state
  | unsent {reply : ConsumeReply} {events : List GatewayEvent}
      {value : Except Raised GatewaySendResult} {final : GatewayState}
      (hreport : Report .notSent .notSentAfterConsume state events value final) :
      Answered config message request facts binding consume wire state (.replied reply) events
        value final
  | granted {reply : ConsumeReply} {grant : ConsumeGranted} {decisionHash : String}
      {events : List GatewayEvent} {value : Except Raised GatewaySendResult}
      {final : GatewayState} (hgranted : reply.decision = some .granted)
      (hmatches : config.consumeResponseMatches reply consume request binding = some true)
      (hgrant : SendConfig.grant reply = some grant)
      (hsent : Granted config ⟨message, request, facts, binding, reply.messageId, decisionHash⟩
        grant wire state events value final) :
      Answered config message request facts binding consume wire state (.replied reply) events
        value final

theorem handleReply_traces {msg : GatewayMessage} {request : ClosedGatewayRequest}
    {facts : OperationFacts} {binding : PermitBinding} {now : ℤ} {consume : ConsumeRequest}
    {reply : ConsumeReply} {wire : Bytes} (hw : preparedWireBytes request = .ok wire)
    (hh : config.digests.sha256 wire = request.wireBytesHash)
    (ht : Traces st (config.handleReply msg request facts binding now consume reply)
      events value final) :
    Answered config msg request facts binding consume wire st (.replied reply) events value
      final := by
  unfold SendConfig.handleReply at ht
  by_cases hva : config.replyValid reply = false
  · simp only [hva, Bool.not_false, if_true] at ht
    obtain ⟨rfl, rfl, rfl⟩ := Proc.traces_pure.mp ht
    refine .ungranted ?_ ⟨rfl, rfl, rfl⟩ (fun _ hv => by cases hv)
    rintro _ ⟨⟩ _ hr
    simp [hr] at hva
  simp only [Bool.not_eq_false] at hva
  simp only [hva, Bool.not_true, Bool.false_eq_true, if_false] at ht
  split at ht
  · rename_i hdigest
    obtain ⟨rfl, rfl, rfl⟩ := Proc.traces_pure.mp ht
    refine .ungranted ?_ ⟨rfl, rfl, rfl⟩ (fun _ hv => by cases hv)
    rintro _ ⟨⟩ _ _ hc
    simp [hdigest] at hc
  rename_i decisionHash hdigest
  split at ht
  · rename_i hmatches
    obtain ⟨rfl, rfl, rfl⟩ := Proc.traces_pure.mp ht
    refine .ungranted ?_ ⟨rfl, rfl, rfl⟩ (fun _ hv => by cases hv)
    rintro _ ⟨⟩ _ _ _
    exact hmatches
  · split_ifs at ht with hg
    · exact .unsent (reportNotSent_traces ht)
    · obtain ⟨rfl, rfl, rfl⟩ := Proc.traces_pure.mp ht
      refine .ungranted ?_ ⟨rfl, rfl, rfl⟩ (fun _ hv => by cases hv)
      rintro _ ⟨⟩ hd
      exact absurd hd hg
  · rename_i hmatches
    split_ifs at ht with hg
    · obtain ⟨rfl, hq, hs⟩ := result_traces ht
      refine .ungranted ?_ hq hs
      rintro _ ⟨⟩ hd
      exact absurd hd hg
    · split at ht
      · exact .unsent (reportNotSent_traces ht)
      · rename_i grant hgrant
        exact .granted (not_not.mp hg) hmatches hgrant (sendGranted_traces hw hh ht)

inductive CallShape (config : SendConfig) (message : GatewayMessage) (peer : PeerCredentials)
    (state : GatewayState) :
    List GatewayEvent → Except Raised GatewaySendResult → GatewayState → Prop
  | overflowed {now : ℤ} (hopen : state.outcomeJournalFailed = false) :
      CallShape config message peer state [⟨.clock, now⟩] (.error .failed) state
  | refused {now : ℤ} {uuid : String} {result : GatewaySendResult}
      (hstatus : result.status = .deniedBeforeConsume) :
      CallShape config message peer state [⟨.clock, now⟩, ⟨.uuid, uuid⟩] (.ok result) state
  | consumed {now : ℤ} {uuid : String} {request : ClosedGatewayRequest}
      {endpoint : EndpointPolicy} {facts : OperationFacts} {wire : Bytes}
      {binding : PermitBinding} {answer : ConsumeAnswer} {rest : List GatewayEvent}
      {value : Except Raised GatewaySendResult} {final : GatewayState}
      (hopen : state.outcomeJournalFailed = false)
      (hadmitted : Admitted config.toGatewayConfig message peer now request endpoint facts wire)
      (hbinding : message.permitBinding = some binding)
      (hanswered : Answered config message request facts binding
        (config.consumeRequest message request facts binding now uuid) wire state answer rest
        value final) :
      CallShape config message peer state (⟨.clock, now⟩ :: ⟨.uuid, uuid⟩ ::
        ⟨.consume (config.consumeRequest message request facts binding now uuid), answer⟩ :: rest)
        value final

theorem admit_latched {gateway : GatewayConfig} {msg : GatewayMessage}
    {peer : PeerCredentials} {now : ℤ} :
    ∃ reason, gateway.admit true msg peer now = .error (.refused reason) := by
  unfold GatewayConfig.admit
  split
  · exact ⟨_, rfl⟩
  · exact ⟨_, rfl⟩

theorem admit_overflow_open {gateway : GatewayConfig} {latched : Bool} {msg : GatewayMessage}
    {peer : PeerCredentials} {now : ℤ}
    (ha : gateway.admit latched msg peer now = .error .overflow) : latched = false := by
  cases latched with
  | false => rfl
  | true =>
    obtain ⟨reason, hr⟩ :=
      @admit_latched gateway msg peer now
    rw [hr] at ha
    cases ha

theorem consumePermit_traces {msg : GatewayMessage} {peer : PeerCredentials} {now : ℤ}
    {request : ClosedGatewayRequest} {endpoint : EndpointPolicy} {facts : OperationFacts}
    {wire : Bytes} {binding : PermitBinding} (ho : st.outcomeJournalFailed = false)
    (ha : Admitted config.toGatewayConfig msg peer now request endpoint facts wire)
    (hb : msg.permitBinding = some binding)
    (ht : Traces st (config.consumePermit msg request facts binding now) events value final) :
    CallShape config msg peer st (⟨.clock, now⟩ :: events) value final := by
  unfold SendConfig.consumePermit at ht
  obtain ⟨_, uuid, _, _, hu, hca, rfl⟩ := Proc.traces_bind.mp ht
  obtain ⟨rfl, rfl⟩ := Proc.traces_question.mp hu
  obtain ⟨_, answer, _, rest, hc, hre, rfl⟩ := Proc.traces_bind.mp hca
  obtain ⟨rfl, rfl⟩ := Proc.traces_question.mp hc
  refine .consumed ho ha hb ?_
  match answer, hre with
  | .raised exception, hre =>
    obtain ⟨rfl, rfl, rfl⟩ := Proc.traces_pure.mp hre
    exact .ungranted (fun _ hr => by cases hr) ⟨rfl, rfl, rfl⟩ (fun _ hv => by cases hv)
  | .unavailable, hre =>
    obtain ⟨rfl, rfl, rfl⟩ := Proc.traces_pure.mp hre
    exact .ungranted (fun _ hr => by cases hr) ⟨rfl, rfl, rfl⟩ (fun _ hv => by cases hv)
  | .replied reply, hre =>
    exact handleReply_traces ha.wireBytes ha.wireHash hre

theorem call_cases {msg : GatewayMessage} {peer : PeerCredentials}
    (ht : Traces st (config.call msg peer) events value final) :
    CallShape config msg peer st events value final := by
  unfold SendConfig.call at ht
  obtain ⟨_, now, _, _, hc, haf, rfl⟩ := Proc.traces_bind.mp ht
  obtain ⟨rfl, rfl⟩ := Proc.traces_question.mp hc
  obtain ⟨_, latched, _, _, hr, hca, rfl⟩ := Proc.traces_bind.mp haf
  obtain ⟨rfl, rfl, rfl⟩ := Proc.traces_read.mp hr
  split at hca
  · rename_i hadmission
    obtain ⟨rfl, rfl, rfl⟩ := Proc.traces_pure.mp hca
    exact .overflowed (admit_overflow_open hadmission)
  · simp only [SendConfig.result, Proc.traces_bind, Proc.traces_question, Proc.traces_pure]
      at hca
    obtain ⟨_, uuid, _, _, ⟨rfl, rfl⟩, ⟨rfl, rfl, rfl⟩, rfl⟩ := hca
    exact .refused rfl
  · rename_i request endpoint facts hadmission
    obtain ⟨ho, wire, ha⟩ := admit_eq_ok_iff.mp hadmission
    obtain ⟨binding, expiry, hb, _⟩ := admitBinding_eq_ok_iff.mp ha.binding
    simp only [hb] at hca
    exact consumePermit_traces ho ha hb hca

end AiQuant.Gateway
