import AiQuant.CopyTrading.ControlRun

/-! What every receipt of the executor says, for any answers of the exchange: its
quantities, the request it is about, and the answer that decided its state. -/
namespace AiQuant.CopyTrading
open AiQuant.Lib

def Asked.orderReply : Asked → Option (Except ProbeError OrderResponse)
  | ⟨_, .placeOrder _, reply⟩ => some reply
  | ⟨_, .queryOrder _ _, reply⟩ => some reply
  | ⟨_, .cancelOrder _ _, reply⟩ => some reply
  | _ => none

def lastOrderReply (asked : List Asked) : Option (Except ProbeError OrderResponse) :=
  (asked.filterMap (·.orderReply)).getLast?

theorem lastOrderReply_concat (asked : List Asked) (last : Asked) :
    lastOrderReply (asked ++ [last]) = last.orderReply.or (lastOrderReply asked) := by
  unfold lastOrderReply
  rw [List.filterMap_append, List.filterMap_cons, List.filterMap_nil]
  cases last.orderReply with
  | none => simp
  | some reply => simp

/-- The response names the receipt's order and reports a fill of it. -/
def CopyExecutionReceipt.FillReported (receipt : CopyExecutionReceipt) (response : OrderResponse) :
    Prop :=
  response.clientOrderId = some (.text receipt.clientOrderId) ∧
    ∃ filled, response.executedQty = .finite filled ∧ 0 < filled ∧
      filled ≤ receipt.requestedQuantity

/-- The last answer about the order agrees with the receipt: `REJECTED` never hides a
reported fill, and `ACKNOWLEDGED` is the exchange's own `NEW`. -/
structure DecidedBy (last : Option (Except ProbeError OrderResponse))
    (receipt : CopyExecutionReceipt) : Prop where
  rejected : receipt.state = .rejected →
    ∀ response, last = some (.ok response) → ¬receipt.FillReported response
  acknowledged : receipt.state = .acknowledged →
    ∃ response, last = some (.ok response) ∧ response.status = some (.text "NEW")

def terminalStatuses : List String := ["FILLED", "CANCELED", "EXPIRED", "REJECTED"]

structure EndedBy (clientOrderId : String) (filled : Decimal) (response : OrderResponse) :
    Prop where
  client : response.clientOrderId = some (.text clientOrderId)
  status : ∃ status ∈ terminalStatuses, response.status = some (.text status)
  executed : response.executedQty = .finite filled

def FilledBy (last : Option (Except ProbeError OrderResponse)) (receipt : CopyExecutionReceipt) :
    Prop :=
  receipt.isTerminal = true → 0 < receipt.averagePrice →
    ∃ response, last = some (.ok response) ∧
      EndedBy receipt.clientOrderId receipt.filledQuantity response

variable {rcpt : CopyExecutionReceipt}

theorem filledBy_of_not_terminal (ho : rcpt.isTerminal = false)
    (last : Option (Except ProbeError OrderResponse)) : FilledBy last rcpt := by
  intro ht
  rw [ho] at ht
  cases ht

theorem isTerminal_emptyReceipt {st : CopyExecutionState} (hs : st = .rejected ∨ st = .unknown)
    (ord : CopyMarketOrder) (orderId : String) (codes : List String) :
    (emptyReceipt st ord orderId codes).isTerminal = false := by
  rcases hs with rfl | rfl <;> simp [emptyReceipt, CopyExecutionReceipt.isTerminal]

/-- A receipt's quantities: the fill is part of the request, and `REJECTED` has none. -/
structure CopyExecutionReceipt.Bounded (receipt : CopyExecutionReceipt) : Prop where
  filled_nonneg : 0 ≤ receipt.filledQuantity
  filled_le : receipt.filledQuantity ≤ receipt.requestedQuantity
  rejected : receipt.state = .rejected → receipt.filledQuantity = 0

structure OrderReceipt (order : CopyMarketOrder) (clientOrderId : String)
    (receipt : CopyExecutionReceipt) : Prop extends receipt.Bounded where
  requested : receipt.requestedQuantity = order.localQuantity
  client : receipt.clientOrderId = clientOrderId

theorem decidedBy_of_other (hr : rcpt.state ≠ .rejected) (ha : rcpt.state ≠ .acknowledged)
    (last : Option (Except ProbeError OrderResponse)) : DecidedBy last rcpt :=
  ⟨fun hs => absurd hs hr, fun hs => absurd hs ha⟩

theorem decidedBy_of_unknown (hs : rcpt.state = .unknown)
    (last : Option (Except ProbeError OrderResponse)) : DecidedBy last rcpt :=
  decidedBy_of_other (by simp [hs]) (by simp [hs]) last

theorem state_of_isTerminal (ht : rcpt.isTerminal = true) :
    rcpt.state ≠ .rejected ∧ rcpt.state ≠ .acknowledged := by
  constructor <;>
  · intro hs
    simp [CopyExecutionReceipt.isTerminal, hs] at ht

theorem decidedBy_of_error (hs : rcpt.state = .rejected)
    (error : ProbeError) : DecidedBy (some (.error error)) rcpt :=
  ⟨fun _ resp hl => by simp at hl,
    fun ha => by simp [hs] at ha⟩

theorem emptyReceipt_orderReceipt (st : CopyExecutionState) (ord : CopyMarketOrder)
    (orderId : String) (codes : List String) :
    OrderReceipt ord orderId (emptyReceipt st ord orderId codes) where
  filled_nonneg := le_rfl
  filled_le := ord.localQuantity_pos.le
  rejected _ := rfl
  requested := rfl
  client := rfl

def PlainCodes (reasonCodes : List String) : Prop :=
  "COPY_ORDER_PARTIAL_TERMINAL" ∉ reasonCodes

/-- A call that began when the trace had `before` entries: the last answer it got about an
order, and the claims as they were. -/
structure CallAt (before : ℕ) (log : EventLog) (last : Option (Except ProbeError OrderResponse))
    (world : World) : Prop where
  started : before ≤ world.trace.length
  last : lastOrderReply (world.trace.drop before) = last
  claims : world.log.claims = log.claims
  upgrades : world.log.policyUpgrades = log.policyUpgrades

section CallAt

variable {pre : ℕ} {log : EventLog} {last : Option (Except ProbeError OrderResponse)}
  {world post : World}

theorem callAt_start (world : World) : CallAt world.trace.length world.log none world :=
  ⟨le_rfl, by simp [lastOrderReply], rfl, rfl⟩

section

variable (hat : CallAt pre log last world)
include hat

theorem CallAt.asks {qry : Query} {reply : qry.Reply} (ha : Answers world qry reply post) :
    CallAt pre log ((Asked.mk world.log qry reply).orderReply.or last) post := by
  obtain ⟨ht, ho⟩ := ha
  refine ⟨?_, ?_, ho.claims.trans hat.claims, ho.policyUpgrades.trans hat.upgrades⟩
  · rw [ht, List.length_append]
    exact hat.started.trans (Nat.le_add_right _ _)
  · rw [ht, List.drop_append_of_le_length hat.started, lastOrderReply_concat, hat.last]

theorem CallAt.recorded (ev : SubmissionEvent) :
    CallAt pre log last { world with log := world.log.recordSubmission ev } :=
  ⟨hat.started, hat.last, (recordSubmission_claims ev).trans hat.claims,
    (recordSubmission_policyUpgrades ev).trans hat.upgrades⟩

theorem recordNow_at (signalId : Digest) (st : SubmissionState) (filledQuantity : Decimal)
    (exchangeOrderId : Option String) (resp : Option OrderResponse) (codes : List String) :
    (recordNow signalId st filledQuantity exchangeOrderId resp codes).Safe Answers
      (fun _ => True) (fun _ => CallAt pre log last) world := by
  simp only [recordNow, clock, writeLog, Proc.safe_bind, Proc.safe_question, Proc.safe_write,
    true_and]
  intro time asked ha
  exact (hat.asks ha).recorded _

theorem terminationReasons_at (ord : CopyMarketOrder) (status : String) (codes : List String) :
    (terminationReasons ord status codes).Safe Answers (fun _ => True)
      (fun additional reached => CallAt pre log last reached ∧
        (PlainCodes codes → PlainCodes additional)) world := by
  unfold terminationReasons
  split
  · simp only [clock, Proc.safe_bind, Proc.safe_question, true_and]
    intro now asked ha
    split <;> exact ⟨hat.asks ha, fun hp => by simpa [PlainCodes] using hp⟩
  · exact ⟨hat, id⟩

end

end CallAt

variable {status : String} {filled : Decimal}

theorem readResponse_fields {ord : CopyMarketOrder} {orderId : String} {resp : OrderResponse}
    {price : Decimal} (hr : readResponse ord orderId resp = some (status, filled, price)) :
    resp.clientOrderId = some (.text orderId) ∧ resp.status = some (.text status) ∧
      resp.executedQty = .finite filled ∧ 0 ≤ filled ∧ filled ≤ ord.localQuantity := by
  unfold readResponse at hr
  split at hr
  · rename_i text hs
    simp only [Option.bind_eq_bind, Option.bind_some, Option.bind_eq_some_iff] at hr
    obtain ⟨qty, hq, average, -, value, -, hc⟩ := hr
    split at hc
    · rename_i hv
      obtain ⟨rfl, rfl, rfl⟩ : text = status ∧ qty = filled ∧ value = price := by
        simpa using hc
      refine ⟨hv.1, hs, ?_, hv.2.1, hv.2.2.1⟩
      cases he : resp.executedQty with
      | finite found => simpa [he, DecimalText.finite?] using hq
      | _ => simp [he, DecimalText.finite?] at hq
    · cases hc
  · cases hr

variable {reconciled : Bool}

theorem mapExchangeState_rejected
    (hs : (mapExchangeState status filled reconciled).1 = .rejected) : filled ≤ 0 := by
  unfold mapExchangeState at hs
  repeat' split at hs
  all_goals first | exact not_lt.mp ‹¬0 < filled› | cases hs

theorem mapExchangeState_acknowledged
    (hs : (mapExchangeState status filled reconciled).1 = .acknowledged) : status = "NEW" := by
  unfold mapExchangeState at hs
  repeat' split at hs
  all_goals first | exact ‹status = "NEW"› | cases hs

theorem mapExchangeState_terminal (hs : (mapExchangeState status filled reconciled).1 = .filled ∨
      (mapExchangeState status filled reconciled).1 = .reconciled ∨
      "COPY_ORDER_PARTIAL_TERMINAL" ∈ (mapExchangeState status filled reconciled).2) :
    status ∈ terminalStatuses := by
  unfold mapExchangeState at hs
  unfold terminalStatuses
  repeat' split at hs
  all_goals simp_all

section Executor

variable {pre : ℕ} {log : EventLog} {last : Option (Except ProbeError OrderResponse)}
  {world : World} {ord : CopyMarketOrder} {orderId : String}

/-- A receipt for the order, decided by the last answer about it.  `plain` says that the reason
codes of the call are. -/
def Settled (plain : Prop) (before : ℕ) (log : EventLog) (order : CopyMarketOrder)
    (clientOrderId : String) (receipt : CopyExecutionReceipt) (reached : World) : Prop :=
  OrderReceipt order clientOrderId receipt ∧ ∃ last, CallAt before log last reached ∧
    DecidedBy last receipt ∧ (plain → FilledBy last receipt)

abbrev Settles (plain : Prop) (before : ℕ) (log : EventLog) (order : CopyMarketOrder)
    (clientOrderId : String) (proc : Engine CopyExecutionReceipt) (world : World) : Prop :=
  proc.Safe Answers (fun _ => True) (Settled plain before log order clientOrderId) world

theorem Settles.plainer {plain plainer : Prop} {proc : Engine CopyExecutionReceipt}
    (hs : Settles plain pre log ord orderId proc world)
    (hp : plainer → plain) : Settles plainer pre log ord orderId proc world := by
  apply Proc.Safe.mono hs
  rintro rcpt reached ⟨hr, last, hat, hd, hf⟩
  exact ⟨hr, last, hat, hd, fun hc => hf (hp hc)⟩

variable {reached : World}

theorem settled_emptyReceipt {plain : Prop} {st : CopyExecutionState}
    (hat : CallAt pre log last reached) (hs : st = .rejected ∨ st = .unknown) (codes : List String)
    (hd : DecidedBy last (emptyReceipt st ord orderId codes)) : Settled plain pre log ord orderId
      (emptyReceipt st ord orderId codes) reached :=
  ⟨emptyReceipt_orderReceipt _ _ _ _, last, hat, hd,
    fun _ => filledBy_of_not_terminal (isTerminal_emptyReceipt hs _ _ _) last⟩

theorem receiptFromResponse_settles {resp : OrderResponse}
    (hat : CallAt pre log (some (.ok resp)) world) (reconciled : Bool) (codes : List String) :
    Settles (PlainCodes codes) pre log ord orderId
      (receiptFromResponse ord orderId resp reconciled codes) world := by
  unfold receiptFromResponse
  split
  · simp only [Settles, Proc.safe_bind]
    apply (recordNow_at hat _ _ _ _ _ _).mono
    intro _ reached hre
    exact settled_emptyReceipt hre (Or.inr rfl) _ (decidedBy_of_unknown rfl _)
  · rename_i status filled price hread
    obtain ⟨hcl, hs, he, hn, hle⟩ := readResponse_fields hread
    simp only [Settles, Proc.safe_bind]
    apply (terminationReasons_at hat _ _ _).mono
    rintro additional timed ⟨hti, hpl⟩
    apply (recordNow_at hti _ _ _ _ _ _).mono
    intro _ reached hre
    refine ⟨⟨⟨hn, hle, ?_⟩, rfl, rfl⟩, _, hre, ⟨?_, ?_⟩, ?_⟩
    · intro hr
      exact le_antisymm (mapExchangeState_rejected hr) hn
    · rintro hr other ho ⟨-, found, hf, hp, -⟩
      cases ho
      rw [he] at hf
      cases hf
      exact absurd hp (not_lt.mpr (mapExchangeState_rejected hr))
    · intro ha
      rw [mapExchangeState_acknowledged ha] at hs
      exact ⟨resp, rfl, hs⟩
    · intro hc ht _
      have had : "COPY_ORDER_PARTIAL_TERMINAL" ∉ additional := by
        apply hpl
        split
        · simpa [PlainCodes] using hc
        · exact hc
      refine ⟨resp, rfl, hcl, ⟨status, ?_, hs⟩, he⟩
      apply mapExchangeState_terminal
      simp only [CopyExecutionReceipt.isTerminal, Bool.or_eq_true, Bool.and_eq_true,
        decide_eq_true_eq, List.mem_eraseDups, List.mem_append, had, false_or] at ht
      rcases ht with (hfi | hrec) | ⟨-, hk⟩
      · exact Or.inl hfi
      · exact Or.inr (Or.inl hrec)
      · refine Or.inr (Or.inr ?_)
        split at hk
        · exact List.mem_of_mem_filter hk
        · exact hk

theorem queryFillPrice_settles (hat : CallAt pre log last world) (codes : List String)
    (retries : ℕ) : (queryFillPrice ord orderId codes retries).Safe Answers (fun _ => True)
      (fun queried reached => match queried with
        | none => ∃ last, CallAt pre log last reached
        | some rcpt => Settled (PlainCodes codes) pre log ord orderId rcpt
          reached) world := by
  induction retries generalizing last world with
  | zero => exact ⟨_, hat⟩
  | succ retries ih =>
    simp only [queryFillPrice, queryOrder, Proc.safe_bind, Proc.safe_question, true_and]
    intro reply asked han
    have ha := hat.asks han
    split
    · exact ih ha
    · split
      · rw [Proc.safe_bind]
        exact (receiptFromResponse_settles ha _ _).mono fun _ _ hr => hr
      · exact ih ha

variable (cfg : ExecutorSettings)

theorem receiptWithImmediateFillPrice_settles {resp : OrderResponse}
    (hat : CallAt pre log (some (.ok resp)) world) (reconciled : Bool) (codes : List String) :
    Settles (PlainCodes codes) pre log ord orderId (receiptWithImmediateFillPrice
      cfg ord orderId resp reconciled codes) world := by
  simp only [Settles, receiptWithImmediateFillPrice, Proc.safe_bind]
  apply (receiptFromResponse_settles hat _ _).mono
  rintro rcpt reached ⟨hr, decided, hre, hd, hf⟩
  split
  · rename_i hmissing
    rw [Proc.safe_bind]
    apply (queryFillPrice_settles hre _ _).mono
    intro queried asked ha
    split
    · exact ha
    · -- the fill stays final, only its price is still missing
      obtain ⟨last, hl⟩ := ha
      simp only [CopyExecutionReceipt.priceMissing, Bool.and_eq_true, decide_eq_true_eq]
        at hmissing
      have ht : rcpt.isTerminal = true := hmissing.1.1
      rw [Proc.safe_bind]
      apply (recordNow_at hl _ _ _ _ _ _).mono
      intro _ recorded hrec
      refine ⟨⟨⟨hr.filled_nonneg, hr.filled_le, hr.rejected⟩,
        hr.requested, hr.client⟩, _, hrec, ?_, ?_⟩
      · apply decidedBy_of_other
        · exact (state_of_isTerminal ht).1
        · exact (state_of_isTerminal ht).2
      · intro _ _ hp
        exact absurd hmissing.2 (not_le.mpr hp)
  · exact ⟨hr, decided, hre, hd, hf⟩

theorem rejectAndRecord_settles {error : ProbeError}
    (hat : CallAt pre log (some (.error error)) world) (codes : List String) :
    Settles True pre log ord orderId (rejectAndRecord ord orderId codes)
      world := by
  simp only [Settles, rejectAndRecord, Proc.safe_bind]
  apply (recordNow_at hat _ _ _ _ _ _).mono
  intro _ reached hr
  exact settled_emptyReceipt hr (Or.inl rfl) _ (decidedBy_of_error rfl _)

section

variable (hat : CallAt pre log last world)
include hat

theorem unknownAndRecord_at (codes : List String) :
    (unknownAndRecord ord orderId codes).Safe Answers (fun _ => True)
      (fun rcpt reached => rcpt = emptyReceipt .unknown ord orderId codes ∧
        CallAt pre log last reached) world := by
  simp only [unknownAndRecord, Proc.safe_bind]
  apply (recordNow_at hat _ _ _ _ _ _).mono
  intro _ reached hr
  exact ⟨rfl, hr⟩

theorem unknownAndRecord_settles (codes : List String) :
    Settles True pre log ord orderId (unknownAndRecord ord orderId codes)
      world := by
  apply (unknownAndRecord_at hat codes).mono
  rintro _ reached ⟨rfl, hr⟩
  exact settled_emptyReceipt hr (Or.inr rfl) _ (decidedBy_of_unknown rfl _)

theorem reconcileAfterUncertainSubmit_settles (codes : List String) :
    Settles (PlainCodes codes) pre log ord orderId
      (reconcileAfterUncertainSubmit cfg ord orderId codes) world := by
  simp only [Settles, reconcileAfterUncertainSubmit, queryOrder, Proc.safe_bind,
    Proc.safe_question, true_and]
  intro reply asked han
  have ha := hat.asks han
  split
  · exact (unknownAndRecord_settles ha _).plainer fun _ => trivial
  · exact receiptWithImmediateFillPrice_settles cfg ha _ _

theorem placeAndReconcile_settles (codes : List String) :
    Settles (PlainCodes codes) pre log ord orderId
      (placeAndReconcile cfg ord orderId codes) world := by
  simp only [Settles, placeAndReconcile, placeOrder, Proc.safe_bind, Proc.safe_question, true_and]
  intro reply asked han
  have ha := hat.asks han
  split
  · split
    · exact (rejectAndRecord_settles ha _).plainer fun _ => trivial
    · exact reconcileAfterUncertainSubmit_settles cfg ha _
  · exact receiptWithImmediateFillPrice_settles cfg ha _ _

theorem resubmitPersistentEntry_settles : Settles True pre log ord orderId
      (resubmitPersistentEntry cfg ord orderId) world := by
  simp only [Settles, resubmitPersistentEntry, changeInitialLeverage, Proc.safe_bind]
  apply (recordNow_at hat _ _ _ _ _ _).mono
  intro _ recorded hr
  simp only [Proc.safe_question, true_and]
  intro reply asked ha
  have has := hr.asks ha
  split
  · exact Proc.safe_halt
  · exact (placeAndReconcile_settles cfg has _).plainer fun _ => by
      simp [PlainCodes, resubmittedReason]

theorem submissionDefinitivelyAbsent_at (error : ProbeError) (claimedAt : Time) :
    (submissionDefinitivelyAbsent ord orderId error claimedAt).Safe Answers
      (fun _ => True) (fun _ => CallAt pre log last) world := by
  unfold submissionDefinitivelyAbsent
  split
  · simp only [clock, openOrders, Proc.safe_bind, Proc.safe_question, true_and]
    intro now timed ha
    have ht := hat.asks ha
    split
    · exact ht
    simp only [Proc.safe_bind, Proc.safe_question, true_and]
    intro listing listed ha
    have hl := ht.asks ha
    split <;> exact hl
  · exact hat

theorem cancelExisting_settles (reasonCode : String) (claimedAt : Time) :
    Settles (PlainCodes [reasonCode]) pre log ord orderId
      (cancelExisting cfg ord orderId reasonCode claimedAt) world := by
  simp only [Settles, cancelExisting, cancelOrder, Proc.safe_bind, Proc.safe_question, true_and]
  intro cancelled asked ha
  have has := hat.asks ha
  split
  · exact receiptWithImmediateFillPrice_settles cfg has _ _
  simp only [queryOrder, Proc.safe_bind, Proc.safe_question, true_and]
  intro queried found ha
  have hf := has.asks ha
  split
  · exact receiptWithImmediateFillPrice_settles cfg hf _ _
  rw [Proc.safe_bind]
  apply (submissionDefinitivelyAbsent_at hf _ _).mono
  intro absent reached hr
  split
  · exact (rejectAndRecord_settles hr _).plainer fun _ => trivial
  · exact (unknownAndRecord_settles hr _).plainer fun _ => trivial

theorem reconcileExisting_settles (claimedAt : Time) : Settles True pre log ord orderId
      (reconcileExisting cfg ord orderId claimedAt) world := by
  simp only [Settles, reconcileExisting, queryOrder, Proc.safe_bind, Proc.safe_question, true_and]
  intro queried asked ha
  have has := hat.asks ha
  split
  · rw [Proc.safe_bind]
    apply (submissionDefinitivelyAbsent_at has _ _).mono
    intro absent reached hr
    split
    · split
      · exact resubmitPersistentEntry_settles cfg hr
      · exact rejectAndRecord_settles hr _
    · exact settled_emptyReceipt hr (Or.inr rfl) _ (decidedBy_of_unknown rfl _)
  · simp only [clock, Proc.safe_bind, Proc.safe_question, true_and]
    intro now timed ha
    have ht := has.asks ha
    split
    · exact (cancelExisting_settles cfg ht _ _).plainer fun _ => by simp [PlainCodes]
    · exact (receiptWithImmediateFillPrice_settles cfg ht _ _).plainer fun _ => by
        simp [PlainCodes]

end

variable [HexOrder]

def EventLog.durableRequest (log : EventLog) (signal : NormalizedSignal) :
    Option (Option Decimal × Option CopyMarketOrder) :=
  (log.lookup signal.signalId).map fun claim =>
    (claim.requestedQuantity, claim.restoredOrder signal)

variable {sig : NormalizedSignal}

theorem durableRequest_of_tables {log post : EventLog}
    (hc : post.claims = log.claims) (hu : post.policyUpgrades = log.policyUpgrades) :
    post.durableRequest sig = log.durableRequest sig := by
  unfold EventLog.durableRequest EventLog.lookup
  rw [hc, hu]
  cases log.claims.find? (·.signalId = sig.signalId) with
  | none => rfl
  | some claim => rfl

theorem restoredOrder_quantity {claim : SubmissionClaim}
    {ord : CopyMarketOrder} (hr : claim.restoredOrder sig = some ord) :
    claim.requestedQuantity = some ord.localQuantity := by
  unfold SubmissionClaim.restoredOrder at hr
  split at hr
  · cases hr
  split at hr
  · rename_i qty leverage hq hleverage
    rw [Option.filter_eq_some_iff] at hr
    rw [create_localQuantity hr.1, hq]
  · cases hr

/-- The receipt asks for the claimed quantity.  Without a claim that can be restored it asks
for the quantity offered instead, reports nothing as filled and is `UNKNOWN` or
`REJECTED`. -/
def RequestedAs (request : Option (Option Decimal × Option CopyMarketOrder))
    (offered : Option Decimal → Decimal) (receipt : CopyExecutionReceipt) : Prop :=
  match request with
  | some (quantity, some _) => quantity = some receipt.requestedQuantity
  | unrestored => receipt.requestedQuantity = offered (unrestored.bind (·.1)) ∧
    receipt.filledQuantity = 0 ∧ (receipt.state = .unknown ∨ receipt.state = .rejected)

/-- What holds of every receipt of the executor. -/
structure SoundReceipt (signal : NormalizedSignal) (offered : Option Decimal → Decimal)
    (asked : List Asked) (log : EventLog) (receipt : CopyExecutionReceipt) : Prop
    extends receipt.Bounded where
  decided : DecidedBy (lastOrderReply asked) receipt
  requested : RequestedAs (log.durableRequest signal) offered receipt

def EventLog.claimedId (log : EventLog) (signal : NormalizedSignal) : Option String :=
  (log.lookup signal.signalId).map (·.clientOrderId)

omit [HexOrder] in
theorem claimedId_of_tables {log post : EventLog}
    (hc : post.claims = log.claims) (hu : post.policyUpgrades = log.policyUpgrades) :
    post.claimedId sig = log.claimedId sig := by
  unfold EventLog.claimedId EventLog.lookup
  rw [hc, hu]
  cases log.claims.find? (·.signalId = sig.signalId) with
  | none => rfl
  | some claim => rfl

/-- What holds besides of a receipt of `execute`: a final fill with a price was reported for the
claimed order by the last answer about it. -/
structure ExecutedReceipt (signal : NormalizedSignal) (offered : Option Decimal → Decimal)
    (asked : List Asked) (log : EventLog) (receipt : CopyExecutionReceipt) : Prop
    extends SoundReceipt signal offered asked log receipt where
  ended : receipt.isTerminal = true → 0 < receipt.averagePrice →
    ∃ response orderId, lastOrderReply asked = some (.ok response) ∧
      log.claimedId signal = some orderId ∧
      EndedBy orderId receipt.filledQuantity response

/-- The constraints of `submission_claims` and of its upgrades. -/
structure EventLog.ClaimsChecked (log : EventLog) : Prop where
  quantities : ∀ claim ∈ log.claims, ∀ quantity, claim.requestedQuantity = some quantity →
    0 < quantity
  upgrades : ∀ upgrade ∈ log.policyUpgrades, ∃ claim ∈ log.claims,
    claim.signalId = upgrade.signalId

variable {rcpt : CopyExecutionReceipt}

theorem OrderReceipt.sound (hr : OrderReceipt ord orderId rcpt)
    (hat : CallAt pre log last reached) (hd : DecidedBy last rcpt)
    (hre : log.durableRequest sig = some (some ord.localQuantity, some ord))
    (offered : Option Decimal → Decimal) :
    SoundReceipt sig offered (reached.trace.drop pre) reached.log rcpt where
  toBounded := hr.toBounded
  decided := hat.last.symm ▸ hd
  requested := by
    rw [durableRequest_of_tables hat.claims hat.upgrades, hre, RequestedAs, hr.requested]

theorem OrderReceipt.executed (hr : OrderReceipt ord orderId rcpt)
    (hat : CallAt pre log last reached) (hd : DecidedBy last rcpt) (hf : FilledBy last rcpt)
    (hre : log.durableRequest sig = some (some ord.localQuantity, some ord))
    (hc : log.claimedId sig = some orderId) (offered : Option Decimal → Decimal) :
    ExecutedReceipt sig offered (reached.trace.drop pre) reached.log rcpt where
  toSoundReceipt := hr.sound hat hd hre offered
  ended hterminal hprice := by
    obtain ⟨resp, hl, he⟩ := hf hterminal hprice
    rw [hr.client] at he
    refine ⟨resp, orderId, hat.last.trans hl, ?_, he⟩
    rw [claimedId_of_tables hat.claims hat.upgrades, hc]

theorem unrestored_sound {offered : Option Decimal → Decimal} (hat : CallAt pre log last reached)
    (hre : ∀ qty restored, log.durableRequest sig ≠ some (qty, some restored))
    (hb : rcpt.Bounded) (hf : rcpt.filledQuantity = 0)
    (ho : rcpt.requestedQuantity = offered ((log.durableRequest sig).bind (·.1)))
    (hs : rcpt.state = .unknown ∨ rcpt.state = .rejected ∧ last = none) :
    SoundReceipt sig offered (reached.trace.drop pre) reached.log rcpt where
  toBounded := hb
  decided := by
    rw [hat.last]
    rcases hs with hu | ⟨hr, rfl⟩
    · exact decidedBy_of_unknown hu _
    · refine ⟨?_, ?_⟩
      · intro _ resp hl
        cases hl
      · intro ha
        simp [hr] at ha
  requested := by
    rw [durableRequest_of_tables hat.claims hat.upgrades]
    unfold RequestedAs
    split
    · rename_i qty restored hrestored
      exact absurd hrestored (hre qty restored)
    · exact ⟨ho, hf, hs.imp_right And.left⟩

theorem unrestored_executed {offered : Option Decimal → Decimal} (hat : CallAt pre log last reached)
    (hre : ∀ qty restored, log.durableRequest sig ≠ some (qty, some restored))
    (hb : rcpt.Bounded) (hf : rcpt.filledQuantity = 0)
    (ho : rcpt.requestedQuantity = offered ((log.durableRequest sig).bind (·.1)))
    (hs : rcpt.state = .unknown ∨ rcpt.state = .rejected ∧ last = none) :
    ExecutedReceipt sig offered (reached.trace.drop pre) reached.log rcpt where
  toSoundReceipt := unrestored_sound hat hre hb hf ho hs
  ended hterminal := by
    rcases hs with hu | ⟨hr, -⟩
    · simp [CopyExecutionReceipt.isTerminal, hu] at hterminal
    · simp [CopyExecutionReceipt.isTerminal, hr] at hterminal

theorem reconcileClaim_sound {claim : SubmissionClaim} (hat : CallAt pre world.log last world)
    (hl : world.log.lookup ord.signal.signalId = some claim) :
    (reconcileClaim cfg ord claim).Safe Answers (fun _ => True)
      (fun rcpt reached => ExecutedReceipt ord.signal (fun _ => ord.localQuantity)
        (reached.trace.drop pre) reached.log rcpt) world := by
  have hr : world.log.durableRequest ord.signal =
      some (claim.requestedQuantity, claim.restoredOrder ord.signal) := by
    rw [EventLog.durableRequest, hl, Option.map_some]
  unfold reconcileClaim
  split
  · rename_i hunrestored
    apply (unknownAndRecord_at hat _).mono
    rintro _ reached ⟨rfl, hre⟩
    rw [hunrestored] at hr
    exact unrestored_executed hre (by simp [hr])
      (emptyReceipt_orderReceipt _ _ _ _).toBounded rfl rfl (Or.inl rfl)
  · rename_i restored hrestored
    rw [hrestored, restoredOrder_quantity hrestored] at hr
    apply (reconcileExisting_settles cfg hat _).mono
    rintro rcpt reached ⟨hrec, decided, hre, hd, hf⟩
    refine hrec.executed hre hd (hf trivial) hr ?_ _
    rw [EventLog.claimedId, hl, Option.map_some]

theorem submitOrder_sound (hat : CallAt pre world.log none world) (hch : world.log.ClaimsChecked) :
    (submitOrder cfg ord (copyClientOrderId ord.signal.signalId cfg.environment)).Safe Answers
      (fun _ => True) (fun rcpt reached => ExecutedReceipt ord.signal
        (fun _ => ord.localQuantity) (reached.trace.drop pre) reached.log rcpt) world := by
  simp only [submitOrder, claimSubmission, clock, readLog, Proc.safe_bind, Proc.safe_question,
    Proc.safe_transact, true_and]
  intro now asked han
  have ha := hat.asks han
  have hup : ∀ upgrade ∈ asked.log.policyUpgrades, ∃ claim ∈ asked.log.claims,
      claim.signalId = upgrade.signalId := by
    rw [ha.upgrades, ha.claims]
    exact hch.upgrades
  rcases claim_cases asked.log (claimRow ord
      (copyClientOrderId ord.signal.signalId cfg.environment) now)
      (submissionEvent ord.signal.signalId .submitting now 0 none none []) with
    hlo | ⟨hu, claimed, hw, hro⟩
  · rw [hlo]
    simp only [Bool.false_eq_true, if_false, Proc.safe_bind, Proc.safe_read, true_and]
    have hh : CallAt pre asked.log none asked :=
      ⟨ha.started, ha.last, rfl, rfl⟩
    split
    · rename_i hn
      have hre : asked.log.durableRequest ord.signal = none := by
        rw [EventLog.durableRequest, hn, Option.map_none]
      exact unrestored_executed hh (by simp [hre])
        (emptyReceipt_orderReceipt _ _ _ _).toBounded rfl rfl (Or.inl rfl)
    · rename_i existing hexisting
      exact reconcileClaim_sound cfg hh hexisting
  · -- the first claim of the signal has no upgrade, so it is restored as it was made
    have hfr : asked.log.policyUpgrades.filter (·.signalId = ord.signal.signalId) = [] := by
      rw [List.filter_eq_nil_iff]
      intro upgrade hupg
      obtain ⟨claim, hcla, hs⟩ := hup upgrade hupg
      have ho : claim.signalId ≠ ord.signal.signalId := hu claim hcla
      simpa [hs] using ho
    obtain ⟨-, claim, hl, hcl, hq, hr⟩ :=
      claim_lookup cfg.environment hfr hw
    rw [hw]
    simp only [if_true]
    have hc : CallAt pre claimed none { asked with log := claimed } :=
      ⟨ha.started, ha.last, rfl, rfl⟩
    apply (placeAndReconcile_settles cfg hc _).mono
    rintro rcpt reached ⟨hrec, decided, hrea, hd, hf⟩
    refine hrec.executed hrea hd (hf (by simp [PlainCodes])) ?_ ?_ _
    · rw [EventLog.durableRequest, hl, Option.map_some, hq, hr]
    · rw [EventLog.claimedId, hl, Option.map_some, hcl]

theorem execute_sound (hc : world.log.ClaimsChecked) (ord : CopyMarketOrder)
    (riskDecision : AccountRiskDecision) :
    (execute cfg ord riskDecision).Safe Answers (fun _ => True)
      (fun rcpt reached => ExecutedReceipt ord.signal (fun _ => ord.localQuantity)
        (reached.trace.drop world.trace.length) reached.log rcpt) world := by
  have hst := callAt_start world
  simp only [execute, readLog, Proc.safe_bind, Proc.safe_read, true_and]
  split
  · rename_i existing hexisting
    exact reconcileClaim_sound cfg hst hexisting
  rename_i hu
  have hre : world.log.durableRequest ord.signal = none := by
    rw [EventLog.durableRequest, hu, Option.map_none]
  -- a signal that is refused has made no call about an order
  have hr {reached : World} (hat : CallAt world.trace.length world.log none reached)
      (orderId : String) (codes : List String) :
      ExecutedReceipt ord.signal (fun _ => ord.localQuantity)
        (reached.trace.drop world.trace.length) reached.log
        (emptyReceipt .rejected ord orderId codes) :=
    unrestored_executed hat (by simp [hre]) (emptyReceipt_orderReceipt _ _ _ _).toBounded rfl
      rfl (Or.inr ⟨rfl, rfl⟩)
  have hs {reached : World} (hat : CallAt world.trace.length world.log none reached) :
      (submitOrder cfg ord (copyClientOrderId ord.signal.signalId cfg.environment)).Safe Answers
        (fun _ => True) (fun rcpt final => ExecutedReceipt ord.signal
          (fun _ => ord.localQuantity) (final.trace.drop world.trace.length) final.log rcpt)
        reached := by
    refine submitOrder_sound cfg ⟨hat.started, hat.last, rfl, rfl⟩ ⟨?_, ?_⟩
    · rw [hat.claims]
      exact hc.quantities
    · rw [hat.claims, hat.upgrades]
      exact hc.upgrades
  split
  · exact hr hst _ _
  simp only [positionMode, Proc.safe_bind, Proc.safe_question, true_and]
  intro mode asked ha
  have hask := hst.asks ha
  split
  · exact Proc.safe_halt
  · exact hr hask _ _
  split
  · simp only [changeInitialLeverage, Proc.safe_bind, Proc.safe_question, true_and]
    intro reply leveraged ha
    have hle := hask.asks ha
    split
    · exact Proc.safe_halt
    · exact hs hle
  · simp only [positionRisk, Proc.safe_bind, Proc.safe_question, true_and]
    intro positions listed ha
    have hl := hask.asks ha
    split
    · exact Proc.safe_halt
    split
    · exact Proc.safe_halt
    · exact hs hl
    · exact hr hl _ _

theorem cancelPendingIncrease_sound (hc : world.log.ClaimsChecked)
    (sig : NormalizedSignal) (reasonCode : String) :
    (cancelPendingIncrease cfg sig reasonCode).Safe Answers (fun _ => True)
      (fun rcpt reached => SoundReceipt sig (·.getD 0)
        (reached.trace.drop world.trace.length) reached.log rcpt) world := by
  have hs := callAt_start world
  simp only [cancelPendingIncrease, readLog, Proc.safe_bind, Proc.safe_read, true_and]
  split
  · rename_i hu
    have hr : world.log.durableRequest sig = none := by
      rw [EventLog.durableRequest, hu, Option.map_none]
    exact unrestored_sound hs (by simp [hr]) ⟨le_rfl, le_rfl, fun _ => rfl⟩ rfl
      (by rw [hr]; rfl) (Or.inl rfl)
  rename_i claim hl
  have hr : world.log.durableRequest sig =
      some (claim.requestedQuantity, claim.restoredOrder sig) := by
    rw [EventLog.durableRequest, hl, Option.map_some]
  split
  · rename_i hunrestored
    rw [hunrestored] at hr
    have hn : 0 ≤ claim.requestedQuantity.getD 0 := by
      unfold EventLog.lookup at hl
      obtain ⟨row, hrow, rfl⟩ := Option.map_eq_some_iff.mp hl
      cases hq : row.requestedQuantity with
      | none => exact le_rfl
      | some qty =>
        exact (hc.quantities row (List.mem_of_find?_eq_some hrow) qty hq).le
    exact unrestored_sound hs (by simp [hr]) ⟨le_rfl, hn, fun _ => rfl⟩ rfl
      (by rw [hr]; rfl) (Or.inl rfl)
  · rename_i ord hrestored
    rw [hrestored, restoredOrder_quantity hrestored] at hr
    have hso : Settles (PlainCodes [reasonCode]) world.trace.length world.log ord
        claim.clientOrderId
        (if ord.orderType = .limit then
          cancelExisting cfg ord claim.clientOrderId reasonCode claim.claimedAt
        else reconcileExisting cfg ord claim.clientOrderId claim.claimedAt) world := by
      split
      · exact cancelExisting_settles cfg hs _ _
      · exact (reconcileExisting_settles cfg hs _).plainer fun _ => trivial
    apply Proc.Safe.mono hso
    rintro rcpt reached ⟨hrec, decided, hre, hd, -⟩
    exact hrec.sound hre hd hr _

end Executor

end AiQuant.CopyTrading
