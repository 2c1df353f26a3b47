import Mathlib.Algebra.Order.Ring.Rat
import Mathlib.Data.List.Chain
import Mathlib.Data.List.Nodup
import Mathlib.Tactic.NormNum

/-! Orders as projections of immutable events (`execution/orders.py`).  A stream is accepted
exactly if its states follow the transition table, its quantities never decrease and its
identifiers never change. -/
namespace AiQuant.Execution

inductive OrderTransport where
  | standard | algo
deriving DecidableEq

inductive OrderState where
  | created | riskApproved | submitting | acknowledged | triggerPending | triggering | triggered
  | partiallyFilled | cancelPending | unknown | reconciling | rejected | notFoundConfirmed
  | canceled | expired | filled
deriving DecidableEq

/-- `_TRANSITIONS`; a terminal state has no row. -/
def transitions : OrderState → List OrderState
  | .created => [.riskApproved]
  | .riskApproved => [.submitting]
  | .submitting => [.acknowledged, .triggerPending, .rejected, .unknown]
  | .unknown =>
    [.acknowledged, .triggerPending, .triggering, .triggered, .partiallyFilled, .filled,
      .notFoundConfirmed, .reconciling]
  | .reconciling =>
    [.acknowledged, .triggerPending, .triggering, .triggered, .partiallyFilled, .filled,
      .notFoundConfirmed]
  | .acknowledged => [.partiallyFilled, .cancelPending, .expired, .filled]
  | .triggerPending =>
    [.triggering, .triggered, .reconciling, .cancelPending, .canceled, .expired, .rejected]
  | .triggering => [.triggered, .reconciling, .rejected]
  | .triggered => [.reconciling, .acknowledged, .partiallyFilled, .filled]
  | .partiallyFilled => [.partiallyFilled, .filled, .cancelPending, .expired]
  | .cancelPending => [.canceled, .partiallyFilled, .filled, .unknown]
  | .rejected | .notFoundConfirmed | .canceled | .expired | .filled => []

structure EventTime where
  instant : ℤ
  utcOffset : Option ℤ := some 0

structure OrderEvent where
  eventId : String
  occurredAt : EventTime
  state : OrderState
  cumulativeFilledQuantity : ℚ := 0
  orderId : Option String := none
  algoId : Option String := none
  actualOrderId : Option String := none
  algoStatus : Option String := none
  reasonCodes : List String := []

structure OrderProjection where
  intentId : String
  transport : OrderTransport
  clientId : String
  state : OrderState
  cumulativeFilledQuantity : ℚ
  orderId : Option String
  algoId : Option String
  actualOrderId : Option String
  eventCount : ℕ
  reconciliationRequired : Bool
deriving DecidableEq

def validateEvent (event : OrderEvent) : Except String Unit :=
  if event.occurredAt.utcOffset ≠ some 0 then
    .error "order event time must be timezone-aware UTC"
  else if event.cumulativeFilledQuantity < 0 then .error "filled quantity cannot be negative"
  else .ok ()

/-- An identifier that is true: neither `None` nor empty. -/
def given (id : Option String) : Option String :=
  id.filter (· ≠ "")

def idChanged (known id : Option String) : Bool :=
  (given known).any fun name => (given id).any (· ≠ name)

structure OrderIds where
  orderId : Option String
  algoId : Option String
  actualOrderId : Option String

def OrderEvent.ids (event : OrderEvent) : OrderIds :=
  ⟨event.orderId, event.algoId, event.actualOrderId⟩

/-- `event.order_id or order_id`, and so on. -/
def OrderIds.bind (ids : OrderIds) (event : OrderEvent) : OrderIds where
  orderId := (given event.orderId).or ids.orderId
  algoId := (given event.algoId).or ids.algoId
  actualOrderId := (given event.actualOrderId).or ids.actualOrderId

def projectEvent (transport : OrderTransport) (previous : OrderEvent) (ids : OrderIds)
    (event : OrderEvent) : Except String OrderIds :=
  match validateEvent event with
  | .error reason => .error reason
  | .ok () =>
    if event.state ∉ transitions previous.state then .error "EXEC_ORDER_STATE_INVARIANT_BREACH"
    else if event.cumulativeFilledQuantity < previous.cumulativeFilledQuantity then
      .error "cumulative filled quantity cannot decrease"
    else if idChanged ids.orderId event.orderId then .error "ordinary order id changed"
    else if idChanged ids.algoId event.algoId then .error "algo id changed"
    else if idChanged ids.actualOrderId event.actualOrderId then .error "actual order id changed"
    else
      let bound := ids.bind event
      if transport = .standard ∧
          ((given bound.algoId).isSome ∨ (given bound.actualOrderId).isSome) then
        .error "STANDARD intent cannot bind Algo identifiers"
      else if event.state = .triggered ∧ given bound.actualOrderId = none then
        .error "TRIGGERED requires actual order id"
      else .ok bound

def projectRest (transport : OrderTransport) :
    OrderEvent → OrderIds → List OrderEvent → Except String (OrderEvent × OrderIds)
  | previous, ids, [] => .ok (previous, ids)
  | previous, ids, event :: rest =>
    match projectEvent transport previous ids event with
    | .error reason => .error reason
    | .ok bound => projectRest transport event bound rest

def projectOrder (intentId : String) (transport : OrderTransport) (clientId : String)
    (events : List OrderEvent) : Except String OrderProjection :=
  match events with
  | [] => .error "order stream must begin with CREATED"
  | first :: rest =>
    if first.state ≠ .created then .error "order stream must begin with CREATED"
    else if ¬ (events.map (·.eventId)).Nodup then .error "duplicate order event id"
    else match validateEvent first with
      | .error reason => .error reason
      | .ok () =>
        match projectRest transport first first.ids rest with
        | .error reason => .error reason
        | .ok (last, ids) => .ok {
            intentId := intentId
            transport := transport
            clientId := clientId
            state := last.state
            cumulativeFilledQuantity := last.cumulativeFilledQuantity
            orderId := ids.orderId
            algoId := ids.algoId
            actualOrderId := ids.actualOrderId
            eventCount := events.length
            reconciliationRequired := last.state ∈ [.unknown, .reconciling] }

def stateByStatus : String → Option OrderState
  | "NEW" => some .triggerPending
  | "TRIGGERING" => some .triggering
  | "CANCELED" => some .canceled
  | "REJECTED" => some .rejected
  | "EXPIRED" => some .expired
  | _ => none

def algoUpdateState (algoStatus : String) (actualOrderId : Option String) :
    OrderState × List String :=
  if algoStatus = "TRIGGERED" then
    if (given actualOrderId).isSome then (.triggered, [])
    else (.reconciling, ["EXEC_ALGO_ACTUAL_ORDER_RECONCILING"])
  else if algoStatus = "FINISHED" then (.reconciling, ["EXEC_ALGO_CHILD_RECONCILING"])
  else match stateByStatus algoStatus with
    | some state => (state, [])
    | none => (.unknown, ["EXEC_ALGO_STATUS_UNKNOWN"])

def algoUpdateEvent (eventId : String) (occurredAt : EventTime) (algoStatus : String)
    (algoId actualOrderId : Option String) (cumulativeFilledQuantity : ℚ) : OrderEvent where
  eventId := eventId
  occurredAt := occurredAt
  state := (algoUpdateState algoStatus actualOrderId).1
  cumulativeFilledQuantity := cumulativeFilledQuantity
  algoId := algoId
  actualOrderId := given actualOrderId
  algoStatus := some
    (if (stateByStatus algoStatus).isSome || algoStatus ∈ ["TRIGGERED", "FINISHED"] then algoStatus
      else "UNKNOWN")
  reasonCodes := (algoUpdateState algoStatus actualOrderId).2

/-- The event may come after `previous`. -/
def Follows (previous event : OrderEvent) : Prop :=
  event.state ∈ transitions previous.state ∧
    previous.cumulativeFilledQuantity ≤ event.cumulativeFilledQuantity

def OrderEvent.Valid (event : OrderEvent) : Prop :=
  event.occurredAt.utcOffset = some 0 ∧ 0 ≤ event.cumulativeFilledQuantity

def NamedBy (name : String) (id : Option String) : Prop :=
  ∀ found ∈ given id, found = name

structure OrderIds.Consistent (names : String × String × String) (ids : OrderIds) : Prop where
  orderId : NamedBy names.1 ids.orderId
  algoId : NamedBy names.2.1 ids.algoId
  actualOrderId : NamedBy names.2.2 ids.actualOrderId

section Accepted

variable {names : String × String × String} {previous event : OrderEvent} {ids : OrderIds}
  {rest : List OrderEvent}

theorem given_given (id : Option String) : given (given id) = given id := by
  unfold given
  rw [Option.filter_filter]
  simp

theorem validateEvent_eq_ok_iff : validateEvent event = .ok () ↔ event.Valid := by
  unfold validateEvent OrderEvent.Valid
  split_ifs with ht hq
  · simp [ht]
  · simp [not_not.mp ht, hq]
  · simp [not_not.mp ht, not_lt.mp hq]

theorem namedBy_none (name : String) : NamedBy name none :=
  fun _ hf => nomatch hf

theorem namedBy_self (name : String) : NamedBy name (some name) := by
  intro found hf
  obtain ⟨hs, -⟩ := Option.mem_filter_iff.mp hf
  exact (Option.mem_some_iff.mp hs).symm

variable {name : String} {id : Option String}

theorem namedBy_given (hid : NamedBy name id) : NamedBy name (given id) := by
  intro found hf
  rw [given_given] at hf
  exact hid found hf

theorem NamedBy.not_changed {known : Option String} (hk : NamedBy name known)
    (hid : NamedBy name id) : idChanged known id = false := by
  unfold idChanged
  rw [Option.any_eq_false]
  intro old ho
  rw [Option.any_eq_false]
  intro found hf
  simp [hk old ho, hid found hf]

theorem NamedBy.or {known : Option String} (hk : NamedBy name known)
    (hid : NamedBy name id) : NamedBy name ((given id).or known) := by
  cases hg : given id with
  | none => exact hk
  | some found =>
    rw [Option.some_or, ← hg]
    exact namedBy_given hid

theorem OrderIds.Consistent.bind (hi : ids.Consistent names)
    (he : event.ids.Consistent names) : (ids.bind event).Consistent names where
  orderId := hi.orderId.or he.orderId
  algoId := hi.algoId.or he.algoId
  actualOrderId := hi.actualOrderId.or he.actualOrderId

/-- A `TRIGGERED` event names the child. -/
def OrderEvent.NamesChild (event : OrderEvent) : Prop :=
  event.state = .triggered → (given event.actualOrderId).isSome = true

theorem projectEvent_eq_ok_iff (hids : ids.Consistent names)
    (he : event.ids.Consistent names) (hc : event.NamesChild) {bound : OrderIds} :
    projectEvent .algo previous ids event = .ok bound ↔
      event.Valid ∧ Follows previous event ∧ bound = ids.bind event := by
  have ho := hids.orderId.not_changed he.orderId
  have hal := hids.algoId.not_changed he.algoId
  have hac := hids.actualOrderId.not_changed he.actualOrderId
  have hb : ¬ (event.state = .triggered ∧ given (ids.bind event).actualOrderId = none) := by
    rintro ⟨ht, hn⟩
    obtain ⟨name, hna⟩ := Option.isSome_iff_exists.mp (hc ht)
    have hg : given (some name) = some name := by rw [← hna, given_given]
    dsimp only [OrderIds.bind] at hn
    rw [hna, Option.some_or, hg] at hn
    cases hn
  simp only [OrderEvent.ids] at ho hal hac
  unfold projectEvent
  cases hv : validateEvent event with
  | error reason =>
    have hi : ¬ event.Valid := fun h => by
      rw [validateEvent_eq_ok_iff.mpr h] at hv
      cases hv
    simp [hi]
  | ok _ =>
    simp only [validateEvent_eq_ok_iff.mp hv, true_and, ho, hal, hac, Follows,
      reduceCtorEq, false_and, if_false, Bool.false_eq_true, if_neg hb]
    by_cases ha : event.state ∈ transitions previous.state
    · by_cases hl : event.cumulativeFilledQuantity < previous.cumulativeFilledQuantity
      · simp [ha, hl, not_le.mpr hl]
      · simp [ha, hl, not_lt.mp hl, eq_comm]
    · simp [ha]

theorem projectRest_eq_ok_iff (hi : ids.Consistent names)
    (he : ∀ event ∈ rest, event.ids.Consistent names ∧ event.NamesChild)
    {last : OrderEvent} : (∃ bound, projectRest .algo previous ids rest = .ok (last, bound)) ↔
      (∀ event ∈ rest, event.Valid) ∧ List.IsChain Follows (previous :: rest) ∧
        last = rest.getLastD previous := by
  induction rest generalizing previous ids with
  | nil => simp [projectRest, eq_comm]
  | cons event rest ih =>
    obtain ⟨⟨hc, hch⟩, hre⟩ := List.forall_mem_cons.mp he
    rw [List.forall_mem_cons, List.isChain_cons_cons, List.getLastD_cons]
    have hih := @ih event _ (hi.bind hc) hre
    cases hp : projectEvent .algo previous ids event with
    | error reason =>
      have hr : ¬ (event.Valid ∧ Follows previous event) := fun hb => by
        rw [(projectEvent_eq_ok_iff hi hc hch).mpr ⟨hb.1, hb.2, rfl⟩]
          at hp
        cases hp
      simp only [projectRest, hp, reduceCtorEq, exists_false, false_iff]
      exact fun ha => hr ⟨ha.1.1, ha.2.1.1⟩
    | ok bound =>
      obtain ⟨hv, hf, rfl⟩ :=
        (projectEvent_eq_ok_iff hi hc hch).mp hp
      simp only [projectRest, hp, hih, hv, hf, true_and]

theorem projectOrder_eq_ok_iff (intentId clientId : String) {first : OrderEvent}
    (hc : first.state = .created) (hn : ((first :: rest).map (·.eventId)).Nodup)
    (he : ∀ event ∈ first :: rest, event.ids.Consistent names ∧ event.NamesChild)
    {st : OrderState} {qty : ℚ} {required : Bool} :
    (∃ projection, projectOrder intentId .algo clientId (first :: rest) = .ok projection ∧
        projection.state = st ∧ projection.cumulativeFilledQuantity = qty ∧
        projection.reconciliationRequired = required) ↔
      (∀ event ∈ first :: rest, event.Valid) ∧ List.IsChain Follows (first :: rest) ∧
        (rest.getLastD first).state = st ∧
        (rest.getLastD first).cumulativeFilledQuantity = qty ∧
        decide ((rest.getLastD first).state ∈ [.unknown, .reconciling]) = required := by
  obtain ⟨hf, hre⟩ := List.forall_mem_cons.mp he
  rw [List.forall_mem_cons]
  simp only [projectOrder, hc, ne_eq, not_true_eq_false, if_false, not_not.mpr hn]
  cases hv : validateEvent first with
  | error reason =>
    have hi : ¬ first.Valid := fun h => by
      rw [validateEvent_eq_ok_iff.mpr h] at hv
      cases hv
    simp [hi]
  | ok _ =>
    have hl := fun last => @projectRest_eq_ok_iff _ first _ _ hf.1 hre last
    cases hp : projectRest .algo first first.ids rest with
    | error reason =>
      have hr := hl (rest.getLastD first)
      simp only [hp, reduceCtorEq, exists_false, and_true, false_iff] at hr
      simp only [reduceCtorEq, false_and, exists_false, false_iff]
      exact fun ha => hr ⟨ha.1.2, ha.2.1⟩
    | ok result =>
      obtain ⟨ha, hch, hla⟩ := (hl result.1).mp ⟨result.2, hp⟩
      have hv := validateEvent_eq_ok_iff.mp hv
      simp only [hv, hch, iff_true_intro ha, ← hla, Except.ok.injEq, exists_eq_left', true_and]

end Accepted

end AiQuant.Execution
