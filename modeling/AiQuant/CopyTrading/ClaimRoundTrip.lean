import AiQuant.CopyTrading.Execution
import AiQuant.Lib.DecimalText
import AiQuant.Lib.UtcDateTime

/-! A claimed request as it is written: decimals with an exponent, a date with its fields, and the
texts that the request hash is computed over.  The database keeps numbers and instants, and may
return a number with any exponent. -/
namespace AiQuant.CopyTrading
open AiQuant.Lib

def decimalParameter (value : FiniteDecimal) : String :=
  let text := value.fixedText
  let stripped :=
    if '.' ∈ text then (text.rdropWhile (· = '0')).rdropWhile (· = '.') else text
  String.ofList (if stripped = [] then ['0'] else stripped)

def OrderSide.text : OrderSide → String
  | .buy => "BUY"
  | .sell => "SELL"

def CopyOrderType.text : CopyOrderType → String
  | .market => "MARKET"
  | .limit => "LIMIT"

/-- A `CopyMarketOrder` with its decimals and its date as they are written. -/
structure WrittenOrder where
  signal : NormalizedSignal
  localQuantity : FiniteDecimal
  leverage : ℕ
  orderType : CopyOrderType
  limitPrice : Option FiniteDecimal
  expiresAt : Option UtcDateTime
  localQuantity_pos : 0 < localQuantity.value
  leverage_pos : 1 ≤ leverage
  leverage_le : leverage ≤ 125
  policy : OrderPolicy signal.kind orderType (limitPrice.map FiniteDecimal.value)
    (expiresAt.map UtcDateTime.instant)

def WrittenOrder.value (order : WrittenOrder) : CopyMarketOrder where
  signal := order.signal
  localQuantity := order.localQuantity.value
  leverage := order.leverage
  orderType := order.orderType
  limitPrice := order.limitPrice.map FiniteDecimal.value
  expiresAt := order.expiresAt.map UtcDateTime.instant
  localQuantity_pos := order.localQuantity_pos
  leverage_pos := order.leverage_pos
  leverage_le := order.leverage_le
  policy := order.policy

def WrittenOrder.create (signal : NormalizedSignal) (localQuantity : FiniteDecimal)
    (leverage : ℕ) (orderType : CopyOrderType) (limitPrice : Option FiniteDecimal)
    (expiresAt : Option UtcDateTime) : Option WrittenOrder :=
  if hvalid : 0 < localQuantity.value ∧ 1 ≤ leverage ∧ leverage ≤ 125 ∧
      OrderPolicy signal.kind orderType (limitPrice.map FiniteDecimal.value)
        (expiresAt.map UtcDateTime.instant) then
    some {
      signal := signal
      localQuantity := localQuantity
      leverage := leverage
      orderType := orderType
      limitPrice := limitPrice
      expiresAt := expiresAt
      localQuantity_pos := hvalid.1
      leverage_pos := hvalid.2.1
      leverage_le := hvalid.2.2.1
      policy := hvalid.2.2.2 }
  else none

def WrittenOrder.limitParameters (order : WrittenOrder) : List (String × String) :=
  (order.limitPrice.map fun price => ("price", decimalParameter price)).toList ++
    match order.expiresAt with
    | none => [("timeInForce", "GTC")]
    | some expiresAt => [("timeInForce", "GTD"),
        ("goodTillDate", toString (expiresAt.wholeTimestamp * 1000))]

/-- `_order_parameters` -/
def WrittenOrder.parameters (order : WrittenOrder) (clientOrderId : String) :
    List (String × String) :=
  [("symbol", order.signal.symbol),
    ("side", (exchangeOrderSide order.signal).text),
    ("positionSide", order.signal.positionSide.text),
    ("type", order.orderType.text),
    ("quantity", decimalParameter order.localQuantity),
    ("newOrderRespType", "RESULT"),
    ("newClientOrderId", clientOrderId)] ++
  match order.orderType with
  | .market => []
  | .limit => order.limitParameters

/-- The document that `_request_hash` is computed over. -/
inductive RequestPayload where
  | parameters (parameters : List (String × String))
  | expiring (exchangeParameters : List (String × String)) (expiresAt : String)
deriving DecidableEq

def WrittenOrder.payload (order : WrittenOrder) (clientOrderId : String) : RequestPayload :=
  match order.expiresAt with
  | none => .parameters (order.parameters clientOrderId)
  | some expiresAt =>
    .expiring (order.parameters clientOrderId) (String.ofList expiresAt.isoformat)

/-- The columns of `submission_claims`, over the digests of payloads. -/
structure WrittenClaimRow (δ : Type) where
  signalId : Digest
  clientOrderId : String
  requestHash : δ
  requestedQuantity : Option Decimal
  leverage : Option ℕ
  orderType : CopyOrderType
  limitPrice : Option Decimal
  expiresAt : Option Time
  claimedAt : Time
  requestHashVersion : ℕ

/-- A `numeric(38,18)` column: halves are rounded away from zero, and too large a number is
refused. -/
def numericColumn (value : Decimal) : Option Decimal :=
  let units : ℚ := ⌊|value| * 10 ^ 18 + 1 / 2⌋
  if units < 10 ^ 38 then some ((if value < 0 then -units else units) / 10 ^ 18) else none

/-- A number of at most 38 digits, 18 of them after the point. -/
def Representable (value : Decimal) : Prop :=
  ∃ units : ℤ, |units| < 10 ^ 38 ∧ value = units / 10 ^ 18

section Journal

variable {δ : Type}

def WrittenClaimRow.admitted (row : WrittenClaimRow δ) : Bool :=
  (match row.requestedQuantity, row.leverage with
    | none, none => true
    | some quantity, some leverage => decide (0 < quantity) && decide (1 ≤ leverage) &&
        decide (leverage ≤ 125)
    | _, _ => false) &&
  (match row.orderType with
    | .market => row.limitPrice.isNone && row.expiresAt.isNone
    | .limit => row.limitPrice.any (0 < ·)) &&
  (row.requestHashVersion = 1 || row.requestHashVersion = 2)

/-- The row that is inserted for an order, unless a column or a constraint refuses it. -/
def WrittenOrder.claimRow (payloadHash : RequestPayload → δ) (order : WrittenOrder)
    (clientOrderId : String) (claimedAt : Time) : Option (WrittenClaimRow δ) := do
  let requestedQuantity ← numericColumn order.localQuantity.value
  let limitPrice ← match order.limitPrice with
    | none => some none
    | some price => (numericColumn price.value).map some
  let row : WrittenClaimRow δ := {
    signalId := order.signal.signalId
    clientOrderId := clientOrderId
    requestHash := payloadHash (order.payload clientOrderId)
    requestedQuantity := some requestedQuantity
    leverage := some order.leverage
    orderType := order.orderType
    limitPrice := limitPrice
    expiresAt := order.expiresAt.map UtcDateTime.instant
    claimedAt := claimedAt
    requestHashVersion := 2 }
  if row.admitted then some row else none

/-- `claim`: the row is inserted unless its signal or its client order id is there. -/
def insertClaim (rows : List (WrittenClaimRow δ)) (row : WrittenClaimRow δ) :
    Option (List (WrittenClaimRow δ)) :=
  if rows.any fun other =>
      other.signalId = row.signalId || other.clientOrderId = row.clientOrderId then none
  else some (rows ++ [row])

/-- `SubmissionClaim` -/
structure WrittenClaim (δ : Type) where
  signalId : Digest
  clientOrderId : String
  requestHash : δ
  requestedQuantity : Option FiniteDecimal
  leverage : Option ℕ
  orderType : CopyOrderType
  limitPrice : Option FiniteDecimal
  expiresAt : Option UtcDateTime
  requestHashVersion : ℕ
  claimedAt : Time
  policyUpgraded : Bool

/-- What `lookup` may return of a row without an upgrade: its numbers with any exponents, and its
instant as a date in UTC. -/
structure ReadsBack (row : WrittenClaimRow δ) (claim : WrittenClaim δ) : Prop where
  signalId_eq : claim.signalId = row.signalId
  clientOrderId_eq : claim.clientOrderId = row.clientOrderId
  requestHash_eq : claim.requestHash = row.requestHash
  requestedQuantity_eq :
    claim.requestedQuantity.map FiniteDecimal.value = row.requestedQuantity
  leverage_eq : claim.leverage = row.leverage
  orderType_eq : claim.orderType = row.orderType
  limitPrice_eq : claim.limitPrice.map FiniteDecimal.value = row.limitPrice
  expiresAt_eq : claim.expiresAt.map UtcDateTime.instant = row.expiresAt
  requestHashVersion_eq : claim.requestHashVersion = row.requestHashVersion
  claimedAt_ge : row.claimedAt ≤ claim.claimedAt
  policyUpgraded_eq : claim.policyUpgraded = false

def WrittenClaim.restoredOrder [HexOrder] [DecidableEq δ] (payloadHash : RequestPayload → δ)
    (claim : WrittenClaim δ) (signal : NormalizedSignal) : Option WrittenOrder :=
  if claim.signalId ≠ signal.signalId ∨
      claim.clientOrderId ∉ allowedClientOrderIds signal.signalId claim.policyUpgraded then none
  else match claim.requestedQuantity, claim.leverage with
    | some requestedQuantity, some leverage =>
      (WrittenOrder.create signal requestedQuantity leverage claim.orderType claim.limitPrice
        claim.expiresAt).filter fun order =>
          claim.requestHashVersion = 1 || (claim.requestHashVersion = 2 &&
            payloadHash (order.payload claim.clientOrderId) = claim.requestHash)
    | _, _ => none

end Journal

section Decimals

variable {first second : FiniteDecimal}

theorem rdropWhile_after_point (pre fraction : List Char) :
    (pre ++ '.' :: fraction).rdropWhile (· = '0') =
      pre ++ '.' :: fraction.rdropWhile (· = '0') := by
  induction fraction using List.reverseRecOn with
  | nil =>
    rw [List.rdropWhile_concat_neg _ _ _ (by simp), List.rdropWhile_nil]
  | append_singleton fraction digit ih =>
    rw [← List.cons_append, ← List.append_assoc]
    by_cases hz : digit = '0'
    · rw [List.rdropWhile_concat_pos _ _ _ (by simp [hz]),
        List.rdropWhile_concat_pos _ _ _ (by simp [hz]), ih]
    · rw [List.rdropWhile_concat_neg _ _ _ (by simp [hz]),
        List.rdropWhile_concat_neg _ _ _ (by simp [hz])]
      simp

theorem rdropWhile_point {text : List Char} (hp : '.' ∉ text) :
    text.rdropWhile (· = '.') = text := by
  refine List.rdropWhile_eq_self_iff.mpr fun hn hl => hp ?_
  rw [decide_eq_true_eq] at hl
  rw [← hl]
  exact List.getLast_mem hn

theorem decimalParameter_eq (value : FiniteDecimal) :
    decimalParameter value = String.ofList value.plainText := by
  obtain ⟨hw, hd⟩ := @FiniteDecimal.parts_digits value.coefficient value.exponent
  unfold decimalParameter FiniteDecimal.fixedText FiniteDecimal.plainText
  generalize (FiniteDecimal.parts value.coefficient value.exponent).1 = whole at hw hd
  generalize (FiniteDecimal.parts value.coefficient value.exponent).2 = fraction at hd
  have hsi : '.' ∉ FiniteDecimal.signText value.negative := by
    unfold FiniteDecimal.signText
    split_ifs <;> simp
  have hno : ∀ digits : List Char, digits ⊆ whole ++ fraction → '.' ∉ digits :=
    fun digits hsu hp =>
      (FiniteDecimal.not_point_of_isDigit (hd '.' (hsu hp))).1 rfl
  have hi : '.' ∉ FiniteDecimal.signText value.negative ++ whole := by
    rw [List.mem_append, not_or]
    exact ⟨hsi, hno whole (List.subset_append_left _ _)⟩
  have hso : FiniteDecimal.signText value.negative ++ whole ≠ [] :=
    List.append_ne_nil_of_right_ne_nil _ hw
  by_cases hf : fraction = []
  · subst hf
    rw [List.rdropWhile_nil]
    simp only [FiniteDecimal.join, if_true, if_neg hi, if_neg hso]
  · have hp : '.' ∈ FiniteDecimal.signText value.negative ++ FiniteDecimal.join whole fraction := by
      rw [FiniteDecimal.join, if_neg hf]
      simp
    have hk := hno (fraction.rdropWhile (· = '0')) fun digit hdi =>
      List.mem_append_right _ ((List.rdropWhile_prefix _ _).subset hdi)
    -- the point goes if nothing is left after it
    have hs : (FiniteDecimal.signText value.negative ++ whole ++
        '.' :: fraction.rdropWhile (· = '0')).rdropWhile (· = '.') =
          FiniteDecimal.signText value.negative ++
            FiniteDecimal.join whole (fraction.rdropWhile (· = '0')) := by
      rw [FiniteDecimal.join]
      split_ifs with hz
      · rw [hz, List.rdropWhile_concat_pos _ _ _ (by simp), rdropWhile_point hi]
      · rw [← List.append_assoc]
        refine List.rdropWhile_eq_self_iff.mpr fun hn hl => hk ?_
        rw [decide_eq_true_eq, List.getLast_append_of_ne_nil _ (List.cons_ne_nil _ _),
          List.getLast_cons hz] at hl
        rw [← hl]
        exact List.getLast_mem hz
    have hn : FiniteDecimal.signText value.negative ++
        FiniteDecimal.join whole (fraction.rdropWhile (· = '0')) ≠ [] := by
      refine List.append_ne_nil_of_right_ne_nil _ ?_
      unfold FiniteDecimal.join
      split_ifs
      · exact hw
      · exact List.append_ne_nil_of_left_ne_nil hw _
    have ht : FiniteDecimal.signText value.negative ++ FiniteDecimal.join whole fraction =
        FiniteDecimal.signText value.negative ++ whole ++ '.' :: fraction := by
      rw [FiniteDecimal.join, if_neg hf, List.append_assoc]
    dsimp only
    rw [if_pos hp, ht, rdropWhile_after_point, hs, if_neg hn]

theorem decimalParameter_eq_iff (hf : ¬ first.IsNegativeZero) (hs : ¬ second.IsNegativeZero) :
    decimalParameter first = decimalParameter second ↔ first.value = second.value := by
  rw [decimalParameter_eq, decimalParameter_eq, String.ofList_inj,
    FiniteDecimal.plainText_eq_iff hf hs]

theorem ofText_decimalParameter (value : FiniteDecimal) :
    ∃ read, FiniteDecimal.ofText (decimalParameter value).toList = some read ∧
      read.value = value.value := by
  obtain ⟨read, hr, -, hv⟩ := value.ofText_plainText
  exact ⟨read, by rw [decimalParameter_eq, String.toList_ofList, hr], hv⟩

theorem not_isNegativeZero (hp : 0 < first.value) : ¬ first.IsNegativeZero := by
  intro hz
  rw [FiniteDecimal.value_eq_zero_iff.mpr hz.2] at hp
  exact absurd hp (lt_irrefl _)

end Decimals

namespace WrittenOrder

structure SameRequest (first second : WrittenOrder) : Prop where
  symbol_eq : first.signal.symbol = second.signal.symbol
  side_eq : exchangeOrderSide first.signal = exchangeOrderSide second.signal
  positionSide_eq : first.signal.positionSide = second.signal.positionSide
  orderType_eq : first.orderType = second.orderType
  localQuantity_eq : first.localQuantity.value = second.localQuantity.value
  limitPrice_eq :
    first.limitPrice.map FiniteDecimal.value = second.limitPrice.map FiniteDecimal.value
  expiresAt_eq : first.expiresAt = second.expiresAt

section Requests

variable {first second : WrittenOrder} {orderId : String}

theorem limitPrice_cases (ord : WrittenOrder) :
    ord.orderType = .market ∧ ord.limitPrice = none ∧ ord.expiresAt = none ∨
      ord.orderType = .limit ∧ ∃ price, ord.limitPrice = some price ∧ 0 < price.value := by
  have hpo := ord.policy
  cases ht : ord.orderType with
  | market =>
    rw [ht] at hpo
    obtain ⟨hp, he⟩ := hpo
    exact .inl ⟨rfl, Option.map_eq_none_iff.mp hp, Option.map_eq_none_iff.mp he⟩
  | limit =>
    rw [ht] at hpo
    obtain ⟨-, hp⟩ := hpo
    cases hl : ord.limitPrice with
    | none =>
      rw [hl] at hp
      cases hp
    | some price =>
      rw [hl] at hp
      exact .inr ⟨rfl, price, rfl, by simpa using hp⟩

theorem not_isNegativeZero_localQuantity (ord : WrittenOrder) :
    ¬ ord.localQuantity.IsNegativeZero :=
  not_isNegativeZero ord.localQuantity_pos

theorem SameRequest.parameters_eq (hs : SameRequest first second) (orderId : String) :
    first.parameters orderId = second.parameters orderId := by
  have hq : decimalParameter first.localQuantity = decimalParameter second.localQuantity :=
    (decimalParameter_eq_iff first.not_isNegativeZero_localQuantity
      second.not_isNegativeZero_localQuantity).mpr hs.localQuantity_eq
  have hta : first.orderType = .limit → first.limitParameters = second.limitParameters := by
    intro hl
    obtain ⟨hm, -⟩ | ⟨-, price, hpr, hpos⟩ := first.limitPrice_cases
    · rw [hl] at hm
      cases hm
    · obtain ⟨hm, -⟩ | ⟨-, price', hp, hpo⟩ := second.limitPrice_cases
      · rw [← hs.orderType_eq, hl] at hm
        cases hm
      · have hv := hs.limitPrice_eq
        rw [hpr, hp] at hv
        have ht := (decimalParameter_eq_iff (not_isNegativeZero hpos)
          (not_isNegativeZero hpo)).mpr (Option.some.inj hv)
        rw [limitParameters, limitParameters, hpr, hp, hs.expiresAt_eq]
        simp only [Option.map_some, ht]
  unfold parameters
  rw [hs.symbol_eq, hs.side_eq, hs.positionSide_eq, hq, ← hs.orderType_eq]
  cases hty : first.orderType with
  | market => rfl
  | limit =>
    dsimp only
    rw [hta hty]

theorem SameRequest.payload_eq (hs : SameRequest first second) (orderId : String) :
    first.payload orderId = second.payload orderId := by
  unfold payload
  rw [hs.parameters_eq, hs.expiresAt_eq]

theorem orderSide_text_inj {side other : OrderSide} (ht : side.text = other.text) :
    side = other := by
  revert ht
  cases side <;> cases other <;> decide

theorem positionSide_text_inj {side other : PositionSide} (ht : side.text = other.text) :
    side = other := by
  revert ht
  cases side <;> cases other <;> decide

theorem orderType_text_inj {type other : CopyOrderType} (ht : type.text = other.text) :
    type = other := by
  revert ht
  cases type <;> cases other <;> decide

theorem parameters_inj (he : first.expiresAt = second.expiresAt)
    (hpa : first.parameters orderId = second.parameters orderId) : SameRequest first second := by
  obtain ⟨hh, ht⟩ := List.append_inj hpa rfl
  simp only [List.cons.injEq, Prod.mk.injEq, true_and, and_true] at hh
  obtain ⟨hs, hsi, hp, hty, hq⟩ := hh
  have ho := orderType_text_inj hty
  have hv := (decimalParameter_eq_iff first.not_isNegativeZero_localQuantity
    second.not_isNegativeZero_localQuantity).mp hq
  refine ⟨hs, orderSide_text_inj hsi, positionSide_text_inj hp, ho, hv, ?_, he⟩
  obtain ⟨hm, hno, -⟩ | ⟨hli, price, hpri, hpos⟩ := first.limitPrice_cases
  · obtain ⟨-, hn, -⟩ | ⟨hl, -⟩ := second.limitPrice_cases
    · rw [hno, hn]
    · rw [ho, hl] at hm
      cases hm
  · obtain ⟨hma, -⟩ | ⟨hl, price', hpr, hpo⟩ := second.limitPrice_cases
    · rw [ho, hma] at hli
      cases hli
    · rw [hli, hl] at ht
      dsimp only at ht
      rw [limitParameters, limitParameters, hpri, hpr] at ht
      have hf := (Prod.mk.inj (List.cons.inj ht).1).2
      rw [hpri, hpr, Option.map_some, Option.map_some]
      exact congrArg some ((decimalParameter_eq_iff (not_isNegativeZero hpos)
        (not_isNegativeZero hpo)).mp hf)

theorem sameRequest_of_payload (hp : first.payload orderId = second.payload orderId) :
    SameRequest first second := by
  unfold payload at hp
  cases hf : first.expiresAt with
  | none =>
    cases hs : second.expiresAt with
    | none =>
      rw [hf, hs] at hp
      exact parameters_inj (hf.trans hs.symm) (RequestPayload.parameters.inj hp)
    | some expiry' =>
      rw [hf, hs] at hp
      cases hp
  | some expiry =>
    cases hs : second.expiresAt with
    | none =>
      rw [hf, hs] at hp
      cases hp
    | some expiry' =>
      rw [hf, hs] at hp
      obtain ⟨hpa, ht⟩ := RequestPayload.expiring.inj hp
      have he := UtcDateTime.eq_of_isoformat (String.ofList_inj.mp ht)
      exact parameters_inj (by rw [hf, hs, he]) hpa

theorem instants_eq_iff {expiry other : Option UtcDateTime} :
    expiry.map UtcDateTime.instant = other.map UtcDateTime.instant ↔ expiry = other := by
  constructor
  · intro hi
    cases expiry with
    | none => exact (Option.map_eq_none_iff.mp hi.symm).symm
    | some moment =>
      cases other with
      | none => cases hi
      | some moment' => exact congrArg some (UtcDateTime.eq_of_instant (Option.some.inj hi))
  · exact congrArg _

theorem orderParameters_price (ord : WrittenOrder) (orderId : String) :
    (orderParameters ord.value orderId).price = ord.limitPrice.map FiniteDecimal.value := by
  obtain ⟨hm, hn, -⟩ | ⟨hl, -⟩ := ord.limitPrice_cases
  · rw [hn]
    exact if_neg fun hl => by cases hm.symm.trans hl
  · exact if_pos hl

theorem requestHash_eq_iff : first.value.requestHash orderId = second.value.requestHash orderId ↔
      SameRequest first second := by
  constructor
  · intro hh
    obtain ⟨hp, hi⟩ := Digest.orderRequest.inj hh
    have hpr := congrArg OrderParameters.price hp
    rw [orderParameters_price, orderParameters_price] at hpr
    exact {
      symbol_eq := congrArg OrderParameters.symbol hp
      side_eq := congrArg OrderParameters.side hp
      positionSide_eq := congrArg OrderParameters.positionSide hp
      orderType_eq := congrArg OrderParameters.orderType hp
      localQuantity_eq := congrArg OrderParameters.quantity hp
      limitPrice_eq := hpr
      expiresAt_eq := instants_eq_iff.mp hi }
  · intro hs
    unfold CopyMarketOrder.requestHash orderParameters value
    simp only [hs.symbol_eq, hs.side_eq, hs.positionSide_eq, hs.orderType_eq,
      hs.localQuantity_eq, hs.limitPrice_eq, hs.expiresAt_eq]

theorem sameRequest_of_value (hv : first.value = second.value) : SameRequest first second :=
  requestHash_eq_iff.mp (congrArg (CopyMarketOrder.requestHash · "") hv)

end Requests

end WrittenOrder

section Restoring

variable {δ : Type} {payloadHash : RequestPayload → δ}
  {claim : WrittenClaim δ} {row : WrittenClaimRow δ} {ord restored : WrittenOrder}
  {signal : NormalizedSignal}

theorem numericColumn_of_representable {value : Decimal} (hv : Representable value) :
    numericColumn value = some value := by
  obtain ⟨units, hu, rfl⟩ := hv
  have hs : (0 : ℚ) < 10 ^ 18 := by positivity
  have hw : ⌊|(units : ℚ) / 10 ^ 18| * 10 ^ 18 + 1 / 2⌋ = |units| := by
    rw [abs_div, abs_of_pos hs, div_mul_cancel₀ _ hs.ne', ← Int.cast_abs, Int.floor_intCast_add]
    norm_num
  have hsm : ((|units| : ℤ) : ℚ) < 10 ^ 38 := by exact_mod_cast hu
  unfold numericColumn
  rw [hw]
  dsimp only
  rw [if_pos hsm]
  have hsi : (units : ℚ) / 10 ^ 18 < 0 ↔ units < 0 := by
    rw [div_lt_iff₀ hs, zero_mul, Int.cast_lt_zero]
  by_cases hn : units < 0
  · rw [if_pos (hsi.mpr hn), abs_of_neg hn, Int.cast_neg, neg_neg]
  · rw [if_neg (mt hsi.mp hn), abs_of_nonneg (not_lt.mp hn)]

theorem create_value {amount : FiniteDecimal} {leverage : ℕ} {orderType : CopyOrderType}
    {limitPrice : Option FiniteDecimal} {expiresAt : Option UtcDateTime} :
    (WrittenOrder.create signal amount leverage orderType limitPrice expiresAt).map
        WrittenOrder.value = CopyMarketOrder.create signal amount.value leverage orderType
        (limitPrice.map FiniteDecimal.value) (expiresAt.map UtcDateTime.instant) := by
  unfold WrittenOrder.create CopyMarketOrder.create
  split_ifs <;> rfl

theorem restoredOrder_eq_some [HexOrder] [DecidableEq δ]
    (hr : claim.restoredOrder payloadHash signal = some restored) :
    claim.requestedQuantity = some restored.localQuantity ∧
      claim.limitPrice = restored.limitPrice ∧ claim.expiresAt = restored.expiresAt ∧
      (claim.requestHashVersion = 2 →
        payloadHash (restored.payload claim.clientOrderId) = claim.requestHash) := by
  unfold WrittenClaim.restoredOrder at hr
  split_ifs at hr
  split at hr
  · rename_i requestedQuantity leverage hq hleverage
    obtain ⟨hc, ha⟩ := Option.filter_eq_some_iff.mp hr
    unfold WrittenOrder.create at hc
    split_ifs at hc
    obtain rfl := Option.some.inj hc
    refine ⟨hq, rfl, rfl, fun hv => ?_⟩
    simpa [hv] using ha
  · cases hr

theorem claimRow_of_representable (payloadHash : RequestPayload → δ) (orderId : String)
    (claimedAt : Time) (hq : Representable ord.localQuantity.value)
    (hpr : ∀ price ∈ ord.limitPrice, Representable price.value) :
    ord.claimRow payloadHash orderId claimedAt = some {
      signalId := ord.signal.signalId
      clientOrderId := orderId
      requestHash := payloadHash (ord.payload orderId)
      requestedQuantity := some ord.localQuantity.value
      leverage := some ord.leverage
      orderType := ord.orderType
      limitPrice := ord.limitPrice.map FiniteDecimal.value
      expiresAt := ord.expiresAt.map UtcDateTime.instant
      claimedAt := claimedAt
      requestHashVersion := 2 } := by
  have hp := ord.localQuantity_pos
  have hle := ord.leverage_pos
  have hl := ord.leverage_le
  unfold WrittenOrder.claimRow
  rw [numericColumn_of_representable hq]
  obtain ⟨hm, hn, he⟩ | ⟨hli, price, hs, hpo⟩ := ord.limitPrice_cases
  · rw [hn, hm, he]
    simp [WrittenClaimRow.admitted, hp, hle, hl]
  · rw [hs, hli]
    simp [WrittenClaimRow.admitted, hp, hle, hl, hpo,
      numericColumn_of_representable (hpr price (by rw [hs]; rfl))]

theorem restoredOrder_of_readsBack [HexOrder] [DecidableEq δ] {orderId : String}
    {claimedAt : Time} (ha : orderId ∈ allowedClientOrderIds ord.signal.signalId false)
    (hq : Representable ord.localQuantity.value)
    (hpr : ∀ price ∈ ord.limitPrice, Representable price.value)
    (hrow : ord.claimRow payloadHash orderId claimedAt = some row) (hr : ReadsBack row claim) :
    ∃ restored, claim.restoredOrder payloadHash ord.signal = some restored ∧
      restored.value = ord.value := by
  rw [claimRow_of_representable payloadHash orderId claimedAt hq hpr] at hrow
  obtain rfl := Option.some.inj hrow
  obtain ⟨requestedQuantity, hre, hv⟩ :=
    Option.map_eq_some_iff.mp hr.requestedQuantity_eq
  have hc : (WrittenOrder.create ord.signal requestedQuantity ord.leverage
      claim.orderType claim.limitPrice claim.expiresAt).map WrittenOrder.value =
        some ord.value := by
    rw [create_value, hv, hr.orderType_eq, hr.limitPrice_eq, hr.expiresAt_eq]
    exact dif_pos ⟨ord.localQuantity_pos, ord.leverage_pos, ord.leverage_le, ord.policy⟩
  obtain ⟨restored, hcr, he⟩ := Option.map_eq_some_iff.mp hc
  refine ⟨restored, ?_, he⟩
  have hp := (WrittenOrder.sameRequest_of_value he).payload_eq orderId
  unfold WrittenClaim.restoredOrder
  rw [hr.signalId_eq, hr.clientOrderId_eq, hr.policyUpgraded_eq, if_neg, hre, hr.leverage_eq]
  · dsimp only
    rw [hcr, Option.filter_some, hr.requestHashVersion_eq, hr.requestHash_eq, hp]
    simp
  · rw [not_or, not_not, not_not]
    exact ⟨rfl, ha⟩

theorem copyClientOrderId_mem [HexOrder] (signalId : Digest) (env : BinanceFuturesEnvironment) :
    copyClientOrderId signalId env ∈ allowedClientOrderIds signalId false := by
  cases env
  · exact List.mem_append_left _ List.mem_cons_self
  · exact List.mem_append_left _ (List.mem_cons_of_mem _ (List.mem_singleton_self _))

theorem find?_of_insertClaim {rows post : List (WrittenClaimRow δ)}
    (hi : insertClaim rows row = some post) (later : List (WrittenClaimRow δ)) :
    (post ++ later).find? (·.signalId = row.signalId) = some row := by
  unfold insertClaim at hi
  split_ifs at hi with hc
  obtain rfl := Option.some.inj hi
  have hn : rows.find? (·.signalId = row.signalId) = none := by
    rw [List.find?_eq_none]
    intro other ho hs
    exact hc (List.any_eq_true.mpr ⟨other, ho, by
      rw [decide_eq_true_eq] at hs
      simp [hs]⟩)
  rw [List.append_assoc, List.find?_append, hn, Option.none_or]
  exact List.find?_cons_of_pos (decide_eq_true rfl)

/-- A claimed order is restored with the same parameters, a claim of other values is not, and a
parameter tells its number. -/
theorem claim_round_trip [HexOrder] [DecidableEq δ] (payloadHash : RequestPayload → δ)
    (ord : WrittenOrder) (env : BinanceFuturesEnvironment) (claimedAt : Time) (orderId : String)
    (hclientOrderId : orderId = copyClientOrderId ord.signal.signalId env) :
    (Representable ord.localQuantity.value → (∀ price ∈ ord.limitPrice, Representable price.value) →
      ∃ row, ord.claimRow payloadHash orderId claimedAt = some row ∧
        ∀ rows post later, insertClaim rows row = some post →
          ∃ found, (post ++ later).find? (·.signalId = ord.signal.signalId) = some found ∧
            ∀ claim, ReadsBack found claim →
              ∃ restored, claim.restoredOrder payloadHash ord.signal = some restored ∧
                restored.value = ord.value ∧
                restored.parameters orderId = ord.parameters orderId) ∧
      (Function.Injective payloadHash → ∀ (claim : WrittenClaim δ) (signal : NormalizedSignal),
        claim.clientOrderId = orderId → claim.requestHash = payloadHash (ord.payload orderId) →
        claim.requestHashVersion = 2 →
        (claim.requestedQuantity.map FiniteDecimal.value ≠ some ord.localQuantity.value ∨
          claim.limitPrice.map FiniteDecimal.value ≠ ord.limitPrice.map FiniteDecimal.value ∨
          claim.expiresAt.map UtcDateTime.instant ≠ ord.expiresAt.map UtcDateTime.instant) →
        claim.restoredOrder payloadHash signal = none) ∧
      (∀ first second : FiniteDecimal, ¬ first.IsNegativeZero → ¬ second.IsNegativeZero →
        (decimalParameter first = decimalParameter second ↔ first.value = second.value)) ∧
      ∀ value : FiniteDecimal, ∃ read,
        FiniteDecimal.ofText (decimalParameter value).toList = some read ∧
          read.value = value.value := by
  refine ⟨fun hq hp => ?_, fun hi claim signal hid hh hve hdi => ?_,
    fun first second => decimalParameter_eq_iff, ofText_decimalParameter⟩
  · have hrow := claimRow_of_representable payloadHash orderId claimedAt hq hp
    refine ⟨_, hrow, fun rows post later hin => ⟨_, find?_of_insertClaim hin later, ?_⟩⟩
    intro claim hrea
    have ha : orderId ∈ allowedClientOrderIds ord.signal.signalId false := by
      rw [hclientOrderId]
      exact copyClientOrderId_mem _ _
    obtain ⟨restored, hr, hv⟩ :=
      restoredOrder_of_readsBack ha hq hp hrow hrea
    exact ⟨restored, hr, hv, (WrittenOrder.sameRequest_of_value hv).parameters_eq orderId⟩
  · cases hr : claim.restoredOrder payloadHash signal with
    | none => rfl
    | some restored =>
      obtain ⟨hre, hl, he, hpa⟩ := restoredOrder_eq_some hr
      have hd := hi ((hpa hve).trans hh)
      rw [hid] at hd
      have hs := WrittenOrder.sameRequest_of_payload hd
      rw [hre, hl, he, Option.map_some, hs.localQuantity_eq,
        hs.limitPrice_eq, hs.expiresAt_eq] at hdi
      rcases hdi with hne | hne | hne <;> exact absurd rfl hne

end Restoring

section Sample

/-- One signal, so digests are never compared. -/
local instance claimedHexOrder : HexOrder := ⟨fun _ => 0⟩

def claimedSignal : NormalizedSignal where
  signalId := .external "claimed"
  sourceEventKey := .external "claimed"
  sourceIdentityKey := .external "claimed"
  leadPortfolioId := "1"
  symbol := "BTCUSDT"
  positionSide := .long
  kind := .increase
  sourceDeltaQuantity := 1
  sourceCumulativeQuantity := 1
  referencePrice := 60000
  occurredAtMs := 1767225599000

def claimedLimit : WrittenOrder :=
  (WrittenOrder.create claimedSignal ⟨false, 1, -3⟩ 5 .limit (some ⟨false, 6, 4⟩) none).get
    (by with_unfolding_all decide)

def claimedPayload : RequestPayload :=
  .parameters [("symbol", "BTCUSDT"), ("side", "BUY"), ("positionSide", "LONG"),
    ("type", "LIMIT"), ("quantity", "0.001"), ("newOrderRespType", "RESULT"),
    ("newClientOrderId", "aqc-t-0000000000000000000000000000"), ("price", "60000"),
    ("timeInForce", "GTC")]

def claimedHash (payload : RequestPayload) : String :=
  if payload = claimedPayload then
    "8dba877445a05e12b29b24431c7536a7d146f777509294bef07eb76352044af0"
  else ""

/-- The claim as it may be read back, its numbers with eighteen digits after the point. -/
def claimReadBack {δ : Type} (requestHash : δ) (units : ℕ) : WrittenClaim δ where
  signalId := claimedSignal.signalId
  clientOrderId := "aqc-t-0000000000000000000000000000"
  requestHash := requestHash
  requestedQuantity := some ⟨false, units, -18⟩
  leverage := some 5
  orderType := .limit
  limitPrice := some ⟨false, 60000 * 10 ^ 18, -18⟩
  expiresAt := none
  requestHashVersion := 2
  claimedAt := 0
  policyUpgraded := false

/-- The order is restored from the claim that is read back; with another quantity it is not. -/
theorem claimedLimit_restored :
    (∃ restored, (claimReadBack (claimedHash claimedPayload) (10 ^ 15)).restoredOrder claimedHash
        claimedLimit.signal = some restored ∧ restored.value = claimedLimit.value) ∧
      (claimReadBack claimedPayload (10 ^ 15 + 1)).restoredOrder id claimedSignal = none := by
  have hq : Representable claimedLimit.localQuantity.value :=
    ⟨10 ^ 15, by with_unfolding_all decide, by with_unfolding_all decide⟩
  have hp : ∀ price ∈ claimedLimit.limitPrice, Representable price.value := by
    intro price hp
    have hs : claimedLimit.limitPrice = some ⟨false, 6, 4⟩ := by with_unfolding_all decide
    rw [hs] at hp
    obtain rfl := Option.some.inj hp
    exact ⟨60000 * 10 ^ 18, by with_unfolding_all decide, by with_unfolding_all decide⟩
  constructor
  · obtain ⟨row, hrow, hfi⟩ := (claim_round_trip claimedHash claimedLimit .testnet 0 _ rfl).1 hq hp
    rw [claimRow_of_representable claimedHash _ 0 hq hp] at hrow
    obtain rfl := Option.some.inj hrow
    obtain ⟨found, hf, hre⟩ := hfi [] _ [] rfl
    simp only [List.nil_append, List.append_nil, List.find?_cons, decide_true,
      Option.some.injEq] at hf
    subst hf
    obtain ⟨restored, hr, hv, -⟩ :=
      hre (claimReadBack (claimedHash claimedPayload) (10 ^ 15)) {
        signalId_eq := by with_unfolding_all decide
        clientOrderId_eq := by decide
        requestHash_eq := by with_unfolding_all decide
        requestedQuantity_eq := by with_unfolding_all decide
        leverage_eq := by with_unfolding_all decide
        orderType_eq := by with_unfolding_all decide
        limitPrice_eq := by with_unfolding_all decide
        expiresAt_eq := by with_unfolding_all decide
        requestHashVersion_eq := rfl
        claimedAt_ge := le_rfl
        policyUpgraded_eq := rfl }
    exact ⟨restored, hr, hv⟩
  · exact (claim_round_trip id claimedLimit .testnet 0 _ rfl).2.1 Function.injective_id
      (claimReadBack claimedPayload (10 ^ 15 + 1)) claimedSignal (by decide)
      (by with_unfolding_all decide) rfl (.inl (by with_unfolding_all decide))

end Sample

theorem negative_zero_parameter : ¬ ∀ first second : FiniteDecimal, first.value = second.value →
      decimalParameter first = decimalParameter second := by
  intro hc
  have hs := hc ⟨false, 0, 0⟩ ⟨true, 0, 0⟩ (by with_unfolding_all decide)
  exact absurd hs (by decide)

end AiQuant.CopyTrading
