import AiQuant.Lib.Alternation
import AiQuant.Lib.UtcDateTime
import Mathlib.Algebra.Order.Ring.Rat

/-! Price action over closed bars (`features/price_action.py`): the average true range and the
confirmed swings.  Decimals are exact rationals. -/
namespace AiQuant.Features
open AiQuant.Lib

inductive SwingKind where
  | high | low
deriving DecidableEq

def SwingKind.value : SwingKind → String
  | high => "HIGH"
  | low => "LOW"

/-- A bar that `__post_init__` accepts. -/
structure ClosedBar where
  symbol : String
  timeframe : String
  openTime : UtcDateTime
  closeTime : UtcDateTime
  opening : ℚ
  high : ℚ
  low : ℚ
  closing : ℚ
  volume : ℚ
  times_lt : openTime.instant < closeTime.instant
  low_pos : 0 < low
  high_mem : opening ≤ high ∧ closing ≤ high
  low_mem : low ≤ opening ∧ low ≤ closing
  volume_nonneg : 0 ≤ volume

structure ConfirmedSwing where
  swingId : String
  kind : SwingKind
  price : ℚ
  openTime : UtcDateTime
  confirmTime : UtcDateTime
  atr : ℚ

def trueRangesAfter (previous : ClosedBar) : List ClosedBar → List (Option ℚ)
  | [] => []
  | current :: bars =>
    some (max (current.high - current.low)
      (max |current.high - previous.closing| |current.low - previous.closing|)) ::
        trueRangesAfter current bars

def trueRanges : List ClosedBar → List (Option ℚ)
  | [] => []
  | first :: bars => none :: trueRangesAfter first bars

/-- The entry of `simple_atr` at an index. -/
def atrAt (ranges : List (Option ℚ)) (period index : ℕ) : Option ℚ :=
  let window := ranges.extract (max 1 (index + 1 - period)) (index + 1)
  if window.length < period ∨ none ∈ window then none
  else some ((window.filterMap id).sum / period)

def simpleAtr (bars : List ClosedBar) (period : ℕ) : Except String (List (Option ℚ)) :=
  if period < 1 then .error "ATR period must be positive"
  else
    let ranges := trueRanges bars
    .ok ((List.range ranges.length).map (atrAt ranges period))

/-- `max` of the highs; never asked of an empty window. -/
def highest : List ClosedBar → ℚ
  | [] => 0
  | bar :: bars => bars.foldl (fun value other => max value other.high) bar.high

/-- `min` of the lows; never asked of an empty window. -/
def lowest : List ClosedBar → ℚ
  | [] => 0
  | bar :: bars => bars.foldl (fun value other => min value other.low) bar.low

def swingKind (candidate : ClosedBar) (before after : List ClosedBar) : Option SwingKind :=
  let isHigh := highest before < candidate.high ∧ highest after ≤ candidate.high
  let isLow := candidate.low < lowest before ∧ candidate.low ≤ lowest after
  if isHigh ∧ isLow then
    let highProminence := candidate.high - highest before
    let lowProminence := lowest before - candidate.low
    if highProminence = lowProminence then none
    else if lowProminence < highProminence then some .high else some .low
  else if isHigh then some .high
  else if isLow then some .low
  else none

def ConfirmedSwing.moreExtreme (swing previous : ConfirmedSwing) : Bool :=
  match swing.kind with
  | .high => previous.price < swing.price
  | .low => swing.price < previous.price

section Swings

-- `sha256(...).hexdigest()`
variable (digest : String → String)

def swingId (candidate : ClosedBar) (kind : SwingKind) : String :=
  digest (candidate.symbol ++ "|" ++ candidate.timeframe ++ "|" ++
    String.ofList candidate.openTime.isoformat ++ "|" ++ kind.value)

def swingAt (bars : List ClosedBar) (atrValues : List (Option ℚ)) (left right index : ℕ) :
    Option ConfirmedSwing := do
  let candidate ← bars[index]?
  let atr ← (atrValues[index]?).join
  if atr ≤ 0 then none
  else
    let kind ← swingKind candidate (bars.extract (index - left) index)
      (bars.extract (index + 1) (index + right + 1))
    let confirming ← bars[index + right]?
    some {
      swingId := swingId digest candidate kind
      kind := kind
      price := match kind with | .high => candidate.high | .low => candidate.low
      openTime := candidate.openTime
      confirmTime := confirming.closeTime
      atr := atr }

def recordSwing (swings : List ConfirmedSwing) (swing : ConfirmedSwing) : List ConfirmedSwing :=
  match swings.getLast? with
  | none => swings ++ [swing]
  | some previous =>
    if previous.kind = swing.kind then
      if swing.moreExtreme previous then swings.dropLast ++ [swing] else swings
    else swings ++ [swing]

def confirmedSwings (bars : List ClosedBar) (atrValues : List (Option ℚ)) (left right : ℕ) :
    Except String (List ConfirmedSwing) :=
  if left < 1 ∨ right < 1 ∨ atrValues.length ≠ bars.length then .error "invalid swing inputs"
  else .ok ((List.range' left (bars.length - right - left)).foldl
    (fun swings index =>
      match swingAt digest bars atrValues left right index with
      | none => swings
      | some swing => recordSwing swings swing) [])

end Swings

end AiQuant.Features
