import AiQuant.Lib.VersionedMap
import Mathlib.Algebra.Order.Ring.Rat
import Mathlib.Data.Finset.Max
import Mathlib.Data.Finset.Sort
import Mathlib.Data.PNat.Basic

/-! `LocalOrderBook` (`orderbook/book.py`) and the records it reads (`market_data/models.py`).
A side is a finite map from prices to quantities, decimals are exact rationals and instants
are microseconds.  An operation that raises also returns the book it leaves behind. -/
namespace AiQuant.OrderBook
open AiQuant.Lib

/-- Prices are positive and quantities non-negative (`_decimal`). -/
structure DepthLevel where
  price : ℚ
  quantity : ℚ
  price_pos : 0 < price
  quantity_nonneg : 0 ≤ quantity
deriving DecidableEq

structure BookSnapshot where
  symbol : String
  connectionId : String
  receivedAt : ℤ
  lastUpdateId : ℕ
  bids : List DepthLevel
  asks : List DepthLevel
  /-- `has_valid_sides` -/
  bids_ne_nil : bids ≠ []
  asks_ne_nil : asks ≠ []

structure DepthUpdate where
  symbol : String
  connectionId : String
  receivedAt : ℤ
  firstUpdateId : ℕ
  finalUpdateId : ℕ
  previousFinalUpdateId : ℕ
  bids : List DepthLevel
  asks : List DepthLevel
  rawHash : String
  /-- `sequence_is_ordered` -/
  first_le_final : firstUpdateId ≤ finalUpdateId
deriving DecidableEq

inductive OrderBookState where
  | disconnected
  | buffering
  | snapshotLoading
  | syncing
  | healthy
  | stale
  | gap
  | rotating
deriving DecidableEq

inductive BoundaryRule where
  | coverLastUpdateId
  | coverNextUpdateId

inductive BookReason where
  | none
  | disconnected
  | snapshotRequired
  | connectionRotating
  | bufferOverflow
  | snapshotIdentityMismatch
  | snapshotBookInvalid
  | snapshotBoundaryMissing
  | snapshotBoundaryGap
  | eventStreamStale
  | streamIdentityMismatch
  | outOfOrderUpdate
  | sequenceGap
  | crossedOrEmptyBook

def BookReason.text : BookReason → String
  | none => ""
  | disconnected => "DISCONNECTED"
  | snapshotRequired => "SNAPSHOT_REQUIRED"
  | connectionRotating => "CONNECTION_ROTATING"
  | bufferOverflow => "BUFFER_OVERFLOW"
  | snapshotIdentityMismatch => "SNAPSHOT_IDENTITY_MISMATCH"
  | snapshotBookInvalid => "SNAPSHOT_BOOK_INVALID"
  | snapshotBoundaryMissing => "SNAPSHOT_BOUNDARY_MISSING"
  | snapshotBoundaryGap => "SNAPSHOT_BOUNDARY_GAP"
  | eventStreamStale => "EVENT_STREAM_STALE"
  | streamIdentityMismatch => "STREAM_IDENTITY_MISMATCH"
  | outOfOrderUpdate => "OUT_OF_ORDER_UPDATE"
  | sequenceGap => "SEQUENCE_GAP"
  | crossedOrEmptyBook => "CROSSED_OR_EMPTY_BOOK"

/-- The `RuntimeError`s and `ValueError`s of the book. -/
inductive BookError where
  | snapshotNotBuffering
  | foreignUpdate
  | nowNotUtc
  | bookNotValid
deriving DecidableEq

def BookError.text : BookError → String
  | snapshotNotBuffering => "snapshot can only be loaded while buffering"
  | foreignUpdate => "update does not belong to this book connection"
  | nowNotUtc => "now must be timezone-aware UTC"
  | bookNotValid => "order book is not valid"

abbrev Levels := Finmap fun _ : ℚ => ℚ

structure EventKey where
  connectionId : String
  firstUpdateId : ℕ
  finalUpdateId : ℕ
  previousFinalUpdateId : ℕ
  rawHash : String
deriving DecidableEq

/-- `seenOrder` stands for the queue `_seen_order` and for the set `_seen`, which holds
the same keys: a key enters both at once and only when it is in neither. -/
structure LocalOrderBook where
  symbol : String
  bufferLimit : ℕ+
  staleAfter : ℤ
  state : OrderBookState
  connectionId : Option String
  buffer : List DepthUpdate
  bids : Levels
  asks : Levels
  lastUpdateId : Option ℕ
  lastReceivedAt : Option ℤ
  seenOrder : List EventKey
  appliedCount : ℕ
  duplicateCount : ℕ
  gapCount : ℕ
  outOfOrderCount : ℕ
  invalidCount : ℕ
  reason : BookReason

/-- The constructor.  It refuses a `buffer_limit` below one. -/
def LocalOrderBook.new (symbol : String) (bufferLimit : ℕ+) (staleAfter : ℤ) :
    LocalOrderBook where
  symbol := symbol
  bufferLimit := bufferLimit
  staleAfter := staleAfter
  state := .disconnected
  connectionId := none
  buffer := []
  bids := ∅
  asks := ∅
  lastUpdateId := none
  lastReceivedAt := none
  seenOrder := []
  appliedCount := 0
  duplicateCount := 0
  gapCount := 0
  outOfOrderCount := 0
  invalidCount := 0
  reason := .disconnected

/-- The loop body of `_apply_levels`. -/
def applyLevel (target : Levels) (level : DepthLevel) : Levels :=
  if level.quantity = 0 then target.erase level.price
  else target.insert level.price level.quantity

def applyLevels (target : Levels) (levels : List DepthLevel) : Levels :=
  levels.foldl applyLevel target

/-- `_levels` -/
def levelsOf (levels : List DepthLevel) : Levels :=
  applyLevels ∅ levels

def sidesValid (bids asks : Levels) : Bool :=
  if hsides : bids.keys.Nonempty ∧ asks.keys.Nonempty then
    bids.keys.max' hsides.1 < asks.keys.min' hsides.2
  else false

namespace LocalOrderBook

def valid (book : LocalOrderBook) : Bool :=
  book.state = .healthy

def clearBook (book : LocalOrderBook) : LocalOrderBook :=
  { book with bids := ∅, asks := ∅, lastUpdateId := none, lastReceivedAt := none }

def invalidate (book : LocalOrderBook) (reason : BookReason) (gap : Bool) : LocalOrderBook :=
  clearBook { book with
    state := if gap then .gap else .disconnected
    reason := reason
    invalidCount := book.invalidCount + 1
    gapCount := if gap then book.gapCount + 1 else book.gapCount
    buffer := [] }

def startBuffering (book : LocalOrderBook) (connectionId : String) : LocalOrderBook :=
  clearBook { book with
    connectionId := some connectionId
    state := .buffering
    reason := .snapshotRequired
    buffer := [] }

def rotate (book : LocalOrderBook) (connectionId : String) : LocalOrderBook :=
  startBuffering { book with state := .rotating, reason := .connectionRotating } connectionId

def disconnect (book : LocalOrderBook) : LocalOrderBook :=
  clearBook { book with
    state := .disconnected
    connectionId := none
    reason := .disconnected
    buffer := [] }

def seenLimit (book : LocalOrderBook) : ℕ :=
  max (book.bufferLimit * 2) 100000

def remember (book : LocalOrderBook) (key : EventKey) : LocalOrderBook :=
  let kept := if book.seenLimit ≤ book.seenOrder.length then book.seenOrder.drop 1
    else book.seenOrder
  { book with seenOrder := kept ++ [key] }

/-- The end of `_apply_contiguous`: the sides and the id of an update that was accepted. -/
def applied (book : LocalOrderBook) (update : DepthUpdate) : LocalOrderBook :=
  let after := { book with
    bids := applyLevels book.bids update.bids
    asks := applyLevels book.asks update.asks
    lastUpdateId := some update.finalUpdateId
    lastReceivedAt := some update.receivedAt
    appliedCount := book.appliedCount + 1 }
  if book.state = .syncing then after
  else { after with state := .healthy, reason := .none }

def applyContiguous (book : LocalOrderBook) (update : DepthUpdate) : Bool × LocalOrderBook :=
  match book.lastUpdateId with
  | none => (false, book.invalidate .sequenceGap true)
  | some previous =>
    if update.previousFinalUpdateId ≠ previous then
      if update.finalUpdateId ≤ previous then
        (false, invalidate { book with outOfOrderCount := book.outOfOrderCount + 1 }
          .outOfOrderUpdate false)
      else (false, book.invalidate .sequenceGap true)
    else if !sidesValid (applyLevels book.bids update.bids) (applyLevels book.asks update.asks) then
      (false, book.invalidate .crossedOrEmptyBook false)
    else (true, book.applied update)

def eventKey (update : DepthUpdate) : EventKey where
  connectionId := update.connectionId
  firstUpdateId := update.firstUpdateId
  finalUpdateId := update.finalUpdateId
  previousFinalUpdateId := update.previousFinalUpdateId
  rawHash := update.rawHash

/-- `ingest` of an update that was not seen before. -/
def ingestFresh (book : LocalOrderBook) (update : DepthUpdate) :
    Except BookError Bool × LocalOrderBook :=
  if book.state ∈ [.buffering, .snapshotLoading, .syncing] then
    if book.buffer.length = book.bufferLimit then
      (.ok false, book.invalidate .bufferOverflow true)
    else (.ok false, { book with buffer := book.buffer ++ [update] })
  else if book.state ≠ .healthy then (.ok false, book)
  else
    let (applied, after) := book.applyContiguous update
    (.ok applied, after)

def ingest (book : LocalOrderBook) (update : DepthUpdate) :
    Except BookError Bool × LocalOrderBook :=
  -- `_validate_identity` clears the book before it raises
  if update.symbol ≠ book.symbol ∨ some update.connectionId ≠ book.connectionId then
    (.error .foreignUpdate, book.invalidate .streamIdentityMismatch false)
  else if eventKey update ∈ book.seenOrder then
    (.ok false, { book with duplicateCount := book.duplicateCount + 1 })
  else (book.remember (eventKey update)).ingestFresh update

/-- The loop of `load_snapshot`: it stops at the first update that does not apply. -/
def applyAll (book : LocalOrderBook) : List DepthUpdate → Bool × LocalOrderBook
  | [] => (true, book)
  | update :: rest => match book.applyContiguous update with
    | (true, applied) => applyAll applied rest
    | (false, invalidated) => (false, invalidated)

def boundaryOf (snapshot : BookSnapshot) : BoundaryRule → ℕ
  | .coverLastUpdateId => snapshot.lastUpdateId
  | .coverNextUpdateId => snapshot.lastUpdateId + 1

def covers (boundary : ℕ) (update : DepthUpdate) : Bool :=
  update.firstUpdateId ≤ boundary ∧ boundary ≤ update.finalUpdateId

/-- `load_snapshot` from the state SYNCING on: `synced` holds the snapshot's sides and an
empty buffer, `buffered` what the buffer held. -/
def replayBuffer (synced : LocalOrderBook) (buffered : List DepthUpdate)
    (snapshot : BookSnapshot) (boundaryRule : BoundaryRule) : LocalOrderBook :=
  let candidates := buffered.filter fun event => snapshot.lastUpdateId ≤ event.finalUpdateId
  if candidates = [] then synced.invalidate .snapshotBoundaryMissing true
  else match candidates.dropWhile fun event => !covers (boundaryOf snapshot boundaryRule) event with
    | [] => synced.invalidate .snapshotBoundaryGap true
    | first :: rest =>
      let based := { synced with lastUpdateId := some first.previousFinalUpdateId }
      match based.applyAll (first :: rest) with
      | (false, invalidated) => invalidated
      | (true, applied) => { applied with state := .healthy, reason := .none }

def loadSnapshot (book : LocalOrderBook) (snapshot : BookSnapshot)
    (boundaryRule : BoundaryRule) : Except BookError Unit × LocalOrderBook :=
  if book.state ≠ .buffering then (.error .snapshotNotBuffering, book)
  else if snapshot.symbol ≠ book.symbol ∨ some snapshot.connectionId ≠ book.connectionId then
    (.ok (), book.invalidate .snapshotIdentityMismatch false)
  else
    let loading := { book with state := .snapshotLoading }
    let bids := levelsOf snapshot.bids
    let asks := levelsOf snapshot.asks
    if !sidesValid bids asks then (.ok (), loading.invalidate .snapshotBookInvalid false)
    else
      let synced := { loading with
        bids := bids
        asks := asks
        lastUpdateId := some snapshot.lastUpdateId
        lastReceivedAt := some snapshot.receivedAt
        state := .syncing
        buffer := [] }
      (.ok (), synced.replayBuffer book.buffer snapshot boundaryRule)

/-- An argument of type `datetime`: an instant, and whether it is an aware UTC one. -/
structure Timestamp where
  instant : ℤ
  utc : Bool

def markStale (book : LocalOrderBook) (now : Timestamp) :
    Except BookError Bool × LocalOrderBook :=
  if now.utc = false then (.error .nowNotUtc, book)
  else match book.lastReceivedAt with
    | none => (.ok false, book)
    | some lastReceivedAt =>
      if now.instant - lastReceivedAt ≤ book.staleAfter then (.ok false, book)
      else if book.state = .healthy then
        (.ok true, clearBook { book with state := .stale, reason := .eventStreamStale })
      else (.ok false, book)

/-- `_format`: the shortest plain notation of a finite decimal. -/
def format (value : ℚ) : String :=
  let places := ((List.range (value.den.log2 + 1)).find? fun k => value.den ∣ 10 ^ k).getD 0
  let scaled := (value.num * 10 ^ places / value.den).toNat
  let whole := toString (scaled / 10 ^ places)
  let digits := toString (scaled % 10 ^ places)
  if places = 0 then whole
  else whole ++ "." ++ String.ofList (List.replicate (places - digits.length) '0') ++ digits

/-- `sorted(side.items())` -/
def ascending (levels : Levels) : List (ℚ × ℚ) :=
  levels.keys.sort.filterMap fun price => (levels.lookup price).map (price, ·)

/-- `items[:depth]`; a negative depth counts from the end. -/
def firstItems {α : Type} (items : List α) (depth : ℤ) : List α :=
  if 0 ≤ depth then items.take depth.toNat else items.take (items.length - (-depth).toNat)

def formatItem (item : ℚ × ℚ) : String × String :=
  (format item.1, format item.2)

def top (book : LocalOrderBook) (depth : ℤ) : Except BookError (List (String × String)) :=
  if !book.valid then .error .bookNotValid
  else
    let bids := firstItems (ascending book.bids).reverse depth
    let asks := firstItems (ascending book.asks) depth
    .ok ((bids ++ asks).map formatItem)

/-- The document that `book_hash` renders as canonical JSON. -/
structure BookDocument where
  asks : List (String × String)
  bids : List (String × String)
  lastUpdateId : Option ℕ
  symbol : String

/-- `digest` is SHA-256 of the canonical JSON of the document. -/
def bookHash (digest : BookDocument → String) (book : LocalOrderBook) :
    Except BookError String :=
  if !book.valid then .error .bookNotValid
  else .ok <| digest {
    asks := (ascending book.asks).map formatItem
    bids := (ascending book.bids).reverse.map formatItem
    lastUpdateId := book.lastUpdateId
    symbol := book.symbol }

end LocalOrderBook

inductive BookCall where
  | startBuffering (connectionId : String)
  | rotate (connectionId : String)
  | disconnect
  | ingest (update : DepthUpdate)
  | loadSnapshot (snapshot : BookSnapshot) (boundaryRule : BoundaryRule)
  | markStale (now : LocalOrderBook.Timestamp)

def LocalOrderBook.step (book : LocalOrderBook) : BookCall → LocalOrderBook
  | .startBuffering connectionId => book.startBuffering connectionId
  | .rotate connectionId => book.rotate connectionId
  | .disconnect => book.disconnect
  | .ingest update => (book.ingest update).2
  | .loadSnapshot snapshot boundaryRule => (book.loadSnapshot snapshot boundaryRule).2
  | .markStale now => (book.markStale now).2

def LocalOrderBook.run (book : LocalOrderBook) (calls : List BookCall) : LocalOrderBook :=
  calls.foldl step book

end AiQuant.OrderBook
