import AiQuant.Lib.PersistentTable
import Mathlib.Data.String.Basic

/-! `InMemoryCommandStore` (`control/commands.py`): accepted commands, and the challenges of an
emergency flatten.  A call returns its answer and the store that it leaves, also when it raises.
Times are microseconds. -/
namespace AiQuant.Control

inductive CommandState where
  | pending | accepted | rejected | completed | failed

structure CommandRecord where
  commandId : String
  commandType : String
  requestHash : String
  idempotencyKey : String
  actorId : String
  state : CommandState
  acceptedAt : ℤ
  updatedAt : ℤ
  auditEventId : String
  reasonCodes : List String := []

structure FlattenChallenge where
  challengeId : String
  actorId : String
  positionsDigest : String
  confirmationPhrase : String
  expiresAt : ℤ
  consumed : Bool := false

def CommandRecord.core (record : CommandRecord) : CommandRecord :=
  { record with state := .accepted, updatedAt := record.acceptedAt }

def FlattenChallenge.core (challenge : FlattenChallenge) : FlattenChallenge :=
  { challenge with consumed := false }

structure InMemoryCommandStore where
  commands : String → Option CommandRecord
  byIdempotency : String → Option String
  challenges : String → Option FlattenChallenge

inductive StoreError where
  | commandConflict (reason : String)
  | challenge (reason : String)
  | keyError (commandId : String)
  /-- `json.dumps` cannot write the payload. -/
  | payload
  /-- `date value out of range` -/
  | overflow

structure CommandRequest (Payload : Type) where
  commandType : String
  idempotencyKey : String
  actorId : String
  payload : Payload
  now : ℤ

structure FlattenIdentity where
  actorId : String
  positionsDigest : String
  idempotencyKey : String
deriving DecidableEq

structure FlattenConfirmation where
  challengeId : String
  actorId : String
  positionsDigest : String
  confirmationPhrase : String
  now : ℤ

def joined (first second third : String) : String := first ++ "|" ++ second ++ "|" ++ third

def FlattenIdentity.text (identity : FlattenIdentity) : String :=
  "flatten|" ++ joined identity.actorId identity.positionsDigest identity.idempotencyKey

def CommandRequest.text {Payload : Type} (request : CommandRequest Payload)
    (requestHash : String) : String :=
  joined request.commandType request.idempotencyKey requestHash

/-- The hex digest of SHA-256, as the store cuts it, and `_hash` of a payload. -/
structure CommandHashing (Payload : Type) where
  /-- `identity[:32]` -/
  head : String → String
  /-- `identity[32:]` -/
  tail : String → String
  /-- `identity[32:40].upper()` -/
  code : String → String
  payloadHash : Payload → Option String
  head_injective : Function.Injective head
  head_ne_empty : ∀ text, head text ≠ ""

variable {Payload : Type} (hashing : CommandHashing Payload)

def CommandHashing.record (request : CommandRequest Payload) (requestHash : String) :
    CommandRecord where
  commandId := hashing.head (request.text requestHash)
  commandType := request.commandType
  requestHash := requestHash
  idempotencyKey := request.idempotencyKey
  actorId := request.actorId
  state := .accepted
  acceptedAt := request.now
  updatedAt := request.now
  auditEventId := hashing.tail (request.text requestHash)

def CommandHashing.challenge (identity : FlattenIdentity) (now : ℤ) : FlattenChallenge where
  challengeId := hashing.head identity.text
  actorId := identity.actorId
  positionsDigest := identity.positionsDigest
  confirmationPhrase := "FLATTEN-" ++ hashing.code identity.text
  expiresAt := now + 60000000

/-- `datetime.max` -/
def lastMoment : ℤ := 253402300799999999

namespace InMemoryCommandStore

def new : InMemoryCommandStore where
  commands _ := none
  byIdempotency _ := none
  challenges _ := none

variable (store : InMemoryCommandStore)

/-- `if existing_id:` -/
def existingId (idempotencyKey : String) : Option String :=
  (store.byIdempotency idempotencyKey).filter (· ≠ "")

def setCommand (commandId : String) (record : CommandRecord) : InMemoryCommandStore :=
  { store with commands := Function.update store.commands commandId (some record) }

def setChallenge (challengeId : String) (challenge : FlattenChallenge) : InMemoryCommandStore :=
  { store with challenges := Function.update store.challenges challengeId (some challenge) }

def enter (record : CommandRecord) : InMemoryCommandStore :=
  { store.setCommand record.commandId record with
    byIdempotency :=
      Function.update store.byIdempotency record.idempotencyKey (some record.commandId) }

def accept (request : CommandRequest Payload) :
    Except StoreError CommandRecord × InMemoryCommandStore :=
  match hashing.payloadHash request.payload with
  | none => (.error .payload, store)
  | some requestHash =>
    match store.existingId request.idempotencyKey with
    | some existingId =>
      match store.commands existingId with
      | none => (.error (.keyError existingId), store)
      | some existing =>
        if existing.requestHash ≠ requestHash ∨ existing.commandType ≠ request.commandType then
          (.error (.commandConflict "IDEMPOTENCY_CONFLICT"), store)
        else (.ok existing, store)
    | none =>
      (.ok (hashing.record request requestHash), store.enter (hashing.record request requestHash))

def findIdempotent (commandType idempotencyKey : String) (payload : Payload) :
    Except StoreError (Option CommandRecord) :=
  match store.byIdempotency idempotencyKey with
  | none => .ok none
  | some existingId =>
    match store.commands existingId with
    | none => .error (.keyError existingId)
    | some existing =>
      if existing.commandType ≠ commandType then
        .error (.commandConflict "IDEMPOTENCY_CONFLICT")
      else match hashing.payloadHash payload with
        | none => .error .payload
        | some requestHash =>
          if existing.requestHash ≠ requestHash then
            .error (.commandConflict "IDEMPOTENCY_CONFLICT")
          else .ok (some existing)

def complete (commandId : String) (now : ℤ) :
    Except StoreError CommandRecord × InMemoryCommandStore :=
  match store.commands commandId with
  | none => (.error (.keyError commandId), store)
  | some existing =>
    let record := { existing with state := .completed, updatedAt := now }
    (.ok record, store.setCommand commandId record)

def prepareFlatten (identity : FlattenIdentity) (now : ℤ) :
    Except StoreError FlattenChallenge × InMemoryCommandStore :=
  match store.challenges (hashing.head identity.text) with
  | some challenge => (.ok challenge, store)
  | none =>
    if lastMoment < now + 60000000 then (.error .overflow, store)
    else
      let challenge := hashing.challenge identity now
      (.ok challenge, store.setChallenge challenge.challengeId challenge)

def consumeFlatten (confirmation : FlattenConfirmation) :
    Except StoreError FlattenChallenge × InMemoryCommandStore :=
  match store.challenges confirmation.challengeId with
  | none => (.error (.challenge "CONFIRMATION_REQUIRED"), store)
  | some challenge =>
    if challenge.consumed then (.error (.challenge "CONFIRMATION_USED"), store)
    else if challenge.expiresAt < confirmation.now then
      (.error (.challenge "CONFIRMATION_EXPIRED"), store)
    else if challenge.actorId ≠ confirmation.actorId ∨
        challenge.positionsDigest ≠ confirmation.positionsDigest ∨
        challenge.confirmationPhrase ≠ confirmation.confirmationPhrase then
      (.error (.challenge "CONFIRMATION_REQUIRED"), store)
    else
      let consumed := { challenge with consumed := true }
      (.ok consumed, store.setChallenge confirmation.challengeId consumed)

end InMemoryCommandStore

inductive StoreCall (Payload : Type) where
  | accept (request : CommandRequest Payload)
  | findIdempotent (commandType idempotencyKey : String) (payload : Payload)
  | complete (commandId : String) (now : ℤ)
  | prepareFlatten (identity : FlattenIdentity) (now : ℤ)
  | consumeFlatten (confirmation : FlattenConfirmation)

inductive Returned where
  | command (record : CommandRecord)
  | found (record : Option CommandRecord)
  | challenge (challenge : FlattenChallenge)

def InMemoryCommandStore.perform (store : InMemoryCommandStore) :
    StoreCall Payload → Except StoreError Returned × InMemoryCommandStore
  | .accept request => Prod.map (Except.map .command) id (store.accept hashing request)
  | .findIdempotent commandType idempotencyKey payload =>
    ((store.findIdempotent hashing commandType idempotencyKey payload).map .found, store)
  | .complete commandId now => Prod.map (Except.map .command) id (store.complete commandId now)
  | .prepareFlatten identity now =>
    Prod.map (Except.map .challenge) id (store.prepareFlatten hashing identity now)
  | .consumeFlatten confirmation =>
    Prod.map (Except.map .challenge) id (store.consumeFlatten confirmation)

def storeAfter (calls : List (StoreCall Payload)) : InMemoryCommandStore :=
  calls.foldl (fun store call => (store.perform hashing call).2) .new

end AiQuant.Control
