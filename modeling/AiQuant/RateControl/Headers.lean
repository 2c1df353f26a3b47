import AiQuant.RateControl.Permits

/-! `reconcile_header_observation`: what the exchange's response headers say about the
windows of a permit, and the blocks that a 418 or 429 answer puts on an authority. -/
namespace AiQuant.RateControl
open AiQuant.Lib

/-- The columns and the payload fields of an observation that the trigger reads.  An
absent observation object is an empty one. -/
structure HeaderObservation where
  observationType : String
  endpointAuthority : String
  permitId : Option String
  usedWeightObservations : List (String × Option String)
  orderCountObservations : List (String × Option String)
  httpStatus : Option String
  retryAfterSeconds : Option String

def intervalUnit : Char → Option String
  | 's' => some "SECOND_"
  | 'm' => some "MINUTE_"
  | 'h' => some "HOUR_"
  | 'd' => some "DAY_"
  | _ => none

/-- The interval that a header's key ends with (`([0-9]+[smhd])$`). -/
def headerInterval (key : String) : Option String :=
  match key.toList.reverse with
  | [] => none
  | unit :: rest =>
    let digits := (rest.takeWhile Char.isDigit).reverse
    if digits = [] then none else (intervalUnit unit).map (· ++ String.ofList digits)

example : headerInterval "X-MBX-USED-WEIGHT-1m" = some "MINUTE_1" := by decide

def castNullable (cast : String → Option ℤ) : Option String → Except String (Option ℤ)
  | none => .ok none
  | some text => match cast text with
    | none => .error "invalid input syntax"
    | some value => .ok (some value)

section Reconciliation

-- the casts of a text to `bigint` and to `integer`
variable (castBigint castInteger : String → Option ℤ)

/-- The body of the two loops over the headers.  `GREATEST` passes over a null. -/
def Database.observeHeader (permitId : Option String) (rateLimitType : String)
    (database : Database) (header : String × Option String) : Except String Database :=
  match headerInterval header.1 with
  | none => .ok database
  | some intervalName => do
    let observed ← castNullable castBigint header.2
    return { database with
      windows := database.windows.map fun window =>
        if database.allocations.any (fun allocation =>
            permitId = some allocation.permitId && allocation.windowId = window.windowId) &&
            window.rateLimitType = rateLimitType && window.intervalName = intervalName then
          { window with observedMax := observed.elim window.observedMax (max window.observedMax) }
        else window }

/-- `INSERT ... ON CONFLICT (endpoint_authority) DO UPDATE`. -/
def Database.upsertBlock (database : Database) (inserted : AuthorityBlock)
    (update : AuthorityBlock → AuthorityBlock) : Database :=
  if database.blocks.any (·.endpointAuthority = inserted.endpointAuthority) then
    { database with
      blocks := database.blocks.map fun block =>
        if block.endpointAuthority = inserted.endpointAuthority then update block else block }
  else { database with blocks := database.blocks ++ [inserted] }

def Database.backOff (database : Database) (authority : String) (retryAfter : Option ℤ)
    (now : Time) : Database :=
  let currentCount := ((database.blocks.find? (·.endpointAuthority = authority)).map
    (·.consecutiveBackoffCount)).getD 0
  let retrySeconds := retryAfter.getD (min 900 (60 * 2 ^ (min currentCount 4).toNat))
  let nextCount := if retryAfter.isNone then currentCount + 1 else 0
  let windowEnds := (database.windows.filter fun window =>
    window.endpointAuthority = authority && now < window.windowEnd).map (·.windowEnd)
  let computedBlockUntil :=
    max (now + 1000000 * retrySeconds) (windowEnds.max?.elim now (· + 250000))
  database.upsertBlock ⟨authority, some computedBlockUntil, nextCount⟩ fun block =>
    { block with
      blockedUntil := block.blockedUntil.map (max · computedBlockUntil)
      consecutiveBackoffCount := nextCount }

/-- The trigger.  Whatever fails in it undoes the insertion of the observation, and the
trigger's clock readings are one instant. -/
def Database.reconcileHeaderObservation (database : Database) (observation : HeaderObservation)
    (now : Time) : Except String Database :=
  if observation.observationType ≠ "HeaderObservation" then .ok database
  else do
    let weighed ← observation.usedWeightObservations.foldlM
      (Database.observeHeader castBigint observation.permitId "REQUEST_WEIGHT") database
    let counted ← observation.orderCountObservations.foldlM
      (Database.observeHeader castBigint observation.permitId "ORDERS") weighed
    let statusCode ← castNullable castInteger observation.httpStatus
    -- a null status is in no list and equal to nothing, so it goes on to the backoff
    if statusCode.any (fun code => code ≠ 418 && code ≠ 429) then return counted
    else if statusCode = some 418 then
      return counted.upsertBlock ⟨observation.endpointAuthority, none, 0⟩ fun block =>
        { block with blockedUntil := none, consecutiveBackoffCount := 0 }
    else do
      let retryAfter ← castNullable castInteger observation.retryAfterSeconds
      return counted.backOff observation.endpointAuthority retryAfter now

variable {castBigint castInteger}

def RateWindow.unseen (window : RateWindow) : RateWindow :=
  { window with observedMax := 0 }

structure Observes (before after : Database) : Prop where
  windows : after.windows.map (·.unseen) = before.windows.map (·.unseen)
  allocations : after.allocations = before.allocations
  permits : after.permits = before.permits
  nonces : after.nonces = before.nonces

theorem Observes.refl (db : Database) : Observes db db :=
  ⟨rfl, rfl, rfl, rfl⟩

theorem Observes.trans {pre between post : Database} (hf : Observes pre between)
    (hs : Observes between post) : Observes pre post :=
  ⟨hs.windows.trans hf.windows, hs.allocations.trans hf.allocations,
    hs.permits.trans hf.permits, hs.nonces.trans hf.nonces⟩

theorem observeHeader_observes {permitId : Option String} {rateLimitType : String}
    {db post : Database} {header : String × Option String}
    (hs : Database.observeHeader castBigint permitId rateLimitType db header =
      .ok post) : Observes db post := by
  unfold Database.observeHeader at hs
  split at hs
  · cases hs
    exact .refl db
  · rw [bind_eq_ok_iff] at hs
    obtain ⟨observed, -, hs⟩ := hs
    cases hs
    refine ⟨?_, rfl, rfl, rfl⟩
    rw [List.map_map]
    apply List.map_congr_left
    intro win _
    dsimp only [Function.comp]
    split <;> rfl

theorem observeHeaders_observes {permitId : Option String} {rateLimitType : String}
    {db post : Database} {headers : List (String × Option String)}
    (hl : headers.foldlM (Database.observeHeader castBigint permitId rateLimitType) db =
      .ok post) : Observes db post := by
  refine foldlM_invariant (Observes db) ?_ (.refl db) hl
  intro header _ reached next hr hs
  exact hr.trans (observeHeader_observes hs)

theorem upsertBlock_observes (db : Database) (inserted : AuthorityBlock)
    (upd : AuthorityBlock → AuthorityBlock) : Observes db (db.upsertBlock inserted upd) := by
  unfold Database.upsertBlock
  split <;> exact ⟨rfl, rfl, rfl, rfl⟩

theorem reconcileHeaderObservation_observes {db post : Database}
    {observation : HeaderObservation} {now : Time}
    (hs : db.reconcileHeaderObservation castBigint castInteger observation now =
      .ok post) : Observes db post := by
  unfold Database.reconcileHeaderObservation at hs
  split at hs
  · cases hs
    exact .refl db
  rw [bind_eq_ok_iff] at hs
  obtain ⟨weighed, hw, hs⟩ := hs
  rw [bind_eq_ok_iff] at hs
  obtain ⟨counted, hc, hs⟩ := hs
  have ho := (observeHeaders_observes hw).trans (observeHeaders_observes hc)
  rw [bind_eq_ok_iff] at hs
  obtain ⟨statusCode, -, hs⟩ := hs
  split at hs
  · cases hs
    exact ho
  split at hs
  · cases hs
    exact ho.trans (upsertBlock_observes _ _ _)
  · rw [bind_eq_ok_iff] at hs
    obtain ⟨retryAfter, -, hs⟩ := hs
    cases hs
    exact ho.trans (upsertBlock_observes _ _ _)

end Reconciliation

end AiQuant.RateControl
