import AiQuant.Control.CommandRun

/-! The command routes of `create_control_app` (`control/api.py`), over the command store. -/
namespace AiQuant.Control
open AiQuant.Lib

inductive Role where
  | viewer | operatorLimited | operatorLocal
deriving DecidableEq

inductive Channel where
  | localCli | internalApi | system
deriving DecidableEq

structure SessionContext where
  principal : String
  role : Role
  channel : Channel

structure HttpException where
  status : ℕ
  detail : String

inductive Command where
  | pause
  | cancel (symbol : Option String)
  | prepare
  | confirm (challengeId positionsDigest confirmationPhrase : String)

/-- A body that its model accepted; a time without a zone is `none`. -/
structure CommandBody where
  actorId : String
  source : Channel
  reason : String
  requestedAt : Option ℤ
  expiresAt : Option ℤ
  nonce : String
  command : Command

/-- A request with the clock as `validate_context` reads it, the second time in `accept`. -/
structure HttpRequest where
  authorization : Option String
  idempotencyKey : Option String
  body : CommandBody
  now : ℤ
  later : ℤ

structure ControlState where
  runtimeState : String
  newEntriesAllowed : Bool
  positions : List (String × String)
  store : InMemoryCommandStore := .new

inductive HttpResponse where
  | receipt (record : CommandRecord)
  | prepared (challenge : FlattenChallenge) (summary : String)

structure ControlApp where
  sessions : String → Option SessionContext
  hashing : CommandHashing CommandBody
  /-- `positions_digest`: SHA-256 of the sorted JSON. -/
  digest : List (String × String) → String

/-- What an exception of the store that no route catches is answered with. -/
def serverError : HttpException := ⟨500, "Internal Server Error"⟩

/-- How `accept` answers for the store. -/
def StoreError.ofAccept : StoreError → HttpException
  | commandConflict reason => ⟨409, reason⟩
  | _ => serverError

/-- How `confirm` does. -/
def StoreError.ofConfirm : StoreError → HttpException
  | challenge reason => ⟨410, reason⟩
  | _ => serverError

def key (value : Option String) : Except HttpException String :=
  match value.filter fun key => 16 ≤ key.length ∧ key.length ≤ 128 with
  | none => .error ⟨422, "IDEMPOTENCY_KEY_REQUIRED"⟩
  | some key => .ok key

def validateContext (body : CommandBody) (session : SessionContext) (now : ℤ) :
    Except HttpException Unit :=
  if body.actorId ≠ session.principal ∨ body.source ≠ session.channel then
    .error ⟨403, "AUTH_CONTEXT_MISMATCH"⟩
  else match body.requestedAt, body.expiresAt with
    | some _, some expiresAt =>
      if expiresAt < now then .error ⟨410, "COMMAND_EXPIRED"⟩ else .ok ()
    | _, _ => .error ⟨422, "UTC_TIMESTAMPS_REQUIRED"⟩

namespace ControlApp

variable (app : ControlApp)

def authenticate (authorization : Option String) : Except HttpException SessionContext :=
  match authorization.bind fun header => "Bearer ".toList.isPrefixOf? header.toList with
  | none => .error ⟨401, "AUTHENTICATION_FAILED"⟩
  | some token =>
    match app.sessions (String.ofList token) with
    | none => .error ⟨401, "AUTHENTICATION_FAILED"⟩
    | some session => .ok session

def operator (authorization : Option String) : Except HttpException SessionContext :=
  match app.authenticate authorization with
  | .error exception => .error exception
  | .ok session =>
    if session.role = .viewer then .error ⟨403, "AUTHORIZATION_FAILED"⟩ else .ok session

variable (state : ControlState) (request : HttpRequest) (session : SessionContext)
  (idempotencyKey : String)

def accept (commandType : String) (now : ℤ) : Except HttpException HttpResponse × ControlState :=
  match validateContext request.body session now with
  | .error exception => (.error exception, state)
  | .ok () =>
    match state.store.accept app.hashing
        ⟨commandType, idempotencyKey, request.body.actorId, request.body, now⟩ with
    | (.error error, store) => (.error error.ofAccept, { state with store := store })
    | (.ok record, store) => (.ok (.receipt record), { state with store := store })

def pause : Except HttpException HttpResponse × ControlState :=
  match app.accept state request session idempotencyKey "PAUSE_NEW_ENTRIES" request.now with
  | (.error exception, after) => (.error exception, after)
  | (.ok response, after) => (.ok response,
      { after with runtimeState := "PAUSED_NEW_ENTRIES", newEntriesAllowed := false })

def cancel : Except HttpException HttpResponse × ControlState :=
  app.accept state request session idempotencyKey "CANCEL_OPEN_ORDERS" request.now

def prepare : Except HttpException HttpResponse × ControlState :=
  match validateContext request.body session request.now with
  | .error exception => (.error exception, state)
  | .ok () =>
    match state.store.prepareFlatten app.hashing
        ⟨request.body.actorId, app.digest state.positions, idempotencyKey⟩ request.now with
    | (.error _, store) => (.error serverError, { state with store := store })
    | (.ok challenge, store) =>
      (.ok (.prepared challenge
        ("Flatten " ++ toString state.positions.length ++ " position(s)")),
        { state with store := store })

def confirm (challengeId positionsDigest confirmationPhrase : String) :
    Except HttpException HttpResponse × ControlState :=
  match validateContext request.body session request.now with
  | .error exception => (.error exception, state)
  | .ok () =>
    match state.store.findIdempotent app.hashing "EMERGENCY_FLATTEN" idempotencyKey
        request.body with
    | .error error => (.error error.ofConfirm, state)
    | .ok (some existing) => (.ok (.receipt existing), state)
    | .ok none =>
      match state.store.consumeFlatten ⟨challengeId, request.body.actorId, positionsDigest,
          confirmationPhrase, request.now⟩ with
      | (.error error, store) => (.error error.ofConfirm, { state with store := store })
      | (.ok _, store) =>
        match app.accept { state with store := store } request session idempotencyKey
            "EMERGENCY_FLATTEN" request.later with
        | (.error exception, after) => (.error exception, after)
        | (.ok response, after) => (.ok response,
            { after with runtimeState := "EMERGENCY_FLATTENING", newEntriesAllowed := false })

/-- The dependencies are solved before the route runs. -/
def handle : Except HttpException HttpResponse × ControlState :=
  match app.operator request.authorization, key request.idempotencyKey with
  | .error exception, _ => (.error exception, state)
  | .ok _, .error exception => (.error exception, state)
  | .ok session, .ok idempotencyKey =>
    match request.body.command with
    | .pause => app.pause state request session idempotencyKey
    | .cancel _ => app.cancel state request session idempotencyKey
    | .prepare => app.prepare state request session idempotencyKey
    | .confirm challengeId positionsDigest confirmationPhrase =>
      app.confirm state request session idempotencyKey challengeId positionsDigest
        confirmationPhrase

end ControlApp

inductive ControlStep where
  | request (request : HttpRequest)
  /-- The process that owns the state has other positions now. -/
  | positions (positions : List (String × String))

def ControlApp.perform (app : ControlApp) (state : ControlState) : ControlStep → ControlState
  | .request request => (app.handle state request).2
  | .positions positions => { state with positions := positions }

def ControlApp.after (app : ControlApp) (initial : ControlState) (steps : List ControlStep) :
    ControlState :=
  steps.foldl app.perform initial

variable {app : ControlApp} {state : ControlState} {request : HttpRequest}
  {session : SessionContext}

/-- An operator asks in its own name, through its own channel and in time. -/
structure ControlApp.Authorized (app : ControlApp) (request : HttpRequest)
    (session : SessionContext) : Prop where
  known : ∃ token, request.authorization = some ("Bearer " ++ token) ∧
    app.sessions token = some session
  operator : session.role ≠ .viewer
  own : request.body.actorId = session.principal ∧ request.body.source = session.channel
  inTime : ∃ expiresAt, request.body.expiresAt = some expiresAt ∧ request.now ≤ expiresAt

theorem operator_ok {authorization : Option String}
    (ho : app.operator authorization = .ok session) : session.role ≠ .viewer ∧
      ∃ token, authorization = some ("Bearer " ++ token) ∧ app.sessions token = some session := by
  unfold ControlApp.operator ControlApp.authenticate at ho
  split at ho
  · cases ho
  rename_i found ha
  split_ifs at ho with hv
  obtain rfl := Except.ok.inj ho
  split at ha
  · cases ha
  rename_i token ht
  obtain ⟨header, rfl, hp⟩ := Option.bind_eq_some_iff.mp ht
  split at ha
  · cases ha
  rename_i known hk
  obtain rfl := Except.ok.inj ha
  refine ⟨hv, String.ofList token, congrArg some (String.toList_injective ?_), hk⟩
  rw [String.toList_append, String.toList_ofList]
  simpa using (List.append_eq_of_isPrefixOf?_eq_some hp).symm

theorem key_ok {value : Option String} {idempotencyKey : String}
    (hk : key value = .ok idempotencyKey) : value = some idempotencyKey := by
  unfold key at hk
  split at hk
  · cases hk
  · rename_i found hf
    obtain rfl := Except.ok.inj hk
    exact (Option.filter_eq_some_iff.mp hf).1

theorem validateContext_ok {body : CommandBody} {now : ℤ}
    (hv : validateContext body session now = .ok ()) :
    (body.actorId = session.principal ∧ body.source = session.channel) ∧
      ∃ expiresAt, body.expiresAt = some expiresAt ∧ now ≤ expiresAt := by
  unfold validateContext at hv
  split_ifs at hv with ho
  split at hv
  · rename_i expiresAt _ he
    split_ifs at hv with hl
    exact ⟨by simpa only [not_or, not_not] using ho, expiresAt, he, not_lt.mp hl⟩
  · cases hv

theorem accept_challenges {Payload : Type} (hashing : CommandHashing Payload)
    (store : InMemoryCommandStore) (request : CommandRequest Payload) :
    (store.accept hashing request).2.challenges = store.challenges := by
  unfold InMemoryCommandStore.accept
  split
  · rfl
  · split
    · split
      · rfl
      · split_ifs <;> rfl
    · rfl

theorem prepareFlatten_challenges {Payload : Type} (hashing : CommandHashing Payload)
    (store : InMemoryCommandStore) (identity : FlattenIdentity) (now : ℤ) :
    (store.prepareFlatten hashing identity now).2.challenges = store.challenges ∨
      store.challenges (hashing.head identity.text) = none ∧
        (store.prepareFlatten hashing identity now).2.challenges =
          Function.update store.challenges (hashing.head identity.text)
            (some (hashing.challenge identity now)) := by
  unfold InMemoryCommandStore.prepareFlatten
  split
  · exact .inl rfl
  · rename_i hf
    split_ifs
    · exact .inl rfl
    · exact .inr ⟨hf, rfl⟩

theorem consumeFlatten_cases (store : InMemoryCommandStore) (confirmation : FlattenConfirmation) :
    (∃ error, store.consumeFlatten confirmation = (.error error, store)) ∨
      ∃ held, store.challenges confirmation.challengeId = some held ∧ held.consumed = false ∧
        confirmation.now ≤ held.expiresAt ∧ held.actorId = confirmation.actorId ∧
        held.positionsDigest = confirmation.positionsDigest ∧
        held.confirmationPhrase = confirmation.confirmationPhrase ∧
        store.consumeFlatten confirmation = (.ok { held with consumed := true },
          store.setChallenge confirmation.challengeId { held with consumed := true }) := by
  unfold InMemoryCommandStore.consumeFlatten
  split
  · exact .inl ⟨_, rfl⟩
  · rename_i held hh
    split_ifs with hu hl ho
    · exact .inl ⟨_, rfl⟩
    · exact .inl ⟨_, rfl⟩
    · exact .inl ⟨_, rfl⟩
    · simp only [not_or, not_not] at ho
      exact .inr ⟨held, hh, Bool.eq_false_iff.mpr hu, not_lt.mp hl, ho.1, ho.2.1, ho.2.2, rfl⟩

/-- The part of the state that is neither the store nor the positions stays. -/
def Kept (state after : ControlState) : Prop :=
  after.runtimeState = state.runtimeState ∧ after.newEntriesAllowed = state.newEntriesAllowed

def Closed (after : ControlState) (runtimeState : String) : Prop :=
  after.runtimeState = runtimeState ∧ after.newEntriesAllowed = false

theorem accept_cases (app : ControlApp) (state : ControlState) (request : HttpRequest)
    (session : SessionContext) (idempotencyKey commandType : String) (now : ℤ) :
    let answer := app.accept state request session idempotencyKey commandType now
    Kept state answer.2 ∧ answer.2.store.challenges = state.store.challenges ∧
      ∀ resp, answer.1 = .ok resp → validateContext request.body session now = .ok () := by
  unfold ControlApp.accept
  split
  · exact ⟨⟨rfl, rfl⟩, rfl, fun _ ho => (by cases ho)⟩
  · rename_i hv
    have hc := accept_challenges app.hashing state.store
      ⟨commandType, idempotencyKey, request.body.actorId, request.body, now⟩
    split
    all_goals
      rename_i hs
      rw [hs] at hc
      exact ⟨⟨rfl, rfl⟩, hc, fun _ _ => hv⟩

/-- The request's confirmation is carried out: it is answered without an exception, and the
receipt is not that of a confirmation recorded before under its key. -/
def CarriedOut (app : ControlApp) (state : ControlState) (request : HttpRequest)
    (answer : Except HttpException HttpResponse) : Prop :=
  (∃ challengeId positionsDigest confirmationPhrase,
    request.body.command = .confirm challengeId positionsDigest confirmationPhrase) ∧
  (∃ idempotencyKey, request.idempotencyKey = some idempotencyKey ∧
    state.store.findIdempotent app.hashing "EMERGENCY_FLATTEN" idempotencyKey request.body =
      .ok none) ∧
  ∃ response, answer = .ok response

theorem not_carriedOut_error {exception : HttpException} :
    ¬ CarriedOut app state request (.error exception) := fun ⟨_, _, _, ho⟩ => nomatch ho

theorem not_carriedOut {answer : Except HttpException HttpResponse}
    (hr : ∀ challengeId positionsDigest confirmationPhrase,
      request.body.command ≠ .confirm challengeId positionsDigest confirmationPhrase) :
    ¬ CarriedOut app state request answer := fun ⟨⟨_, _, _, hc⟩, _⟩ => hr _ _ _ hc

/-- What a request can do to the state besides the commands that the store records. -/
inductive Effect (app : ControlApp) (state : ControlState) (request : HttpRequest)
    (answer : Except HttpException HttpResponse × ControlState) : Prop
  | kept (hn : ¬ CarriedOut app state request answer.1) (hk : Kept state answer.2)
      (hc : answer.2.store.challenges = state.store.challenges)
  | paused (session : SessionContext) (ha : app.Authorized request session)
      (hr : request.body.command = .pause) (hcl : Closed answer.2 "PAUSED_NEW_ENTRIES")
      (hc : answer.2.store.challenges = state.store.challenges)
  | prepared (session : SessionContext) (challenge : FlattenChallenge)
      (ha : app.Authorized request session) (hr : request.body.command = .prepare)
      (hk : Kept state answer.2)
      (hch : ∃ idempotencyKey, challenge = app.hashing.challenge
        ⟨session.principal, app.digest state.positions, idempotencyKey⟩ request.now)
      (hf : state.store.challenges challenge.challengeId = none)
      (hc : answer.2.store.challenges =
        Function.update state.store.challenges challenge.challengeId (some challenge))
  | confirmed (session : SessionContext) (challengeId : String) (held : FlattenChallenge)
      (ha : app.Authorized request session)
      (hr : request.body.command =
        .confirm challengeId held.positionsDigest held.confirmationPhrase)
      (hh : state.store.challenges challengeId = some held)
      (hu : held.consumed = false ∧ request.now ≤ held.expiresAt ∧
        held.actorId = session.principal)
      (hk : ¬ CarriedOut app state request answer.1 ∧ Kept state answer.2 ∨
        CarriedOut app state request answer.1 ∧ Closed answer.2 "EMERGENCY_FLATTENING")
      (hc : answer.2.store.challenges = Function.update state.store.challenges challengeId
        (some { held with consumed := true }))

/-- The routes of an operator, one by one. -/
theorem handle_effect (app : ControlApp) (state : ControlState) (request : HttpRequest) :
    Effect app state request (app.handle state request) := by
  unfold ControlApp.handle
  split
  · exact .kept not_carriedOut_error ⟨rfl, rfl⟩ rfl
  · exact .kept not_carriedOut_error ⟨rfl, rfl⟩ rfl
  rename_i session idempotencyKey ho hkey
  obtain ⟨hro, hkn⟩ := operator_ok ho
  have ha : validateContext request.body session request.now = .ok () →
      app.Authorized request session := fun hv =>
    ⟨hkn, hro, (validateContext_ok hv).1, (validateContext_ok hv).2⟩
  split
  · rename_i hr
    obtain ⟨hk, hc, hv⟩ := accept_cases app state request session idempotencyKey
      "PAUSE_NEW_ENTRIES" request.now
    unfold ControlApp.pause
    split
    · rename_i hs
      rw [hs] at hk hc
      exact .kept not_carriedOut_error hk hc
    · rename_i hs
      rw [hs] at hc hv
      exact .paused session (ha (hv _ rfl)) hr ⟨rfl, rfl⟩ hc
  · rename_i hr
    obtain ⟨hk, hc, -⟩ := accept_cases app state request session idempotencyKey
      "CANCEL_OPEN_ORDERS" request.now
    exact .kept (not_carriedOut fun _ _ _ hn => nomatch hr.symm.trans hn) hk hc
  · rename_i hr
    unfold ControlApp.prepare
    split
    · exact .kept not_carriedOut_error ⟨rfl, rfl⟩ rfl
    · rename_i hv
      have hau := ha hv
      rw [hau.own.1]
      have hp := prepareFlatten_challenges app.hashing state.store
        ⟨session.principal, app.digest state.positions, idempotencyKey⟩ request.now
      have hn {answer} : ¬ CarriedOut app state request answer :=
        not_carriedOut fun _ _ _ hn => nomatch hr.symm.trans hn
      split
      all_goals
        rename_i hs
        rw [hs] at hp
        rcases hp with hc | ⟨hf, hc⟩
        · exact .kept hn ⟨rfl, rfl⟩ hc
        · exact .prepared session _ hau hr ⟨rfl, rfl⟩ ⟨idempotencyKey, rfl⟩ hf hc
  · rename_i challengeId positionsDigest confirmationPhrase hr
    unfold ControlApp.confirm
    split
    · exact .kept not_carriedOut_error ⟨rfl, rfl⟩ rfl
    · rename_i hv
      have hau := ha hv
      split
      · exact .kept not_carriedOut_error ⟨rfl, rfl⟩ rfl
      · rename_i existing hi
        refine .kept ?_ ⟨rfl, rfl⟩ rfl
        -- the receipt is of an earlier confirmation
        rintro ⟨-, ⟨_, hsame, hnew⟩, -⟩
        obtain rfl := Option.some.inj ((key_ok hkey).symm.trans hsame)
        exact nomatch hi.symm.trans hnew
      · rename_i hi
        rcases consumeFlatten_cases state.store ⟨challengeId, request.body.actorId,
          positionsDigest, confirmationPhrase, request.now⟩ with
          ⟨error, hs⟩ | ⟨held, hh, hu, hn, hac, rfl, rfl, hs⟩
        · rw [hs]
          exact .kept not_carriedOut_error ⟨rfl, rfl⟩ rfl
        · rw [hs]
          dsimp only
          let used := state.store.setChallenge challengeId { held with consumed := true }
          obtain ⟨hk, hc, -⟩ := accept_cases app { state with store := used } request session
            idempotencyKey "EMERGENCY_FLATTEN" request.later
          have hown := And.intro hu (And.intro hn (hac.trans hau.own.1))
          split
          · rename_i ho
            rw [ho] at hk hc
            exact .confirmed session challengeId held hau hr hh hown
              (.inl ⟨not_carriedOut_error, hk⟩) hc
          · rename_i resp post ho
            rw [ho] at hc
            have hcarried : CarriedOut app state request (.ok resp) :=
              ⟨⟨_, _, _, hr⟩, ⟨idempotencyKey, key_ok hkey, hi⟩, resp, rfl⟩
            exact .confirmed session challengeId held hau hr hh hown (.inr ⟨hcarried, rfl, rfl⟩) hc

section Runs

variable {initial : ControlState} {steps : List ControlStep} {step : ControlStep}

@[simp] theorem after_concat :
    app.after initial (steps ++ [step]) = app.perform (app.after initial steps) step := by
  simp [ControlApp.after]

theorem perform_persists (app : ControlApp) (state : ControlState) (step : ControlStep) :
    Persists SameChallenge state.store.challenges (app.perform state step).store.challenges := by
  cases step with
  | positions positions => exact .refl _
  | request request =>
    dsimp only [ControlApp.perform]
    cases handle_effect app state request with
    | kept hn hk hc =>
      rw [hc]
      exact .refl _
    | paused session ha hr hcl hc =>
      rw [hc]
      exact .refl _
    | prepared session chal ha hr hk hch hf hc =>
      rw [hc]
      exact Persists.update fun old ho => absurd (hf.symm.trans ho).symm (Option.some_ne_none _)
    | confirmed session challengeId held ha hr hh hu hk hc =>
      rw [hc]
      refine Persists.update fun old ho => ?_
      obtain rfl := Option.some.inj (hh.symm.trans ho)
      exact ⟨rfl, fun _ => rfl⟩

theorem after_persists (app : ControlApp) (initial : ControlState) (pre more : List ControlStep) :
    Persists SameChallenge (app.after initial pre).store.challenges
      (app.after initial (pre ++ more)).store.challenges := by
  induction more using List.reverseRecOn with
  | nil =>
    rw [List.append_nil]
    exact .refl _
  | append_singleton more step ih =>
    rw [← List.append_assoc, after_concat]
    exact ih.trans (perform_persists app _ step)

/-- An operator prepared the challenge in the run, for the positions of that moment. -/
def PreparedBy (app : ControlApp) (initial : ControlState) (steps : List ControlStep)
    (principal : String) (challenge : FlattenChallenge) : Prop :=
  ∃ before request after session idempotencyKey, steps = before ++ .request request :: after ∧
    app.Authorized request session ∧ session.principal = principal ∧
    request.body.command = .prepare ∧ challenge = app.hashing.challenge
      ⟨principal, app.digest (app.after initial before).positions, idempotencyKey⟩ request.now

theorem PreparedBy.concat {principal : String} {chal : FlattenChallenge}
    (hp : PreparedBy app initial steps principal chal) :
    PreparedBy app initial (steps ++ [step]) principal chal := by
  obtain ⟨pre, request, post, session, idempotencyKey, rfl, hr⟩ := hp
  exact ⟨pre, request, post ++ [step], session, idempotencyKey, by simp, hr⟩

theorem held_prepared (hn : initial.store = .new) {challengeId : String} {held : FlattenChallenge}
    (hh : (app.after initial steps).store.challenges challengeId = some held) :
    held.challengeId = challengeId ∧ PreparedBy app initial steps held.actorId held.core := by
  induction steps using List.reverseRecOn generalizing challengeId held with
  | nil =>
    rw [ControlApp.after, List.foldl_nil, hn] at hh
    cases hh
  | append_singleton steps step ih =>
    have hkept : ∀ {challengeId held},
        (app.after initial steps).store.challenges challengeId = some held →
        held.challengeId = challengeId ∧
          PreparedBy app initial (steps ++ [step]) held.actorId held.core :=
      fun ho => ⟨(ih ho).1, (ih ho).2.concat⟩
    rw [after_concat] at hh
    cases step with
    | positions positions => exact hkept hh
    | request request =>
      dsimp only [ControlApp.perform] at hh
      cases handle_effect app (app.after initial steps) request with
      | kept hn hk hc => exact hkept (hc ▸ hh)
      | paused session ha hr hcl hc => exact hkept (hc ▸ hh)
      | prepared session chal ha hr hk hch hf hc =>
        rw [hc, Function.update_apply] at hh
        split_ifs at hh with hid
        · obtain rfl := Option.some.inj hh
          obtain ⟨idempotencyKey, rfl⟩ := hch
          exact ⟨hid.symm, steps, request, [], session, idempotencyKey, rfl, ha, rfl, hr, rfl⟩
        · exact hkept hh
      | confirmed session usedId used ha hr hused hu hk hc =>
        rw [hc, Function.update_apply] at hh
        split_ifs at hh with hid
        · obtain rfl := Option.some.inj hh
          exact ⟨(hkept hused).1.trans hid.symm, (hkept hused).2⟩
        · exact hkept hh

/-- No step allows new entries. -/
theorem perform_closed (app : ControlApp) {state : ControlState} (step : ControlStep)
    (hs : state.newEntriesAllowed = false) :
    (app.perform state step).newEntriesAllowed = false := by
  cases step with
  | positions positions => exact hs
  | request request =>
    dsimp only [ControlApp.perform]
    cases handle_effect app state request with
    | kept hn hk hc => exact hk.2.trans hs
    | paused session ha hr hcl hc => exact hcl.2
    | prepared session chal ha hr hk hch hf hc => exact hk.2.trans hs
    | confirmed session challengeId held ha hr hh hu hk hc =>
      exact hk.elim (fun hk => hk.2.2.trans hs) fun hcl => hcl.2.2

theorem after_closed (app : ControlApp) (initial : ControlState) (pre more : List ControlStep)
    (hs : (app.after initial pre).newEntriesAllowed = false) :
    (app.after initial (pre ++ more)).newEntriesAllowed = false := by
  induction more using List.reverseRecOn with
  | nil => simpa using hs
  | append_singleton more step ih =>
    rw [← List.append_assoc, after_concat]
    exact perform_closed app step ih

/-- After the steps, the request's confirmation is carried out. -/
def Flattens (app : ControlApp) (initial : ControlState) (steps : List ControlStep)
    (request : HttpRequest) : Prop :=
  CarriedOut app (app.after initial steps) request (app.handle (app.after initial steps) request).1

theorem Flattens.confirmed (hf : Flattens app initial steps request) :
    ∃ session challengeId held, app.Authorized request session ∧ request.body.command =
        .confirm challengeId held.positionsDigest held.confirmationPhrase ∧
      (app.after initial steps).store.challenges challengeId = some held ∧
      (held.consumed = false ∧ request.now ≤ held.expiresAt ∧
        held.actorId = session.principal) ∧
      (app.after initial (steps ++ [.request request])).store.challenges challengeId =
        some { held with consumed := true } ∧
      Closed (app.after initial (steps ++ [.request request])) "EMERGENCY_FLATTENING" := by
  rw [after_concat]
  dsimp only [ControlApp.perform]
  cases handle_effect app (app.after initial steps) request with
  | kept hn hk hc => exact absurd hf hn
  | paused session hau hr hcl hc =>
    exact absurd hf (not_carriedOut fun _ _ _ hn => nomatch hr.symm.trans hn)
  | prepared session chal hau hr hk hch hfresh hc =>
    exact absurd hf (not_carriedOut fun _ _ _ hn => nomatch hr.symm.trans hn)
  | confirmed session challengeId held hau hr hh hu hk hc =>
    have hcl := (hk.resolve_left fun hn => hn.1 hf).2
    exact ⟨session, challengeId, held, hau, hr, hh, hu, by rw [hc, Function.update_self], hcl⟩

/-- The body confirms the challenge. -/
def CommandBody.Confirms (body : CommandBody) (challengeId : String) : Prop :=
  ∃ positionsDigest confirmationPhrase,
    body.command = .confirm challengeId positionsDigest confirmationPhrase

theorem Flattens.once {pre mid : List ControlStep} {first second : HttpRequest}
    {challengeId : String} (hf : Flattens app initial pre first)
    (hs : Flattens app initial (pre ++ .request first :: mid) second)
    (hfirst : first.body.Confirms challengeId) : ¬ second.body.Confirms challengeId := by
  rintro ⟨_, _, hsecond⟩
  obtain ⟨_, _, hfirst⟩ := hfirst
  obtain ⟨_, firstId, held, -, hr, -, -, hused, -⟩ := hf.confirmed
  obtain ⟨_, secondId, later, -, hrl, hl, hu, -, -⟩ := hs.confirmed
  obtain rfl := (Command.confirm.inj (hfirst.symm.trans hr)).1
  obtain rfl := (Command.confirm.inj (hsecond.symm.trans hrl)).1
  have hp := after_persists app initial (pre ++ [.request first]) mid
  rw [List.append_assoc, List.singleton_append] at hp
  obtain ⟨kept, hk, -, hc⟩ := hp _ _ hused
  obtain rfl := Option.some.inj (hk.symm.trans hl)
  rw [hc rfl] at hu
  exact absurd hu.1 (by decide)

theorem runtimeState_changed (hn : (app.after initial (steps ++ [step])).runtimeState ≠
      (app.after initial steps).runtimeState) :
    ∃ request session, step = .request request ∧ app.Authorized request session ∧
      (request.body.command = .pause ∧
        Closed (app.after initial (steps ++ [step])) "PAUSED_NEW_ENTRIES" ∨
        Flattens app initial steps request) := by
  rw [after_concat] at hn ⊢
  cases step with
  | positions positions => exact absurd rfl hn
  | request request =>
    dsimp only [ControlApp.perform] at hn ⊢
    cases handle_effect app (app.after initial steps) request with
    | kept hc hk _ => exact absurd hk.1 hn
    | paused session ha hr hcl hc => exact ⟨request, session, rfl, ha, .inl ⟨hr, hcl⟩⟩
    | prepared session chal ha hr hk hch hf hc => exact absurd hk.1 hn
    | confirmed session challengeId held ha hr hh hu hk hc =>
      have hcl := hk.resolve_left fun hk => hn hk.2.1
      exact ⟨request, session, rfl, ha, .inr hcl.1⟩

end Runs

/-- The routes never open what is closed, and flatten only what an operator prepared. -/
structure ControlApiSafe (app : ControlApp) (initial : ControlState) : Prop where
  entries : ∀ steps more, (app.after initial steps).newEntriesAllowed = false →
    (app.after initial (steps ++ more)).newEntriesAllowed = false
  changed : ∀ steps step,
    (app.after initial (steps ++ [step])).runtimeState ≠
      (app.after initial steps).runtimeState →
    ∃ request session, step = .request request ∧ app.Authorized request session ∧
      (request.body.command = .pause ∧
        Closed (app.after initial (steps ++ [step])) "PAUSED_NEW_ENTRIES" ∨
        Flattens app initial steps request)
  flattened : ∀ steps request, Flattens app initial steps request →
    Closed (app.after initial (steps ++ [.request request])) "EMERGENCY_FLATTENING" ∧
    ∃ session challenge, app.Authorized request session ∧
      PreparedBy app initial steps session.principal challenge ∧ request.body.command =
        .confirm challenge.challengeId challenge.positionsDigest challenge.confirmationPhrase ∧
      request.now ≤ challenge.expiresAt
  once : ∀ before first middle second challengeId, Flattens app initial before first →
    Flattens app initial (before ++ .request first :: middle) second →
    first.body.Confirms challengeId → ¬ second.body.Confirms challengeId

theorem control_api_safe (app : ControlApp) (runtimeState : String) (newEntriesAllowed : Bool)
    (positions : List (String × String)) :
    ControlApiSafe app { runtimeState, newEntriesAllowed, positions } where
  entries := after_closed app _
  changed _ _ := runtimeState_changed
  flattened steps request hf := by
    obtain ⟨session, challengeId, held, ha, hr, hh, hu, -, hcl⟩ := hf.confirmed
    obtain ⟨rfl, hp⟩ := held_prepared rfl hh
    exact ⟨hcl, session, held.core, ha, hu.2.2 ▸ hp, hr, hu.2.1⟩
  once _ _ _ _ _ := Flattens.once

/-- Identities are their own digests, behind a mark. -/
def plainHashing : CommandHashing CommandBody where
  head := ("#" ++ ·)
  tail := id
  code _ := "CODE"
  payloadHash body := some body.nonce
  head_injective _ _ := (String.append_right_inj _).mp
  head_ne_empty text he := by simpa using congrArg String.toList he

def plainApp : ControlApp where
  sessions token :=
    if token = "secret" then some ⟨"operator-1", .operatorLocal, .localCli⟩ else none
  hashing := plainHashing
  digest _ := "digest"

def asked (idempotencyKey : String) (command : Command) : HttpRequest where
  authorization := some "Bearer secret"
  idempotencyKey := some idempotencyKey
  body := ⟨"operator-1", .localCli, "drill", some 0, some 9, "nonce", command⟩
  now := 5
  later := 6

/-- Two challenges are prepared and confirmed; the second finds the state flattening already. -/
theorem control_api_safe_flatten :
    Flattens plainApp ⟨"RISK_LOCKED", false, [], .new⟩
        [.request (asked "flatten-prepare-01" .prepare)] (asked "flatten-confirm-1" (.confirm
          "#flatten|operator-1|digest|flatten-prepare-01" "digest" "FLATTEN-CODE")) ∧
      Flattens plainApp ⟨"RISK_LOCKED", false, [], .new⟩
        [.request (asked "flatten-prepare-01" .prepare),
          .request (asked "flatten-confirm-1" (.confirm
            "#flatten|operator-1|digest|flatten-prepare-01" "digest" "FLATTEN-CODE")),
          .request (asked "flatten-prepare-02" .prepare)]
        (asked "flatten-confirm-2" (.confirm
          "#flatten|operator-1|digest|flatten-prepare-02" "digest" "FLATTEN-CODE")) ∧
      ControlApiSafe plainApp ⟨"RISK_LOCKED", false, [], .new⟩ :=
  ⟨⟨⟨_, _, _, rfl⟩, ⟨_, rfl, rfl⟩, _, rfl⟩, ⟨⟨_, _, _, rfl⟩, ⟨_, rfl, rfl⟩, _, rfl⟩,
    control_api_safe plainApp "RISK_LOCKED" false []⟩

end AiQuant.Control
