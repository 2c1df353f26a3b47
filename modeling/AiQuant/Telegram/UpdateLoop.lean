import AiQuant.Telegram.Effects

/-! The update loop of the bot (`services/copy_telegram_bot.py`).  An update that `handle` rejects
is recorded all the same; a `TelegramStateError` is the database being away, and the loop waits
and asks for the updates that it has not recorded yet. -/
namespace AiQuant.Telegram
open AiQuant.Lib Attempt
open AiQuant.UserStream (Json Fields get)

def identity (update : Fields) : Option ℤ × Option ℤ :=
  let query := objectOf? (get update "callback_query")
  let message := match objectOf? (get update "message") with
    | some message => some message
    | none => query.bind fun query => objectOf? (get query "message")
  let sender := match objectOf? (get update "message") with
    | some message => objectOf? (get message "from")
    | none => query.bind fun query => objectOf? (get query "from")
  let chat := message.bind fun message => objectOf? (get message "chat")
  (chat.bind fun chat => intOf? (get chat "id"), sender.bind fun sender => intOf? (get sender "id"))

def updateId? (update : Fields) : Option ℤ :=
  intOf? (get update "update_id")

namespace Router

variable (router : Router)

def isAuthorizedIdentity (chatId userId : Option ℤ) : Bool :=
  chatId.any (· ∈ router.allowedChatIds) && userId.any router.isAuthorized

def updateRow (updateId : ℤ) (update : Fields) : Call :=
  .storeUpdate updateId (identity update).1 (identity update).2
    (router.isAuthorizedIdentity (identity update).1 (identity update).2)

def recordUpdate (update : Fields) : Bot Unit :=
  match updateId? update with
  | none => .raise (valueError "Telegram update ID is invalid")
  | some updateId =>
    if updateId < 0 then .raise (valueError "Telegram update ID is invalid")
    else
      let (chatId, userId) := identity update
      ask (.storeUpdate updateId chatId userId (router.isAuthorizedIdentity chatId userId))

def processUpdate (update : Fields) : Bot Unit := do
  .handling (fun error => error.isBotError || error.isValueError) (router.handle update)
    (fun _ => pure ()) pure
  router.recordUpdate update

/-- The offset at the end of the loop over the updates, and what ended it early. -/
structure Pass where
  offset : ℤ
  raised : Option Raised
deriving DecidableEq

def processUpdates (offset : ℤ) :
    List Fields → Proc (List Call) Call (fun call => Except Raised call.Reply) Pass
  | [] => .done ⟨offset, none⟩
  | update :: updates =>
    match updateId? update with
    | none => processUpdates offset updates
    | some updateId => Proc.bind (router.processUpdate update) fun outcome =>
      match outcome with
      | .ok _ => processUpdates (max offset (updateId + 1)) updates
      | .error error => .done ⟨offset, some error⟩

end Router

inductive LoopStep where
  /-- The next round. -/
  | proceeds (offset : ℤ)
  /-- The next round, after a pause. -/
  | waits (offset : ℤ)
  /-- The process ends. -/
  | stops (error : Raised)

/-- `except TelegramStateError` -/
def Router.Pass.next (pass : Router.Pass) : LoopStep :=
  match pass.raised with
  | none => .proceeds pass.offset
  | some error => if error.kind = .telegramStateError then .waits pass.offset else .stops error

/-- The client only raises `TelegramBotError`, the database of the loop `TelegramStateError`, and
every other component one of `ValueError` and `TelegramStateError`. -/
def Expected (call : Call) (reply : Except Raised call.Reply) : Prop :=
  ∀ error, reply = .error error →
    match call with
    | .answerCallback .. | .sendMessage .. | .editMessage .. => error.isBotError
    | .storeUpdate .. => error.kind = .telegramStateError
    | _ => error.isValueError ∨ error.kind = .telegramStateError

/-- A world of such components; its state is the calls that were made. -/
def Observed (before : List Call) (call : Call) (reply : Except Raised call.Reply)
    (after : List Call) : Prop :=
  Expected call reply ∧ after = before ++ [call]

/-- The exceptions that the loop knows. -/
def Reported (error : Raised) : Prop :=
  error.isBotError ∨ error.isValueError ∨ error.kind = .telegramStateError

def reportedRules : Rules Call Call.Reply Raised where
  asks _ := True
  answers := Expected
  raises := Reported
  passes call error hreply := by
    have hexpected := hreply error rfl
    unfold Reported
    cases call <;> first | exact .inl hexpected | exact .inr hexpected | exact .inr (.inr hexpected)

def Router.isBlankMessage (router : Router) (update : Fields) : Bool :=
  (parseUpdate update).any fun parsed =>
    parsed.kind = .message && parsed.chatId ∈ router.allowedChatIds && isBlank parsed.value

section Loop

variable {router : Router} {update : Fields} {calls : List Call}

theorem handle_obeys (hb : ¬ router.isBlankMessage update) :
    Obeys reportedRules (router.handle update) := by
  unfold Router.handle
  split
  · exact obeys_pure
  · next parsed hp =>
    refine handleParsed_obeys ⟨fun _ _ => trivial, fun _ _ _ => trivial, ?_⟩ ?_
    · intro error hk
      exact .inr (.inl (by simpa [Raised.isValueError] using hk))
    · intro hk hc hv
      exact absurd (by simp [Router.isBlankMessage, hp, hk, hc, hv]) hb

theorem handle_ends (hbl : ¬ router.isBlankMessage update) :
    (router.handle update).Ends Observed (fun outcome post => calls <+: post ∧
      ∀ error, outcome = .error error → Reported error) calls := by
  refine (handle_obeys hbl).ends (calls <+: ·) (fun _ _ _ _ ho => ho.1) ?_ List.prefix_rfl
  rintro pre call reply post hb - ⟨-, rfl⟩
  exact hb.trans (List.prefix_append _ _)

/-- An update that the loop is meant for: it has a word or is no message, and its id is no
negative number. -/
structure Router.Plain (router : Router) (update : Fields) : Prop where
  worded : ¬ router.isBlankMessage update
  counted : ∀ updateId, updateId? update = some updateId → 0 ≤ updateId

/-- The end of the body of the loop: `record_update` was reached, or the database is away. -/
def Router.Processed (router : Router) (update : Fields) (updateId : ℤ) (calls : List Call)
    (outcome : Except Raised Unit) (after : List Call) : Prop :=
  calls <+: after ∧ (∀ error, outcome = .error error → error.kind = .telegramStateError) ∧
    (outcome = .ok () → router.updateRow updateId update ∈ after)

theorem recordUpdate_ends {updateId : ℤ} {reached : List Call} (hp : router.Plain update)
    (hid : updateId? update = some updateId) (hg : calls <+: reached) :
    (router.recordUpdate update).Ends Observed (router.Processed update updateId calls)
      reached := by
  have hc : ¬ updateId < 0 := not_lt.mpr (hp.counted updateId hid)
  have hr : router.recordUpdate update = ask (router.updateRow updateId update) := by
    simp only [Router.recordUpdate, hid, if_neg hc]
    rfl
  rw [hr]
  rintro reply post ⟨he, rfl⟩
  refine ⟨hg.trans (List.prefix_append _ _), he, fun _ => ?_⟩
  exact List.mem_append_right _ List.mem_cons_self

theorem processUpdate_ends {updateId : ℤ} (hp : router.Plain update)
    (hid : updateId? update = some updateId) :
    (router.processUpdate update).Ends Observed (router.Processed update updateId calls)
      calls := by
  unfold Router.processUpdate
  rw [Attempt.ends_bind, ends_handling]
  refine (handle_ends hp.worded).mono ?_
  rintro outcome reached ⟨hg, hr⟩
  cases outcome with
  | ok _ => exact recordUpdate_ends hp hid hg
  | error error =>
    by_cases hk : (error.isBotError || error.isValueError) = true
    · dsimp only
      rw [if_pos hk]
      exact recordUpdate_ends hp hid hg
    · dsimp only
      rw [if_neg hk]
      rw [Bool.or_eq_true, not_or] at hk
      rcases hr error rfl with hb | hv | hs
      · exact absurd hb hk.1
      · exact absurd hv hk.2
      · refine ⟨hg, ?_, by rintro ⟨⟩⟩
        rintro _ ⟨⟩
        exact hs

def offsetAfter (offset : ℤ) (updates : List Fields) : ℤ :=
  (updates.filterMap updateId?).foldl (fun offset updateId => max offset (updateId + 1)) offset

theorem le_offsetAfter {offset : ℤ} {updates : List Fields} :
    offset ≤ offsetAfter offset updates := by
  unfold offsetAfter
  induction updates.filterMap updateId? generalizing offset with
  | nil => exact le_refl offset
  | cons updateId updateIds ih => exact (le_max_left _ _).trans ih

theorem lt_offsetAfter {offset updateId : ℤ} {updates : List Fields} (hu : update ∈ updates)
    (hid : updateId? update = some updateId) : updateId < offsetAfter offset updates := by
  obtain ⟨pre, later, rfl⟩ := List.append_of_mem hu
  have hs : offsetAfter offset (pre ++ update :: later) =
      offsetAfter (max (offsetAfter offset pre) (updateId + 1)) later := by
    simp [offsetAfter, hid]
  rw [hs]
  exact (Int.lt_add_one_iff.mpr (le_refl updateId)).trans_le
    ((le_max_right _ _).trans le_offsetAfter)

/-- The first updates were handled to the end, the others not at all or only in part. -/
structure Router.Continues (router : Router) (offset : ℤ) (handled rest : List Fields)
    (pass : Router.Pass) (calls : List Call) : Prop where
  offset : pass.offset = offsetAfter offset handled
  recorded : ∀ update ∈ handled, ∀ updateId, updateId? update = some updateId →
    router.updateRow updateId update ∈ calls
  next : pass.next = if rest = [] then .proceeds pass.offset else .waits pass.offset

theorem processUpdates_ends {offset : ℤ} {updates : List Fields}
    (hp : ∀ update ∈ updates, router.Plain update) :
    Proc.Ends Observed (router.processUpdates offset updates) (fun pass post => calls <+: post ∧
      ∃ handled rest, updates = handled ++ rest ∧ router.Continues offset handled rest pass post)
      calls := by
  induction updates generalizing offset calls with
  | nil => exact ⟨List.prefix_rfl, [], [], rfl, rfl, by simp, rfl⟩
  | cons update updates ih =>
    obtain ⟨hup, hu⟩ := List.forall_mem_cons.mp hp
    unfold Router.processUpdates
    split
    · next hid =>
      refine (ih hu).mono ?_
      rintro pass post ⟨hg, handled, rest, rfl, ho, hr, hn⟩
      refine ⟨hg, update :: handled, rest, rfl, ?_, ?_, hn⟩
      · rw [ho]
        simp [offsetAfter, hid]
      · rw [List.forall_mem_cons]
        refine ⟨?_, hr⟩
        rw [hid]
        rintro _ ⟨⟩
    · next updateId hid =>
      refine Proc.ends_bind.mpr ((processUpdate_ends hup hid).mono ?_)
      rintro outcome reached ⟨hg, hs, hrow⟩
      cases outcome with
      | error error =>
        refine ⟨hg, [], update :: updates, rfl, rfl, by simp, ?_⟩
        simp [Router.Pass.next, hs error rfl]
      | ok value =>
        refine (ih hu).mono ?_
        rintro pass post ⟨hl, handled, rest, rfl, ho, hr, hn⟩
        refine ⟨hg.trans hl, update :: handled, rest, rfl, ?_, ?_, hn⟩
        · rw [ho]
          simp [offsetAfter, hid]
        · rw [List.forall_mem_cons]
          refine ⟨?_, hr⟩
          rw [hid]
          rintro _ ⟨⟩
          exact hl.subset (hrow rfl)

/-- Plain updates never stop the loop.  `handle` returns or raises what the loop knows; the loop
records the updates and moves its offset past them up to the first one that meets a
`TelegramStateError`, and fetches from there again after a pause. -/
theorem plain_updates_never_stop {updates : List Fields} {offset : ℤ}
    (hplain : ∀ update ∈ updates, router.Plain update) :
    (∀ update ∈ updates, (router.handle update).Ends Observed
      (fun outcome _ => ∀ error, outcome = .error error → Reported error) calls) ∧
    (router.processUpdates offset updates).Ends Observed (fun pass post =>
      ∃ handled rest, updates = handled ++ rest ∧ router.Continues offset handled rest pass post ∧
        ∀ update ∈ handled, ∀ updateId, updateId? update = some updateId →
          updateId < pass.offset) calls := by
  refine ⟨fun update hu => ?_, (processUpdates_ends hplain).mono ?_⟩
  · exact (handle_ends (hplain update hu).worded).mono fun _ _ he => he.2
  · rintro pass post ⟨_, handled, rest, hup, hc⟩
    refine ⟨handled, rest, hup, hc, fun update hu updateId hid => ?_⟩
    rw [hc.offset]
    exact lt_offsetAfter hu hid

end Loop

def sampleAnswer : (call : Call) → Except Raised call.Reply
  | .answerCallback .. | .sendMessage .. | .editMessage .. | .storeUpdate .. => .ok ()
  | _ => .error ⟨.telegramStateError, "TelegramStateError", "TELEGRAM_DASHBOARD_READ_FAILED"⟩

def sampleWorld (before : List Call) (call : Call) : Except Raised call.Reply × List Call :=
  (sampleAnswer call, before ++ [call])

theorem observed_sampleWorld (pre : List Call) (call : Call) :
    Observed pre call (sampleWorld pre call).1 (sampleWorld pre call).2 := by
  refine ⟨fun error he => ?_, rfl⟩
  cases call <;> cases he <;> exact .inr rfl

theorem margin_question_recorded :
    (sampleRouter.processUpdates 90 [sampleMessage 90 "/margin_limit"]).Ends Observed
      (fun pass post => ∃ handled rest, [sampleMessage 90 "/margin_limit"] = handled ++ rest ∧
        sampleRouter.Continues 90 handled rest pass post ∧
        ∀ update ∈ handled, ∀ updateId, updateId? update = some updateId →
          updateId < pass.offset) [] := by
  have hp : ∀ update ∈ [sampleMessage 90 "/margin_limit"], sampleRouter.Plain update := by
    rw [List.forall_mem_singleton]
    refine ⟨by decide, ?_⟩
    rintro updateId ⟨⟩
    decide
  exact (plain_updates_never_stop hp).2

/-- A refresh of the overview while the database is away is not recorded, and neither is a message
of nothing but a space, on which the process ends. -/
theorem update_not_recorded :
    (¬ ∀ (router : Router) (update : Fields) (updateId offset : ℤ) (calls : List Call),
      updateId? update = some updateId →
      (router.processUpdates offset [update]).Ends Observed (fun pass post =>
        pass.raised = none ∧ router.updateRow updateId update ∈ post ∧ updateId < pass.offset)
          calls) ∧
    (sampleRouter.processUpdates 90 [sampleMessage 90 " "]).run sampleWorld [] =
      (some ⟨90, some indexError⟩, []) := by
  refine ⟨fun hc => ?_, by decide⟩
  have hrun : ((sampleRouter.processUpdates 90 [sampleQuery 90 "view:status"]).run sampleWorld
      []).1.map (fun pass => pass.raised.isSome) = some true := by
    decide
  obtain ⟨pass, hp, hr, _⟩ := (hc sampleRouter (sampleQuery 90 "view:status") 90 90 []
    rfl).run observed_sampleWorld
  rw [hp] at hrun
  simp [hr] at hrun

end AiQuant.Telegram
