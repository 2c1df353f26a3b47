import AiQuant.Telegram.Callbacks
import Mathlib.Data.List.TakeWhile

/-! Who may make the bot act.  The router checks the sender in six places and dispatches by other
texts than it checks; every branch is judged by the rules of `Lib.Attempt`, and the chain as a
whole keeps every effect behind a check. -/
namespace AiQuant.Telegram
open AiQuant.Lib Attempt
open AiQuant.UserStream (Json Fields get)
open AiQuant.CopyTrading (LeaderSlot ControlAction)

namespace Call

def isEffectful : Call → Bool
  | create .. | executeConfirmed .. | createLeaderChange .. | executeLeaderChangeConfirmed .. |
    createExternalLeaderChange .. | createFollowMultiplierChange .. |
    executeFollowMultiplierConfirmed .. | createLeaderLockChange .. |
    executeLeaderLockConfirmed .. | createPositionClose .. | executePositionCloseConfirmed .. |
    createLeaderPositionsClose .. | executeLeaderPositionsCloseConfirmed .. |
    createEntryMarginLimitChange .. | executeEntryMarginLimitConfirmed .. | auditTrigger => true
  | _ => false

/-- The `user_id` of a call; the audit trigger has no arguments. -/
def user? : Call → Option ℤ
  | create userId _ | executeConfirmed userId _ | createLeaderChange userId _ _ |
    executeLeaderChangeConfirmed userId _ | createExternalLeaderChange userId _ _ |
    createFollowMultiplierChange userId _ _ | executeFollowMultiplierConfirmed userId _ |
    createLeaderLockChange userId _ _ | executeLeaderLockConfirmed userId _ |
    createPositionClose userId _ _ _ | executePositionCloseConfirmed userId _ |
    createLeaderPositionsClose userId _ | executeLeaderPositionsCloseConfirmed userId _ |
    createEntryMarginLimitChange userId _ | executeEntryMarginLimitConfirmed userId _ => some userId
  | _ => none

def actsFor (call : Call) (userId : ℤ) : Prop :=
  call = .auditTrigger ∨ call.user? = some userId

end Call

structure Grants (rules : Rules Call Call.Reply Raised) (authorized : Prop) (userId : ℤ) :
    Prop where
  quiet : ∀ call : Call, call.isEffectful = false → rules.asks call
  effects : authorized → ∀ call : Call, call.actsFor userId → rules.asks call
  valueErrors : ∀ error, error.kind = .valueError → rules.raises error

/-- A computation that only raises `ValueError`. -/
def OnlyValueErrors {α : Type} (outcome : Except Raised α) : Prop :=
  ∀ error, outcome = .error error → error.kind = .valueError

section ValueErrors

variable {α β : Type}

theorem onlyValueErrors_ok {value : α} : OnlyValueErrors (.ok value) := by
  rintro error ⟨⟩

theorem onlyValueErrors_error {msg : String} :
    OnlyValueErrors (.error (valueError msg) : Except Raised α) := by
  rintro error ⟨⟩
  rfl

theorem onlyValueErrors_bind {outcome : Except Raised α} {rest : α → Except Raised β}
    (hf : OnlyValueErrors outcome) (hr : ∀ value, OnlyValueErrors (rest value)) :
    OnlyValueErrors (outcome >>= rest) := by
  intro error he
  rcases bind_eq_error_iff.mp he with he | ⟨value, _, he⟩
  · exact hf error he
  · exact hr value error he

theorem onlyValueErrors_ite {condition : Prop} [Decidable condition]
    {first second : Except Raised α} (hf : OnlyValueErrors first) (hs : OnlyValueErrors second) :
    OnlyValueErrors (if condition then first else second) := by
  split
  · exact hf
  · exact hs

theorem leaderSlotFromCallback_errors {value : String} :
    OnlyValueErrors (leaderSlotFromCallback value) := by
  unfold leaderSlotFromCallback
  split
  · exact onlyValueErrors_ok
  · exact onlyValueErrors_error

theorem controlAction_errors {value : String} : OnlyValueErrors (controlAction value) := by
  unfold controlAction
  split
  · exact onlyValueErrors_ok
  · exact onlyValueErrors_error

variable {text : String}

theorem intOfText_errors : OnlyValueErrors (intOfText text) := by
  unfold intOfText
  dsimp only
  split
  · exact onlyValueErrors_ok
  · exact onlyValueErrors_error

theorem normalizeEntryMarginLimit_errors {raw : String} :
    OnlyValueErrors (normalizeEntryMarginLimit raw) := by
  unfold normalizeEntryMarginLimit
  refine onlyValueErrors_ite onlyValueErrors_error ?_
  split
  · exact onlyValueErrors_error
  · exact onlyValueErrors_ite onlyValueErrors_ok onlyValueErrors_error

theorem messageEntryMarginLimit_errors : OnlyValueErrors (messageEntryMarginLimit text) := by
  unfold messageEntryMarginLimit
  split
  · exact onlyValueErrors_ok
  refine onlyValueErrors_ite onlyValueErrors_ok ?_
  split
  · exact onlyValueErrors_bind normalizeEntryMarginLimit_errors fun _ => onlyValueErrors_ok
  · exact onlyValueErrors_error

theorem messageLeaderCommand_errors : OnlyValueErrors (messageLeaderCommand text) := by
  unfold messageLeaderCommand
  split
  · exact onlyValueErrors_ok
  refine onlyValueErrors_ite onlyValueErrors_ok ?_
  split
  swap
  · exact onlyValueErrors_error
  refine onlyValueErrors_bind leaderSlotFromCallback_errors fun slot => ?_
  refine onlyValueErrors_ite onlyValueErrors_error ?_
  split
  · exact onlyValueErrors_error
  · exact onlyValueErrors_ok
  · exact onlyValueErrors_ok
  · exact onlyValueErrors_ite onlyValueErrors_error onlyValueErrors_ok

theorem notificationContextMarkup_errors {rows : InlineKeyboard} {token : String}
    {includeReturn : Bool} : OnlyValueErrors (notificationContextMarkup rows token includeReturn) :=
  onlyValueErrors_ite onlyValueErrors_error onlyValueErrors_ok

theorem notificationInlineKeyboard_errors {view messageId : String} :
    OnlyValueErrors (notificationInlineKeyboard view messageId) :=
  onlyValueErrors_ite onlyValueErrors_error notificationContextMarkup_errors

theorem positionCloseKeyboard_errors {choices : List PositionCloseChoice} {leaderId : String}
    {page : ℕ} {ha : Bool} : OnlyValueErrors (positionCloseKeyboard choices leaderId page ha) :=
  onlyValueErrors_ite onlyValueErrors_error onlyValueErrors_ok

theorem leaderPnlKeyboard_errors {leaderId : String} :
    OnlyValueErrors (leaderPnlKeyboard leaderId) :=
  onlyValueErrors_ite onlyValueErrors_error onlyValueErrors_ok

theorem multiplierValueKeyboard_errors {choice : LeaderMultiplierChoice} :
    OnlyValueErrors (multiplierValueKeyboard choice) :=
  onlyValueErrors_ite onlyValueErrors_error onlyValueErrors_ok

theorem entryMarginLimitKeyboard_errors {current : String} :
    OnlyValueErrors (entryMarginLimitKeyboard current) :=
  onlyValueErrors_bind normalizeEntryMarginLimit_errors fun _ => onlyValueErrors_ok

end ValueErrors

section Branches

variable {rules : Rules Call Call.Reply Raised} {router : Router} {callback : Callback}
  {authorized : Prop} {chatId userId : ℤ}

theorem Grants.computes {α : Type} {outcome : Except Raised α}
    (hgr : Grants rules authorized userId) (he : OnlyValueErrors outcome) :
    Obeys rules (ofExcept outcome : Bot α) :=
  obeys_ofExcept fun error her => hgr.valueErrors error (he error her)

theorem Grants.asks {call : Call} (hgr : Grants rules authorized userId)
    (hq : call.isEffectful = false) : Obeys rules (ask call) :=
  obeys_ask (hgr.quiet call hq)

theorem Grants.acts {call : Call} (hgr : Grants rules authorized userId)
    (hauthorized : authorized) (hu : call.user? = some userId) : Obeys rules (ask call) :=
  obeys_ask (hgr.effects hauthorized call (.inr hu))

variable {text : String}

section

variable (hgr : Grants rules authorized userId)
include hgr

theorem send_obeys {markup : Option Markup} : Obeys rules (send chatId text markup) :=
  hgr.asks rfl

theorem answerCallback_obeys {callbackId : String} : Obeys rules (answerCallback callbackId text) :=
  obeys_handling (hgr.asks rfl) (fun _ => obeys_pure) fun _ => obeys_pure

theorem answer_obeys : Obeys rules (callback.answer text) :=
  answerCallback_obeys hgr

theorem inContext_obeys {token : Option String} {markup : InlineKeyboard} :
    Obeys rules (inContext token markup) := by
  cases token with
  | none => exact obeys_pure
  | some token => exact hgr.computes notificationContextMarkup_errors

theorem editText_obeys {token : Option String} {messageId : ℤ}
    {markup : InlineKeyboard} : Obeys rules (editText token chatId messageId text markup) := by
  refine obeys_bind (inContext_obeys hgr) fun shown => ?_
  refine obeys_handling ?_ (fun error => ?_) fun _ => obeys_pure
  · exact hgr.asks rfl
  · exact obeys_ite (fun _ => obeys_pure) fun _ => send_obeys hgr

theorem display_obeys {content : Bot (String × InlineKeyboard)} (hc : Obeys rules content) :
    Obeys rules (callback.display content) := by
  unfold Callback.display
  split
  · exact obeys_pure
  · exact obeys_bind hc fun _ => editText_obeys hgr

end

theorem content_obeys {text : Bot String} {markup : Bot InlineKeyboard} (ht : Obeys rules text)
    (hm : Obeys rules markup) : Obeys rules (do
      let text ← text
      let markup ← markup
      return (text, markup)) :=
  obeys_bind ht fun _ => obeys_bind hm fun _ => obeys_pure

section

variable (hgr : Grants rules authorized userId)
include hgr

theorem proposed_obeys {create : Bot Proposal} {failure : String} {confirm : Proposal → Bot Unit}
    (hcr : Obeys rules create) (hc : ∀ proposal, Obeys rules (confirm proposal)) :
    Obeys rules (callback.proposed create failure confirm) :=
  obeys_handling hcr (fun _ => answer_obeys hgr) fun proposal =>
    obeys_bind (answer_obeys hgr) fun _ => hc proposal

theorem confirmed_obeys {execute : Bot (Option String)} {done : String}
    {markup : Bot InlineKeyboard} (he : Obeys rules execute) (hm : Obeys rules markup) :
    Obeys rules (callback.confirmed execute done markup) := by
  refine obeys_bind he fun result => ?_
  split
  · exact answer_obeys hgr
  · exact obeys_bind (answer_obeys hgr) fun _ =>
      display_obeys hgr (obeys_bind hm fun _ => obeys_pure)

theorem viewMarkup_obeys {view : String} : Obeys rules (router.viewMarkup view) := by
  unfold Router.viewMarkup
  dsimp only
  refine obeys_ite (fun _ => ?_) fun _ => obeys_ite (fun _ => ?_) fun _ => obeys_pure
  · exact obeys_bind (hgr.asks rfl) fun _ => obeys_pure
  · split
    · exact obeys_bind (hgr.asks rfl) fun _ => obeys_pure
    · exact obeys_bind (hgr.asks rfl) fun _ => hgr.computes positionCloseKeyboard_errors

theorem requestConfirmation_obeys {action : ControlAction} (hauthorized : authorized) :
    Obeys rules (requestConfirmation chatId userId action) :=
  obeys_bind (hgr.acts hauthorized rfl) fun _ =>
    obeys_ite (fun _ => send_obeys hgr) fun _ => send_obeys hgr

end

end Branches

section Messages

variable {rules : Rules Call Call.Reply Raised} {router : Router} {chatId userId : ℤ}

section

variable (hgr : Grants rules (router.isAuthorized userId) userId)
include hgr

theorem marginCommand_obeys {limit : ℕ} :
    Obeys rules (router.marginCommand chatId userId limit) := by
  unfold Router.marginCommand
  refine obeys_ite (fun _ => send_obeys hgr) fun hauthorized => ?_
  refine obeys_ite (fun _ => send_obeys hgr) fun _ => ?_
  refine obeys_handling ?_ (fun _ => send_obeys hgr) fun _ => send_obeys hgr
  exact hgr.acts (by simpa using hauthorized) rfl

theorem leaderRequest_obeys {operation : LeaderOperation} {slot : LeaderSlot} {qry : String}
    (hauthorized : router.isAuthorized userId) :
    Obeys rules (Router.leaderRequest chatId userId operation slot qry) := by
  cases operation with
  | set =>
    refine obeys_bind (hgr.acts hauthorized rfl) fun proposal => ?_
    exact obeys_bind (send_obeys hgr) fun _ => obeys_pure
  | find => exact obeys_bind (hgr.asks rfl) fun _ => obeys_pure

theorem leaderCommand_obeys {operation : LeaderOperation} {slot : LeaderSlot} {qry : String} :
    Obeys rules (router.leaderCommand chatId userId operation slot qry) := by
  unfold Router.leaderCommand
  refine obeys_ite (fun _ => send_obeys hgr) fun hauthorized => ?_
  refine obeys_ite (fun _ => send_obeys hgr) fun _ => ?_
  refine obeys_handling (leaderRequest_obeys hgr (by simpa using hauthorized))
    (fun _ => send_obeys hgr) fun found => ?_
  split
  · exact obeys_pure
  · exact send_obeys hgr

end

def isBlank (text : String) : Bool :=
  text.toList.all isSpace

variable {text : String}

theorem splitUpTo_of_not_isBlank {splits : ℕ} (hb : ¬ isBlank text) :
    ∃ word rest, splitUpTo splits text = word :: rest := by
  have hr : text.toList.dropWhile isSpace ≠ [] := by
    intro hn
    rw [List.dropWhile_eq_nil_iff] at hn
    exact hb (List.all_eq_true.mpr hn)
  obtain ⟨first, rest, hf⟩ := List.exists_cons_of_ne_nil hr
  unfold splitUpTo splitSpace
  rw [hf]
  cases splits with
  | zero => exact ⟨_, _, rfl⟩
  | succ splits => exact ⟨_, _, rfl⟩

variable {error : Raised}

theorem item_error
    (he : item (splitUpTo 1 text) 0 = .error error) : error = indexError ∧ isBlank text := by
  by_cases hb : isBlank text
  · refine ⟨?_, hb⟩
    unfold item at he
    split at he
    · cases he
    · exact (Except.error.inj he).symm
  · obtain ⟨word, rest, hw⟩ := @splitUpTo_of_not_isBlank text 1 hb
    rw [hw] at he
    cases he

theorem messageCommand_error
    (he : messageCommand text = .error error) : error = indexError ∧ isBlank text := by
  rcases bind_eq_error_iff.mp he with he | ⟨_, _, ⟨⟩⟩
  exact item_error he

theorem messageView_error
    (he : messageView text = .error error) : error = indexError ∧ isBlank text := by
  rcases bind_eq_error_iff.mp he with he | ⟨_, _, ⟨⟩⟩
  exact messageCommand_error he

theorem messageAction_error
    (he : messageAction text = .error error) : error = indexError ∧ isBlank text := by
  rcases bind_eq_error_iff.mp he with he | ⟨_, _, ⟨⟩⟩
  exact messageCommand_error he

theorem menuCommand_obeys {value : String} (hgr : Grants rules (router.isAuthorized userId) userId)
    (hb : isBlank value → rules.raises indexError) :
    Obeys rules (router.menuCommand chatId userId value) := by
  have hi : ∀ error, error = indexError ∧ isBlank value → rules.raises error := by
    rintro error ⟨rfl, hv⟩
    exact hb hv
  refine obeys_bind (obeys_ofExcept fun error he => hi error (messageView_error he))
    fun view => ?_
  refine obeys_bind (obeys_ofExcept fun error he => hi error (messageAction_error he))
    fun action => ?_
  split
  · refine obeys_ite (fun _ => send_obeys hgr) fun hauthorized => ?_
    exact requestConfirmation_obeys hgr (by simpa using hauthorized)
  refine obeys_bind (obeys_ofExcept fun error he => hi error (item_error he))
    fun word => ?_
  refine obeys_ite (fun _ => ?_) fun _ => ?_
  · exact obeys_bind (hgr.asks rfl) fun _ => send_obeys hgr
  · refine obeys_bind (hgr.asks rfl) fun _ => ?_
    exact obeys_bind (viewMarkup_obeys hgr) fun _ => send_obeys hgr

theorem handleMessage_obeys {value : String}
    (hgr : Grants rules (router.isAuthorized userId) userId)
    (hb : isBlank value → rules.raises indexError) :
    Obeys rules (router.handleMessage chatId userId value) := by
  refine obeys_handling (hgr.computes messageEntryMarginLimit_errors)
    (fun _ => send_obeys hgr) fun limit => ?_
  split
  · exact marginCommand_obeys hgr
  refine obeys_handling (hgr.computes messageLeaderCommand_errors)
    (fun _ => send_obeys hgr) fun command => ?_
  split
  · exact leaderCommand_obeys hgr
  · exact menuCommand_obeys hgr hb

end Messages

section Buttons

variable {rules : Rules Call Call.Reply Raised} {router : Router} {callback : Callback}

section

variable (hgr : Grants rules (router.isAuthorized callback.userId) callback.userId)
include hgr

theorem returnCallback_obeys {token : String} :
    Obeys rules (Router.returnCallback callback token) := by
  refine obeys_bind (hgr.asks rfl) fun notification => ?_
  split
  · exact answer_obeys hgr
  refine obeys_bind (answer_obeys hgr) fun _ => ?_
  split
  · exact obeys_pure
  · exact obeys_bind (hgr.computes notificationInlineKeyboard_errors) fun _ =>
      editText_obeys hgr

theorem viewCallback_obeys : Obeys rules (router.viewCallback callback) :=
  obeys_bind (answer_obeys hgr) fun _ =>
    display_obeys hgr (content_obeys (hgr.asks rfl) (viewMarkup_obeys hgr))

theorem pnlLeader_obeys : Obeys rules (Router.pnlLeader callback) := by
  refine obeys_ite (fun _ => answer_obeys hgr) fun _ => ?_
  refine obeys_bind (answer_obeys hgr) fun _ => display_obeys hgr ?_
  exact content_obeys (hgr.asks rfl) (hgr.computes leaderPnlKeyboard_errors)

theorem startAudit_obeys
    (hauthorized : router.isAuthorized callback.userId) : Obeys rules router.startAudit :=
  obeys_ite (fun _ => obeys_ask (hgr.effects hauthorized _ (.inl rfl))) fun _ => obeys_pure

theorem auditRun_obeys : Obeys rules (router.auditRun callback) := by
  refine obeys_ite (fun _ => answer_obeys hgr) fun hauthorized => ?_
  refine obeys_bind (startAudit_obeys hgr (by simpa using hauthorized)) fun started => ?_
  refine obeys_ite (fun _ => answer_obeys hgr) fun _ => ?_
  exact obeys_bind (answer_obeys hgr) fun _ => display_obeys hgr obeys_pure

theorem summaryResetRequest_obeys : Obeys rules (router.summaryResetRequest callback) := by
  refine obeys_ite (fun _ => answer_obeys hgr) fun hauthorized => ?_
  exact obeys_bind (answer_obeys hgr) fun _ =>
    requestConfirmation_obeys hgr (by simpa using hauthorized)

theorem marginManage_obeys : Obeys rules (router.marginManage callback) := by
  refine obeys_ite (fun _ => answer_obeys hgr) fun _ => ?_
  refine obeys_bind (hgr.asks rfl) fun current => obeys_bind (answer_obeys hgr) fun _ => ?_
  refine display_obeys hgr ?_
  exact content_obeys (hgr.asks rfl) (hgr.computes entryMarginLimitKeyboard_errors)

theorem marginCustom_obeys : Obeys rules (router.marginCustom callback) :=
  obeys_ite (fun _ => answer_obeys hgr) fun _ =>
    obeys_bind (answer_obeys hgr) fun _ => send_obeys hgr

theorem withSlot_obeys {failure : String} {rest : LeaderSlot → Bot Unit}
    (hr : ∀ slot, Obeys rules (rest slot)) : Obeys rules (Router.withSlot callback failure rest) :=
  obeys_handling (hgr.computes leaderSlotFromCallback_errors) (fun _ => answer_obeys hgr) hr

theorem leadManage_obeys : Obeys rules (router.leadManage callback) := by
  refine obeys_bind (answer_obeys hgr) fun _ => obeys_ite (fun _ => ?_) fun _ => obeys_pure
  exact display_obeys hgr (obeys_bind (hgr.asks rfl) fun _ => obeys_pure)

theorem leadSlot_obeys : Obeys rules (Router.leadSlot callback) :=
  withSlot_obeys hgr fun _ => obeys_bind (answer_obeys hgr) fun _ =>
    display_obeys hgr obeys_pure

theorem leadManual_obeys : Obeys rules (Router.leadManual callback) :=
  withSlot_obeys hgr fun _ => obeys_bind (answer_obeys hgr) fun _ => send_obeys hgr

theorem leadCandidates_obeys : Obeys rules (router.leadCandidates callback) := by
  refine obeys_ite (fun _ => answer_obeys hgr) fun _ => withSlot_obeys hgr fun slot => ?_
  refine obeys_bind (hgr.asks rfl) fun choices => ?_
  exact obeys_bind (answer_obeys hgr) fun _ => display_obeys hgr obeys_pure

theorem lockManage_obeys : Obeys rules (router.lockManage callback) := by
  refine obeys_ite (fun _ => answer_obeys hgr) fun _ => ?_
  refine obeys_bind (hgr.asks rfl) fun choices => obeys_bind (answer_obeys hgr) fun _ => ?_
  exact display_obeys hgr (obeys_bind (hgr.asks rfl) fun _ => obeys_pure)

theorem multManage_obeys : Obeys rules (router.multManage callback) := by
  refine obeys_ite (fun _ => answer_obeys hgr) fun _ => ?_
  refine obeys_bind (hgr.asks rfl) fun choices => obeys_bind (answer_obeys hgr) fun _ => ?_
  exact display_obeys hgr (obeys_bind (hgr.asks rfl) fun _ => obeys_pure)

theorem multLeader_obeys : Obeys rules (router.multLeader callback) := by
  refine obeys_ite (fun _ => answer_obeys hgr) fun _ => ?_
  refine obeys_bind (hgr.asks rfl) fun choices => ?_
  split
  · exact answer_obeys hgr
  refine obeys_bind (answer_obeys hgr) fun _ => display_obeys hgr ?_
  exact obeys_bind (hgr.computes multiplierValueKeyboard_errors) fun _ => obeys_pure

end

end Buttons

/-! ## Buttons with an effect

Each of them is reached only by an authorised user. -/

section Effects

variable {rules : Rules Call Call.Reply Raised} {router : Router} {callback : Callback}
  (hgr : Grants rules (router.isAuthorized callback.userId) callback.userId)
  (hauthorized : router.isAuthorized callback.userId)

include hgr hauthorized

theorem marginSet_obeys : Obeys rules (router.marginSet callback) := by
  refine obeys_ite (fun _ => answer_obeys hgr) fun _ => ?_
  refine proposed_obeys hgr ?_ fun _ => send_obeys hgr
  exact obeys_bind (hgr.computes normalizeEntryMarginLimit_errors) fun _ =>
    hgr.acts hauthorized rfl

theorem marginConfirm_obeys : Obeys rules (router.marginConfirm callback) := by
  refine obeys_ite (fun _ => answer_obeys hgr) fun _ => ?_
  refine confirmed_obeys hgr (hgr.acts hauthorized rfl) ?_
  exact obeys_bind (hgr.asks rfl) fun _ => hgr.computes entryMarginLimitKeyboard_errors

theorem posClose_obeys : Obeys rules (router.posClose callback) := by
  refine obeys_ite (fun _ => answer_obeys hgr) fun _ => ?_
  split
  · refine obeys_ite (fun _ => answer_obeys hgr) fun _ => ?_
    refine proposed_obeys hgr (hgr.acts hauthorized rfl) fun proposal => ?_
    exact obeys_ite (fun _ => obeys_raise (hgr.valueErrors _ rfl)) fun _ => send_obeys hgr
  · exact answer_obeys hgr

theorem posCloseLeader_obeys : Obeys rules (router.posCloseLeader callback) := by
  refine obeys_ite (fun _ => answer_obeys hgr) fun _ => ?_
  refine obeys_ite (fun _ => answer_obeys hgr) fun _ => ?_
  refine proposed_obeys hgr (hgr.acts hauthorized rfl) fun proposal => ?_
  exact obeys_ite (fun _ => obeys_raise (hgr.valueErrors _ rfl)) fun _ => send_obeys hgr

theorem posConfirm_obeys : Obeys rules (router.posConfirm callback) := by
  refine obeys_ite (fun _ => answer_obeys hgr) fun _ => ?_
  split
  · exact confirmed_obeys hgr (hgr.acts hauthorized rfl) (viewMarkup_obeys hgr)
  · refine obeys_ite (fun _ => answer_obeys hgr) fun _ => ?_
    exact confirmed_obeys hgr (hgr.acts hauthorized rfl) (viewMarkup_obeys hgr)
  · exact answer_obeys hgr

theorem posLeaderConfirm_obeys : Obeys rules (router.posLeaderConfirm callback) := by
  refine obeys_ite (fun _ => answer_obeys hgr) fun _ => ?_
  split
  · refine obeys_ite (fun _ => answer_obeys hgr) fun _ => ?_
    exact confirmed_obeys hgr (hgr.acts hauthorized rfl) (viewMarkup_obeys hgr)
  · exact answer_obeys hgr

theorem leadSet_obeys : Obeys rules (router.leadSet callback) := by
  refine obeys_ite (fun _ => answer_obeys hgr) fun _ => ?_
  split
  · refine proposed_obeys hgr ?_ fun _ => send_obeys hgr
    exact obeys_bind (hgr.computes leaderSlotFromCallback_errors) fun _ =>
      hgr.acts hauthorized rfl
  · exact answer_obeys hgr

theorem leadRemove_obeys : Obeys rules (router.leadRemove callback) := by
  refine obeys_ite (fun _ => answer_obeys hgr) fun _ => ?_
  refine proposed_obeys hgr ?_ fun _ => send_obeys hgr
  exact obeys_bind (hgr.computes leaderSlotFromCallback_errors) fun _ =>
    hgr.acts hauthorized rfl

theorem leadConfirm_obeys : Obeys rules (router.leadConfirm callback) :=
  obeys_ite (fun _ => answer_obeys hgr) fun _ =>
    confirmed_obeys hgr (hgr.acts hauthorized rfl) obeys_pure

theorem lockSet_obeys : Obeys rules (router.lockSet callback) := by
  refine obeys_ite (fun _ => answer_obeys hgr) fun _ => ?_
  split
  · refine obeys_ite (fun _ => answer_obeys hgr) fun _ => ?_
    exact proposed_obeys hgr (hgr.acts hauthorized rfl) fun _ => send_obeys hgr
  · exact answer_obeys hgr

theorem lockConfirm_obeys : Obeys rules (router.lockConfirm callback) := by
  refine obeys_ite (fun _ => answer_obeys hgr) fun _ => ?_
  refine confirmed_obeys hgr (hgr.acts hauthorized rfl) ?_
  exact obeys_bind (hgr.asks rfl) fun _ => obeys_pure

theorem multSet_obeys : Obeys rules (router.multSet callback) := by
  refine obeys_ite (fun _ => answer_obeys hgr) fun _ => ?_
  split
  · refine obeys_ite (fun _ => answer_obeys hgr) fun _ => ?_
    refine proposed_obeys hgr ?_ fun _ => send_obeys hgr
    exact obeys_bind (hgr.computes intOfText_errors) fun _ => hgr.acts hauthorized rfl
  · exact answer_obeys hgr

theorem multConfirm_obeys : Obeys rules (router.multConfirm callback) := by
  refine obeys_ite (fun _ => answer_obeys hgr) fun _ => ?_
  refine confirmed_obeys hgr (hgr.acts hauthorized rfl) ?_
  exact obeys_bind (hgr.asks rfl) fun _ => obeys_pure

theorem controlRequest_obeys : Obeys rules (Router.controlRequest callback) := by
  refine obeys_handling (hgr.computes controlAction_errors) (fun _ => hgr.asks rfl)
    fun action => ?_
  exact obeys_bind (answer_obeys hgr) fun _ => requestConfirmation_obeys hgr hauthorized

omit hauthorized in
theorem editDirectly_obeys {content : Bot (String × InlineKeyboard)}
    (hc : Obeys rules content) : Obeys rules (Router.editDirectly callback content) := by
  unfold Router.editDirectly
  split
  · exact obeys_pure
  · exact obeys_bind hc fun _ => hgr.asks rfl

omit hauthorized in
theorem cancelCallback_obeys : Obeys rules (Router.cancelCallback callback) :=
  obeys_bind (answer_obeys hgr) fun _ =>
    obeys_handling (editDirectly_obeys hgr obeys_pure) (fun _ => obeys_pure) fun _ => obeys_pure

theorem summaryConfirm_obeys : Obeys rules (Router.summaryConfirm callback) := by
  refine obeys_handling (hgr.acts hauthorized rfl) (fun _ => answer_obeys hgr)
    fun result => ?_
  split
  · exact hgr.asks rfl
  refine obeys_bind (answer_obeys hgr) fun _ => editDirectly_obeys hgr ?_
  exact obeys_bind (hgr.asks rfl) fun _ => obeys_bind (hgr.asks rfl) fun _ => obeys_pure

theorem confirmCallback_obeys : Obeys rules (Router.confirmCallback callback) := by
  refine obeys_bind (hgr.acts hauthorized rfl) fun result => ?_
  split
  · exact hgr.asks rfl
  · exact obeys_bind (answer_obeys hgr) fun _ => editDirectly_obeys hgr obeys_pure

end Effects

section Chain

variable {rules : Rules Call Call.Reply Raised} {router : Router} {callback : Callback}

theorem startsWith_trans {text long short : String} (hl : startsWith text long)
    (hs : startsWith long short) : startsWith text short := by
  unfold startsWith at *
  rw [List.isPrefixOf_iff_prefix] at *
  exact hs.trans hl

theorem authorized_of_start {start long : String}
    (hg : Router.guardedStarts.any (startsWith callback.value ·) →
      router.isAuthorized callback.userId)
    (hl : startsWith callback.value long) (hst : start ∈ Router.guardedStarts)
    (hs : startsWith long start) : router.isAuthorized callback.userId :=
  hg (List.any_eq_true.mpr ⟨start, hst, startsWith_trans hl hs⟩)

section

variable (hgr : Grants rules (router.isAuthorized callback.userId) callback.userId)
include hgr

theorem controlCallback_obeys : Obeys rules (router.controlCallback callback) := by
  refine obeys_ite (fun _ => hgr.asks rfl) fun hc => ?_
  have hauthorized : router.isAuthorized callback.userId := by simpa using hc
  refine obeys_ite (fun _ => controlRequest_obeys hgr hauthorized) fun _ => ?_
  refine obeys_ite (fun _ => cancelCallback_obeys hgr) fun _ => ?_
  refine obeys_ite (fun _ => summaryConfirm_obeys hgr hauthorized) fun _ => ?_
  exact obeys_ite (fun _ => confirmCallback_obeys hgr hauthorized) fun _ => obeys_pure

theorem leaderCallback_obeys (hg : Router.guardedStarts.any (startsWith callback.value ·) →
      router.isAuthorized callback.userId) : Obeys rules (router.leaderCallback callback) := by
  have ha : ∀ start long, startsWith callback.value long →
      start ∈ Router.guardedStarts ∧ startsWith long start →
        router.isAuthorized callback.userId :=
    fun _ _ hl hs => authorized_of_start hg hl hs.1 hs.2
  refine obeys_ite (fun _ => leadManage_obeys hgr) fun _ => ?_
  refine obeys_ite (fun _ => leadSlot_obeys hgr) fun _ => ?_
  refine obeys_ite (fun _ => leadManual_obeys hgr) fun _ => ?_
  refine obeys_ite (fun _ => leadCandidates_obeys hgr) fun _ => ?_
  refine obeys_ite (fun hset => leadSet_obeys hgr (ha "lead:" _ hset (by decide)))
    fun _ => ?_
  refine obeys_ite (fun hr => leadRemove_obeys hgr (ha "lead:" _ hr (by decide))) fun _ => ?_
  refine obeys_ite (fun hc => leadConfirm_obeys hgr
    (ha "lead_confirm:" _ hc (by decide))) fun _ => ?_
  refine obeys_ite (fun _ => lockManage_obeys hgr) fun _ => ?_
  refine obeys_ite (fun hset => lockSet_obeys hgr (ha "lock:" _ hset (by decide)))
    fun _ => ?_
  refine obeys_ite (fun hc => lockConfirm_obeys hgr
    (ha "lock_confirm:" _ hc (by decide))) fun _ => ?_
  refine obeys_ite (fun _ => multManage_obeys hgr) fun _ => ?_
  refine obeys_ite (fun _ => multLeader_obeys hgr) fun _ => ?_
  refine obeys_ite (fun hset => multSet_obeys hgr (ha "mult:" _ hset (by decide)))
    fun _ => ?_
  exact obeys_ite (fun hc => multConfirm_obeys hgr
    (ha "mult_confirm:" _ hc (by decide))) fun _ => controlCallback_obeys hgr

theorem positionCallback_obeys (hg : Router.guardedStarts.any (startsWith callback.value ·) →
      router.isAuthorized callback.userId) : Obeys rules (router.positionCallback callback) := by
  have ha : ∀ start long, startsWith callback.value long →
      start ∈ Router.guardedStarts ∧ startsWith long start →
        router.isAuthorized callback.userId :=
    fun _ _ hl hs => authorized_of_start hg hl hs.1 hs.2
  refine obeys_ite (fun _ => marginManage_obeys hgr) fun _ => ?_
  refine obeys_ite (fun _ => marginCustom_obeys hgr) fun _ => ?_
  refine obeys_ite (fun hset => marginSet_obeys hgr (ha "margin:" _ hset (by decide)))
    fun _ => ?_
  refine obeys_ite (fun hc => marginConfirm_obeys hgr
    (ha "margin_confirm:" _ hc (by decide))) fun _ => ?_
  refine obeys_ite (fun hcl => posClose_obeys hgr (ha "pos:" _ hcl (by decide)))
    fun _ => ?_
  refine obeys_ite (fun hcl => posCloseLeader_obeys hgr (ha "pos:" _ hcl (by decide))) fun _ => ?_
  refine obeys_ite (fun hc => posConfirm_obeys hgr (ha "pos_confirm:" _ hc (by decide))) fun _ => ?_
  exact obeys_ite (fun hc => posLeaderConfirm_obeys hgr
    (ha "pos_leader_confirm:" _ hc (by decide))) fun _ =>
      leaderCallback_obeys hgr hg

theorem openCallback_obeys : Obeys rules (router.openCallback callback) := by
  refine obeys_ite (fun _ => viewCallback_obeys hgr) fun _ => ?_
  refine obeys_ite (fun _ => pnlLeader_obeys hgr) fun _ => ?_
  refine obeys_ite (fun _ => auditRun_obeys hgr) fun _ => ?_
  refine obeys_ite (fun _ => summaryResetRequest_obeys hgr) fun _ => ?_
  refine obeys_ite (fun _ => answer_obeys hgr) fun hc => ?_
  refine positionCallback_obeys hgr fun hs => ?_
  rw [Bool.and_eq_true, not_and] at hc
  simpa using hc hs

theorem handleCallback_obeys : Obeys rules (router.handleCallback callback) := by
  unfold Router.handleCallback
  split
  · exact returnCallback_obeys hgr
  · exact openCallback_obeys hgr

end

variable {parsed : ParsedUpdate}

theorem handleParsed_obeys (hgr : Grants rules (parsed.chatId ∈ router.allowedChatIds ∧
      router.isAuthorized parsed.userId) parsed.userId)
    (hb : parsed.kind = .message → parsed.chatId ∈ router.allowedChatIds →
      isBlank parsed.value → rules.raises indexError) :
    Obeys rules (router.handleParsed parsed) := by
  unfold Router.handleParsed
  refine obeys_ite (fun _ => ?_) fun hc => ?_
  · split
    · exact obeys_ite (fun _ => obeys_pure) fun _ => hgr.asks rfl
    · exact obeys_pure
  rw [not_not] at hc
  have hi : Grants rules (router.isAuthorized parsed.userId) parsed.userId :=
    ⟨hgr.quiet, fun hauthorized => hgr.effects ⟨hc, hauthorized⟩, hgr.valueErrors⟩
  split
  · next hk => exact handleMessage_obeys hi (hb hk hc)
  · exact obeys_pure
  · exact handleCallback_obeys hi

/-- The ids of the chat and of the sender that an update document names, in its message or in its
callback query. -/
def SentBy (update : Fields) (chatId userId : ℤ) : Prop :=
  (∃ message chat sender, get update "message" = .object message ∧
    get message "chat" = .object chat ∧ get message "from" = .object sender ∧
    intOf? (get chat "id") = some chatId ∧ intOf? (get sender "id") = some userId) ∨
  ∃ query message chat sender, get update "callback_query" = .object query ∧
    get query "message" = .object message ∧ get message "chat" = .object chat ∧
    get query "from" = .object sender ∧ intOf? (get chat "id") = some chatId ∧
    intOf? (get sender "id") = some userId

theorem objectOf?_eq_some_iff {value : Json} {fields : Fields} :
    objectOf? value = some fields ↔ value = .object fields := by
  cases value with
  | object found => simp [objectOf?]
  | _ => simp [objectOf?]

theorem parseUpdate_sentBy {upd : Fields}
    (hp : parseUpdate upd = some parsed) : SentBy upd parsed.chatId parsed.userId := by
  rcases Option.or_eq_some_iff.mp hp with hf | ⟨_, hf⟩
  · obtain ⟨msg, hm, hr⟩ := Option.bind_eq_some_iff.mp hf
    simp only [parseMessage, Option.bind_eq_bind, Option.bind_eq_some_iff,
      objectOf?_eq_some_iff] at hm hr
    obtain ⟨chat, hch, sender, hs, chatId, hc, userId, hu, _, _, hr⟩ := hr
    cases hr
    exact .inl ⟨msg, chat, sender, hm, hch, hs, hc, hu⟩
  · obtain ⟨qry, hq, hr⟩ := Option.bind_eq_some_iff.mp hf
    simp only [parseCallback, Option.bind_eq_bind, Option.bind_eq_some_iff,
      objectOf?_eq_some_iff] at hq hr
    obtain ⟨sender, hs, msg, hm, chat, hch, userId, hu, chatId, hc, _, _, _, _, hr⟩ := hr
    cases hr
    exact .inr ⟨qry, msg, chat, sender, hq, hm, hch, hs, hc, hu⟩

/-- A world that may answer anything; its state is the calls that were made. -/
def Asked (before : List Call) (call : Call) (_ : Except Raised call.Reply) (after : List Call) :
    Prop :=
  after = before ++ [call]

def senderRules (router : Router) (parsed : ParsedUpdate) : Rules Call Call.Reply Raised where
  asks call := call.isEffectful → (parsed.chatId ∈ router.allowedChatIds ∧
    parsed.userId ∈ router.authorizedUserIds) ∧ call.actsFor parsed.userId
  answers _ _ := True
  raises _ := True
  passes _ _ _ := trivial

theorem senderRules_grants :
    Grants (senderRules router parsed) (parsed.chatId ∈ router.allowedChatIds ∧
      router.isAuthorized parsed.userId) parsed.userId where
  quiet call hquiet he := by
    rw [hquiet] at he
    cases he
  effects hauthorized call ha _ := ⟨⟨hauthorized.1, by simpa [Router.isAuthorized] using
    hauthorized.2⟩, ha⟩
  valueErrors _ _ := trivial

/-- In every run, also one that is cut short, an effect is called for only in an allowed chat and
by an authorised sender, and in the name of that sender. -/
theorem effects_have_sender {upd : Fields} {calls : List Call}
    (hrun : Proc.Reaches Asked [] (router.handle upd) calls) {call : Call}
    (hcall : call ∈ calls) (heffect : call.isEffectful) :
    ∃ parsed, parseUpdate upd = some parsed ∧ SentBy upd parsed.chatId parsed.userId ∧
      parsed.chatId ∈ router.allowedChatIds ∧ parsed.userId ∈ router.authorizedUserIds ∧
      call.actsFor parsed.userId := by
  unfold Router.handle at hrun
  split at hrun
  · cases hrun
    cases hcall
  · next parsed hp =>
    have ho : Obeys (senderRules router parsed) (router.handleParsed parsed) :=
      handleParsed_obeys senderRules_grants fun _ _ _ => trivial
    have ha : ∀ made ∈ calls, (senderRules router parsed).asks made := by
      refine ho.reaches (fun calls => ∀ made ∈ calls, (senderRules router parsed).asks made)
        (fun _ _ _ _ _ => trivial) ?_ (List.forall_mem_nil _) hrun
      rintro pre qry reply _ hb hq rfl
      exact List.forall_mem_append.mpr ⟨hb, List.forall_mem_singleton.mpr hq⟩
    obtain ⟨⟨hc, hu⟩, hac⟩ := ha call hcall heffect
    exact ⟨parsed, hp, parseUpdate_sentBy hp, hc, hu, hac⟩

end Chain

def sampleRouter : Router where
  allowedChatIds := [500]
  authorizedUserIds := [7]
  leaderAdmin := true
  positionAdmin := true
  marginAdmin := true
  auditTrigger := true
  reasonCodeText := id

def sampleParty (id : ℤ) : Json :=
  .object [("id", .integer id)]

def sampleMessage (updateId : ℤ) (text : String) : Fields :=
  [("update_id", .integer updateId), ("message", .object [("chat", sampleParty 500),
    ("from", sampleParty 7), ("text", .string text)])]

def sampleQuery (updateId : ℤ) (data : String) : Fields :=
  [("update_id", .integer updateId), ("callback_query", .object [("id", .string "query-1"),
    ("from", sampleParty 7), ("data", .string data),
    ("message", .object [("chat", sampleParty 500), ("message_id", .integer 31)])])]

def refusing (before : List Call) (call : Call) : Except Raised call.Reply × List Call :=
  (.error (valueError "refused"), before ++ [call])

theorem reaches_refusing {upd : Fields} {calls : List Call}
    (hr : ((sampleRouter.handle upd : Proc _ _ _ _).run refusing []).2 = calls) :
    Proc.Reaches Asked [] (sampleRouter.handle upd) calls := by
  subst hr
  exact Proc.reaches_run fun _ _ => rfl

theorem paused_by_sender : ∃ parsed, parseUpdate (sampleMessage 90 "/pause") = some parsed ∧
    SentBy (sampleMessage 90 "/pause") parsed.chatId parsed.userId ∧
    parsed.chatId ∈ sampleRouter.allowedChatIds ∧
    parsed.userId ∈ sampleRouter.authorizedUserIds ∧
    (Call.create 7 .pauseNewEntries).actsFor parsed.userId := by
  have hc : ((sampleRouter.handle (sampleMessage 90 "/pause") : Proc _ _ _ _).run
      refusing []).2 = [.create 7 .pauseNewEntries] := by
    decide
  exact effects_have_sender (reaches_refusing hc) List.mem_cons_self rfl

theorem audit_has_no_user : ¬ ∀ (router : Router) (upd : Fields) (calls : List Call),
    Proc.Reaches Asked [] (router.handle upd) calls → ∀ call ∈ calls, call.isEffectful →
      ∃ chatId userId, SentBy upd chatId userId ∧ chatId ∈ router.allowedChatIds ∧
        userId ∈ router.authorizedUserIds ∧ call.user? = some userId := by
  intro hc
  have hca : ((sampleRouter.handle (sampleQuery 90 "audit:run") : Proc _ _ _ _).run
      refusing []).2 = [.auditTrigger] := by
    decide
  obtain ⟨_, _, _, _, _, hu⟩ := hc sampleRouter (sampleQuery 90 "audit:run") _
    (reaches_refusing hca) .auditTrigger List.mem_cons_self rfl
  cases hu

end AiQuant.Telegram
