import AiQuant.Lib.Attempt
import AiQuant.Telegram.Keyboards

/-! `TelegramMenuRouter.handle` (`notifications/telegram_bot.py`).  The client, the dashboard, the
challenge store and the administrations are asked; each of them may raise at any call.  The line
printed about a rejected leader is left out. -/
namespace AiQuant.Telegram
open AiQuant.Lib
open AiQuant.UserStream (Fields)
open AiQuant.CopyTrading (LeaderSlot ControlAction leaderSlots isCustomSlot)

/-- What the router calls; `storeUpdate` is a call of the bot's loop. -/
inductive Call where
  | answerCallback (callbackId text : String)
  | sendMessage (chatId : ℤ) (text : String) (markup : Option Markup)
  | editMessage (chatId messageId : ℤ) (text : String) (markup : InlineKeyboard)
  | render (view : String)
  | pnlLeaderChoices
  | renderLeaderPnl (leadPortfolioId : String)
  | notificationMessage (token : String)
  | create (userId : ℤ) (action : ControlAction)
  | executeConfirmed (userId : ℤ) (nonce : String)
  | leaderManagementText
  | leaderCandidates (slot : LeaderSlot)
  | createLeaderChange (userId : ℤ) (slot : LeaderSlot) (leadPortfolioId : Option String)
  | executeLeaderChangeConfirmed (userId : ℤ) (nonce : String)
  | createExternalLeaderChange (userId : ℤ) (slot : LeaderSlot) (leadPortfolioId : String)
  | searchExternalLeaders (slot : LeaderSlot) (nicknameQuery : String)
  | leaderMultiplierText
  | leaderMultiplierChoices
  | createFollowMultiplierChange (userId : ℤ) (leadPortfolioId : String) (multiplier : ℤ)
  | executeFollowMultiplierConfirmed (userId : ℤ) (nonce : String)
  | leaderLockText
  | leaderLockChoices
  | createLeaderLockChange (userId : ℤ) (leadPortfolioId : String) (locked : Bool)
  | executeLeaderLockConfirmed (userId : ℤ) (nonce : String)
  | positionLeaderChoices
  | positionCloseChoices (leadPortfolioId : String) (page : ℕ)
  | createPositionClose (userId : ℤ) (leadPortfolioId symbol : String) (positionSide : PositionSide)
  | executePositionCloseConfirmed (userId : ℤ) (nonce : String)
  | createLeaderPositionsClose (userId : ℤ) (leadPortfolioId : String)
  | executeLeaderPositionsCloseConfirmed (userId : ℤ) (nonce : String)
  | entryMarginLimit
  | createEntryMarginLimitChange (userId : ℤ) (limitHundredths : ℕ)
  | executeEntryMarginLimitConfirmed (userId : ℤ) (nonce : String)
  | auditTrigger
  | storeUpdate (updateId : ℤ) (chatId userId : Option ℤ) (authorized : Bool)
deriving DecidableEq

namespace Call

/-- What a call returns, as far as the router uses it. -/
@[reducible] def Reply : Call → Type
  | answerCallback .. | sendMessage .. | editMessage .. | storeUpdate .. => Unit
  | render _ | renderLeaderPnl _ | leaderManagementText | leaderMultiplierText | leaderLockText |
    create .. => String
  | entryMarginLimit => String
  | pnlLeaderChoices => List LeaderPnlChoice
  | notificationMessage _ => Option (String × String)
  | leaderCandidates _ | searchExternalLeaders .. => List LeaderCandidateChoice
  | leaderMultiplierChoices => List LeaderMultiplierChoice
  | leaderLockChoices => List LeaderLockChoice
  | positionLeaderChoices => List PositionLeaderChoice
  | positionCloseChoices .. => List PositionCloseChoice
  | createLeaderChange .. | createExternalLeaderChange .. | createFollowMultiplierChange .. |
    createLeaderLockChange .. | createPositionClose .. | createLeaderPositionsClose .. |
    createEntryMarginLimitChange .. => Proposal
  | executeConfirmed .. | executeLeaderChangeConfirmed .. | executeFollowMultiplierConfirmed .. |
    executeLeaderLockConfirmed .. | executePositionCloseConfirmed .. |
    executeLeaderPositionsCloseConfirmed .. | executeEntryMarginLimitConfirmed .. => Option String
  | auditTrigger => Bool

end Call

abbrev Bot := Attempt (List Call) Call Call.Reply Raised

def ask (call : Call) : Bot call.Reply :=
  Attempt.ask call

/-- The configuration and the components that are there. -/
structure Router where
  allowedChatIds : List ℤ
  authorizedUserIds : List ℤ
  leaderAdmin : Bool
  positionAdmin : Bool
  marginAdmin : Bool
  auditTrigger : Bool
  /-- `reason_code_text`, a table of texts. -/
  reasonCodeText : String → String

def send (chatId : ℤ) (text : String) (markup : Option Markup) : Bot Unit :=
  ask (.sendMessage chatId text markup)

def answerCallback (callbackId text : String) : Bot Unit :=
  .handling (fun error => error.kind = .telegramCallbackExpired)
    (ask (.answerCallback callbackId text)) (fun _ => pure ()) pure

def inContext (token : Option String) (markup : InlineKeyboard) : Bot InlineKeyboard :=
  match token with
  | some token => .ofExcept (notificationContextMarkup markup token true)
  | none => pure markup

def editText (token : Option String) (chatId messageId : ℤ) (text : String)
    (markup : InlineKeyboard) : Bot Unit := do
  let markup ← inContext token markup
  .handling Raised.isBotError (ask (.editMessage chatId messageId text markup))
    (fun error =>
      if error.kind = .telegramMessageNotModified then pure ()
      else send chatId text (some (.inlineKeyboard markup)))
    pure

/-- The `_send_…_confirmation` methods. -/
def sendConfirmation (chatId : ℤ) (text label confirm cancel : String) : Bot Unit :=
  send chatId text (some (.inlineKeyboard (confirmationKeyboard label confirm cancel)))

def sendLeaderConfirmation (chatId : ℤ) (proposal : Proposal) : Bot Unit :=
  sendConfirmation chatId proposal.confirmationText "✅ 确认变更"
    ("lead_confirm:" ++ proposal.nonce) "view:leaders"

def sendMultiplierConfirmation (chatId : ℤ) (proposal : Proposal) : Bot Unit :=
  sendConfirmation chatId proposal.confirmationText "✅ 确认倍数"
    ("mult_confirm:" ++ proposal.nonce) "mult:manage"

def sendEntryMarginConfirmation (chatId : ℤ) (proposal : Proposal) : Bot Unit :=
  sendConfirmation chatId proposal.confirmationText "✅ 确认额度"
    ("margin_confirm:" ++ proposal.nonce) "margin:manage"

def sendLeaderLockConfirmation (chatId : ℤ) (proposal : Proposal) : Bot Unit :=
  sendConfirmation chatId proposal.confirmationText "✅ 确认"
    ("lock_confirm:" ++ proposal.nonce) "lock:manage"

def sendPositionCloseConfirmation (chatId : ℤ) (proposal : Proposal) (leadPortfolioId : String) :
    Bot Unit :=
  if !isLeaderId leadPortfolioId then
    .raise (valueError "Telegram position leader ID is invalid")
  else
    sendConfirmation chatId proposal.confirmationText "✅ 确认清除此仓"
      ("pos_confirm:" ++ proposal.nonce ++ ":" ++ leadPortfolioId)
      ("view:positions:" ++ leadPortfolioId)

def sendLeaderPositionsCloseConfirmation (chatId : ℤ) (proposal : Proposal)
    (leadPortfolioId : String) : Bot Unit :=
  if !isLeaderId leadPortfolioId then
    .raise (valueError "Telegram position leader ID is invalid")
  else
    sendConfirmation chatId proposal.confirmationText "✅ 确认清空该带单员"
      ("pos_leader_confirm:" ++ proposal.nonce ++ ":" ++ leadPortfolioId)
      ("view:positions:" ++ leadPortfolioId)

def actionLabel : ControlAction → String
  | .pauseNewEntries => "暂停所有新开仓 (减仓仍允许)"
  | .resumeTestnet => "恢复新开仓"
  | .reduceAll => "按虚拟账本全部减仓"
  | .resetAccountSummary => "初始化账户汇总"

def resetSummaryText : String :=
  "⚠️ 确认初始化账户汇总\n当前净值将重新以 150 U 为起点; 今日、本月、累计、各条线、" ++
    "各带单员和各仓位盈亏将从现在归零。\n" ++
    "可用开仓保证金余额会按共享上限扣除已有仓位和待入场订单的占用后重算; " ++
    "不会删除或平掉仓位、撤销订单、修改带单员和额度配置。\n确认按钮 2 分钟内有效。"

def requestConfirmation (chatId userId : ℤ) (action : ControlAction) : Bot Unit := do
  let nonce : String ← ask (.create userId action)
  if action = .resetAccountSummary then
    sendConfirmation chatId resetSummaryText "✅ 确认初始化" ("summary_confirm:" ++ nonce) "view:funds"
  else
    sendConfirmation chatId
      ("⚠️ 确认执行: " ++ actionLabel action ++ "\n确认按钮 2 分钟内有效。") "✅ 确认执行"
      ("confirm:" ++ nonce) ("cancel:" ++ nonce)

def leaderAdminReasonCode (error : Raised) : String :=
  let reason := error.message.toList
  let isCode := reason.head?.any Char.isUpper && 3 ≤ reason.length && reason.length ≤ 128 &&
    reason.all fun character => character.isUpper || character.isDigit || character = '_'
  if isCode then error.message
  else "UNEXPECTED_" ++ String.ofList (error.typeName.toList.map Char.toUpper)

def endsWith (text finish : String) : Bool :=
  finish.toList.isSuffixOf text.toList

namespace Router

variable (router : Router)

def leaderAdminErrorText (reasonCode : String) : String :=
  if reasonCode = "COPY_LEADER_LOOKUP_NOT_FOUND" then
    "没有在 Binance 公开带单员目录中找到这个 ID。如果详情页刚刚恢复公开, 请稍后重试。"
  else if reasonCode ∈ ["COPY_MANUAL_LEADER_ONE_WAY_EVIDENCE_UNRESOLVED",
      "COPY_MANUAL_LEADER_POSITION_SIDE_AMBIGUOUS"] then
    "已读到该带单员, 但公开操作的多空方向证据不完整, 系统为避免下反单已拒绝添加。"
  else if reasonCode = "COPY_ORDER_IDENTITY_AMBIGUOUS" then
    "已找到该带单员, 但 Binance 刚返回的新增操作缺少官方订单 ID 且无法唯一对应。" ++
      "这不是链接或 ID 错误; 系统没有盲目补单, 请稍后重试。"
  else if endsWith reasonCode "_ACCESS_DENIED" || endsWith reasonCode "_RETRY_EXHAUSTED" ||
      reasonCode = "COPY_PUBLIC_TRANSPORT_FAILED" then
    "Binance 公开数据暂时不可用, 系统已记录具体原因, 请稍后重试。"
  else "带单员校验未通过: " ++ router.reasonCodeText reasonCode ++ "。请核对 ID/名称或稍后重试。"

def viewMarkup (view : String) : Bot InlineKeyboard :=
  let (baseView, leadPortfolioId, page) := viewPage view
  if baseView = "pnl" then do
    let choices : List LeaderPnlChoice ← ask .pnlLeaderChoices
    return pnlOverviewKeyboard choices
  else if baseView = "positions" ∧ router.positionAdmin then
    match leadPortfolioId with
    | none => do
      let choices : List PositionLeaderChoice ← ask .positionLeaderChoices
      return positionLeaderKeyboard choices
    | some leaderId => do
      let choices : List PositionCloseChoice ← ask (.positionCloseChoices leaderId page)
      .ofExcept (positionCloseKeyboard (choices.take 8) leaderId page (8 < choices.length))
  else pure (contextualInlineKeyboard baseView)

def isAuthorized (userId : ℤ) : Bool :=
  userId ∈ router.authorizedUserIds

def fundsMarkup : Option Markup :=
  some (.inlineKeyboard (contextualInlineKeyboard "funds"))

def marginCommand (chatId userId : ℤ) (limit : ℕ) : Bot Unit :=
  if !router.isAuthorized userId then send chatId "你没有资金配置权限。" none
  else if !router.marginAdmin then send chatId "资金配置功能当前不可用。" none
  else .handling Raised.isRejection (ask (.createEntryMarginLimitChange userId limit))
    (fun _ => send chatId "额度未变更或配置已失效, 请刷新资金页面后重试。" fundsMarkup)
    (sendEntryMarginConfirmation chatId)

/-- The `try` of a leader command: a `SET` is proposed and answered there, a `FIND` returns what
it found. -/
def leaderRequest (chatId userId : ℤ) (operation : LeaderOperation) (slot : LeaderSlot)
    (query : String) : Bot (Option (List LeaderCandidateChoice)) :=
  match operation with
  | .set => do
    let proposal : Proposal ← ask (.createExternalLeaderChange userId slot query)
    sendLeaderConfirmation chatId proposal
    return none
  | .find => do
    let choices : List LeaderCandidateChoice ← ask (.searchExternalLeaders slot query)
    return some choices

def leaderCommand (chatId userId : ℤ) (operation : LeaderOperation) (slot : LeaderSlot)
    (query : String) : Bot Unit :=
  if !router.isAuthorized userId then send chatId "你没有带单员管理权限。" none
  else if !router.leaderAdmin then send chatId "带单员管理功能当前不可用。" none
  else .handling Raised.isRejection (leaderRequest chatId userId operation slot query)
    (fun error => send chatId (router.leaderAdminErrorText (leaderAdminReasonCode error))
      (some (.inlineKeyboard leaderManagementKeyboard)))
    fun found =>
      match found with
      | none => pure ()
      | some choices =>
        let text := "\n".intercalate (("🔎 " ++ leaderSlotLabel slot ++ "名称搜索结果") ::
          choices.map fun choice => choice.summary)
        send chatId (if choices = [] then "没有找到符合条件且可在 Testnet 执行的带单员。" else text)
          (some (.inlineKeyboard (leaderCandidateKeyboard slot choices)))

def menuCommand (chatId userId : ℤ) (value : String) : Bot Unit := do
  let view ← .ofExcept (messageView value)
  let action ← .ofExcept (messageAction value)
  match action with
  | some action =>
    if !router.isAuthorized userId then send chatId "你没有控制权限。" none
    else requestConfirmation chatId userId action
  | none =>
    let word ← .ofExcept (item (splitUpTo 1 value) 0)
    if startsWith (lower word) "/start" ∨ startsWith (lower word) "/menu" then
      let text : String ← ask (.render "status")
      send chatId text (some persistentReplyKeyboard)
    else
      let text : String ← ask (.render view)
      let markup ← router.viewMarkup view
      send chatId text (some (.inlineKeyboard markup))

def handleMessage (chatId userId : ℤ) (value : String) : Bot Unit :=
  .handling Raised.isValueError (.ofExcept (messageEntryMarginLimit value))
    (fun _ => send chatId "可用保证金额度格式: /margin_limit 60。请输入 5-120 U, 最多两位小数。"
      fundsMarkup)
    fun limit =>
      match limit with
      | some limit => router.marginCommand chatId userId limit
      | none => .handling Raised.isValueError (.ofExcept (messageLeaderCommand value))
        (fun _ => send chatId ("带单员命令格式: /leader_set custom1..custom7 " ++
          "<ID或Binance详情链接>, 或 /leader_find custom1..custom7 名称。") none)
        fun command =>
          match command with
          | some (operation, slot, query) => router.leaderCommand chatId userId operation slot query
          | none => router.menuCommand chatId userId value

end Router

end AiQuant.Telegram
